import MetricAlerts.Rule.Fault

/-!
# The depth of a formula

The depth is found by a search with a stack, which comes upon the nodes in an
order of its own.  Every turn takes one node, so there are as many turns as
nodes.  And no turn changes how deep the nodes go that were seen or are still to
come, so what was deepest at the end is the height of the tree.
-/

namespace MetricAlerts

namespace Formula

theorem heightAll_le_iff {parts : List Formula} {bound : Nat} :
    heightAll parts ≤ bound ↔ ∀ part ∈ parts, part.height ≤ bound := by
  induction parts with
  | nil => simp [heightAll]
  | cons part parts ih => rw [heightAll, Nat.max_le, ih, List.forall_mem_cons]

theorem Pending.mem_atLevel {level other : Nat} {node : Formula} {parts : List Formula} :
    (node, other) ∈ atLevel level parts ↔ node ∈ parts ∧ other = level := by
  constructor
  · intro hmem
    obtain ⟨part, hpart, heq⟩ := List.mem_map.1 hmem
    cases heq
    exact ⟨hpart, rfl⟩
  · rintro ⟨hpart, rfl⟩
    exact List.mem_map_of_mem hpart

namespace Search

variable {search next : Search} {bound turns : Nat}

/-- Nothing that was seen lies deeper than `bound`, and neither does anything that
is pending or below it. -/
structure StaysWithin (search : Search) (bound : Nat) : Prop where
  seen : search.deepest ≤ bound
  pending : ∀ node level, (node, level) ∈ search.pending → level + node.height ≤ bound + 1

theorem turn?_eq_none_iff : search.turn? = none ↔ search.pending = [] := by
  obtain ⟨deepest, _ | ⟨⟨_ | _, level⟩, rest⟩⟩ := search <;> simp [turn?]

/-- The node on top lies within the bound just if its level does and all its
parts do, one level below.  A leaf has no parts. -/
theorem staysWithin_cons_iff {deepest level : Nat} {node : Formula} (parts : List Formula)
    {rest : Pending} (hheight : node.height = 1 + heightAll parts) :
    StaysWithin ⟨deepest, (node, level) :: rest⟩ bound ↔
      StaysWithin ⟨max deepest level, (Pending.atLevel (level + 1) parts).reverse ++ rest⟩
        bound := by
  constructor
  · rintro ⟨hseen, hpending⟩
    have htop := hpending node level List.mem_cons_self
    refine ⟨Nat.max_le.2 ⟨hseen, by omega⟩, ?_⟩
    intro part other hmem
    rcases List.mem_append.1 hmem with hput | hrest
    · obtain ⟨hpart, rfl⟩ := Pending.mem_atLevel.1 (List.mem_reverse.1 hput)
      have hparts := heightAll_le_iff.1 (Nat.le_refl (heightAll parts)) part hpart
      omega
    · exact hpending part other (List.mem_cons_of_mem _ hrest)
  · rintro ⟨hseen, hpending⟩
    obtain ⟨hdeepest, hlevel⟩ := Nat.max_le.1 hseen
    have hparts : heightAll parts ≤ bound - level := by
      rw [heightAll_le_iff]
      intro part hpart
      have hput := hpending part (level + 1) (List.mem_append_left _
        (List.mem_reverse.2 (Pending.mem_atLevel.2 ⟨hpart, rfl⟩)))
      omega
    refine ⟨hdeepest, ?_⟩
    intro other otherLevel hmem
    rcases List.mem_cons.1 hmem with htop | hrest
    · cases htop
      omega
    · exact hpending other otherLevel (List.mem_append_right _ hrest)

/-- A turn changes nothing about how deep the search goes. -/
theorem staysWithin_of_turn? (hturn : search.turn? = some next) :
    next.StaysWithin bound ↔ search.StaysWithin bound := by
  obtain ⟨deepest, _ | ⟨⟨node, level⟩, rest⟩⟩ := search
  · cases hturn
  · cases node with
    | leaf condition =>
        cases hturn
        exact (staysWithin_cons_iff [] rfl).symm
    | group quantifier parts =>
        cases hturn
        exact (staysWithin_cons_iff parts rfl).symm

theorem finish_le_iff (search : Search) : search.finish ≤ bound ↔ search.StaysWithin bound := by
  fun_induction finish search with
  | case1 search hend =>
      constructor
      · intro hseen
        refine ⟨hseen, ?_⟩
        rw [turn?_eq_none_iff.1 hend]
        intro node level hmem
        cases hmem
      · exact StaysWithin.seen
  | case2 search next hturn ih => rw [ih, staysWithin_of_turn? hturn]

/-- Where the search is after so many turns, if it takes so many. -/
def after : Nat → Search → Option Search
  | 0, search => some search
  | turns + 1, search => search.turn?.bind (after turns)

theorem after_eq_none_iff : search.after turns = none ↔ search.pending.size < turns := by
  induction turns generalizing search with
  | zero => simp [after]
  | succ turns ih =>
      rw [after]
      cases hturn : search.turn? with
      | none => simp [turn?_eq_none_iff.1 hturn, Pending.size]
      | some next => rw [Option.bind_some, ih, ← size_of_turn? hturn, Nat.succ_lt_succ_iff]

/-- There is a turn for each node that is pending or below, and then nothing is
pending any more. -/
theorem after_size (search : Search) :
    search.after search.pending.size = some ⟨search.finish, []⟩ := by
  fun_induction finish search with
  | case1 search hend =>
      obtain ⟨deepest, pending⟩ := search
      obtain rfl : pending = [] := turn?_eq_none_iff.1 hend
      rfl
  | case2 search next hturn ih => rw [← size_of_turn? hturn, after, hturn, Option.bind_some, ih]

end Search

variable {formula : Formula}

theorem staysWithin_search_iff {bound : Nat} :
    formula.search.StaysWithin bound ↔ formula.height ≤ bound := by
  constructor
  · rintro ⟨-, hpending⟩
    have hroot := hpending _ _ List.mem_cons_self
    omega
  · intro hbound
    refine ⟨Nat.zero_le _, ?_⟩
    intro node level hmem
    cases List.mem_singleton.1 hmem
    omega

theorem depth_eq_height (formula : Formula) : formula.depth = formula.height := by
  have hiff (bound : Nat) : formula.depth ≤ bound ↔ formula.height ≤ bound := by
    rw [depth, Search.finish_le_iff, staysWithin_search_iff]
  exact Nat.le_antisymm ((hiff _).2 (Nat.le_refl _)) ((hiff _).1 (Nat.le_refl _))

theorem size_search (formula : Formula) : formula.search.pending.size = formula.size :=
  Nat.add_zero _

end Formula

theorem MessageSet.fault?_ne_tooDeep {messages : MessageSet} {ruleId id : String} {depth : Nat} :
    messages.fault? ruleId ≠ some (.tooDeep id depth) := by
  rw [fault?]
  split <;> simp

theorem Formula.fault?_ne_tooDeep {formula : Formula} {id : String} {depth : Nat} :
    formula.fault? ≠ some (.tooDeep id depth) := by
  intro hfault
  obtain ⟨condition, -, hflaw⟩ := List.exists_of_findSome?_eq_some hfault
  simp [Condition.fault?] at hflaw

theorem Rule.fault?_eq_tooDeep_iff {rule : Rule} {id : String} {depth : Nat} :
    rule.fault? = some (.tooDeep id depth) ↔
      rule.maxPerDay ≠ 0 ∧ maxDepth < rule.logic.depth ∧ id = rule.id ∧
        depth = rule.logic.depth := by
  rw [fault?]
  split
  · next hcap => simp [hcap]
  · next hcap =>
      split
      · next hdeep => simp [hcap, hdeep, eq_comm]
      · next hdeep =>
          simp [hdeep, Option.or_eq_some_iff, MessageSet.fault?_ne_tooDeep,
            Formula.fault?_ne_tooDeep]

/-- The search for the depth takes one turn for each node and no turn more.  Then
nothing is pending, and the deepest level it has seen is the height of the tree.
A rule that may alert at all is refused for its depth, and this depth is told,
just if the tree is higher than 32. -/
theorem Formula.depth_search_exact (formula : Formula) :
    (∀ turns, formula.search.after turns = none ↔ formula.size < turns) ∧
    formula.search.after formula.size = some ⟨formula.height, []⟩ ∧
    formula.depth = formula.height ∧
    ∀ (rule : Rule) (id : String) (depth : Nat),
      { rule with logic := formula }.fault? = some (.tooDeep id depth) ↔
        rule.maxPerDay ≠ 0 ∧ 32 < formula.height ∧ id = rule.id ∧ depth = formula.height := by
  refine ⟨?_, ?_, formula.depth_eq_height, ?_⟩
  · intro turns
    rw [Search.after_eq_none_iff, size_search]
  · rw [← size_search, Search.after_size, ← depth_eq_height]
    rfl
  · intro rule id depth
    rw [Rule.fault?_eq_tooDeep_iff]
    change _ ∧ 32 < formula.depth ∧ _ ∧ _ = formula.depth ↔ _
    rw [formula.depth_eq_height]

end MetricAlerts
