import MetricAlerts.Proofs.Files.Duplicates
import MetricAlerts.Proofs.Rule.Validity
import MetricAlerts.Proofs.Rulebook.Changes

/-!
# Rules created one after the other

A rule is stored under its normal id, at version 1.  So the only thing that can
keep a rule out, once it has no fault, is that its id is taken.  Ids are taken
for the same reason for which rules count as duplicates, up to names that are
made up: hence rules without duplicates can be created in any order, and the
first duplicate is the first rule that cannot be created.
-/

namespace MetricAlerts

namespace Registry

/-- A rule as it is stored at first. -/
def asNew (stamp : Stamp) (rule : Rule) : Rule :=
  { rule with id := normalId rule.id stamp.token, version := 1 }

@[simp]
theorem id_asNew (stamp : Stamp) (rule : Rule) :
    (asNew stamp rule).id = normalId rule.id stamp.token := by
  rw [asNew]

@[simp]
theorem tenant_asNew (stamp : Stamp) (rule : Rule) : (asNew stamp rule).tenant = rule.tenant := by
  rw [asNew]

@[simp]
theorem enabled_asNew (stamp : Stamp) (rule : Rule) :
    (asNew stamp rule).enabled = rule.enabled := by
  rw [asNew]

/-- The name of a rule has no part in its faults. -/
@[simp]
theorem fault?_asNew (stamp : Stamp) (rule : Rule) :
    (asNew stamp rule).fault? = none ↔ rule.fault? = none := by
  simp only [Rule.fault?_eq_none_iff, MessageSet.fault?_eq_none_iff, asNew]

/-- Rules as they are stored one after the other. -/
def allAsNew (stamp : Nat → Stamp) (index : Nat) (rules : List Rule) : List Rule :=
  (rules.zipIdx index).map fun (rule, place) => asNew (stamp place) rule

theorem allAsNew_cons (stamp : Nat → Stamp) (index : Nat) (rule : Rule) (rules : List Rule) :
    allAsNew stamp index (rule :: rules) =
      asNew (stamp index) rule :: allAsNew stamp (index + 1) rules := by
  rw [allAsNew, List.zipIdx_cons, List.map_cons, allAsNew]

theorem mem_allAsNew {stamp : Nat → Stamp} {rules : List Rule} {stored : Rule} :
    stored ∈ allAsNew stamp 0 rules ↔
      ∃ place rule, rules[place]? = some rule ∧ asNew (stamp place) rule = stored := by
  simp only [allAsNew, List.mem_map, Prod.exists, List.mem_zipIdx_iff_getElem?]
  constructor
  · rintro ⟨rule, place, hplace, hstored⟩
    exact ⟨place, rule, hplace, hstored⟩
  · rintro ⟨place, rule, hplace, hstored⟩
    exact ⟨rule, place, hplace, hstored⟩

/-- Every rule that has to be given a name gets one that no other rule has. -/
def NamesAreFresh (stamp : Nat → Stamp) (rules : List Rule) : Prop :=
  ∀ place other rule neighbour, rules[place]? = some rule → rules[other]? = some neighbour →
    place ≠ other → Text.slug rule.id = "" →
      normalId rule.id (stamp place).token ≠ normalId neighbour.id (stamp other).token

theorem normalId_of_slug_ne {id : String} (hslug : Text.slug id ≠ "") (token : Uuid) :
    normalId id token = Text.slug id := by
  have hsome : ¬(Text.slug id).isEmpty = true := fun hempty => hslug (String.isEmpty_iff.1 hempty)
  rw [normalId]
  exact if_neg hsome

theorem nodup_allAsNew {stamp : Nat → Stamp} {rules : List Rule}
    (howns : Rule.HaveOwnSlugs rules) (hfresh : NamesAreFresh stamp rules) :
    ((allAsNew stamp 0 rules).map Rule.id).Nodup := by
  apply List.pairwise_iff_getElem.2
  intro place other hplace hother hlt
  simp only [allAsNew, List.length_map, List.length_zipIdx] at hplace hother
  simp only [allAsNew, List.getElem_map, List.getElem_zipIdx, Nat.zero_add, asNew]
  have hrule := List.getElem?_eq_getElem hplace
  have hneighbour := List.getElem?_eq_getElem hother
  by_cases hblank : Text.slug rules[place].id = ""
  · exact hfresh place other _ _ hrule hneighbour (Nat.ne_of_lt hlt) hblank
  · by_cases hblankOther : Text.slug rules[other].id = ""
    · exact (hfresh other place _ _ hneighbour hrule (Nat.ne_of_gt hlt) hblankOther).symm
    · rw [normalId_of_slug_ne hblank, normalId_of_slug_ne hblankOther]
      intro hsame
      exact hblank (List.pairwise_iff_getElem.1 howns place other hplace hother hlt hsame)

theorem perm_rules_insert {book : Rulebook} {id : String} {lineage : Lineage}
    (hfree : book.find? id = none) :
    (Rulebook.rules (book.insert id lineage)).Perm (lineage.rule :: book.rules) := by
  have hbefore := book.values_perm id
  have hafter := (book.insert id lineage).values_perm id
  rw [Table.find?_insert, if_pos rfl, Table.erase_insert] at hafter
  rw [hfree] at hbefore
  exact (hafter.trans (hbefore.symm.cons lineage)).map Lineage.rule

variable {registry later : Registry} {actor : Actor} {stamp : Stamp} {rule asked : Rule}

theorem of_create_eq_ok (hcreate : registry.create asked actor stamp = (.ok rule, later)) :
    asked.fault? = none ∧ later.book.rules.Perm (asNew stamp asked :: registry.book.rules) ∧
      (registry.book.IsKeyed → later.book.IsKeyed) := by
  have hanswers := registry.answers_create actor stamp asked
  rw [hcreate] at hanswers
  cases hanswers with
  | done hbecomes =>
      rw [create, ← asNew] at hcreate
      generalize hstored : asNew stamp asked = stored at hcreate ⊢
      dsimp only at hcreate
      split at hcreate
      · cases hcreate
      · next hvalid =>
          split at hcreate
          · cases hcreate
          · next hfree =>
              cases hcreate
              have hnone := Table.not_contains_iff.1 hfree
              exact ⟨(fault?_asNew stamp asked).1 (hstored ▸ hvalid), perm_rules_insert hnone,
                fun hbook => hbook.of_becomes hbecomes⟩

theorem create_eq_ok (actor : Actor) (stamp : Stamp) (hvalid : asked.fault? = none)
    (hfree : registry.book.find? (normalId asked.id stamp.token) = none) :
    ∃ later, registry.create asked actor stamp = (.ok (asNew stamp asked), later) := by
  have hcontains : ¬registry.book.contains (asNew stamp asked).id = true := by
    rwa [id_asNew, Table.not_contains_iff]
  refine ⟨⟨registry.book.insert (asNew stamp asked).id (.start (revisionBy actor stamp
    (asNew stamp asked))), registry.trail ++ [recordOf actor stamp .create (asNew stamp asked).id
      none (some (asNew stamp asked))]⟩, ?_⟩
  rw [create, ← asNew, (fault?_asNew stamp asked).2 hvalid]
  exact if_neg hcontains

theorem create_eq_error (actor : Actor) (stamp : Stamp) (hvalid : asked.fault? = none)
    (htaken : registry.book.contains (normalId asked.id stamp.token) = true) :
    registry.create asked actor stamp =
      (.error (.alreadyExists (normalId asked.id stamp.token)), registry) := by
  rw [← id_asNew] at htaken ⊢
  rw [create, ← asNew, (fault?_asNew stamp asked).2 hvalid]
  exact if_pos htaken

/-! ## One after the other -/

/-- Creates rules one after the other, up to the first that is refused. -/
def createAll (actor : Actor) (stamp : Nat → Stamp) : (index : Nat) → Registry → List Rule →
    Except EditError Registry
  | _, registry, [] => .ok registry
  | index, registry, rule :: rules =>
      match registry.create rule actor (stamp index) with
      | (.error cause, _) => .error cause
      | (.ok _, registry) => createAll actor stamp (index + 1) registry rules

section Row

variable {stamp : Nat → Stamp} {rules : List Rule} {index : Nat}

theorem createAll_append (before after : List Rule) (registry : Registry) (index : Nat) :
    createAll actor stamp index registry (before ++ after) =
      (createAll actor stamp index registry before).bind fun registry =>
        createAll actor stamp (index + before.length) registry after := by
  induction before generalizing index registry with
  | nil => rfl
  | cons rule rules ih =>
      rw [List.cons_append, createAll, createAll]
      obtain ⟨answer, next⟩ := registry.create rule actor (stamp index)
      cases answer with
      | error cause => rfl
      | ok stored =>
          simp only [ih, List.length_cons]
          rw [Nat.add_assoc, Nat.add_comm 1]

/-- Rules that were created have no faults, and are in the book with those that
were there before. -/
theorem of_createAll_eq_ok (hcreate : createAll actor stamp index registry rules = .ok later) :
    (∀ rule ∈ rules, rule.fault? = none) ∧
      later.book.rules.Perm (registry.book.rules ++ allAsNew stamp index rules) ∧
      (registry.book.IsKeyed → later.book.IsKeyed) := by
  induction rules generalizing index registry with
  | nil =>
      cases hcreate
      refine ⟨?_, ?_, id⟩
      · rintro rule ⟨⟩
      · exact .of_eq (List.append_nil _).symm
  | cons rule rules ih =>
      rw [createAll] at hcreate
      split at hcreate
      · cases hcreate
      · next stored next hfirst =>
          obtain ⟨hvalid, hstored, hkeyed⟩ := of_create_eq_ok hfirst
          obtain ⟨hvalids, hrest, hkeyedRest⟩ := ih hcreate
          refine ⟨List.forall_mem_cons.2 ⟨hvalid, hvalids⟩, ?_, hkeyedRest ∘ hkeyed⟩
          rw [allAsNew_cons]
          -- What was created first now stands in front of what was there before.
          have hall := hrest.trans (hstored.append_right (allAsNew stamp (index + 1) rules))
          exact hall.trans List.perm_middle.symm

/-- Rules without faults can be created if no two of them come under one id, and
none under the id of a rule that is there. -/
theorem exists_createAll (actor : Actor) (hvalid : ∀ rule ∈ rules, rule.fault? = none)
    (hbook : registry.book.IsKeyed)
    (hnodup : ((registry.book.rules ++ allAsNew stamp index rules).map Rule.id).Nodup) :
    ∃ later, createAll actor stamp index registry rules = .ok later := by
  induction rules generalizing index registry with
  | nil => exact ⟨registry, rfl⟩
  | cons rule rules ih =>
      obtain ⟨hrule, hrules⟩ := List.forall_mem_cons.1 hvalid
      rw [allAsNew_cons] at hnodup
      have hmoved : ((registry.book.rules ++ asNew (stamp index) rule ::
          allAsNew stamp (index + 1) rules).map Rule.id).Perm
            ((asNew (stamp index) rule :: (registry.book.rules ++
              allAsNew stamp (index + 1) rules)).map Rule.id) :=
        List.perm_middle.map Rule.id
      have hnotMem := hmoved.nodup_iff.1 hnodup
      rw [List.map_cons, List.nodup_cons, List.map_append, List.mem_append, not_or] at hnotMem
      have hfree : registry.book.find? (normalId rule.id (stamp index).token) = none := by
        apply Option.eq_none_iff_forall_ne_some.2
        intro lineage hlineage
        apply hnotMem.1.1
        have hmem : lineage.rule ∈ registry.book.rules :=
          List.mem_map_of_mem (Table.mem_values_of_find? hlineage)
        rw [id_asNew, ← hbook.rule_id hlineage]
        exact List.mem_map_of_mem hmem
      obtain ⟨next, hcreate⟩ := create_eq_ok actor (stamp index) hrule hfree
      obtain ⟨-, hfirst, hkeyed⟩ := of_create_eq_ok hcreate
      have hrest := ((hfirst.append_right (allAsNew stamp (index + 1) rules)).map
        Rule.id).nodup_iff.2 (hmoved.nodup_iff.1 hnodup)
      obtain ⟨later, hlater⟩ := ih hrules (hkeyed hbook) hrest
      refine ⟨later, ?_⟩
      rw [createAll, hcreate]
      exact hlater

/-- The ids under which rules are stored differ if and only if their slugs tell
them apart, as long as made-up names are new. -/
theorem nodup_allAsNew_iff (hfresh : NamesAreFresh stamp rules) :
    ((allAsNew stamp 0 rules).map Rule.id).Nodup ↔ Rule.HaveOwnSlugs rules := by
  refine ⟨fun hnodup => ?_, fun howns => nodup_allAsNew howns hfresh⟩
  apply List.pairwise_iff_getElem.2
  intro place other hplace hother hlt hsame
  by_contra hslug
  have hdiffer := List.pairwise_iff_getElem.1 hnodup place other
    (by simpa [allAsNew] using hplace) (by simpa [allAsNew] using hother) hlt
  simp only [allAsNew, List.getElem_map, List.getElem_zipIdx, Nat.zero_add, id_asNew] at hdiffer
  apply hdiffer
  rw [normalId_of_slug_ne hslug, normalId_of_slug_ne (hsame ▸ hslug), hsame]

end Row

section Duplicates

variable {stamp : Nat → Stamp} {rules before after order : List Rule} {id : String}

theorem NamesAreFresh.of_append (hfresh : NamesAreFresh stamp (before ++ after)) :
    NamesAreFresh stamp before := by
  intro place other rule neighbour hrule hneighbour
  apply hfresh place other
  · exact List.getElem?_append_left (List.getElem?_eq_some_iff.1 hrule).1 ▸ hrule
  · exact List.getElem?_append_left (List.getElem?_eq_some_iff.1 hneighbour).1 ▸ hneighbour

/-- Rules without faults can all be created, if and only if no two of them are
duplicates. -/
theorem exists_createAll_empty_iff (actor : Actor) (hvalid : ∀ rule ∈ rules, rule.fault? = none)
    (hfresh : NamesAreFresh stamp rules) :
    (∃ registry, createAll actor stamp 0 .empty rules = .ok registry) ↔
      Rule.HaveOwnSlugs rules := by
  rw [← nodup_allAsNew_iff hfresh]
  constructor
  · rintro ⟨registry, hcreate⟩
    obtain ⟨-, hstored, hkeyed⟩ := of_createAll_eq_ok hcreate
    exact (hstored.map Rule.id).nodup_iff.1 (hkeyed Rulebook.isKeyed_empty).nodup_rules
  · intro hnodup
    have hempty : Registry.empty.book.IsKeyed := Rulebook.isKeyed_empty
    exact exists_createAll actor hvalid hempty hnodup

/-- The id of a rule is taken when one with the same slug was created. -/
theorem contains_of_createAll (hcreate : createAll actor stamp 0 .empty before = .ok later)
    {other : Rule} (hother : other ∈ before) (hslug : Text.slug other.id ≠ "") :
    later.book.contains (Text.slug other.id) = true := by
  obtain ⟨-, hstored, hkeyed⟩ := of_createAll_eq_ok hcreate
  obtain ⟨place, hplace⟩ := List.getElem?_of_mem hother
  have hmem : asNew (stamp place) other ∈ later.book.rules :=
    hstored.mem_iff.2 (mem_allAsNew.2 ⟨place, other, hplace, rfl⟩)
  have hfound := (hkeyed Rulebook.isKeyed_empty).rule?_eq_some_iff.2 ⟨hmem, rfl⟩
  rw [id_asNew, normalId_of_slug_ne hslug, Rulebook.rule?] at hfound
  obtain ⟨lineage, hlineage, -⟩ := Option.map_eq_some_iff.1 hfound
  rw [Table.contains, hlineage]
  rfl

/-- Two ways of telling rules apart agree.  The search for duplicates looks at
slugs alone and passes over rules that have none; what is created gets an id, and
ids must differ.  Whatever the order in which rules without faults are created,
all of them can be if and only if the search finds no duplicate; and the first
rule that cannot be created is the one that the search has found, since its slug
is taken. -/
theorem createAll_refuses_duplicates (actor : Actor) (rules : List Rule)
    (hvalid : ∀ rule ∈ rules, rule.fault? = none) :
    (∀ order stamp, order.Perm rules → NamesAreFresh stamp order →
      ((∃ arranged, Rule.arrange rules = .ok arranged) ↔
        ∃ registry, createAll actor stamp 0 .empty order = .ok registry)) ∧
    ∀ id, Rule.arrange rules = .error (.duplicateRule id) →
      ∃ before rule after, rules = before ++ rule :: after ∧ rule.id = id ∧
        (∃ arranged, Rule.arrange before = .ok arranged) ∧
        Rule.arrange (before ++ [rule]) = .error (.duplicateRule id) ∧
        ∀ stamp, NamesAreFresh stamp rules → ∃ registry,
          createAll actor stamp 0 .empty before = .ok registry ∧
          registry.create rule actor (stamp before.length) =
            (.error (.alreadyExists (Text.slug id)), registry) ∧
          createAll actor stamp 0 .empty rules = .error (.alreadyExists (Text.slug id)) := by
  constructor
  · intro order stamp hperm hfresh
    have hvalidOrder : ∀ rule ∈ order, rule.fault? = none := fun rule hrule =>
      hvalid rule (hperm.mem_iff.1 hrule)
    rw [Rule.exists_arrange_iff, exists_createAll_empty_iff actor hvalidOrder hfresh]
    exact ⟨fun howns => howns.perm hperm.symm, fun howns => howns.perm hperm⟩
  · intro id hduplicate
    rw [Rule.arrange_eq_error_iff] at hduplicate
    obtain ⟨before, rule, after, rfl, rfl, hnone, hfound, hslug, htaken⟩ :=
      Rule.exists_of_duplicate?_eq_some hduplicate
    refine ⟨before, rule, after, rfl, rfl, Rule.exists_arrange_iff_duplicate?.2 hnone,
      Rule.arrange_eq_error_iff.2 hfound, fun stamp hfresh => ?_⟩
    obtain ⟨hvalidBefore, hvalidAfter⟩ := List.forall_mem_append.1 hvalid
    have howns := Rule.exists_arrange_iff.1 (Rule.exists_arrange_iff_duplicate?.2 hnone)
    obtain ⟨registry, hbefore⟩ :=
      (exists_createAll_empty_iff actor hvalidBefore hfresh.of_append).2 howns
    obtain ⟨other, hother, hsame⟩ := htaken.resolve_left List.not_mem_nil
    have hcontains := contains_of_createAll hbefore hother (hsame.trans_ne hslug)
    have hid := normalId_of_slug_ne hslug (stamp before.length).token
    rw [hsame, ← hid] at hcontains
    have hrefused := create_eq_error actor (stamp before.length)
      (List.forall_mem_cons.1 hvalidAfter).1 hcontains
    rw [hid] at hrefused
    refine ⟨registry, hbefore, hrefused, ?_⟩
    rw [createAll_append, hbefore, Except.bind, Nat.zero_add, createAll, hrefused]

def namedRule (id : String) : Rule where
  id := id
  version := 1
  tenant := "acme"
  enabled := true
  description := none
  category := ""
  priority := 0
  severity := 0
  cooldownDays := 1
  maxPerDay := 1
  tags := .empty
  logic := .group .all []
  messages := ⟨"en", [⟨none, "hello", 1⟩]⟩

def sleepRules : List Rule := ["Sleep Bad", "?!", " sleep  bad! "].map namedRule

def numberedStamp (place : Nat) : Stamp :=
  ⟨⟨0, 0⟩, .nil, .ofRandom (List.replicate 16 (UInt8.ofNat place))⟩

theorem namesAreFresh_sleepRules : NamesAreFresh numberedStamp sleepRules := by
  have hnames : ∀ place other : Fin sleepRules.length, place ≠ other →
      Text.slug sleepRules[place].id = "" →
        normalId sleepRules[place].id (numberedStamp place).token ≠
          normalId sleepRules[other].id (numberedStamp other).token := by
    decide +kernel
  intro place other rule neighbour hrule hneighbour hne
  obtain ⟨hplace, rfl⟩ := List.getElem?_eq_some_iff.1 hrule
  obtain ⟨hother, rfl⟩ := List.getElem?_eq_some_iff.1 hneighbour
  exact hnames ⟨place, hplace⟩ ⟨other, hother⟩ (fun hsame => hne (Fin.mk.inj hsame))

theorem createAll_refuses_duplicates_sleepRules :
    (∀ rule ∈ sleepRules, rule.fault? = none) ∧
    Rule.arrange sleepRules = .error (.duplicateRule " sleep  bad! ") ∧
    (¬∃ registry, createAll .system numberedStamp 0 .empty sleepRules = .ok registry) ∧
    createAll .system numberedStamp 0 .empty sleepRules = .error (.alreadyExists "sleep_bad") := by
  have hvalid : ∀ rule ∈ sleepRules, rule.fault? = none := by
    decide +kernel
  have hduplicate : Rule.arrange sleepRules = .error (.duplicateRule " sleep  bad! ") := by
    rw [Rule.arrange_eq_error_iff]
    decide +kernel
  have hslug : Text.slug " sleep  bad! " = "sleep_bad" := by decide +kernel
  obtain ⟨hiff, hfirst⟩ := createAll_refuses_duplicates .system sleepRules hvalid
  obtain ⟨before, rule, after, -, -, -, -, hrefused⟩ := hfirst _ hduplicate
  obtain ⟨registry, -, -, hall⟩ := hrefused numberedStamp namesAreFresh_sleepRules
  refine ⟨hvalid, hduplicate, ?_, hslug ▸ hall⟩
  rw [← hiff sleepRules numberedStamp (.refl _) namesAreFresh_sleepRules, hduplicate]
  rintro ⟨arranged, ⟨⟩⟩

end Duplicates

end Registry

end MetricAlerts
