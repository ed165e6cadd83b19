import MetricAlerts.Files.Items

/-!
# Rules that come under one name

Rules of files are told apart by their slugs, and a rule without a slug is like
no other.  The search for a duplicate goes through the rules once, with the
slugs that it has seen.  It finds none if and only if all slugs differ, in
whatever order the rules come; and what it finds is the first rule whose slug
one of those before it has.
-/

namespace MetricAlerts.Rule

/-- Rules whose slugs tell them apart, as far as they have any. -/
def HaveOwnSlugs (rules : List Rule) : Prop :=
  rules.Pairwise fun rule other => Text.slug rule.id = Text.slug other.id → Text.slug rule.id = ""

variable {rules others : List Rule} {seen : List String} {id : String}

theorem HaveOwnSlugs.perm (howns : HaveOwnSlugs rules) (hperm : rules.Perm others) :
    HaveOwnSlugs others := by
  apply List.Pairwise.perm howns hperm
  intro rule other hown hsame
  exact hsame.trans (hown hsame.symm)

section Head

variable {rule : Rule}

theorem duplicate?_cons_of_blank (hblank : Text.slug rule.id = "") :
    duplicate? seen (rule :: rules) = duplicate? seen rules := by
  rw [duplicate?, if_pos (String.isEmpty_iff.2 hblank)]

theorem duplicate?_cons_of_mem (hslug : Text.slug rule.id ≠ "") (hseen : Text.slug rule.id ∈ seen) :
    duplicate? seen (rule :: rules) = some rule.id := by
  rw [duplicate?, if_neg (fun hempty => hslug (String.isEmpty_iff.1 hempty)),
    if_pos (List.contains_iff_mem.2 hseen)]

theorem duplicate?_cons_of_notMem (hslug : Text.slug rule.id ≠ "")
    (hseen : Text.slug rule.id ∉ seen) :
    duplicate? seen (rule :: rules) = duplicate? (Text.slug rule.id :: seen) rules := by
  rw [duplicate?, if_neg (fun hempty => hslug (String.isEmpty_iff.1 hempty)),
    if_neg (fun hcontains => hseen (List.contains_iff_mem.1 hcontains))]

end Head

theorem duplicate?_eq_none_iff :
    duplicate? seen rules = none ↔
      HaveOwnSlugs rules ∧ ∀ rule ∈ rules, Text.slug rule.id ∈ seen → Text.slug rule.id = "" := by
  induction rules generalizing seen with
  | nil => simp [duplicate?, HaveOwnSlugs]
  | cons rule rules ih =>
      rw [HaveOwnSlugs, List.pairwise_cons, List.forall_mem_cons, ← HaveOwnSlugs]
      by_cases hblank : Text.slug rule.id = ""
      · rw [duplicate?_cons_of_blank hblank, ih]
        simp [hblank]
      · by_cases hseen : Text.slug rule.id ∈ seen
        · rw [duplicate?_cons_of_mem hblank hseen]
          simp [hblank, hseen]
        · rw [duplicate?_cons_of_notMem hblank hseen, ih]
          constructor
          · rintro ⟨howns, hrest⟩
            refine ⟨⟨?_, howns⟩, fun hold => absurd hold hseen, ?_⟩
            · intro other hother hsame
              rw [hsame]
              apply hrest other hother
              rw [hsame]
              exact List.mem_cons_self
            · intro other hother hold
              exact hrest other hother (List.mem_cons_of_mem _ hold)
          · rintro ⟨⟨hfirst, howns⟩, -, hrest⟩
            refine ⟨howns, fun other hother hold => ?_⟩
            rcases List.mem_cons.1 hold with hsame | hold
            · exact absurd (hfirst other hother hsame.symm) hblank
            · exact hrest other hother hold

/-- What is found is the first rule whose slug was seen. -/
theorem exists_of_duplicate?_eq_some (hsome : duplicate? seen rules = some id) :
    ∃ before rule after, rules = before ++ rule :: after ∧ rule.id = id ∧
      duplicate? seen before = none ∧ duplicate? seen (before ++ [rule]) = some id ∧
      Text.slug id ≠ "" ∧
        (Text.slug id ∈ seen ∨ ∃ other ∈ before, Text.slug other.id = Text.slug id) := by
  induction rules generalizing seen with
  | nil => cases hsome
  | cons first rules ih =>
      by_cases hblank : Text.slug first.id = ""
      · rw [duplicate?_cons_of_blank hblank] at hsome
        obtain ⟨before, rule, after, rfl, hid, hnone, hfound, hslug, htaken⟩ := ih hsome
        refine ⟨first :: before, rule, after, rfl, hid, ?_, ?_, hslug, ?_⟩
        · rw [duplicate?_cons_of_blank hblank, hnone]
        · rw [List.cons_append, duplicate?_cons_of_blank hblank, hfound]
        · exact htaken.imp_right fun ⟨other, hother, hsame⟩ =>
            ⟨other, List.mem_cons_of_mem _ hother, hsame⟩
      · by_cases hseen : Text.slug first.id ∈ seen
        · have hfound (after : List Rule) : duplicate? seen (first :: after) = some first.id :=
            duplicate?_cons_of_mem hblank hseen
          rw [hfound] at hsome
          cases hsome
          exact ⟨[], first, rules, rfl, rfl, rfl, hfound [], hblank, .inl hseen⟩
        · rw [duplicate?_cons_of_notMem hblank hseen] at hsome
          obtain ⟨before, rule, after, rfl, hid, hnone, hfound, hslug, htaken⟩ := ih hsome
          refine ⟨first :: before, rule, after, rfl, hid, ?_, ?_, hslug, ?_⟩
          · rw [duplicate?_cons_of_notMem hblank hseen, hnone]
          · rw [List.cons_append, duplicate?_cons_of_notMem hblank hseen, hfound]
          · rcases htaken with hold | ⟨other, hother, hsame⟩
            · rcases List.mem_cons.1 hold with hfirst | hold
              · exact .inr ⟨first, List.mem_cons_self, hfirst.symm⟩
              · exact .inl hold
            · exact .inr ⟨other, List.mem_cons_of_mem _ hother, hsame⟩

theorem exists_arrange_iff_duplicate? :
    (∃ arranged, arrange rules = .ok arranged) ↔ duplicate? [] rules = none := by
  rw [arrange]
  cases duplicate? [] rules <;> simp

theorem arrange_eq_error_iff :
    arrange rules = .error (.duplicateRule id) ↔ duplicate? [] rules = some id := by
  rw [arrange]
  cases duplicate? [] rules <;> simp

/-- Rules can be put in order if and only if their slugs tell them apart. -/
theorem exists_arrange_iff : (∃ arranged, arrange rules = .ok arranged) ↔ HaveOwnSlugs rules := by
  rw [exists_arrange_iff_duplicate?, duplicate?_eq_none_iff]
  simp

theorem of_arrange_eq_ok {arranged : List Rule} (harrange : arrange rules = .ok arranged) :
    HaveOwnSlugs rules ∧ arranged = rules.mergeSort precedes := by
  refine ⟨exists_arrange_iff.1 ⟨arranged, harrange⟩, ?_⟩
  rw [arrange] at harrange
  split at harrange
  · cases harrange
  · cases harrange
    rfl

theorem arrange_eq_ok (howns : HaveOwnSlugs rules) :
    arrange rules = .ok (rules.mergeSort precedes) := by
  obtain ⟨arranged, harrange⟩ := exists_arrange_iff.2 howns
  rw [harrange, (of_arrange_eq_ok harrange).2]

theorem exists_arrange_eq_error (hdouble : ¬HaveOwnSlugs rules) :
    ∃ id, arrange rules = .error (.duplicateRule id) := by
  cases hduplicate : duplicate? [] rules with
  | none =>
      have howns := exists_arrange_iff.1 (exists_arrange_iff_duplicate?.2 hduplicate)
      exact absurd howns hdouble
  | some id => exact ⟨id, arrange_eq_error_iff.2 hduplicate⟩

theorem load_eq_arrange {files : FileTree} {path : String}
    (hitems : inFiles.load files path = .ok rules) : load files path = arrange rules := by
  rw [load, hitems]
  rfl

/-- What is loaded was brought into order. -/
theorem exists_items_of_load {files : FileTree} {path : String}
    (hload : load files path = .ok rules) :
    ∃ items, inFiles.load files path = .ok items ∧ HaveOwnSlugs items ∧
      rules = items.mergeSort precedes := by
  cases hitems : inFiles.load files path with
  | error cause =>
      rw [load, hitems] at hload
      cases hload
  | ok items =>
      rw [load_eq_arrange hitems] at hload
      exact ⟨items, rfl, of_arrange_eq_ok hload⟩

theorem haveOwnSlugs_of_load {files : FileTree} {path : String}
    (hload : load files path = .ok rules) : HaveOwnSlugs rules := by
  obtain ⟨items, -, howns, rfl⟩ := exists_items_of_load hload
  exact howns.perm (List.mergeSort_perm items precedes).symm

end MetricAlerts.Rule
