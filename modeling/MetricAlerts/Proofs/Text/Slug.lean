import Mathlib.Data.List.Chain
import Mathlib.Data.List.DropRight
import MetricAlerts.Text.Slug

/-!
# What a slug looks like

A slug consists of letters, digits, dashes and single underscores, with no
underscore at either end.  There is nothing more to it: a text that looks like
this is its own slug, so slugs of slugs bring nothing new.
-/

namespace MetricAlerts.Text

/-- What slugs look like. -/
structure IsSlug (cs : List Char) : Prop where
  letters : ∀ c ∈ cs, slugLetter c = c
  single : cs.IsChain fun a b => a = '_' → b ≠ '_'
  head : cs.head? ≠ some '_'
  last : cs.getLast? ≠ some '_'

theorem slugLetter_eq_self_iff {c : Char} :
    slugLetter c = c ↔ isSlugLetter c = true ∨ c = '_' := by
  unfold slugLetter
  split
  · next hletter => simp [hletter]
  · next hletter => simp [hletter, eq_comm]

@[simp]
theorem slugLetter_slugLetter (c : Char) : slugLetter (slugLetter c) = slugLetter c := by
  by_cases hletter : isSlugLetter c = true
  · simp [slugLetter, hletter]
  · simp [slugLetter, hletter]

theorem toNat_of_slugLetter {c : Char} (hc : slugLetter c = c) :
    97 ≤ c.toNat ∧ c.toNat ≤ 122 ∨ 48 ≤ c.toNat ∧ c.toNat ≤ 57 ∨ c.toNat = 45 ∨
      c.toNat = 95 := by
  rcases slugLetter_eq_self_iff.1 hc with hletter | rfl
  · simp only [isSlugLetter, Bool.or_eq_true, Bool.and_eq_true, decide_eq_true_eq,
      beq_iff_eq] at hletter
    rcases hletter with (hlower | hdigit) | rfl
    · exact .inl hlower
    · exact .inr (.inl hdigit)
    · exact .inr (.inr (.inl rfl))
  · exact .inr (.inr (.inr rfl))

theorem isBlank_of_slugLetter {c : Char} (hc : slugLetter c = c) : isBlank c = false := by
  have hcode := toNat_of_slugLetter hc
  simp only [isBlank, Bool.or_eq_false_iff, Bool.and_eq_false_iff, beq_eq_false_iff_ne,
    decide_eq_false_iff_not]
  omega

/-- Every capital is one of the Latin ones or lies beyond the small ones. -/
theorem lowercaseRuns_apart :
    ∀ run ∈ lowercaseRuns, 123 ≤ run.first ∨ 65 ≤ run.first ∧ run.last ≤ 90 := by
  decide +kernel

theorem lowercaseChar_of_slugLetter {c : Char} (hc : slugLetter c = c) :
    lowercaseChar c = [c] := by
  have hcode := toNat_of_slugLetter hc
  have hnone : lowercaseRuns.find? (·.contains c.toNat) = none := by
    apply List.find?_eq_none.2
    intro run hrun hcontains
    have hapart := lowercaseRuns_apart run hrun
    simp only [CaseRun.contains, Bool.and_eq_true, decide_eq_true_eq] at hcontains
    omega
  have hdotted : c.toNat ≠ 0x130 := by omega
  rw [lowercaseChar, if_neg hdotted, hnone]

variable {cs : List Char}

theorem trim_eq_self (hcs : ∀ c ∈ cs, isBlank c = false) : trim cs = cs := by
  have hdrop : ∀ ds : List Char, (∀ c ∈ ds, isBlank c = false) → ds.dropWhile isBlank = ds := by
    intro ds hds
    cases ds with
    | nil => rfl
    | cons d ds => rw [List.dropWhile_cons_of_neg]; simp [hds d List.mem_cons_self]
  rw [trim, dropBlanks, hdrop cs hcs, dropTrailingBlanks, dropBlanks, hdrop, List.reverse_reverse]
  intro c hc
  exact hcs c (List.mem_reverse.1 hc)

theorem lowercase_eq_self (hcs : ∀ c ∈ cs, slugLetter c = c) : lowercase cs = cs := by
  rw [lowercase, List.flatMap_congr (g := fun c => [c]), List.flatMap_singleton']
  intro c hc
  exact lowercaseChar_of_slugLetter (hcs c hc)

theorem collapse_eq_self {after : Bool}
    (hsingle : cs.IsChain fun a b => a = '_' → b ≠ '_')
    (hafter : after = true → cs.head? ≠ some '_') : collapse after cs = cs := by
  induction cs generalizing after with
  | nil => rfl
  | cons c cs ih =>
      obtain ⟨hnext, hrest⟩ := List.isChain_cons.1 hsingle
      by_cases hc : c = '_'
      · have hfirst : after = false := by
          cases after with
          | false => rfl
          | true => simp [hc] at hafter
        have htail : collapse true cs = cs := by
          apply ih hrest
          intro _ hhead
          exact hnext '_' hhead hc rfl
        simp [collapse, hc, hfirst, htail]
      · have htail : collapse false cs = cs := ih hrest (by simp)
        simp [collapse, hc, htail]

theorem trimUnderscores_eq_self (hhead : cs.head? ≠ some '_') (hlast : cs.getLast? ≠ some '_') :
    trimUnderscores cs = cs := by
  have hfront : cs.dropWhile (· == '_') = cs := by
    cases cs with
    | nil => rfl
    | cons c cs =>
        rw [List.dropWhile_cons_of_neg]
        simpa using hhead
  have hback : cs.rdropWhile (· == '_') = cs := by
    apply List.rdropWhile_eq_self_iff.2
    intro hne hunderscore
    rw [List.getLast?_eq_some_getLast hne] at hlast
    simp only [beq_iff_eq] at hunderscore
    exact hlast (congrArg some hunderscore)
  change (cs.dropWhile (· == '_')).rdropWhile (· == '_') = cs
  rw [hfront, hback]

theorem IsSlug.slugChars_eq_self (hcs : IsSlug cs) : slugChars cs = cs := by
  have htrim : trim cs = cs := trim_eq_self fun c hc => isBlank_of_slugLetter (hcs.letters c hc)
  have hmap : cs.map slugLetter = cs := List.map_congr_left hcs.letters |>.trans (List.map_id cs)
  rw [slugChars, htrim, lowercase_eq_self hcs.letters, hmap,
    collapse_eq_self hcs.single (by simp), trimUnderscores_eq_self hcs.head hcs.last]

theorem collapse_sublist (after : Bool) (cs : List Char) : (collapse after cs).Sublist cs := by
  induction cs generalizing after with
  | nil => exact List.Sublist.slnil
  | cons c cs ih =>
      by_cases hc : c = '_'
      · cases after with
        | false => simpa [collapse, hc] using ih true
        | true => simpa [collapse, hc] using (ih true).cons '_'
      · simpa [collapse, hc] using ih false

/-- After an underscore no other one is kept. -/
theorem head?_collapse_true (cs : List Char) : (collapse true cs).head? ≠ some '_' := by
  induction cs with
  | nil => simp [collapse]
  | cons c cs ih =>
      by_cases hc : c = '_'
      · simpa [collapse, hc] using ih
      · simp [collapse, hc]

theorem isChain_collapse (after : Bool) (cs : List Char) :
    (collapse after cs).IsChain fun a b => a = '_' → b ≠ '_' := by
  induction cs generalizing after with
  | nil => exact .nil
  | cons c cs ih =>
      by_cases hc : c = '_'
      · cases after with
        | true => simpa [collapse, hc] using ih true
        | false =>
            have hkept : collapse false (c :: cs) = '_' :: collapse true cs := by
              simp [collapse, hc]
            rw [hkept]
            apply List.isChain_cons.2 ⟨?_, ih true⟩
            rintro b hb - rfl
            exact head?_collapse_true cs hb
      · have hkept : collapse after (c :: cs) = c :: collapse false cs := by
          simp [collapse, hc]
        rw [hkept]
        apply List.isChain_cons.2 ⟨?_, ih false⟩
        intro b _ hunderscore
        exact absurd hunderscore hc

theorem trimUnderscores_isInfixOf (cs : List Char) : trimUnderscores cs <:+: cs := by
  have hfront : cs.dropWhile (· == '_') <:+ cs := List.dropWhile_suffix _
  have hback : trimUnderscores cs <+: cs.dropWhile (· == '_') := List.rdropWhile_prefix _ _
  exact hback.isInfix.trans hfront.isInfix

theorem head?_trimUnderscores (cs : List Char) : (trimUnderscores cs).head? ≠ some '_' := by
  change ((cs.dropWhile (· == '_')).rdropWhile (· == '_')).head? ≠ some '_'
  intro hhead
  obtain ⟨rest, hrest⟩ := List.rdropWhile_prefix (· == '_') (cs.dropWhile (· == '_'))
  have hfront : (cs.dropWhile (· == '_')).head? = some '_' := by
    rw [← hrest, List.head?_append, hhead, Option.some_or]
  have hnot := List.head?_dropWhile_not (· == '_') cs
  rw [hfront] at hnot
  simp at hnot

theorem getLast?_trimUnderscores (cs : List Char) : (trimUnderscores cs).getLast? ≠ some '_' := by
  change ((cs.dropWhile (· == '_')).rdropWhile (· == '_')).getLast? ≠ some '_'
  intro hlast
  obtain ⟨hne, hunderscore⟩ := List.mem_getLast?_eq_getLast hlast
  have hnot := List.rdropWhile_last_not (· == '_') (cs.dropWhile (· == '_')) hne
  simp [← hunderscore] at hnot

theorem isSlug_slugChars (cs : List Char) : IsSlug (slugChars cs) where
  letters c hc := by
    have hkept := (trimUnderscores_isInfixOf _).subset hc
    obtain ⟨d, -, rfl⟩ := List.mem_map.1 ((collapse_sublist _ _).subset hkept)
    exact slugLetter_slugLetter d
  single := by
    have hchain := isChain_collapse false ((lowercase (trim cs)).map slugLetter)
    obtain ⟨before, after, hsplit⟩ := trimUnderscores_isInfixOf
      (collapse false ((lowercase (trim cs)).map slugLetter))
    rw [← hsplit] at hchain
    exact hchain.left_of_append.right_of_append
  head := head?_trimUnderscores _
  last := getLast?_trimUnderscores _

/-- The texts that are their own slugs. -/
theorem slug_eq_self_iff {s : String} : slug s = s ↔ IsSlug s.toList := by
  constructor
  · intro hslug
    have hchars : slugChars s.toList = s.toList := by
      rw [← String.toList_ofList (l := slugChars s.toList)]
      exact congrArg String.toList hslug
    rw [← hchars]
    exact isSlug_slugChars s.toList
  · intro hchars
    rw [slug, hchars.slugChars_eq_self, String.ofList_toList]

@[simp]
theorem slug_slug (s : String) : slug (slug s) = slug s := by
  rw [slug_eq_self_iff, slug, String.toList_ofList]
  exact isSlug_slugChars s.toList

/-- A text of letters, digits and dashes. -/
theorem isSlug_of_isSlugLetter (hcs : ∀ c ∈ cs, isSlugLetter c = true) : IsSlug cs := by
  have hnone : '_' ∉ cs := by
    intro hmem
    exact absurd (hcs '_' hmem) (by decide)
  constructor
  · intro c hc
    exact slugLetter_eq_self_iff.2 (.inl (hcs c hc))
  · apply List.isChain_iff_forall_rel_of_append_cons_cons.2
    rintro a b before rest rfl rfl
    simp at hnone
  · intro hhead
    exact hnone (List.mem_of_mem_head? hhead)
  · intro hlast
    exact hnone (List.mem_of_mem_getLast? hlast)

/-- A slug stays one when something without underscores is put behind it. -/
theorem IsSlug.append {ds : List Char} (hcs : IsSlug cs) (hne : cs ≠ [])
    (hds : ∀ d ∈ ds, isSlugLetter d = true) : IsSlug (cs ++ ds) := by
  have hslug := isSlug_of_isSlugLetter hds
  constructor
  · intro c hc
    rcases List.mem_append.1 hc with hc | hc
    · exact hcs.letters c hc
    · exact hslug.letters c hc
  · apply hcs.single.append hslug.single
    rintro a - b hb - rfl
    exact hslug.head hb
  · rw [List.head?_append_of_ne_nil _ hne]
    exact hcs.head
  · rw [List.getLast?_append]
    cases hlast : ds.getLast? with
    | none => exact hcs.last
    | some d =>
        rintro hunderscore
        exact hslug.last (hlast.trans hunderscore)

end MetricAlerts.Text
