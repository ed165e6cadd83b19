import MetricAlerts.Proofs.Message.Matches
import MetricAlerts.Proofs.Message.Plain

/-!
# Filling templates

A template is filled match by match, and what stands between the matches is
copied.  The statistics that it announces are those that its text depends on: it
looks up each of them, and no others.
-/

namespace MetricAlerts

open Text

variable {template ruleId : String} {snapshot second : Snapshot} {glossary : Glossary}
  {placeholder : Placeholder} {reference other : Reference} {cs rest : List Char}

namespace Placeholder

theorem metric_of_reference? (hreference : placeholder.reference? = some reference) :
    reference.metric = placeholder.metric := by
  rw [reference?_eq] at hreference
  split at hreference
  · cases hreference
  · obtain ⟨statistic, -, rfl⟩ := Option.map_eq_some_iff.1 hreference
    rfl

theorem isWordChar_of_read? (hread : read? cs = some (placeholder, rest)) :
    ∀ c ∈ placeholder.metric.toList, isWordChar c = true := by
  unfold read? at hread
  split at hread
  · next tail =>
      have hword : ∀ c ∈ (dropBlanks tail).takeWhile isWordChar, isWordChar c = true :=
        fun c hc => List.mem_takeWhile_imp hc
      dsimp only at hread
      split at hread
      · cases hread
      · next c name hname =>
          rw [hname] at hword
          split at hread
          · cases hread
            rwa [String.toList_ofList]
          · obtain ⟨after, -, hafter⟩ := Option.map_eq_some_iff.1 hread
            cases hafter
            rwa [String.toList_ofList]
  · cases hread

end Placeholder

theorem Piece.isWordChar_of_slot (hslot : .slot placeholder ∈ Piece.ofChars cs) :
    ∀ c ∈ placeholder.metric.toList, Placeholder.isWordChar c = true := by
  induction cs using Piece.ofChars.induct with
  | case1 => simp [ofChars] at hslot
  | case2 c cs slot rest hread ih =>
      rw [ofChars_of_read? hread] at hslot
      obtain heq | hslot := List.mem_cons.1 hslot
      · cases heq
        exact Placeholder.isWordChar_of_read? hread
      · exact ih hslot
  | case3 c cs hread ih =>
      rw [ofChars_cons_of_none hread] at hslot
      obtain heq | hslot := List.mem_cons.1 hslot
      · cases heq
      · exact ih hslot

namespace Placeholder

theorem append_colon_injective {name later : List Char} (hname : ':' ∉ name) (hlater : ':' ∉ later)
    (hsame : name ++ ':' :: cs = later ++ ':' :: rest) : name = later ∧ cs = rest := by
  have htake := congrArg (List.takeWhile (· != ':')) hsame
  have hopen {name : List Char} (hname : ':' ∉ name) : ∀ c ∈ name, (c != ':') = true :=
    fun c hc => bne_iff_ne.2 fun hcolon => hname (hcolon ▸ hc)
  rw [List.takeWhile_append_of_pos (hopen hname),
    List.takeWhile_append_of_pos (hopen hlater)] at htake
  change name ++ [] = later ++ [] at htake
  obtain rfl := List.append_cancel_right htake
  exact ⟨rfl, (List.cons.inj (List.append_cancel_left hsame)).2⟩

/-- A warning tells its statistic, as there is no colon in the name of a metric
that a template shows. -/
theorem notAvailable_injective (hreference : ':' ∉ reference.metric.toList)
    (hother : ':' ∉ other.metric.toList) (hsame : notAvailable reference = notAvailable other) :
    reference = other := by
  have hlist := congrArg String.toList hsame
  simp only [notAvailable, String.toList_append, List.append_assoc] at hlist
  obtain ⟨hmetric, hrest⟩ :=
    append_colon_injective hreference hother (List.append_cancel_left hlist)
  have hname := String.toList_inj.1 (List.append_cancel_right hrest)
  have hstatistic : some reference.statistic = some other.statistic := by
    rw [← Statistic.ofName?_name, hname, Statistic.ofName?_name]
  obtain ⟨metric, statistic⟩ := reference
  obtain ⟨later, named⟩ := other
  obtain rfl : metric = later := String.toList_inj.1 hmetric
  obtain rfl : statistic = named := Option.some_inj.1 hstatistic
  rfl

theorem getLast?_toList_append (first : String) {last : String} {c : Char}
    (hlast : last.toList.getLast? = some c) : (first ++ last).toList.getLast? = some c := by
  rw [String.toList_append, List.getLast?_append, hlast]
  rfl

/-- Among the warnings about placeholders, only a missing value has this one. -/
theorem warning_fill_eq_notAvailable_iff (hreference : ':' ∉ reference.metric.toList)
    (hmetric : ':' ∉ placeholder.metric.toList) :
    (placeholder.fill ruleId snapshot glossary).2 = some (notAvailable reference) ↔
      placeholder.reference? = some reference ∧ snapshot.value? reference = none := by
  cases hlooked : placeholder.reference? with
  | none =>
      refine iff_of_false ?_ fun hnever => by cases hnever.1
      rw [fill_of_no_reference hlooked]
      split
      · exact fun hnever => by cases hnever
      · -- The two warnings differ in their last letter.
        intro hsame
        have hmissing : (notAvailable reference).toList.getLast? = some 'e' :=
          getLast?_toList_append _ rfl
        rw [← Option.some_inj.1 hsame, getLast?_toList_append _ rfl] at hmissing
        exact absurd hmissing (by decide)
  | some shown =>
      have hshown : ':' ∉ shown.metric.toList := by
        rwa [metric_of_reference? hlooked]
      rw [fill_of_reference hlooked, Option.some_inj]
      cases hvalue : snapshot.value? shown with
      | none =>
          rw [Option.some_inj]
          constructor
          · intro hsame
            obtain rfl := notAvailable_injective hshown hreference hsame
            exact ⟨rfl, hvalue⟩
          · rintro ⟨rfl, -⟩
            rfl
      | some value =>
          refine iff_of_false (warning_showValue_ne _ _ _) ?_
          rintro ⟨rfl, hmissing⟩
          rw [hvalue] at hmissing
          cases hmissing

end Placeholder

theorem colon_notMem_of_slot (hslot : .slot placeholder ∈ Piece.ofChars cs) :
    ':' ∉ placeholder.metric.toList :=
  fun hcolon => absurd (Piece.isWordChar_of_slot hslot ':' hcolon) (by decide)

theorem colon_notMem_of_mem (hreference : reference ∈ (templateReferences template).items) :
    ':' ∉ reference.metric.toList := by
  obtain ⟨placeholder, hslot, hlooked⟩ := mem_templateReferences.1 hreference
  rw [Placeholder.metric_of_reference? hlooked]
  exact colon_notMem_of_slot hslot

/-- A statistic that is announced is looked up: its absence does not go without a
warning. -/
theorem notAvailable_mem_warnings_iff
    (hreference : reference ∈ (templateReferences template).items) :
    Placeholder.notAvailable reference ∈ (render template ruleId snapshot glossary).warnings ↔
      snapshot.value? reference = none := by
  have hname := colon_notMem_of_mem hreference
  rw [render, List.filterMap_map, List.mem_filterMap]
  constructor
  · rintro ⟨piece, hpiece, hwarning⟩
    cases piece with
    | char c => cases hwarning
    | slot placeholder =>
        exact ((Placeholder.warning_fill_eq_notAvailable_iff hname
          (colon_notMem_of_slot hpiece)).1 hwarning).2
  · intro hmissing
    obtain ⟨placeholder, hslot, hlooked⟩ := mem_templateReferences.1 hreference
    exact ⟨.slot placeholder, hslot, (Placeholder.warning_fill_eq_notAvailable_iff hname
      (colon_notMem_of_slot hslot)).2 ⟨hlooked, hmissing⟩⟩

/-- What is announced is what the text depends on. -/
theorem mem_templateReferences_iff_depends :
    reference ∈ (templateReferences template).items ↔
      ∃ first second : Snapshot,
        (∀ other, other ≠ reference → first.value? other = second.value? other) ∧
        render template ruleId first glossary ≠ render template ruleId second glossary := by
  constructor
  · intro hreference
    let known : Snapshot := Table.insert .empty reference (.ok 0)
    have hknown (other : Reference) :
        known.value? other = if other = reference then some 0 else none := by
      rw [Snapshot.value?, Snapshot.get, Table.find?_insert]
      split <;> rfl
    refine ⟨known, .empty, ?_, ?_⟩
    · intro other hother
      rw [hknown, if_neg hother]
      rfl
    · intro hsame
      have hmissing : Placeholder.notAvailable reference ∈
          (render template ruleId .empty glossary).warnings :=
        (notAvailable_mem_warnings_iff hreference).2 rfl
      rw [← hsame, notAvailable_mem_warnings_iff hreference, hknown, if_pos rfl] at hmissing
      cases hmissing
  · rintro ⟨first, second, hothers, hdiffer⟩
    by_contra hreference
    refine hdiffer (render_congr (fun other hother => hothers other ?_) fun _ => rfl)
    rintro rfl
    exact hreference hother

/-! ## Between the matches -/

/-- What a match and the text in front of it become. -/
def Stretch.fill (ruleId : String) (snapshot : Snapshot) (glossary : Glossary)
    (stretch : Stretch) : String × Option String :=
  let filled := stretch.found.placeholder.fill ruleId snapshot glossary
  (String.ofList stretch.before ++ filled.1, filled.2)

theorem join_map_singleton (cs : List Char) :
    String.join (cs.map String.singleton) = String.ofList cs := by
  rw [← String.toList_inj, String.toList_join, String.toList_ofList, List.flatMap_map]
  induction cs with
  | nil => rfl
  | cons c cs ih => rw [List.flatMap_cons, ih, String.toList_singleton, List.singleton_append]

variable (ruleId : String) (snapshot : Snapshot) (glossary : Glossary)

/-- Text is copied. -/
theorem join_fill_chars (cs : List Char) :
    String.join ((cs.map Piece.char).map fun piece => (piece.fill ruleId snapshot glossary).1) =
      String.ofList cs := by
  rw [List.map_map]
  exact join_map_singleton cs

/-- Text gives no warnings. -/
theorem warnings_chars (cs : List Char) :
    (cs.map Piece.char).filterMap (fun piece => (piece.fill ruleId snapshot glossary).2) = [] := by
  rw [List.filterMap_map, List.filterMap_eq_nil_iff]
  intro c hc
  rfl

theorem join_fill_pieces (stretch : Stretch) :
    String.join (stretch.pieces.map fun piece => (piece.fill ruleId snapshot glossary).1) =
      (stretch.fill ruleId snapshot glossary).1 := by
  rw [Stretch.pieces, List.map_append, String.join_append, join_fill_chars, List.map_singleton,
    String.join_cons, String.join_nil, String.append_empty]
  rfl

theorem warnings_pieces (stretch : Stretch) :
    stretch.pieces.filterMap (fun piece => (piece.fill ruleId snapshot glossary).2) =
      (stretch.fill ruleId snapshot glossary).2.toList := by
  rw [Stretch.pieces, List.filterMap_append, warnings_chars, List.nil_append,
    List.filterMap_eq_flatMap_toList, List.flatMap_singleton]
  rfl

theorem join_flatMap {α : Type} (xs : List α) (texts : α → List String) :
    String.join (xs.flatMap texts) = String.join (xs.map fun x => String.join (texts x)) := by
  induction xs with
  | nil => rfl
  | cons x xs ih => rw [List.flatMap_cons, String.join_append, ih, List.map_cons, String.join_cons]

theorem render_of_pieces {stretches : List Stretch} {tail : List Char}
    (hpieces : Piece.ofChars template.toList = stretches.flatMap Stretch.pieces ++ tail.map .char) :
    render template ruleId snapshot glossary =
      ⟨String.join (stretches.map fun stretch => (stretch.fill ruleId snapshot glossary).1) ++
          String.ofList tail,
        stretches.filterMap fun stretch => (stretch.fill ruleId snapshot glossary).2⟩ := by
  have htext : String.join ((Piece.ofChars template.toList).map
      fun piece => (piece.fill ruleId snapshot glossary).1) =
      String.join (stretches.map fun stretch => (stretch.fill ruleId snapshot glossary).1) ++
        String.ofList tail := by
    rw [hpieces, List.map_append, String.join_append, join_fill_chars, List.map_flatMap,
      join_flatMap]
    simp only [join_fill_pieces]
  have hwarnings : (Piece.ofChars template.toList).filterMap
      (fun piece => (piece.fill ruleId snapshot glossary).2) =
      stretches.filterMap fun stretch => (stretch.fill ruleId snapshot glossary).2 := by
    rw [hpieces, List.filterMap_append, warnings_chars, List.append_nil, List.filterMap_flatMap,
      List.filterMap_eq_flatMap_toList]
    simp only [warnings_pieces]
  rw [render, List.map_map, List.filterMap_map, ← htext, ← hwarnings]
  rfl

theorem slot_mem_iff {stretches : List Stretch} {tail : List Char}
    (hpieces : Piece.ofChars cs = stretches.flatMap Stretch.pieces ++ tail.map .char) :
    .slot placeholder ∈ Piece.ofChars cs ↔
      ∃ stretch ∈ stretches, stretch.found.placeholder = placeholder := by
  rw [hpieces]
  simp [Stretch.pieces, eq_comm]

/-- A template is cut at the leftmost matches of the pattern of placeholders, in
one way only.  What stands between them is copied, each match gives way to its
value, and nothing is looked for in what was filled in; so a template where
nothing matches stays as it is.  The statistics that the template announces are
those of its matches.  Two snapshots that agree on them lead to the same text and
the same warnings, the absence of each of them is told, and no other statistic
has an influence. -/
theorem render_follows_matches (template ruleId : String) (glossary : Glossary) :
    (∃ stretches tail,
      Pattern.placeholder.Cuts template.toList stretches tail ∧
      (∀ later rest, Pattern.placeholder.Cuts template.toList later rest →
        later = stretches ∧ rest = tail) ∧
      template.toList =
        (stretches.flatMap fun stretch => stretch.before ++ stretch.found.text) ++ tail ∧
      (∀ snapshot, render template ruleId snapshot glossary =
        ⟨String.join (stretches.map fun stretch => (stretch.fill ruleId snapshot glossary).1) ++
            String.ofList tail,
          stretches.filterMap fun stretch => (stretch.fill ruleId snapshot glossary).2⟩) ∧
      ∀ reference, reference ∈ (templateReferences template).items ↔
        ∃ stretch ∈ stretches, stretch.found.placeholder.reference? = some reference) ∧
    ((∀ cs, cs <:+ template.toList → Pattern.placeholder.first? cs = none) →
      ∀ snapshot, render template ruleId snapshot glossary = ⟨template, []⟩) ∧
    (∀ first second : Snapshot,
      (∀ reference ∈ (templateReferences template).items,
        first.value? reference = second.value? reference) →
      render template ruleId first glossary = render template ruleId second glossary) ∧
    (∀ reference ∈ (templateReferences template).items, ∀ snapshot,
      Placeholder.notAvailable reference ∈ (render template ruleId snapshot glossary).warnings ↔
        snapshot.value? reference = none) ∧
    ∀ reference, reference ∈ (templateReferences template).items ↔
      ∃ first second : Snapshot,
        (∀ other, other ≠ reference → first.value? other = second.value? other) ∧
        render template ruleId first glossary ≠ render template ruleId second glossary := by
  obtain ⟨stretches, tail, hcuts, hpieces⟩ := Piece.exists_cuts template.toList
  refine ⟨⟨stretches, tail, hcuts, ?_, hcuts.append_eq, ?_, ?_⟩, ?_, ?_, ?_, ?_⟩
  · exact fun later rest hlater => hlater.unique hcuts
  · exact fun snapshot => render_of_pieces ruleId snapshot glossary hpieces
  · intro reference
    simp [mem_templateReferences, slot_mem_iff hpieces]
  · intro hnone snapshot
    obtain ⟨rfl, rfl⟩ := hcuts.unique (.last hnone)
    rw [render_of_pieces ruleId snapshot glossary hpieces, List.map_nil, String.join_nil,
      String.empty_append, String.ofList_toList, List.filterMap_nil]
  · exact fun first second hsame => render_congr hsame fun _ => rfl
  · exact fun reference hreference snapshot => notAvailable_mem_warnings_iff hreference
  · exact fun reference => mem_templateReferences_iff_depends

end MetricAlerts
