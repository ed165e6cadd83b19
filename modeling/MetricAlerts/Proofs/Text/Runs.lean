import MetricAlerts.Proofs.Text.Slug

/-!
# Slugs by their runs of letters

What a slug keeps of a text are the runs of letters, digits and dashes of its
lower case, and it joins them by single underscores.  The runs can be told from
the slug, since none of them has an underscore in it.  So two texts have the
same slug just if they have the same runs in the same order.
-/

namespace MetricAlerts.Text

/-- The maximal runs of letters, digits and dashes, in order: what lies between
the other characters, as far as something does. -/
def letterRuns (cs : List Char) : List (List Char) :=
  (cs.splitOnP fun c => !isSlugLetter c).filter fun run => !run.isEmpty

def joinRuns (runs : List (List Char)) : List Char :=
  ['_'].intercalate runs

variable {c d : Char} {cs : List Char} {run : List Char} {runs others : List (List Char)}

theorem letterRuns_cons_of_not (hc : isSlugLetter c = false) :
    letterRuns (c :: cs) = letterRuns cs := by
  simp [letterRuns, List.splitOnP_cons_eq_if_modifyHead, hc]

theorem exists_splitOnP_eq (cs : List Char) :
    ∃ first rest, (cs.splitOnP fun c => !isSlugLetter c) = first :: rest :=
  List.exists_cons_of_ne_nil (List.splitOnP_ne_nil _ _)

/-- A letter before a letter belongs to the same run. -/
theorem letterRuns_cons_cons (hc : isSlugLetter c = true) (hd : isSlugLetter d = true)
    (cs : List Char) :
    ∃ run runs, letterRuns (d :: cs) = run :: runs ∧
      letterRuns (c :: d :: cs) = (c :: run) :: runs := by
  obtain ⟨first, rest, hsplit⟩ := exists_splitOnP_eq cs
  refine ⟨d :: first, rest.filter fun run => !run.isEmpty, ?_, ?_⟩ <;>
    simp [letterRuns, List.splitOnP_cons_eq_if_modifyHead, hc, hd, hsplit]

/-- A letter before another character is a run of its own. -/
theorem letterRuns_cons_cons_of_not (hc : isSlugLetter c = true) (hd : isSlugLetter d = false) :
    letterRuns (c :: d :: cs) = [c] :: letterRuns (d :: cs) := by
  simp [letterRuns, List.splitOnP_cons_eq_if_modifyHead, hc, hd]

theorem isSlugLetter_of_mem_splitOnP (hrun : run ∈ cs.splitOnP fun c => !isSlugLetter c) :
    ∀ c ∈ run, isSlugLetter c = true := by
  induction cs generalizing run with
  | nil => simp_all
  | cons d cs ih =>
      rw [List.splitOnP_cons_eq_if_modifyHead] at hrun
      obtain ⟨first, rest, hsplit⟩ := exists_splitOnP_eq cs
      rw [hsplit] at ih hrun
      cases hd : isSlugLetter d with
      | false =>
          simp only [hd, Bool.not_false, if_true, List.mem_cons] at hrun
          rcases hrun with rfl | hrun
          · simp
          · exact ih (List.mem_cons.2 hrun)
      | true =>
          simp only [hd, Bool.not_true, Bool.false_eq_true, if_false, List.modifyHead_cons,
            List.mem_cons] at hrun
          rcases hrun with rfl | hrun
          · intro c hc
            rcases List.mem_cons.1 hc with rfl | hc
            · exact hd
            · exact ih List.mem_cons_self c hc
          · exact ih (List.mem_cons_of_mem _ hrun)

theorem isSlugLetter_of_mem_letterRuns (hrun : run ∈ letterRuns cs) :
    run ≠ [] ∧ ∀ c ∈ run, isSlugLetter c = true := by
  obtain ⟨hsplit, hne⟩ := List.mem_filter.1 hrun
  exact ⟨by simpa using hne, isSlugLetter_of_mem_splitOnP hsplit⟩

theorem joinRuns_cons_of_ne (run : List Char) (hne : runs ≠ []) :
    joinRuns (run :: runs) = run ++ '_' :: joinRuns runs := by
  rw [joinRuns, List.intercalate_cons_of_ne_nil hne, List.append_assoc]
  rfl

theorem joinRuns_singleton (run : List Char) : joinRuns [run] = run := by
  simp [joinRuns]

/-- A letter put before the first run comes before everything. -/
theorem joinRuns_cons_cons (c : Char) (run : List Char) (runs : List (List Char)) :
    joinRuns ((c :: run) :: runs) = c :: joinRuns (run :: runs) := by
  cases runs with
  | nil => rw [joinRuns_singleton, joinRuns_singleton]
  | cons next runs =>
      rw [joinRuns_cons_of_ne _ (List.cons_ne_nil next runs),
        joinRuns_cons_of_ne _ (List.cons_ne_nil next runs), List.cons_append]

theorem joinRuns_eq_nil_iff (hruns : ∀ run ∈ runs, run ≠ []) : joinRuns runs = [] ↔ runs = [] := by
  constructor
  · intro hjoin
    cases runs with
    | nil => rfl
    | cons run runs =>
        obtain ⟨c, cs, rfl⟩ := List.exists_cons_of_ne_nil (hruns run List.mem_cons_self)
        rw [joinRuns_cons_cons] at hjoin
        exact absurd hjoin (List.cons_ne_nil _ _)
  · rintro rfl
    rfl

/-- Runs can be told from what they are joined to. -/
theorem joinRuns_injective (hruns : ∀ run ∈ runs, run ≠ [] ∧ '_' ∉ run)
    (hothers : ∀ run ∈ others, run ≠ [] ∧ '_' ∉ run) (hjoin : joinRuns runs = joinRuns others) :
    runs = others := by
  have hempty : runs = [] ↔ others = [] := by
    rw [← joinRuns_eq_nil_iff fun run hrun => (hruns run hrun).1, hjoin,
      joinRuns_eq_nil_iff fun run hrun => (hothers run hrun).1]
  by_cases hnil : runs = []
  · rw [hnil, hempty.1 hnil]
  · rw [← List.splitOn_intercalate '_' (fun run hrun => (hruns run hrun).2) hnil,
      ← List.splitOn_intercalate '_' (fun run hrun => (hothers run hrun).2)
        (mt hempty.2 hnil)]
    exact congrArg (List.splitOn '_') hjoin

theorem slugLetter_of_letter (hc : isSlugLetter c = true) : slugLetter c = c := if_pos hc

theorem slugLetter_of_not (hc : isSlugLetter c = false) : slugLetter c = '_' := by
  rw [slugLetter, hc, if_neg Bool.false_ne_true]

theorem ne_underscore_of_letter (hc : isSlugLetter c = true) : c ≠ '_' := by
  rintro rfl
  exact absurd hc (by decide)

theorem collapse_letter (after : Bool) (hc : isSlugLetter c = true) (cs : List Char) :
    collapse after (c :: cs) = c :: collapse false cs :=
  if_neg (ne_underscore_of_letter hc)

/-- To trim the front is to keep no underscore in front. -/
theorem dropWhile_collapse (cs : List Char) :
    (collapse false cs).dropWhile (· == '_') = collapse true cs := by
  cases cs with
  | nil => rfl
  | cons c cs =>
      by_cases hc : c = '_'
      · have hhead := head?_collapse_true cs
        have hkept : (collapse true cs).dropWhile (· == '_') = collapse true cs := by
          cases hrest : collapse true cs with
          | nil => rfl
          | cons d ds =>
              rw [List.dropWhile_cons_of_neg]
              simpa [hrest] using hhead
        simpa [collapse, hc] using hkept
      · simp [collapse, hc]

theorem rdropWhile_cons_of_ne (hc : c ≠ '_') (cs : List Char) :
    (c :: cs).rdropWhile (· == '_') = c :: cs.rdropWhile (· == '_') := by
  induction cs using List.reverseRecOn with
  | nil => simp [List.rdropWhile, hc]
  | append_singleton cs d ih =>
      rw [← List.cons_append, List.rdropWhile_concat, List.rdropWhile_concat, ih]
      split <;> rfl

/-- An underscore stays when something is left behind it. -/
theorem rdropWhile_cons_underscore (cs : List Char) :
    ('_' :: cs).rdropWhile (· == '_') =
      if cs.rdropWhile (· == '_') = [] then [] else '_' :: cs.rdropWhile (· == '_') := by
  induction cs using List.reverseRecOn with
  | nil => rfl
  | append_singleton cs d ih =>
      rw [← List.cons_append, List.rdropWhile_concat, List.rdropWhile_concat, ih]
      split <;> simp

/-- What is kept of a text behind a letter that ends a run. -/
theorem rdropWhile_collapse_cons_of_not (hd : isSlugLetter d = false) (cs : List Char) :
    (collapse false ((d :: cs).map slugLetter)).rdropWhile (· == '_') =
      let kept := (collapse true ((d :: cs).map slugLetter)).rdropWhile (· == '_')
      if kept = [] then [] else '_' :: kept := by
  rw [List.map_cons, slugLetter_of_not hd]
  exact rdropWhile_cons_underscore _

/-- Without the underscores at its end, a collapsed text joins its runs. -/
theorem rdropWhile_collapse (cs : List Char) :
    (collapse true (cs.map slugLetter)).rdropWhile (· == '_') = joinRuns (letterRuns cs) := by
  induction cs with
  | nil => rfl
  | cons c cs ih =>
      cases hc : isSlugLetter c with
      | false =>
          rw [letterRuns_cons_of_not hc, ← ih, List.map_cons, slugLetter_of_not hc]
          rfl
      | true =>
          rw [List.map_cons, slugLetter_of_letter hc, collapse_letter true hc,
            rdropWhile_cons_of_ne (ne_underscore_of_letter hc)]
          -- The next character tells whether the run goes on.
          cases cs with
          | nil => simp [letterRuns, List.splitOnP_cons_eq_if_modifyHead, hc, joinRuns, collapse]
          | cons d cs =>
              cases hd : isSlugLetter d with
              | true =>
                  obtain ⟨run, runs, hrest, hall⟩ := letterRuns_cons_cons hc hd cs
                  rw [hall, joinRuns_cons_cons, ← hrest, ← ih, List.map_cons,
                    slugLetter_of_letter hd, collapse_letter false hd, collapse_letter true hd]
              | false =>
                  have hnil : joinRuns (letterRuns (d :: cs)) = [] ↔ letterRuns (d :: cs) = [] :=
                    joinRuns_eq_nil_iff fun run hrun => (isSlugLetter_of_mem_letterRuns hrun).1
                  rw [rdropWhile_collapse_cons_of_not hd, ih, letterRuns_cons_cons_of_not hc hd]
                  by_cases hruns : letterRuns (d :: cs) = []
                  · rw [if_pos (hnil.2 hruns), hruns, joinRuns_singleton]
                  · rw [if_neg (mt hnil.1 hruns), joinRuns_cons_of_ne _ hruns]
                    rfl

theorem slugChars_eq_joinRuns (cs : List Char) :
    slugChars cs = joinRuns (letterRuns (lowercase (trim cs))) := by
  rw [← rdropWhile_collapse, ← dropWhile_collapse]
  rfl

/-- The slug of a text joins the runs of letters of its lower case by single
underscores.  It looks like a slug and is its own slug, and it tells the runs,
so that texts with the same slug are those with the same runs. -/
theorem slug_eq_intercalate_runs (s t : String) :
    let runs (s : String) := letterRuns (lowercase (trim s.toList))
    (slug s).toList = ['_'].intercalate (runs s) ∧ IsSlug (slug s).toList ∧
      slug (slug s) = slug s ∧ (slug s = slug t ↔ runs s = runs t) := by
  intro runs
  have hjoin (s : String) : (slug s).toList = joinRuns (runs s) := by
    rw [slug, String.toList_ofList, slugChars_eq_joinRuns]
  have hruns (s : String) : ∀ run ∈ runs s, run ≠ [] ∧ '_' ∉ run := by
    intro run hrun
    obtain ⟨hne, hletters⟩ := isSlugLetter_of_mem_letterRuns hrun
    exact ⟨hne, fun hmem => ne_underscore_of_letter (hletters '_' hmem) rfl⟩
  refine ⟨hjoin s, slug_eq_self_iff.1 (slug_slug s), slug_slug s, ?_, ?_⟩
  · intro hslug
    apply joinRuns_injective (hruns s) (hruns t)
    rw [← hjoin, ← hjoin, hslug]
  · intro hsame
    apply String.toList_inj.1
    rw [hjoin, hjoin, hsame]

end MetricAlerts.Text
