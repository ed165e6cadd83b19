import Mathlib.Data.List.Forall2
import Mathlib.Data.List.Sort
import MetricAlerts.Proofs.Document.Equality
import MetricAlerts.Proofs.Files.Duplicates
import MetricAlerts.Proofs.Files.Writing
import MetricAlerts.Proofs.Rule.Order

/-!
# Items however they are packed

A document holds its items as a list, in a field of a record, or as the only one,
and the documents of a folder hold together what one file could.  All that is
left of the packing is the order in which the items are loaded.  Rules are then
told apart and brought into order, and neither depends on that: the same rules
are loaded alike however they are packed, or are refused however they are packed.
The one thing that packing can change is whether a text is read at all, since a
list puts its items one deeper, and documents have a greatest depth.
-/

namespace MetricAlerts

namespace ItemKind

variable {α : Type} {kind : ItemKind α} {files : FileTree} {path : String}
  {document : Document} {objects items : List Document}

/-- Documents that hold these objects. -/
inductive Packs (kind : ItemKind α) : Document → List Document → Prop
  | nothing : kind.Packs .null []
  | list (items : List Document) : kind.Packs (.list items) items
  | field {fields : List (Key × Document)} {items : List Document}
      (hfield : Document.fieldNamed? kind.field fields = some (.list items)) :
      kind.Packs (.record fields) items
  | single (object : Document) : kind.Packs object [object]

/-- The file has the text of a document with these objects. -/
def PacksFile (kind : ItemKind α) (files : FileTree) (path : String) (items : List Document) :
    Prop :=
  ∃ text document, files.read path = .ok text ∧ Yaml.read? text = some document ∧
    kind.Packs document items

/-- The objects are in the file, or shared out between the documents of the folder, in
any order. -/
inductive PacksPath (kind : ItemKind α) (files : FileTree) (path : String)
    (objects : List Document) : Prop
  | file {items : List Document} (hfile : kind.PacksFile files path items)
      (hperm : items.Perm objects)
  | folder {paths : List String} {parts : List (List Document)}
      (hfolder : files.isFolder path = true) (hpaths : documentsIn files path = .ok paths)
      (hparts : List.Forall₂ (kind.PacksFile files) paths parts)
      (hperm : parts.flatten.Perm objects)

/-- A record that is read as an item and not taken for a document of many. -/
def IsItem (kind : ItemKind α) (object : Document) : Prop :=
  (∃ fields, object = .record fields) ∧ object.field? kind.field = none ∧
    (kind.read object).isSome

theorem mapM_read (hitems : ∀ object ∈ items, kind.IsItem object) :
    items.mapM kind.read = some (items.filterMap kind.read) := by
  induction items with
  | nil => rfl
  | cons object items ih =>
      rw [List.forall_mem_cons] at hitems
      obtain ⟨item, hitem⟩ := Option.isSome_iff_exists.1 hitems.1.2.2
      rw [List.mapM_cons, List.filterMap_cons_some hitem, hitem, ih hitems.2]
      rfl

theorem Packs.ofDocument_eq_ok (hpacks : kind.Packs document items)
    (hitems : ∀ object ∈ items, kind.IsItem object) :
    kind.ofDocument document = .ok (items.filterMap kind.read) := by
  have hread := mapM_read hitems
  cases hpacks with
  | nothing => rfl
  | list => simp only [ofDocument, hread]
  | field hfield =>
      simp only [ofDocument, hfield, Document.readList?, Document.asList?, Option.bind_eq_bind,
        Option.bind_some, hread]
  | single =>
      obtain ⟨⟨fields, rfl⟩, hfield, hsome⟩ := hitems document List.mem_cons_self
      obtain ⟨item, hitem⟩ := Option.isSome_iff_exists.1 hsome
      change Document.fieldNamed? kind.field fields = none at hfield
      rw [List.filterMap_cons_some hitem]
      simp only [ofDocument, hfield, hitem, List.filterMap_nil]

theorem PacksFile.loadFile_eq_ok (hpacks : kind.PacksFile files path items)
    (hitems : ∀ object ∈ items, kind.IsItem object) :
    kind.loadFile files path = .ok (items.filterMap kind.read) := by
  obtain ⟨text, document, htext, hdocument, hpacks⟩ := hpacks
  rw [kind.loadFile_of_read htext, ofText, hdocument]
  change (kind.ofDocument document).mapError _ = _
  rw [hpacks.ofDocument_eq_ok hitems]
  rfl

theorem mapM_loadFile {paths : List String} {parts : List (List Document)}
    (hparts : List.Forall₂ (kind.PacksFile files) paths parts)
    (hitems : ∀ object ∈ parts.flatten, kind.IsItem object) :
    paths.mapM (kind.loadFile files) = .ok (parts.map (List.filterMap kind.read)) := by
  induction hparts with
  | nil => rfl
  | cons hpart _ ih =>
      simp only [List.flatten_cons, List.forall_mem_append] at hitems
      rw [List.mapM_cons, hpart.loadFile_eq_ok hitems.1, ih hitems.2]
      rfl

/-- All items are loaded, in an order that depends on how they are packed. -/
theorem PacksPath.exists_load_eq_ok (hpacks : kind.PacksPath files path objects)
    (hitems : ∀ object ∈ objects, kind.IsItem object) :
    ∃ loaded, kind.load files path = .ok loaded ∧
      loaded.Perm (objects.filterMap kind.read) := by
  cases hpacks with
  | @file items hfile hperm =>
      have hload := hfile.loadFile_eq_ok fun object hobject =>
        hitems object (hperm.mem_iff.1 hobject)
      obtain ⟨text, -, htext, -⟩ := hfile
      refine ⟨items.filterMap kind.read, ?_, hperm.filterMap kind.read⟩
      rw [kind.load_of_read htext, ← kind.loadFile_of_read htext, hload]
  | @folder paths parts hfolder hpaths hparts hperm =>
      have hload := mapM_loadFile hparts fun object hobject =>
        hitems object (hperm.mem_iff.1 hobject)
      refine ⟨parts.flatten.filterMap kind.read, ?_, hperm.filterMap kind.read⟩
      simp only [load, FileTree.exists?_of_isFolder hfolder, hfolder, hpaths]
      rw [List.filterMap_flatten]
      change (paths.mapM (kind.loadFile files) >>= fun parts => pure parts.flatten) = _
      rw [hload]
      rfl

end ItemKind

namespace Rule

variable {rules : List Rule} {objects : List Document}

/-- Rules without a slug that their ids tell apart. -/
def HaveOwnIds (rules : List Rule) : Prop :=
  rules.Pairwise fun rule other =>
    Text.slug rule.id = "" → Text.slug other.id = "" → rule.id ≠ other.id

theorem HaveOwnSlugs.nodup_ids (howns : HaveOwnSlugs rules) (hblank : HaveOwnIds rules) :
    (rules.map Rule.id).Nodup := by
  refine List.pairwise_map.2 ((howns.and hblank).imp ?_)
  rintro rule other ⟨hslugs, hids⟩ hsame
  have hempty : Text.slug rule.id = "" := hslugs (congrArg Text.slug hsame)
  exact hids hempty (hsame ▸ hempty) hsame

/-- Rules that nothing but their order tells apart are arranged alike. -/
theorem arrange_perm {others : List Rule} (howns : HaveOwnSlugs rules) (hblank : HaveOwnIds rules)
    (hperm : others.Perm rules) : arrange others = .ok (rules.mergeSort precedes) := by
  have hids := howns.nodup_ids hblank
  rw [arrange_eq_ok (howns.perm hperm.symm)]
  congr 1
  apply (pairwise_isBefore ((hperm.map Rule.id).nodup_iff.2 hids)).eq_of_mem_iff
    (pairwise_isBefore hids)
  intro rule
  rw [List.mem_mergeSort, List.mem_mergeSort, hperm.mem_iff]

/-- Objects of rules are loaded alike from all files and folders that hold them, in the order
of evaluation, or are refused everywhere as having a duplicate. -/
theorem load_eq_of_packsPath (hitems : ∀ object ∈ objects, inFiles.IsItem object)
    (hblank : HaveOwnIds (objects.filterMap inFiles.read)) :
    (∃ rules, rules.Perm (objects.filterMap inFiles.read) ∧ rules.Pairwise IsBefore ∧
      ∀ files path, inFiles.PacksPath files path objects → load files path = .ok rules) ∨
    ¬HaveOwnSlugs (objects.filterMap inFiles.read) ∧
      ∀ files path, inFiles.PacksPath files path objects →
        ∃ id, load files path = .error (.duplicateRule id) := by
  by_cases howns : HaveOwnSlugs (objects.filterMap inFiles.read)
  · refine .inl ⟨_, List.mergeSort_perm _ precedes, pairwise_isBefore (howns.nodup_ids hblank),
      fun files path hpacks => ?_⟩
    obtain ⟨loaded, hload, hperm⟩ := hpacks.exists_load_eq_ok hitems
    rw [load_eq_arrange hload]
    exact arrange_perm howns hblank hperm
  · refine .inr ⟨howns, fun files path hpacks => ?_⟩
    obtain ⟨loaded, hload, hperm⟩ := hpacks.exists_load_eq_ok hitems
    rw [load_eq_arrange hload]
    exact exists_arrange_eq_error fun hloaded => howns (hloaded.perm hperm)

/-- A file with this text and nothing else. -/
def oneFile (text : String) : FileTree :=
  FileTree.put .empty ["rules.yaml"] (.file (some text))

/-- A folder of two files. -/
def twoFiles (first second : String) : FileTree :=
  FileTree.put (FileTree.put .empty ["rules", "a.yaml"] (.file (some first))) ["rules", "b.json"]
    (.file (some second))

section Reading

variable {text first second : String} {document upper lower : Document}
  {items others objects : List Document}

theorem packsPath_oneFile (hread : Yaml.read? text = some document)
    (hpacks : inFiles.Packs document items) (hperm : items.Perm objects) :
    inFiles.PacksPath (oneFile text) "rules.yaml" objects :=
  .file ⟨text, document, rfl, hread, hpacks⟩ hperm

theorem packsPath_twoFiles (hupper : Yaml.read? first = some upper)
    (hlower : Yaml.read? second = some lower) (hpacks : inFiles.Packs upper items)
    (hothers : inFiles.Packs lower others) (hperm : (items ++ others).Perm objects) :
    inFiles.PacksPath (twoFiles first second) "rules" objects := by
  have hnames : (twoFiles first second).filesIn ["rules"] = ["a.yaml", "b.json"] :=
    List.mergeSort_of_pairwise (show List.Pairwise _ ["a.yaml", "b.json"] by decide)
  have hpaths : ItemKind.documentsIn (twoFiles first second) "rules" =
      .ok ["rules/a.yaml", "rules/b.json"] := by
    change Except.ok ((((twoFiles first second).filesIn ["rules"]).filter Path.isDocument).map
      (Path.join "rules")) = _
    rw [hnames]
    rfl
  have hfirst : inFiles.PacksFile (twoFiles first second) "rules/a.yaml" items :=
    ⟨first, upper, rfl, hupper, hpacks⟩
  have hsecond : inFiles.PacksFile (twoFiles first second) "rules/b.json" others :=
    ⟨second, lower, rfl, hlower, hothers⟩
  refine .folder rfl hpaths (.cons hfirst (.cons hsecond .nil)) ?_
  simpa using hperm

end Reading

/-- A rule that shows its id. -/
def plainObject (id : String) (priority : Int) : Document :=
  .ofFields
    [("id", .text id), ("priority", .int priority), ("logic", .ofFields [("all", .list [])]),
      ("messages", .ofFields [("candidates", .list [.ofFields [("text", .text id)]])])]

def calm : Document := plainObject "calm" 10

def steps : Document := plainObject "steps" 80

/-- One document with both rules. -/
def calmAndSteps : Document := .ofFields [("rules", .list [calm, steps])]

/-- The rules are the same from one document with both as from a folder in which one is
the only one of its document and the other in a list. -/
theorem load_eq_of_packsPath_calmAndSteps :
    (∀ object ∈ [calm, steps], inFiles.IsItem object) ∧
      HaveOwnIds ([calm, steps].filterMap inFiles.read) ∧
      ∃ rules, rules.length = 2 ∧ rules.Pairwise IsBefore ∧
        load (oneFile (Document.Json.render calmAndSteps)) "rules.yaml" = .ok rules ∧
        load (twoFiles (Document.Json.render steps) (Document.Json.render (.list [calm]))) "rules" =
          .ok rules := by
  have hitems : ∀ object ∈ [calm, steps], inFiles.IsItem object := by
    rw [List.forall_mem_cons, List.forall_mem_singleton]
    exact ⟨⟨⟨_, rfl⟩, rfl, by decide +kernel⟩, ⟨_, rfl⟩, rfl, by decide +kernel⟩
  have hids : HaveOwnIds ([calm, steps].filterMap inFiles.read) := by
    unfold HaveOwnIds
    decide +kernel
  have howns : HaveOwnSlugs ([calm, steps].filterMap inFiles.read) := by
    unfold HaveOwnSlugs
    decide +kernel
  have hreads : ∀ document ∈ [calmAndSteps, steps, .list [calm]],
      Yaml.read? (Document.Json.render document) = some document := by
    simp only [Document.Json.render, Yaml.read?, Yaml.tokens?, String.toList_ofList]
    decide +kernel
  simp only [List.forall_mem_cons, List.not_mem_nil, false_imp_iff, implies_true, and_true]
    at hreads
  obtain ⟨hboth, hsteps, hcalm⟩ := hreads
  have htogether := packsPath_oneFile hboth (.field rfl) (.refl [calm, steps])
  have hapart := packsPath_twoFiles hsteps hcalm (.single steps) (.list [calm])
    (.swap calm steps [])
  obtain ⟨rules, hperm, hordered, hload⟩ | ⟨hdouble, -⟩ := load_eq_of_packsPath hitems hids
  · have hlength : ([calm, steps].filterMap inFiles.read).length = 2 := by decide +kernel
    exact ⟨hitems, hids, rules, hperm.length_eq.trans hlength, hordered, hload _ _ htogether,
      hload _ _ hapart⟩
  · exact absurd howns hdouble

/-! ## A document too deep -/

def nestedLists : Nat → Document
  | 0 => .text "none"
  | n + 1 => .list [nestedLists n]

/-- A rule with a remark that is not read.  There are 127 lists and records inside one
another. -/
def remarked : Document :=
  .ofFields [("id", .text "remarked"), ("logic", .ofFields [("all", .list [])]),
    ("messages", .ofFields []), ("remark", nestedLists 126)]

def remarkedHead : List Char :=
  "id: remarked\nlogic: \x7ball: []\x7d\nmessages: \x7b\x7d\nremark:\n".toList

/-- The same two levels further in. -/
def remarkedListHead : List Char :=
  "rules:\n- id: remarked\n  logic: \x7ball: []\x7d\n  messages: \x7b\x7d\n  remark:\n  ".toList

/-- A text that ends with the remark. -/
def remarkedText (head : List Char) : String :=
  String.ofList (head ++ (List.replicate 126 ['-', ' ']).flatten ++ ['n', 'o', 'n', 'e'])

/-- The rule is loaded from a document of its own, but not from one that lists it. -/
theorem refused_two_deeper :
    inFiles.IsItem remarked ∧
      (∃ rule, inFiles.read remarked = some rule ∧
        load (oneFile (remarkedText remarkedHead)) "rules.yaml" = .ok [rule]) ∧
      load (oneFile (remarkedText remarkedListHead)) "rules.yaml" =
        .error (.malformed "rules.yaml" .unreadable) := by
  have hitem : inFiles.IsItem remarked := ⟨⟨_, rfl⟩, rfl, by decide +kernel⟩
  refine ⟨hitem, ?_, ?_⟩
  · have halone : Yaml.read? (remarkedText remarkedHead) = some remarked := by
      rw [remarkedText, Yaml.read?, Yaml.tokens?, String.toList_ofList]
      decide +kernel
    obtain ⟨rule, hrule⟩ := Option.isSome_iff_exists.1 hitem.2.2
    have hpacks := packsPath_oneFile halone (.single remarked) (.refl [remarked])
    obtain ⟨loaded, hload, hperm⟩ := hpacks.exists_load_eq_ok (List.forall_mem_singleton.2 hitem)
    rw [List.filterMap_cons_some hrule, List.filterMap_nil, List.perm_singleton] at hperm
    refine ⟨rule, hrule, ?_⟩
    rw [load_eq_arrange hload, hperm, arrange_eq_ok (List.pairwise_singleton _ _),
      List.mergeSort_singleton]
  · have hdeep : Yaml.read? (remarkedText remarkedListHead) = none := by
      rw [remarkedText, Yaml.read?, Yaml.tokens?, String.toList_ofList]
      decide +kernel
    have hread : (oneFile (remarkedText remarkedListHead)).read "rules.yaml" =
        .ok (remarkedText remarkedListHead) := rfl
    rw [load, inFiles.load_of_read hread, ItemKind.ofText, hdeep]
    rfl

end Rule

end MetricAlerts
