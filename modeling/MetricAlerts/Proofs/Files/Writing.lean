import MetricAlerts.Files.Items

/-!
# Files after they were written

What can be read under a path is a file, and its items are those of its text.
What was written under a path is found under that path.  To write a file makes
no folder go away, so the path still leads where it did.  A document that was
written is loaded as the items of the value that is read from its text.
-/

namespace MetricAlerts.FileTree

variable {files : FileTree} {place : Place} {path text : String}

theorem lookup_of_read (hread : files.read path = .ok text) :
    files.lookup path = .ok (.file (some text)) := by
  rw [read] at hread
  cases hlookup : files.lookup path with
  | error cause =>
      rw [hlookup] at hread
      cases hread
  | ok entry =>
      rw [hlookup] at hread
      match entry with
      | .file (some text) => cases hread; rfl
      | .file none => cases hread
      | .folder => cases hread

theorem exists?_of_read (hread : files.read path = .ok text) : files.exists? path = true := by
  rw [exists?, lookup_of_read hread]

theorem isFolder_of_read (hread : files.read path = .ok text) : files.isFolder path = false := by
  rw [isFolder, lookup_of_read hread]

theorem exists?_of_isFolder (hfolder : files.isFolder path = true) :
    files.exists? path = true := by
  rw [isFolder] at hfolder
  rw [exists?]
  split at hfolder
  · next hlookup => rw [hlookup]
  · cases hfolder

/-- A file that is written comes in the place of no folder. -/
theorem entry?_insert_of_folder (hplace : files.entry? place ≠ some .folder) (entry : Entry)
    {folder : Place} (hfolder : files.entry? folder = some .folder) :
    entry? (files.insert place entry) folder = some .folder := by
  have hne : folder ≠ place := by
    rintro rfl
    exact hplace hfolder
  unfold entry? at hfolder ⊢
  rwa [Table.find?_insert, if_neg hne]

theorem entry?_insert_self (hplace : files.entry? place ≠ some .folder) (entry : Entry) :
    entry? (files.insert place entry) place = some entry := by
  unfold entry? at hplace ⊢
  split
  · next hground =>
      rw [if_pos hground] at hplace
      exact absurd rfl hplace
  · rw [Table.find?_insert, if_pos rfl]

theorem step_insert (hplace : files.entry? place ≠ some .folder) (entry : Entry)
    {folder next : Place} {part : String} (hstep : files.step folder part = .ok next) :
    step (files.insert place entry) folder part = .ok next := by
  rw [step] at hstep
  split at hstep
  · cases hstep
  · cases hstep
  · next hfolder =>
      rw [step, entry?_insert_of_folder hplace entry hfolder]
      exact hstep

theorem foldlM_step_insert (hplace : files.entry? place ≠ some .folder) (entry : Entry)
    {parts : List String} {start finish : Place}
    (hsteps : parts.foldlM files.step start = .ok finish) :
    parts.foldlM (step (files.insert place entry)) start = .ok finish := by
  induction parts generalizing start with
  | nil => exact hsteps
  | cons part parts ih =>
      rw [List.foldlM_cons] at hsteps ⊢
      cases hstep : files.step start part with
      | error cause =>
          rw [hstep] at hsteps
          cases hsteps
      | ok next =>
          rw [hstep] at hsteps
          rw [step_insert hplace entry hstep]
          exact ih hsteps

/-- A file can be written where there is no folder, and that is all that
changes. -/
theorem of_write_eq_ok {later : FileTree} (hwrite : files.write path text = .ok later) :
    ∃ place, files.resolve path = .ok place ∧ Path.endsWithSlash path = false ∧
      files.entry? place ≠ some .folder ∧ later = files.insert place (.file (some text)) := by
  rw [write] at hwrite
  cases hresolve : files.resolve path with
  | error cause =>
      rw [hresolve] at hwrite
      cases hwrite
  | ok place =>
      rw [hresolve] at hwrite
      change (if Path.endsWithSlash path then _ else _) = _ at hwrite
      split at hwrite
      · cases hwrite
      · next hslash =>
          refine ⟨place, rfl, Bool.eq_false_iff.2 hslash, ?_⟩
          split at hwrite
          · cases hwrite
          · next hfile =>
              cases hwrite
              exact ⟨by rw [hfile]; rintro ⟨⟩, rfl⟩
          · next hnone hfolder =>
              cases hwrite
              exact ⟨by rw [hnone]; rintro ⟨⟩, rfl⟩
          · cases hwrite
          · cases hwrite

/-- What was written is there. -/
theorem lookup_of_write {later : FileTree} (hwrite : files.write path text = .ok later) :
    later.lookup path = .ok (.file (some text)) := by
  obtain ⟨place, hresolve, hslash, hplace, rfl⟩ := of_write_eq_ok hwrite
  have hagain : resolve (files.insert place (.file (some text))) path = .ok place := by
    rw [resolve] at hresolve ⊢
    split at hresolve
    · cases hresolve
    · next hempty =>
        rw [if_neg hempty]
        exact foldlM_step_insert hplace _ hresolve
  simp only [lookup, hagain, bind, Except.bind, entry?_insert_self hplace, hslash]
  rfl

theorem read_of_write {later : FileTree} (hwrite : files.write path text = .ok later) :
    later.read path = .ok text := by
  rw [read, lookup_of_write hwrite]
  rfl

end MetricAlerts.FileTree

namespace MetricAlerts

theorem FileTree.read_of_writeDocument {files later : FileTree} {path : String}
    {document : Document} (hwrite : files.writeDocument path document = .ok later) :
    later.read path = .ok (Document.Json.renderIndented document) := by
  rw [writeDocument] at hwrite
  cases hfile : files.write path (Document.Json.renderIndented document) with
  | error cause =>
      rw [hfile] at hwrite
      cases hwrite
  | ok written =>
      rw [hfile] at hwrite
      cases hwrite
      exact read_of_write hfile

namespace ItemKind

variable {α : Type} (kind : ItemKind α)

theorem loadFile_of_read {files : FileTree} {path text : String}
    (hread : files.read path = .ok text) :
    kind.loadFile files path = (kind.ofText text).mapError (.malformed path) := by
  rw [loadFile, hread]
  rfl

/-- What is loaded from a file is what its text holds. -/
theorem load_of_read {files : FileTree} {path text : String}
    (hread : files.read path = .ok text) :
    kind.load files path = (kind.ofText text).mapError (.malformed path) := by
  rw [← kind.loadFile_of_read hread]
  simp [load, FileTree.exists?_of_read hread, FileTree.isFolder_of_read hread]

/-- What is loaded from a file that a document was written to. -/
theorem load_of_writeDocument {files later : FileTree} {path : String}
    {document value : Document} (hwrite : files.writeDocument path document = .ok later)
    (hread : Yaml.read? (Document.Json.renderIndented document) = some value) :
    kind.load later path = (kind.ofDocument value).mapError (.malformed path) := by
  rw [kind.load_of_read (FileTree.read_of_writeDocument hwrite), ofText, hread]

end ItemKind

end MetricAlerts
