import MetricAlerts.Admission.Written
import MetricAlerts.Files.Tree
import MetricAlerts.Text.Slug
import MetricAlerts.Yaml.Node

/-!
# Items in files

Rules, metrics, records and histories are kept in documents. A document is a record with one field
for all the items, a list of items or a single item; a folder of documents holds the items of all
of them. It makes no difference to rules how they are divided up, since they are brought into their
order afterwards. Files are read as YAML, or as JSON, which is YAML too, but without anchors,
aliases, tags and directives: a file with one of these is unreadable here, whatever it may say.
-/

namespace MetricAlerts

/-- The forms a document can take, as errors tell them apart. -/
inductive DocumentForm where
  | unreadable
  | record (field : String)
  | list
  | single
deriving DecidableEq

def DocumentForm.label : DocumentForm → String
  | unreadable => "deserialization error"
  | record field => field ++ " document"
  | list => "list"
  | single => "single entry"

inductive FilesError where
  | missing (path : String)
  | inaccessible (path : String) (cause : FileError)
  | malformed (path : String) (form : DocumentForm)
  | duplicateRule (id : String)
deriving DecidableEq

def FilesError.message : FilesError → String
  | missing path => "rules path does not exist: " ++ path
  | inaccessible path _ => "failed to read " ++ path
  | malformed path form => "failed to parse " ++ path ++ ": " ++ form.label
  | duplicateRule id => "duplicate rule identifier detected: " ++ id

/-- The error together with what has caused it. -/
def FilesError.chain (e : FilesError) : List String :=
  match e with
  | inaccessible _ cause => [e.message, cause.message]
  | _ => [e.message]

/-- A kind of items: the field of a record that lists them, and how to read one. -/
structure ItemKind (α : Type) where
  field : String
  read : Document → Option α

namespace ItemKind

variable {α : Type}

/-- The items of a document. Null stands for no items. -/
def ofDocument (kind : ItemKind α) (document : Document) : Except DocumentForm (List α) :=
  let single := match kind.read document with
    | some item => .ok [item]
    | none => .error .single
  match document with
  | .null => .ok []
  | .list items =>
      match items.mapM kind.read with
      | some items => .ok items
      | none => .error .list
  | .record fields =>
      match Document.fieldNamed? kind.field fields with
      | none => single
      | some value =>
          match value.readList? .file kind.read with
          | some items => .ok items
          | none => .error (.record kind.field)
  | _ => single

def ofText (kind : ItemKind α) (text : String) : Except DocumentForm (List α) :=
  match Yaml.read? text with
  | some document => kind.ofDocument document
  | none => .error .unreadable

def loadFile (kind : ItemKind α) (files : FileTree) (path : String) :
    Except FilesError (List α) := do
  let text ← (files.read path).mapError (.inaccessible path)
  (kind.ofText text).mapError (.malformed path)

/-- Paths of the documents in a folder, but not of those further down. -/
def documentsIn (files : FileTree) (path : String) : Except FilesError (List String) := do
  let place ← (files.resolve path).mapError (.inaccessible path)
  return ((files.filesIn place).filter Path.isDocument).map (Path.join path)

/-- The items of a file, whatever its name, or of all documents in a folder. -/
def load (kind : ItemKind α) (files : FileTree) (path : String) : Except FilesError (List α) := do
  if !files.exists? path then .error (.missing path)
  else if files.isFolder path then
    let paths ← documentsIn files path
    let items ← paths.mapM (kind.loadFile files)
    return items.flatten
  else kind.loadFile files path

end ItemKind

def Rule.inFiles : ItemKind Rule := ⟨"rules", Rule.ofDocument? .file⟩

def Metric.inFiles : ItemKind Metric := ⟨"variables", Metric.ofDocument? .file⟩

def MetricRecord.inFiles : ItemKind MetricRecord := ⟨"metrics", MetricRecord.ofDocument? .file⟩

def HistoryRecord.inFiles : ItemKind HistoryRecord := ⟨"triggers", HistoryRecord.ofDocument?⟩

namespace Rule

/-- The id of the first rule whose slug an earlier rule has. Rules without a slug get names of
their own later on. -/
def duplicate? (seen : List String) : List Rule → Option String
  | [] => none
  | rule :: rules =>
      let slug := Text.slug rule.id
      if slug.isEmpty then duplicate? seen rules
      else if seen.contains slug then some rule.id
      else duplicate? (slug :: seen) rules

/-- Rules with distinct slugs, in the order of evaluation. -/
def arrange (rules : List Rule) : Except FilesError (List Rule) :=
  match duplicate? [] rules with
  | some id => .error (.duplicateRule id)
  | none => .ok (rules.mergeSort precedes)

def load (files : FileTree) (path : String) : Except FilesError (List Rule) := do
  arrange (← inFiles.load files path)

end Rule

/-- Rules as a list, in the form of the files they came from. -/
def Rule.listDocument (rules : List Rule) : Document :=
  .list (rules.map Rule.toDocument)

def HistoryRecord.listDocument (records : List HistoryRecord) : Document :=
  .ofFields [(inFiles.field, .list (records.map HistoryRecord.toDocument))]

def FileTree.writeDocument (files : FileTree) (path : String) (document : Document) :
    Except FilesError FileTree :=
  (files.write path (Document.Json.renderIndented document)).mapError (.inaccessible path)

end MetricAlerts
