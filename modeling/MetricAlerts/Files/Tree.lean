import MetricAlerts.Files.Path
import MetricAlerts.Table

/-!
# Trees of files

Files and folders by their place, as seen from a working folder. The place of something is the list
of names that lead to it. Only what was put into a tree exists in it, apart from the folders above
the working folder, which always exist.
-/

namespace MetricAlerts

/-- Names from the working folder down. Places above it begin with double dots, and places that are
not given from the working folder begin with a slash. -/
abbrev Place := List String

inductive Entry where
  /-- A file with its text, if its bytes are one. -/
  | file (text : Option String)
  | folder
deriving DecidableEq

inductive FileError where
  | notFound
  | notFolder
  | isFolder
  | notText
deriving DecidableEq

def FileError.message : FileError → String
  | notFound => "No such file or directory (os error 2)"
  | notFolder => "Not a directory (os error 20)"
  | isFolder => "Is a directory (os error 21)"
  | notText => "stream did not contain valid UTF-8"

abbrev FileTree := Table Place Entry

namespace FileTree

/-- Places that exist in every tree: the working folder and those above it. -/
def isGround (place : Place) : Bool :=
  place.all (· == "..") || place == ["/"]

def entry? (files : FileTree) (place : Place) : Option Entry :=
  if isGround place then some .folder else files.find? place

/-- Puts in an entry together with the folders that lead to it. -/
def put (files : FileTree) (place : Place) (entry : Entry) : FileTree :=
  let folders := (List.range place.length).map place.take
  let files := folders.foldl (fun files folder =>
    if isGround folder || files.contains folder then files else files.insert folder .folder) files
  if isGround place then files else files.insert place entry

def above (place : Place) : Place :=
  if place == ["/"] then place
  else if isGround place then place ++ [".."]
  else place.dropLast

/-- Where a part of a path leads, as far as its text tells. -/
def onward (place : Place) (part : String) : Place :=
  if part = "." then place else if part = ".." then above place else place ++ [part]

/-- One part of a path leads on from a folder only. -/
def step (files : FileTree) (place : Place) (part : String) : Except FileError Place :=
  match files.entry? place with
  | none => .error .notFound
  | some (.file _) => .error .notFolder
  | some .folder => .ok (onward place part)

def start (path : String) : Place :=
  if Path.isAbsolute path then ["/"] else []

/-- The places that a path passes, and the one that it leads to. -/
def placesOn (path : String) : List Place :=
  (Path.parts path).scanl onward (start path)

/-- The place that a path leads to, whether or not something is there. -/
def resolve (files : FileTree) (path : String) : Except FileError Place :=
  if path.isEmpty then .error .notFound
  else (Path.parts path).foldlM files.step (start path)

def lookup (files : FileTree) (path : String) : Except FileError Entry := do
  let place ← files.resolve path
  match files.entry? place with
  | none => .error .notFound
  | some (.file text) => if Path.endsWithSlash path then .error .notFolder else .ok (.file text)
  | some .folder => .ok .folder

def exists? (files : FileTree) (path : String) : Bool :=
  (files.lookup path) matches .ok _

def isFolder (files : FileTree) (path : String) : Bool :=
  (files.lookup path) matches .ok .folder

def read (files : FileTree) (path : String) : Except FileError String := do
  match ← files.lookup path with
  | .file (some text) => return text
  | .file none => .error .notText
  | .folder => .error .isFolder

/-- Writes a file, in place of the one that may be there. Its folder has to exist. -/
def write (files : FileTree) (path : String) (text : String) : Except FileError FileTree := do
  let place ← files.resolve path
  if Path.endsWithSlash path then .error .isFolder
  else match files.entry? place, files.entry? place.dropLast with
    | some .folder, _ => .error .isFolder
    | some (.file _), _ => return files.insert place (.file (some text))
    | none, some .folder => return files.insert place (.file (some text))
    | none, some (.file _) => .error .notFolder
    | none, none => .error .notFound

/-- Names of the files in a folder, in ascending order. -/
def filesIn (files : FileTree) (folder : Place) : List String :=
  (files.entries.filterMap fun (place, entry) =>
    match entry, place.getLast? with
    | .file _, some name => if place.dropLast = folder then some name else none
    | _, _ => none).mergeSort (· ≤ ·)

/-- A path that leads to a place. -/
def pathTo (place : Place) : String :=
  match place with
  | "/" :: names => "/" ++ "/".intercalate names
  | names => "/".intercalate names

/-- Files whose text is not what it was. -/
def changes (before after : FileTree) : List (Place × String) :=
  after.entries.filterMap fun (place, entry) =>
    match entry with
    | .file (some text) => if before.find? place = some entry then none else some (place, text)
    | _ => none

end FileTree

end MetricAlerts
