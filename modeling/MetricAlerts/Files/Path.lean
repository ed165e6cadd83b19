/-!
# Paths

A path is a text whose parts are set apart by slashes. Slashes in a row count as one. What a part
does is left to the tree of files; here is only what the text of a path tells by itself.
-/

namespace MetricAlerts.Path

/-- What stands between slashes, empty parts included. -/
def splitSlashes : List Char → List (List Char)
  | [] => [[]]
  | c :: cs =>
      if c = '/' then [] :: splitSlashes cs
      else match splitSlashes cs with
        | [] => [[c]]
        | part :: parts => (c :: part) :: parts

def parts (path : String) : List String :=
  ((splitSlashes path.toList).filter fun part => !part.isEmpty).map String.ofList

def isAbsolute (path : String) : Bool :=
  path.toList.head? == some '/'

/-- A path with a slash at its end can only be that of a folder. -/
def endsWithSlash (path : String) : Bool :=
  path.toList.getLast? == some '/'

/-- The path of something in a folder. -/
def join (folder name : String) : String :=
  if folder.isEmpty || endsWithSlash folder then folder ++ name else folder ++ "/" ++ name

/-- Name of what the path leads to; none when it ends by going up. -/
def name? (path : String) : Option String :=
  match ((parts path).filter (· ≠ ".")).getLast? with
  | some ".." => none
  | name => name

/-- What follows the last dot of a name, if something stands before it. -/
def extension? (name : String) : Option String :=
  let reversed := name.toList.reverse
  let tail := reversed.takeWhile (· ≠ '.')
  match reversed.drop tail.length with
  | _ :: _ :: _ => some (String.ofList tail.reverse)
  | _ => none

/-- Whether the name of a file says that it holds a document. -/
def isDocument (path : String) : Bool :=
  match (name? path).bind extension? with
  | some "json" | some "yaml" | some "yml" => true
  | _ => false

end MetricAlerts.Path
