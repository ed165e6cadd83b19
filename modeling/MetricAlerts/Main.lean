import MetricAlerts.Command.Run
import Std.Time.DateTime.Timestamp

/-!
# The program

Reads what a command may need, runs the command, and puts its answer and its files out.
-/

namespace MetricAlerts

/-- What there is at a place. -/
def entryAt (place : Place) : IO (Option Entry) := do
  let path := (← IO.currentDir) / FileTree.pathTo place
  if ← path.isDir then return some .folder
  else if ← path.pathExists then
    return some (.file (String.fromUTF8? (← IO.FS.readBinFile path)))
  else return none

/-- Adds what there is at a place; of a folder, the documents in it. -/
def addPlace (files : FileTree) (place : Place) : IO FileTree := do
  match ← entryAt place with
  | none => return files
  | some (.file text) => return files.put place (.file text)
  | some .folder =>
      let path := (← IO.currentDir) / FileTree.pathTo place
      let mut files := files.put place .folder
      for child in ← path.readDir do
        if Path.isDocument child.fileName then
          let inner := place ++ [child.fileName]
          if let some entry ← entryAt inner then
            files := files.put inner entry
      return files

/-- The variables that a command looks at, and those that a file of assignments mentions. -/
def readEnvironment (files : FileTree) : IO Environment := do
  let mentioned := match files.read Command.assignmentsPath with
    | .ok text => Assignments.mentioned text
    | .error _ => []
  let mut environment : Environment := Table.empty
  for name in Command.variableNames ++ mentioned do
    if let some value ← IO.getEnv name then
      environment := environment.insert name value
  return environment

def readFiles (environment : Environment) (files : FileTree) (args : List String) : IO FileTree :=
  match Command.Invocation.read environment args with
  | .error _ => return files
  | .ok invocation => (invocation.paths.flatMap FileTree.placesOn).foldlM addPlace files

/-- Identifiers that no one can foresee, from a random start. -/
def tokens (seed : List UInt8) (index : Nat) : Uuid :=
  .ofRandom (Sha256.digest (seed ++ Sha256.bigEndian 8 index))

def currentTime : IO Instant := do
  let nanos := (← Std.Time.Timestamp.now).toNanosecondsSinceUnixEpoch.val
  return ⟨nanos / Instant.nanosPerSecond, (nanos % Instant.nanosPerSecond).toNat⟩

end MetricAlerts

open MetricAlerts in
def main (args : List String) : IO UInt32 := do
  let base ← addPlace Table.empty [Command.assignmentsPath]
  let environment ← readEnvironment base
  let files ← readFiles environment base args
  let seed ← IO.getRandomBytes 16
  let response := Command.respond ⟨environment, files, ← currentTime, tokens seed.toList⟩ args
  for (place, text) in FileTree.changes files response.files do
    IO.FS.writeFile (FileTree.pathTo place) text
  for line in response.out do
    IO.println line
  for line in response.err do
    IO.eprintln line
  return UInt32.ofNat response.code
