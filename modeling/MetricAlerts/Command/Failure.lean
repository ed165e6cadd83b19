import MetricAlerts.Batch.Pool
import MetricAlerts.Files.Items
import MetricAlerts.Settings.Environment

/-!
# Failures of commands

Why a command has come to no good end. A failure is told together with what has caused it, each
cause on a line of its own. A command that runs off the calendar is not told of: it breaks off where
it is, and only its code shows it.
-/

namespace MetricAlerts.Command

/-- What is kept in files. -/
inductive FileContent where
  | rules
  | metrics
  | glossary
  | histories
deriving DecidableEq

def FileContent.title : FileContent → String
  | rules => "rules"
  | metrics => "metrics"
  | glossary => "variables"
  | histories => "trigger history"

inductive Failure where
  | setting (invalid : InvalidVariable)
  | readingConfig (path : String) (cause : FileError)
  | parsingConfig (path : String)
  | loading (content : FileContent) (path : String) (cause : FilesError)
  | registering (id : String) (cause : EditError)
  | writingHistories (path : String) (cause : FilesError)
  | exporting (path : String) (cause : FilesError)
  | evaluating (user : String) (day : Day) (cause : PassError)
  | simulating (cause : PassError)
  | computing (detail : String)
  | refused (cause : PoolError)
  | endBeforeStart (start finish : Day)
  | faultyRules (faulty total : Nat)
  /-- There is no day to go on with, and the command breaks off. -/
  | calendarEnd (day : Day)

namespace Failure

/-- The failure, then its cause, then what has caused that. -/
def chain : Failure → List String
  | setting invalid => [invalid.message]
  | readingConfig path cause => ["reading config " ++ path, cause.message]
  | parsingConfig path => ["parsing config " ++ path, "the settings are malformed"]
  | loading content path cause => ("loading " ++ content.title ++ " " ++ path) :: cause.chain
  | registering id cause => ["registering rule " ++ id, cause.message]
  | writingHistories path cause => ("writing trigger history " ++ path) :: cause.chain
  | exporting path cause => ("exporting to " ++ path) :: cause.chain
  | evaluating user day cause => ["evaluating " ++ user ++ " on " ++ day.text, cause.message]
  | simulating cause => [cause.message]
  | computing detail => [metricsUnreachable detail]
  | refused cause => [cause.message]
  | endBeforeStart start finish =>
      ["--through " ++ finish.text ++ " is before --date " ++ start.text]
  | faultyRules faulty total =>
      [toString faulty ++ " of " ++ toString total ++ " rule(s) failed validation"]
  | calendarEnd _ => []

def code : Failure → Nat
  | calendarEnd _ => 101
  | _ => 1

/-- Writes a cause behind its margin, and its further lines, if it has any, below it. -/
def hang (margin : String) (cause : String) : String :=
  margin ++ String.ofList (cause.toList.flatMap fun c =>
    if c = '\n' then '\n' :: List.replicate margin.length ' ' else [c])

/-- Causes one below the other, numbered if there are several. -/
def causeLines : List String → List String
  | [] => []
  | [cause] => ["", "Caused by:", hang "    " cause]
  | causes =>
      "" :: "Caused by:" :: causes.zipIdx.map fun (cause, index) =>
        hang ("    " ++ toString index ++ ": ") cause

def lines (failure : Failure) : List String :=
  match failure.chain with
  | [] => []
  | head :: causes => ("Error: " ++ head) :: causeLines causes

end Failure

end MetricAlerts.Command
