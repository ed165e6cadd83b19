/-!
# Message sets

The messages a rule may send, each with a weight. Weights need not add up to one.
-/

namespace MetricAlerts

structure Candidate where
  id : Option String
  text : String
  weight : Float
deriving DecidableEq

structure MessageSet where
  locale : String
  candidates : List Candidate
deriving DecidableEq

namespace MessageSet

def defaultLocale : String := "es-ES"

/-- Sum from the left over floating point numbers. It starts from negative zero, which leaves
every first term as it is. -/
def sum (values : List Float) : Float :=
  values.foldl (· + ·) (-0.0)

def totalWeight (messages : MessageSet) : Float :=
  sum (messages.candidates.map Candidate.weight)

end MessageSet

end MetricAlerts
