import MetricAlerts.Admission.Store

/-!
# Dialogues

A computation that depends on a history store is written down as a dialogue: what it asks, how it
goes on with each answer, and what it sends out on the way. Run to its end against a store it is an
ordinary sequential program; taken step by step, several dialogues can be interleaved over one
store.
-/

namespace MetricAlerts

inductive Dialogue (ε α : Type) where
  | done (answer : α)
  | load (key : AlertKey) (next : Except StoreError Versioned → Dialogue ε α)
  | swap (key : AlertKey) (version : Nat) (history : History)
      (next : Except StoreError Nat → Dialogue ε α)
  | send (event : ε) (next : Dialogue ε α)

namespace Dialogue

variable {ε α β σ : Type}

def bind (dialogue : Dialogue ε α) (f : α → Dialogue ε β) : Dialogue ε β :=
  match dialogue with
  | done answer => f answer
  | load key next => .load key fun answer => (next answer).bind f
  | swap key version history next => .swap key version history fun answer => (next answer).bind f
  | send event next => .send event (next.bind f)

instance : Monad (Dialogue ε) where
  pure := done
  bind := bind

/-- The answer of a finished dialogue, the store it leaves behind and what it has sent. -/
structure Finished (ε α σ : Type) where
  answer : α
  state : σ
  sent : List ε

/-- The whole dialogue, without anything else going on at the store. -/
def run (store : HistoryStore σ) (dialogue : Dialogue ε α) (state : σ) : Finished ε α σ :=
  match dialogue with
  | done answer => ⟨answer, state, []⟩
  | load key next =>
      let (answer, state) := store.load key state
      (next answer).run store state
  | swap key version history next =>
      let (answer, state) := store.swap key version history state
      (next answer).run store state
  | send event next =>
      let finished := next.run store state
      { finished with sent := event :: finished.sent }

/-- One step: what is sent goes out with it. A finished dialogue stays as it is. -/
def step (store : HistoryStore σ) (dialogue : Dialogue ε α) (state : σ) :
    Dialogue ε α × σ × List ε :=
  match dialogue with
  | done answer => (.done answer, state, [])
  | load key next =>
      let (answer, state) := store.load key state
      (next answer, state, [])
  | swap key version history next =>
      let (answer, state) := store.swap key version history state
      (next answer, state, [])
  | send event next => (next, state, [event])

end Dialogue

end MetricAlerts
