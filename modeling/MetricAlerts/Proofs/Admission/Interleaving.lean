import MetricAlerts.Admission.Dialogue

/-!
# Interleaved dialogues

Several dialogues share one store.  A schedule says whose turn it is; at its
turn a dialogue takes one step, so a read and the replacement that is built on
it can be any number of turns apart.  Nothing is assumed about a schedule: it
may leave dialogues unfinished and name places that nobody stands at.
-/

namespace MetricAlerts

structure Interleaving (ε α σ : Type) where
  parts : List (Dialogue ε α)
  state : σ
  sent : List ε

namespace Interleaving

variable {ε α σ : Type}

def start (parts : List (Dialogue ε α)) (state : σ) : Interleaving ε α σ :=
  ⟨parts, state, []⟩

/-- The turn of the dialogue at a place. -/
def turn (store : HistoryStore σ) (joint : Interleaving ε α σ) (place : Nat) :
    Interleaving ε α σ :=
  match joint.parts[place]? with
  | none => joint
  | some part =>
      let (part, state, sent) := part.step store joint.state
      ⟨joint.parts.set place part, state, joint.sent ++ sent⟩

def run (store : HistoryStore σ) (schedule : List Nat) (joint : Interleaving ε α σ) :
    Interleaving ε α σ :=
  schedule.foldl (turn store) joint

/-- What the dialogue at a place has come to, if it is finished. -/
def answer? (joint : Interleaving ε α σ) (place : Nat) : Option α :=
  match joint.parts[place]? with
  | some (.done answer) => some answer
  | _ => none

variable {store : HistoryStore σ} {joint : Interleaving ε α σ} {place : Nat}

theorem turn_eq_self (hplace : joint.parts[place]? = none) :
    joint.turn store place = joint := by
  simp [turn, hplace]

theorem turn_eq {part : Dialogue ε α} (hplace : joint.parts[place]? = some part) :
    joint.turn store place =
      ⟨joint.parts.set place (part.step store joint.state).1,
        (part.step store joint.state).2.1,
        joint.sent ++ (part.step store joint.state).2.2⟩ := by
  simp [turn, hplace]

/-- Nothing happens at the turn of a dialogue that is finished. -/
theorem turn_done {answer : α} (hplace : joint.parts[place]? = some (.done answer)) :
    joint.turn store place = joint := by
  have hset : joint.parts.set place (.done answer) = joint.parts := by
    obtain ⟨hlt, hget⟩ := List.getElem?_eq_some_iff.1 hplace
    rw [← hget]
    exact List.set_getElem_self hlt
  rw [turn_eq hplace]
  simp [Dialogue.step, hset]

theorem answer?_eq_some_iff {answer : α} :
    joint.answer? place = some answer ↔
      joint.parts[place]? = some (.done answer) := by
  unfold answer?
  constructor
  · intro h
    split at h
    · next hplace =>
        rw [hplace]
        simpa using h
    · simp at h
  · intro h
    rw [h]

/-- What every turn keeps holds after every schedule. -/
theorem run_induction {motive : Interleaving ε α σ → Prop} (schedule : List Nat)
    (hstart : motive joint)
    (hturn : ∀ joint place, motive joint → motive (joint.turn store place)) :
    motive (joint.run store schedule) := by
  induction schedule generalizing joint with
  | nil => exact hstart
  | cons place schedule ih => exact ih (hturn joint place hstart)

end Interleaving

end MetricAlerts
