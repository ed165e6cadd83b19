import Mathlib.Data.List.Induction
import Mathlib.Data.Set.Function
import Mathlib.Data.Set.Lattice
import Mathlib.Logic.Function.Iterate
import Mathlib.Order.CompletePartialOrder
import Mathlib.Tactic.Set
import MetricAlerts.Proofs.Admission.Decision
import MetricAlerts.Proofs.Admission.Growth
import MetricAlerts.Proofs.Admission.Interleaving

/-!
# Dialogues that stay apart

A dialogue reads and writes a ledger under the keys that it asks for.  If
several dialogues ask for different keys, none of them notices the others:
after any turns at all, each one stands where as many turns of its own would
have taken it, and under its keys the ledger is as it would have left it.  So
an interleaving of such dialogues comes to the same as running each of them
alone, and so does running them one after the other.
-/

namespace MetricAlerts

namespace Ledger

variable {ledger other : Ledger} {key : AlertKey}

theorem trySwap_congr (hfind : ledger.find? key = other.find? key) (version : Nat)
    (history : History) :
    (ledger.trySwap key version history).1 = (other.trySwap key version history).1 ∧
      (ledger.trySwap key version history).2.find? key =
        (other.trySwap key version history).2.find? key := by
  have hload : ledger.load key = other.load key := load_congr hfind
  by_cases hversion : (other.load key).version = version
  · subst hversion
    rw [← hload, trySwap_present, hload, trySwap_present]
    simp
  · rw [trySwap_stale hversion, trySwap_stale (hload ▸ hversion)]
    exact ⟨rfl, hfind⟩

/-- Ledgers that agree on some keys still do after the same replacement. -/
theorem eqOn_trySwap {keys : Set AlertKey} (hkeys : Set.EqOn ledger.find? other.find? keys)
    (hkey : key ∈ keys) (version : Nat) (history : History) :
    Set.EqOn (ledger.trySwap key version history).2.find?
      (other.trySwap key version history).2.find? keys := by
  intro own hown
  by_cases hne : own = key
  · subst hne
    exact (trySwap_congr (hkeys hkey) version history).2
  · rw [find?_trySwap_of_ne hne, find?_trySwap_of_ne hne]
    exact hkeys hown

end Ledger

namespace Dialogue

variable {ε α β ι σ : Type} {keys more : Set AlertKey} {dialogue : Dialogue ε α}
  {ledger other : Ledger} {key : AlertKey}

/-- Whatever it is answered, the dialogue asks for the given keys only. -/
def Within (keys : Set AlertKey) : Dialogue ε α → Prop
  | done _ => True
  | load key next => key ∈ keys ∧ ∀ answer, (next answer).Within keys
  | swap key _ _ next => key ∈ keys ∧ ∀ answer, (next answer).Within keys
  | send _ next => next.Within keys

theorem Within.mono (hwithin : dialogue.Within keys) (hmore : keys ⊆ more) :
    dialogue.Within more := by
  induction dialogue with
  | done answer => trivial
  | load key next ih => exact ⟨hmore hwithin.1, fun answer => ih answer (hwithin.2 answer)⟩
  | swap key version history next ih =>
      exact ⟨hmore hwithin.1, fun answer => ih answer (hwithin.2 answer)⟩
  | send event next ih => exact ih hwithin

theorem Within.bind {f : α → Dialogue ε β} (hwithin : dialogue.Within keys)
    (hf : ∀ a, (f a).Within keys) : (dialogue >>= f).Within keys := by
  change (dialogue.bind f).Within keys
  induction dialogue with
  | done answer => exact hf answer
  | load key next ih => exact ⟨hwithin.1, fun answer => ih answer (hwithin.2 answer)⟩
  | swap key version history next ih =>
      exact ⟨hwithin.1, fun answer => ih answer (hwithin.2 answer)⟩
  | send event next ih => exact ih hwithin

theorem Within.step (hwithin : dialogue.Within keys) (ledger : Ledger) :
    (dialogue.step Ledger.store ledger).1.Within keys := by
  cases dialogue with
  | done answer => trivial
  | load key next => exact hwithin.2 _
  | swap key version history next => exact hwithin.2 _
  | send event next => exact hwithin

theorem Within.find?_step (hwithin : dialogue.Within keys) (hkey : key ∉ keys)
    (ledger : Ledger) :
    (dialogue.step Ledger.store ledger).2.1.find? key = ledger.find? key := by
  cases dialogue with
  | done answer => rfl
  | load own next => rfl
  | swap own version history next =>
      apply Ledger.find?_trySwap_of_ne
      rintro rfl
      exact hkey hwithin.1
  | send event next => rfl

/-- A step hangs on what is stored under the keys, and on nothing else. -/
theorem Within.step_congr (hwithin : dialogue.Within keys)
    (hkeys : Set.EqOn ledger.find? other.find? keys) :
    (dialogue.step Ledger.store ledger).1 = (dialogue.step Ledger.store other).1 ∧
      Set.EqOn (dialogue.step Ledger.store ledger).2.1.find?
        (dialogue.step Ledger.store other).2.1.find? keys := by
  cases dialogue with
  | done answer => exact ⟨rfl, hkeys⟩
  | load key next =>
      have hload : ledger.load key = other.load key := Ledger.load_congr (hkeys hwithin.1)
      exact ⟨congrArg (fun versioned => next (.ok versioned)) hload, hkeys⟩
  | swap key version history next =>
      exact ⟨congrArg next (Ledger.trySwap_congr (hkeys hwithin.1) version history).1,
        Ledger.eqOn_trySwap hkeys hwithin.1 version history⟩
  | send event next => exact ⟨rfl, hkeys⟩

/-- A step, without what it sends. -/
def advance (store : HistoryStore σ) (point : Dialogue ε α × σ) : Dialogue ε α × σ :=
  ((point.1.step store point.2).1, (point.1.step store point.2).2.1)

/-- How many turns a dialogue needs when it is alone. -/
def turns (store : HistoryStore σ) : Dialogue ε α → σ → Nat
  | done _, _ => 0
  | load key next, state =>
      let (answer, state) := store.load key state
      (next answer).turns store state + 1
  | swap key version history next, state =>
      let (answer, state) := store.swap key version history state
      (next answer).turns store state + 1
  | send _ next, state => next.turns store state + 1

/-- With enough turns a dialogue comes to its end, and stays there. -/
theorem iterate_advance_of_turns_le {store : HistoryStore σ} {count : Nat}
    (dialogue : Dialogue ε α) (state : σ) (hcount : dialogue.turns store state ≤ count) :
    (advance store)^[count] (dialogue, state) =
      (.done (dialogue.run store state).answer, (dialogue.run store state).state) := by
  induction dialogue generalizing state count with
  | done answer => exact Function.iterate_fixed rfl count
  | load key next ih =>
      obtain ⟨count, rfl⟩ := Nat.exists_eq_add_one.2 (Nat.lt_of_lt_of_le (Nat.succ_pos _) hcount)
      rw [Function.iterate_succ_apply]
      exact ih _ _ (Nat.le_of_succ_le_succ hcount)
  | swap key version history next ih =>
      obtain ⟨count, rfl⟩ := Nat.exists_eq_add_one.2 (Nat.lt_of_lt_of_le (Nat.succ_pos _) hcount)
      rw [Function.iterate_succ_apply]
      exact ih _ _ (Nat.le_of_succ_le_succ hcount)
  | send event next ih =>
      obtain ⟨count, rfl⟩ := Nat.exists_eq_add_one.2 (Nat.lt_of_lt_of_le (Nat.succ_pos _) hcount)
      rw [Function.iterate_succ_apply]
      exact ih _ (Nat.le_of_succ_le_succ hcount)

/-- With fewer turns it does not. -/
theorem iterate_advance_of_lt_turns {store : HistoryStore σ} {count : Nat}
    (dialogue : Dialogue ε α) (state : σ) (hcount : count < dialogue.turns store state)
    (answer : α) :
    ((advance store)^[count] (dialogue, state)).1 ≠ .done answer := by
  induction dialogue generalizing state count with
  | done answer => exact absurd hcount (Nat.not_lt_zero _)
  | load key next ih =>
      cases count with
      | zero => nofun
      | succ count =>
          rw [Function.iterate_succ_apply]
          exact ih _ _ (Nat.lt_of_succ_lt_succ hcount)
  | swap key version history next ih =>
      cases count with
      | zero => nofun
      | succ count =>
          rw [Function.iterate_succ_apply]
          exact ih _ _ (Nat.lt_of_succ_lt_succ hcount)
  | send event next ih =>
      cases count with
      | zero => nofun
      | succ count =>
          rw [Function.iterate_succ_apply]
          exact ih _ (Nat.lt_of_succ_lt_succ hcount)

theorem Within.iterate_advance (hwithin : dialogue.Within keys) (ledger : Ledger) (count : Nat) :
    ((advance Ledger.store)^[count] (dialogue, ledger)).1.Within keys := by
  induction count with
  | zero => exact hwithin
  | succ count ih =>
      rw [Function.iterate_succ_apply']
      exact ih.step _

theorem Within.find?_iterate_advance (hwithin : dialogue.Within keys) (hkey : key ∉ keys)
    (ledger : Ledger) (count : Nat) :
    ((advance Ledger.store)^[count] (dialogue, ledger)).2.find? key = ledger.find? key := by
  induction count with
  | zero => rfl
  | succ count ih =>
      rw [Function.iterate_succ_apply']
      exact ((hwithin.iterate_advance ledger count).find?_step hkey _).trans ih

theorem Within.iterate_advance_congr (hwithin : dialogue.Within keys)
    (hkeys : Set.EqOn ledger.find? other.find? keys) (count : Nat) :
    ((advance Ledger.store)^[count] (dialogue, ledger)).1 =
        ((advance Ledger.store)^[count] (dialogue, other)).1 ∧
      Set.EqOn ((advance Ledger.store)^[count] (dialogue, ledger)).2.find?
        ((advance Ledger.store)^[count] (dialogue, other)).2.find? keys := by
  induction count with
  | zero => exact ⟨rfl, hkeys⟩
  | succ count ih =>
      obtain ⟨hstands, hstored⟩ := ih
      have hstep := (hwithin.iterate_advance ledger count).step_congr hstored
      rw [Function.iterate_succ_apply', Function.iterate_succ_apply']
      simp only [advance]
      rwa [← hstands]

theorem Within.find?_run (hwithin : dialogue.Within keys) (hkey : key ∉ keys)
    (ledger : Ledger) :
    (dialogue.run Ledger.store ledger).state.find? key = ledger.find? key := by
  have hsame := hwithin.find?_iterate_advance hkey ledger (dialogue.turns Ledger.store ledger)
  rwa [iterate_advance_of_turns_le dialogue ledger le_rfl] at hsame

/-- A run hangs on what is stored under the keys, and on nothing else. -/
theorem Within.run_congr (hwithin : dialogue.Within keys)
    (hkeys : Set.EqOn ledger.find? other.find? keys) :
    (dialogue.run Ledger.store ledger).answer = (dialogue.run Ledger.store other).answer ∧
      Set.EqOn (dialogue.run Ledger.store ledger).state.find?
        (dialogue.run Ledger.store other).state.find? keys := by
  -- So many turns are enough from either ledger.
  have hsame := hwithin.iterate_advance_congr hkeys
    (max (dialogue.turns Ledger.store ledger) (dialogue.turns Ledger.store other))
  rw [iterate_advance_of_turns_le dialogue ledger (Nat.le_max_left _ _),
    iterate_advance_of_turns_le dialogue other (Nat.le_max_right _ _)] at hsame
  exact ⟨done.inj hsame.1, hsame.2⟩

/-! ## One after the other -/

/-- A dialogue for every item, one after the other. -/
def inTurn (dialogue : ι → Dialogue ε α) : List ι → Dialogue ε (List α)
  | [] => return []
  | item :: items => do
      let answer ← dialogue item
      let answers ← inTurn dialogue items
      return answer :: answers

theorem within_inTurn {dialogue : ι → Dialogue ε α} {items : List ι}
    (hwithin : ∀ item ∈ items, (dialogue item).Within keys) :
    (inTurn dialogue items).Within keys := by
  induction items with
  | nil => trivial
  | cons item items ih =>
      obtain ⟨hitem, hitems⟩ := List.forall_mem_cons.1 hwithin
      exact hitem.bind fun _ => (ih hitems).bind fun _ => trivial

theorem run_inTurn_cons (store : HistoryStore σ) (dialogue : ι → Dialogue ε α) (item : ι)
    (items : List ι) (state : σ) :
    (inTurn dialogue (item :: items)).run store state =
      let first := (dialogue item).run store state
      let rest := (inTurn dialogue items).run store first.state
      ⟨first.answer :: rest.answer, rest.state, first.sent ++ rest.sent⟩ := by
  simp only [inTurn, run_bind]
  simp [pure, run]

variable {items : List ι} {dialogue : ι → Dialogue ε α} {keysOf : ι → Set AlertKey}

/-- Dialogues with keys of their own come one after the other to what each of
them comes to alone. -/
theorem run_inTurn (hwithin : ∀ item ∈ items, (dialogue item).Within (keysOf item))
    (hapart : items.Pairwise fun a b => Disjoint (keysOf a) (keysOf b)) (ledger : Ledger) :
    ((inTurn dialogue items).run Ledger.store ledger).answer =
        items.map (fun item => ((dialogue item).run Ledger.store ledger).answer) ∧
      (∀ item ∈ items,
        Set.EqOn ((inTurn dialogue items).run Ledger.store ledger).state.find?
          ((dialogue item).run Ledger.store ledger).state.find? (keysOf item)) ∧
      ∀ key, (∀ item ∈ items, key ∉ keysOf item) →
        ((inTurn dialogue items).run Ledger.store ledger).state.find? key =
          ledger.find? key := by
  induction items generalizing ledger with
  | nil => exact ⟨rfl, nofun, fun _ _ => rfl⟩
  | cons item items ih =>
      obtain ⟨hitem, hitems⟩ := List.forall_mem_cons.1 hwithin
      obtain ⟨hfirst, hrest⟩ := List.pairwise_cons.1 hapart
      rw [run_inTurn_cons]
      set next := ((dialogue item).run Ledger.store ledger).state
      obtain ⟨hanswers, hown, helse⟩ := ih hitems hrest next
      -- The first dialogue leaves the keys of the others as they were.
      have hsame : ∀ later ∈ items, Set.EqOn next.find? ledger.find? (keysOf later) := by
        intro later hlater key hkey
        exact hitem.find?_run (Set.disjoint_right.1 (hfirst later hlater) hkey) ledger
      refine ⟨?_, ?_, ?_⟩
      · have hrest : items.map (fun later => ((dialogue later).run Ledger.store next).answer) =
            items.map fun later => ((dialogue later).run Ledger.store ledger).answer := by
          apply List.map_congr_left
          intro later hlater
          exact ((hitems later hlater).run_congr (hsame later hlater)).1
        exact congrArg _ (hanswers.trans hrest)
      · intro later hlater
        rcases List.mem_cons.1 hlater with rfl | hlater
        · intro key hkey
          apply helse
          intro other hother
          exact Set.disjoint_left.1 (hfirst other hother) hkey
        · exact (hown later hlater).trans
            ((hitems later hlater).run_congr (hsame later hlater)).2
      · intro key hkey
        obtain ⟨hnot, hkey⟩ := List.forall_mem_cons.1 hkey
        exact (helse key hkey).trans (hitem.find?_run hnot ledger)

end Dialogue

namespace Interleaving

open Dialogue (advance)

variable {ε α : Type} {starts : List (Dialogue ε α)} {keys : Nat → Set AlertKey}
  {ledger : Ledger} {schedule : List Nat} {joint : Interleaving ε α Ledger}

/-- Every part stands where its own turns would have taken it alone, and finds
under its keys what it would have stored alone. -/
structure AsAlone (starts : List (Dialogue ε α)) (keys : Nat → Set AlertKey) (ledger : Ledger)
    (schedule : List Nat) (joint : Interleaving ε α Ledger) : Prop where
  length : joint.parts.length = starts.length
  stands : ∀ place part, starts[place]? = some part →
    joint.parts[place]? =
      some ((advance Ledger.store)^[schedule.count place] (part, ledger)).1
  stored : ∀ place part, starts[place]? = some part →
    Set.EqOn joint.state.find?
      ((advance Ledger.store)^[schedule.count place] (part, ledger)).2.find? (keys place)
  elsewhere : ∀ key, (∀ place, key ∉ keys place) → joint.state.find? key = ledger.find? key

theorem asAlone_start (starts : List (Dialogue ε α)) (keys : Nat → Set AlertKey)
    (ledger : Ledger) : AsAlone starts keys ledger [] (start starts ledger) where
  length := rfl
  stands _ _ hpart := hpart
  stored _ _ _ := Set.eqOn_refl _ _
  elsewhere _ _ := rfl

/-- A turn takes its part one step further, and the others do not notice. -/
theorem AsAlone.turn (hjoint : AsAlone starts keys ledger schedule joint)
    (hwithin : ∀ place (part : Dialogue ε α), starts[place]? = some part →
      part.Within (keys place))
    (hapart : Pairwise fun a b => Disjoint (keys a) (keys b)) (place : Nat) :
    AsAlone starts keys ledger (schedule ++ [place]) (joint.turn Ledger.store place) := by
  cases hstart : starts[place]? with
  | none =>
      -- Nobody stands at this place, and no part has fewer or more turns.
      have hnone : joint.parts[place]? = none := by
        rw [List.getElem?_eq_none_iff, hjoint.length]
        exact List.getElem?_eq_none_iff.1 hstart
      have hcount : ∀ other part, starts[other]? = some part →
          (schedule ++ [place]).count other = schedule.count other := by
        intro other part hpart
        have hne : place ≠ other := by
          rintro rfl
          rw [hstart] at hpart
          cases hpart
        simp [List.count_append, hne]
      rw [turn_eq_self hnone]
      refine ⟨hjoint.length, ?_, ?_, hjoint.elsewhere⟩
      · intro other part hpart
        rw [hcount other part hpart]
        exact hjoint.stands other part hpart
      · intro other part hpart
        rw [hcount other part hpart]
        exact hjoint.stored other part hpart
  | some first =>
      set point := (advance Ledger.store)^[schedule.count place] (first, ledger) with hpoint
      have hstands : joint.parts[place]? = some point.1 := hjoint.stands place first hstart
      have hpart : point.1.Within (keys place) :=
        (hwithin place first hstart).iterate_advance ledger _
      obtain ⟨hstep, hown⟩ := hpart.step_congr (hjoint.stored place first hstart)
      have hnext : (advance Ledger.store)^[(schedule ++ [place]).count place] (first, ledger) =
          advance Ledger.store point := by
        rw [List.count_append, List.count_singleton_self, Function.iterate_succ_apply', hpoint]
      have hcount : ∀ other ≠ place,
          (schedule ++ [place]).count other = schedule.count other := by
        intro other hne
        simp [List.count_append, hne.symm]
      rw [turn_eq hstands]
      refine ⟨by simpa using hjoint.length, ?_, ?_, ?_⟩
      · intro other part hother
        by_cases hne : other = place
        · subst hne
          obtain rfl := Option.some.inj (hstart.symm.trans hother)
          have hlt : other < joint.parts.length := (List.getElem?_eq_some_iff.1 hstands).1
          rw [hnext, List.getElem?_set_self hlt]
          exact congrArg some hstep
        · rw [hcount other hne, List.getElem?_set_ne (Ne.symm hne)]
          exact hjoint.stands other part hother
      · intro other part hother
        by_cases hne : other = place
        · subst hne
          obtain rfl := Option.some.inj (hstart.symm.trans hother)
          rw [hnext]
          exact hown
        · rw [hcount other hne]
          intro key hkey
          have hnot : key ∉ keys place := Set.disjoint_left.1 (hapart hne) hkey
          exact (hpart.find?_step hnot joint.state).trans (hjoint.stored other part hother hkey)
      · intro key hkey
        exact (hpart.find?_step (hkey place) joint.state).trans (hjoint.elsewhere key hkey)

theorem asAlone_run
    (hwithin : ∀ place (part : Dialogue ε α), starts[place]? = some part →
      part.Within (keys place))
    (hapart : Pairwise fun a b => Disjoint (keys a) (keys b)) (ledger : Ledger)
    (schedule : List Nat) :
    AsAlone starts keys ledger schedule
      ((start starts ledger).run Ledger.store schedule) := by
  induction schedule using List.reverseRecOn with
  | nil => exact asAlone_start starts keys ledger
  | append_singleton schedule place ih =>
      rw [run, List.foldl_append]
      exact ih.turn hwithin hapart place

/-- A part is finished as soon as it has had the turns that it needs alone,
with the answer that it gives alone. -/
theorem AsAlone.answer? (hjoint : AsAlone starts keys ledger schedule joint) {place : Nat}
    {part : Dialogue ε α} (hpart : starts[place]? = some part) :
    joint.answer? place =
      if part.turns Ledger.store ledger ≤ schedule.count place
      then some (part.run Ledger.store ledger).answer else none := by
  have hstands := hjoint.stands place part hpart
  split
  · next henough =>
      rw [part.iterate_advance_of_turns_le ledger henough] at hstands
      exact answer?_eq_some_iff.2 hstands
  · next hfew =>
      rw [Option.eq_none_iff_forall_ne_some]
      intro answer hanswer
      rw [answer?_eq_some_iff, hstands, Option.some.injEq] at hanswer
      exact part.iterate_advance_of_lt_turns ledger (Nat.lt_of_not_le hfew) answer hanswer

theorem AsAlone.stored_of_turns_le (hjoint : AsAlone starts keys ledger schedule joint)
    {place : Nat} {part : Dialogue ε α} (hpart : starts[place]? = some part)
    (hturns : part.turns Ledger.store ledger ≤ schedule.count place) :
    Set.EqOn joint.state.find? (part.run Ledger.store ledger).state.find? (keys place) := by
  have hstored := hjoint.stored place part hpart
  rwa [part.iterate_advance_of_turns_le ledger hturns] at hstored

end Interleaving

end MetricAlerts
