/-!
# Ascending lists

A finite set with one written form: its members in strictly ascending order. Strings are ordered
by code point, which is the order of their UTF-8 bytes.
-/

namespace MetricAlerts

/-- Sets of strings rest on these two facts about their order, whatever else is known of it. -/
instance (priority := high) trichotomousString : Std.Trichotomous (α := String) (· < ·) where
  trichotomous _ _ hlt hgt := String.le_antisymm hgt hlt

instance (priority := high) transString :
    Trans (α := String) (· < ·) (· < ·) (· < ·) where
  trans := String.lt_trans

structure Ascending (α : Type) [LT α] where
  items : List α
  ascending : items.Pairwise (· < ·)

namespace Ascending

variable {α : Type} [LT α]

instance [DecidableEq α] : DecidableEq (Ascending α) := fun a b =>
  decidable_of_iff (a.items = b.items) (by cases a; cases b; simp)

def empty : Ascending α := ⟨[], .nil⟩

variable [DecidableLT α] [DecidableEq α]

def insertInto (x : α) : List α → List α
  | [] => [x]
  | y :: ys => if x < y then x :: y :: ys else if x = y then y :: ys else y :: insertInto x ys

@[simp]
theorem mem_insertInto {x z : α} {ys : List α} : z ∈ insertInto x ys ↔ z = x ∨ z ∈ ys := by
  induction ys with
  | nil => simp [insertInto]
  | cons y ys ih =>
    simp only [insertInto]
    split
    · simp
    · split
      · next h => subst h; simp
      · simp only [List.mem_cons, ih]
        constructor
        · rintro (h | h | h) <;> simp [h]
        · rintro (h | h | h) <;> simp [h]

variable [Std.Trichotomous (α := α) (· < ·)] [Trans (α := α) (· < ·) (· < ·) (· < ·)]

theorem pairwise_insertInto (x : α) {ys : List α} (h : ys.Pairwise (· < ·)) :
    (insertInto x ys).Pairwise (· < ·) := by
  induction ys with
  | nil => simp [insertInto]
  | cons y ys ih =>
    have ⟨hy, hys⟩ := List.pairwise_cons.1 h
    simp only [insertInto]
    split
    · next hx =>
      refine List.pairwise_cons.2 ⟨?_, h⟩
      intro z hz
      rcases List.mem_cons.1 hz with rfl | hz
      · exact hx
      · exact Trans.trans hx (hy z hz)
    · split
      · exact h
      · next hx hne =>
        refine List.pairwise_cons.2 ⟨?_, ih hys⟩
        intro z hz
        rcases mem_insertInto.1 hz with rfl | hz
        · rcases Std.Trichotomous.rel_or_eq_or_rel_swap (r := (· < ·)) (a := z) (b := y)
            with h | h | h
          · exact absurd h hx
          · exact absurd h hne
          · exact h
        · exact hy z hz

def insert (x : α) (set : Ascending α) : Ascending α :=
  ⟨insertInto x set.items, pairwise_insertInto x set.ascending⟩

def ofList (xs : List α) : Ascending α :=
  xs.foldr insert empty

@[simp]
theorem mem_ofList {x : α} {xs : List α} : x ∈ (ofList xs).items ↔ x ∈ xs := by
  induction xs with
  | nil => simp [ofList, empty]
  | cons y ys ih =>
    have : (ofList (y :: ys)).items = insertInto y (ofList ys).items := rfl
    rw [this, mem_insertInto, ih, List.mem_cons]

theorem nodup_items (set : Ascending String) : set.items.Nodup := by
  apply set.ascending.imp
  rintro x y hlt rfl
  exact String.lt_irrefl x hlt

end Ascending

end MetricAlerts
