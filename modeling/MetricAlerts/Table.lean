/-!
# Tables

Finite maps as lists of pairs with distinct keys. A key keeps the place at which it was first
stored; nothing outside this module depends on that order.
-/

namespace MetricAlerts

structure Table (κ ν : Type) where
  entries : List (κ × ν)
  nodup : (entries.map Prod.fst).Nodup

namespace Table

variable {κ ν : Type}

def empty : Table κ ν := ⟨[], .nil⟩

def keys (table : Table κ ν) : List κ :=
  table.entries.map Prod.fst

def values (table : Table κ ν) : List ν :=
  table.entries.map Prod.snd

def size (table : Table κ ν) : Nat :=
  table.entries.length

variable [DecidableEq κ]

def find? (table : Table κ ν) (key : κ) : Option ν :=
  table.entries.lookup key

def contains (table : Table κ ν) (key : κ) : Bool :=
  (table.find? key).isSome

def put (key : κ) (value : ν) : List (κ × ν) → List (κ × ν)
  | [] => [(key, value)]
  | (k, v) :: rest => if k = key then (key, value) :: rest else (k, v) :: put key value rest

theorem mem_keys_put {key k : κ} {value : ν} {entries : List (κ × ν)} :
    k ∈ (put key value entries).map Prod.fst ↔ k = key ∨ k ∈ entries.map Prod.fst := by
  induction entries with
  | nil => simp [put]
  | cons entry rest ih =>
    obtain ⟨k', v⟩ := entry
    simp only [put]
    split
    · next h => subst h; simp
    · simp only [List.map_cons, List.mem_cons, ih]
      constructor
      · rintro (h | h | h) <;> simp [h]
      · rintro (h | h | h) <;> simp [h]

theorem nodup_put (key : κ) (value : ν) {entries : List (κ × ν)}
    (h : (entries.map Prod.fst).Nodup) : ((put key value entries).map Prod.fst).Nodup := by
  induction entries with
  | nil => simp [put]
  | cons entry rest ih =>
    obtain ⟨k, v⟩ := entry
    have ⟨hk, hrest⟩ := List.nodup_cons.1 h
    simp only [put]
    split
    · next heq => subst heq; simpa using h
    · next hne =>
      refine List.nodup_cons.2 ⟨?_, ih hrest⟩
      simp only [mem_keys_put, not_or]
      exact ⟨hne, hk⟩

/-- Stores a value, in place of the previous one if there is one. -/
def insert (table : Table κ ν) (key : κ) (value : ν) : Table κ ν :=
  ⟨put key value table.entries, nodup_put key value table.nodup⟩

def erase (table : Table κ ν) (key : κ) : Table κ ν :=
  ⟨table.entries.filter fun entry => entry.1 ≠ key,
    (List.filter_sublist.map Prod.fst).nodup table.nodup⟩

/-- Later pairs replace earlier ones with the same key. -/
def ofList (pairs : List (κ × ν)) : Table κ ν :=
  pairs.foldl (fun table pair => table.insert pair.1 pair.2) empty

@[simp]
theorem find?_empty (key : κ) : (empty : Table κ ν).find? key = none := rfl

theorem lookup_put (key k : κ) (value : ν) (entries : List (κ × ν)) :
    (put key value entries).lookup k = if k = key then some value else entries.lookup k := by
  induction entries with
  | nil =>
    by_cases h : k = key
    · simp [put, h]
    · have hb : (k == key) = false := by simpa using h
      simp [put, List.lookup_cons, h, hb]
  | cons entry rest ih =>
    obtain ⟨k', v⟩ := entry
    simp only [put]
    split
    · next h =>
      subst h
      by_cases h : k = k'
      · simp [h]
      · have hb : (k == k') = false := by simpa using h
        simp [List.lookup_cons, h, hb]
    · next hne =>
      by_cases h : k = k'
      · subst h; simp [hne]
      · have hb : (k == k') = false := by simpa using h
        simp only [List.lookup_cons, hb, ih]

@[simp]
theorem find?_insert (table : Table κ ν) (key k : κ) (value : ν) :
    (table.insert key value).find? k = if k = key then some value else table.find? k :=
  lookup_put key k value table.entries

@[simp]
theorem find?_erase (table : Table κ ν) (key k : κ) :
    (table.erase key).find? k = if k = key then none else table.find? k := by
  simp only [find?, erase]
  induction table.entries with
  | nil => simp
  | cons entry rest ih =>
    obtain ⟨k', v⟩ := entry
    by_cases h : k' = key
    · subst h
      by_cases hk : k = k'
      · subst hk; simpa using ih
      · have hb : (k == k') = false := by simpa using hk
        simpa [List.lookup_cons, hb] using ih
    · by_cases hk : k = k'
      · subst hk; simp [h]
      · have hb : (k == k') = false := by simpa using hk
        simpa [h, List.lookup_cons, hb] using ih

theorem find?_eq_some_iff {table : Table κ ν} {key : κ} {value : ν} :
    table.find? key = some value ↔ (key, value) ∈ table.entries := by
  rw [find?, List.lookup_eq_some_iff]
  constructor
  · rintro ⟨before, after, hentries, -⟩
    simp [hentries]
  · intro hmem
    obtain ⟨before, after, hentries⟩ := List.append_of_mem hmem
    have hnodup := table.nodup
    refine ⟨before, after, hentries, ?_⟩
    rintro ⟨k, v⟩ hk
    rw [hentries, List.map_append, List.map_cons, List.nodup_append] at hnodup
    have hne := hnodup.2.2 k (List.mem_map.2 ⟨_, hk, rfl⟩) key (by simp)
    simpa using hne.symm

/-- What is found does not depend on the order of the pairs. -/
theorem find?_eq_of_perm {table other : Table κ ν} (hperm : table.entries.Perm other.entries)
    (key : κ) : table.find? key = other.find? key := by
  ext value
  rw [find?_eq_some_iff, find?_eq_some_iff]
  exact hperm.mem_iff

theorem mem_keys_iff {table : Table κ ν} {key : κ} :
    key ∈ table.keys ↔ ∃ value, table.find? key = some value := by
  simp only [keys, List.mem_map, find?_eq_some_iff]
  constructor
  · rintro ⟨⟨k, value⟩, hentry, rfl⟩
    exact ⟨value, hentry⟩
  · rintro ⟨value, hentry⟩
    exact ⟨_, hentry, rfl⟩

theorem not_contains_iff {table : Table κ ν} {key : κ} :
    ¬table.contains key = true ↔ table.find? key = none :=
  Option.not_isSome_iff_eq_none

/-- To take out what is not there changes nothing. -/
theorem erase_eq_self {table : Table κ ν} {key : κ} (hfree : table.find? key = none) :
    table.erase key = table := by
  obtain ⟨entries, hnodup⟩ := table
  rw [erase, mk.injEq, List.filter_eq_self]
  rintro ⟨k, value⟩ hentry
  have hne : k ≠ key := by
    rintro rfl
    cases hfree.symm.trans (find?_eq_some_iff.2 hentry)
  exact decide_eq_true hne

theorem mem_values_of_find? {table : Table κ ν} {key : κ} {value : ν}
    (hfind : table.find? key = some value) : value ∈ table.values :=
  List.mem_map.2 ⟨_, find?_eq_some_iff.1 hfind, rfl⟩

theorem erase_insert (table : Table κ ν) (key : κ) (value : ν) :
    (table.insert key value).erase key = table.erase key := by
  simp only [erase, insert, mk.injEq]
  induction table.entries with
  | nil => simp [put]
  | cons entry rest ih =>
    obtain ⟨k, v⟩ := entry
    simp only [put]
    split
    · next h => simp [h]
    · next h => simpa [h] using ih

/-- The values are the one under a key and those that remain without it. -/
theorem values_perm (table : Table κ ν) (key : κ) :
    table.values.Perm ((table.find? key).toList ++ (table.erase key).values) := by
  obtain ⟨entries, hnodup⟩ := table
  simp only [values, find?, erase]
  induction entries with
  | nil => rfl
  | cons entry rest ih =>
    obtain ⟨k, v⟩ := entry
    have ⟨hk, hrest⟩ := List.nodup_cons.1 hnodup
    by_cases h : k = key
    · subst h
      have hothers : rest.filter (fun entry => entry.1 ≠ k) = rest := by
        rw [List.filter_eq_self]
        rintro ⟨k', v'⟩ hmem
        have hne : k' ≠ k := fun heq => hk (List.mem_map.2 ⟨_, hmem, heq⟩)
        simpa using hne
      simp only [ne_eq, decide_not] at hothers
      simp [hothers]
    · have hb : (key == k) = false := by simpa using Ne.symm h
      simp only [List.lookup_cons, hb, ne_eq, h, not_false_eq_true, decide_true,
        List.filter_cons_of_pos, List.map_cons]
      exact ((ih hrest).cons v).trans List.perm_middle.symm

end Table

end MetricAlerts
