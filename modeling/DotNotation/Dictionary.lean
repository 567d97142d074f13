/-
# Dictionaries

A dictionary is a list of keys with their values in the order in which the keys were first
set.  Setting a key again replaces its value and leaves it in its place.

The main statements are `get?_set`, which says what a key holds after any key was set,
`keys_set`, which says that a new key goes to the end and an old one moves nothing, and
`get?_ofList`, which says that in a dictionary of pairs the last value of a key counts.
-/
import DotNotation.Text

namespace DotNotation

/-- Keys with their values, in the order in which the keys were first set. -/
structure Dictionary (α : Type) where
  /-- The entries in order. -/
  entries : List (Text × α) := []
deriving DecidableEq, Repr

namespace Dictionary

variable {α : Type}

/-- The dictionary without entries. -/
def empty : Dictionary α := ⟨[]⟩

/-- The keys in order. -/
def keys (d : Dictionary α) : List Text := d.entries.map Prod.fst

/-- Set a key in a list of entries. -/
def setEntry (key : Text) (value : α) : List (Text × α) → List (Text × α)
  | [] => [(key, value)]
  | (k, v) :: rest => if k = key then (k, value) :: rest else (k, v) :: setEntry key value rest

/-- Set a key. -/
def set (d : Dictionary α) (key : Text) (value : α) : Dictionary α :=
  ⟨setEntry key value d.entries⟩

/-- The value of a key. -/
def get? (d : Dictionary α) (key : Text) : Option α := d.entries.lookup key

/-- Is the key there? -/
def contains (d : Dictionary α) (key : Text) : Bool := (d.get? key).isSome

/-- Set a key unless it is there. -/
def setDefault (d : Dictionary α) (key : Text) (value : α) : Dictionary α :=
  if d.contains key then d else d.set key value

/-- Change the value of a key that is there. -/
def modify (d : Dictionary α) (key : Text) (f : α → α) : Dictionary α :=
  match d.get? key with
  | some value => d.set key (f value)
  | none => d

/-- Set keys one after the other. -/
def setAll (d : Dictionary α) (pairs : List (Text × α)) : Dictionary α :=
  pairs.foldl (fun d pair => d.set pair.1 pair.2) d

/-- The dictionary of a list of keys with values, where the last value of a key counts. -/
def ofList (pairs : List (Text × α)) : Dictionary α := empty.setAll pairs

theorem lookup_cons_of_ne {k other : Text} (h : other ≠ k) (v : α) (rest : List (Text × α)) :
    ((k, v) :: rest).lookup other = rest.lookup other := by
  have hb : (other == k) = false := by simpa using h
  simp [List.lookup_cons, hb]

theorem lookup_setEntry (key other : Text) (value : α) (entries : List (Text × α)) :
    (setEntry key value entries).lookup other =
      if other = key then some value else entries.lookup other := by
  induction entries with
  | nil =>
    by_cases h : other = key
    · simp [setEntry, h]
    · simp [setEntry, h, lookup_cons_of_ne h]
  | cons entry rest ih =>
    obtain ⟨k, v⟩ := entry
    unfold setEntry
    split
    · rename_i hk
      subst hk
      by_cases h : other = k
      · simp [h]
      · simp [h, lookup_cons_of_ne h]
    · rename_i hk
      by_cases h : other = k
      · subst h
        simp [hk]
      · rw [lookup_cons_of_ne h, lookup_cons_of_ne h, ih]

/-- After setting a key that key has the new value, and every other key what it had. -/
theorem get?_set (d : Dictionary α) (key other : Text) (value : α) :
    (d.set key value).get? other = if other = key then some value else d.get? other :=
  lookup_setEntry key other value d.entries

theorem map_fst_setEntry (key : Text) (value : α) (entries : List (Text × α)) :
    (setEntry key value entries).map Prod.fst =
      if key ∈ entries.map Prod.fst then entries.map Prod.fst
      else entries.map Prod.fst ++ [key] := by
  induction entries with
  | nil => simp [setEntry]
  | cons entry rest ih =>
    obtain ⟨k, v⟩ := entry
    unfold setEntry
    split
    · rename_i hk
      simp [hk]
    · rename_i hk
      have hk' : key ≠ k := fun h => hk h.symm
      simp only [List.map_cons, ih, List.mem_cons, hk', false_or]
      split <;> simp

/-- A new key goes to the end; a key that is there keeps its place. -/
theorem keys_set (d : Dictionary α) (key : Text) (value : α) :
    (d.set key value).keys = if key ∈ d.keys then d.keys else d.keys ++ [key] :=
  map_fst_setEntry key value d.entries

theorem nodup_keys_set {d : Dictionary α} (h : d.keys.Nodup) (key : Text) (value : α) :
    (d.set key value).keys.Nodup := by
  rw [keys_set]
  split
  · exact h
  · rename_i hkey
    rw [List.nodup_append]
    refine ⟨h, by simp, ?_⟩
    intro a ha b hb hab
    have hb' : b = key := by simpa using hb
    exact hkey (hb' ▸ hab ▸ ha)

theorem lookup_isSome (key : Text) (entries : List (Text × α)) :
    (entries.lookup key).isSome ↔ key ∈ entries.map Prod.fst := by
  induction entries with
  | nil => simp
  | cons entry rest ih =>
    obtain ⟨k, v⟩ := entry
    by_cases h : key = k
    · simp [h]
    · rw [lookup_cons_of_ne h, ih, List.map_cons, List.mem_cons, or_iff_right h]

theorem contains_iff_mem_keys (d : Dictionary α) (key : Text) :
    d.contains key ↔ key ∈ d.keys :=
  lookup_isSome key d.entries

/-- A default is appended under a new key and changes nothing under an old one. -/
theorem keys_setDefault (d : Dictionary α) (key : Text) (value : α) :
    (d.setDefault key value).keys = if key ∈ d.keys then d.keys else d.keys ++ [key] := by
  unfold setDefault
  by_cases h : key ∈ d.keys
  · rw [if_pos ((contains_iff_mem_keys d key).mpr h), if_pos h]
  · rw [if_neg (mt (contains_iff_mem_keys d key).mp h), keys_set]

theorem nodup_keys_setDefault {d : Dictionary α} (h : d.keys.Nodup) (key : Text) (value : α) :
    (d.setDefault key value).keys.Nodup := by
  unfold setDefault
  split
  · exact h
  · exact nodup_keys_set h key value

/-- A default shows through where a key has no value yet. -/
theorem get?_setDefault (d : Dictionary α) (key other : Text) (value : α) :
    (d.setDefault key value).get? other =
      (d.get? other).or (if other = key then some value else none) := by
  unfold setDefault
  split
  · rename_i h
    by_cases ho : other = key
    · obtain ⟨v, hv⟩ := Option.isSome_iff_exists.mp h
      simp [ho, hv]
    · simp [ho]
  · rename_i h
    by_cases ho : other = key
    · have hnone : d.get? key = none := by simpa [contains] using h
      simp [get?_set, ho, hnone]
    · simp [get?_set, ho]

/-- Changing a value moves no key. -/
theorem keys_modify (d : Dictionary α) (key : Text) (f : α → α) :
    (d.modify key f).keys = d.keys := by
  unfold modify
  split
  · rename_i value h
    have hkey : key ∈ d.keys := by
      rw [← contains_iff_mem_keys]
      simp [contains, h]
    rw [keys_set, if_pos hkey]
  · rfl

/-- Changing a value is seen under its key alone, and only if the key is there. -/
theorem get?_modify (d : Dictionary α) (key other : Text) (f : α → α) :
    (d.modify key f).get? other = if other = key then (d.get? key).map f else d.get? other := by
  unfold modify
  split
  · rename_i value h
    rw [get?_set, h, Option.map_some]
  · rename_i h
    by_cases ho : other = key
    · rw [if_pos ho, ho, h, Option.map_none]
    · rw [if_neg ho]

theorem setAll_append (d : Dictionary α) (pairs more : List (Text × α)) :
    d.setAll (pairs ++ more) = (d.setAll pairs).setAll more :=
  List.foldl_append

theorem nodup_keys_setAll {d : Dictionary α} (h : d.keys.Nodup) (pairs : List (Text × α)) :
    (d.setAll pairs).keys.Nodup := by
  induction pairs generalizing d with
  | nil => exact h
  | cons pair rest ih => exact ih (nodup_keys_set h pair.1 pair.2)

/-- After setting keys one after the other each has its last value. -/
theorem get?_setAll (d : Dictionary α) (pairs : List (Text × α)) (key : Text) :
    (d.setAll pairs).get? key = (pairs.reverse.lookup key).or (d.get? key) := by
  induction pairs generalizing d with
  | nil => simp [setAll]
  | cons pair rest ih =>
    obtain ⟨k, v⟩ := pair
    have hstep : (d.setAll ((k, v) :: rest)) = (d.set k v).setAll rest := rfl
    rw [hstep, ih, get?_set, List.reverse_cons, List.lookup_append, Option.or_assoc]
    by_cases h : key = k
    · simp [h]
    · simp [h, lookup_cons_of_ne h]

theorem nodup_keys_ofList (pairs : List (Text × α)) : (ofList pairs).keys.Nodup := by
  have hempty : (empty : Dictionary α).keys.Nodup := List.nodup_nil
  exact nodup_keys_setAll hempty pairs

/-- In a dictionary of pairs the last value of a key counts. -/
theorem get?_ofList (pairs : List (Text × α)) (key : Text) :
    (ofList pairs).get? key = pairs.reverse.lookup key := by
  rw [ofList, get?_setAll]
  simp [empty, get?]

end Dictionary

end DotNotation
