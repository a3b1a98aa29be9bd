/-!
# Finite tables

A `Table κ α` maps keys to values.  Its entries are kept in the order in which their keys were
first entered; assigning to a key that is present replaces the value and moves nothing.  No key
occurs twice (`Table.nodup`), so a table is known by what `Table.get?` answers.

The lemmas say what each operation does to `Table.get?` (`get?_insert`, `get?_erase`) and that
`Table.insert` enters a new key at the end (`keys_insert_of_get?_eq_none`).
-/

namespace LateBinding

/-! ### Association lists -/

namespace Entries

variable {κ α : Type} [DecidableEq κ]

/-- The value of the first entry for a key. -/
def lookup (k : κ) : List (κ × α) → Option α
  | [] => none
  | (k', a) :: rest => if k' = k then some a else lookup k rest

/-- Replace the value of a key, or add the key at the end. -/
def assign (k : κ) (a : α) : List (κ × α) → List (κ × α)
  | [] => [(k, a)]
  | (k', a') :: rest => if k' = k then (k, a) :: rest else (k', a') :: assign k a rest

/-- Drop every entry for a key. -/
def remove (k : κ) (l : List (κ × α)) : List (κ × α) :=
  l.filter fun e => !decide (e.1 = k)

theorem mem_keys_assign {k x : κ} {a : α} {l : List (κ × α)} :
    x ∈ (assign k a l).map Prod.fst ↔ x = k ∨ x ∈ l.map Prod.fst := by
  induction l with
  | nil => simp [assign]
  | cons e rest ih =>
    obtain ⟨k', a'⟩ := e
    by_cases h : k' = k
    · subst h; simp [assign]
    · simp only [assign, h, if_false, List.map_cons, List.mem_cons, ih]
      exact or_left_comm

theorem nodup_assign {k : κ} {a : α} {l : List (κ × α)} (h : (l.map Prod.fst).Nodup) :
    ((assign k a l).map Prod.fst).Nodup := by
  induction l with
  | nil => simp [assign]
  | cons e rest ih =>
    obtain ⟨k', a'⟩ := e
    rw [List.map_cons, List.nodup_cons] at h
    by_cases hk : k' = k
    · subst hk; simpa [assign] using h
    · rw [assign, if_neg hk, List.map_cons, List.nodup_cons, mem_keys_assign, not_or]
      exact ⟨⟨hk, h.1⟩, ih h.2⟩

theorem nodup_remove {k : κ} {l : List (κ × α)} (h : (l.map Prod.fst).Nodup) :
    ((remove k l).map Prod.fst).Nodup :=
  h.sublist (List.filter_sublist.map _)

theorem lookup_assign (k x : κ) (a : α) (l : List (κ × α)) :
    lookup x (assign k a l) = if k = x then some a else lookup x l := by
  induction l with
  | nil => rfl
  | cons e rest ih =>
    obtain ⟨k', a'⟩ := e
    by_cases h : k' = k
    · subst h; by_cases hx : k' = x <;> simp [assign, lookup, hx]
    · by_cases hx : k' = x
      · subst hx; simp [assign, lookup, h, Ne.symm h]
      · simp [assign, lookup, h, hx, ih]

theorem lookup_remove (k x : κ) (l : List (κ × α)) :
    lookup x (remove k l) = if k = x then none else lookup x l := by
  unfold remove
  induction l with
  | nil => simp [lookup]
  | cons e rest ih =>
    obtain ⟨k', a'⟩ := e
    by_cases h : k' = k
    · subst h
      by_cases hx : k' = x
      · subst hx; simpa [lookup] using ih
      · simpa [lookup, hx] using ih
    · by_cases hx : k' = x
      · subst hx; simp [lookup, h, Ne.symm h]
      · simpa [lookup, h, hx] using ih

theorem lookup_eq_none_iff {k : κ} {l : List (κ × α)} :
    lookup k l = none ↔ k ∉ l.map Prod.fst := by
  induction l with
  | nil => simp [lookup]
  | cons e rest ih =>
    obtain ⟨k', a⟩ := e
    by_cases h : k' = k
    · subst h; simp [lookup]
    · simpa [lookup, h, Ne.symm h] using ih

theorem assign_of_lookup_eq_none {k : κ} {a : α} {l : List (κ × α)} (h : lookup k l = none) :
    assign k a l = l ++ [(k, a)] := by
  induction l with
  | nil => rfl
  | cons e rest ih =>
    obtain ⟨k', a'⟩ := e
    by_cases hk : k' = k
    · simp [lookup, hk] at h
    · simp only [lookup, hk, if_false] at h
      simp [assign, hk, ih h]

end Entries

/-! ### Tables -/

/-- A finite map whose entries stand in the order in which their keys were first entered. -/
structure Table (κ α : Type) where
  /-- The keys with their values. -/
  entries : List (κ × α)
  /-- No key occurs twice. -/
  nodup : (entries.map Prod.fst).Nodup

namespace Table

variable {κ α : Type}

/-- The table without entries. -/
def empty : Table κ α := ⟨[], List.nodup_nil⟩

instance : EmptyCollection (Table κ α) := ⟨empty⟩

instance : Inhabited (Table κ α) := ⟨empty⟩

/-- The keys, in the order of entry. -/
def keys (t : Table κ α) : List κ := t.entries.map Prod.fst

/-- The number of keys. -/
def size (t : Table κ α) : Nat := t.entries.length

/-- Whether there is no key. -/
def isEmpty (t : Table κ α) : Bool := t.entries.isEmpty

variable [DecidableEq κ]

/-- The value of a key. -/
def get? (t : Table κ α) (k : κ) : Option α := Entries.lookup k t.entries

/-- Whether a key has a value. -/
def contains (t : Table κ α) (k : κ) : Bool := (t.get? k).isSome

/-- Give a key a value. -/
def insert (t : Table κ α) (k : κ) (a : α) : Table κ α :=
  ⟨Entries.assign k a t.entries, Entries.nodup_assign t.nodup⟩

/-- Take the value of a key away. -/
def erase (t : Table κ α) (k : κ) : Table κ α :=
  ⟨Entries.remove k t.entries, Entries.nodup_remove t.nodup⟩

/-- The table that results from entering pairs one after the other; the last value of a key
stays. -/
def ofList (l : List (κ × α)) : Table κ α :=
  l.foldl (fun t e => t.insert e.1 e.2) ∅

/-- Whether two tables give every key the same value, compared by `same`. -/
def sameBy (same : α → α → Bool) (t u : Table κ α) : Bool :=
  t.size == u.size && t.entries.all fun e => (u.get? e.1).any (same e.2)

@[simp] theorem get?_empty (k : κ) : (∅ : Table κ α).get? k = none := rfl

theorem get?_insert (t : Table κ α) (k x : κ) (a : α) :
    (t.insert k a).get? x = if k = x then some a else t.get? x :=
  Entries.lookup_assign k x a t.entries

theorem get?_erase (t : Table κ α) (k x : κ) :
    (t.erase k).get? x = if k = x then none else t.get? x :=
  Entries.lookup_remove k x t.entries

@[simp] theorem get?_insert_self (t : Table κ α) (k : κ) (a : α) :
    (t.insert k a).get? k = some a := by
  simp [get?_insert]

theorem get?_eq_none_iff {t : Table κ α} {k : κ} : t.get? k = none ↔ k ∉ t.keys :=
  Entries.lookup_eq_none_iff

theorem entries_insert_of_get?_eq_none {t : Table κ α} {k : κ} (h : t.get? k = none) (a : α) :
    (t.insert k a).entries = t.entries ++ [(k, a)] :=
  Entries.assign_of_lookup_eq_none h

theorem keys_insert_of_get?_eq_none {t : Table κ α} {k : κ} (h : t.get? k = none) (a : α) :
    (t.insert k a).keys = t.keys ++ [k] := by
  simp [keys, entries_insert_of_get?_eq_none h]

end Table

end LateBinding
