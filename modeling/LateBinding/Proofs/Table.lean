import Mathlib.Data.List.Induction
import LateBinding.Store
import LateBinding.Table

/-!
# Entries of tables

What a table answers is one of its entries, and what a table made from a list answers is one of
the pairs of the list.  What holds of all that a table or a store answers holds after an insertion
if it holds of what is inserted (`Table.forall_insert`, `Store.forall_insert`).
-/

namespace LateBinding

variable {κ α : Type} [DecidableEq κ]

theorem Entries.mem_of_lookup {k : κ} {a : α} {l : List (κ × α)} (h : lookup k l = some a) :
    (k, a) ∈ l := by
  induction l with
  | nil => simp [lookup] at h
  | cons e rest ih =>
    obtain ⟨k', a'⟩ := e
    by_cases hk : k' = k
    · simp only [lookup, hk, if_true, Option.some.injEq] at h
      simp [hk, h]
    · simp only [lookup, hk, if_false] at h
      exact List.mem_cons_of_mem _ (ih h)

theorem Entries.lookup_of_mem {k : κ} {a : α} {l : List (κ × α)} (hl : (l.map Prod.fst).Nodup)
    (h : (k, a) ∈ l) : lookup k l = some a := by
  induction l with
  | nil => simp at h
  | cons e rest ih =>
    rw [List.map_cons, List.nodup_cons] at hl
    obtain rfl | h := List.mem_cons.1 h
    · simp [lookup]
    · have apart : e.1 ≠ k := fun he => hl.1 (List.mem_map.2 ⟨(k, a), h, he.symm⟩)
      rw [lookup, if_neg apart]
      exact ih hl.2 h

namespace Table

theorem mem_of_get? {t : Table κ α} {k : κ} {a : α} (h : t.get? k = some a) :
    (k, a) ∈ t.entries :=
  Entries.mem_of_lookup h

theorem get?_of_mem {t : Table κ α} {k : κ} {a : α} (h : (k, a) ∈ t.entries) :
    t.get? k = some a :=
  Entries.lookup_of_mem t.nodup h

/-- Entries are all as they should be if those that were there are, and the new one. -/
theorem forall_insert {P : κ → α → Prop} {t : Table κ α} (ht : ∀ k a, t.get? k = some a → P k a)
    {k : κ} {a : α} (ha : P k a) : ∀ k' b, (t.insert k a).get? k' = some b → P k' b := by
  intro k' b h
  rw [get?_insert] at h
  split at h
  · rename_i hk
    cases h
    exact hk ▸ ha
  · exact ht k' b h

theorem ofList_append_singleton (l : List (κ × α)) (k : κ) (a : α) :
    ofList (l ++ [(k, a)]) = (ofList l).insert k a := by
  simp [ofList]

theorem mem_of_get?_ofList {l : List (κ × α)} {k : κ} {a : α}
    (h : (ofList l).get? k = some a) : (k, a) ∈ l := by
  induction l using List.reverseRecOn with
  | nil => simp [ofList] at h
  | append_singleton l e ih =>
    rw [ofList_append_singleton, get?_insert] at h
    split at h
    · rename_i hk
      simp only [Option.some.injEq] at h
      simp [← hk, ← h]
    · exact List.mem_append_left _ (ih h)

/-- A list without repetition of keys is entered as it is. -/
theorem entries_ofList {l : List (κ × α)} (h : (l.map Prod.fst).Nodup) :
    (ofList l).entries = l := by
  induction l using List.reverseRecOn with
  | nil => rfl
  | append_singleton l e ih =>
    rw [List.map_append, List.nodup_append] at h
    obtain ⟨hl, -, apart⟩ := h
    have new : (ofList l).get? e.1 = none := by
      rw [get?_eq_none_iff, keys, ih hl]
      exact fun he => apart _ he e.1 (by simp) rfl
    rw [ofList_append_singleton, entries_insert_of_get?_eq_none new, ih hl]

omit [DecidableEq κ] in
theorem eq_of_entries {t u : Table κ α} (h : t.entries = u.entries) : t = u := by
  cases t
  cases u
  cases h
  rfl

theorem ofList_entries (t : Table κ α) : ofList t.entries = t :=
  eq_of_entries (entries_ofList t.nodup)

end Table

/-- The same of stores. -/
theorem Store.forall_insert {P : Identity → α → Prop} {s : Store α}
    (hs : ∀ i a, s.get? i = some a → P i a) {i : Identity} {a : α} (ha : P i a) :
    ∀ j b, (s.insert i a).get? j = some b → P j b := by
  intro j b h
  rw [get?_insert] at h
  split at h
  · rename_i hj
    cases h
    exact hj ▸ ha
  · exact hs j b h

end LateBinding
