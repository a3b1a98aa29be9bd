import LateBinding.Identity

/-!
# Things that are told apart

Identities are handed out by a counter, so what has been made is told apart by its identity
(`Apart`), and what is made next is told apart from all that.
-/

namespace LateBinding

/-- The identities of the things in a list have been handed out, and no two of the things have the
same one. -/
structure Apart {α : Type} (id : α → Identity) (l : List α) (next : Identity) : Prop where
  /-- The identities have been handed out. -/
  below : ∀ a ∈ l, id a < next
  /-- A thing is known by its identity. -/
  inj : ∀ a ∈ l, ∀ b ∈ l, id a = id b → a = b

namespace Apart

variable {α : Type} {id : α → Identity} {l l' : List α} {next next' : Identity} {a : α}

theorem nil : Apart id [] next where
  below _ h := by simp at h
  inj _ h := by simp at h

theorem mono (h : Apart id l next) (hn : next ≤ next') : Apart id l next' where
  below a ha := Nat.lt_of_lt_of_le (h.below a ha) hn
  inj := h.inj

/-- Only what is in the list matters, not its order. -/
theorem of_subset (h : Apart id l next) (hl : ∀ a ∈ l', a ∈ l) : Apart id l' next where
  below a ha := h.below a (hl a ha)
  inj a ha b hb := h.inj a (hl a ha) b (hl b hb)

theorem ne_next (h : Apart id l next) {b : α} (hb : b ∈ l) (ha : id a = next) : id b ≠ id a := by
  rw [ha]
  exact Nat.ne_of_lt (h.below b hb)

/-- What gets the next identity is told apart from what was made before. -/
theorem cons (h : Apart id l next) (ha : id a = next) : Apart id (a :: l) (next + 1) where
  below b hb := by
    rcases List.mem_cons.1 hb with rfl | hb
    · exact ha ▸ Nat.lt_succ_self _
    · exact Nat.lt_succ_of_lt (h.below b hb)
  inj b hb c hc hbc := by
    rcases List.mem_cons.1 hb with hb | hb <;> rcases List.mem_cons.1 hc with hc | hc
    · rw [hb, hc]
    · exact absurd (hb ▸ hbc.symm) (h.ne_next hc ha)
    · exact absurd (hc ▸ hbc) (h.ne_next hb ha)
    · exact h.inj b hb c hc hbc

theorem append (h : Apart id l next) (ha : id a = next) : Apart id (l ++ [a]) (next + 1) :=
  (h.cons ha).of_subset fun b hb => by simpa [or_comm] using hb

end Apart

end LateBinding
