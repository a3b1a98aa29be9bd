import LateBinding.Identity

/-!
# Stores

A `Store α` maps identities to values.  It is a binary tree: the digits of an identity in base
two, the lowest first, lead from the root to the value (`Identity.path`), so that reaching an
entry takes as many steps as the identity has digits.

Different identities have different paths (`Identity.path_inj`), hence a store is known by what
`Store.get?` answers, and `get?_insert` says what an entry changes there.
-/

namespace LateBinding

/-! ### Paths -/

namespace Identity

/-- The digits of a number in base two, the lowest first, if there are at most `limit`. -/
def digits : (limit : Nat) → Nat → List Bool
  | 0, _ => []
  | limit + 1, n => if n = 0 then [] else decide (n % 2 = 1) :: digits limit (n / 2)

/-- The digits of an identity in base two, the lowest first. -/
def path (i : Identity) : List Bool := digits i i

theorem eq_of_digits_eq {l l' n n' : Nat} (hn : n ≤ l) (hn' : n' ≤ l')
    (h : digits l n = digits l' n') : n = n' := by
  induction l generalizing l' n n' with
  | zero =>
    cases l' with
    | zero => omega
    | succ l' =>
      by_cases hz' : n' = 0
      · omega
      · simp [digits, hz'] at h
  | succ l ih =>
    cases l' with
    | zero =>
      by_cases hz : n = 0
      · omega
      · simp [digits, hz] at h
    | succ l' =>
      by_cases hz : n = 0 <;> by_cases hz' : n' = 0
      · omega
      · simp [digits, hz, hz'] at h
      · simp [digits, hz, hz'] at h
      · simp only [digits, hz, hz', if_false, List.cons.injEq] at h
        have half := ih (by omega) (by omega) h.2
        have last : n % 2 = 1 ↔ n' % 2 = 1 := by simpa using h.1
        omega

/-- An identity is known by its path. -/
theorem path_inj {i j : Identity} : i.path = j.path ↔ i = j :=
  ⟨eq_of_digits_eq (Nat.le_refl i) (Nat.le_refl j), fun h => h ▸ rfl⟩

end Identity

/-! ### Trees -/

/-- A finite map from identities. -/
inductive Store (α : Type)
  /-- The store without entries. -/
  | empty
  /-- The value at the end of a path, and what lies beyond it by the digit that comes next. -/
  | node (here : Option α) (zero one : Store α)

namespace Store

variable {α : Type}

instance : EmptyCollection (Store α) := ⟨empty⟩

instance : Inhabited (Store α) := ⟨empty⟩

/-- The value at the root. -/
def here? : Store α → Option α
  | empty => none
  | node here _ _ => here

/-- What lies beyond a digit. -/
def beyond : Store α → Bool → Store α
  | empty, _ => empty
  | node _ zero _, false => zero
  | node _ _ one, true => one

/-- The value at the end of a path. -/
def follow : Store α → List Bool → Option α
  | s, [] => s.here?
  | s, digit :: rest => (s.beyond digit).follow rest

/-- Put a value at the end of a path. -/
def place (a : α) : Store α → List Bool → Store α
  | s, [] => node (some a) (s.beyond false) (s.beyond true)
  | s, false :: rest => node s.here? (place a (s.beyond false) rest) (s.beyond true)
  | s, true :: rest => node s.here? (s.beyond false) (place a (s.beyond true) rest)

/-- The value of an identity. -/
def get? (s : Store α) (i : Identity) : Option α := s.follow i.path

/-- Give an identity a value. -/
def insert (s : Store α) (i : Identity) (a : α) : Store α := s.place a i.path

theorem follow_empty (p : List Bool) : (empty : Store α).follow p = none := by
  induction p with
  | nil => rfl
  | cons digit rest ih => cases digit <;> exact ih

theorem follow_place (s : Store α) (a : α) (p q : List Bool) :
    (s.place a p).follow q = if p = q then some a else s.follow q := by
  induction p generalizing s q with
  | nil =>
    cases q with
    | nil => rfl
    | cons digit rest => cases digit <;> rfl
  | cons digit rest ih =>
    cases q with
    | nil => cases digit <;> rfl
    | cons digit' rest' => cases digit <;> cases digit' <;> simp [place, follow, beyond, ih]

@[simp] theorem get?_empty (i : Identity) : (∅ : Store α).get? i = none :=
  follow_empty i.path

theorem get?_insert (s : Store α) (i j : Identity) (a : α) :
    (s.insert i a).get? j = if i = j then some a else s.get? j := by
  simp only [get?, insert, follow_place, Identity.path_inj]

@[simp] theorem get?_insert_self (s : Store α) (i : Identity) (a : α) :
    (s.insert i a).get? i = some a := by
  simp [get?_insert]

end Store

end LateBinding
