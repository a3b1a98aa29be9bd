import LateBinding.Proofs.Stages

/-!
# Cells

Every field of an object and every static field of a class is a cell (`Cell`), and what fields hold
in a world is what its cells hold (`World.cell?`).  Writing a cell leaves all others
(`World.cell?_write`).

A handle of a field accesses one cell of its target (`FieldHandle.cell`), or fails: reading gives
what this cell holds (`FieldHandle.run_get`), and writing writes it (`FieldHandle.run_set`).
-/

namespace LateBinding

/-- Where the value of a field is kept. -/
inductive Cell
  /-- With an object. -/
  | field (object : Identity) (name : String)
  /-- With the class that declares the field. -/
  | static (cls : Identity) (name : String)
  deriving DecidableEq

namespace World

/-- What a cell holds, if it is there. -/
def cell? (w : World) : Cell → Option Value
  | .field i name => ((w.objects.get? i).getD ∅).get? name
  | .static i name => ((w.statics.get? i).getD ∅).get? name

/-- The world in which a cell holds a value. -/
def write (w : World) (c : Cell) (v : Value) : World :=
  match c with
  | .field i name =>
    { w with objects := w.objects.insert i (((w.objects.get? i).getD ∅).insert name v) }
  | .static i name =>
    { w with statics := w.statics.insert i (((w.statics.get? i).getD ∅).insert name v) }

/-- Writing a cell leaves all others. -/
theorem cell?_write (w : World) (c c' : Cell) (v : Value) :
    (w.write c v).cell? c' = if c = c' then some v else w.cell? c' := by
  -- the tables of the stores are looked up before their entries
  have entry (s : Store (Table String Value)) (i j : Identity) (name name' : String) :
      (((s.insert i (((s.get? i).getD ∅).insert name v)).get? j).getD ∅).get? name' =
        if i = j ∧ name = name' then some v else ((s.get? j).getD ∅).get? name' := by
    rw [Store.get?_insert]
    by_cases hid : i = j
    · subst hid
      simp [Table.get?_insert]
    · simp [hid]
  cases c with
  | field i name =>
    cases c' with
    | field j name' => simpa [write, cell?] using entry w.objects i j name name'
    | static => simp [write, cell?]
  | static i name =>
    cases c' with
    | field => simp [write, cell?]
    | static j name' => simpa [write, cell?] using entry w.statics i j name name'

@[simp] theorem cell?_write_self (w : World) (c : Cell) (v : Value) :
    (w.write c v).cell? c = some v := by
  rw [cell?_write, if_pos rfl]

theorem exists_cell?_write {w : World} {c : Cell} (h : ∃ v, w.cell? c = some v) (c' : Cell)
    (v : Value) : ∃ u, (w.write c' v).cell? c = some u := by
  rw [cell?_write]
  split
  · exact ⟨v, rfl⟩
  · exact h

end World

namespace FieldHandle

variable {f : FieldHandle} {target : Value} {w : World}

/-- The cell that a handle accesses. -/
def cell (f : FieldHandle) (target : Value) : Except Exception Cell := do
  if f.decl.isStatic then return .static f.declaring.id f.decl.name
  else
    let o ← f.receiver target
    return .field o.id f.decl.name

theorem receiver_object (f : FieldHandle) (o : Object) :
    f.receiver (.object o) =
      if o.cls.isSubclassOf f.declaring.name then .ok o
      else .error (.typeMismatch f.declaring.name o.cls.name) := by
  show (requireInstance f.declaring o >>= fun _ => .ok o) = _
  unfold requireInstance
  split
  · rfl
  · rfl

/-- A receiver is an object, of a class that bears the name of the declaring class or extends one
that does. -/
theorem receiver_eq_ok {o : Object} (h : f.receiver target = .ok o) :
    target = .object o ∧ o.cls.isSubclassOf f.declaring.name = true := by
  cases target with
  | object o' =>
    rw [receiver_object] at h
    split at h
    · rename_i instanced
      cases h
      exact ⟨rfl, instanced⟩
    · cases h
  | _ => cases h

/-- Reading a field gives what its cell holds, or null. -/
theorem run_get (f : FieldHandle) (target : Value) (w : World) :
    (f.get target).run w = .done ((f.cell target).map fun c => (w.cell? c).getD .null) w := by
  unfold get cell
  split
  · rfl
  · cases f.receiver target with
    | ok o => rfl
    | error e => rfl

/-- Writing a field writes its cell. -/
theorem run_set (f : FieldHandle) (target v : Value) (w : World) :
    (f.set target v).run w =
      match f.cell target with
      | .ok c => .done (.ok ()) (w.write c v)
      | .error e => .done (.error e) w := by
  unfold set cell
  split
  · rfl
  · cases f.receiver target with
    | ok o => rfl
    | error e => rfl

end FieldHandle

end LateBinding
