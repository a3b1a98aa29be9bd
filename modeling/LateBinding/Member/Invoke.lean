import LateBinding.World.Object

/-!
# Using handles

A method handle is invoked on a receiver (`MethodHandle.invoke`), a field handle reads and
writes a target (`get`, `set` in `FieldHandle`), and a constructor handle makes an object.
Members that are not static insist on a receiver that is an instance of the declaring class.
-/

namespace LateBinding

/-- Fail if the object is no instance of the class. -/
def requireInstance (c : ClassDecl Value) (o : Object) : Except Exception Unit :=
  if o.cls.isSubclassOf c.name then .ok () else .error (.typeMismatch c.name o.cls.name)

/-- Invoke a method on a receiver.

A static method has no receiver.  On an object, a method that is not private runs its nearest
override.  Any other receiver but null is handed to the method as it is. -/
def MethodHandle.invoke (h : Host) (m : MethodHandle) (receiver : Value) (args : List Value) :
    Attempt Exception Value := do
  if m.decl.isStatic then m.decl.call h .null args
  else
    match receiver with
    | .null =>
      throw (.nullPointer (m.declaring.name ++ "." ++ m.decl.name ++
        " invoked without a receiver"))
    | .object o =>
      requireInstance m.declaring o
      let d : MethodDecl :=
        if m.decl.visibility = .priv then m.decl
        else (o.cls.findOverride ⟨m.decl.name, m.decl.params⟩).getD m.decl
      d.call h receiver args
    | _ => m.decl.call h receiver args

namespace FieldHandle

/-- The object whose field is accessed. -/
def receiver (f : FieldHandle) (target : Value) : Except Exception Object := do
  match target with
  | .null =>
    .error (.nullPointer ("field " ++ f.declaring.name ++ "." ++ f.decl.name ++
      " accessed without a receiver"))
  | v =>
    let o ← v.expectObject
    requireInstance f.declaring o
    return o

/-- Read the field; null if it has no value. -/
def get (f : FieldHandle) (target : Value) : Attempt Exception Value := do
  if f.decl.isStatic then return (← f.declaring.staticGet f.decl.name).getD .null
  else
    let o ← f.receiver target
    return (← o.get f.decl.name).getD .null

/-- Write the field. -/
def set (f : FieldHandle) (target : Value) (v : Value) : Attempt Exception Unit := do
  if f.decl.isStatic then
    let _ ← f.declaring.staticSet f.decl.name v
  else
    let o ← f.receiver target
    let _ ← o.set f.decl.name v

end FieldHandle

/-- Make an object with the constructor. -/
def ConstructorHandle.construct (h : Host) (k : ConstructorHandle) (args : List Value) :
    Attempt Exception Object :=
  k.cls.construct h k.decl args

end LateBinding
