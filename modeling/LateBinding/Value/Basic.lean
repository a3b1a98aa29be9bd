import LateBinding.Class.Search
import LateBinding.Exception
import LateBinding.Mapping.Document

/-!
# Values

A `Value` is what arguments, results and fields hold: null, a boolean, an integer of 64 bits, a
floating-point number, a text, an object, or a proxy.

A proxy stands for a *target*, which is again a value, under the name of an interface.  It is
either an *adapter* made by a resolver, and then knows the types it connects (`Binding`), or a
foreign one, of which only the interface name is known (`Face`).

Objects are equal if they are the same object.  Proxies are equal if they are the same proxy, or
if they have the same interface name and equal targets.  Floating-point numbers are compared as
numbers, so not-a-number differs from itself.
-/

namespace LateBinding

/-- An object: what tells it apart and its class.  The fields are part of the world. -/
structure Instance (V : Type) where
  /-- What tells the object apart. -/
  id : Identity
  /-- The class that the object was made from. -/
  cls : Class V

/-- The entry of a class in the type cache of a resolver. -/
structure TypeEntry (V : Type) where
  /-- What tells the entry apart. -/
  id : Identity
  /-- The class. -/
  cls : Class V

/-- A resolver: what tells it apart and what it was made with.  Its registry, its caches and the
values it keeps are part of the world. -/
structure Resolver where
  /-- What tells the resolver apart. -/
  id : Identity
  /-- The mapping document. -/
  document : Mapping.Document
  /-- Where types are looked up if no scope is given. -/
  defaultScope : Scope

/-- What an adapter knows beside its target. -/
structure Binding (V : Type) where
  /-- The resolver that made the adapter. -/
  resolver : Resolver
  /-- The logical interface. -/
  interface : TypeEntry V
  /-- The adapted type. -/
  adapted : TypeEntry V
  /-- The scope that the adapted type was looked up in. -/
  scope : Scope

/-- What a proxy shows of itself. -/
inductive Face (V : Type)
  /-- A proxy from outside, with the name of its interface. -/
  | foreign (interface : String)
  /-- An adapter. -/
  | adapter (binding : Binding V)

/-- A value. -/
inductive Value
  | null
  | bool (value : Bool)
  | int (value : Int64)
  | float (value : Float)
  | str (value : String)
  | object (obj : Instance Value)
  | proxy (id : Identity) (face : Face Value) (target : Value)

instance : Inhabited Value := ⟨.null⟩

/-- The name of the interface. -/
def Face.name {V : Type} : Face V → String
  | foreign n => n
  | adapter b => b.interface.cls.name

/-- An object as values refer to it. -/
abbrev Object := Instance Value

/-! ### Names of types -/

/-- The names of the types that no class declares. -/
def builtinTypes : List String := ["null", "bool", "int", "float", "str", "void", "any"]

/-- Whether no class declares the type. -/
def isBuiltin (type : String) : Bool := builtinTypes.contains type

namespace Value

/-- The name of the type of a value. -/
def typeName : Value → String
  | null => "null"
  | bool _ => "bool"
  | int _ => "int"
  | float _ => "float"
  | str _ => "str"
  | object o => o.cls.name
  | proxy _ f _ => f.name

/-- Whether a value may stand where the type is asked for. -/
def conformsTo (v : Value) (type : String) : Bool :=
  type == "any" ||
    match v with
    | null => type != "bool" && type != "int" && type != "float"
    | bool _ => type == "bool"
    | int _ => type == "int"
    | float _ => type == "float"
    | str _ => type == "str"
    | object o => o.cls.isSubclassOf type
    | proxy _ f _ => f.name == type

/-! ### Parts of values -/

/-- Whether the value is null. -/
def isNull : Value → Bool
  | null => true
  | _ => false

/-- Whether the value is a proxy. -/
def isProxy : Value → Bool
  | proxy .. => true
  | _ => false

/-- The target of a proxy, any other value as it is. -/
def unwrap : Value → Value
  | proxy _ _ t => t
  | v => v

/-- The boolean, if the value is one. -/
def bool? : Value → Option Bool
  | bool b => some b
  | _ => none

/-- The integer, if the value is one. -/
def int? : Value → Option Int64
  | int i => some i
  | _ => none

/-- The number, if the value is one. -/
def float? : Value → Option Float
  | float x => some x
  | int i => some i.toFloat
  | _ => none

/-- The text, if the value is one. -/
def str? : Value → Option String
  | str s => some s
  | _ => none

/-- The object, if the value is one. -/
def object? : Value → Option Object
  | object o => some o
  | _ => none

/-- The part of a value that is asked for, or a mismatch of types. -/
def demand {α : Type} (expected : String) (part : Value → Option α) (v : Value) :
    Except Exception α :=
  match part v with
  | some a => .ok a
  | none => .error (.typeMismatch expected v.typeName)

/-- The integer that the value has to be. -/
def expectInt : Value → Except Exception Int64 := demand "int" int?

/-- The text that the value has to be. -/
def expectStr : Value → Except Exception String := demand "str" str?

/-- The object that the receiver of an access has to be. -/
def expectObject : Value → Except Exception Object
  | null => .error (.nullPointer "receiver is null")
  | v => demand "object" object? v

/-! ### Equality -/

/-- Whether two values are equal. -/
def same : Value → Value → Bool
  | null, null => true
  | bool a, bool b => a == b
  | int a, int b => a == b
  | float a, float b => a == b
  | str a, str b => a == b
  | object a, object b => a.id == b.id
  | proxy i f t, proxy j g u => i == j || (f.name == g.name && t.same u)
  | _, _ => false

end Value

/-- The value of a literal. -/
def Literal.toValue : Literal → Value
  | null => .null
  | bool b => .bool b
  | int i => .int i
  | float x => .float x
  | str s => .str s

end LateBinding
