import LateBinding.Class.Basic
import LateBinding.Text.Blank

/-!
# Searching a class

Members are searched for by exact signature.  A lookup on a class takes the nearest public
declaration of its lineage, looking on each class at the first declaration only; if there is
none it falls back to what the class itself declares, and says so (`Found.overridden`).

A call on an object runs the nearest override (`Class.findOverride`).
-/

namespace LateBinding

/-- The name and the parameter types of a member. -/
structure Descriptor where
  /-- The name. -/
  name : String
  /-- The parameter types. -/
  params : List String
  deriving DecidableEq

namespace Descriptor

/-- The name that stands for constructors. -/
def constructorName : String := "<init>"

/-- The descriptor of a constructor. -/
def ofConstructor (params : List String) : Descriptor := ⟨constructorName, params⟩

/-- The number of parameters. -/
def arity (d : Descriptor) : Nat := d.params.length

/-- The descriptor in words. -/
def text (d : Descriptor) : String := d.name ++ "(" ++ ", ".intercalate d.params ++ ")"

end Descriptor

/-! ### Markers -/

/-- The name template that a marker carries.  A field marker with a blank template carries
none. -/
def Marker.template? : Marker → Option String
  | adapts t => some t
  | rename t => some t
  | field t => t.filter fun t => !isBlank t

/-- The first marker of a kind. -/
def firstMarker (kind : MarkerKind) (markers : List Marker) : Option Marker :=
  markers.find? fun m => m.kind = kind

/-! ### Declared members -/

namespace ClassDecl

variable {V : Type} (c : ClassDecl V)

/-- The first method declared with this signature. -/
def method? (d : Descriptor) : Option MethodDecl :=
  c.methods.find? fun m => m.name = d.name ∧ m.params = d.params

/-- The first field declared with this name. -/
def field? (name : String) : Option (FieldDecl V) :=
  c.fields.find? fun f => f.name = name

/-- The first constructor declared with these parameters. -/
def constructor? (params : List String) : Option ConstructorDecl :=
  c.constructors.find? fun k => k.params = params

/-- The first marker of a kind. -/
def marker? (kind : MarkerKind) : Option Marker := firstMarker kind c.markers

end ClassDecl

/-! ### Lookups -/

/-- A declaration with the class it was found on. -/
structure Found (V α : Type) where
  /-- The declaring class. -/
  declaring : ClassDecl V
  /-- The declaration. -/
  decl : α
  /-- Whether only the lookup on the class itself found it. -/
  overridden : Bool

namespace Class

variable {V α : Type} (c : Class V)

/-- The nearest public declaration, or else what the class itself declares. -/
def search (declared : ClassDecl V → Option α) (visibility : α → Visibility) :
    Option (Found V α) :=
  let nearest := c.lineage.findSome? fun k =>
    (declared k).bind fun a => if visibility a = .pub then some ⟨k, a, false⟩ else none
  nearest <|> (declared c.decl).map fun a => ⟨c.decl, a, true⟩

/-- Look a method up. -/
def findMethod (d : Descriptor) : Option (Found V MethodDecl) :=
  c.search (fun k => k.method? d) MethodDecl.visibility

/-- Look a field up. -/
def findField (name : String) : Option (Found V (FieldDecl V)) :=
  c.search (fun k => k.field? name) FieldDecl.visibility

/-- Look a constructor up; only the class itself is searched. -/
def findConstructor (params : List String) : Option (Found V ConstructorDecl) :=
  (c.decl.constructor? params).map fun k => ⟨c.decl, k, k.visibility ≠ .pub⟩

/-- The method that a call with this signature runs: the nearest first declaration of it that
is public, not static, and has a body. -/
def findOverride (d : Descriptor) : Option MethodDecl :=
  (c.lineage.filterMap fun k => k.method? d).find? fun m =>
    !m.isStatic && m.visibility = .pub && m.hasBody

/-! ### Initial values -/

/-- The instance fields with the values they start with, those of the most distant class
first. -/
def seeds : List (String × V) :=
  (c.lineage.reverse.flatMap ClassDecl.fields).filterMap fun f =>
    if f.isStatic then none else some (f.name, f.initial)

/-- The static fields that the class itself declares, with the values they start with. -/
def staticSeeds : List (String × V) :=
  c.decl.fields.filterMap fun f => if f.isStatic then some (f.name, f.initial) else none

end Class

end LateBinding
