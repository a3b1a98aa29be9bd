import LateBinding.Expr
import LateBinding.Scope

/-!
# Classes

A class declares methods, fields and constructors, may extend a parent class, and carries
markers.  Interfaces are classes too: their methods describe logical members, and a method with
a body is a default method.

A `Class` is its own declaration together with the declarations it inherits from, nearest
first (`Class.lineage`).  Declarations never change; the values of static fields are part of
the world.  The types are parametrised over the type `V` of values, because a field declares
the value it starts with.
-/

namespace LateBinding

/-- Who finds a member. -/
inductive Visibility
  /-- Every lookup. -/
  | pub
  /-- Lookups on the declaring class alone. -/
  | priv
  deriving DecidableEq

/-- Whether a class can have instances. -/
inductive ClassKind
  /-- It can. -/
  | concrete
  /-- It describes logical members and cannot. -/
  | interface
  deriving DecidableEq

/-- What a marker says. -/
inductive MarkerKind
  /-- Which type an interface adapts. -/
  | adapts
  /-- The real name of a member. -/
  | rename
  /-- That a method reads or writes a field. -/
  | field
  deriving DecidableEq

/-- Metadata of an interface or of one of its methods. -/
inductive Marker
  /-- The name template of the adapted type. -/
  | adapts (template : String)
  /-- The name template of the real member. -/
  | rename (template : String)
  /-- The name template of the field; none for the name of the method. -/
  | field (template : Option String)
  deriving DecidableEq

/-- What the marker says. -/
def Marker.kind : Marker → MarkerKind
  | adapts _ => .adapts
  | rename _ => .rename
  | field _ => .field

/-- A method of a class. -/
structure MethodDecl where
  /-- The name. -/
  name : String
  /-- The parameter types. -/
  params : List String
  /-- The type of the result. -/
  returns : String
  /-- Who finds the method. -/
  visibility : Visibility
  /-- Whether the method has no receiver. -/
  isStatic : Bool
  /-- The markers. -/
  markers : List Marker
  /-- The implementation; none for an abstract method. -/
  body : Option Expr

/-- Whether the method has an implementation. -/
def MethodDecl.hasBody (m : MethodDecl) : Bool := m.body.isSome

/-- A field of a class. -/
structure FieldDecl (V : Type) where
  /-- The name. -/
  name : String
  /-- The declared type. -/
  type : String
  /-- Who finds the field. -/
  visibility : Visibility
  /-- Whether the field belongs to the class and not to its objects. -/
  isStatic : Bool
  /-- The value that the field starts with. -/
  initial : V

/-- A constructor of a class. -/
structure ConstructorDecl where
  /-- The parameter types. -/
  params : List String
  /-- Who finds the constructor. -/
  visibility : Visibility
  /-- What is run on the new object; its value is dropped. -/
  init : Expr

/-- What a class declares itself. -/
structure ClassDecl (V : Type) where
  /-- What tells the class apart. -/
  id : Identity
  /-- The qualified name. -/
  name : String
  /-- Whether the class can have instances. -/
  kind : ClassKind
  /-- The scope that defined the class. -/
  scope : Option Scope
  /-- The methods. -/
  methods : List MethodDecl
  /-- The fields. -/
  fields : List (FieldDecl V)
  /-- The constructors. -/
  constructors : List ConstructorDecl
  /-- The markers. -/
  markers : List Marker

/-- A class with what it inherits. -/
structure Class (V : Type) where
  /-- What the class declares itself. -/
  decl : ClassDecl V
  /-- What its parent, the parent of that, and so on declare. -/
  inherited : List (ClassDecl V)

/-- A class as it is asked for, before it exists. -/
structure ClassPlan (V : Type) where
  /-- The qualified name. -/
  name : String
  /-- Whether the class can have instances. -/
  kind : ClassKind
  /-- The class it extends. -/
  parent : Option (Class V)
  /-- The methods. -/
  methods : List MethodDecl
  /-- The fields. -/
  fields : List (FieldDecl V)
  /-- The constructors. -/
  constructors : List ConstructorDecl
  /-- The markers. -/
  markers : List Marker

/-- The constructor of a concrete class that declares none: it takes nothing and does
nothing. -/
def ConstructorDecl.implicit : ConstructorDecl := ⟨[], .pub, .literal .null⟩

namespace Class

variable {V : Type}

/-- Make the class that was asked for. -/
def ofPlan (id : Identity) (scope : Option Scope) (plan : ClassPlan V) : Class V where
  decl :=
    { id, scope
      name := plan.name
      kind := plan.kind
      methods := plan.methods
      fields := plan.fields
      constructors :=
        if plan.kind = .concrete ∧ plan.constructors.isEmpty then [.implicit]
        else plan.constructors
      markers := plan.markers }
  inherited :=
    match plan.parent with
    | some p => p.decl :: p.inherited
    | none => []

/-- What the class and the classes it inherits from declare, nearest first. -/
def lineage (c : Class V) : List (ClassDecl V) := c.decl :: c.inherited

/-- What tells the class apart. -/
def id (c : Class V) : Identity := c.decl.id

/-- The qualified name. -/
def name (c : Class V) : String := c.decl.name

/-- The name behind the last point. -/
def simpleName (c : Class V) : String :=
  String.ofList (c.name.toList.reverse.takeWhile (· ≠ '.')).reverse

/-- Whether the class is an interface. -/
def isInterface (c : Class V) : Bool := c.decl.kind == .interface

/-- The class that this one extends. -/
def parent? (c : Class V) : Option (Class V) :=
  match c.inherited with
  | [] => none
  | d :: ds => some ⟨d, ds⟩

/-- Whether the class is, or extends, a class of this name. -/
def isSubclassOf (c : Class V) (name : String) : Bool :=
  c.lineage.any fun d => d.name == name

end Class

end LateBinding
