import LateBinding.Value.Basic

/-!
# Handles of members

A lookup of a member on a class yields a handle: the declaration together with the class it was
found on.  The handle of a method also has an identity, so that two lookups can be seen to share
one handle, and a table of its markers (`MethodHandle.marker?`).
-/

namespace LateBinding

/-- A method that was looked up. -/
structure MethodHandle where
  /-- What tells the handle apart. -/
  id : Identity
  /-- The class that declares the method. -/
  declaring : ClassDecl Value
  /-- The declaration. -/
  decl : MethodDecl
  /-- Whether only the lookup on the class itself found it. -/
  overridden : Bool

/-- A field that was looked up. -/
abbrev FieldHandle := Found Value (FieldDecl Value)

/-- A constructor that was looked up. -/
structure ConstructorHandle where
  /-- The class that is constructed. -/
  cls : Class Value
  /-- The declaration. -/
  decl : ConstructorDecl
  /-- Whether the constructor is not public. -/
  overridden : Bool

/-- The markers of a method by kind.  The first marker of a kind stays. -/
def markerTable (markers : List Marker) : Table MarkerKind Marker :=
  markers.foldl (fun t m => if t.contains m.kind then t else t.insert m.kind m) ∅

/-- The marker of a kind on the method. -/
def MethodHandle.marker? (m : MethodHandle) (kind : MarkerKind) : Option Marker :=
  (markerTable m.decl.markers).get? kind

end LateBinding
