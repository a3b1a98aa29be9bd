import LateBinding.Adapter.Basic
import LateBinding.Text.Outline

/-!
# Descriptions

The outlines of values, classes, handles, resolvers and their caches.  Scopes and classes show
their identity as a number, objects in base sixteen behind their class.
-/

namespace LateBinding

/-- Numbers in descriptions are written positionally, whole ones without a point. -/
def describedNumber : NumberLayout where
  positional _ := true
  pointZero := false
  plus := ""
  tie := .upward

/-- A value in words. -/
def Value.describe : Value → String
  | null => "Null"
  | bool b => "Bool(" ++ toString b ++ ")"
  | int i => "Int(" ++ toString i.toInt ++ ")"
  | float x => "Float(" ++ describedNumber.render x ++ ")"
  | str s => "Str(" ++ quoted s ++ ")"
  | object o => "Object(" ++ o.cls.name ++ "@0x" ++ String.ofList (hexDigits o.id) ++ ")"
  | proxy _ f t => "Proxy(" ++ f.name ++ " -> " ++ t.describe ++ ")"

/-- The outline of a visibility. -/
def Visibility.outline : Visibility → Outline
  | pub => .text "Public"
  | priv => .text "Private"

/-- The outline of a marker. -/
def Marker.outline : Marker → Outline
  | adapts t => .variant "Adapts" [.quote t]
  | rename t => .variant "Rename" [.quote t]
  | field t => .variant "Field" [.optional (t.map .quote)]

/-- The outline of a method. -/
def MethodDecl.outline (m : MethodDecl) : Outline :=
  .fields "MethodDef" [
    ("name", .quote m.name),
    ("params", .quotes m.params),
    ("return_type", .quote m.returns),
    ("visibility", m.visibility.outline),
    ("is_static", .flag m.isStatic),
    ("markers", .list (m.markers.map Marker.outline)),
    ("has_body", .flag m.hasBody)]

/-- The outline of a field. -/
def FieldDecl.outline (f : FieldDecl Value) : Outline :=
  .fields "FieldDef" [
    ("name", .quote f.name),
    ("ty", .quote f.type),
    ("visibility", f.visibility.outline),
    ("is_static", .flag f.isStatic),
    ("initial", .text f.initial.describe)]

/-- The outline of a constructor. -/
def ConstructorDecl.outline (k : ConstructorDecl) : Outline :=
  .fields "ConstructorDef" [
    ("params", .quotes k.params),
    ("visibility", k.visibility.outline)]

/-- The outline of a class. -/
def Class.outline (c : Class Value) : Outline :=
  .fields "Class" [
    ("id", .number c.id),
    ("name", .quote c.name),
    ("kind", .text (if c.isInterface then "Interface" else "Class")),
    ("parent", .optional (c.parent?.map fun p => .quote p.name)),
    ("methods", .number c.decl.methods.length),
    ("fields", .number c.decl.fields.length),
    ("constructors", .number c.decl.constructors.length)]

/-- The outline of an object. -/
def Object.outline (o : Object) (w : World) : Outline :=
  .fields "Object" [
    ("class", .quote o.cls.name),
    ("fields", .quotes (w.fieldsOf o).keys)]

/-- The outline of a scope. -/
def Scope.outline (s : Scope) (w : World) : Outline :=
  .fields "Scope" [
    ("id", .number s.id),
    ("name", .quote s.name),
    ("classes", .number (w.classesOf s.id).size)]

/-- The outline of a method that was looked up. -/
def MethodHandle.outline (m : MethodHandle) : Outline :=
  .fields "CachedMethod" [
    ("declaring", .quote m.declaring.name),
    ("def", m.decl.outline),
    ("overridden", .flag m.overridden)]

/-- The outline of a field that was looked up. -/
def FieldHandle.outline (f : FieldHandle) : Outline :=
  .fields "FieldHandle" [
    ("declaring", .quote f.declaring.name),
    ("name", .quote f.decl.name),
    ("static", .flag f.decl.isStatic)]

/-- The outline of a constructor that was looked up. -/
def ConstructorHandle.outline (k : ConstructorHandle) : Outline :=
  .fields "ConstructorHandle" [
    ("class", .quote k.cls.name),
    ("params", .quotes k.decl.params)]

/-- The outline of a cache entry. -/
def TypeEntry.outline (e : TypeEntry Value) (w : World) : Outline :=
  let memo := w.memoOf e
  .fields "ClassData" [
    ("class", .quote e.cls.name),
    ("methods", .number memo.methods.size),
    ("fields", .number memo.fields.size),
    ("constructors", .number memo.constructors.size)]

/-- The outline of an adapter. -/
def Adapter.outline (a : Adapter) : Outline :=
  .fields "Adapter" [
    ("interface", .quote a.binding.interface.cls.name),
    ("adapted", .quote a.binding.adapted.cls.name),
    ("target", .text a.target.describe),
    ("scope", .quote a.binding.scope.name)]

namespace Resolver

/-- The outline of the registry, its names in order. -/
def registryOutline (r : Resolver) (w : World) : Outline :=
  let names := (w.stateOf r).registry.keys.mergeSort fun a b => decide (a ≤ b)
  .fields "ProviderRegistry" [("providers", .quotes names)]

/-- The outline of the cache of types. -/
def typesOutline (r : Resolver) (w : World) : Outline :=
  let types := (w.stateOf r).types
  .fields "TypeCache" [
    ("default_scope", .quote r.defaultScope.name),
    ("classes", .number types.entries.size),
    ("names", .number types.byName.size),
    ("scoped_names", .number types.byScopedName.size)]

/-- The outline of a resolver. -/
def outline (r : Resolver) (w : World) : Outline :=
  .fields "NameResolver" [
    ("variables", .number r.document.declarations.size),
    ("owners", .number r.document.renames.size),
    ("registry", r.registryOutline w),
    ("cache", r.typesOutline w)]

/-- The outline of the adapter factory of a resolver. -/
def factoryOutline (r : Resolver) : Outline :=
  .fields "Mirage" [("default_scope", .quote r.defaultScope.name)]

end Resolver

end LateBinding
