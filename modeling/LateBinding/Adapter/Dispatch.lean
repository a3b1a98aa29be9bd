import LateBinding.Adapter.Basic

/-!
# Calls through adapters

A logical call names a member of the interface, by name alone (`Adapter.call`) or by its exact
signature (`Adapter.invoke`), and is then dispatched (`Adapter.dispatch`):

* a default method, which has a body and neither a rename nor a field marker, runs on the
  adapter itself;
* a method with a field marker reads the field when called without arguments, and writes it when
  called with one;
* any other method is forwarded to the method of the adapted type that its rename marker or its
  own name resolves to.

Arguments that leave the logical side are replaced by their targets, and results whose declared
type is an interface that adapts a type are bound to it (`Adapter.wrapResult`).
-/

namespace LateBinding.Adapter

/-- The name of the interface. -/
def interfaceName (a : Adapter) : String := a.binding.interface.cls.name

/-- The methods of the interface and its ancestors that take this number of arguments, nearest
first. -/
def candidates (a : Adapter) (name : String) (arity : Nat) : List MethodDecl :=
  (a.binding.interface.cls.lineage.flatMap ClassDecl.methods).filter fun m =>
    m.name = name && m.params.length = arity && !m.isStatic

/-- Whether arguments conform to parameter types. -/
def accepts (params : List String) (args : List Value) : Bool :=
  (args.zip params).all fun (v, type) => v.conformsTo type

/-- Choose among the candidates: the only one, or else the first whose parameter types all
arguments conform to. -/
def choose (a : Adapter) (name : String) (args : List Value) :
    Except BindingError MethodDecl :=
  match a.candidates name args.length with
  | [] => .error (.unknownMember a.interfaceName name args.length)
  | [only] => .ok only
  | many =>
    match many.find? fun m => accepts m.params args with
    | some m => .ok m
    | none => .error (.noMatchingOverload a.interfaceName name (args.map Value.typeName))

/-- The logical method that a call by name means. -/
def select (a : Adapter) (name : String) (args : List Value) :
    Attempt BindingError MethodHandle := do
  let chosen ← a.choose name args
  match ← a.binding.interface.method ⟨name, chosen.params⟩ with
  | some m => return m
  | none => throw (.unknownMember a.interfaceName name args.length)

/-- Bind a result to the interface it is declared to be.  Null, results of other types, and
proxies for this very interface are left as they are. -/
def wrapResult (h : Host) (a : Adapter) (type : String) (result : Value) :
    Attempt BindingError Value := do
  let r := a.binding.resolver
  if result.isNull || isBuiltin type then return result
  else
    match ← r.typeNamed type a.binding.scope with
    | none => return result
    | some e =>
      if !(← e.adaptsType) || result.isProxyFor e.cls.name then return result
      else return (← bind h r e result none).toValue

/-- The field of the adapted type that a field marker on a method names. -/
def markedField (h : Host) (a : Adapter) (m : MethodDecl) (marker : Marker) :
    Act (Option FieldHandle) :=
  match marker.template? with
  | some template => a.binding.resolver.resolveField h a.binding.adapted template
  | none => a.binding.adapted.field m.name

/-- The name under which a marked field was not found. -/
def missingField (h : Host) (a : Adapter) (m : MethodDecl) (marker : Marker) :
    Act BindingError := do
  let resolved ← match marker.template? with
    | some template => a.binding.resolver.substitute h template
    | none => pure m.name
  return .fieldNotFound m.name resolved a.binding.adapted.cls.name a.interfaceName

/-- Read or write the field that a marker names. -/
def accessField (h : Host) (a : Adapter) (m : MethodDecl) (marker : Marker)
    (args : List Value) : Attempt BindingError Value := do
  match ← a.markedField h m marker with
  | none => throw (← a.missingField h m marker)
  | some field =>
    match args with
    | [] => a.wrapResult h m.returns (← Attempt.ofTarget (field.get a.target))
    | [v] =>
      Attempt.ofTarget (field.set a.target v.unwrap)
      return v
    | _ =>
      throw (.thrown (.illegalArgument ("field accessor " ++ m.name ++
        " takes at most one argument, got " ++ toString args.length)))

/-- Call the method of the adapted type that a logical method maps to. -/
def forward (h : Host) (a : Adapter) (m : MethodDecl) (rename : Option Marker)
    (args : List Value) : Attempt BindingError Value := do
  let r := a.binding.resolver
  let params ← r.adaptTypes h a.binding.scope m.params
  let logical := (rename.bind Marker.template?).getD m.name
  let real ← r.resolveMethod h a.binding.adapted a.binding.interface logical params
  let result ← Attempt.ofTarget (real.invoke h a.target (args.map Value.unwrap))
  a.wrapResult h m.returns result

/-- Carry out a logical call. -/
def dispatch (h : Host) (a : Adapter) (m : MethodHandle) (args : List Value) :
    Attempt BindingError Value :=
  match m.marker? .field, m.marker? .rename with
  | some marker, _ => a.accessField h m.decl marker args
  | none, rename =>
    if m.decl.hasBody && rename.isNone then Attempt.ofTarget (m.invoke h a.toValue args)
    else a.forward h m.decl rename args

/-- Call a logical method by name. -/
def call (h : Host) (a : Adapter) (name : String) (args : List Value) :
    Attempt BindingError Value := do
  a.dispatch h (← a.select name args) args

/-- Call the logical method of exactly this signature. -/
def invoke (h : Host) (a : Adapter) (d : Descriptor) (args : List Value) :
    Attempt BindingError Value := do
  match (← a.binding.interface.method d).filter fun m => !m.decl.isStatic with
  | some m => a.dispatch h m args
  | none => throw (.unknownMember a.interfaceName d.name d.arity)

end LateBinding.Adapter
