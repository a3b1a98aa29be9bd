import LateBinding.Member.Handle
import LateBinding.Store

/-!
# The world

`World` holds everything that can change: the fields of objects, the static fields of classes,
the classes that scopes define, the registers, and what each resolver has registered, looked up
and kept.  Things are known by their identities, which the world hands out.

An action is a function `Act α` from worlds to outcomes.  An action returns with a new world; it
may instead run out of the depth of nesting it was given, or wait for itself for ever
(`Outcome`).  Failures that a program can see are not outcomes but values of `Attempt ε α`.
-/

namespace LateBinding

/-! ### What resolvers keep -/

/-- What a provider does when asked. -/
inductive ProviderSource
  /-- It always gives this text. -/
  | constant (text : String)
  /-- It evaluates an expression, and gives `otherwise` if the result is no text. -/
  | computed (body : Expr) (otherwise : Option String)

/-- A provider of the value of a variable. -/
structure Provider where
  /-- What tells the provider apart. -/
  id : Identity
  /-- A label by which the provider is known outside. -/
  label : Option String
  /-- How long its value may be kept. -/
  retention : Retention
  /-- What it does when asked. -/
  source : ProviderSource

/-- Where a slot takes its value from. -/
inductive SlotSource
  /-- A registered provider. -/
  | registered (provider : Provider)
  /-- A declaration of the mapping document. -/
  | declared (declaration : Mapping.Declaration)

/-- A variable as a resolver sees it. -/
structure Slot where
  /-- Where the value comes from. -/
  source : SlotSource
  /-- How long the value is kept. -/
  retention : Retention
  /-- The value that is kept, once there is one. -/
  frozen : Option String

/-- A value that is computed at most once. -/
inductive Once (α : Type)
  /-- Nothing has asked for it. -/
  | unset
  /-- It is being computed; whoever asks for it now waits. -/
  | underway
  /-- It has been computed. -/
  | ready (value : α)

/-- The renames by resolved owner and logical name. -/
abbrev RenameIndex := Table String (Table String String)

/-- What the cache of a class remembers of the lookups on it, misses included. -/
structure MemberMemo where
  /-- The methods that were asked for. -/
  methods : Table Descriptor (Option MethodHandle)
  /-- The fields that were asked for. -/
  fields : Table String (Option FieldHandle)
  /-- The constructors that were asked for. -/
  constructors : Table Descriptor (Option ConstructorHandle)
  /-- The markers that were asked for. -/
  markers : Table MarkerKind (Option Marker)

/-- The cache of types. -/
structure TypeCache where
  /-- The entry of each class that was reached. -/
  entries : Table Identity (TypeEntry Value)
  /-- The names found in the default scope. -/
  byName : Table String (TypeEntry Value)
  /-- The names found in other scopes. -/
  byScopedName : Table (String × Identity) (TypeEntry Value)

/-- What belongs to one resolver. -/
structure ResolverState where
  /-- The registered providers. -/
  registry : Table String Provider
  /-- The slot of each variable that was asked for. -/
  slots : Table String Identity
  /-- The renames, indexed when a member is first resolved. -/
  renames : Once RenameIndex
  /-- The renames that were applied, by owner and logical name. -/
  renameMemo : Table (String × String) String
  /-- The cache of types. -/
  types : TypeCache

instance : Inhabited MemberMemo := ⟨⟨∅, ∅, ∅, ∅⟩⟩

instance : Inhabited TypeCache := ⟨⟨∅, ∅, ∅⟩⟩

instance : Inhabited ResolverState := ⟨⟨∅, ∅, .unset, ∅, default⟩⟩

/-! ### Worlds -/

/-- Everything that can change. -/
structure World where
  /-- The next identity to be handed out. -/
  next : Identity
  /-- The registers. -/
  registers : Table String Value
  /-- The fields of each object. -/
  objects : Store (Table String Value)
  /-- The static fields of each class. -/
  statics : Store (Table String Value)
  /-- The classes that each scope defines. -/
  definitions : Store (Table String (Class Value))
  /-- The slots of the resolvers. -/
  slots : Store Slot
  /-- What each cache entry remembers. -/
  members : Store MemberMemo
  /-- What belongs to each resolver. -/
  resolvers : Store ResolverState
  /-- The described variables that are being evaluated, innermost first, with the resolvers
  that evaluate them. -/
  evaluating : List (Identity × String)

namespace World

/-- The world in which nothing exists yet. -/
def empty : World := ⟨0, ∅, ∅, ∅, ∅, ∅, ∅, ∅, []⟩

instance : Inhabited World := ⟨empty⟩

/-- The fields of an object. -/
def fieldsOf (w : World) (o : Object) : Table String Value := (w.objects.get? o.id).getD ∅

/-- The static fields of a class. -/
def staticsOf (w : World) (c : ClassDecl Value) : Table String Value :=
  (w.statics.get? c.id).getD ∅

/-- The classes that a scope defines itself. -/
def classesOf (w : World) (scope : Identity) : Table String (Class Value) :=
  (w.definitions.get? scope).getD ∅

/-- What belongs to a resolver. -/
def stateOf (w : World) (r : Resolver) : ResolverState := (w.resolvers.get? r.id).getD default

/-- What a cache entry remembers. -/
def memoOf (w : World) (e : TypeEntry Value) : MemberMemo := (w.members.get? e.id).getD default

/-- Find a class by name: the nearest scope of the chain that defines one. -/
def find? (w : World) (scope : Scope) (name : String) : Option (Class Value) :=
  scope.chain.findSome? fun s => (w.classesOf s).get? name

end World

/-! ### Actions -/

/-- How an action ends. -/
inductive Outcome (α : Type)
  /-- It returns. -/
  | done (value : α) (world : World)
  /-- It nests deeper than it may. -/
  | exhausted
  /-- It waits for a value that it is computing itself. -/
  | blocked

/-- What can be done in a world. -/
def Act (α : Type) : Type := World → Outcome α

/-- An action that can fail. -/
abbrev Attempt (ε α : Type) : Type := ExceptT ε Act α

namespace Act

variable {α β : Type}

instance : Monad Act where
  pure a := fun w => .done a w
  bind x f := fun w =>
    match x w with
    | .done a w' => f a w'
    | .exhausted => .exhausted
    | .blocked => .blocked

instance : LawfulMonad Act := LawfulMonad.mk' Act
  (fun x => by
    funext w
    change (match x w with
      | .done a w' => Outcome.done a w'
      | .exhausted => .exhausted
      | .blocked => .blocked) = x w
    cases x w <;> rfl)
  (fun _ _ => rfl)
  (fun x f g => by
    funext w
    change (match (match x w with
        | .done a w' => f a w'
        | .exhausted => .exhausted
        | .blocked => .blocked) with
      | .done b w' => g b w'
      | .exhausted => .exhausted
      | .blocked => .blocked) = _
    change _ = (match x w with
      | .done a w' => (match f a w' with
        | .done b w'' => g b w''
        | .exhausted => .exhausted
        | .blocked => .blocked)
      | .exhausted => .exhausted
      | .blocked => .blocked)
    cases x w <;> rfl)

instance : Inhabited (Act α) := ⟨fun _ => .exhausted⟩

/-- The world as it is. -/
def world : Act World := fun w => .done w w

/-- Change the world. -/
def update (f : World → World) : Act Unit := fun w => .done () (f w)

/-- Nest deeper than allowed. -/
def exhausted : Act α := fun _ => .exhausted

/-- Wait for ever. -/
def blocked : Act α := fun _ => .blocked

/-- A fresh identity. -/
def fresh : Act Identity := fun w => .done w.next { w with next := w.next + 1 }

theorem bind_apply (x : Act α) (f : α → Act β) (w : World) :
    (x >>= f) w = match x w with
      | .done a w' => f a w'
      | .exhausted => .exhausted
      | .blocked => .blocked := rfl

@[simp] theorem pure_apply (a : α) (w : World) : (pure a : Act α) w = .done a w := rfl

@[simp] theorem world_apply (w : World) : world w = .done w w := rfl

@[simp] theorem update_apply (f : World → World) (w : World) : update f w = .done () (f w) := rfl

end Act

/-- What evaluation nests through: running a body with a receiver and arguments, and asking a
resolver for the value of a variable.  All that may run bodies or ask for variables is given a
host, so that it is defined without recursion. -/
structure Host where
  /-- Run a body. -/
  run : Expr → Value → List Value → Attempt Exception Value
  /-- The value of a variable, if it has one. -/
  valueOf : Resolver → String → Act (Option String)

end LateBinding
