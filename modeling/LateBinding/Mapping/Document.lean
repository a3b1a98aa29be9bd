import LateBinding.Table
import LateBinding.Json.Basic

/-!
# Mapping documents

A mapping document declares the variables that name templates refer to and the renames of the
members of each owner type.

A variable is declared by a literal or by a `Descriptor`, which says where the value comes from
(`SourceKind`) and how long it is kept (`Retention`).  Each kind needs some of the optional
parts of the descriptor; `Document.validate` reports the first descriptor that lacks one.
-/

namespace LateBinding

/-- How long the value of a variable is kept. -/
inductive Retention
  /-- It is computed anew each time. -/
  | lazy
  /-- It is computed once and then stays. -/
  | cached
  deriving DecidableEq

/-- The word for a retention. -/
def Retention.name : Retention → String
  | .lazy => "lazy"
  | .cached => "cached"

namespace Mapping

/-- Where a described variable gets its value from. -/
inductive SourceKind
  /-- A new instance of a class is asked. -/
  | provider
  /-- A registered provider is asked. -/
  | registered
  /-- A static method of a class is called. -/
  | static
  /-- The value is given. -/
  | value
  deriving DecidableEq

/-- The word for a kind. -/
def SourceKind.name : SourceKind → String
  | .provider => "provider"
  | .registered => "registered"
  | .static => "static"
  | .value => "value"

/-- A structured declaration of a variable. -/
structure Descriptor where
  /-- Where the value comes from. -/
  kind : SourceKind
  /-- How long the value is kept. -/
  retention : Retention
  /-- The name template of the class that is asked. -/
  provider : Option String
  /-- The name of the method or of the registered provider, or the value itself. -/
  value : Option String
  /-- The parameter types of the static method. -/
  params : List String
  deriving DecidableEq

/-- The declaration of a variable. -/
inductive Declaration
  /-- The value is this text and stays. -/
  | literal (text : String)
  /-- The value is found as the descriptor says. -/
  | described (descriptor : Descriptor)
  deriving DecidableEq

/-- How long the value of a declared variable is kept. -/
def Declaration.retention : Declaration → Retention
  | .literal _ => .cached
  | .described d => d.retention

/-- A rename of a member: its logical name and its real name. -/
structure Rename where
  /-- The name on the interface. -/
  logical : String
  /-- The name on the owner type. -/
  real : String
  deriving DecidableEq

/-- A mapping document. -/
structure Document where
  /-- The declaration of each variable. -/
  declarations : Table String Declaration
  /-- The renames for each owner template, later ones overriding earlier ones. -/
  renames : Table String (List Rename)

/-! ### Faults -/

/-- The part that a descriptor lacks. -/
inductive Lack
  /-- A `provider` descriptor without a class. -/
  | providerClass
  /-- A `static` descriptor without a class. -/
  | staticClass
  /-- A `static` descriptor without a method. -/
  | staticMethod
  /-- A `registered` descriptor without the name of a provider. -/
  | registeredName
  /-- A `value` descriptor without a value. -/
  | value
  deriving DecidableEq

/-- The words for the part that is lacking. -/
def Lack.text : Lack → String
  | .providerClass => kindRequires "provider" ("a " ++ ticked "provider" ++ " class")
  | .staticClass => kindRequires "static" ("a " ++ ticked "provider" ++ " class")
  | .staticMethod => kindRequires "static" ("a " ++ ticked "value" ++ " method name")
  | .registeredName => kindRequires "registered" ("a " ++ ticked "value" ++ " provider name")
  | .value => kindRequires "value" ("a " ++ ticked "value")
where
  /-- What a kind of descriptor requires. -/
  kindRequires (kind part : String) : String := ticked kind ++ " kind requires " ++ part

/-- Why a document cannot be had from where it is kept. -/
inductive Unreadable
  /-- There is no file of that name. -/
  | noSuchFile

/-- The words for an unreadable document. -/
def Unreadable.text : Unreadable → String
  | .noSuchFile => "No such file or directory (os error 2)"

/-- Why a document cannot be loaded. -/
inductive Fault
  /-- The document cannot be read from where it is kept. -/
  | unreadable (reason : Unreadable)
  /-- The text is not JSON, or not of the shape of a document. -/
  | invalid (fault : Json.Fault)
  /-- The descriptor of a variable lacks a part that its kind requires. -/
  | incomplete (name : String) (lack : Lack)

/-! ### Validity -/

/-- The part required by its kind that a descriptor lacks, if any. -/
def Descriptor.lack? (d : Descriptor) : Option Lack :=
  match d.kind with
  | .provider => if d.provider.isNone then some .providerClass else none
  | .static =>
    if d.provider.isNone then some .staticClass
    else if d.value.isNone then some .staticMethod
    else none
  | .registered => if d.value.isNone then some .registeredName else none
  | .value => if d.value.isNone then some .value else none

/-- The part that a declaration lacks, if any. -/
def Declaration.lack? : Declaration → Option Lack
  | .literal _ => none
  | .described d => d.lack?

namespace Document

/-- The document that declares nothing. -/
def empty : Document := ⟨∅, ∅⟩

instance : EmptyCollection Document := ⟨empty⟩

instance : Inhabited Document := ⟨empty⟩

/-- Declare a variable. -/
def declare (doc : Document) (name : String) (d : Declaration) : Document :=
  { doc with declarations := doc.declarations.insert name d }

/-- Add a rename for the members of an owner type. -/
def rename (doc : Document) (owner logical real : String) : Document :=
  { doc with
    renames := doc.renames.insert owner ((doc.renames.get? owner).getD [] ++ [⟨logical, real⟩]) }

/-- Report a declaration that lacks a required part. -/
def validate (doc : Document) : Except Fault Unit :=
  doc.declarations.entries.forM fun (name, d) =>
    match d.lack? with
    | some lack => .error (.incomplete name lack)
    | none => .ok ()

/-- Whether two documents declare the same variables and the same renames. -/
def same (doc doc' : Document) : Bool :=
  doc.declarations.sameBy (fun a b => decide (a = b)) doc'.declarations &&
    doc.renames.sameBy (fun a b => decide (a = b)) doc'.renames

end Document

end Mapping

end LateBinding
