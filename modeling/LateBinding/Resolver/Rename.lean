import LateBinding.Resolver.Substitute

/-!
# Real names of members

The renames of a mapping document are indexed by the resolved names of their owners when a
member is first resolved (`Resolver.renameIndex`).  The real name of a member is found by
substituting its logical name pass by pass: the first of these texts that the owner renames is
renamed, and the last one stays if none is (`Resolver.resolveMember`).  A rename that was applied
is remembered for the owner and the logical name.
-/

namespace LateBinding.Resolver

/-- Enter renames in a table. -/
def enterRenames (table : Table String String) (renames : List Mapping.Rename) :
    Table String String :=
  renames.foldl (fun t rn => t.insert rn.logical rn.real) table

/-- Index the renames of owner templates. -/
def indexRenames (h : Host) (r : Resolver) :
    List (String × List Mapping.Rename) → RenameIndex → Act RenameIndex
  | [], index => return index
  | (owner, renames) :: rest, index => do
    let resolved ← r.substitute h owner
    let table := enterRenames ((index.get? resolved).getD ∅) renames
    indexRenames h r rest (index.insert resolved table)

/-- The renames by resolved owner, indexed the first time.  Whoever asks for them while they are
being indexed waits for ever. -/
def renameIndex (h : Host) (r : Resolver) : Act RenameIndex := do
  match (← r.state).renames with
  | .ready index => return index
  | .underway => Act.blocked
  | .unset =>
    r.update fun s => { s with renames := .underway }
    let index ← r.indexRenames h r.document.renames.entries ∅
    r.update fun s => { s with renames := .ready index }
    return index

/-- The first text that is renamed, among a text and its next passes, or else the last of these;
with whether it was renamed. -/
def renameUpTo (h : Host) (r : Resolver) (table : Option (Table String String)) :
    Nat → String → Act (String × Bool)
  | passes, text => do
    match table.bind fun t => t.get? text with
    | some real => return (real, true)
    | none =>
      if Template.hasTokens text then
        match passes with
        | 0 => return (text, false)
        | passes + 1 => renameUpTo h r table passes (← pass h r text)
      else return (text, false)

/-- The real name of a logical member of an owner type. -/
def resolveMember (h : Host) (r : Resolver) (owner logical : String) : Act String := do
  let owner ← r.substitute h owner
  match (← r.state).renameMemo.get? (owner, logical) with
  | some real => return real
  | none =>
    let index ← r.renameIndex h
    let (real, renamed) ← r.renameUpTo h (index.get? owner) Template.maxPasses logical
    if renamed then
      r.update fun s => { s with renameMemo := s.renameMemo.insert (owner, logical) real }
    return real

/-- The method of a target type that a logical method of an interface maps to. -/
def resolveMethod (h : Host) (r : Resolver) (target interface : TypeEntry Value)
    (logical : String) (params : List String) : Attempt BindingError MethodHandle := do
  let real ← r.resolveMember h target.cls.name logical
  match ← target.method ⟨real, params⟩ with
  | some m => return m
  | none => throw (.memberNotFound logical real params target.cls.name interface.cls.name)

end LateBinding.Resolver
