import LateBinding.Adapter.Factory

/-!
# Evaluating bodies

`Expr.eval` evaluates an expression with a receiver and arguments.  Parts are evaluated from left
to right, and the first exception ends the evaluation.  Calls and constructions go through the
host.
-/

namespace LateBinding.Expr

/-- The sum of two integers, as far as 64 bits go. -/
def sum (a b : Value) : Except Exception Value := do
  let x ← a.expectInt
  let y ← b.expectInt
  return .int (x + y)

/-- Construct another object of the class of a receiver. -/
def spawnLike (h : Host) (receiver : Value) (params : List String) (args : List Value) :
    Attempt Exception Value := do
  let o ← receiver.expectObject
  match o.cls.decl.constructor? params with
  | some k => return .object (← o.cls.construct h k args)
  | none => throw (.plain "no such constructor")

/-- Call a method of a value that has to be a proxy. -/
def callOn (h : Host) (v : Value) (name : String) (args : List Value) :
    Attempt Exception Value :=
  match v with
  | .proxy id face target => Value.callProxy h id face target name args
  | v => throw (.typeMismatch "proxy" v.typeName)

mutual

/-- The value of an expression. -/
def eval (h : Host) (receiver : Value) (args : List Value) : Expr → Attempt Exception Value
  | .literal l => return l.toValue
  | .register name => Act.register name
  | .this => return receiver
  | .arg i => return args[i]?.getD .null
  | .get e field => do
    let o ← (← e.eval h receiver args).expectObject
    return (← o.get field).getD .null
  | .set e field x => do
    let v ← e.eval h receiver args
    let new ← x.eval h receiver args
    let o ← v.expectObject
    return (← o.set field new).getD .null
  | .add a b => do
    let x ← a.eval h receiver args
    let y ← b.eval h receiver args
    sum x y
  | .concat es => return .str (← evalTexts h receiver args es)
  | .decimal e => do
    let i ← (← e.eval h receiver args).expectInt
    return .str (toString i.toInt)
  | .typeName e => return .str (← e.eval h receiver args).typeName
  | .equal a b => do
    let x ← a.eval h receiver args
    let y ← b.eval h receiver args
    return .bool (x.same y)
  | .choose c a b => do
    match ← c.eval h receiver args with
    | .bool true => a.eval h receiver args
    | _ => b.eval h receiver args
  | .sequence es => evalLast h receiver args .null es
  | .store name e => do
    let v ← e.eval h receiver args
    Act.setRegister name v
    return v
  | .fail kind message => throw ⟨kind, message⟩
  | .unwrap e => return (← e.eval h receiver args).unwrap
  | .call e name es => do
    let v ← e.eval h receiver args
    let vs ← evalAll h receiver args es
    callOn h v name vs
  | .spawn params es => do
    let vs ← evalAll h receiver args es
    spawnLike h receiver params vs

/-- The values of expressions. -/
def evalAll (h : Host) (receiver : Value) (args : List Value) :
    List Expr → Attempt Exception (List Value)
  | [] => return []
  | e :: es => do
    let v ← e.eval h receiver args
    return v :: (← evalAll h receiver args es)

/-- The value of the last expression, or a given one if there is none. -/
def evalLast (h : Host) (receiver : Value) (args : List Value) (last : Value) :
    List Expr → Attempt Exception Value
  | [] => return last
  | e :: es => do
    let v ← e.eval h receiver args
    evalLast h receiver args v es

/-- The texts of expressions one after the other. -/
def evalTexts (h : Host) (receiver : Value) (args : List Value) :
    List Expr → Attempt Exception String
  | [] => return ""
  | e :: es => do
    let s ← (← e.eval h receiver args).expectStr
    return s ++ (← evalTexts h receiver args es)

end

end LateBinding.Expr
