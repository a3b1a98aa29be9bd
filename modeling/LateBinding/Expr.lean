/-!
# Bodies of members

The body of a method, the initialiser of a constructor and the closure of a provider are
expressions of a small language (`Expr`).  An expression sees a receiver and arguments, and it
may read and write fields, call through proxies, construct objects, and fail.
-/

namespace LateBinding

/-- A value that can be written in an expression. -/
inductive Literal
  | null
  | bool (value : Bool)
  | int (value : Int64)
  | float (value : Float)
  | str (value : String)

/-- An expression.  Parts are evaluated from left to right. -/
inductive Expr
  /-- A value as written. -/
  | literal (value : Literal)
  /-- The value of a register. -/
  | register (name : String)
  /-- The receiver. -/
  | this
  /-- An argument, null beyond the last one. -/
  | arg (index : Nat)
  /-- The field of an object, null if it has none of that name. -/
  | get (object : Expr) (field : String)
  /-- Write the field of an object; the value is the one it had before. -/
  | set (object : Expr) (field : String) (value : Expr)
  /-- The sum of two integers. -/
  | add (left right : Expr)
  /-- Texts one after the other. -/
  | concat (parts : List Expr)
  /-- An integer in decimal digits. -/
  | decimal (value : Expr)
  /-- The name of the type of a value. -/
  | typeName (value : Expr)
  /-- Whether two values are equal. -/
  | equal (left right : Expr)
  /-- One of two expressions, the first if the condition is true. -/
  | choose (condition first second : Expr)
  /-- The value of the last of several expressions. -/
  | sequence (parts : List Expr)
  /-- Write a register. -/
  | store (name : String) (value : Expr)
  /-- Fail with an exception. -/
  | fail (kind message : String)
  /-- The target of a proxy, any other value as it is. -/
  | unwrap (value : Expr)
  /-- Call a method of a proxy. -/
  | call (proxy : Expr) (method : String) (args : List Expr)
  /-- Construct another object of the class of the receiver. -/
  | spawn (params : List String) (args : List Expr)

instance : Inhabited Expr := ⟨.this⟩

end LateBinding
