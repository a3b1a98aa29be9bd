import LateBinding.Value.Basic

/-!
# Conversions of values

A caller that knows which type it expects converts a result with `Value.convert`.  A conversion
to an optional type lets null pass; any other mismatch is an exception.
-/

namespace LateBinding

/-- What a value can be converted to. -/
inductive Conversion
  /-- Any value, as it is. -/
  | value
  /-- Nothing: the value is dropped. -/
  | unit
  | bool
  | int
  /-- A number; integers are taken as well. -/
  | float
  | str
  | object
  /-- Null, or what the inner conversion takes. -/
  | optional (inner : Conversion)

namespace Value

/-- Convert a value. -/
def convert (v : Value) : Conversion → Except Exception Value
  | .value => .ok v
  | .unit => .ok .null
  | .bool => (demand "bool" bool? v).map .bool
  | .int => v.expectInt.map .int
  | .float => (demand "float" float? v).map .float
  | .str => v.expectStr.map .str
  | .object => (demand "object" object? v).map .object
  | .optional inner => if v.isNull then .ok .null else v.convert inner

end Value

end LateBinding
