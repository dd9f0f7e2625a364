import Formula.Binary64
import Formula.Value.Basic

/-! Equality and order of values. Numbers compare across their two payloads, as integers when
both are and as doubles otherwise; everything else only equals its own kind. -/
namespace Formula.Value

mutual

def looseEq : Value → Value → Bool
  | .int a, .int b => a == b
  | .int a, .float y => Float.ofInt a.toInt == y
  | .float x, .int b => x == Float.ofInt b.toInt
  | .float x, .float y => x == y
  | .null, .null => true
  | .bool a, .bool b => a == b
  | .str a, .str b => a == b
  | .array as, .array bs => looseEqItems as bs
  | .object as, .object bs => looseEqFields as bs
  | _, _ => false

def looseEqItems : List Value → List Value → Bool
  | [], [] => true
  | a :: as, b :: bs => looseEq a b && looseEqItems as bs
  | _, _ => false

def looseEqFields : List (String × Value) → List (String × Value) → Bool
  | [], [] => true
  | (k, a) :: as, (l, b) :: bs => k == l && looseEq a b && looseEqFields as bs
  | _, _ => false

end

/-- The order of two numbers or two strings; `none` for anything else and for what is not a
number. -/
def order? : Value → Value → Option Ordering
  | .int a, .int b => some (compare a b)
  | .int a, .float y => Binary64.order? (.ofInt a.toInt) y
  | .float x, .int b => Binary64.order? x (.ofInt b.toInt)
  | .float x, .float y => Binary64.order? x y
  | .str a, .str b => some (compare a b)
  | _, _ => none

end Formula.Value
