/-! Decimal numbers, digits, and the double nearest to a decimal. -/
namespace Formula

/-- The number `coefficient` · 10^`exponent`. -/
structure Decimal where
  coefficient : Nat
  exponent : Int
  deriving DecidableEq, Repr

namespace Decimal

def digit (c : Char) : Nat := c.toNat - '0'.toNat

def ofDigits (digits : List Char) : Nat := digits.foldl (fun n c => 10 * n + digit c) 0

def digits (n : Nat) : List Char := Nat.toDigits 10 n

/-- The double nearest to the decimal, ties to even; infinite when no finite one is. -/
def toFloat (d : Decimal) : Float :=
  match d.exponent with
  | .ofNat e => Float.ofScientific d.coefficient false e
  | .negSucc e => Float.ofScientific d.coefficient true (e + 1)

end Decimal

end Formula
