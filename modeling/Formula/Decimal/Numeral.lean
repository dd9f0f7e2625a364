import Formula.Decimal.Basic
import Formula.Integer

/-! Reading numerals: an optional sign and ASCII digits, for doubles with at most one point and
an optional exponent. Nothing may stand before or after. -/
namespace Formula.Numeral

def spanDigits (text : List Char) : List Char × List Char :=
  (text.takeWhile Char.isDigit, text.dropWhile Char.isDigit)

def sign : List Char → Bool × List Char
  | '-' :: rest => (true, rest)
  | '+' :: rest => (false, rest)
  | text => (false, text)

def natural? (text : List Char) : Option Nat :=
  if !text.isEmpty && text.all Char.isDigit then some (Decimal.ofDigits text) else none

def integer? (text : List Char) : Option Int64 :=
  let (negative, rest) := sign text
  (natural? rest).bind fun n => Integer.ofInt? (if negative then -n else n)

/-- The exponent part: nothing, or a letter, an optional sign and at least one digit. -/
def exponent? : List Char → Option Int
  | [] => some 0
  | mark :: text =>
    if mark = 'e' ∨ mark = 'E' then
      let (negative, rest) := sign text
      (natural? rest).map fun n => if negative then -n else n
    else none

/-- Digits may be missing on one side of the point, not on both. -/
def unsigned? (text : List Char) : Option Decimal :=
  let (whole, rest) := spanDigits text
  let (fraction, rest) := match rest with
    | '.' :: rest => spanDigits rest
    | rest => ([], rest)
  if whole.isEmpty && fraction.isEmpty then none
  else (exponent? rest).map fun e => ⟨Decimal.ofDigits (whole ++ fraction), e - fraction.length⟩

/-- There is none also for a numeral beyond the largest double. -/
def double? (text : List Char) : Option Float :=
  let (negative, rest) := sign text
  match unsigned? rest with
  | none => none
  | some d =>
    let magnitude := d.toFloat
    if magnitude.isFinite then some (if negative then -magnitude else magnitude) else none

end Formula.Numeral
