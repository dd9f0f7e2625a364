import Formula.Culture
import Formula.Integer
import Formula.Value.Json

/-! Conversions between kinds of numbers and from text, with the reason when there is none. -/
namespace Formula

inductive CastError
  | notANumber (found : Kind)
  | notAnInteger (found : Kind)
  | fractional (x : Float)
  | integerRange (x : Float)
  | invalidNumber (input : String)
  | invalidDate (input : String)
  | dateRange (input : String)
  | tickRange (stamp : String)

def CastError.message : CastError → String
  | .notANumber found => "expected a number, found " ++ found.name
  | .notAnInteger found => "expected an integer, found " ++ found.name
  | .fractional x => "expected an integer, found " ++ Decimal.Layout.terse.render x
  | .integerRange x => Decimal.Layout.terse.render x ++ " is out of range for integer"
  | .invalidNumber input => "'" ++ input ++ "' is not a valid number"
  | .invalidDate input => "'" ++ input ++ "' is not a valid timestamp"
  | .dateRange input => input ++ " is out of range for a timestamp"
  | .tickRange stamp => stamp ++ " is out of range for ticks"

namespace Value

/-- A number without fraction, whichever its payload. -/
def isInteger : Value → Bool
  | .int _ => true
  | .float x => (Binary64.whole? x).isSome
  | _ => false

def toFloat (v : Value) : Except CastError Float :=
  match v.asFloat? with
  | some x => .ok x
  | none => .error (.notANumber v.kind)

def toInt : Value → Except CastError Int64
  | .int n => .ok n
  | .float x =>
    match Binary64.whole? x with
    | none => .error (.fractional x)
    | some n =>
      match Integer.ofInt? n with
      | some word => .ok word
      | none => .error (.integerRange x)
  | v => .error (.notAnInteger v.kind)

def ofNumeral (tag : Option String) (text : String) : Except CastError Value :=
  match Culture.read? tag text with
  | some (.whole n) => .ok (.int n)
  | some (.double x) => .ok (.float x)
  | none => .error (.invalidNumber text)

end Value

end Formula
