import Formula.Fields
import Formula.TypeSet

/-! Values. Whole and fractional numbers are different payloads of one static type; an object
lists its bindings in ascending key order. -/
namespace Formula

inductive Value
  | null
  | bool (b : Bool)
  | int (n : Int64)
  | float (x : Float)
  | str (s : String)
  | array (items : List Value)
  | object (fields : List (String × Value))
  deriving Inhabited

/-- The variant of a value, as messages name it. -/
inductive Kind
  | null
  | boolean
  | integer
  | number
  | string
  | array
  | object
  deriving DecidableEq, Repr

def Kind.name : Kind → String
  | .null => "null"
  | .boolean => "boolean"
  | .integer => "integer"
  | .number => "number"
  | .string => "string"
  | .array => "array"
  | .object => "object"

/-- Null has no type of its own and fits every position. -/
def Kind.types : Kind → TypeSet
  | .null => .any
  | .boolean => .boolean
  | .integer | .number => .number
  | .string => .string
  | .array => .array
  | .object => .object

namespace Value

def kind : Value → Kind
  | .null => .null
  | .bool _ => .boolean
  | .int _ => .integer
  | .float _ => .number
  | .str _ => .string
  | .array _ => .array
  | .object _ => .object

def types (v : Value) : TypeSet := v.kind.types

def isNull : Value → Bool
  | .null => true
  | _ => false

def isNumber : Value → Bool
  | .int _ | .float _ => true
  | _ => false

def asBool? : Value → Option Bool
  | .bool b => some b
  | _ => none

def asInt? : Value → Option Int64
  | .int n => some n
  | _ => none

def asFloat? : Value → Option Float
  | .int n => some (.ofInt n.toInt)
  | .float x => some x
  | _ => none

def asString? : Value → Option String
  | .str s => some s
  | _ => none

def asArray? : Value → Option (List Value)
  | .array items => some items
  | _ => none

def asObject? : Value → Option (List (String × Value))
  | .object fields => some fields
  | _ => none

/-- Only null and false are false. -/
def isTruthy : Value → Bool
  | .null | .bool false => false
  | _ => true

/-- An object from bindings in any order. -/
def ofBindings (bindings : List (String × Value)) : Value := .object (Fields.ofList bindings)

end Value

end Formula
