import Formula.Binary64
import Formula.Integer
import Formula.Json.Printer
import Formula.Value.Basic

/-! Values as JSON. A whole number beyond 64 bits enters as the nearest double; a double that
is not finite leaves as null. -/
namespace Formula.Value

mutual

def ofJson : Json → Value
  | .null => .null
  | .bool b => .bool b
  | .int n =>
    match Integer.ofInt? n with
    | some word => .int word
    | none => .float (.ofInt n)
  | .float x => .float x
  | .str s => .str s
  | .array items => .array (ofJsonItems items)
  | .object members => .object (ofJsonMembers members)

def ofJsonItems : List Json → List Value
  | [] => []
  | item :: rest => ofJson item :: ofJsonItems rest

def ofJsonMembers : List (String × Json) → List (String × Value)
  | [] => []
  | (name, value) :: rest => (name, ofJson value) :: ofJsonMembers rest

end

mutual

def toJson : Value → Json
  | .null => .null
  | .bool b => .bool b
  | .int n => .int n.toInt
  | .float x => if x.isFinite then .float x else .null
  | .str s => .str s
  | .array items => .array (toJsonItems items)
  | .object fields => .object (toJsonMembers fields)

def toJsonItems : List Value → List Json
  | [] => []
  | item :: rest => item.toJson :: toJsonItems rest

def toJsonMembers : List (String × Value) → List (String × Json)
  | [] => []
  | (name, value) :: rest => (name, value.toJson) :: toJsonMembers rest

end

mutual

/-- The JSON text of a value, written without the document in between. -/
def serialize : Value → String
  | .null => "null"
  | .bool b => if b then "true" else "false"
  | .int n => toString n.toInt
  | .float x => Json.renderFloat x
  | .str s => Json.quote s
  | .array items => "[" ++ serializeItems items ++ "]"
  | .object fields => "\x7b" ++ serializeMembers fields ++ "\x7d"

def serializeItems : List Value → String
  | [] => ""
  | [item] => item.serialize
  | item :: rest => item.serialize ++ "," ++ serializeItems rest

def serializeMembers : List (String × Value) → String
  | [] => ""
  | [(name, value)] => Json.quote name ++ ":" ++ value.serialize
  | (name, value) :: rest => Json.quote name ++ ":" ++ value.serialize ++ "," ++ serializeMembers rest

end

/-- Plain text: a string without quotes, an array or object as JSON. -/
def render : Value → String
  | .null => "null"
  | .bool b => if b then "true" else "false"
  | .int n => toString n.toInt
  | .float x => Decimal.Layout.plain.render x
  | .str s => s
  | v => v.toJson.render

end Formula.Value
