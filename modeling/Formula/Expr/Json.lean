import Formula.Expr.Basic
import Formula.Json.Printer
import Formula.Value.Json

/-! Expressions as JSON. `call` with optional `args` is a call, `path` an accessor and `value` a
literal, in this order of precedence; whatever is no object is a literal itself. -/
namespace Formula

inductive TreeError
  | invalidCall (found : Json)
  | invalidArgs (call : String)
  | invalidPath (found : Json)
  | unknownShape (node : Json)

def TreeError.message : TreeError → String
  | .invalidCall found => "'call' must be a string, found " ++ found.render
  | .invalidArgs call => "'args' of '" ++ call ++ "' must be an array"
  | .invalidPath found => "'path' must be a string, found " ++ found.render
  | .unknownShape node => "object node must have one of 'call', 'path' or 'value': " ++ node.render

namespace Expr

def ofLeaf (members : List (String × Json)) : Except TreeError Expr :=
  match Fields.get? "path" members with
  | some (.str path) => .ok (accessor path)
  | some found => .error (.invalidPath found)
  | none =>
    match Fields.get? "value" members with
    | some v => .ok (.constant (.ofJson v))
    | none => .error (.unknownShape (.object members))

mutual

def ofJson : Json → Except TreeError Expr
  | .object members =>
    match Fields.get? "call" members with
    | some (.str name) => (ofArgs name members).map (.call name)
    | some found => .error (.invalidCall found)
    | none => ofLeaf members
  | json => .ok (.constant (.ofJson json))

/-- The expressions under `args`, none when there is no such member. -/
def ofArgs (call : String) : List (String × Json) → Except TreeError (List Expr)
  | [] => .ok []
  | (name, .array items) :: rest => if name = "args" then ofItems items else ofArgs call rest
  | (name, _) :: rest => if name = "args" then .error (.invalidArgs call) else ofArgs call rest

/-- The first item that is no tree decides the error. -/
def ofItems : List Json → Except TreeError (List Expr)
  | [] => .ok []
  | item :: rest =>
    match ofJson item with
    | .error e => .error e
    | .ok arg =>
      match ofItems rest with
      | .error e => .error e
      | .ok args => .ok (arg :: args)

end

end Expr

end Formula
