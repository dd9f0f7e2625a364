import Formula.Expr.Basic
import Formula.Value.Json

/-! Expressions in the notation that messages use: operators between their operands, a bare path
for an accessor, a quoted literal for a string, and a call for the rest. -/
namespace Formula.Expr

def infixNames : List String :=
  ["+", "-", "*", "/", "%", "^", "==", "!=", "<", "<=", ">", ">=", "&&", "||"]

def isInfix (name : String) : Bool := infixNames.contains name

/-- Inside single quotes: the quote, the backslash and the line feed are escaped. -/
def escape (c : Char) : List Char :=
  match c with
  | '\'' => ['\\', '\'']
  | '\\' => ['\\', '\\']
  | '\n' => ['\\', 'n']
  | c => [c]

def renderLiteral : Value → String
  | .str s => "'" ++ String.ofList (s.toList.flatMap escape) ++ "'"
  | v => v.render

mutual

def render : Expr → String
  | .constant v => renderLiteral v
  | .call name args =>
    match path? (.call name args) with
    | some path => path
    | none =>
      let parts := renderAll args
      if isInfix name && 2 ≤ parts.length then
        "(" ++ (" " ++ name ++ " ").intercalate parts ++ ")"
      else if name = "!" ∧ parts.length = 1 then "!" ++ String.join parts
      else name ++ "(" ++ ", ".intercalate parts ++ ")"

def renderAll : List Expr → List String
  | [] => []
  | e :: rest => e.render :: renderAll rest

end

end Formula.Expr
