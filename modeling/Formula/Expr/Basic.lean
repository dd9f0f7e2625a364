import Formula.Value.Basic

/-! Expression trees: literals and calls. A reference to memory is a call of `accessor` whose
first argument is the literal path. Trees are unchecked until they are bound. -/
namespace Formula

inductive Expr
  | constant (v : Value)
  | call (name : String) (args : List Expr)
  deriving Inhabited

namespace Expr

def constantName : String := "constant"

def accessorName : String := "accessor"

/-- The function a node is evaluated by. -/
def name : Expr → String
  | .constant _ => constantName
  | .call name _ => name

def args : Expr → List Expr
  | .constant _ => []
  | .call _ args => args

def value? : Expr → Option Value
  | .constant v => some v
  | .call _ _ => none

def accessor (path : String) : Expr := .call accessorName [.constant (.str path)]

/-- The path an accessor reads: its first argument, when that is a literal string. -/
def path? : Expr → Option String
  | .call name (.constant (.str path) :: _) => if name = accessorName then some path else none
  | _ => none

/-- The deepest of the nodes still to visit, each with its distance from the root; a visited
node is replaced by its children, the last one first. -/
def deepest (fuel : Nat) (found : Nat) (pending : List (Expr × Nat)) : Nat :=
  match fuel, pending with
  | 0, _ | _, [] => found
  | fuel + 1, (node, level) :: rest =>
    deepest fuel (max found level) ((node.args.map (·, level + 1)).reverse ++ rest)

mutual

def count : Expr → Nat
  | .constant _ => 1
  | .call _ args => 1 + countAll args

def countAll : List Expr → Nat
  | [] => 0
  | e :: rest => e.count + countAll rest

end

/-- The number of nodes on the longest way from the root to a leaf, found with a work list
instead of recursion. -/
def depth (e : Expr) : Nat := deepest e.count 0 [(e, 1)]

end Expr

end Formula
