import Formula.Plan

/-! Strict functions: every child is evaluated, from left to right, and checked as soon as its
value is there; then the values are computed with. -/
namespace Formula

/-- Collects the values of the children from the one at `index` on; `seen` holds those before
it, the last first. A value that fails the check ends the plan. -/
def gather (check : Option Check) (bindings : Option (List (String × Value)))
    (next : List Value → Plan) : List Expr → Nat → List Value → Plan
  | [], _, seen => next seen.reverse
  | e :: rest, index, seen => .child index bindings fun v =>
    match check with
    | none => gather check bindings next rest (index + 1) (v :: seen)
    | some demand =>
      if demand.passes v then gather check bindings next rest (index + 1) (v :: seen)
      else .fail (.node e (.check demand))

abbrev Compute := Call → List Value → Except Fault Value

def strict (check : Option Check) (compute : Compute) : Logic := fun call =>
  gather check none (fun args => .done (compute call args)) call.node.args 0 []

def foldArgs (operation : Value → Value → Except Fault Value) (acc : Value) :
    List Value → Except Fault Value
  | [] => .ok acc
  | v :: rest =>
    match operation acc v with
    | .ok acc => foldArgs operation acc rest
    | .error fault => .error fault

def folding (operation : Value → Value → Except Fault Value) : Compute
  | call, [] => .error (call.fault .noArguments)
  | _, first :: rest => foldArgs operation first rest

def unary (compute : Call → Value → Except Fault Value) : Compute
  | call, [a] => compute call a
  | call, args => .error (call.fault (.argumentCount 1 args.length))

def binary (compute : Call → Value → Value → Except Fault Value) : Compute
  | call, [a, b] => compute call a b
  | call, args => .error (call.fault (.argumentCount 2 args.length))

def ternary (compute : Call → Value → Value → Value → Except Fault Value) : Compute
  | call, [a, b, c] => compute call a b c
  | call, args => .error (call.fault (.argumentCount 3 args.length))

/-- Turns the reason for a failed conversion into a fault of the node. -/
def converted (call : Call) : Except CastError α → Except Fault α
  | .ok a => .ok a
  | .error e => .error (call.fault (.conversion e))

end Formula
