import Formula.Registry

/-! Evaluation. Every node is entered at a depth one more than its parent's; a node at the limit
is not entered. A function reaches its children only through its plan. -/
namespace Formula

/-- Enters one node, given how its children evaluate. -/
def Registry.enter (registry : Registry) (options : Options) (node : Expr) (depth : Nat)
    (children : List (Memory → Outcome)) (memory : Memory) : Outcome :=
  if options.maxDepth ≤ depth then .error (.tooDeep depth options.maxDepth)
  else
    match registry.find? node.name with
    | none => .error (.unknownFunction node.name)
    | some function =>
      (function.logic ⟨node, options, depth + 1, registry.size⟩).run memory children

namespace Expr

mutual

def evalAt (registry : Registry) (options : Options) : Expr → Nat → Memory → Outcome
  | .constant v, depth, memory => registry.enter options (.constant v) depth [] memory
  | .call name args, depth, memory =>
    registry.enter options (.call name args) depth (evalAll registry options args (depth + 1)) memory

def evalAll (registry : Registry) (options : Options) : List Expr → Nat → List (Memory → Outcome)
  | [], _ => []
  | e :: rest, depth =>
    (fun memory => evalAt registry options e depth memory) :: evalAll registry options rest depth

end

def eval (registry : Registry) (options : Options) (memory : Memory) (e : Expr) : Outcome :=
  e.evalAt registry options 0 memory

end Expr

end Formula
