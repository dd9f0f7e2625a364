import Formula.Fault

/-! What a function does with its children. A plan asks for one child at a time, may lay
bindings over the caller's memory for it, may read a path, and ends with a value or a fault.
It goes on with values only: the failure of a child is final, whoever asked for it. -/
namespace Formula

inductive Plan
  | done (result : Except Fault Value)
  | child (index : Nat) (bindings : Option (List (String × Value))) (next : Value → Plan)
  | read (path : String) (next : Except MemoryError Value → Plan)

abbrev Outcome := Except EvalError Value

namespace Plan

def fail (fault : Fault) : Plan := .done (.error fault)

def succeed (v : Value) : Plan := .done (.ok v)

/-- Carries a plan out over a memory. A child that does not exist reads as null. -/
def run (memory : Memory) (children : List (Memory → Outcome)) : Plan → Outcome
  | .done (.ok v) => .ok v
  | .done (.error fault) => .error (.fault fault)
  | .child index bindings next =>
    match children[index]? with
    | none => (next .null).run memory children
    | some evaluate =>
      match evaluate (memory.extend bindings) with
      | .ok v => (next v).run memory children
      | .error e => .error e
  | .read path next => (next (memory.resolve path)).run memory children

end Plan

/-- Settings of an evaluation. `whenNull` may put a value in the place of a null or missing
path. -/
structure Options where
  maxDepth : Nat := 1000
  locale : Option String := none
  whenNull : String → Option Value := fun _ => none

/-- One use of a function: its node, the settings, how many nodes lie between the root and this
one, both included, and how many functions are known. -/
structure Call where
  node : Expr
  options : Options
  depth : Nat
  known : Nat

def Call.fault (call : Call) (complaint : Complaint) : Fault := .node call.node complaint

abbrev Logic := Call → Plan

end Formula
