import Formula.Registry
import Formula.Strict
import Formula.Value.Compare

/-! Comparisons, connectives and conditionals. `&&`, `||`, `if` and `coalesce` evaluate only the
children they need. -/
namespace Formula.Builtins

def equal (_ : Call) (a b : Value) : Except Fault Value := .ok (.bool (a.looseEq b))

def notEqual (_ : Call) (a b : Value) : Except Fault Value := .ok (.bool (!a.looseEq b))

def ordered (accepted : List Ordering) (call : Call) (a b : Value) : Except Fault Value :=
  match a.order? b with
  | some order => .ok (.bool (accepted.contains order))
  | none => .error (call.fault (.incomparable a.kind b.kind))

/-- Evaluates children until one has the truth value `stop`. -/
def untilTruth (stop : Bool) : List Expr → Nat → Plan
  | [], _ => .succeed (.bool !stop)
  | _ :: rest, index => .child index none fun v =>
    if v.isTruthy == stop then .succeed (.bool stop) else untilTruth stop rest (index + 1)

def connective (stop : Bool) : Logic := fun call => untilTruth stop call.node.args 0

def not (_ : Call) (v : Value) : Except Fault Value := .ok (.bool !v.isTruthy)

def branch : Logic := fun call =>
  if call.node.args.length = 3 then
    .child 0 none fun v => .child (if v.isTruthy then 1 else 2) none .succeed
  else .fail (call.fault .noBranches)

def isPresent (_ : Call) (v : Value) : Except Fault Value := .ok (.bool !v.isNull)

/-- Evaluates children until one is not null. -/
def untilPresent : List Expr → Nat → Plan
  | [], _ => .succeed .null
  | _ :: rest, index => .child index none fun v =>
    if v.isNull then untilPresent rest (index + 1) else .succeed v

def coalesce : Logic := fun call => untilPresent call.node.args 0

def comparison (name : String) (accepted : List Ordering) : Function :=
  ⟨name, .boolean, .all [.binary, .ofType (.number ∪ .string)],
    strict (some .numberOrString) (binary (ordered accepted))⟩

def logicPackage : List Function := [
  ⟨"==", .boolean, .binary, strict none (binary equal)⟩,
  ⟨"!=", .boolean, .binary, strict none (binary notEqual)⟩,
  comparison "<" [.lt],
  comparison "<=" [.lt, .eq],
  comparison ">" [.gt],
  comparison ">=" [.gt, .eq],
  ⟨"&&", .boolean, .atLeast 1, connective false⟩,
  ⟨"||", .boolean, .atLeast 1, connective true⟩,
  ⟨"!", .boolean, .unary, strict none (unary not)⟩,
  ⟨"if", .any, .exactly 3, branch⟩,
  ⟨"exists", .boolean, .unary, strict none (unary isPresent)⟩,
  ⟨"coalesce", .any, .atLeast 1, coalesce⟩]

end Formula.Builtins
