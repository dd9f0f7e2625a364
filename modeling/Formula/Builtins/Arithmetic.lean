import Formula.Registry
import Formula.Strict
import Formula.Value.Compare

/-! Arithmetic, aggregates and rounding. Two integers give an exact integer or an overflow; as
soon as a double takes part the operation is one on doubles. -/
namespace Formula.Builtins

open Binary64 (Rounding)

/-- What serves in place of an operand that is no number, of the best of no arguments, and of the
items of what is no array. -/
structure Fallback where
  number : Except Fault Float
  best : Except Fault Value
  items : Except Fault (List Value)

/-- The double that is no number, null, and no items. -/
def Fallback.standard : Fallback := ⟨.ok Binary64.notANumber, .ok .null, .ok []⟩

variable (fallback : Fallback)

def double (v : Value) : Except Fault Float :=
  match v.asFloat? with
  | some x => .ok x
  | none => fallback.number

def exactly (operator : String) (a b : Value) : Option Int64 → Except Fault Value
  | some n => .ok (.int n)
  | none => .error (.overflow operator a b)

def onDoubles (operation : Float → Float → Float) (a b : Value) : Except Fault Value := do
  let x ← double fallback a
  let y ← double fallback b
  return .float (operation x y)

/-- A string on either side makes it a concatenation. -/
def add (a b : Value) : Except Fault Value :=
  match a, b with
  | .int x, .int y => exactly "+" a b (Integer.add? x y)
  | .str _, _ | _, .str _ => .ok (.str (a.render ++ b.render))
  | _, _ => onDoubles fallback (· + ·) a b

def subtract (a b : Value) : Except Fault Value :=
  match a, b with
  | .int x, .int y => exactly "-" a b (Integer.sub? x y)
  | _, _ => onDoubles fallback (· - ·) a b

def multiply (a b : Value) : Except Fault Value :=
  match a, b with
  | .int x, .int y => exactly "*" a b (Integer.mul? x y)
  | _, _ => onDoubles fallback (· * ·) a b

def isZero : Value → Bool
  | .int n => n == 0
  | .float x => x == 0.0
  | _ => false

def divide (a b : Value) : Except Fault Value :=
  if isZero b then .error .divisionByZero
  else
    match a, b with
    | .int x, .int y => exactly "/" a b (Integer.div? x y)
    | _, _ => onDoubles fallback (· / ·) a b

def modulo (_ : Call) (a b : Value) : Except Fault Value :=
  if isZero b then .error .divisionByZero
  else
    match a, b with
    | .int x, .int y => exactly "%" a b (Integer.rem? x y)
    | _, _ => onDoubles fallback Binary64.remainder a b

/-- Integer exponents that are taken exactly are 32-bit words. -/
def exactExponent? (exponent : Int64) : Option Nat :=
  (Integer.toNat? exponent).filter (· < Nat.pow 2 32)

def power (_ : Call) (a b : Value) : Except Fault Value :=
  match a, b with
  | .int base, .int exponent =>
    match exactExponent? exponent with
    | some n => exactly "^" a b (Integer.pow? base n)
    | none => onDoubles fallback Float.pow a b
  | _, _ => onDoubles fallback Float.pow a b

/-- The first argument that none after it beats. -/
def pick (beats : Value → Value → Bool) (args : List Value) : Except Fault Value :=
  match args with
  | [] => fallback.best
  | first :: rest => .ok (rest.foldl (fun best v => if beats v best then v else best) first)

def least (args : List Value) : Except Fault Value :=
  pick fallback (fun v best => best.order? v == some .gt) args

def greatest (args : List Value) : Except Fault Value :=
  pick fallback (fun v best => best.order? v == some .lt) args

def numbers (call : Call) (v : Value) : Except Fault (List Value) := do
  let items ← match v.asArray? with
    | some items => .ok items
    | none => fallback.items
  if items.all Value.isNumber then .ok items else .error (call.fault .notNumbers)

def sum (call : Call) (v : Value) : Except Fault Value := do
  foldArgs (add fallback) (.int 0) (← numbers fallback call v)

def average (call : Call) (v : Value) : Except Fault Value := do
  let items ← numbers fallback call v
  if items.isEmpty then .error (call.fault .emptyArray)
  else
    let total ← sum fallback call v
    return .float ((← double fallback total) / Float.ofNat items.length)

def magnitude (n : Int64) : Option Int64 → Except Fault Value
  | some m => .ok (.int m)
  | none => .error (.absOverflow n)

def abs (_ : Call) (v : Value) : Except Fault Value :=
  match v with
  | .int n => magnitude n (Integer.abs? n)
  | v => return .float (← double fallback v).abs

def whole (rounding : Rounding) (_ : Call) (v : Value) : Except Fault Value :=
  match v with
  | .float x => .ok (.float (Binary64.round rounding x))
  | v => .ok v

/-- Rounds to a number of decimal places; halves go away from zero. -/
def roundTo (places : Nat) (v : Value) : Except Fault Value :=
  match v with
  | .int n => .ok (.int n)
  | v => do
    let scale := Float.ofNat (Nat.pow 10 places)
    let x ← double fallback v
    return .float (Binary64.round .halfAwayFromZero (x * scale) / scale)

def places? (v : Value) : Option Nat :=
  match v.toInt with
  | .ok n => (Integer.toNat? n).filter (· ≤ 15)
  | .error _ => none

def round : Compute
  | _, [v] => roundTo fallback 0 v
  | call, [v, places] =>
    match places? places with
    | some n => roundTo fallback n v
    | none => .error (call.fault .roundDigits)
  | call, args => .error (call.fault (.roundArguments args.length))

def arithmeticWith : List Function := [
  ⟨"+", .number ∪ .string, .all [.atLeast 2, .ofType (.number ∪ .string)],
    strict (some .numberOrString) (folding (add fallback))⟩,
  ⟨"-", .number, .numberSequence, strict (some .number) (folding (subtract fallback))⟩,
  ⟨"*", .number, .numberSequence, strict (some .number) (folding (multiply fallback))⟩,
  ⟨"/", .number, .numberSequence, strict (some .number) (folding (divide fallback))⟩,
  ⟨"%", .number, .binaryNumber, strict (some .number) (binary (modulo fallback))⟩,
  ⟨"^", .number, .binaryNumber, strict (some .number) (binary (power fallback))⟩,
  ⟨"min", .number, .all [.atLeast 1, .ofType .number],
    strict (some .number) fun _ args => least fallback args⟩,
  ⟨"max", .number, .all [.atLeast 1, .ofType .number],
    strict (some .number) fun _ args => greatest fallback args⟩,
  ⟨"sum", .number, .all [.unary, .ofType .array], strict (some .array) (unary (sum fallback))⟩,
  ⟨"average", .number, .all [.unary, .ofType .array],
    strict (some .array) (unary (average fallback))⟩,
  ⟨"abs", .number, .unaryNumber, strict (some .number) (unary (abs fallback))⟩,
  ⟨"floor", .number, .unaryNumber, strict (some .number) (unary (whole .down))⟩,
  ⟨"ceiling", .number, .unaryNumber, strict (some .number) (unary (whole .up))⟩,
  ⟨"round", .number, .all [.arity 1 (some 2), .ofType .number],
    strict (some .number) (round fallback)⟩]

def arithmeticPackage : List Function := arithmeticWith .standard

end Formula.Builtins
