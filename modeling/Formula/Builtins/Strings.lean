import Formula.Registry
import Formula.Strict
import Formula.Text.Casing
import Formula.Text.Search

/-! Texts. Null reads as the empty text; lengths and positions count characters. -/
namespace Formula.Builtins

def text (v : Value) : String := v.asString?.getD ""

/-- Null leaves no trace in a joined text. -/
def piece (v : Value) : String := if v.isNull then "" else v.render

/-- Arrays are appended to each other when there is nothing else, otherwise the texts of the
arguments. -/
def concat (args : List Value) : Value :=
  if args.all fun v => v.asArray?.isSome then .array (args.flatMap fun v => v.asArray?.getD [])
  else .str (String.join (args.map piece))

/-- Counts are below 2^63 in every collection that fits a machine. -/
def size (n : Nat) : Value := .int (.ofNat n)

def length (call : Call) (v : Value) : Except Fault Value :=
  match v with
  | .null => .ok (size 0)
  | .str s => .ok (size s.length)
  | .array items => .ok (size items.length)
  | v => .error (call.fault (.noLength v.kind))

def mapText (f : String → String) (_ : Call) (v : Value) : Except Fault Value :=
  .ok (.str (f (text v)))

def testText (f : List Char → List Char → Bool) (_ : Call) (s other : Value) : Except Fault Value :=
  .ok (.bool (f (text s).toList (text other).toList))

def textBound (call : Call) (v : Value) : Except Fault Nat :=
  match v.toInt with
  | .error _ => .error (call.fault .textBounds)
  | .ok n =>
    match Integer.toNat? n with
    | some n => .ok n
    | none => .error (call.fault .textBounds)

def textOf (call : Call) : Value → Except Fault (List Char)
  | .null => .ok []
  | .str s => .ok s.toList
  | v => .error (call.fault (.notText v.kind))

/-- Takes `length` characters from `start` on; what reaches past the end is refused. -/
def cut (call : Call) (chars : List Char) (start length : Nat) : Except Fault Value :=
  if chars.length < Integer.sizeSum start length then .error (call.fault (.textRange chars.length))
  else .ok (.str (String.ofList ((chars.drop start).take length)))

def slice (call : Call) (s start : Value) (length : Option Value) : Except Fault Value := do
  let chars ← textOf call s
  let start ← textBound call start
  let length ← match length with
    | some v => textBound call v
    | none => .ok (chars.length - start)
  cut call chars start length

def substring : Compute
  | call, [s, start] => slice call s start none
  | call, [s, start, length] => slice call s start (some length)
  | call, args => .error (call.fault (.substringArguments args.length))

def replace (call : Call) (s part replacement : Value) : Except Fault Value :=
  match (text part).toList with
  | [] => .error (call.fault .emptyPattern)
  | part => .ok (.str (String.ofList (Text.replace (text s).toList part (text replacement).toList)))

def textPackage : List Function := [
  ⟨"concat", .string ∪ .array, .atLeast 1, strict none fun _ args => .ok (concat args)⟩,
  ⟨"length", .number, .all [.unary, .ofType (.string ∪ .array)], strict none (unary length)⟩,
  ⟨"toLower", .string, .unaryString, strict (some .stringOrNull) (unary (mapText Text.toLower))⟩,
  ⟨"toUpper", .string, .unaryString, strict (some .stringOrNull) (unary (mapText Text.toUpper))⟩,
  ⟨"trim", .string, .unaryString, strict (some .stringOrNull) (unary (mapText Text.trim))⟩,
  ⟨"substring", .string, .all [.arity 2 (some 3), .positional [.string, .number]],
    strict none substring⟩,
  ⟨"startsWith", .boolean, .all [.binary, .ofType .string],
    strict (some .stringOrNull) (binary (testText fun s start => start.isPrefixOf s))⟩,
  ⟨"endsWith", .boolean, .all [.binary, .ofType .string],
    strict (some .stringOrNull) (binary (testText fun s ending => ending.isSuffixOf s))⟩,
  ⟨"replace", .string, .all [.exactly 3, .ofType .string],
    strict (some .stringOrNull) (ternary replace)⟩]

end Formula.Builtins
