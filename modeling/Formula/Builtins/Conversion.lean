import Formula.Calendar.Ticks
import Formula.Registry
import Formula.Strict
import Formula.Text.Casing

/-! Casts between kinds of values, and tick counts as days, hours and minutes. -/
namespace Formula.Builtins

/-- A whole number of ticks, in units of so many. -/
def ticksTo (unit : Int) (call : Call) (v : Value) : Except Fault Value :=
  if v.isInteger then
    return .float ((← converted call v.toFloat) / Float.ofInt unit)
  else .error (call.fault .fractionalTicks)

/-- A text is read as a numeral of the culture; every other value stays as it is. -/
def numeral (call : Call) (v : Value) : Except Fault Value :=
  match v with
  | .str s => converted call (Value.ofNumeral call.options.locale s)
  | v => .ok v

/-- The fraction of a number is cut off. -/
def toInt (call : Call) (v : Value) : Except Fault Value :=
  match v with
  | .bool b => .ok (.int (if b then 1 else 0))
  | v => do
    match ← numeral call v with
    | .int n => return .int n
    | .float x => return .int (← converted call (Value.float (Binary64.round .towardZero x)).toInt)
    | v => .error (call.fault (.notWhole v.kind))

def toFloat (call : Call) (v : Value) : Except Fault Value := do
  let v ← numeral call v
  match v.asFloat? with
  | some x => return .float x
  | none => .error (call.fault (.notNumeric v.kind))

def toText (call : Call) (v : Value) : Except Fault Value :=
  match v with
  | .float x => .ok (.str (Culture.write call.options.locale x))
  | .str s => .ok (.str s)
  | .null => .ok (.str "")
  | v => .ok (.str v.render)

/-- A text must be `true` or `false`, in any case; a number is false when it is zero. -/
def toBool (call : Call) (v : Value) : Except Fault Value :=
  match v with
  | .str s =>
    if Text.equalsAsciiCaseless s "true" then .ok (.bool true)
    else if Text.equalsAsciiCaseless s "false" then .ok (.bool false)
    else .error (call.fault (.notBoolean s))
  | .int n => .ok (.bool (n != 0))
  | .float x => .ok (.bool (x != 0.0))
  | v => .ok (.bool v.isTruthy)

def conversionPackage : List Function := [
  ⟨"ticksToDays", .number, .unaryNumber, strict none (unary (ticksTo Calendar.ticksPerDay))⟩,
  ⟨"ticksToHours", .number, .unaryNumber, strict none (unary (ticksTo Calendar.ticksPerHour))⟩,
  ⟨"ticksToMinutes", .number, .unaryNumber, strict none (unary (ticksTo Calendar.ticksPerMinute))⟩,
  ⟨"int", .number, .unary, strict (some .notNull) (unary toInt)⟩,
  ⟨"float", .number, .unary, strict (some .notNull) (unary toFloat)⟩,
  ⟨"string", .string, .unary, strict none (unary toText)⟩,
  ⟨"bool", .boolean, .unary, strict none (unary toBool)⟩]

end Formula.Builtins
