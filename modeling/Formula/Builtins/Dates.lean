import Formula.Calendar.Ticks
import Formula.Registry
import Formula.Strict

/-! Timestamps as texts, in Universal Time. -/
namespace Formula.Builtins

open Calendar (Instant)

def timestamp (call : Call) (v : Value) : Except Fault Instant :=
  match v with
  | .str s => converted call (Calendar.parse s)
  | v => .error (call.fault (.notTimestamp v.kind))

def timestampTicks (call : Call) (v : Value) : Except Fault Int64 := do
  converted call (← timestamp call v).ticks

def ticks (call : Call) (v : Value) : Except Fault Value :=
  return .int (← timestampTicks call v)

/-- The shift of an amount of units, rounded to whole milliseconds; none beyond 64 bits. -/
def millis? (perUnit amount : Float) : Option Int :=
  let millis := amount * perUnit
  if millis.isFinite && millis.abs < Float.ofInt (Int.pow 2 63) then
    Binary64.whole? (Binary64.round .halfAwayFromZero millis)
  else none

def shift (perUnit : Float) (call : Call) (v amount : Value) : Except Fault Value := do
  let start ← timestamp call v
  match amount.asFloat? with
  | none => .error (call.fault .noUnits)
  | some amount =>
    match (millis? perUnit amount).map start.addMillis with
    | some shifted =>
      if shifted.inRange then return .str (Calendar.Timestamp.write shifted)
      else .error (call.fault .dateRange)
    | none => .error (call.fault .dateRange)

def field (get : Instant → Int) (call : Call) (v : Value) : Except Fault Value :=
  return .int (.ofInt (get (← timestamp call v)))

/-- Ticks from the second timestamp to the first. -/
def difference (call : Call) (later earlier : Value) : Except Fault Value := do
  let later ← timestampTicks call later
  let earlier ← timestampTicks call earlier
  match Integer.sub? later earlier with
  | some n => return .int n
  | none => .error (call.fault .tickRange)

def calendarField (name : String) (get : Instant → Int) : Function :=
  ⟨name, .number, .unaryString, strict (some .string) (unary (field get))⟩

def shifting (name : String) (perUnit : Float) : Function :=
  ⟨name, .string, .all [.binary, .positional [.string, .number]],
    strict none (binary (shift perUnit))⟩

def datePackage : List Function := [
  ⟨"ticks", .number, .unaryString, strict (some .string) (unary ticks)⟩,
  calendarField "dayOfMonth" fun i => i.date.day,
  calendarField "dayOfWeek" fun i => Calendar.weekday i.day,
  calendarField "year" fun i => i.date.year,
  shifting "addDays" 86400000.0,
  shifting "addHours" 3600000.0,
  ⟨"dateDiffTicks", .number, .all [.binary, .ofType .string],
    strict (some .string) (binary difference)⟩]

end Formula.Builtins
