import Formula.Calendar.Timestamp
import Formula.Integer
import Formula.Value.Convert

/-! Tick counts. A tick is 100 nanoseconds; timestamps count them from 0001-01-01. -/
namespace Formula.Calendar

def ticksPerSecond : Int := 10000000
def ticksPerMinute : Int := 60 * ticksPerSecond
def ticksPerHour : Int := 60 * ticksPerMinute
def ticksPerDay : Int := 24 * ticksPerHour

def unixEpochTicks : Int := 621355968000000000

namespace Instant

/-- Only the years 1 to 9999 are supported. -/
def inRange (i : Instant) : Bool := inYearRange i.day

/-- The count is absent where it, or a step on the way to it, needs more than 64 bits. -/
def ticks? (i : Instant) : Option Int64 := do
  let seconds ← Integer.ofInt? (i.unixSeconds * ticksPerSecond)
  let whole ← Integer.ofInt? (seconds.toInt + unixEpochTicks)
  Integer.ofInt? (whole.toInt + i.nano / 100)

def ticks (i : Instant) : Except CastError Int64 :=
  match i.ticks? with
  | some n => .ok n
  | none => .error (.tickRange (Timestamp.write i))

end Instant

def parse (text : String) : Except CastError Instant :=
  match Timestamp.read? text with
  | none => .error (.invalidDate text)
  | some i => if i.inRange then .ok i else .error (.dateRange text)

end Formula.Calendar
