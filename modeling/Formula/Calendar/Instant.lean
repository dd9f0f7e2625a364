import Formula.Calendar.Date

/-! Instants of Universal Time to the nanosecond. A leap second is the second after :59 of any
minute and is kept as that second with 10^9 or more nanoseconds. -/
namespace Formula.Calendar

structure Instant where
  day : Int
  second : Nat
  nano : Nat
  second_lt : second < 86400
  nano_lt : nano < 2000000000
  leap_ends_minute : 1000000000 ≤ nano → second % 60 = 59
  deriving DecidableEq, Repr

namespace Instant

def nanosPerSecond : Nat := 1000000000

def ofParts? (day : Int) (second nano : Nat) : Option Instant :=
  if h : second < 86400 ∧ nano < 2000000000 ∧ (1000000000 ≤ nano → second % 60 = 59) then
    some ⟨day, second, nano, h.1, h.2.1, h.2.2⟩
  else none

/-- The instant a number of nanoseconds after the start of day 0, without leap seconds. -/
def ofNanos (total : Int) : Instant where
  day := total / 86400000000000
  second := (total / 1000000000 % 86400).toNat
  nano := (total % 1000000000).toNat
  second_lt := by omega
  nano_lt := by omega
  leap_ends_minute := by omega

def isLeap (i : Instant) : Bool := nanosPerSecond ≤ i.nano

def date (i : Instant) : Date := .ofNumber i.day

/-- Seconds since 1970-01-01, which is day 719162. -/
def unixSeconds (i : Instant) : Int := (i.day - 719162) * 86400 + i.second

/-- First and last day that have a date here, in the years -262143 and 262142. -/
def firstDay : Int := yearStart (-262143)

def lastDay : Int := yearStart 262143 - 1

def ofUnix? (seconds : Int) (nano : Nat) : Option Instant :=
  let day := seconds / 86400 + 719162
  if firstDay ≤ day ∧ day ≤ lastDay then ofParts? day (seconds % 86400).toNat nano else none

/-- What Universal Time shows when this is read from a clock running ahead of it by `minutes`; a
leap second stays one. -/
def behind (i : Instant) (minutes : Int) : Instant where
  day := i.day + (i.second - 60 * minutes) / 86400
  second := ((i.second - 60 * minutes) % 86400).toNat
  nano := i.nano
  second_lt := by omega
  nano_lt := i.nano_lt
  leap_ends_minute := by
    have := i.leap_ends_minute
    omega

def staysInLeap (i : Instant) (millis : Int) : Prop :=
  nanosPerSecond ≤ i.nano ∧ millis.tdiv 1000 = 0 ∧ i.nano + 1000000 * millis < 2 * nanosPerSecond

instance (i : Instant) (millis : Int) : Decidable (i.staysInLeap millis) :=
  inferInstanceAs (Decidable (_ ∧ _))

/-- Shifts by milliseconds. Within its leap second an instant just moves; leaving it forwards
the extra second is dropped, leaving it backwards it is counted. -/
def addMillis (i : Instant) (millis : Int) : Instant :=
  if h : i.staysInLeap millis then
    { i with
      nano := (i.nano + 1000000 * millis).toNat
      nano_lt := by
        have := h.2.2
        simp only [nanosPerSecond] at this
        omega
      leap_ends_minute := fun _ => i.leap_ends_minute h.1 }
  else
    let extra := if i.isLeap ∧ millis < 0 then 1 else 0
    ofNanos ((i.day * 86400 + i.second + extra) * 1000000000 + i.nano % 1000000000 + 1000000 * millis)

end Instant

end Formula.Calendar
