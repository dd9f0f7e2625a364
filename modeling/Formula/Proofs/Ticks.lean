import Formula.Calendar.Ticks
import Formula.Proofs.Gregorian

/-! The tick count of an instant. In the supported years it is there and not negative. It follows the order
of instants, but for leap seconds: such a second is counted on from the second before it, and then the
second after it starts where the leap second did. -/
namespace Formula.Calendar

namespace Instant

def seconds (i : Instant) : Int := i.day * 86400 + i.second

/-- Ticks since 0001-01-01, the last one cut off. -/
def tickCount (i : Instant) : Int := i.seconds * ticksPerSecond + i.nano / 100

/-- The earlier instant has the earlier second or, in the same second, fewer nanoseconds. -/
instance : LE Instant :=
  ⟨fun i j => i.day < j.day ∨
    i.day = j.day ∧ (i.second < j.second ∨ i.second = j.second ∧ i.nano ≤ j.nano)⟩

variable {i j : Instant}

theorem le_def : i ≤ j ↔ i.day < j.day ∨
    i.day = j.day ∧ (i.second < j.second ∨ i.second = j.second ∧ i.nano ≤ j.nano) := Iff.rfl

theorem le_iff : i ≤ j ↔ i.seconds < j.seconds ∨ i.seconds = j.seconds ∧ i.nano ≤ j.nano := by
  have first := i.second_lt
  have second := j.second_lt
  rw [le_def]
  simp only [seconds]
  omega

theorem ext_seconds (second : i.seconds = j.seconds) (nano : i.nano = j.nano) : i = j := by
  have first := i.second_lt
  have last := j.second_lt
  simp only [seconds] at second
  cases i
  cases j
  simp only [mk.injEq] at *
  omega

theorem seconds_behind (i : Instant) (minutes : Int) : (i.behind minutes).seconds = i.seconds - 60 * minutes := by
  simp only [seconds, behind]
  omega

theorem tickCount_behind (i : Instant) (minutes : Int) :
    (i.behind minutes).tickCount = i.tickCount - minutes * ticksPerMinute := by
  have nano : (i.behind minutes).nano = i.nano := rfl
  simp only [tickCount, seconds_behind, nano, ticksPerMinute, ticksPerSecond]
  omega

section Range

theorem inRange_iff : i.inRange = true ↔ 0 ≤ i.day ∧ i.day < 3652059 := inYearRange_iff

theorem tickCount_bounds (supported : i.inRange = true) : 0 ≤ i.tickCount ∧ i.tickCount < 2 ^ 62 := by
  obtain ⟨first, last⟩ := inRange_iff.1 supported
  have second := i.second_lt
  have nano := i.nano_lt
  simp only [tickCount, seconds, ticksPerSecond]
  omega

theorem steps_fit (supported : i.inRange = true) :
    Integer.Fits (i.unixSeconds * ticksPerSecond) ∧
      Integer.Fits (i.unixSeconds * ticksPerSecond + unixEpochTicks) ∧ Integer.Fits i.tickCount := by
  obtain ⟨first, last⟩ := inRange_iff.1 supported
  have second := i.second_lt
  have nano := i.nano_lt
  have bound : Int.pow 2 63 = 2 ^ 63 := rfl
  simp only [Integer.Fits, bound, unixSeconds, tickCount, seconds, ticksPerSecond, unixEpochTicks]
  omega

theorem ticks_ok (supported : i.inRange = true) :
    ∃ n : Int64, i.ticks = .ok n ∧ n.toInt = i.tickCount := by
  obtain ⟨first, second, third⟩ := steps_fit supported
  have total : i.unixSeconds * ticksPerSecond + unixEpochTicks + i.nano / 100 = i.tickCount := by
    simp only [unixSeconds, tickCount, seconds, ticksPerSecond, unixEpochTicks]
    omega
  have word {n : Int} (fits : Integer.Fits n) : Integer.ofInt? n = some (.ofInt n) := if_pos fits
  have value {n : Int} (fits : Integer.Fits n) : (Int64.ofInt n).toInt = n := Integer.toInt_ofInt? (word fits)
  have counted : i.ticks? = some (.ofInt i.tickCount) := by
    rw [ticks?, word first, Option.bind_eq_bind, Option.bind_some, value first, word second,
      Option.bind_some, value second, total, word third]
  exact ⟨_, by rw [ticks, counted], value third⟩

end Range

section Order

theorem isLeap_iff : i.isLeap = true ↔ 1000000000 ≤ i.nano := decide_eq_true_iff

/-- A leap second runs a full second ahead of the count, so its later part counts more ticks than the
beginning of the second that follows. -/
def Overtakes (i j : Instant) : Prop :=
  i.isLeap = true ∧ j.seconds = i.seconds + 1 ∧ j.nano / 100 + 10000000 < i.nano / 100

/-- The count follows the order of instants, except where a leap second overtakes the next second. -/
theorem tickCount_le_iff (le : i ≤ j) : i.tickCount ≤ j.tickCount ↔ ¬ i.Overtakes j := by
  have first := i.nano_lt
  have second := j.nano_lt
  rw [le_iff] at le
  rw [Overtakes, isLeap_iff]
  simp only [tickCount, ticksPerSecond]
  omega

end Order

end Instant

section Parsing

variable {text : String} {i : Instant}

theorem inRange_of_parse (read : parse text = .ok i) : i.inRange = true := by
  unfold parse at read
  split at read
  · cases read
  · split at read
    · cases read
      assumption
    · cases read

theorem parse_of_toOption (read : (parse text).toOption = some i) : parse text = .ok i := by
  cases parsed : parse text with
  | ok j => simpa [parsed, Except.toOption] using read
  | error cause => simp [parsed, Except.toOption] at read

end Parsing

end Formula.Calendar
