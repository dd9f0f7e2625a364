import Formula.Proofs.Shifts

/-! Fields of the calendar in expressions. They are those of the date that the whole days in the count of
ticks lead to from 0001-01-01, so a shift by a day goes on to the next day of the week. -/
namespace Formula

open Calendar (Instant Date parse ticksPerDay weekday)

namespace Calendar.Instant

variable {i : Instant}

/-- Outside leap seconds the whole days in the count are the number of the day. -/
theorem tickCount_days (ordinary : i.isLeap = false) : i.tickCount / ticksPerDay = i.day := by
  have second := i.second_lt
  have nano := nano_of_ordinary ordinary
  simp only [tickCount, seconds, ticksPerDay, ticksPerHour, ticksPerMinute, ticksPerSecond]
  omega

theorem date_eq_iterate (supported : i.inRange = true) : i.date = Date.next^[i.day.toNat] ⟨1, 1, 1⟩ := by
  have first := (inRange_iff.1 supported).1
  rw [← Date.ofNumber_iterate, Int.toNat_of_nonneg first]
  rfl

theorem weekday_tomorrow (i : Instant) : weekday (i.later 24).day = (weekday i.day + 1) % 7 := by
  have tomorrow : (i.later 24).day = i.day + 1 := congrArg Instant.day (i.later_days 1)
  rw [tomorrow, weekday, weekday]
  omega

end Calendar.Instant

namespace Builtins

def calendarFields : List (String × (Instant → Int)) :=
  [("dayOfMonth", fun i => i.date.day), ("dayOfWeek", fun i => weekday i.day), ("year", fun i => i.date.year)]

theorem find?_calendarField : ∀ field ∈ calendarFields,
    Registry.builtins.find? field.1 = some (calendarField field.1 field.2) := by
  rw [Registry.builtins_eq]
  simp only [calendarFields, List.forall_mem_cons, List.not_mem_nil, false_imp_iff, implies_true, and_true]
  exact ⟨rfl, rfl, rfl⟩

theorem calendarField_bounds {i : Instant} (supported : i.inRange = true) :
    ∀ field ∈ calendarFields, 0 ≤ field.2 i ∧ field.2 i < 10000 := by
  obtain ⟨first, last⟩ := Instant.inRange_iff_year.1 supported
  have day : i.date.day ≤ 31 := (Date.valid_ofNumber i.day).2.2.2.trans (Calendar.monthLength_le _ _)
  have week : 0 ≤ weekday i.day ∧ weekday i.day < 7 := by
    rw [weekday]
    omega
  simp only [calendarFields, List.forall_mem_cons, List.not_mem_nil, false_imp_iff, implies_true, and_true]
  omega

end Builtins

namespace Expr

variable {options : Options} {depth : Nat} {memory : Memory} {x : Expr} {i : Instant}

/-- On a timestamp a field is always there, and it is that of the date in Universal Time. -/
theorem evalAt_calendarField {field : String × (Instant → Int)} (member : field ∈ Builtins.calendarFields)
    (reads : Reads options (depth + 1) memory x i) :
    ∃ n : Int64, (call field.1 [x]).evalAt .builtins options depth memory = .ok (.int n) ∧
      n.toInt = field.2 i := by
  obtain ⟨low, high⟩ := Builtins.calendarField_bounds reads.inRange field member
  obtain ⟨text, value, parsed⟩ := reads
  obtain ⟨use, -, computed⟩ := evalAt_strict_unary (Builtins.find?_calendarField field member) (by rfl)
    ⟨value, Check.admits_some rfl⟩
  refine ⟨.ofInt (field.2 i), ?_, Int64.toInt_ofInt_of_le (by omega) (by omega)⟩
  rw [computed, Builtins.field, Builtins.timestamp_parsed use parsed]
  rfl

/-- The fields of a timestamp follow from its ticks. Outside leap seconds the whole days in the
count are the steps that lead to the date from 0001-01-01; year and day of the month are those of this date,
and the day of the week goes on with every step from the Monday of 0001-01-01. So the day after is the next
day of the week. -/
theorem calendar_fields_of_ticks :
    (∀ options depth memory x i, Reads options (depth + 1) memory x i → i.isLeap = false →
      ∃ n week year day : Int64,
        (call "ticks" [x]).evalAt .builtins options depth memory = .ok (.int n) ∧
        (call "dayOfWeek" [x]).evalAt .builtins options depth memory = .ok (.int week) ∧
        (call "year" [x]).evalAt .builtins options depth memory = .ok (.int year) ∧
        (call "dayOfMonth" [x]).evalAt .builtins options depth memory = .ok (.int day) ∧
        let days := n.toInt / ticksPerDay
        let date := Date.next^[days.toNat] ⟨1, 1, 1⟩
        0 ≤ days ∧ week.toInt = (days + 1) % 7 ∧ year.toInt = date.year ∧ day.toInt = date.day) ∧
    (∀ options depth memory x one i w, Reads options (depth + 2) memory x i → i.isLeap = false →
      one.evalAt .builtins options (depth + 2) memory = .ok (.int 1) →
      (call "addDays" [x, one]).evalAt .builtins options (depth + 1) memory = .ok w →
        ∃ today tomorrow : Int64,
          (call "dayOfWeek" [x]).evalAt .builtins options depth memory = .ok (.int today) ∧
          (call "dayOfWeek" [call "addDays" [x, one]]).evalAt .builtins options depth memory =
            .ok (.int tomorrow) ∧
          tomorrow.toInt = (today.toInt + 1) % 7) := by
  have week : ("dayOfWeek", fun i : Instant => weekday i.day) ∈ Builtins.calendarFields := .tail _ (.head _)
  have year : ("year", fun i : Instant => i.date.year) ∈ Builtins.calendarFields :=
    .tail _ (.tail _ (.head _))
  have day : ("dayOfMonth", fun i : Instant => (i.date.day : Int)) ∈ Builtins.calendarFields := .head _
  constructor
  · intro options depth memory x i reads ordinary
    have supported := reads.inRange
    obtain ⟨n, counted, exact⟩ := evalAt_ticks reads
    obtain ⟨w, value, first⟩ := evalAt_calendarField week reads
    obtain ⟨y, value', second⟩ := evalAt_calendarField year reads
    obtain ⟨d, value'', third⟩ := evalAt_calendarField day reads
    refine ⟨n, w, y, d, counted, value, value', value'', ?_⟩
    rw [exact, Instant.tickCount_days ordinary]
    intro days date
    have stepped : date = i.date := (Instant.date_eq_iterate supported).symm
    rw [stepped]
    exact ⟨(Instant.inRange_iff.1 supported).1, first, second, third⟩
  · intro options depth memory x one i w reads ordinary amount value
    have next := reads_shift .day reads ordinary amount value
    have higher : depth + 1 ≤ depth + 2 := by omega
    obtain ⟨today, here, first⟩ := evalAt_calendarField week (reads.shallower higher)
    obtain ⟨tomorrow, there, second⟩ := evalAt_calendarField week next
    refine ⟨today, tomorrow, here, there, ?_⟩
    rw [first, second]
    exact i.weekday_tomorrow

/-- The last evening of the first year, a Monday, on a clock that shows the second. -/
theorem calendar_fields_of_ticks_eve :
    let stamp : Expr := .constant (.str "0002-01-01T01:00:00+02:00")
    let one : Expr := .constant (.int 1)
    (call "dayOfWeek" [stamp]).eval .builtins {} .empty = .ok (.int 1) ∧
      (call "year" [stamp]).eval .builtins {} .empty = .ok (.int 1) ∧
      (call "dayOfMonth" [stamp]).eval .builtins {} .empty = .ok (.int 31) ∧
      (call "dayOfWeek" [call "addDays" [stamp, one]]).eval .builtins {} .empty = .ok (.int 2) := by
  intro stamp one
  obtain ⟨fields, following⟩ := calendar_fields_of_ticks
  let i : Instant := ⟨364, 82800, 0, by decide, by decide, by decide⟩
  have read : parse "0002-01-01T01:00:00+02:00" = .ok i := Calendar.parse_of_toOption (by decide +kernel)
  have reads (level : Nat) (room : level < 1000) : Reads {} level .empty stamp i := reads_constant room read
  obtain ⟨n, week, year, day, counted, first, second, third, -, weeks, years, days⟩ :=
    fields {} 0 .empty stamp i (reads 1 (by decide)) (by decide)
  obtain ⟨n', counted', exact⟩ := evalAt_ticks (reads 1 (by decide))
  obtain rfl : n' = n := by simpa using counted'.symm.trans counted
  rw [exact] at weeks years days
  obtain rfl : week = 1 := Int64.toInt_inj.1 (weeks.trans (by decide))
  obtain rfl : year = 1 := Int64.toInt_inj.1 (years.trans (by decide +kernel))
  obtain rfl : day = 31 := Int64.toInt_inj.1 (days.trans (by decide +kernel))
  have amount : one.evalAt .builtins {} 2 .empty = .ok (.int 1) := evalAt_constant (by decide) _ _
  have shifted := evalAt_shift .day (reads 2 (by decide)) (by decide) amount
  obtain ⟨today, tomorrow, here, there, after⟩ :=
    following {} 0 .empty stamp one i _ (reads 2 (by decide)) (by decide) amount
      (shifted.trans (if_pos (by decide +kernel)))
  obtain rfl : today = 1 := by simpa using here.symm.trans first
  obtain rfl : tomorrow = 2 := Int64.toInt_inj.1 (after.trans (by decide))
  exact ⟨first, second, third, there⟩

end Expr

end Formula
