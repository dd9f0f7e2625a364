import Mathlib
import Formula.Proofs.Dates

/-! The Gregorian calendar from day to day. Years and months begin in their order, so the number of a day
lies in one year and in one month of it, and a date is found again from its number. The next date has the
next number; hence the date of day `n` is the one that `n` steps lead to from 0001-01-01. -/
namespace Formula.Calendar

section Years

variable {n year : Int}

theorem yearStart_mono : Monotone yearStart := by
  apply monotone_int_of_le_succ
  intro year
  rw [yearStart_succ]
  omega

theorem le_yearOf_iff : year ≤ yearOf n ↔ yearStart year ≤ n := by
  obtain ⟨begun, later⟩ := yearOf_bounds n
  constructor
  · intro le
    exact (yearStart_mono le).trans begun
  · intro start
    exact Int.lt_add_one_iff.1 (yearStart_mono.reflect_lt (start.trans_lt later))

theorem yearOf_unique (begun : yearStart year ≤ n) (later : n < yearStart (year + 1)) : yearOf n = year := by
  apply le_antisymm
  · have after : yearStart (yearOf n) ≤ n := (yearOf_bounds n).1
    exact Int.lt_add_one_iff.1 (yearStart_mono.reflect_lt (after.trans_lt later))
  · exact le_yearOf_iff.2 begun

/-- The supported years are those of the first 3652059 days. -/
theorem inYearRange_iff : inYearRange n = true ↔ 0 ≤ n ∧ n < 3652059 := by
  have first : yearStart 1 = 0 := rfl
  have last : yearStart 10000 = 3652059 := rfl
  have low : 1 ≤ yearOf n ↔ 0 ≤ n := by rw [le_yearOf_iff, first]
  have high : 10000 ≤ yearOf n ↔ 3652059 ≤ n := by rw [le_yearOf_iff, last]
  rw [inYearRange, Bool.and_eq_true, decide_eq_true_iff, decide_eq_true_iff]
  omega

end Years

section Months

variable {leap : Bool} {a b day : Nat}

/-- The days of a year before its month `month + 1`. -/
def daysBefore (leap : Bool) (month : Nat) : Nat := ((monthLengths leap).take month).sum

theorem daysBefore_succ (leap : Bool) (month : Nat) :
    daysBefore leap (month + 1) = daysBefore leap month + (monthLengths leap)[month]?.getD 0 := by
  rw [daysBefore, List.take_add_one, List.sum_append]
  cases (monthLengths leap)[month]? <;> simp [daysBefore]

theorem daysBefore_mono (leap : Bool) : Monotone (daysBefore leap) := by
  apply monotone_nat_of_le_succ
  intro month
  rw [daysBefore_succ]
  omega

theorem daysBefore_twelve (leap : Bool) : daysBefore leap 12 = (monthLengths leap).sum := by
  rw [daysBefore, List.take_of_length_le (length_monthLengths _).le]

theorem month_unique (first : daysBefore leap a < day) (second : day ≤ daysBefore leap (a + 1))
    (third : daysBefore leap b < day) (fourth : day ≤ daysBefore leap (b + 1)) : a = b := by
  have left : a < b + 1 := (daysBefore_mono leap).reflect_lt (first.trans_le fourth)
  have right : b < a + 1 := (daysBefore_mono leap).reflect_lt (third.trans_le second)
  omega

end Months

namespace Date

variable {d e : Date}

/-- The day of the year, the first being 1. -/
def dayOfYear (d : Date) : Nat := daysBefore (isLeap d.year) (d.month - 1) + d.day

theorem number_eq (d : Date) : d.number = yearStart d.year + d.dayOfYear - 1 := by
  have sum : List.foldl Nat.add 0 ((monthLengths (isLeap d.year)).take (d.month - 1)) =
      daysBefore (isLeap d.year) (d.month - 1) := List.sum_eq_foldl_nat.symm
  rw [number, dayOfYear, sum]
  push_cast
  omega

theorem Valid.end_of_month (valid : d.Valid) : d.dayOfYear ≤ daysBefore (isLeap d.year) (d.month - 1 + 1) := by
  obtain ⟨_, _, _, within⟩ := valid
  rw [daysBefore_succ, dayOfYear]
  exact Nat.add_le_add_left within _

theorem Valid.bounds (valid : d.Valid) : yearStart d.year ≤ d.number ∧ d.number < yearStart (d.year + 1) := by
  have within := valid.end_of_month
  obtain ⟨_, last, positive, _⟩ := valid
  have total := daysBefore_twelve (isLeap d.year)
  have ends := daysBefore_mono (isLeap d.year) (show d.month - 1 + 1 ≤ 12 by omega)
  have next := yearStart_succ d.year
  have first : 1 ≤ d.dayOfYear := positive.trans (Nat.le_add_left _ _)
  rw [number_eq]
  omega

theorem number_injective (first : d.Valid) (second : e.Valid) (same : d.number = e.number) : d = e := by
  have year : d.year = e.year := by
    rw [← yearOf_unique first.bounds.1 first.bounds.2, same, yearOf_unique second.bounds.1 second.bounds.2]
  have day : d.dayOfYear = e.dayOfYear := by
    rw [number_eq, number_eq, year] at same
    omega
  have ends := first.end_of_month
  have ends' := second.end_of_month
  have positive : 1 ≤ d.month ∧ 1 ≤ d.day := ⟨first.1, first.2.2.1⟩
  have positive' : 1 ≤ e.month ∧ 1 ≤ e.day := ⟨second.1, second.2.2.1⟩
  rw [year] at ends
  have month : d.month - 1 = e.month - 1 := by
    refine month_unique ?_ ends ?_ (day ▸ ends')
    · rw [dayOfYear, year]
      omega
    · rw [day, dayOfYear]
      omega
  simp only [dayOfYear, year, month] at day
  cases d
  cases e
  simp only [mk.injEq] at *
  omega

/-- The next date: the next day of the month, or the first day of the next month, or of the next year. -/
def next (d : Date) : Date :=
  if d.day < monthLength d.year d.month then { d with day := d.day + 1 }
  else if d.month < 12 then ⟨d.year, d.month + 1, 1⟩
  else ⟨d.year + 1, 1, 1⟩

theorem one_le_monthLength (year : Int) {month : Nat} (first : 1 ≤ month) (last : month ≤ 12) :
    1 ≤ monthLength year month := by
  have full : ∀ leap, ∀ index < 12, 1 ≤ (monthLengths leap)[index]?.getD 0 := by decide
  exact full (isLeap year) (month - 1) (by omega)

theorem Valid.next (valid : d.Valid) : d.next.Valid := by
  obtain ⟨first, last, positive, within⟩ := valid
  unfold Date.next
  split
  · rename_i inside
    exact ⟨first, last, Nat.succ_pos _, inside⟩
  · split
    · rename_i more
      exact ⟨Nat.succ_pos _, more, le_refl 1, one_le_monthLength d.year (Nat.succ_pos _) more⟩
    · have january : 1 ≤ 12 := by decide
      exact ⟨le_refl 1, january, le_refl 1, one_le_monthLength (d.year + 1) (le_refl 1) january⟩

theorem Valid.number_next (valid : d.Valid) : d.next.number = d.number + 1 := by
  obtain ⟨first, last, positive, within⟩ := valid
  have full := daysBefore_succ (isLeap d.year) (d.month - 1)
  rw [show d.month - 1 + 1 = d.month by omega] at full
  change daysBefore _ _ = _ + monthLength d.year d.month at full
  unfold Date.next
  split
  · rw [number_eq, number_eq]
    simp only [dayOfYear]
    omega
  · split
    · rw [number_eq, number_eq]
      simp only [dayOfYear, Nat.add_sub_cancel]
      omega
    · -- The last day of the last month is the last day of the year.
      have december : d.month = 12 := by omega
      have total := daysBefore_twelve (isLeap d.year)
      have start : daysBefore (isLeap (d.year + 1)) 0 = 0 := rfl
      have next := yearStart_succ d.year
      rw [number_eq, number_eq]
      simp only [dayOfYear, december, start] at *
      omega

theorem ofNumber_succ (n : Int) : ofNumber (n + 1) = (ofNumber n).next := by
  apply number_injective (valid_ofNumber _) (valid_ofNumber n).next
  rw [number_ofNumber, (valid_ofNumber n).number_next, number_ofNumber]

/-- The date of a day is the one that as many steps lead to from 0001-01-01. -/
theorem ofNumber_iterate (n : Nat) : ofNumber n = next^[n] ⟨1, 1, 1⟩ := by
  induction n with
  | zero => decide
  | succ n ih =>
    rw [Function.iterate_succ_apply', ← ih, ← ofNumber_succ]
    rfl

end Date

end Formula.Calendar
