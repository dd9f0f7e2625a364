/-! The proleptic Gregorian calendar. Days are numbered from 0001-01-01, which is day 0 and a
Monday; years before 1 are 0, -1 and so on. -/
namespace Formula.Calendar

def isLeap (year : Int) : Bool := year % 4 == 0 && (year % 100 != 0 || year % 400 == 0)

/-- The number of the first day of a year. -/
def yearStart (year : Int) : Int :=
  365 * (year - 1) + (year - 1) / 4 - (year - 1) / 100 + (year - 1) / 400

def monthLengths (leap : Bool) : List Nat :=
  [31, if leap then 29 else 28, 31, 30, 31, 30, 31, 31, 30, 31, 30, 31]

def monthLength (year : Int) (month : Nat) : Nat :=
  (monthLengths (isLeap year))[month - 1]?.getD 0

structure Date where
  year : Int
  month : Nat
  day : Nat
  deriving DecidableEq, Repr

namespace Date

def Valid (d : Date) : Prop :=
  1 ≤ d.month ∧ d.month ≤ 12 ∧ 1 ≤ d.day ∧ d.day ≤ monthLength d.year d.month

instance (d : Date) : Decidable d.Valid := inferInstanceAs (Decidable (_ ∧ _))

def number (d : Date) : Int :=
  yearStart d.year + ((monthLengths (isLeap d.year)).take (d.month - 1)).foldl Nat.add 0 + d.day - 1

end Date

/-- A year has 146097 / 400 days on average. -/
def guessYear (n : Int) : Int := 400 * n / 146097 + 1

theorem guessYear_near (n : Int) :
    yearStart (guessYear n - 1) ≤ n ∧ n < yearStart (guessYear n + 1 + 1) := by
  simp only [yearStart, guessYear]
  omega

/-- The guess is at most one year off. -/
def yearOf (n : Int) : Int :=
  if n < yearStart (guessYear n) then guessYear n - 1
  else if yearStart (guessYear n + 1) ≤ n then guessYear n + 1
  else guessYear n

theorem yearOf_bounds (n : Int) : yearStart (yearOf n) ≤ n ∧ n < yearStart (yearOf n + 1) := by
  obtain ⟨low, high⟩ := guessYear_near n
  unfold yearOf
  split
  · rename_i before
    exact ⟨low, by simpa using before⟩
  · split
    · rename_i after
      exact ⟨after, high⟩
    · exact ⟨by omega, by omega⟩

/-- Month and day of the day that lies `offset` days after the start of month `month`. -/
def monthAndDay (month : Nat) : List Nat → Nat → Nat × Nat
  | [], offset => (month, offset + 1)
  | length :: rest, offset =>
    if offset < length then (month, offset + 1) else monthAndDay (month + 1) rest (offset - length)

def Date.ofNumber (n : Int) : Date :=
  let year := yearOf n
  let (month, day) := monthAndDay 1 (monthLengths (isLeap year)) (n - yearStart year).toNat
  ⟨year, month, day⟩

/-- Counts from 0 for Sunday to 6 for Saturday. -/
def weekday (n : Int) : Int := (n + 1) % 7

/-- The range of years with four digits and an exact tick count. -/
def inYearRange (n : Int) : Bool := 1 ≤ yearOf n && yearOf n ≤ 9999

end Formula.Calendar
