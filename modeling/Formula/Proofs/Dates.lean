import Formula.Calendar.Date
import Mathlib.Algebra.GroupWithZero.Nat

/-! Days and dates. The number of a day and its date determine each other: the year is the one whose
days surround the number, and month and day are found by counting off the lengths of the months. -/
namespace Formula.Calendar

/-- A month and a day of it, `offset` days after the start of the first of these months. -/
structure Counted (start : Nat) (lengths : List Nat) (offset month day : Nat) : Prop where
  first : start ≤ month
  inside : month < start + lengths.length
  positive : 1 ≤ day
  within : day ≤ lengths[month - start]?.getD 0
  total : (lengths.take (month - start)).sum + day = offset + 1

theorem monthAndDay_counted {lengths : List Nat} {offset : Nat} (inside : offset < lengths.sum)
    (start : Nat) : Counted start lengths offset (monthAndDay start lengths offset).1
      (monthAndDay start lengths offset).2 := by
  induction lengths generalizing start offset with
  | nil => simp at inside
  | cons length rest ih =>
    rw [List.sum_cons] at inside
    unfold monthAndDay
    by_cases here : offset < length
    · rw [if_pos here]
      exact ⟨by omega, by simp, by omega, by simp; omega, by simp⟩
    · rw [if_neg here]
      have left : offset - length < rest.sum := by omega
      obtain ⟨first, within, positive, fits, total⟩ := ih left (start + 1)
      generalize (monthAndDay (start + 1) rest (offset - length)).1 = month at *
      generalize (monthAndDay (start + 1) rest (offset - length)).2 = day at *
      have further : month - start = month - (start + 1) + 1 := by omega
      refine ⟨by omega, by simp; omega, positive, ?_, ?_⟩
      · rw [further, List.getElem?_cons_succ]
        exact fits
      · rw [further, List.take_succ_cons, List.sum_cons]
        omega

theorem sum_monthLengths (leap : Bool) : (monthLengths leap).sum = if leap then 366 else 365 := by
  cases leap <;> rfl

theorem length_monthLengths (leap : Bool) : (monthLengths leap).length = 12 := by
  cases leap <;> rfl

theorem monthLength_le (year : Int) (month : Nat) : monthLength year month ≤ 31 := by
  have short : ∀ leap, ∀ length ∈ monthLengths leap, length ≤ 31 := by decide
  unfold monthLength
  cases present : (monthLengths (isLeap year))[month - 1]? with
  | none => simp
  | some length => exact short _ length (List.mem_of_getElem? present)

theorem yearStart_succ (year : Int) :
    yearStart (year + 1) = yearStart year + (monthLengths (isLeap year)).sum := by
  rw [sum_monthLengths]
  by_cases leap : isLeap year = true
  · rw [if_pos leap]
    simp only [isLeap, Bool.and_eq_true, Bool.or_eq_true, beq_iff_eq, bne_iff_ne] at leap
    simp only [yearStart]
    omega
  · rw [if_neg leap]
    simp only [isLeap, Bool.and_eq_true, Bool.or_eq_true, beq_iff_eq, bne_iff_ne] at leap
    simp only [yearStart]
    omega

namespace Date

variable (n : Int)

theorem year_ofNumber : (ofNumber n).year = yearOf n := rfl

theorem counted_ofNumber : Counted 1 (monthLengths (isLeap (yearOf n)))
    (n - yearStart (yearOf n)).toNat (ofNumber n).month (ofNumber n).day := by
  apply monthAndDay_counted
  have bounds := yearOf_bounds n
  have next := yearStart_succ (yearOf n)
  omega

theorem valid_ofNumber : (ofNumber n).Valid := by
  have counted := counted_ofNumber n
  have inside := counted.inside
  rw [length_monthLengths] at inside
  refine ⟨counted.first, by omega, counted.positive, ?_⟩
  exact counted.within

theorem number_ofNumber : (ofNumber n).number = n := by
  have total := (counted_ofNumber n).total
  have bounds := yearOf_bounds n
  rw [List.sum_eq_foldl_nat] at total
  change List.foldl Nat.add 0 _ + _ = _ at total
  simp only [number, year_ofNumber]
  omega

end Date

end Formula.Calendar
