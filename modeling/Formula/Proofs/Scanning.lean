import Formula.Decimal.Basic
import Formula.Text.Blank
import Mathlib.Data.List.TakeWhile

/-! Scans. A reader takes the characters that pass a test and stops at the first that does not; most of
what it takes are digits, which a number and its decimal writing determine of each other. -/
namespace Formula

section Stops

variable {p : Char → Bool} {first rest : List Char}

/-- A scan over characters that pass takes all of them and stops at the first that does not. -/
theorem takeWhile_stop (all : ∀ c ∈ first, p c = true) (stop : ∀ c ∈ rest.head?, p c = false) :
    (first ++ rest).takeWhile p = first := by
  rw [List.takeWhile_append_of_pos all]
  cases rest with
  | nil => simp
  | cons c more => simp [stop c rfl]

theorem dropWhile_stop (all : ∀ c ∈ first, p c = true) (stop : ∀ c ∈ rest.head?, p c = false) :
    (first ++ rest).dropWhile p = rest := by
  rw [List.dropWhile_append_of_pos all]
  cases rest with
  | nil => simp
  | cons c more => simp [stop c rfl]

theorem stops_dropWhile (text : List Char) : ∀ c ∈ (text.dropWhile p).head?, p c = false := by
  intro c head
  have stop := List.head?_dropWhile_not p text
  simpa [Option.mem_def.1 head] using stop

end Stops

namespace Decimal

theorem ofDigits_append (digits : List Char) (c : Char) :
    ofDigits (digits ++ [c]) = 10 * ofDigits digits + digit c := by
  simp [ofDigits]

theorem isDigit_of_mem_digits {n : Nat} {c : Char} (member : c ∈ digits n) : c.isDigit = true :=
  Nat.isDigit_of_mem_toDigits (by decide) (by decide) member

theorem ofDigits_zeros (zeros n : Nat) : ofDigits (List.replicate zeros '0' ++ digits n) = n := by
  change Nat.ofDigitChars 10 (List.replicate zeros '0' ++ digits n) 0 = n
  rw [Nat.ofDigitChars_append, Nat.ofDigitChars_replicate_zero, Nat.mul_zero]
  exact Nat.ofDigitChars_ten_toDigits

theorem length_digits_le {width n : Nat} (positive : 0 < width) (fits : n < Nat.pow 10 width) :
    (digits n).length ≤ width :=
  (Nat.length_toDigits_le_iff (by decide) positive).2 fits

end Decimal

namespace Text

theorem isBlank_digit {c : Char} (digit : c.isDigit = true) : isBlank c = false := by
  have bounds : 48 ≤ c.toNat ∧ c.toNat ≤ 57 := by
    simpa [Char.isDigit, UInt32.le_iff_toNat_le] using digit
  simp [isBlank]
  omega

theorem strip_of_ends {text : List Char} (first : ∀ c ∈ text.head?, isBlank c = false)
    (last : ∀ c ∈ text.getLast?, isBlank c = false) : strip text = text := by
  have none : ∀ c ∈ [], isBlank c = true := by simp
  have front : skipBlanks text = text := dropWhile_stop none first
  have back : skipBlanks text.reverse = text.reverse := dropWhile_stop none (by simpa using last)
  rw [strip, front, back, List.reverse_reverse]

theorem strip_visible {text : List Char} (visible : ∀ c ∈ text, isBlank c = false) : strip text = text :=
  strip_of_ends (fun c head => visible c (List.mem_of_mem_head? head))
    (fun c last => visible c (List.mem_of_mem_getLast? last))

end Text

end Formula
