import Formula.Calendar.Ticks
import Formula.Proofs.Dates
import Formula.Proofs.Scanning

/-! The text of a timestamp. Every instant of the supported years reads back from its own text, cut to
whole milliseconds; a leap second stays one. Each field is written with a fixed number of digits, so its
reader finds where it ends whatever follows. -/
namespace Formula.Calendar

/-- The instant with the rest of its millisecond cut off. -/
def Instant.truncated (i : Instant) : Instant :=
  { i with
    nano := i.nano / 1000000 * 1000000
    nano_lt := by
      have := i.nano_lt
      omega
    leap_ends_minute := by
      have := i.leap_ends_minute
      omega }

namespace Timestamp

section Fields

variable {width n : Nat}

theorem isDigit_padded : ∀ c ∈ padded width n, c.isDigit = true := by
  intro c member
  rcases List.mem_append.1 member with zero | digit
  · rw [List.eq_of_mem_replicate zero]
    rfl
  · exact Decimal.isDigit_of_mem_digits digit

theorem ofDigits_padded : Decimal.ofDigits (padded width n) = n := Decimal.ofDigits_zeros _ n

theorem length_padded (positive : 0 < width) (fits : n < Nat.pow 10 width) :
    (padded width n).length = width := by
  have short := Decimal.length_digits_le positive fits
  simp only [padded, List.length_append, List.length_replicate]
  omega

theorem char?_same (c : Char) (rest : List Char) : char? c (c :: rest) = some rest := if_pos rfl

theorem number?_padded (positive : 0 < width) (fits : n < Nat.pow 10 width) (rest : List Char) :
    number? width width (padded width n ++ rest) = some (n, rest) := by
  have length := length_padded positive fits
  have field : (padded width n ++ rest).take width = padded width n := List.take_left' length
  have digits : (padded width n).takeWhile Char.isDigit = padded width n :=
    List.takeWhile_eq_self_iff.2 isDigit_padded
  have after : (padded width n ++ rest).drop width = rest := List.drop_left' length
  simp only [number?, field, digits, length, Nat.lt_irrefl, if_false, ofDigits_padded, after]

theorem fraction?_padded (fits : n < Nat.pow 10 3) {rest : List Char}
    (stop : ∀ c ∈ rest.head?, c.isDigit = false) :
    fraction? ('.' :: (padded 3 n ++ rest)) = some (n * 1000000, rest) := by
  have length : (padded 3 n).length = 3 := length_padded (by decide) fits
  have nonempty : (padded 3 n).isEmpty = false := by
    rw [List.isEmpty_eq_false_iff, ← List.length_pos_iff]
    omega
  have kept : (padded 3 n).take 9 = padded 3 n := List.take_of_length_le (by omega)
  have after : (padded 3 n ++ rest).drop 3 = rest := List.drop_left' length
  simp only [fraction?, takeWhile_stop isDigit_padded stop, nonempty, kept, length, ofDigits_padded, after]
  rfl

end Fields

def chars (i : Instant) : List Char :=
  padded 4 i.date.year.toNat ++ '-' :: (padded 2 i.date.month ++ '-' :: (padded 2 i.date.day ++
    'T' :: (padded 2 (i.second / 3600) ++ ':' :: (padded 2 (i.second / 60 % 60) ++
      ':' :: (padded 2 (i.second % 60 + i.nano / 1000000000) ++
        '.' :: (padded 3 (i.nano % 1000000000 / 1000000) ++ ['Z']))))))

variable {i : Instant}

theorem year_of_inRange (supported : i.inRange = true) : 1 ≤ i.date.year ∧ i.date.year ≤ 9999 := by
  simpa [Instant.inRange, inYearRange, Instant.date, Date.year_ofNumber] using supported

theorem toList_write (supported : i.inRange = true) : (write i).toList = chars i := by
  have year := year_of_inRange supported
  have four : 0 ≤ i.date.year ∧ i.date.year ≤ 9999 := by omega
  simp [write, chars, yearText, four]

theorem strip_chars : Text.strip (chars i) = chars i := by
  apply Text.strip_of_ends
  · intro c head
    have nonempty : padded 4 i.date.year.toNat ≠ [] := by
      simp [padded, Decimal.digits]
    have member : c ∈ padded 4 i.date.year.toNat := by
      obtain ⟨d, rest, start⟩ := List.exists_cons_of_ne_nil nonempty
      simp only [chars, start, List.cons_append, List.head?_cons, Option.mem_some_iff] at head
      rw [start, head]
      exact List.mem_cons_self
    exact Text.isBlank_digit (isDigit_padded c member)
  · intro c last
    obtain rfl : c = 'Z' := by simpa [chars, List.getLast?_append, List.getLast?_cons] using last.symm
    decide

theorem day?_date (supported : i.inRange = true) :
    day? ⟨(i.date.year.toNat : Int), i.date.month, i.date.day⟩ = some i.day := by
  have year := year_of_inRange supported
  have same : (i.date.year.toNat : Int) = i.date.year := by omega
  have valid : i.date.Valid := Date.valid_ofNumber i.day
  have number : i.date.number = i.day := Date.number_ofNumber i.day
  have covered : -262143 ≤ i.date.year ∧ i.date.year ≤ 262142 := by omega
  rw [same]
  simp [day?, valid, number, covered]

/-- The clock that the text shows is the time of day, cut to milliseconds. -/
theorem instant?_clock (i : Instant) :
    instant? i.day ⟨i.second / 3600, i.second / 60 % 60, i.second % 60 + i.nano / 1000000000,
      i.nano % 1000000000 / 1000000 * 1000000⟩ = some i.truncated := by
  have day := i.second_lt
  have nano := i.nano_lt
  have ends := i.leap_ends_minute
  have shown : ¬(23 < i.second / 3600 ∨ 59 < i.second / 60 % 60 ∨
      60 < i.second % 60 + i.nano / 1000000000) := by omega
  simp only [instant?, shown, if_false]
  by_cases leap : 1000000000 ≤ i.nano
  · have sixty : i.second % 60 + i.nano / 1000000000 = 60 := by omega
    have second : 3600 * (i.second / 3600) + 60 * (i.second / 60 % 60) + 59 = i.second := by omega
    have part : i.nano % 1000000000 / 1000000 * 1000000 + 1000000000 = i.nano / 1000000 * 1000000 := by
      omega
    rw [if_pos sixty, second, part]
    exact dif_pos ⟨i.truncated.second_lt, i.truncated.nano_lt, i.truncated.leap_ends_minute⟩
  · have below : i.second % 60 + i.nano / 1000000000 = i.second % 60 := by omega
    have second : 3600 * (i.second / 3600) + 60 * (i.second / 60 % 60) + i.second % 60 = i.second := by
      omega
    have part : i.nano % 1000000000 / 1000000 * 1000000 = i.nano / 1000000 * 1000000 := by omega
    rw [below, if_neg (by omega), second, part]
    exact dif_pos ⟨i.truncated.second_lt, i.truncated.nano_lt, i.truncated.leap_ends_minute⟩

theorem behind_zero (i : Instant) : i.behind 0 = i := by
  obtain ⟨day, second, nano, within, _, _⟩ := i
  simp only [Instant.behind, Instant.mk.injEq, and_true]
  omega

theorem fields_fit (supported : i.inRange = true) :
    i.date.year.toNat < Nat.pow 10 4 ∧ i.date.month < Nat.pow 10 2 ∧ i.date.day < Nat.pow 10 2 := by
  have year := year_of_inRange supported
  obtain ⟨_, month, _, day⟩ : i.date.Valid := Date.valid_ofNumber i.day
  have short := monthLength_le i.date.year i.date.month
  exact ⟨show _ < 10000 by omega, show _ < 100 by omega, show _ < 100 by omega⟩

theorem clock_fits (i : Instant) :
    i.second / 3600 < Nat.pow 10 2 ∧ i.second / 60 % 60 < Nat.pow 10 2 ∧
      i.second % 60 + i.nano / 1000000000 < Nat.pow 10 2 ∧
      i.nano % 1000000000 / 1000000 < Nat.pow 10 3 := by
  have second := i.second_lt
  have nano := i.nano_lt
  exact ⟨show _ < 100 by omega, show _ < 100 by omega, show _ < 100 by omega, show _ < 1000 by omega⟩

/-- The text of an instant reads as a date-time with an offset. -/
theorem offsetDateTime?_chars (supported : i.inRange = true) :
    offsetDateTime? (chars i) = some i.truncated := by
  obtain ⟨year, month, day⟩ := fields_fit supported
  obtain ⟨hour, minute, second, millis⟩ := clock_fits i
  have two : 0 < 2 := by decide
  have stop : ∀ c ∈ ['Z'].head?, c.isDigit = false := by simp
  have zone : offset? ['Z'] = some (0, []) := rfl
  -- Each reader leaves the text in front of the next one, after the mark between the two.
  rw [offsetDateTime?, chars, number?_padded (by decide) year]
  dsimp only [Option.bind_eq_bind, Option.bind_some]
  rw [char?_same, Option.bind_some, number?_padded two month]
  dsimp only [Option.bind_some]
  rw [char?_same, Option.bind_some, number?_padded two day]
  dsimp only [Option.bind_some]
  rw [if_pos (.inl rfl), number?_padded two hour]
  dsimp only [Option.bind_some]
  rw [char?_same, Option.bind_some, number?_padded two minute]
  dsimp only [Option.bind_some]
  rw [char?_same, Option.bind_some, number?_padded two second]
  dsimp only [Option.bind_some]
  rw [fraction?_padded millis stop]
  dsimp only [Option.bind_some]
  rw [zone]
  dsimp only [Option.bind_some]
  rw [if_neg (by decide), day?_date supported, Option.bind_some, instant?_clock, Option.bind_some]
  exact congrArg some (behind_zero _)

theorem write_truncated (i : Instant) : write i.truncated = write i := by
  have carry : i.nano / 1000000 * 1000000 / 1000000000 = i.nano / 1000000000 := by omega
  have millis : i.nano / 1000000 * 1000000 % 1000000000 / 1000000 = i.nano % 1000000000 / 1000000 := by
    omega
  simp only [write, Instant.truncated, Instant.date, carry, millis]

end Timestamp

theorem Instant.isLeap_truncated (i : Instant) : i.truncated.isLeap = i.isLeap := by
  have kept : nanosPerSecond ≤ i.nano / 1000000 * 1000000 ↔ nanosPerSecond ≤ i.nano := by
    simp only [nanosPerSecond]
    omega
  simp only [isLeap, truncated, kept]

/-- A timestamp reads back from its text, cut to milliseconds. -/
theorem parse_write {i : Instant} (supported : i.inRange = true) :
    parse (Timestamp.write i) = .ok i.truncated := by
  have read : Timestamp.read? (Timestamp.write i) = some i.truncated := by
    rw [Timestamp.read?, Timestamp.toList_write supported, Timestamp.strip_chars,
      Timestamp.offsetDateTime?_chars supported]
    rfl
  have inRange : i.truncated.inRange = true := supported
  simp only [parse, read, inRange, if_true]

end Formula.Calendar
