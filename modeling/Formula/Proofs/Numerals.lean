import Formula.Culture
import Formula.Proofs.Scanning
import Formula.Proofs.ShortestDigits

/-! Numerals. The text of a number is digits, with a point between some of them where it has a fraction, and a
minus in front where it is negative. It is read as the number it shows, in the writing of every culture. -/
namespace Formula

open Decimal Float.Model UnpackedFloat

namespace Numeral

/-- Digits without sign and exponent, and the decimal that they are read as. -/
inductive Shows : List Char → Decimal → Prop
  | whole {text : List Char} (some : text ≠ []) (digits : ∀ c ∈ text, c.isDigit = true) :
      Shows text ⟨ofDigits text, 0⟩
  | pointed {whole fraction : List Char} (some : whole ≠ []) (digits : ∀ c ∈ whole, c.isDigit = true)
      (digits' : ∀ c ∈ fraction, c.isDigit = true) :
      Shows (whole ++ '.' :: fraction) ⟨ofDigits (whole ++ fraction), -fraction.length⟩

/-- Without the characters that a reader skips or changes. -/
def Plain (text : List Char) : Prop := ∀ c ∈ text, c ≠ ',' ∧ Text.isBlank c = false

section Writing

theorem digits_ne_nil (n : Nat) : digits n ≠ [] := Nat.toDigits_ne_nil

theorem isDigit_zeros {k : Nat} {c : Char} (member : c ∈ List.replicate k '0') : c.isDigit = true := by
  rw [List.eq_of_mem_replicate member]
  rfl

theorem ofDigits_scaled (n k : Nat) : ofDigits (digits n ++ List.replicate k '0') = 10 ^ k * n := by
  change Nat.ofDigitChars 10 (Nat.toDigits 10 n ++ List.replicate k '0') 0 = _
  rw [Nat.ofDigitChars_append, Nat.ofDigitChars_replicate_zero, Nat.ofDigitChars_ten_toDigits]

theorem ofDigits_digits (n : Nat) : ofDigits (digits n) = n := ofDigits_zeros 0 n

theorem shows_digits (n : Nat) : Shows (digits n) ⟨n, 0⟩ := by
  have shows := Shows.whole (digits_ne_nil n) fun c member => isDigit_of_mem_digits member
  rwa [ofDigits_digits] at shows

theorem shows_positionalText (d : Decimal) :
    ∃ shown, Shows (positionalText false d) shown ∧ shown.value = d.value := by
  obtain ⟨n, e⟩ := d
  have all : ∀ c ∈ digits n, c.isDigit = true := fun c member => isDigit_of_mem_digits member
  by_cases natural : 0 ≤ e
  · obtain ⟨k, rfl⟩ := Int.eq_ofNat_of_zero_le natural
    have text : positionalText false ⟨n, k⟩ = digits n ++ List.replicate k '0' := by simp [positionalText]
    rw [text]
    refine ⟨_, .whole ?_ ?_, ?_⟩
    · simp [digits_ne_nil]
    · exact fun c member => (List.mem_append.1 member).elim (all c) isDigit_zeros
    · simp [value, ofDigits_scaled, mul_comm]
  · by_cases inside : 0 < (digits n).length + e
    · obtain ⟨k, place⟩ : ∃ k : Nat, (digits n).length + e = k := ⟨_, (Int.toNat_of_nonneg inside.le).symm⟩
      have text : positionalText false ⟨n, e⟩ = (digits n).take k ++ '.' :: (digits n).drop k := by
        simp only [positionalText, if_neg natural, place, if_pos (place ▸ inside), Int.toNat_natCast]
      rw [text]
      refine ⟨_, .pointed ?_ ?_ ?_, congrArg value ?_⟩
      · simp [digits_ne_nil]
        omega
      · exact fun c member => all c (List.mem_of_mem_take member)
      · exact fun c member => all c (List.mem_of_mem_drop member)
      · rw [List.take_append_drop, ofDigits_digits, List.length_drop]
        congr 1
        omega
    · obtain ⟨k, place⟩ : ∃ k : Nat, (digits n).length + e = -k := ⟨(-((digits n).length + e)).toNat, by omega⟩
      have text : positionalText false ⟨n, e⟩ = ['0'] ++ '.' :: (List.replicate k '0' ++ digits n) := by
        simp [positionalText, natural, place]
      rw [text]
      refine ⟨_, .pointed ?_ ?_ ?_, congrArg value ?_⟩
      · simp
      · simp
      · exact fun c member => (List.mem_append.1 member).elim isDigit_zeros (all c)
      · have zeros : ['0'] ++ (List.replicate k '0' ++ digits n) = List.replicate (k + 1) '0' ++ digits n := rfl
        rw [zeros, ofDigits_zeros, List.length_append, List.length_replicate]
        congr 1
        omega

end Writing

section Reading

variable {text : List Char} {d : Decimal}

theorem Shows.first (shows : Shows text d) : ∃ c rest, text = c :: rest ∧ c.isDigit = true := by
  cases shows with
  | whole some digits =>
    obtain ⟨c, rest, rfl⟩ := List.exists_cons_of_ne_nil some
    exact ⟨c, rest, rfl, digits c List.mem_cons_self⟩
  | pointed some digits =>
    obtain ⟨c, rest, rfl⟩ := List.exists_cons_of_ne_nil some
    exact ⟨c, _, rfl, digits c List.mem_cons_self⟩

theorem Shows.chars (shows : Shows text d) : ∀ c ∈ text, c.isDigit = true ∨ c = '.' := by
  cases shows with
  | whole some digits => exact fun c member => .inl (digits c member)
  | pointed some digits digits' =>
    intro c member
    rcases List.mem_append.1 member with before | after
    · exact .inl (digits c before)
    · rcases List.mem_cons.1 after with rfl | after
      · exact .inr rfl
      · exact .inl (digits' c after)

theorem Shows.sign (shows : Shows text d) (s : Sign) :
    Numeral.sign (signText s ++ text) = (s == .negative, text) := by
  cases s with
  | negative => rfl
  | positive =>
    obtain ⟨c, rest, rfl, digit⟩ := shows.first
    change Numeral.sign (c :: rest) = (false, c :: rest)
    unfold Numeral.sign
    split
    · rename_i same
      cases same
      exact absurd digit (by decide)
    · rename_i same
      cases same
      exact absurd digit (by decide)
    · rfl

theorem Shows.integer? (shows : Shows text d) (s : Sign) :
    Numeral.integer? (signText s ++ text) = (natural? text).bind fun n => Integer.ofInt? (s.apply n) := by
  rw [Numeral.integer?, shows.sign s]
  cases s <;> rfl

theorem natural?_pointed (whole fraction : List Char) : natural? (whole ++ '.' :: fraction) = none := by
  simp [natural?]

theorem natural?_digits (some : text ≠ []) (digits : ∀ c ∈ text, c.isDigit = true) :
    natural? text = .some (ofDigits text) := by
  rw [natural?, List.isEmpty_eq_false_iff.2 some, List.all_eq_true.2 digits]
  rfl

theorem integer?_digits (s : Sign) (n : Nat) :
    Numeral.integer? (signText s ++ digits n) = Integer.ofInt? (s.apply n) := by
  have number := natural?_digits (digits_ne_nil n) fun c member => isDigit_of_mem_digits member
  rw [(shows_digits n).integer?, number, ofDigits_digits]
  rfl

theorem spanDigits_stop {rest : List Char} (digits : ∀ c ∈ text, c.isDigit = true)
    (stop : ∀ c ∈ rest.head?, c.isDigit = false) : spanDigits (text ++ rest) = (text, rest) := by
  rw [spanDigits, takeWhile_stop digits stop, dropWhile_stop digits stop]

theorem Shows.unsigned? (shows : Shows text d) : Numeral.unsigned? text = some d := by
  have stop : ∀ c ∈ ([] : List Char).head?, c.isDigit = false := by simp
  cases shows with
  | whole some digits =>
    have scanned := spanDigits_stop digits stop
    rw [List.append_nil] at scanned
    simp [Numeral.unsigned?, scanned, some, exponent?]
  | @pointed whole fraction some digits digits' =>
    have scanned : spanDigits (whole ++ '.' :: fraction) = _ := spanDigits_stop digits (by simp)
    have scanned' := spanDigits_stop digits' stop
    rw [List.append_nil] at scanned'
    simp [Numeral.unsigned?, scanned, scanned', some, exponent?]

theorem Shows.plain (shows : Shows text d) (s : Sign) : Plain (signText s ++ text) := by
  intro c member
  rcases List.mem_append.1 member with sign | rest
  · cases s with
    | positive => cases sign
    | negative =>
      rw [signText, List.mem_singleton] at sign
      rw [sign]
      decide
  · rcases shows.chars c rest with digit | rfl
    · refine ⟨?_, Text.isBlank_digit digit⟩
      rintro rfl
      exact absurd digit (by decide)
    · decide

theorem Shows.double? (shows : Shows text d) (s : Sign) (finite : d.toFloat.isFinite = true) :
    Numeral.double? (signText s ++ text) = some (Binary64.withSign s d.toFloat) := by
  rw [Numeral.double?, shows.sign s]
  simp only [shows.unsigned?, finite, if_true]
  cases s <;> rfl

/-- A whole numeral is converted from the integer as it is from the digits. -/
theorem Shows.ofInt (shows : Shows text d) {s : Sign} {word : Int64} (nonzero : d.coefficient ≠ 0)
    (read : Numeral.integer? (signText s ++ text) = some word) :
    Float.ofInt word.toInt = Binary64.withSign s d.toFloat := by
  rw [shows.integer?] at read
  cases shows with
  | whole some digits =>
    rw [natural?_digits some digits] at read
    rw [Integer.toInt_ofInt? read]
    generalize ofDigits text = n at nonzero
    cases s with
    | positive => rfl
    | negative =>
      obtain ⟨k, rfl⟩ := Nat.exists_eq_succ_of_ne_zero nonzero
      rfl
  | pointed =>
    rw [natural?_pointed] at read
    cases read

/-- A numeral is read as a finite double or not at all, however long it is. -/
theorem isFinite_of_double? {x : Float} (read : Numeral.double? text = some x) : x.isFinite = true := by
  simp only [Numeral.double?] at read
  split at read
  · cases read
  · split at read
    · rename_i finite
      cases read
      split
      · obtain ⟨v, denoted⟩ := Option.isSome_iff_exists.1 ((Binary64.isSome_rational? _).trans finite)
        rw [← Binary64.isSome_rational?, Binary64.rational?_neg denoted, Option.isSome_some]
      · exact finite
    · cases read

end Reading

end Numeral

namespace Culture

open Binary64

variable {tag : Option String} {text : List Char} {x : Float}

/-- A numeral with the decimal mark of the culture. -/
def marked (tag : Option String) (text : List Char) : List Char :=
  if usesComma tag then text.map fun c => if c = '.' then ',' else c else text

theorem normalize_marked (plain : Numeral.Plain text) :
    normalize tag (Text.strip (marked tag text)) = text := by
  by_cases comma : usesComma tag = true
  · have shown : marked tag text = text.map fun c => if c = '.' then ',' else c := if_pos comma
    have visible : ∀ c ∈ marked tag text, Text.isBlank c = false := by
      simp only [shown, List.forall_mem_map]
      intro c member
      split
      · decide
      · exact (plain c member).2
    have kept : (marked tag text).filter (· != '.') = marked tag text := by
      refine List.filter_eq_self.2 ?_
      simp only [shown, List.forall_mem_map]
      intro c member
      split <;> simp [*]
    rw [Text.strip_visible visible, normalize, if_pos comma, kept, shown, List.map_map]
    refine (List.map_congr_left fun c member => ?_).trans (List.map_id text)
    by_cases point : c = '.'
    · simp [point]
    · simp [point, (plain c member).1]
  · rw [marked, if_neg comma, Text.strip_visible fun c member => (plain c member).2, normalize, if_neg comma]

theorem marked_whole (whole : ∀ c ∈ text, c ≠ '.') : marked tag text = text := by
  unfold marked
  split
  · exact (List.map_congr_left fun c member => if_neg (whole c member)).trans (List.map_id text)
  · rfl

theorem read?_marked_integer (tag : Option String) {n : Int64} (plain : Numeral.Plain text)
    (integer : Numeral.integer? text = some n) :
    read? tag (String.ofList (marked tag text)) = some (.whole n) := by
  simp only [read?, String.toList_ofList, normalize_marked plain, integer]

theorem read?_marked_double (tag : Option String) (plain : Numeral.Plain text)
    (fractional : Numeral.integer? text = none) (double : Numeral.double? text = some x) :
    read? tag (String.ofList (marked tag text)) = some (.double x) := by
  simp only [read?, String.toList_ofList, normalize_marked plain, fractional, double, Option.map_some]

def Reading.toFloat : Reading → Float
  | .whole n => .ofInt n.toInt
  | .double x => x

theorem isFinite_of_read? {text : String} (read : read? tag text = some (.double x)) : x.isFinite = true := by
  simp only [read?] at read
  split at read
  · cases read
  · obtain ⟨y, double, same⟩ := Option.map_eq_some_iff.1 read
    cases same
    exact Numeral.isFinite_of_double? double

theorem toString_parts (n : Int) :
    ∃ (s : Sign) (size : Nat), n = s.apply size ∧ toString n = String.ofList (signText s ++ digits size) := by
  cases n with
  | ofNat size => exact ⟨.positive, size, rfl, rfl⟩
  | negSucc size =>
    refine ⟨.negative, size + 1, rfl, String.toList_inj.1 ?_⟩
    change ("-" ++ (size + 1).repr).toList = _
    simp [signText, digits]

theorem read?_whole (tag : Option String) (word : Int64) :
    read? tag (toString word.toInt) = some (.whole word) := by
  obtain ⟨s, size, value, written⟩ := toString_parts word.toInt
  have number : Numeral.integer? (signText s ++ digits size) = some word := by
    rw [Numeral.integer?_digits, ← value, Integer.ofInt?_toInt]
  have whole : ∀ c ∈ signText s ++ digits size, c ≠ '.' := by
    have digit : ∀ c ∈ digits size, c.isDigit = true := fun c member => isDigit_of_mem_digits member
    rintro c member rfl
    cases s <;> simp [signText] at member <;> exact absurd (digit _ member) (by decide)
  have read := read?_marked_integer tag ((Numeral.shows_digits size).plain s) number
  rwa [marked_whole whole, ← written] at read

/-- A finite double is read as the same number in every culture, through whichever payload. -/
theorem read?_write (tag : Option String) {v : ℚ} (denoted : rational? x = some v) :
    ∃ reading, read? tag (write tag x) = some reading ∧ rational? reading.toFloat = some v := by
  have marks {text : List Char} (written : Layout.plain.write x = text) :
      write tag x = String.ofList (marked tag text) := written ▸ rfl
  rcases rational?_cases denoted with ⟨⟨s, parts⟩, rfl⟩ | ⟨s, m, q, positive, parts, rfl⟩
  · have written : Layout.plain.write x = signText s ++ digits 0 := by
      rw [Layout.write, parts]
      rfl
    have zero : Numeral.integer? (signText s ++ digits 0) = some 0 := by
      rw [Numeral.integer?_digits]
      cases s <;> rfl
    have value : rational? (.ofInt 0) = some ((0 : Int) : ℚ) := rational?_ofInt_short (by decide)
    refine ⟨.whole 0, ?_, value⟩
    rw [marks written, read?_marked_integer tag ((Numeral.shows_digits 0).plain s) zero]
  · -- The text shows a decimal of the rounding interval, which both readers convert to the magnitude of `x`.
    have written : Layout.plain.write x = signText s ++ positionalText false (shortest .up m q) := by
      rw [Layout.write, parts]
      rfl
    obtain ⟨shown, shows, same⟩ := Numeral.shows_positionalText (shortest .up m q)
    have into : RoundsInto shown.value m q := same ▸ roundsInto_shortest positive (canonical parts) .up
    have converted := unpack_toFloat into
    have signed := rational?_signed s converted
    have finite : shown.toFloat.isFinite = true := by
      rw [← isSome_rational?, rational?, converted, Option.isSome_some]
    cases integer : Numeral.integer? (signText s ++ positionalText false (shortest .up m q)) with
    | some word =>
      refine ⟨.whole word, ?_, ?_⟩
      · rw [marks written, read?_marked_integer tag (shows.plain s) integer]
      · rw [Reading.toFloat, shows.ofInt into.coefficient integer, signed]
    | none =>
      refine ⟨.double (withSign s shown.toFloat), ?_, signed⟩
      rw [marks written, read?_marked_double tag (shows.plain s) integer (shows.double? s finite)]

end Culture

end Formula
