import Formula.Decimal.Basic
import Formula.Proofs.DoubleProducts

/-! The double nearest to a decimal. Rounding knows of a quotient on which side of a half its rest lies, so a
number is rounded as if all its digits were there; every decimal in the rounding interval of a double becomes
that double. -/
namespace Formula.Binary64

open Float.Model UnpackedFloat

section Places

variable {n : Nat} {e t : Int} {accuracy : Accuracy} {r : ℚ}

/-- The exponent at which a number is rounded: its significand fits there, and fills it unless the exponent
is the least. -/
structure Place (r : ℚ) (t : Int) : Prop where
  least : -1074 ≤ t
  upper : r < 2 ^ (53 + t)
  full : t = -1074 ∨ 2 ^ (52 + t) ≤ r

theorem mantissa_ofMantissaAndAccuracy (n : Nat) (accuracy : Accuracy) :
    (ExtendedMantissa.ofMantissaAndAccuracy n accuracy).mantissa = n := by
  rcases accuracy with _ | side
  · rfl
  · cases side <;> rfl

/-- A full significand, or the least exponent, is enough for rounding: no digit has to be made up. -/
theorem fine_of_full (enough : 2 ^ 52 ≤ n ∨ e ≤ -1074) :
    e ≤ Format.binary64.targetExponent (totalExponent n e) := by
  have size (full : 2 ^ 52 ≤ n) : 52 ≤ n.log2 := (Nat.le_log2 (by omega)).2 full
  simp only [Format.targetExponent, totalExponent, Format.mantissaBits, Format.minExponent]
  rcases enough with full | least
  · have := size full
    omega
  · omega

theorem shift_place (stands : Stands (.ofMantissaAndAccuracy n accuracy) (r / 2 ^ e))
    (fine : e ≤ Format.binary64.targetExponent (totalExponent n e)) :
    ∃ em t, shiftToTargetExponent .binary64 n e accuracy = (em, t) ∧ Place r t ∧ Stands em (r / 2 ^ t) := by
  obtain ⟨k, shifted⟩ := Int.le.dest fine
  have target : e + k = max (n.log2 + 1 + e - 53) (-1074) := shifted
  have scale : (0 : ℚ) < 2 ^ e := by positivity
  obtain ⟨lower, upper⟩ := stands.bounds
  rw [mantissa_ofMantissaAndAccuracy] at lower upper
  rw [le_div_iff₀ scale] at lower
  rw [div_lt_iff₀ scale] at upper
  refine ⟨(ExtendedMantissa.ofMantissaAndAccuracy n accuracy) >>> k, e + k, ?_, ⟨by omega, ?_, ?_⟩, ?_⟩
  · rw [shiftToTargetExponent, shiftToExponent, ← shifted]
    simp
  · have size : (n : ℚ) + 1 ≤ 2 ^ (n.log2 + 1 : Int) := by exact_mod_cast Nat.lt_log2_self
    calc r < (n + 1) * 2 ^ e := upper
      _ ≤ 2 ^ (n.log2 + 1 : Int) * 2 ^ e := by gcongr
      _ = 2 ^ (n.log2 + 1 + e : Int) := (zpow_add₀ (by norm_num) _ _).symm
      _ ≤ 2 ^ (53 + (e + k)) := zpow_le_zpow_right₀ (by norm_num) (by omega)
  · by_cases least : e + k = -1074
    · exact .inl least
    · have nonzero : n ≠ 0 := by
        rintro rfl
        simp only [Nat.log2_zero] at target
        omega
      have size : (2 : ℚ) ^ (n.log2 : Int) ≤ n := by exact_mod_cast Nat.log2_self_le nonzero
      right
      calc (2 : ℚ) ^ (52 + (e + k)) = 2 ^ (n.log2 + e : Int) := by congr 1; omega
        _ = 2 ^ (n.log2 : Int) * 2 ^ e := zpow_add₀ (by norm_num) _ _
        _ ≤ n * 2 ^ e := by gcongr
        _ ≤ r := lower
  · have power : r / 2 ^ (e + k) = r / 2 ^ e / 2 ^ k := by
      rw [zpow_add₀ (by norm_num), zpow_natCast, div_div]
    rw [power]
    exact stands.shiftRight k

end Places

section Intervals

variable {n m : Nat} {e q t : Int} {accuracy : Accuracy} {r : ℚ}

/-- A number in the rounding interval of the double m · 2^q. Below a power of two the interval ends a quarter
of a unit before. -/
structure RoundsInto (r : ℚ) (m : Nat) (q : Int) : Prop where
  positive : 0 < m
  parts : Canonical m q
  near : RoundsTo (r / 2 ^ q) m
  below : m = 2 ^ 52 → -1074 < q → m - 1 / 4 ≤ r / 2 ^ q

/-- No number of the interval is out of the range of doubles. -/
theorem RoundsInto.range (into : RoundsInto r m q) : 2 ^ (-1075 : Int) ≤ r ∧ r < 2 ^ (1024 : Int) := by
  have scale : (0 : ℚ) < 2 ^ q := by positivity
  obtain ⟨lower, upper⟩ := into.near.bounds
  have one : (1 : ℚ) ≤ m := by exact_mod_cast into.positive
  have most : (m : ℚ) + 1 ≤ 2 ^ 53 := by exact_mod_cast into.parts.upper
  have half : (2 : ℚ) ^ (-1 : Int) ≤ r / 2 ^ q := by
    norm_num
    linarith
  have below : r / 2 ^ q < 2 ^ (53 : Int) := by
    norm_num at most ⊢
    linarith
  rw [le_div_iff₀ scale, ← zpow_add₀ (by norm_num)] at half
  rw [div_lt_iff₀ scale, ← zpow_add₀ (by norm_num)] at below
  have least := into.parts.small
  have greatest := into.parts.large
  exact ⟨(zpow_le_zpow_right₀ (by norm_num) (by omega)).trans half,
    below.trans_le (zpow_le_zpow_right₀ (by norm_num) (by omega))⟩

theorem Place.not_above (place : Place r t) (into : RoundsInto r m q) : ¬ q < t := by
  intro greater
  have scale : (0 : ℚ) < 2 ^ q := by positivity
  have small := into.parts.small
  have far := place.full.resolve_left (by omega)
  have long : (2 : ℚ) ^ 53 ≤ r / 2 ^ q := by
    rw [le_div_iff₀ scale, ← zpow_natCast, ← zpow_add₀ (by norm_num)]
    exact (zpow_le_zpow_right₀ (by norm_num) (by push_cast; omega)).trans far
  have upper : (m : ℚ) + 1 ≤ 2 ^ 53 := by exact_mod_cast into.parts.upper
  linarith [into.near.bounds.2]

/-- Only just below a power of two a number of the interval is rounded at a smaller exponent, and then the
rounded significand carries. -/
theorem Place.carries (place : Place r t) (into : RoundsInto r m q) (less : t < q) :
    t + 1 = q ∧ m = 2 ^ 52 ∧ RoundsTo (r / 2 ^ t) (2 ^ 53) := by
  have scale : (0 : ℚ) < 2 ^ q := by positivity
  have short {k : Int} (room : 53 + t ≤ k + q) : r / 2 ^ q < 2 ^ k := by
    rw [div_lt_iff₀ scale, ← zpow_add₀ (by norm_num)]
    exact place.upper.trans_le (zpow_le_zpow_right₀ (by norm_num) room)
  have coarse : -1074 < q := place.least.trans_lt less
  obtain rfl : m = 2 ^ 52 := by
    refine le_antisymm (not_lt.1 fun more => ?_) (into.parts.full.resolve_right coarse.ne')
    have more : (2 : ℚ) ^ 52 + 1 ≤ m := by exact_mod_cast more
    have inside : r / 2 ^ q < 2 ^ 52 := short (by omega : 53 + t ≤ (52 : Nat) + q)
    linarith [into.near.bounds.1]
  have quarter := into.below rfl coarse
  obtain rfl : q = t + 1 := by
    by_contra apart
    have inside : r / 2 ^ q < 2 ^ (51 : Int) := short (by omega)
    norm_num at inside quarter
    linarith
  have half : r / 2 ^ t = 2 * (r / 2 ^ (t + 1)) := by
    rw [zpow_add_one₀ (by norm_num)]
    field_simp
  have below : r / 2 ^ (t + 1) < 2 ^ (52 : Int) := short (by omega)
  refine ⟨rfl, rfl, .inr ⟨by decide, ?_, ?_⟩⟩ <;> norm_num at below quarter ⊢ <;> linarith

theorem shift_canonical (parts : Canonical m q) :
    shiftToTargetExponent .binary64 m q .exact = (⟨m, false, false⟩, q) := by
  rcases parts.full with full | rfl
  · exact shift_full full parts.upper parts.small
  · have size : m.log2 ≤ 52 := by
      rcases Nat.eq_zero_or_pos m with rfl | positive
      · decide
      · exact Nat.le_of_lt_succ ((Nat.log2_lt positive.ne').2 parts.upper)
    have target : Format.binary64.targetExponent (totalExponent m (-1074)) = -1074 := by
      simp only [Format.targetExponent, totalExponent, Format.mantissaBits, Format.minExponent]
      omega
    rw [shiftToTargetExponent, target, shiftToExponent, Int.sub_self]
    exact congrArg (_, ·) (Int.add_zero _)

/-- A number of the interval is rounded to the parts of the double. -/
theorem roundWithAccuracy_into (into : RoundsInto r m q)
    (stands : Stands (.ofMantissaAndAccuracy n accuracy) (r / 2 ^ e))
    (fine : e ≤ Format.binary64.targetExponent (totalExponent n e)) :
    roundWithAccuracy .binary64 .positive n e accuracy = .finite .positive m q into.positive := by
  obtain ⟨em, t, shifted, place, rest⟩ := shift_place stands fine
  rcases (not_lt.1 (place.not_above into)).lt_or_eq with less | rfl
  · obtain ⟨rfl, rfl, carries⟩ := place.carries into less
    exact roundWithAccuracy_carry shifted (rest.roundedMantissa carries) place.least
  · simp only [roundWithAccuracy, shifted, rest.roundedMantissa into.near, shift_canonical into.parts]
    rw [dif_neg into.positive.ne']

end Intervals

section Operations

variable {a b m : Nat} {e f q : Int} (left : 0 < a) (right : 0 < b)

/-- A product keeps all its bits until it is rounded. -/
theorem mul_into (enough : 2 ^ 52 ≤ a * b ∨ e + f ≤ -1074) (into : RoundsInto (a * 2 ^ e * (b * 2 ^ f)) m q) :
    UnpackedFloat.mul .binary64 (.finite .positive a e left) (.finite .positive b f right) =
      .finite .positive m q into.positive := by
  have value : (a : ℚ) * 2 ^ e * (b * 2 ^ f) / 2 ^ (e + f) = (a * b : Nat) := by
    rw [zpow_add₀ (by norm_num)]
    push_cast
    field_simp
  exact roundWithAccuracy_into into (value ▸ stands_exact (a * b)) (fine_of_full enough)

theorem quotient_full {t : Int} {s : Nat} (place : t + s = e - f) (left : 0 < a) (right : 0 < b)
    (bound : t ≤ Format.binary64.targetExponent (totalExponent a e - totalExponent b f)) :
    2 ^ 52 ≤ a * 2 ^ s / b ∨ t ≤ -1074 := by
  rw [or_iff_not_imp_right]
  intro coarse
  have enough : b.log2 + 53 ≤ a.log2 + s := by
    simp only [Format.targetExponent, totalExponent, Format.mantissaBits, Format.minExponent] at bound
    omega
  rw [Nat.le_div_iff_mul_le right]
  calc 2 ^ 52 * b ≤ 2 ^ 52 * 2 ^ (b.log2 + 1) := Nat.mul_le_mul_left _ Nat.lt_log2_self.le
    _ = 2 ^ (b.log2 + 53) := by rw [← pow_add]; congr 1; omega
    _ ≤ 2 ^ (a.log2 + s) := Nat.pow_le_pow_right (by decide) enough
    _ ≤ a * 2 ^ s := by
      rw [pow_add]
      exact Nat.mul_le_mul_right _ (Nat.log2_self_le left.ne')

/-- A quotient is formed with a full significand at least, unless it is too small for one, and the rest of the
division stands for the other bits. -/
theorem div_into (into : RoundsInto (a * 2 ^ e / (b * 2 ^ f)) m q) :
    UnpackedFloat.div .binary64 (.finite .positive a e left) (.finite .positive b f right) =
      .finite .positive m q into.positive := by
  have bottom : (0 : ℚ) < b := by exact_mod_cast right
  let target := Format.binary64.targetExponent (totalExponent a e - totalExponent b f)
  let t := min (e - f) target
  obtain ⟨s, place⟩ : ∃ s : Nat, t + s = e - f := Int.le.dest (min_le_left _ _)
  have core : UnpackedFloat.div .binary64 (.finite .positive a e left) (.finite .positive b f right) =
      roundWithAccuracy .binary64 .positive (a * 2 ^ s / b) t (accuracyOfFraction (a * 2 ^ s % b) b) := by
    have shift : (e - f - t).toNat = s := by omega
    rw [← shift, ← Nat.shiftLeft_eq]
    rfl
  have value : (a : ℚ) * 2 ^ e / (b * 2 ^ f) / 2 ^ t = (a * 2 ^ s : Nat) / b := by
    rw [show e = f + t + s by omega, zpow_add₀ (by norm_num), zpow_add₀ (by norm_num), zpow_natCast]
    push_cast
    field_simp
  have enough := quotient_full place left right (min_le_right _ _)
  rw [core]
  exact roundWithAccuracy_into into (value ▸ stands_quotient right) (fine_of_full enough)

end Operations

section Scientific

variable {n m : Nat} {e q : Int}

theorem RoundsInto.coefficient (into : RoundsInto (n * 10 ^ e) m q) : n ≠ 0 := by
  rintro rfl
  have lower := into.range.1
  rw [Nat.cast_zero, zero_mul] at lower
  exact absurd lower (not_le.2 (by positivity))

/-- A decimal so far out of range that it is not looked at lies in no rounding interval. -/
theorem exponent_bounds (into : RoundsInto (n * 10 ^ e) m q) :
    e ≤ 2 ^ 11 ∧ -(2 ^ 11 + n.log2 : Int) ≤ e := by
  obtain ⟨lower, upper⟩ := into.range
  constructor <;> by_contra! far
  · have one : (1 : ℚ) ≤ n := by exact_mod_cast Nat.one_le_iff_ne_zero.2 into.coefficient
    have far' : (2 : ℚ) ^ (1024 : Int) ≤ n * 10 ^ e := by
      calc (2 : ℚ) ^ (1024 : Int) ≤ 2 ^ e := zpow_le_zpow_right₀ (by norm_num) (by omega)
        _ ≤ 10 ^ e := zpow_le_zpow_left₀ (by omega) (by norm_num) (by norm_num)
        _ ≤ n * 10 ^ e := le_mul_of_one_le_left (by positivity) one
    exact far'.not_gt upper
  · have size : (n : ℚ) < 2 ^ (n.log2 + 1 : Int) := by exact_mod_cast Nat.lt_log2_self
    have power : (10 : ℚ) ^ e ≤ 2 ^ e := by
      rw [← inv_le_inv₀ (by positivity) (by positivity), ← zpow_neg, ← zpow_neg]
      exact zpow_le_zpow_left₀ (by omega) (by norm_num) (by norm_num)
    have far' : (n : ℚ) * 10 ^ e < 2 ^ (-1075 : Int) := by
      calc (n : ℚ) * 10 ^ e ≤ n * 2 ^ e := mul_le_mul_of_nonneg_left power n.cast_nonneg
        _ < 2 ^ (n.log2 + 1 : Int) * 2 ^ e := mul_lt_mul_of_pos_right size (by positivity)
        _ = 2 ^ (n.log2 + 1 + e : Int) := (zpow_add₀ (by norm_num) _ _).symm
        _ ≤ 2 ^ (-1075 : Int) := zpow_le_zpow_right₀ (by norm_num) (by omega)
    exact far'.not_ge lower

/-- Powers of ten that are not doubles are kept in full until the product or the quotient is rounded. -/
theorem ofScientific_into (into : RoundsInto (n * 10 ^ e) m q) :
    UnpackedFloat.ofScientific .binary64 n e = .finite .positive m q into.positive := by
  have nonzero := into.coefficient
  obtain ⟨upper, lower⟩ := exponent_bounds into
  rw [UnpackedFloat.ofScientific, dif_neg nonzero, if_neg (by exact not_lt.2 upper),
    if_neg (by exact not_lt.2 lower)]
  split
  · rename_i natural
    obtain ⟨k, rfl⟩ := Int.eq_ofNat_of_zero_le natural
    have value : (n : ℚ) * 10 ^ (k : Int) =
        (n <<< Format.binary64.mantissaBits : Nat) * 2 ^ (-Format.binary64.mantissaBits : Int) *
          ((10 ^ (k : Int).toNat : Nat) * 2 ^ (0 : Int)) := by
      rw [Nat.shiftLeft_eq, zpow_neg, zpow_natCast, zpow_natCast, Int.toNat_natCast]
      push_cast
      field_simp
    refine mul_into _ _ (.inl ?_) (value ▸ into)
    rw [Nat.shiftLeft_eq]
    calc 2 ^ 52 ≤ 1 * 2 ^ 53 * 1 := by decide
      _ ≤ n * 2 ^ 53 * 10 ^ (k : Int).toNat :=
        Nat.mul_le_mul (Nat.mul_le_mul_right _ (Nat.one_le_iff_ne_zero.2 nonzero)) (Nat.pow_pos (by decide))
  · have value : (n : ℚ) * 10 ^ e = n * 2 ^ (0 : Int) / ((10 ^ (-e).toNat : Nat) * 2 ^ (0 : Int)) := by
      obtain ⟨k, rfl⟩ : ∃ k : Nat, e = -k := ⟨(-e).toNat, by omega⟩
      rw [zpow_neg, zpow_natCast, neg_neg, Int.toNat_natCast]
      push_cast
      simp [div_eq_mul_inv]
    exact div_into _ _ (value ▸ into)

end Scientific

section Decimals

variable {x y : Float} {v w : ℚ} {n m : Nat} {q : Int}

theorem positive_parts (denoted : rational? x = some v) (above : 0 < v) :
    ∃ m e positive, unpack x = .finite .positive m e positive ∧ Canonical m e ∧ v = m * 2 ^ e := by
  rcases rational?_cases denoted with ⟨-, rfl⟩ | ⟨sign, m, e, positive, parts, rfl⟩
  · exact absurd above (lt_irrefl 0)
  · cases sign with
    | positive => exact ⟨m, e, positive, parts, canonical parts, by simp [Sign.apply]⟩
    | negative =>
      have size : (0 : ℚ) < m * 2 ^ e := by positivity
      simp only [Sign.apply, Int.cast_neg, Int.cast_natCast] at above
      linarith

theorem unpack_mul_into (left : rational? x = some v) (right : rational? y = some w) (above : 0 < v)
    (above' : 0 < w) (into : RoundsInto (v * w) m q) :
    unpack (x * y) = .finite .positive m q into.positive := by
  obtain ⟨a, e, first, here, own, rfl⟩ := positive_parts left above
  obtain ⟨b, f, second, there, own', rfl⟩ := positive_parts right above'
  have enough := (full_or_tiny first second own own').imp_right fun tiny => show e + f ≤ -1074 by omega
  rw [unpack_mul, here, there, mul_into first second enough into,
    unpack_pack_canonical .positive into.positive into.parts]

theorem unpack_div_into (left : rational? x = some v) (right : rational? y = some w) (above : 0 < v)
    (above' : 0 < w) (into : RoundsInto (v / w) m q) :
    unpack (x / y) = .finite .positive m q into.positive := by
  obtain ⟨a, e, first, here, own, rfl⟩ := positive_parts left above
  obtain ⟨b, f, second, there, own', rfl⟩ := positive_parts right above'
  change UnpackedFloat.unpack .binary64 (UnpackedFloat.pack .binary64
    (UnpackedFloat.div .binary64 (unpack x) (unpack y))) = _
  rw [here, there, div_into first second into, unpack_pack_canonical .positive into.positive into.parts]

theorem whole?_powers : ∀ k : Fin Float.exactlyRepresentablePowersOfTen.size,
    whole? Float.exactlyRepresentablePowersOfTen[k.val] = some (10 ^ k.val) := by
  decide +kernel

theorem rational?_power {k : Nat} (listed : k < Float.exactlyRepresentablePowersOfTen.size) :
    rational? Float.exactlyRepresentablePowersOfTen[k] = some (10 ^ k) := by
  exact_mod_cast whole?_eq_some_iff.1 (whole?_powers ⟨k, listed⟩)

/-- A short decimal takes one rounding of a product or a quotient of two doubles. -/
theorem unpack_ofScientific_short (divides : Bool) {k : Nat} (short : n < 2 ^ 53 ∧ k ≤ 22)
    (into : RoundsInto (n * 10 ^ (if divides then -k else k : Int)) m q) :
    unpack (Float.ofScientific n divides k) = .finite .positive m q into.positive := by
  have nonzero := Nat.pos_of_ne_zero into.coefficient
  obtain ⟨a, e, first, converted, -, -, -, -, value⟩ := unpack_word nonzero short.1
  have word : rational? n.toUInt64.toFloat = some (n : ℚ) := by
    simp [rational?, converted, Sign.apply, value]
  have power := rational?_power (Nat.lt_succ_iff.2 short.2)
  have above : (0 : ℚ) < n := by exact_mod_cast nonzero
  have above' : (0 : ℚ) < 10 ^ k := by positivity
  cases divides with
  | true =>
    have fast : Float.ofScientific n true k = n.toUInt64.toFloat / _ := dif_pos short
    rw [if_pos rfl, zpow_neg, zpow_natCast, ← div_eq_mul_inv] at into
    rw [fast]
    exact unpack_div_into word power above above' into
  | false =>
    have fast : Float.ofScientific n false k = n.toUInt64.toFloat * _ := dif_pos short
    rw [if_neg (by decide), zpow_natCast] at into
    rw [fast]
    exact unpack_mul_into word power above above' into

/-- A decimal in the rounding interval of a double is converted to that double. -/
theorem unpack_ofScientific (divides : Bool) (k : Nat)
    (into : RoundsInto (n * 10 ^ (if divides then -k else k : Int)) m q) :
    unpack (Float.ofScientific n divides k) = .finite .positive m q into.positive := by
  by_cases short : n < 2 ^ 53 ∧ k ≤ 22
  · exact unpack_ofScientific_short divides short into
  · have slow : Float.ofScientific n divides k =
        .ofModel (Float.Model.ofScientific n (if divides then -k else k : Int)) := by
      refine (dif_neg short).trans ?_
      cases divides with
      | true =>
        rw [if_pos rfl, if_pos rfl, Int.negOfNat_eq]
        rfl
      | false => rfl
    rw [slow]
    change UnpackedFloat.unpack .binary64 (UnpackedFloat.pack .binary64 (UnpackedFloat.ofScientific .binary64 n _)) = _
    rw [ofScientific_into into, unpack_pack_canonical .positive into.positive into.parts]

theorem rational?_signed {positive : 0 < m} (sign : Sign) (converted : unpack x = .finite .positive m q positive) :
    rational? (withSign sign x) = some (((sign.apply m : Int) : ℚ) * 2 ^ q) := by
  cases sign with
  | negative =>
    rw [withSign, rational?, unpack_neg, converted]
    rfl
  | positive => rw [withSign, rational?, converted]

end Decimals

end Formula.Binary64

namespace Formula.Decimal

open Binary64

def value (d : Decimal) : ℚ := d.coefficient * 10 ^ d.exponent

theorem unpack_toFloat {d : Decimal} {m : Nat} {q : Int} (into : RoundsInto d.value m q) :
    unpack d.toFloat = .finite .positive m q into.positive := by
  obtain ⟨n, e⟩ := d
  cases e with
  | ofNat k => exact unpack_ofScientific false k into
  | negSucc k => exact unpack_ofScientific true (k + 1) into

end Formula.Decimal
