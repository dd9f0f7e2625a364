import Mathlib
import Formula.Binary64

/-! Doubles as rational numbers. A whole number that is too long for a significand becomes the nearest
double, the one with the even significand where two are equally near: the conversion rounds its quotient
by a power of two, and every double is a multiple of that power or lies below the number. -/
namespace Formula.Binary64

open Float.Model UnpackedFloat

section Denotation

/-- The number that a finite double denotes. -/
def rational? (x : Float) : Option ℚ :=
  match unpack x with
  | .zero _ => some 0
  | .finite sign m e _ => some (sign.apply m * 2 ^ e)
  | _ => none

def EvenSignificand (x : Float) : Prop :=
  ∃ sign m e positive, unpack x = .finite sign m e positive ∧ m % 2 = 0

/-- Every other double is farther from `r`, or as far while the significand of `x` is even. -/
def Nearest (r : ℚ) (x : Float) : Prop :=
  ∃ v, rational? x = some v ∧ ∀ y w, rational? y = some w →
    |v - r| < |w - r| ∨ |v - r| = |w - r| ∧ (w = v ∨ EvenSignificand x)

theorem isSome_rational? (x : Float) : (rational? x).isSome = x.isFinite := by
  change _ = (unpack x).isFinite
  unfold rational?
  cases unpack x <;> rfl

theorem Nearest.isFinite {r : ℚ} {x : Float} (nearest : Nearest r x) : x.isFinite = true := by
  obtain ⟨v, denoted, -⟩ := nearest
  rw [← isSome_rational?, denoted, Option.isSome_some]

theorem significand_lt {x : Float} {sign : Sign} {m : Nat} {e : Int} {positive : 0 < m}
    (finite : unpack x = .finite sign m e positive) : m < 2 ^ 53 := by
  simp only [unpack, UnpackedFloat.unpack] at finite
  split at finite
  · split at finite <;> cases finite
  · split at finite
    · split at finite
      · cases finite
      · cases finite
        have stored := (@unpackMantissa .binary64 x.toBits.toBitVec).isLt
        omega
    · cases finite
      exact (1#1 ++ @unpackMantissa .binary64 x.toBits.toBitVec).isLt

/-- What denotes a number is a zero, or has a sign, a significand and an exponent. -/
theorem rational?_cases {x : Float} {v : ℚ} (denoted : rational? x = some v) :
    (∃ sign, unpack x = .zero sign) ∧ v = 0 ∨
      ∃ sign m e positive, unpack x = .finite sign m e positive ∧ v = ((sign.apply m : Int) : ℚ) * 2 ^ e := by
  unfold rational? at denoted
  split at denoted
  · rename_i sign parts
    exact .inl ⟨⟨sign, parts⟩, (Option.some.inj denoted).symm⟩
  · rename_i sign m e positive parts
    exact .inr ⟨sign, m, e, positive, parts, (Option.some.inj denoted).symm⟩
  · cases denoted

theorem abs_parts (sign : Sign) (m : Nat) (e : Int) : |((sign.apply m : Int) : ℚ) * 2 ^ e| = m * 2 ^ e := by
  have scale : (0 : ℚ) < 2 ^ e := by positivity
  have significand : |((sign.apply m : Int) : ℚ)| = m := by cases sign <;> simp [Sign.apply]
  rw [abs_mul, significand, abs_of_pos scale]

/-- A double is a multiple of a power of two unless its exponent is smaller, and then its significand
keeps its size below 53 bits at that power. -/
theorem rational?_grid {y : Float} {w : ℚ} (k : Int) (denoted : rational? y = some w) :
    (∃ j : Int, w = j * 2 ^ k) ∨ |w| < 2 ^ (52 + k) := by
  rcases rational?_cases denoted with ⟨-, rfl⟩ | ⟨sign, m, e, positive, finite, rfl⟩
  · exact .inl ⟨0, by simp⟩
  · by_cases coarse : k ≤ e
    · obtain ⟨more, rfl⟩ := Int.le.dest coarse
      refine .inl ⟨sign.apply m * 2 ^ more, ?_⟩
      rw [zpow_add₀ (by norm_num), zpow_natCast]
      push_cast
      ring
    · right
      have size : (m : ℚ) < 2 ^ 53 := by exact_mod_cast significand_lt finite
      have scale : (2 : ℚ) ^ e ≤ 2 ^ (k - 1) := zpow_le_zpow_right₀ (by norm_num) (by omega)
      have positive : (0 : ℚ) < 2 ^ e := by positivity
      calc |((sign.apply m : Int) : ℚ) * 2 ^ e| = m * 2 ^ e := abs_parts sign m e
        _ < 2 ^ 53 * 2 ^ e := by gcongr
        _ ≤ 2 ^ 53 * 2 ^ (k - 1) := by gcongr
        _ = 2 ^ (52 + k) := by
          rw [← zpow_natCast, ← zpow_add₀ (by norm_num)]
          congr 1
          push_cast
          ring

end Denotation

section Quotients

/-- The whole number nearest to `n / unit`, the even one of two that are equally near. -/
def roundedQuotient (n unit : Nat) : Nat :=
  if 2 * (n % unit) < unit then n / unit
  else if unit < 2 * (n % unit) then n / unit + 1
  else n / unit + n / unit % 2

theorem roundedQuotient_eq_or (n unit : Nat) :
    roundedQuotient n unit = n / unit ∨ roundedQuotient n unit = n / unit + 1 := by
  unfold roundedQuotient
  split
  · exact .inl rfl
  · split
    · exact .inr rfl
    · omega

/-- At most half a unit is lost, and exactly half only for an even result. -/
theorem roundedQuotient_error (n : Nat) {unit : Nat} (positive : 0 < unit) :
    2 * |(roundedQuotient n unit * unit : Int) - n| ≤ unit ∧
      (2 * |(roundedQuotient n unit * unit : Int) - n| = unit → roundedQuotient n unit % 2 = 0) := by
  have below : n % unit < unit := Nat.mod_lt n positive
  have parts : (n : Int) = n / unit * unit + n % unit := (Int.ediv_mul_add_emod n unit).symm
  have down : |((n / unit : Nat) * unit : Int) - n| = n % unit := by
    rw [abs_sub_comm, abs_of_nonneg] <;> push_cast <;> omega
  have up : |((n / unit + 1 : Nat) * unit : Int) - n| = unit - n % unit := by
    rw [abs_of_nonneg] <;> push_cast <;> rw [add_mul] <;> omega
  unfold roundedQuotient
  split
  · rw [down]; omega
  · split
    · rw [up]; omega
    · rcases Nat.mod_two_eq_zero_or_one (n / unit) with even | odd
      · rw [even, Nat.add_zero, down]; omega
      · rw [odd, up]; omega

theorem roundedQuotient_nearest (n : Nat) {unit : Nat} (positive : 0 < unit) (j : Int) :
    |(roundedQuotient n unit * unit : Int) - n| < |j * unit - n| ∨
      |(roundedQuotient n unit * unit : Int) - n| = |j * unit - n| ∧
        (j = roundedQuotient n unit ∨ roundedQuotient n unit % 2 = 0) := by
  obtain ⟨close, even⟩ := roundedQuotient_error n positive
  by_cases same : j = roundedQuotient n unit
  · subst same
    exact .inr ⟨rfl, .inl rfl⟩
  · -- Two multiples are a whole unit apart, and the rounded one is at most half a unit away.
    have apart : (unit : Int) ≤ |j * unit - roundedQuotient n unit * unit| := by
      rw [← sub_mul, abs_mul, abs_of_nonneg (by omega : (0 : Int) ≤ unit)]
      exact le_mul_of_one_le_left (by omega) (Int.one_le_abs (sub_ne_zero.2 same))
    have detour := abs_sub_le (j * unit : Int) n (roundedQuotient n unit * unit)
    rw [abs_sub_comm (n : Int)] at detour
    have near : |(roundedQuotient n unit * unit : Int) - n| ≤ |j * unit - n| := by omega
    rcases lt_or_eq_of_le near with farther | equal
    · exact .inl farther
    · exact .inr ⟨equal, .inr (even (by omega))⟩

variable {n k : Nat}

/-- The quotient of a number of `53 + k` bits fills a significand, or carries into one bit more. -/
theorem roundedQuotient_bounds (lower : 2 ^ (52 + k) ≤ n) (upper : n < 2 ^ (53 + k)) :
    2 ^ 52 ≤ roundedQuotient n (2 ^ k) ∧ roundedQuotient n (2 ^ k) ≤ 2 ^ 53 := by
  have above : 2 ^ 52 ≤ n / 2 ^ k := (Nat.le_div_iff_mul_le (Nat.two_pow_pos k)).2 (by rwa [← pow_add])
  have below : n / 2 ^ k < 2 ^ 53 := (Nat.div_lt_iff_lt_mul (Nat.two_pow_pos k)).2 (by rwa [← pow_add])
  rcases roundedQuotient_eq_or n (2 ^ k) with down | up <;> omega

end Quotients

section Residues

/-- The number that a significand and its two residual bits leave possible: the first tells whether a half
is reached, the second whether anything lies beyond that. -/
def Stands (em : ExtendedMantissa) (r : ℚ) : Prop :=
  match em.roundBit, em.stickyBit with
  | false, false => r = em.mantissa
  | false, true => em.mantissa < r ∧ r < em.mantissa + 1 / 2
  | true, false => r = em.mantissa + 1 / 2
  | true, true => em.mantissa + 1 / 2 < r ∧ r < em.mantissa + 1

/-- Rounding takes the number to `n`: it is less than a half away, or a half where `n` is even. -/
def RoundsTo (r : ℚ) (n : Nat) : Prop :=
  (n - 1 / 2 < r ∧ r < n + 1 / 2) ∨ n % 2 = 0 ∧ n - 1 / 2 ≤ r ∧ r ≤ n + 1 / 2

variable {em : ExtendedMantissa} {r : ℚ} {n : Nat}

theorem stands_exact (n : Nat) : Stands (.ofMantissaAndAccuracy n .exact) n := rfl

theorem Stands.bounds (stands : Stands em r) : em.mantissa ≤ r ∧ r < em.mantissa + 1 := by
  obtain ⟨m, half, rest⟩ := em
  cases half <;> cases rest <;> simp only [Stands] at stands <;> constructor <;> linarith

/-- The rest of a division stands for the fraction. -/
theorem stands_quotient {d : Nat} (positive : 0 < d) :
    Stands (.ofMantissaAndAccuracy (n / d) (accuracyOfFraction (n % d) d)) (n / d) := by
  have scale : (0 : ℚ) < d := by exact_mod_cast positive
  have parts : (n : ℚ) / d = (n / d : Nat) + (n % d : Nat) / d := by
    have whole : (n : ℚ) = d * (n / d : Nat) + (n % d : Nat) := by exact_mod_cast (Nat.div_add_mod n d).symm
    field_simp
    linarith
  have below : ((n % d : Nat) : ℚ) / d < 1 := by
    rw [div_lt_one scale]
    exact_mod_cast Nat.mod_lt n positive
  unfold accuracyOfFraction
  split
  · rename_i none
    rw [parts, none, Nat.cast_zero, zero_div, add_zero]
    exact stands_exact _
  · rename_i some
    have above : (0 : ℚ) < (n % d : Nat) / d := by
      have : (0 : ℚ) < (n % d : Nat) := by exact_mod_cast Nat.pos_of_ne_zero some
      positivity
    rw [parts]
    rcases lt_trichotomy (2 * (n % d)) d with less | same | more
    · have half : ((n % d : Nat) : ℚ) / d < 1 / 2 := by
        rw [div_lt_div_iff₀ scale (by norm_num), mul_comm, one_mul]
        exact_mod_cast less
      rw [compare_lt_iff_lt.2 less]
      exact ⟨lt_add_of_pos_right _ above, (add_lt_add_iff_left _).2 half⟩
    · have half : ((n % d : Nat) : ℚ) / d = 1 / 2 := by
        rw [div_eq_div_iff scale.ne' (by norm_num), mul_comm, one_mul]
        exact_mod_cast same
      rw [compare_eq_iff_eq.2 same, half]
      rfl
    · have half : 1 / 2 < ((n % d : Nat) : ℚ) / d := by
        rw [div_lt_div_iff₀ (by norm_num) scale, mul_comm _ 2, one_mul]
        exact_mod_cast more
      rw [compare_gt_iff_gt.2 more]
      exact ⟨(add_lt_add_iff_left _).2 half, (add_lt_add_iff_left _).2 below⟩

theorem Stands.shiftRightOne (stands : Stands em r) : Stands em.shiftRightOne (r / 2) := by
  obtain ⟨m, half, rest⟩ := em
  obtain ⟨k, last⟩ : ∃ k, m = 2 * k ∨ m = 2 * k + 1 := ⟨m / 2, by omega⟩
  rcases last with rfl | rfl
  · have bit : (2 * k % 2 != 0) = false := by simp
    have kept : 2 * k / 2 = k := by omega
    cases half <;> cases rest <;>
      simp only [Stands, ExtendedMantissa.shiftRightOne, bit, kept, Bool.or_false, Bool.or_true] at stands ⊢ <;>
      push_cast at stands <;> (try constructor) <;> linarith
  · have bit : ((2 * k + 1) % 2 != 0) = true := by simp [Nat.add_mod]
    have kept : (2 * k + 1) / 2 = k := by omega
    cases half <;> cases rest <;>
      simp only [Stands, ExtendedMantissa.shiftRightOne, bit, kept, Bool.or_false, Bool.or_true] at stands ⊢ <;>
      push_cast at stands <;> (try constructor) <;> linarith

theorem Stands.shiftRight (stands : Stands em r) (k : Nat) : Stands (em >>> k) (r / 2 ^ k) := by
  change Stands (k.repeat ExtendedMantissa.shiftRightOne em) _
  induction k with
  | zero => simpa [Nat.repeat] using stands
  | succ k ih =>
    rw [Nat.repeat, pow_succ, ← div_div]
    exact ih.shiftRightOne

theorem RoundsTo.bounds (rounds : RoundsTo r n) : n - 1 / 2 ≤ r ∧ r ≤ n + 1 / 2 := by
  rcases rounds with ⟨lower, upper⟩ | ⟨-, lower, upper⟩
  · exact ⟨lower.le, upper.le⟩
  · exact ⟨lower, upper⟩

theorem Stands.roundedMantissa (stands : Stands em r) (rounds : RoundsTo r n) : em.roundedMantissa = n := by
  obtain ⟨m, half, rest⟩ := em
  obtain ⟨lower, upper⟩ := rounds.bounds
  have cast {a b : Nat} (less : (a : ℚ) < b + 1) : a ≤ b := Nat.lt_succ_iff.1 (by exact_mod_cast less)
  have keeps (above : m ≤ r) (below : r < m + 1 / 2) : m = n :=
    le_antisymm (cast (by linarith)) (cast (by linarith))
  cases half <;> cases rest <;> simp only [Stands] at stands
  · exact keeps stands.ge (by linarith)
  · exact keeps stands.1.le stands.2
  · -- At the half itself only the even one of the two neighbours remains.
    have first : m ≤ n := cast (by linarith)
    have second : n ≤ m + 1 := cast (by push_cast; linarith)
    have even : n % 2 = 0 := by
      refine rounds.elim (fun ⟨above, below⟩ => ?_) (·.1)
      have strict : m < n := by
        have : (m : ℚ) < n := by linarith
        exact_mod_cast this
      have : (n : ℚ) < m + 1 := by linarith
      exact absurd (show n < m + 1 by exact_mod_cast this) (by omega)
    change m + m % 2 = n
    omega
  · have first : m + 1 ≤ n := by
      have : (m : ℚ) < n := by linarith
      exact_mod_cast this
    have second : n ≤ m + 1 := cast (by push_cast; linarith)
    exact le_antisymm first second

theorem roundsTo_roundedQuotient (n : Nat) {unit : Nat} (positive : 0 < unit) :
    RoundsTo (n / unit) (roundedQuotient n unit) := by
  obtain ⟨close, even⟩ := roundedQuotient_error n positive
  generalize roundedQuotient n unit = r at *
  have scale : (0 : ℚ) < unit := by exact_mod_cast positive
  unfold RoundsTo
  simp only [lt_div_iff₀ scale, div_lt_iff₀ scale, le_div_iff₀ scale, div_le_iff₀ scale]
  rcases close.lt_or_eq with near | tie
  · have near : 2 * |(r : ℚ) * unit - n| < unit := by exact_mod_cast near
    have sides := abs_lt.1 (show |(r : ℚ) * unit - n| < unit / 2 by linarith)
    exact .inl ⟨by linarith, by linarith⟩
  · have near : 2 * |(r : ℚ) * unit - n| ≤ unit := by exact_mod_cast close
    have sides := abs_le.1 (show |(r : ℚ) * unit - n| ≤ unit / 2 by linarith)
    exact .inr ⟨even tie, by linarith, by linarith⟩

theorem roundedMantissa_shiftRight (m k : Nat) :
    (ExtendedMantissa.mk m false false >>> k).roundedMantissa = roundedQuotient m (2 ^ k) := by
  have rounds := roundsTo_roundedQuotient m (Nat.two_pow_pos k)
  push_cast at rounds
  exact ((stands_exact m).shiftRight k).roundedMantissa rounds

end Residues

section Shifts

variable {m : Nat} {e t : Int}

theorem targetExponent_of_log2 (size : (m.log2 : Int) + e = t + 52) (small : -1074 ≤ t) :
    Format.binary64.targetExponent (totalExponent m e) = t := by
  simp only [Format.targetExponent, totalExponent, Format.mantissaBits, Format.minExponent]
  omega

/-- A full significand stays where it is. -/
theorem shift_full (lower : 2 ^ 52 ≤ m) (upper : m < 2 ^ 53) (small : -1074 ≤ e) :
    shiftToTargetExponent .binary64 m e .exact = (⟨m, false, false⟩, e) := by
  have log : m.log2 = 52 := (Nat.log2_eq_iff (by omega)).2 ⟨lower, upper⟩
  rw [shiftToTargetExponent, targetExponent_of_log2 (t := e) (by omega) small, shiftToExponent, Int.sub_self]
  exact congrArg (_, ·) (Int.add_zero e)

theorem shift_carry (small : -1074 ≤ e) :
    shiftToTargetExponent .binary64 (2 ^ 53) e .exact = (⟨2 ^ 52, false, false⟩, e + 1) := by
  have log : (2 ^ 53 : Nat).log2 = 53 := Nat.log2_two_pow
  rw [shiftToTargetExponent, targetExponent_of_log2 (t := e + 1) (by omega) (by omega), shiftToExponent,
    show (e + 1 - e).toNat = 1 by omega]
  rfl

variable {sign : Sign} {first : ExtendedMantissa}

theorem roundWithAccuracy_full (shifted : shiftToTargetExponent .binary64 m e .exact = (first, t))
    (lower : 2 ^ 52 ≤ first.roundedMantissa) (upper : first.roundedMantissa < 2 ^ 53) (small : -1074 ≤ t) :
    roundWithAccuracy .binary64 sign m e .exact = .finite sign first.roundedMantissa t (by omega) := by
  simp only [roundWithAccuracy, shifted, shift_full lower upper small]
  rw [dif_neg (by omega)]

theorem roundWithAccuracy_carry {accuracy : Accuracy}
    (shifted : shiftToTargetExponent .binary64 m e accuracy = (first, t))
    (carry : first.roundedMantissa = 2 ^ 53) (small : -1074 ≤ t) :
    roundWithAccuracy .binary64 sign m e accuracy = .finite sign (2 ^ 52) (t + 1) (by decide) := by
  simp only [roundWithAccuracy, shifted, carry, shift_carry small]
  rw [dif_neg (by decide)]

variable {k : Nat}

theorem shift_long (lower : 2 ^ (52 + k) ≤ m) (upper : m < 2 ^ (53 + k)) (small : -1074 ≤ e + k) :
    shiftToTargetExponent .binary64 m e .exact = (ExtendedMantissa.mk m false false >>> k, e + k) := by
  have nonzero : m ≠ 0 := by
    have := Nat.two_pow_pos (52 + k)
    omega
  have log : m.log2 = 52 + k :=
    (Nat.log2_eq_iff nonzero).2 ⟨lower, by rwa [show 52 + k + 1 = 53 + k by omega]⟩
  rw [shiftToTargetExponent, targetExponent_of_log2 (t := e + k) (by omega) small, shiftToExponent,
    show (e + k - e).toNat = k by omega]
  rfl

/-- Rounding keeps the first 53 bits; a carry into one more doubles the power and halves the quotient,
which leaves it even. -/
theorem roundWithAccuracy_long (sign : Sign) (lower : 2 ^ (52 + k) ≤ m) (upper : m < 2 ^ (53 + k))
    (small : -1074 ≤ e + k) :
    ∃ n f positive, roundWithAccuracy .binary64 sign m e .exact = .finite sign n f positive ∧
      2 ^ 52 ≤ n ∧ n < 2 ^ 53 ∧ e + k ≤ f ∧ f ≤ e + k + 1 ∧
      (n : ℚ) * 2 ^ f = roundedQuotient m (2 ^ k) * 2 ^ (e + k) ∧
      (roundedQuotient m (2 ^ k) % 2 = 0 → n % 2 = 0) := by
  have shifted := shift_long lower upper small
  obtain ⟨above, below⟩ := roundedQuotient_bounds lower upper
  rw [← roundedMantissa_shiftRight] at above below ⊢
  rcases below.lt_or_eq with fits | carry
  · exact ⟨_, _, _, roundWithAccuracy_full shifted above fits small, above, fits, le_rfl, by omega, rfl, id⟩
  · refine ⟨_, _, _, roundWithAccuracy_carry shifted carry small, by decide, by decide, by omega, le_rfl, ?_,
      fun _ => by decide⟩
    rw [carry, zpow_add_one₀ (by norm_num)]
    push_cast
    ring

end Shifts

section Packing

theorem toNat_implicit (m : BitVec 52) : (1#1 ++ m).toNat = 2 ^ 52 + m.toNat := by
  rw [BitVec.toNat_append, ← Nat.shiftLeft_add_eq_or_of_lt m.isLt]
  rfl

theorem exponentField {biased : Nat} (lower : 0 < biased) (upper : biased < 2047) :
    (BitVec.ofNat 11 biased).toNat = biased ∧ BitVec.ofNat 11 biased ≠ 0#11 ∧ BitVec.ofNat 11 biased ≠ -1#11 := by
  have field : (BitVec.ofNat 11 biased).toNat = biased := by
    rw [BitVec.toNat_ofNat, Nat.mod_eq_of_lt (by omega)]
  refine ⟨field, ?_, ?_⟩ <;> rw [BitVec.toNat_ne, field]
  · exact lower.ne'
  · exact upper.ne

theorem unpack_pack {sign : Sign} {m : Nat} {e : Int} (positive : 0 < m) (lower : 2 ^ 52 ≤ m)
    (upper : m < 2 ^ 53) (small : -1074 ≤ e) (large : e ≤ 971) :
    UnpackedFloat.unpack .binary64 (UnpackedFloat.pack .binary64 (.finite sign m e positive)) =
      .finite sign m e positive := by
  have log : m.log2 = 52 := (Nat.log2_eq_iff (by omega)).2 ⟨lower, upper⟩
  obtain ⟨biased, place⟩ : ∃ biased : Nat, (biased : Int) = e + 1075 := ⟨(e + 1075).toNat, by omega⟩
  obtain ⟨field, notZero, notTop⟩ := exponentField (show 0 < biased by omega) (by omega)
  have packed : UnpackedFloat.pack .binary64 (.finite sign m e positive) =
      packComponents .binary64 sign (BitVec.ofNat 11 biased) (BitVec.ofNat 52 m) := by
    have bias : (e + (Format.binary64.exponentBias : Int) + (52 : Nat)).toNat = biased := by
      simp only [Format.exponentBias]
      omega
    simp only [UnpackedFloat.pack, bias, log, Format.mantissaBits]
    rw [if_neg (by omega), if_pos trivial]
  have significand : (1#1 ++ BitVec.ofNat 52 m).toNat = m := by
    rw [toNat_implicit, BitVec.toNat_ofNat]
    omega
  rw [packed]
  simp only [UnpackedFloat.unpack, unpackExponent_packComponents, unpackMantissa_packComponents,
    unpackSign_packComponents, Sign.ofBitVec_toBitVec, notTop, notZero, if_false, significand, field,
    Format.exponentBias]
  congr 1
  omega

end Packing

section Rounding

variable {sign : Sign} {m k : Nat} {e : Int} {x : Float}

/-- No number on the grid of a quotient, or too small for it, is nearer than the rounded quotient, and one
that is as near leaves the choice to the even quotient. -/
theorem quotient_nearest (lower : 2 ^ (52 + k) ≤ m) {w : ℚ}
    (grid : (∃ j : Int, w = j * 2 ^ (e + k)) ∨ w < 2 ^ (52 + (e + k))) :
    |(roundedQuotient m (2 ^ k) : ℚ) * 2 ^ (e + k) - m * 2 ^ e| < |w - m * 2 ^ e| ∨
      |(roundedQuotient m (2 ^ k) : ℚ) * 2 ^ (e + k) - m * 2 ^ e| = |w - m * 2 ^ e| ∧
        (w = roundedQuotient m (2 ^ k) * 2 ^ (e + k) ∨ roundedQuotient m (2 ^ k) % 2 = 0) := by
  have nearest (j : Int) := roundedQuotient_nearest m (Nat.two_pow_pos k) j
  generalize roundedQuotient m (2 ^ k) = r at *
  have scale : (0 : ℚ) < 2 ^ e := by positivity
  have power : (2 : ℚ) ^ (e + k) = 2 ^ k * 2 ^ e := by
    rw [add_comm, zpow_add₀ (by norm_num), zpow_natCast]
  have distance (q : ℚ) : |q * 2 ^ (e + k) - m * 2 ^ e| = |q * 2 ^ k - m| * 2 ^ e := by
    rw [power, ← mul_assoc, ← sub_mul, abs_mul, abs_of_pos scale]
  have multiple (j : Int) : |(r : ℚ) * 2 ^ k - m| < |(j : ℚ) * 2 ^ k - m| ∨
      |(r : ℚ) * 2 ^ k - m| = |(j : ℚ) * 2 ^ k - m| ∧ (j = r ∨ r % 2 = 0) := by
    exact_mod_cast nearest j
  rcases grid with ⟨j, rfl⟩ | short
  · rw [distance, distance, mul_lt_mul_iff_left₀ scale, mul_left_inj' scale.ne']
    refine (multiple j).imp_right fun ⟨equal, choice⟩ => ⟨equal, choice.imp_left ?_⟩
    rintro rfl
    rfl
  · -- The number itself is at least the smallest multiple with a full significand.
    have inside : (2 : ℚ) ^ (52 + k) ≤ m := by exact_mod_cast lower
    have bottom : (2 : ℚ) ^ (52 + (e + k)) = 2 ^ 52 * 2 ^ (e + k) := by
      rw [zpow_add₀ (by norm_num)]
      rfl
    have least : |(r : ℚ) * 2 ^ (e + k) - m * 2 ^ e| ≤ m * 2 ^ e - 2 ^ (52 + (e + k)) := by
      have near := (multiple (2 ^ 52)).elim le_of_lt (·.1.le)
      rw [Int.cast_pow, Int.cast_ofNat, ← pow_add, abs_sub_comm (2 ^ (52 + k)),
        abs_of_nonneg (sub_nonneg.2 inside)] at near
      calc |(r : ℚ) * 2 ^ (e + k) - m * 2 ^ e| = |(r : ℚ) * 2 ^ k - m| * 2 ^ e := distance r
        _ ≤ (m - 2 ^ (52 + k)) * 2 ^ e := by gcongr
        _ = m * 2 ^ e - 2 ^ (52 + (e + k)) := by rw [bottom, power]; ring
    have farther : (m : ℚ) * 2 ^ e - 2 ^ (52 + (e + k)) < |w - m * 2 ^ e| := by
      rw [abs_sub_comm]
      exact (sub_lt_sub_left short _).trans_le (le_abs_self _)
    exact .inl (least.trans_lt farther)

theorem nearest_of_round (rounded : unpack x = UnpackedFloat.unpack .binary64
      (UnpackedFloat.pack .binary64 (roundWithAccuracy .binary64 sign m e .exact)))
    (lower : 2 ^ (52 + k) ≤ m) (upper : m < 2 ^ (53 + k)) (small : -1074 ≤ e + k) (large : e + k ≤ 970) :
    Nearest (sign.apply m * 2 ^ e) x := by
  obtain ⟨n, f, positive, result, full, fits, least, greatest, value, even⟩ :=
    roundWithAccuracy_long sign lower upper small
  rw [result, unpack_pack positive full fits (by omega) (by omega)] at rounded
  have denoted : rational? x = some (((sign.apply n : Int) : ℚ) * 2 ^ f) := by
    rw [rational?, rounded]
  have chosen (exact : roundedQuotient m (2 ^ k) % 2 = 0) : EvenSignificand x :=
    ⟨sign, n, f, positive, rounded, even exact⟩
  refine ⟨_, denoted, fun y w other => ?_⟩
  have grid := rational?_grid (e + k) other
  cases sign with
  | positive =>
    have near := quotient_nearest lower (grid.imp_right (le_abs_self w).trans_lt)
    rw [← value] at near
    exact near.imp_right fun ⟨equal, choice⟩ => ⟨equal, choice.imp_right chosen⟩
  | negative =>
    have grid' : (∃ j : Int, -w = j * 2 ^ (e + k)) ∨ -w < 2 ^ (52 + (e + k)) := by
      refine grid.imp (fun ⟨j, same⟩ => ⟨-j, ?_⟩) (neg_le_abs w).trans_lt
      rw [same]
      push_cast
      ring
    have near := quotient_nearest lower grid'
    have mirror (u v : ℚ) : |u - -v| = |-u - v| := by
      rw [← abs_neg]
      congr 1
      ring
    rw [← value] at near
    simp only [Sign.apply, Int.cast_neg, Int.cast_natCast, neg_mul, mirror]
    rw [neg_neg]
    refine near.imp_right fun ⟨equal, choice⟩ => ⟨equal, choice.imp (fun same => ?_) chosen⟩
    rw [← same, neg_neg]

end Rounding

section WholeNumbers

variable {n k : Nat}

/-- A long number is multiplied out to 53 bits more than it has and rounded once. -/
theorem unpack_ofNat (long : 2 ^ 53 ≤ n) :
    unpack (.ofNat n) = UnpackedFloat.unpack .binary64
      (UnpackedFloat.pack .binary64 (roundWithAccuracy .binary64 .positive (n * 2 ^ 53) (-53) .exact)) := by
  have slow : Float.ofNat n = .ofModel (Float.Model.ofScientific n 0) := dif_neg (by omega)
  have scientific : UnpackedFloat.ofScientific .binary64 n 0 =
      roundWithAccuracy .binary64 .positive (n * 2 ^ 53) (-53) .exact := by
    have large : ¬(0 : Int) < -(2 ^ Format.binary64.exponentBits + n.log2) :=
      not_lt.2 (neg_nonpos.2 (by positivity))
    rw [UnpackedFloat.ofScientific, dif_neg (by omega), if_neg (by decide), if_neg large, if_pos le_rfl,
      UnpackedFloat.mul, Nat.shiftLeft_eq, Int.toNat_zero, pow_zero, mul_one]
    rfl
  rw [slow, ← scientific]
  rfl

theorem nearest_ofNat (long : 53 ≤ n.log2) (room : n.log2 ≤ 1022) : Nearest n (.ofNat n) := by
  obtain ⟨k, size⟩ : ∃ k, n.log2 = 52 + k := ⟨n.log2 - 52, by omega⟩
  have nonzero : n ≠ 0 := by
    rintro rfl
    simp at long
  obtain ⟨lower, upper⟩ := (Nat.log2_eq_iff nonzero).1 size
  have nearest : Nearest (((Sign.positive.apply (n * 2 ^ 53 : Nat) : Int) : ℚ) * 2 ^ (-53 : Int)) (.ofNat n) := by
    apply nearest_of_round (k := k + 53) (unpack_ofNat ((Nat.le_log2 nonzero).1 long))
    · rw [show 52 + (k + 53) = 52 + k + 53 by omega, pow_add]
      omega
    · rw [show 53 + (k + 53) = 52 + k + 1 + 53 by omega, pow_add]
      omega
    · omega
    · omega
  have value : ((Sign.positive.apply (n * 2 ^ 53 : Nat) : Int) : ℚ) * 2 ^ (-53 : Int) = n := by
    rw [Sign.apply, zpow_neg]
    push_cast
    field_simp
  rwa [value] at nearest

end WholeNumbers

end Formula.Binary64
