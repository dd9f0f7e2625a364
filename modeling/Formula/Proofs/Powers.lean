import Formula.Proofs.IntegerArithmetic
import Mathlib.Algebra.Ring.Int.Parity

/-! Powers of integers. The shortcuts for small bases and large exponents change nothing: an exponent of
32 bits gives the exact power or an overflow. A larger one leaves the integers, whatever the base. -/
namespace Formula

namespace Integer

theorem pow_shortened {base : Int} (small : base.natAbs ≤ 1) (exponent : Nat) :
    base ^ (if exponent = 0 then 0 else 2 - exponent % 2) = base ^ exponent := by
  split
  · rename_i zero
    rw [zero]
  · have cases : base = 0 ∨ base = 1 ∨ base = -1 := by omega
    rcases cases with rfl | rfl | rfl
    · rw [zero_pow (by omega), zero_pow (by omega)]
    · rw [one_pow, one_pow]
    · rcases Nat.mod_two_eq_zero_or_one exponent with even | odd
      · rw [even, (Nat.even_iff.2 even).neg_one_pow]
        rfl
      · rw [odd, (Nat.odd_iff.2 odd).neg_one_pow]
        rfl

theorem not_fits_pow {base : Int} {exponent : Nat} (large : 2 ≤ base.natAbs) (long : 64 ≤ exponent) :
    ¬ Fits (base ^ exponent) := by
  intro fits
  have size : 2 ^ 64 ≤ (base ^ exponent).natAbs := by
    rw [Int.natAbs_pow]
    calc 2 ^ 64 ≤ 2 ^ exponent := Nat.pow_le_pow_right (by decide) long
      _ ≤ base.natAbs ^ exponent := Nat.pow_le_pow_left large exponent
  have lower : -2 ^ 63 ≤ base ^ exponent := fits.1
  have upper : base ^ exponent < 2 ^ 63 := fits.2
  omega

/-- A power is formed only where it is not known to overflow. -/
theorem pow?_eq (base : Int64) (exponent : Nat) : pow? base exponent = ofInt? (base.toInt ^ exponent) := by
  unfold pow?
  split
  · rename_i small
    exact congrArg ofInt? (pow_shortened small exponent)
  · rename_i large
    split
    · rename_i long
      exact (ofInt?_eq_none_iff.2 (not_fits_pow (by omega) long)).symm
    · rfl

end Integer

namespace Builtins

open Integer (Fits)

theorem exactExponent?_short {e : Int64} (natural : 0 ≤ e.toInt) (short : e.toInt < 2 ^ 32) :
    exactExponent? e = some e.toInt.toNat := by
  have below : e.toInt.toNat < Nat.pow 2 32 := by
    have bound : Nat.pow 2 32 = 2 ^ 32 := rfl
    omega
  rw [exactExponent?, Integer.toNat?, if_pos natural, Option.filter_some, if_pos (decide_eq_true below)]

theorem exactExponent?_long {e : Int64} (long : 2 ^ 32 ≤ e.toInt) : exactExponent? e = none := by
  have above : ¬ e.toInt.toNat < Nat.pow 2 32 := by
    have bound : Nat.pow 2 32 = 2 ^ 32 := rfl
    omega
  rw [exactExponent?, Integer.toNat?, if_pos (by omega), Option.filter_some,
    if_neg (decide_eq_false above ▸ Bool.false_ne_true)]

/-- What a power of integers comes to that stays with them: the exact one where it is a 64-bit integer,
and otherwise an overflow. -/
structure Integral (base exponent : Int64) (outcome : Outcome) : Prop where
  exact : Fits (base.toInt ^ exponent.toInt.toNat) →
    ∃ r : Int64, r.toInt = base.toInt ^ exponent.toInt.toNat ∧ outcome = .ok (.int r)
  refused : ¬ Fits (base.toInt ^ exponent.toInt.toNat) →
    outcome = .error (.fault (.overflow "^" (.int base) (.int exponent)))

variable {b e : Int64} (call : Call)

theorem integral_power (natural : 0 ≤ e.toInt) (short : e.toInt < 2 ^ 32) :
    Integral b e ((power .standard call (.int b) (.int e)).mapError .fault) := by
  simp only [power, exactExponent?_short natural short, Integer.pow?_eq]
  constructor
  · intro fits
    obtain ⟨r, present, value⟩ := Integer.ofInt?_of_fits fits
    exact ⟨r, value, by rw [present]; rfl⟩
  · intro overflows
    rw [Integer.ofInt?_eq_none_iff.2 overflows]
    rfl

theorem power_long (long : 2 ^ 32 ≤ e.toInt) : power .standard call (.int b) (.int e) =
    .ok (.float (Float.pow (.ofInt b.toInt) (.ofInt e.toInt))) := by
  simp only [power, exactExponent?_long long]
  rfl

theorem not_integral_float (x : Float) : ¬ Integral b e (.ok (.float x)) := by
  intro integral
  by_cases fits : Fits (b.toInt ^ e.toInt.toNat)
  · obtain ⟨r, -, same⟩ := integral.exact fits
    cases same
  · cases integral.refused fits

end Builtins

namespace Expr

open Builtins

variable {options : Options} {depth : Nat} {memory : Memory} {x y : Expr} {b e : Int64}

theorem evalAt_power (base : x.evalAt .builtins options (depth + 1) memory = .ok (.int b))
    (exponent : y.evalAt .builtins options (depth + 1) memory = .ok (.int e)) :
    ∃ call : Call, (Expr.call "^" [x, y]).evalAt .builtins options depth memory =
      (power .standard call (.int b) (.int e)).mapError .fault := by
  have found : Registry.builtins.find? "^" = some ⟨"^", .number, .binaryNumber,
      strict (some .number) (binary (power .standard))⟩ := by
    rw [Registry.builtins_eq]
    rfl
  exact evalAt_strict_binary found (by rfl) ⟨base, Check.admits_some rfl⟩ ⟨exponent, Check.admits_some rfl⟩

/-- A power of integers stays with the integers exactly for exponents of 32 bits. Every larger exponent
is handed to the power of doubles, also for the bases zero, one and minus one, whose powers are never too
large. -/
theorem power_integral_iff (base : x.evalAt .builtins options (depth + 1) memory = .ok (.int b))
    (exponent : y.evalAt .builtins options (depth + 1) memory = .ok (.int e)) (natural : 0 ≤ e.toInt) :
    (Integral b e ((call "^" [x, y]).evalAt .builtins options depth memory) ↔ e.toInt < 2 ^ 32) ∧
    (2 ^ 32 ≤ e.toInt → (call "^" [x, y]).evalAt .builtins options depth memory =
      .ok (.float (Float.pow (.ofInt b.toInt) (.ofInt e.toInt)))) := by
  obtain ⟨call, computed⟩ := evalAt_power base exponent
  rw [computed]
  have leaves (long : 2 ^ 32 ≤ e.toInt) : (power .standard call (.int b) (.int e)).mapError .fault =
      (.ok (.float (Float.pow (.ofInt b.toInt) (.ofInt e.toInt))) : Outcome) := by
    rw [power_long call long]
    rfl
  refine ⟨⟨fun integral => ?_, integral_power call natural⟩, leaves⟩
  by_contra long
  rw [leaves (by omega)] at integral
  exact not_integral_float _ integral

/-- The least integer is a power, its opposite overflows, and one to the first exponent of 33 bits is a
double. -/
theorem power_integral_iff_edges :
    let power (b e : Int64) : Expr := .call "^" [.constant (.int b), .constant (.int e)]
    (power (-2) 63).eval .builtins {} .empty = .ok (.int Int64.minValue) ∧
    (power 2 63).eval .builtins {} .empty = .error (.fault (.overflow "^" (.int 2) (.int 63))) ∧
    ∃ x, (power 1 4294967296).eval .builtins {} .empty = .ok (.float x) := by
  intro power
  have value (n : Int64) : (Expr.constant (.int n)).evalAt .builtins {} (0 + 1) .empty = .ok (.int n) :=
    evalAt_constant (by decide) _ _
  have least := (power_integral_iff (value (-2)) (value 63) (by decide)).1.2 (by decide)
  have above := (power_integral_iff (value 2) (value 63) (by decide)).1.2 (by decide)
  refine ⟨?_, above.refused (by decide), _,
    (power_integral_iff (value 1) (value 4294967296) (by decide)).2 (by decide)⟩
  obtain ⟨r, exact, result⟩ := least.exact (by decide)
  rw [show Int64.minValue = r from Int64.toInt_inj.1 (by rw [exact]; decide)]
  exact result

def longPowerOfOne : Expr := .call "^" [.constant (.int 1), .constant (.int 4294967296)]

/-- Every power of one is one, but this one comes to a double. -/
theorem power_one_not_integral :
    longPowerOfOne.eval .builtins {} .empty =
      .ok (.float (Float.pow (.ofInt 1) (.ofInt 4294967296))) ∧
    longPowerOfOne.eval .builtins {} .empty ≠ .ok (.int 1) := by
  have value (n : Int64) : (Expr.constant (.int n)).evalAt .builtins {} (0 + 1) .empty = .ok (.int n) :=
    evalAt_constant (by decide) _ _
  obtain ⟨call, computed⟩ := evalAt_power (value 1) (value 4294967296)
  have double : longPowerOfOne.eval .builtins {} .empty =
      .ok (.float (Float.pow (.ofInt 1) (.ofInt 4294967296))) := by
    refine computed.trans ?_
    rw [power_long call (by decide)]
    rfl
  refine ⟨double, ?_⟩
  rw [double]
  simp

end Expr

end Formula
