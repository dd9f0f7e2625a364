import Formula.Decimal.Shortest
import Formula.Proofs.DecimalRounding

/-! Shortest digits. Every decimal that the search for a short one may come to lies in the rounding interval
of the double, so it is converted to that double again. -/
namespace Formula.Decimal

open Binary64

variable {m n : Nat} {q k : Int} {i : Interval}

theorem Interval.holds_iff {scale place : Nat} (positive : 0 < scale) :
    i.holds scale place = true ↔
      if i.closed then (i.low : ℚ) ≤ place / scale ∧ (place / scale : ℚ) ≤ i.high
      else (i.low : ℚ) < place / scale ∧ (place / scale : ℚ) < i.high := by
  have scale : (0 : ℚ) < scale := by exact_mod_cast positive
  rw [le_div_iff₀ scale, div_le_iff₀ scale, lt_div_iff₀ scale, div_lt_iff₀ scale]
  unfold Interval.holds
  split <;> rw [Bool.and_eq_true, decide_eq_true_iff, decide_eq_true_iff] <;> exact_mod_cast Iff.rfl

theorem zpow_toNat {b : ℚ} (nonzero : b ≠ 0) (z : Int) : b ^ z.toNat / b ^ (-z).toNat = b ^ z := by
  rw [← zpow_natCast, ← zpow_natCast, ← zpow_sub₀ nonzero, Int.toNat_sub_toNat_neg]

/-- The places that are tried are multiples of a power of ten, in quarters of the last binary place. -/
theorem grid (n : Nat) (q k : Int) :
    ((n * (Nat.pow 2 (2 - q).toNat * Nat.pow 10 k.toNat) : Nat) : ℚ) /
      (Nat.pow 2 (q - 2).toNat * Nat.pow 10 (-k).toNat : Nat) = 4 * (n * 10 ^ k / 2 ^ q) := by
  have two : (2 : ℚ) ^ (2 - q).toNat / 2 ^ (q - 2).toNat = 2 ^ (2 - q) := by
    rw [← zpow_toNat two_ne_zero, neg_sub]
  have ten : (10 : ℚ) ^ k.toNat / 10 ^ (-k).toNat = 10 ^ k := zpow_toNat (by norm_num) k
  have four : (2 : ℚ) ^ (2 - q) = 4 / 2 ^ q := by
    rw [zpow_sub₀ two_ne_zero]
    norm_num
  simp only [Nat.pow_eq]
  push_cast
  rw [mul_div_assoc, mul_div_mul_comm, two, ten, four]
  ring

/-- What the interval of a double holds is rounded to it. -/
theorem roundsInto_of_holds (positive : 0 < m) (parts : Canonical m q)
    (holds : (Interval.ofParts m q).holds (Nat.pow 2 (q - 2).toNat * Nat.pow 10 (-k).toNat)
      (n * (Nat.pow 2 (2 - q).toNat * Nat.pow 10 k.toNat)) = true) :
    RoundsInto (n * 10 ^ k) m q := by
  have scale : 0 < Nat.pow 2 (q - 2).toNat * Nat.pow 10 (-k).toNat :=
    Nat.mul_pos (Nat.pow_pos (by decide)) (Nat.pow_pos (by decide))
  rw [Interval.holds_iff scale, grid] at holds
  generalize (n : ℚ) * 10 ^ k = r at holds
  have low : (4 * m : ℚ) ≤ (Interval.ofParts m q).low + 2 := by
    have : 4 * m ≤ (Interval.ofParts m q).low + 2 := by
      simp only [Interval.ofParts]
      split <;> omega
    exact_mod_cast this
  have quarter (power : m = 2 ^ 52) (coarse : -1074 < q) : (4 * m : ℚ) ≤ (Interval.ofParts m q).low + 1 := by
    have : 4 * m ≤ (Interval.ofParts m q).low + 1 := by
      have shown : (Interval.ofParts m q).low = 4 * m - 1 := if_pos ⟨power, coarse⟩
      omega
    exact_mod_cast this
  have high : ((Interval.ofParts m q).high : ℚ) = 4 * m + 2 := by
    simp [Interval.ofParts]
  split at holds
  · rename_i closed
    refine ⟨positive, parts, .inr ⟨beq_iff_eq.1 closed, by linarith, by linarith⟩, fun power coarse => ?_⟩
    linarith [quarter power coarse]
  · refine ⟨positive, parts, .inl ⟨by linarith, by linarith⟩, fun power coarse => ?_⟩
    linarith [quarter power coarse]

theorem roundsInto_exact (positive : 0 < m) (parts : Canonical m q) : RoundsInto (exact m q).value m q := by
  have value : (exact m q).value = m * 2 ^ q := by
    unfold exact
    split
    · rename_i natural
      obtain ⟨k, rfl⟩ := Int.eq_ofNat_of_zero_le natural
      simp [value]
    · obtain ⟨k, rfl⟩ : ∃ k : Nat, q = -k := ⟨(-q).toNat, by omega⟩
      have ten : (10 : ℚ) ^ k = 5 ^ k * 2 ^ k := by rw [← mul_pow]; norm_num
      simp only [value, Nat.pow_eq, neg_neg, Int.toNat_natCast, zpow_neg, zpow_natCast, ten]
      push_cast
      field_simp
  have middle : (exact m q).value / 2 ^ q = m := by
    rw [value, mul_div_cancel_right₀ _ (by positivity)]
  refine ⟨positive, parts, .inl ?_, fun _ _ => ?_⟩ <;> rw [middle]
  · exact ⟨by linarith, by linarith⟩
  · linarith

theorem holds_of_nearest? {tie : Tie} (found : i.nearest? q tie k = some n) :
    i.holds (Nat.pow 2 (q - 2).toNat * Nat.pow 10 (-k).toNat)
      (n * (Nat.pow 2 (2 - q).toNat * Nat.pow 10 k.toNat)) = true := by
  simp only [Interval.nearest?] at found
  split at found
  · cases found
  · rename_i lower _
    cases found
    exact lower
  · rename_i _ upper
    cases found
    exact upper
  · rename_i lower upper
    cases found
    split
    · exact upper
    · exact lower

theorem roundsInto_search (positive : 0 < m) (parts : Canonical m q) (tie : Tie) (fuel : Nat) :
    ∀ k, RoundsInto (search m q tie fuel k).value m q := by
  induction fuel with
  | zero => exact fun _ => roundsInto_exact positive parts
  | succ fuel ih =>
    intro k
    rw [search]
    split
    · rename_i n found
      exact roundsInto_of_holds positive parts (holds_of_nearest? found)
    · exact ih (k - 1)

/-- The digits of a double are converted to it. -/
theorem roundsInto_shortest (positive : 0 < m) (parts : Canonical m q) (tie : Tie) :
    RoundsInto (shortest tie m q).value m q :=
  roundsInto_search positive parts tie 24 (startPower m q)

end Formula.Decimal
