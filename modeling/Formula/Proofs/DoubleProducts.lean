import Formula.Proofs.DoubleOrder

/-! Products of doubles, and doubles that denote whole numbers. A product is the double nearest to the exact
one, so it is exact where that is a double; a double without fraction is the whole number that rounding and
conversion make of it. -/
namespace Formula.Binary64

open Float.Model UnpackedFloat

section Products

variable {x y z : Float} {v w r q : ℚ}

theorem unpack_mul (x y : Float) : unpack (x * y) = UnpackedFloat.unpack .binary64
    (UnpackedFloat.pack .binary64 (UnpackedFloat.mul .binary64 (unpack x) (unpack y))) := rfl

theorem apply_mul (s t : Sign) (m n : Nat) : (s * t).apply (m * n : Nat) = s.apply m * t.apply n := by
  cases s <;> cases t
  · exact (neg_mul_neg (m : Int) n).symm
  · exact (neg_mul (m : Int) n).symm
  · exact (mul_neg (m : Int) n).symm
  · rfl

theorem mul_parts (s t : Sign) (m n : Nat) (e f : Int) :
    ((s.apply m : Int) : ℚ) * 2 ^ e * (((t.apply n : Int) : ℚ) * 2 ^ f) =
      (((s * t).apply (m * n : Nat) : Int) : ℚ) * 2 ^ (e + f) := by
  rw [apply_mul, zpow_add₀ (by norm_num)]
  push_cast
  ring

/-- Of two significands one is full, or the product is far too small. -/
theorem full_or_tiny {m n : Nat} {e f : Int} (positive : 0 < m) (above : 0 < n) (first : Canonical m e)
    (second : Canonical n f) : 2 ^ 52 ≤ m * n ∨ e + f = -2148 := by
  rcases first.full with full | least
  · exact .inl (full.trans (Nat.le_mul_of_pos_right _ above))
  · rcases second.full with full | least'
    · exact .inl (full.trans (Nat.le_mul_of_pos_left _ positive))
    · exact .inr (by omega)

theorem full_of_product {m n : Nat} {e f : Int} (positive : 0 < m) (above : 0 < n) (first : Canonical m e)
    (second : Canonical n f) (small : 2 ^ (-1022 : Int) ≤ ((m * n : Nat) : ℚ) * 2 ^ (e + f)) :
    2 ^ 52 ≤ m * n := by
  refine (full_or_tiny positive above first second).resolve_right fun tiny => ?_
  have bound : m * n < 2 ^ 106 := by
    calc m * n < 2 ^ 53 * 2 ^ 53 := Nat.mul_lt_mul'' first.upper second.upper
      _ = 2 ^ 106 := by norm_num
  have size : ((m * n : Nat) : ℚ) < 2 ^ (106 : Int) := by exact_mod_cast bound
  have scale : (0 : ℚ) < 2 ^ (-2148 : Int) := by positivity
  have below : ((m * n : Nat) : ℚ) * 2 ^ (-2148 : Int) < 2 ^ (-1022 : Int) := by
    calc ((m * n : Nat) : ℚ) * 2 ^ (-2148 : Int) < 2 ^ (106 : Int) * 2 ^ (-2148 : Int) := by gcongr
      _ = 2 ^ (-2042 : Int) := by rw [← zpow_add₀ (by norm_num)]; norm_num
      _ < 2 ^ (-1022 : Int) := zpow_lt_zpow_right₀ (by norm_num) (by norm_num)
  rw [tiny] at small
  exact absurd small below.not_ge

/-- The bounds on the exponent that rounding needs, read off the number itself. -/
theorem nearest_of_size {sign : Sign} {m : Nat} {e : Int} (rounded : unpack x = UnpackedFloat.unpack .binary64
      (UnpackedFloat.pack .binary64 (roundWithAccuracy .binary64 sign m e .exact)))
    (full : 2 ^ 52 ≤ m) (small : 2 ^ (-1022 : Int) ≤ (m : ℚ) * 2 ^ e)
    (large : (m : ℚ) * 2 ^ e < 2 ^ (1023 : Int)) : Nearest (sign.apply m * 2 ^ e) x := by
  obtain ⟨k, size⟩ : ∃ k, m.log2 = 52 + k :=
    ⟨m.log2 - 52, by have := (Nat.le_log2 (by omega)).2 full; omega⟩
  obtain ⟨lower, upper⟩ := (Nat.log2_eq_iff (by omega : m ≠ 0)).1 size
  have low : (2 : ℚ) ^ (52 + k : Int) ≤ m := by exact_mod_cast lower
  have high : (m : ℚ) < 2 ^ (52 + k + 1 : Int) := by exact_mod_cast upper
  have scale : (0 : ℚ) < 2 ^ e := by positivity
  have least : (-1022 : Int) < 52 + k + 1 + e := by
    rw [← zpow_lt_zpow_iff_right₀ (by norm_num : (1 : ℚ) < 2), zpow_add₀ (by norm_num) (52 + k + 1 : Int)]
    exact small.trans_lt (by gcongr)
  have most : (52 + k + e : Int) < 1023 := by
    rw [← zpow_lt_zpow_iff_right₀ (by norm_num : (1 : ℚ) < 2), zpow_add₀ (by norm_num) (52 + k : Int)]
    exact lt_of_le_of_lt (by gcongr) large
  rw [show 52 + k + 1 = 53 + k by omega] at upper
  exact nearest_of_round rounded lower upper (by omega) (by omega)

/-- A product that is neither too small nor too large for a full significand is rounded once. -/
theorem nearest_mul (left : rational? x = some v) (right : rational? y = some w)
    (small : 2 ^ (-1022 : Int) ≤ |v * w|) (large : |v * w| < 2 ^ (1023 : Int)) : Nearest (v * w) (x * y) := by
  have nonzero : v * w ≠ 0 := abs_pos.1 (lt_of_lt_of_le (by positivity) small)
  rcases rational?_cases left with ⟨-, rfl⟩ | ⟨s, m, e, positive, parts, rfl⟩
  · exact absurd (zero_mul w) nonzero
  rcases rational?_cases right with ⟨-, rfl⟩ | ⟨t, n, f, above, parts', rfl⟩
  · exact absurd (mul_zero _) nonzero
  rw [mul_parts] at small large ⊢
  rw [abs_parts] at small large
  have full := full_of_product positive above (canonical parts) (canonical parts') small
  refine nearest_of_size ?_ full small large
  rw [unpack_mul, parts, parts']
  rfl

/-- The double nearest to a number that is one denotes it. -/
theorem Nearest.exact (nearest : Nearest r x) (double : rational? z = some r) : rational? x = some r := by
  obtain ⟨v, denoted, closest⟩ := nearest
  have near : |v - r| ≤ |r - r| := (closest z r double).elim le_of_lt (·.1.le)
  rw [sub_self, abs_zero] at near
  rw [denoted, sub_eq_zero.1 (abs_nonpos_iff.1 near)]

theorem Nearest.long (nearest : Nearest r x) (denoted : rational? x = some q) (long : 2 ^ 53 ≤ |r|) :
    2 ^ 53 ≤ |q| := by
  obtain ⟨v, same, closest⟩ := nearest
  obtain rfl : q = v := Option.some.inj (denoted.symm.trans same)
  have near {n : Int} {bound : ℚ} (cast : (n : ℚ) = bound) (short : n.natAbs ≤ 2 ^ 53) :
      |q - r| ≤ |bound - r| :=
    cast ▸ (closest _ _ (rational?_ofInt_short short)).elim le_of_lt (·.1.le)
  have above : |q - r| ≤ |2 ^ 53 - r| := near (n := 2 ^ 53) (by norm_num) (by decide)
  have below : |q - r| ≤ |-2 ^ 53 - r| := near (n := -2 ^ 53) (by norm_num) (by decide)
  rcases le_abs.1 long with positive | negative
  · rw [abs_of_nonpos (sub_nonpos.2 positive), abs_le] at above
    exact le_abs.2 (.inl (by linarith))
  · rw [abs_of_nonneg (by linarith : (0 : ℚ) ≤ -2 ^ 53 - r), abs_le] at below
    exact le_abs.2 (.inr (by linarith))

end Products

section WholeNumbers

variable {x y : Float} {n : Int} {v w : ℚ}

theorem parts_whole_iff (sign : Sign) (m k : Nat) :
    ((sign.apply m : Int) : ℚ) * 2 ^ (-k : Int) = n ↔ sign.apply m = n * 2 ^ k := by
  have scale : (2 : ℚ) ^ k ≠ 0 := by positivity
  rw [zpow_neg, zpow_natCast, ← div_eq_mul_inv, div_eq_iff scale]
  exact_mod_cast Iff.rfl

theorem apply_scaled (sign : Sign) (m unit : Nat) : sign.apply (m * unit : Nat) = sign.apply m * unit := by
  cases sign
  · exact (congrArg _ (Nat.cast_mul m unit)).trans (neg_mul (m : Int) unit).symm
  · exact Nat.cast_mul m unit

theorem whole?_eq_some_iff : whole? x = some n ↔ rational? x = some (n : ℚ) := by
  unfold whole? rational?
  cases parts : unpack x with
  | notANumber | infinity sign => simp
  | zero sign => simp [eq_comm]
  | finite sign m e positive =>
    have power (k : Nat) : Nat.pow 2 k = 2 ^ k := rfl
    by_cases natural : 0 ≤ e
    · obtain ⟨k, rfl⟩ := Int.eq_ofNat_of_zero_le natural
      simp only [natural, if_true, Int.toNat_natCast, Option.some_inj, power, apply_scaled, zpow_natCast]
      push_cast
      exact_mod_cast Iff.rfl
    · obtain ⟨k, rfl⟩ : ∃ k : Nat, e = -k := ⟨(-e).toNat, by omega⟩
      simp only [natural, if_false, neg_neg, Int.toNat_natCast, Option.some_inj, parts_whole_iff, power]
      have unit : 0 < 2 ^ k := Nat.two_pow_pos k
      by_cases divides : m % 2 ^ k = 0
      · obtain ⟨c, rfl⟩ := Nat.dvd_of_mod_eq_zero divides
        rw [if_pos divides, Nat.mul_div_cancel_left _ unit, Option.some_inj, mul_comm, apply_scaled]
        push_cast
        exact (mul_left_inj' (by positivity)).symm
      · rw [if_neg divides]
        refine iff_of_false (by simp) fun same => divides ?_
        have factor : ((2 ^ k : Nat) : Int) ∣ (m : Int) := by
          have whole : ((2 ^ k : Nat) : Int) ∣ sign.apply m := ⟨n, by rw [same]; push_cast; ring⟩
          cases sign
          · exact Int.dvd_neg.1 whole
          · exact whole
        exact Nat.mod_eq_zero_of_dvd (Int.natCast_dvd_natCast.1 factor)

theorem rational?_withSign (sign : Sign) {m : Nat} (denoted : rational? x = some (m : ℚ)) :
    rational? (withSign sign x) = some ((sign.apply m : Int) : ℚ) := by
  cases sign
  · rw [withSign, rational?_neg denoted, Sign.apply]
    push_cast
    rfl
  · exact denoted

theorem rational?_round (rounding : Rounding) (whole : rational? x = some (n : ℚ)) :
    rational? (round rounding x) = some (n : ℚ) := by
  have converted := whole?_eq_some_iff.2 whole
  unfold round whole? at *
  cases parts : unpack x with
  | notANumber | infinity sign | zero sign => exact whole
  | finite sign m e positive =>
    simp only [parts] at converted ⊢
    by_cases natural : 0 ≤ e
    · rw [if_pos natural]
      exact whole
    · rw [if_neg natural] at converted ⊢
      by_cases divides : m % Nat.pow 2 (-e).toNat = 0
      · rw [if_pos divides, Option.some_inj] at converted
        have unit : 0 < Nat.pow 2 (-e).toNat := Nat.two_pow_pos _
        have kept : rounding.magnitude sign (m / Nat.pow 2 (-e).toNat) 0 (Nat.pow 2 (-e).toNat) =
            m / Nat.pow 2 (-e).toNat := by
          cases rounding <;> cases sign <;> simp [Rounding.magnitude]
        have short : m / Nat.pow 2 (-e).toNat < 2 ^ 53 :=
          (Nat.div_le_self _ _).trans_lt (significand_lt parts)
        simp only [divides, kept]
        rw [rational?_withSign sign (rational?_ofNat_short short), converted]
      · rw [if_neg divides] at converted
        cases converted

/-- A double of 54 bits or more has no fraction. -/
theorem whole_of_long (denoted : rational? x = some v) (long : 2 ^ 53 ≤ |v|) : ∃ n : Int, v = n := by
  rcases rational?_grid 1 denoted with ⟨j, rfl⟩ | short
  · exact ⟨j * 2, by push_cast; ring⟩
  · exact absurd long (by norm_num at short ⊢; exact short)

theorem lt_iff_rational (left : rational? x = some v) (right : rational? y = some w) : x < y ↔ v < w := by
  rw [lt_iff, compare_unpack, extended?_of_rational left, extended?_of_rational right, Option.map₂_some_some,
    Option.some_inj, cmp_eq_lt_iff, Extended.strictMono_ofRat.lt_iff_lt]

theorem unpack_abs (x : Float) : unpack x.abs = (unpack x).abs := by
  refine unpack_pack_parts (unpack x).abs fun sign m e positive same => ?_
  cases parts : unpack x <;> rw [parts] at same <;> cases same
  exact canonical parts

theorem rational?_abs (denoted : rational? x = some v) : rational? x.abs = some |v| := by
  rcases rational?_cases denoted with ⟨⟨sign, parts⟩, rfl⟩ | ⟨sign, m, e, positive, parts, rfl⟩
  · rw [rational?, unpack_abs, parts, abs_zero]
    rfl
  · rw [rational?, unpack_abs, parts, abs_parts]
    rfl

end WholeNumbers

section WholeProducts

variable {x y : Float} {v w : ℚ}

theorem rational?_mul_zero (left : rational? x = some v) (right : rational? y = some w) (zero : v * w = 0) :
    rational? (x * y) = some 0 := by
  -- A product that is zero has a zero as a factor, so nothing is rounded.
  have vanish (sign : Sign) (product : UnpackedFloat.mul .binary64 (unpack x) (unpack y) = .zero sign) :
      rational? (x * y) = some 0 := by
    have parts : unpack (x * y) = .zero sign := by
      rw [unpack_mul, product]
      exact unpack_packedZero
    rw [rational?, parts]
  rcases rational?_cases left with ⟨⟨s, parts⟩, -⟩ | ⟨s, m, e, positive, parts, rfl⟩
  · rcases rational?_cases right with ⟨⟨t, parts'⟩, -⟩ | ⟨t, n, f, above, parts', -⟩
    · exact vanish (s * t) (by rw [parts, parts']; rfl)
    · exact vanish (s * t) (by rw [parts, parts']; rfl)
  · rcases rational?_cases right with ⟨⟨t, parts'⟩, -⟩ | ⟨t, n, f, above, parts', rfl⟩
    · exact vanish (s * t) (by rw [parts, parts']; rfl)
    · have sizes : (0 : ℚ) < m * 2 ^ e * (n * 2 ^ f) := by positivity
      rw [← abs_parts s, ← abs_parts t, ← abs_mul, zero, abs_zero] at sizes
      exact absurd sizes (lt_irrefl 0)

theorem rational?_mul_short {a b : Int} (left : rational? x = some (a : ℚ))
    (right : rational? y = some (b : ℚ)) (short : (a * b).natAbs ≤ 2 ^ 53) : rational? (x * y) = some ((a * b : Int) : ℚ) := by
  have exact : (a : ℚ) * b = (a * b : Int) := (Int.cast_mul a b).symm
  by_cases zero : a * b = 0
  · rw [zero, Int.cast_zero]
    exact rational?_mul_zero left right (by rw [exact, zero, Int.cast_zero])
  · have size : |((a * b : Int) : ℚ)| = (a * b).natAbs := by rw [Nat.cast_natAbs, Int.cast_abs]
    have positive : (1 : ℚ) ≤ (a * b).natAbs := by
      exact_mod_cast Nat.pos_of_ne_zero (Int.natAbs_ne_zero.2 zero)
    have bound : ((a * b).natAbs : ℚ) ≤ 2 ^ (53 : Int) := by exact_mod_cast short
    rw [← exact] at size ⊢
    refine (nearest_mul left right ?_ ?_).exact (exact ▸ rational?_ofInt_short short)
    · rw [size]
      exact (zpow_le_one_of_nonpos₀ (by norm_num) (by norm_num)).trans positive
    · rw [size]
      exact bound.trans_lt (zpow_lt_zpow_right₀ (by norm_num) (by norm_num))

theorem rational?_mul_long (left : rational? x = some v) (right : rational? y = some w)
    (long : 2 ^ 53 ≤ |v * w|) (room : |v * w| < 2 ^ (1023 : Int)) :
    ∃ q, rational? (x * y) = some q ∧ 2 ^ 53 ≤ |q| := by
  have least : (2 : ℚ) ^ (-1022 : Int) ≤ 2 ^ (53 : Int) := zpow_le_zpow_right₀ (by norm_num) (by norm_num)
  have nearest := nearest_mul left right (least.trans long) room
  obtain ⟨q, denoted, -⟩ := id nearest
  exact ⟨q, denoted, nearest.long denoted long⟩

/-- An integer of 64 bits is a double, or both it and the double nearest to it are long. -/
theorem rational?_int64 (n : Int64) : rational? (.ofInt n.toInt) = some (n.toInt : ℚ) ∨
    ∃ v, rational? (.ofInt n.toInt) = some v ∧ 2 ^ 53 ≤ |v| ∧ |v| ≤ 2 ^ 64 ∧ 2 ^ 53 < n.toInt.natAbs := by
  rcases Nat.lt_or_ge (2 ^ 53) n.toInt.natAbs with long | short
  · right
    have nearest := nearest_int64 n
    obtain ⟨v, denoted, closest⟩ := id nearest
    have size : |(n.toInt : ℚ)| = n.toInt.natAbs := by rw [Nat.cast_natAbs, Int.cast_abs]
    have lower : (2 : ℚ) ^ 53 ≤ |(n.toInt : ℚ)| := by
      rw [size]
      exact_mod_cast long.le
    have upper : |(n.toInt : ℚ)| ≤ 2 ^ 63 := by
      have first := n.le_toInt
      have last := n.toInt_lt
      rw [size]
      exact_mod_cast (by omega : n.toInt.natAbs ≤ 2 ^ 63)
    -- Zero is a double, so the nearest one is at most twice as long.
    have near : |v - n.toInt| ≤ |0 - (n.toInt : ℚ)| := by
      have zero : rational? (.ofInt 0) = some ((0 : Int) : ℚ) := rational?_ofInt_short (by decide)
      exact Int.cast_zero (R := ℚ) ▸ (closest _ _ zero).elim le_of_lt (·.1.le)
    refine ⟨v, denoted, nearest.long denoted lower, ?_, long⟩
    rw [zero_sub, abs_neg] at near
    have detour := abs_sub_abs_le_abs_sub v n.toInt
    linarith
  · exact .inl (rational?_ofInt_short short)

end WholeProducts

end Formula.Binary64
