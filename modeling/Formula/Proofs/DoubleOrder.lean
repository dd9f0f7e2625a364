import Formula.Proofs.Doubles

/-! The order of doubles is that of the extended rational numbers they denote, and the conversion from whole
numbers keeps it: each becomes the nearest double, and of two numbers the larger is not nearer to the
smaller double. -/
namespace Formula.Binary64

open Float.Model UnpackedFloat

section Canonical

variable {x : Float} {sign : Sign} {m : Nat} {e : Int} {positive : 0 < m}

/-- The parts of a finite double: a significand that is full unless the exponent is the least. -/
structure Canonical (m : Nat) (e : Int) : Prop where
  upper : m < 2 ^ 53
  small : -1074 ≤ e
  large : e ≤ 971
  full : 2 ^ 52 ≤ m ∨ e = -1074

theorem canonical (finite : unpack x = .finite sign m e positive) : Canonical m e := by
  have upper := significand_lt finite
  simp only [unpack, UnpackedFloat.unpack] at finite
  have field := (@unpackExponent .binary64 x.toBits.toBitVec).isLt
  split at finite
  · split at finite <;> cases finite
  · rename_i notTop
    have top : (@unpackExponent .binary64 x.toBits.toBitVec).toNat ≠ 2047 :=
      fun same => notTop (BitVec.eq_of_toNat_eq same)
    split at finite
    · rename_i zero
      split at finite
      · cases finite
      · cases finite
        rw [zero]
        exact ⟨upper, by decide, by decide, .inr (by decide)⟩
    · rename_i notZero
      have bottom : (@unpackExponent .binary64 x.toBits.toBitVec).toNat ≠ 0 :=
        fun same => notZero (BitVec.eq_of_toNat_eq same)
      cases finite
      simp only [Format.exponentBias, Format.binary64] at *
      refine ⟨upper, by omega, by omega, .inl ?_⟩
      rw [toNat_implicit]
      omega

theorem unpack_pack_canonical (sign : Sign) (positive : 0 < m) (parts : Canonical m e) :
    UnpackedFloat.unpack .binary64 (UnpackedFloat.pack .binary64 (.finite sign m e positive)) =
      .finite sign m e positive := by
  by_cases full : 2 ^ 52 ≤ m
  · exact unpack_pack positive full parts.upper parts.small parts.large
  · obtain rfl := parts.full.resolve_left full
    have short : m.log2 < 52 := (Nat.log2_lt positive.ne').2 (not_le.1 full)
    have stored : (BitVec.ofNat 52 m).toNat = m := Nat.mod_eq_of_lt (not_le.1 full)
    have nonzero : BitVec.ofNat 52 m ≠ 0#52 := by
      rw [BitVec.toNat_ne, stored]
      exact positive.ne'
    have packed : UnpackedFloat.pack .binary64 (.finite sign m (-1074) positive) =
        packComponents .binary64 sign 0#11 (BitVec.ofNat 52 m) := by
      have notFull : m.log2 + 1 ≠ Format.binary64.mantissaBits := by
        change m.log2 + 1 ≠ 53
        omega
      simp only [UnpackedFloat.pack]
      rw [if_neg (by decide), if_neg notFull]
    rw [packed]
    simp only [UnpackedFloat.unpack, unpackExponent_packComponents, unpackMantissa_packComponents,
      unpackSign_packComponents, Sign.ofBitVec_toBitVec, stored]
    rw [if_neg (by decide), if_pos trivial, dif_neg nonzero]
    rfl

theorem unpack_pack_parts (parts : UnpackedFloat)
    (represented : ∀ sign m e positive, parts = .finite sign m e positive → Canonical m e) :
    UnpackedFloat.unpack .binary64 (UnpackedFloat.pack .binary64 parts) = parts := by
  cases parts with
  | infinity sign => simp [UnpackedFloat.pack, packedInfinity, UnpackedFloat.unpack]
  | notANumber => exact unpack_packedNaN
  | zero sign => exact unpack_packedZero
  | finite sign m e positive => exact unpack_pack_canonical sign positive (represented sign m e positive rfl)

end Canonical

section Negation

theorem unpack_neg (x : Float) : unpack (-x) = (unpack x).neg := by
  refine unpack_pack_parts (unpack x).neg fun sign m e positive same => ?_
  cases parts : unpack x <;> rw [parts] at same <;> cases same
  exact canonical parts

theorem apply_neg (sign : Sign) (n : Int) : (-sign).apply n = -sign.apply n := by
  cases sign with
  | negative => exact (neg_neg n).symm
  | positive => rfl

theorem rational?_neg {x : Float} {v : ℚ} (denoted : rational? x = some v) : rational? (-x) = some (-v) := by
  rcases rational?_cases denoted with ⟨⟨sign, parts⟩, rfl⟩ | ⟨sign, m, e, positive, parts, rfl⟩
  · rw [rational?, unpack_neg, parts, neg_zero]
    rfl
  · rw [rational?, unpack_neg, parts, ← neg_mul, ← Int.cast_neg, ← apply_neg]
    rfl

theorem EvenSignificand.neg {x : Float} (even : EvenSignificand x) : EvenSignificand (-x) := by
  obtain ⟨sign, m, e, positive, parts, even⟩ := even
  exact ⟨-sign, m, e, positive, by rw [unpack_neg, parts]; rfl, even⟩

theorem Nearest.neg {r : ℚ} {x : Float} (nearest : Nearest r x) : Nearest (-r) (-x) := by
  obtain ⟨v, denoted, closest⟩ := nearest
  refine ⟨-v, rational?_neg denoted, fun y w other => ?_⟩
  have mirror (u : ℚ) : |-u - r| = |u - -r| := by
    rw [← abs_neg]
    congr 1
    ring
  have against := closest (-y) (-w) (rational?_neg other)
  rw [mirror, ← neg_neg v, mirror, neg_neg] at against
  refine against.imp_right fun ⟨equal, choice⟩ => ⟨equal, choice.imp (fun same => ?_) EvenSignificand.neg⟩
  linarith

end Negation

section Order

/-- The rational numbers between the two infinities. -/
abbrev Extended := WithBot (WithTop ℚ)

def Extended.ofRat (v : ℚ) : Extended := ((v : WithTop ℚ) : WithBot (WithTop ℚ))

theorem Extended.strictMono_ofRat : StrictMono Extended.ofRat :=
  WithBot.coe_strictMono.comp WithTop.coe_strictMono

theorem Extended.bot_lt_ofRat (v : ℚ) : ⊥ < Extended.ofRat v := WithBot.bot_lt_coe _

theorem Extended.ofRat_lt_top (v : ℚ) : Extended.ofRat v < ⊤ :=
  WithBot.coe_lt_coe.2 (WithTop.coe_lt_top v)

/-- The place of a double among the extended rational numbers; what is no number has none. -/
def extended? (x : Float) : Option Extended :=
  match unpack x with
  | .notANumber => none
  | .infinity .negative => some ⊥
  | .infinity .positive => some ⊤
  | .zero _ => some (.ofRat 0)
  | .finite sign m e _ => some (.ofRat (sign.apply m * 2 ^ e))

theorem extended?_of_rational {x : Float} {v : ℚ} (denoted : rational? x = some v) :
    extended? x = some (.ofRat v) := by
  unfold extended?
  rcases rational?_cases denoted with ⟨⟨sign, parts⟩, rfl⟩ | ⟨sign, m, e, positive, parts, rfl⟩ <;> rw [parts]

variable {m n : Nat} {e f : Int}

/-- A smaller exponent makes a smaller number, whatever the significands. -/
theorem magnitude_lt (first : Canonical m e) (second : Canonical n f) (less : e < f) :
    (m : ℚ) * 2 ^ e < n * 2 ^ f := by
  have full : 2 ^ 52 ≤ n := by
    have small := first.small
    have full := second.full
    omega
  have below : (m : ℚ) < 2 ^ 53 := by exact_mod_cast first.upper
  have above : (2 : ℚ) ^ 52 ≤ n := by exact_mod_cast full
  calc (m : ℚ) * 2 ^ e < 2 ^ 53 * 2 ^ e := by gcongr
    _ = 2 ^ 52 * 2 ^ (e + 1) := by rw [zpow_add_one₀ (by norm_num)]; ring
    _ ≤ n * 2 ^ f := by gcongr <;> [norm_num; omega]

theorem compare_magnitude (first : Canonical m e) (second : Canonical n f) :
    (compare e f).then (compare m n) = cmp ((m : ℚ) * 2 ^ e) (n * 2 ^ f) := by
  rcases lt_trichotomy e f with less | rfl | greater
  · rw [compare_lt_iff_lt.2 less, (cmp_eq_lt_iff _ _).2 (magnitude_lt first second less)]
    rfl
  · have scale : (0 : ℚ) < 2 ^ e := by positivity
    rw [compare_eq_iff_eq.2 rfl, cmp_mul_pos_right scale, Nat.strictMono_cast.cmp_map_eq, cmp_eq_compare]
    rfl
  · rw [compare_gt_iff_gt.2 greater, (cmp_eq_gt_iff _ _).2 (magnitude_lt second first greater)]
    rfl

theorem compare_finite {s t : Sign} (positive : 0 < m) (above : 0 < n) (first : Canonical m e)
    (second : Canonical n f) :
    UnpackedFloat.compare (.finite s m e positive) (.finite t n f above) =
      some (cmp ((s.apply m : ℚ) * 2 ^ e) (t.apply n * 2 ^ f)) := by
  have left : (0 : ℚ) < m * 2 ^ e := by positivity
  have right : (0 : ℚ) < n * 2 ^ f := by positivity
  have reversed : StrictAnti (Neg.neg : ℚ → ℚ) := fun _ _ => neg_lt_neg
  cases s <;> cases t <;> simp only [UnpackedFloat.compare, Sign.apply, Option.some_inj, Int.cast_neg,
    Int.cast_natCast, neg_mul]
  · rw [compare_magnitude first second, cmp_swap]
    exact (reversed.cmp_map_eq _ _).symm
  · exact ((cmp_eq_lt_iff _ _).2 (by linarith)).symm
  · exact ((cmp_eq_gt_iff _ _).2 (by linarith)).symm
  · exact compare_magnitude first second

theorem compare_unpack (x y : Float) :
    (unpack x).compare (unpack y) = Option.map₂ cmp (extended? x) (extended? y) := by
  have less {v w : Extended} (lt : v < w) : some Ordering.lt = some (cmp v w) :=
    congrArg some ((cmp_eq_lt_iff _ _).2 lt).symm
  have greater {v w : Extended} (gt : w < v) : some Ordering.gt = some (cmp v w) :=
    congrArg some ((cmp_eq_gt_iff _ _).2 gt).symm
  unfold extended?
  cases first : unpack x with
  | notANumber => rfl
  | infinity s =>
    cases second : unpack y with
    | notANumber => cases s <;> rfl
    | infinity t =>
      cases s <;> cases t
      · exact congrArg some (cmp_self_eq_eq _).symm
      · exact less bot_lt_top
      · exact greater bot_lt_top
      · exact congrArg some (cmp_self_eq_eq _).symm
    | zero t | finite t n f above =>
      cases s
      · exact less (Extended.bot_lt_ofRat _)
      · exact greater (Extended.ofRat_lt_top _)
  | zero s =>
    cases second : unpack y with
    | notANumber => rfl
    | infinity t =>
      cases t
      · exact greater (Extended.bot_lt_ofRat _)
      · exact less (Extended.ofRat_lt_top _)
    | zero t => exact congrArg some (cmp_self_eq_eq _).symm
    | finite t n f above =>
      have magnitude : (0 : ℚ) < n * 2 ^ f := by positivity
      cases t
      · exact greater (Extended.strictMono_ofRat (by simpa [Sign.apply] using magnitude))
      · exact less (Extended.strictMono_ofRat (by simpa [Sign.apply] using magnitude))
  | finite s m e positive =>
    have magnitude : (0 : ℚ) < m * 2 ^ e := by positivity
    cases second : unpack y with
    | notANumber => rfl
    | infinity t =>
      cases t
      · exact greater (Extended.bot_lt_ofRat _)
      · exact less (Extended.ofRat_lt_top _)
    | zero t =>
      cases s
      · exact less (Extended.strictMono_ofRat (by simpa [Sign.apply] using magnitude))
      · exact greater (Extended.strictMono_ofRat (by simpa [Sign.apply] using magnitude))
    | finite t n f above =>
      rw [compare_finite positive above (canonical first) (canonical second)]
      exact congrArg some (Extended.strictMono_ofRat.cmp_map_eq _ _).symm

theorem lt_iff {x y : Float} : x < y ↔ (unpack x).compare (unpack y) = some .lt := by
  change decide (x.toModel < y.toModel) = true ↔ _
  rw [decide_eq_true_iff]
  change ((unpack x).compare (unpack y) == some .lt) = true ↔ _
  exact beq_iff_eq

theorem beq_iff {x y : Float} : (x == y) = true ↔ (unpack x).compare (unpack y) = some .eq := by
  change ((unpack x).compare (unpack y) == some .eq) = true ↔ _
  exact beq_iff_eq

/-- The order of doubles is that of their places. -/
theorem order?_eq (x y : Float) : order? x y = Option.map₂ cmp (extended? x) (extended? y) := by
  unfold order?
  simp only [lt_iff, beq_iff, compare_unpack]
  cases extended? x with
  | none => simp
  | some v =>
    cases extended? y with
    | none => simp
    | some w =>
      simp only [Option.map₂_some_some, ← cmp_swap v w]
      cases cmp v w <;> rfl

theorem beq_iff_order? {x y : Float} : (x == y) = true ↔ order? x y = some .eq := by
  rw [beq_iff, order?_eq, compare_unpack]

/-- Equal doubles denote one number. -/
theorem eq_of_beq_rational {x y : Float} {v w : ℚ} (equal : (x == y) = true) (left : rational? x = some v)
    (right : rational? y = some w) : v = w := by
  have same := beq_iff_order?.1 equal
  rw [order?_eq, extended?_of_rational left, extended?_of_rational right] at same
  exact Extended.strictMono_ofRat.injective ((cmp_eq_eq_iff _ _).1 (Option.some.inj same))

theorem beq_of_rational {x y : Float} {v : ℚ} (left : rational? x = some v) (right : rational? y = some v) :
    (x == y) = true := by
  rw [beq_iff_order?, order?_eq, extended?_of_rational left, extended?_of_rational right, Option.map₂_some_some,
    cmp_self_eq_eq]

theorem extended?_eq_none_iff {x : Float} : extended? x = none ↔ x.isNaN = true := by
  change _ ↔ (unpack x).isNaN = true
  rw [isNaN_iff]
  unfold extended?
  cases unpack x with
  | infinity sign => cases sign <;> simp
  | notANumber | zero | finite => simp

end Order

section Monotonicity

variable {r s v w : ℚ} {x y : Float}

theorem Nearest.mono (first : Nearest r x) (second : Nearest s y) (less : r < s)
    (left : rational? x = some v) (right : rational? y = some w) : v ≤ w := by
  -- The midpoint of two doubles that were the wrong way round would have to separate the numbers.
  obtain ⟨v', denoted, closest⟩ := first
  obtain rfl : v = v' := by simpa [left] using denoted
  obtain ⟨w', denoted', closest'⟩ := second
  obtain rfl : w = w' := by simpa [right] using denoted'
  by_contra! crossed
  have near : (v - r) ^ 2 ≤ (w - r) ^ 2 := sq_le_sq.2 ((closest y w right).elim le_of_lt (·.1.le))
  have near' : (w - s) ^ 2 ≤ (v - s) ^ 2 := sq_le_sq.2 ((closest' x v left).elim le_of_lt (·.1.le))
  have above : v + w ≤ 2 * r := by nlinarith
  have below : 2 * s ≤ v + w := by nlinarith
  linarith

end Monotonicity

section WholeNumbers

variable {n m : Nat} {e : Int}

theorem round_short (positive : 0 < n) (short : n < 2 ^ 53) :
    ∃ m e full, UnpackedFloat.round .binary64 .positive n 0 = .finite .positive m e full ∧
      2 ^ 52 ≤ m ∧ m < 2 ^ 53 ∧ -1074 ≤ e ∧ e ≤ 971 ∧ (m : ℚ) * 2 ^ e = n := by
  have log := (Nat.log2_lt positive.ne').2 short
  obtain ⟨k, size⟩ : ∃ k, n.log2 + k = 52 := ⟨52 - n.log2, by omega⟩
  obtain ⟨lower, upper⟩ := (Nat.log2_eq_iff positive.ne').1 rfl
  have low : 2 ^ 52 ≤ n * 2 ^ k := by
    rw [← size, pow_add]
    exact Nat.mul_le_mul_right _ lower
  have high : n * 2 ^ k < 2 ^ 53 := by
    rw [show 53 = n.log2 + 1 + k by omega, pow_add]
    exact Nat.mul_lt_mul_of_pos_right upper (Nat.two_pow_pos k)
  refine ⟨n * 2 ^ k, -k, by omega, ?_, low, high, by omega, by omega, ?_⟩
  · have target := targetExponent_of_log2 (m := n) (e := 0) (t := -k) (by omega) (by omega)
    have shifted := shift_full low high (show -1074 ≤ -(k : Int) by omega)
    rw [UnpackedFloat.round, target, decreaseExponent]
    simp only [Nat.shiftLeft_eq, zero_sub, neg_neg, Int.toNat_natCast]
    exact roundWithAccuracy_full shifted low high (by omega)
  · rw [zpow_neg, zpow_natCast]
    push_cast
    field_simp

/-- The factor one, which stands for the power of ten without zeros, is taken off again by rounding. -/
theorem mul_one_full (positive : 0 < m) (lower : 2 ^ 52 ≤ m) (upper : m < 2 ^ 53) (small : -1074 ≤ e) :
    UnpackedFloat.mul .binary64 (.finite .positive m e positive)
        (.finite .positive (2 ^ 52) (-52) (by decide)) = .finite .positive m e positive := by
  have log : (m * 2 ^ 52).log2 = 104 := by
    refine (Nat.log2_eq_iff (by omega)).2 ⟨by omega, by omega⟩
  have shifted : shiftToTargetExponent .binary64 (m * 2 ^ 52) (e + -52) .exact =
      (ExtendedMantissa.mk (m * 2 ^ 52) false false >>> (51 + 1), e) := by
    rw [shiftToTargetExponent, targetExponent_of_log2 (t := e) (by omega) small, shiftToExponent,
      show (e - (e + -52)).toNat = 51 + 1 by omega]
    exact congrArg (_, ·) (by omega)
  have rounded : (ExtendedMantissa.mk (m * 2 ^ 52) false false >>> (51 + 1)).roundedMantissa = m := by
    rw [roundedMantissa_shiftRight, roundedQuotient]
    simp
  have result : roundWithAccuracy .binary64 .positive (m * 2 ^ 52) (e + -52) .exact = _ :=
    roundWithAccuracy_full shifted (by rwa [rounded]) (by rwa [rounded]) small
  simp only [rounded] at result
  exact result

theorem unpack_word (positive : 0 < n) (short : n < 2 ^ 53) :
    ∃ m e full, unpack n.toUInt64.toFloat = .finite .positive m e full ∧
      2 ^ 52 ≤ m ∧ m < 2 ^ 53 ∧ -1074 ≤ e ∧ e ≤ 971 ∧ (m : ℚ) * 2 ^ e = n := by
  obtain ⟨m, e, full, rounded, lower, upper, small, large, value⟩ := round_short positive short
  have word : n.toUInt64.toNat = n := by
    rw [Nat.toUInt64, UInt64.toNat_ofNat']
    omega
  have normalized : UnpackedFloat.normalize .binary64 n 0 .positive = .finite .positive m e full := by
    have sign : compare (n : Int) 0 = .gt := compare_gt_iff_gt.2 (by omega)
    rw [UnpackedFloat.normalize, sign, ← rounded]
    rfl
  refine ⟨m, e, full, ?_, lower, upper, small, large, value⟩
  change UnpackedFloat.unpack .binary64 (UnpackedFloat.pack .binary64
    (UnpackedFloat.normalize .binary64 n.toUInt64.toNat 0 .positive)) = _
  rw [word, normalized, unpack_pack full lower upper small large]

/-- A whole number of at most 53 bits is a double. -/
theorem rational?_ofNat_short (short : n < 2 ^ 53) : rational? (.ofNat n) = some (n : ℚ) := by
  rcases Nat.eq_zero_or_pos n with rfl | positive
  · have parts : unpack (.ofNat 0) = .zero .positive := rfl
    simp [rational?, parts]
  · obtain ⟨m, e, full, converted, lower, upper, small, large, value⟩ := unpack_word positive short
    have fast : Float.ofNat n = n.toUInt64.toFloat * .ofBits 0x3FF0000000000000 :=
      dif_pos ⟨short, by decide⟩
    have one : unpack (.ofBits 0x3FF0000000000000) = .finite .positive (2 ^ 52) (-52) (by decide) := rfl
    have parts : unpack (.ofNat n) = .finite .positive m e full := by
      rw [fast]
      change UnpackedFloat.unpack .binary64 (UnpackedFloat.pack .binary64
        (UnpackedFloat.mul .binary64 (unpack n.toUInt64.toFloat) (unpack _))) = _
      rw [converted, one, mul_one_full full lower upper small, unpack_pack full lower upper small large]
    simp [rational?, parts, Sign.apply, value]

theorem rational?_ofInt_short {n : Int} (short : n.natAbs ≤ 2 ^ 53) : rational? (.ofInt n) = some (n : ℚ) := by
  have natural (size : Nat) (short : size ≤ 2 ^ 53) : rational? (.ofNat size) = some (size : ℚ) := by
    rcases short.lt_or_eq with below | rfl
    · exact rational?_ofNat_short below
    · have parts : unpack (.ofNat (2 ^ 53)) = .finite .positive (2 ^ 52) 1 (by decide) := rfl
      rw [rational?, parts]
      norm_num [Sign.apply]
  cases n with
  | ofNat size => exact natural size short
  | negSucc size =>
    rw [Int.cast_negSucc]
    exact rational?_neg (natural (size + 1) short)

theorem nearest_of_exact {r : ℚ} {x : Float} (exact : rational? x = some r) : Nearest r x := by
  refine ⟨r, exact, fun y w _ => ?_⟩
  rw [sub_self, abs_zero]
  by_cases same : w = r
  · exact .inr ⟨by simp [same], .inl same⟩
  · exact .inl (abs_pos.2 (sub_ne_zero.2 same))

theorem nearest_ofInt {n : Int} (room : n.natAbs.log2 ≤ 1022) : Nearest n (.ofInt n) := by
  rcases Nat.lt_or_ge n.natAbs.log2 53 with short | long
  · have below : n.natAbs < 2 ^ 53 := by
      rcases Nat.eq_zero_or_pos n.natAbs with zero | positive
      · rw [zero]
        decide
      · exact (Nat.log2_lt positive.ne').1 short
    exact nearest_of_exact (rational?_ofInt_short below.le)
  · cases n with
    | ofNat size => exact nearest_ofNat long room
    | negSucc size =>
      rw [Int.cast_negSucc]
      exact (nearest_ofNat long room).neg

theorem nearest_int64 (word : Int64) : Nearest word.toInt (.ofInt word.toInt) := by
  have lower := word.le_toInt
  have upper := word.toInt_lt
  apply nearest_ofInt
  rcases Nat.eq_zero_or_pos word.toInt.natAbs with zero | positive
  · rw [zero]
    decide
  · have below : word.toInt.natAbs.log2 < 64 := (Nat.log2_lt positive.ne').2 (by omega)
    omega

variable {a b : Int64}

/-- Integers of 64 bits keep their order as doubles, though two of them may fall together. -/
theorem ofInt_mono {v w : ℚ} (less : a < b) (left : rational? (.ofInt a.toInt) = some v)
    (right : rational? (.ofInt b.toInt) = some w) : v ≤ w := by
  have below : (a.toInt : ℚ) < b.toInt := by exact_mod_cast Int64.lt_iff_toInt_lt.1 less
  exact (nearest_int64 a).mono (nearest_int64 b) below left right

/-- A short integer falls together with no other: the double after it, or the one before it, would be
nearer to the other. -/
theorem eq_of_ofInt_short (short : a.toInt.natAbs < 2 ^ 53)
    (same : rational? (.ofInt b.toInt) = rational? (.ofInt a.toInt)) : a = b := by
  obtain ⟨v, denoted, closest⟩ := nearest_int64 b
  obtain rfl : (a.toInt : ℚ) = v := by
    rw [same, rational?_ofInt_short short.le] at denoted
    exact Option.some.inj denoted
  have near (n : Int) (neighbour : n.natAbs ≤ 2 ^ 53) : |a.toInt - b.toInt| ≤ |n - b.toInt| := by
    have against := closest _ _ (rational?_ofInt_short neighbour)
    exact_mod_cast against.elim le_of_lt (·.1.le)
  have after := near (a.toInt + 1) (by omega)
  have before := near (a.toInt - 1) (by omega)
  refine Int64.toInt_inj.1 ?_
  grind

end WholeNumbers

end Formula.Binary64
