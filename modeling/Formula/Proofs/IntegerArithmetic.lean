import Formula.Proofs.Levels
import Formula.Proofs.StrictCalls

/-! Arithmetic on integers. A fold of an operator over integers follows the fold over the unbounded
integers step by step; it comes to the exact result when all the results on the way are 64-bit integers,
and is refused at the first that is not. Quotient and remainder make up the dividend again. -/
namespace Formula

namespace Integer

theorem ofInt?_of_fits {n : Int} (fits : Fits n) : ∃ word, ofInt? n = some word ∧ word.toInt = n := by
  have present : ofInt? n = some (.ofInt n) := if_pos fits
  exact ⟨_, present, toInt_ofInt? present⟩

theorem fits_tmod (a b : Int64) (nonzero : b.toInt ≠ 0) : Fits (a.toInt.tmod b.toInt) := by
  have bounds := fits_toInt b
  have size := Int.natAbs_tmod a.toInt b.toInt
  have below := Nat.mod_lt a.toInt.natAbs (Int.natAbs_pos.2 nonzero)
  unfold Fits at bounds ⊢
  omega

/-- What a quotient leaves out of the dividend has the same sign, so what it keeps fits. -/
theorem fits_tdiv_mul (a b : Int64) : Fits (a.toInt.tdiv b.toInt * b.toInt) := by
  have bounds := fits_toInt a
  have whole := Int.tdiv_mul_add_tmod a.toInt b.toInt
  have size := Int.natAbs_tmod a.toInt b.toInt
  have below := Nat.mod_le a.toInt.natAbs b.toInt.natAbs
  unfold Fits at bounds ⊢
  rcases Int.le_total 0 a.toInt with positive | negative
  · have := Int.tmod_nonneg b.toInt positive
    omega
  · have := Int.tmod_nonneg b.toInt (Int.neg_nonneg_of_nonpos negative)
    rw [Int.neg_tmod] at this
    omega

end Integer

namespace Builtins

open Integer (Fits)

inductive Operator
  | plus
  | minus
  | times
  | quotient
  deriving DecidableEq, Repr

namespace Operator

def name : Operator → String
  | .plus => "+"
  | .minus => "-"
  | .times => "*"
  | .quotient => "/"

/-- The operator on the unbounded integers; a quotient loses its fraction. -/
def exact : Operator → Int → Int → Int
  | .plus => (· + ·)
  | .minus => (· - ·)
  | .times => (· * ·)
  | .quotient => Int.tdiv

def apply : Operator → Value → Value → Except Fault Value
  | .plus => add .standard
  | .minus => subtract .standard
  | .times => multiply .standard
  | .quotient => divide .standard

def demand : Operator → Check
  | .plus => .numberOrString
  | .minus | .times | .quotient => .number

theorem demand_int (op : Operator) (n : Int64) : op.demand.passes (.int n) = true := by
  cases op <;> rfl

def refusal (op : Operator) (a b : Int64) : Fault :=
  if op = .quotient ∧ b = 0 then .divisionByZero else .overflow op.name (.int a) (.int b)

/-- The fold has no divisor that is zero, and no result on the way, the first argument included, that
is not a 64-bit integer. -/
structure Exact (op : Operator) (first : Int) (rest : List Int) : Prop where
  divisors : op = .quotient → 0 ∉ rest
  results : ∀ n ∈ rest.scanl op.exact first, Fits n

instance (op : Operator) (first : Int) (rest : List Int) : Decidable (op.Exact first rest) :=
  decidable_of_iff ((op = .quotient → 0 ∉ rest) ∧ ∀ n ∈ rest.scanl op.exact first, Fits n)
    ⟨fun both => ⟨both.1, both.2⟩, fun exact => ⟨exact.divisors, exact.results⟩⟩

theorem exact_nil {op : Operator} {first : Int} : op.Exact first [] ↔ Fits first := by
  constructor
  · intro exact
    simpa using exact.results
  · intro fits
    exact ⟨by simp, by simpa using fits⟩

theorem exact_cons {op : Operator} {first second : Int} {rest : List Int} :
    op.Exact first (second :: rest) ↔
      Fits first ∧ (op = .quotient → second ≠ 0) ∧ op.Exact (op.exact first second) rest := by
  constructor
  · rintro ⟨divisors, results⟩
    simp only [List.scanl_cons, List.mem_cons, forall_eq_or_imp] at results
    refine ⟨results.1, ?_, ?_, results.2⟩
    · rintro divides rfl
      exact divisors divides (by simp)
    · intro divides member
      exact divisors divides (by simp [member])
  · rintro ⟨fits, nonzero, divisors, results⟩
    refine ⟨?_, ?_⟩
    · intro divides
      simpa using ⟨(nonzero divides).symm, divisors divides⟩
    · simpa using ⟨fits, results⟩

theorem Exact.first {op : Operator} {first : Int} {rest : List Int} (exact : op.Exact first rest) :
    Fits first :=
  exact.results first (by cases rest <;> simp)

/-- On integers the operator is the exact one, as far as the result is a 64-bit integer. -/
theorem apply_int (op : Operator) (a b : Int64) : op.apply (.int a) (.int b) =
    if op = .quotient ∧ b = 0 then .error .divisionByZero
    else exactly op.name (.int a) (.int b) (Integer.ofInt? (op.exact a.toInt b.toInt)) := by
  cases op with
  | plus | minus | times => rfl
  | quotient => simp [apply, divide, isZero, name, exact, Integer.div?]

theorem apply_exact (op : Operator) {a b : Int64} (nonzero : op = .quotient → b.toInt ≠ 0)
    (fits : Fits (op.exact a.toInt b.toInt)) :
    ∃ r : Int64, r.toInt = op.exact a.toInt b.toInt ∧ op.apply (.int a) (.int b) = .ok (.int r) := by
  obtain ⟨r, present, value⟩ := Integer.ofInt?_of_fits fits
  have divisor : ¬ (op = .quotient ∧ b = 0) := by
    rintro ⟨divides, rfl⟩
    exact nonzero divides rfl
  exact ⟨r, value, by rw [apply_int, if_neg divisor, present, exactly]⟩

theorem apply_refused {op : Operator} {a b : Int64}
    (inexact : ¬ ((op = .quotient → b.toInt ≠ 0) ∧ Fits (op.exact a.toInt b.toInt))) :
    op.apply (.int a) (.int b) = .error (op.refusal a b) := by
  rw [apply_int, refusal]
  by_cases divisor : op = .quotient ∧ b = 0
  · rw [if_pos divisor, if_pos divisor]
  · have nonzero : op = .quotient → b.toInt ≠ 0 := by
      intro divides zero
      exact divisor ⟨divides, Int64.toInt_inj.1 zero⟩
    have overflows : Integer.ofInt? (op.exact a.toInt b.toInt) = none :=
      Integer.ofInt?_eq_none_iff.2 fun fits => inexact ⟨nonzero, fits⟩
    rw [if_neg divisor, if_neg divisor, overflows, exactly]

theorem foldArgs_exact {op : Operator} (rest : List Int64) : ∀ first : Int64,
    op.Exact first.toInt (rest.map Int64.toInt) →
      ∃ r : Int64, r.toInt = (rest.map Int64.toInt).foldl op.exact first.toInt ∧
        foldArgs op.apply (.int first) (rest.map .int) = .ok (.int r) := by
  -- By induction on the arguments still to come, for every result so far.
  induction rest with
  | nil => exact fun first _ => ⟨first, rfl, rfl⟩
  | cons second rest ih =>
    intro first exact
    obtain ⟨_, nonzero, later⟩ := exact_cons.1 exact
    obtain ⟨next, value, applied⟩ := apply_exact op nonzero later.first
    obtain ⟨r, total, folded⟩ := ih next (value ▸ later)
    refine ⟨r, by rw [total, value]; rfl, ?_⟩
    simp only [List.map_cons, foldArgs, applied, folded]

theorem foldArgs_refused {op : Operator} (rest : List Int64) : ∀ first : Int64,
    ¬ op.Exact first.toInt (rest.map Int64.toInt) →
      ∃ before second after, ∃ acc : Int64, rest = before ++ second :: after ∧
        op.Exact first.toInt (before.map Int64.toInt) ∧
        acc.toInt = (before.map Int64.toInt).foldl op.exact first.toInt ∧
        ¬ ((op = .quotient → second.toInt ≠ 0) ∧ Fits (op.exact acc.toInt second.toInt)) ∧
        foldArgs op.apply (.int first) (rest.map .int) = .error (op.refusal acc second) := by
  induction rest with
  | nil => exact fun first inexact => absurd (exact_nil.2 (Integer.fits_toInt first)) inexact
  | cons second rest ih =>
    intro first inexact
    by_cases step : (op = .quotient → second.toInt ≠ 0) ∧ Fits (op.exact first.toInt second.toInt)
    · obtain ⟨next, value, applied⟩ := apply_exact op step.1 step.2
      have further : ¬ op.Exact next.toInt (rest.map Int64.toInt) := by
        intro later
        exact inexact (exact_cons.2 ⟨Integer.fits_toInt first, step.1, value ▸ later⟩)
      obtain ⟨before, third, after, acc, rfl, exact, total, refused, folded⟩ := ih next further
      refine ⟨second :: before, third, after, acc, rfl, ?_, ?_, refused, ?_⟩
      · exact exact_cons.2 ⟨Integer.fits_toInt first, step.1, value ▸ exact⟩
      · rw [total, value]
        rfl
      · simp only [List.map_cons, foldArgs, applied, folded]
    · refine ⟨[], second, rest, first, rfl, exact_nil.2 (Integer.fits_toInt first), rfl, step, ?_⟩
      simp only [List.map_cons, foldArgs, apply_refused step]

/-- What a fold over integers comes to: the exact result as long as the fold is exact, and otherwise the
refusal of the first step that is not, with the result so far. -/
structure FoldsTo (op : Operator) (first : Int64) (rest : List Int64) (outcome : Outcome) : Prop where
  value : ∀ v, outcome = .ok v ↔ op.Exact first.toInt (rest.map Int64.toInt) ∧
    ∃ r : Int64, v = .int r ∧ r.toInt = (rest.map Int64.toInt).foldl op.exact first.toInt
  refused : ¬ op.Exact first.toInt (rest.map Int64.toInt) →
    ∃ before second after, ∃ acc : Int64, rest = before ++ second :: after ∧
      op.Exact first.toInt (before.map Int64.toInt) ∧
      acc.toInt = (before.map Int64.toInt).foldl op.exact first.toInt ∧
      ¬ ((op = .quotient → second.toInt ≠ 0) ∧ Fits (op.exact acc.toInt second.toInt)) ∧
      outcome = .error (.fault (op.refusal acc second))

theorem foldsTo_foldArgs (op : Operator) (first : Int64) (rest : List Int64) :
    op.FoldsTo first rest ((foldArgs op.apply (.int first) (rest.map .int)).mapError .fault) := by
  constructor
  · intro v
    by_cases exact : op.Exact first.toInt (rest.map Int64.toInt)
    · obtain ⟨r, total, folded⟩ := foldArgs_exact rest first exact
      rw [folded]
      constructor
      · rintro ⟨⟩
        exact ⟨exact, r, rfl, total⟩
      · rintro ⟨_, other, rfl, value⟩
        rw [Int64.toInt_inj.1 (value.trans total.symm)]
        rfl
    · obtain ⟨_, _, _, _, _, _, _, _, folded⟩ := foldArgs_refused rest first exact
      simp [folded, Except.mapError, exact]
  · intro inexact
    obtain ⟨before, second, after, acc, shape, exact, total, refused, folded⟩ :=
      foldArgs_refused rest first inexact
    exact ⟨before, second, after, acc, shape, exact, total, refused, by rw [folded]; rfl⟩

end Operator

theorem modulo_int (call : Call) (a b : Int64) : modulo .standard call (.int a) (.int b) =
    if b = 0 then .error .divisionByZero
    else exactly "%" (.int a) (.int b) (Integer.rem? a b) := by
  simp [modulo, isZero]

/-- A remainder is refused wherever the quotient is. -/
theorem modulo_refused {a b : Int64} (inexact : ¬ (b.toInt ≠ 0 ∧ Fits (a.toInt.tdiv b.toInt)))
    (call : Call) : ∃ fault, modulo .standard call (.int a) (.int b) = .error fault := by
  rw [modulo_int]
  by_cases zero : b = 0
  · exact ⟨_, if_pos zero⟩
  · have nonzero : b.toInt ≠ 0 := fun same => zero (Int64.toInt_inj.1 same)
    have overflows : Integer.div? a b = none :=
      Integer.ofInt?_eq_none_iff.2 fun fits => inexact ⟨nonzero, fits⟩
    exact ⟨_, by rw [if_neg zero, Integer.rem?, overflows]; rfl⟩

theorem modulo_exact {a b : Int64} (nonzero : b.toInt ≠ 0) (fits : Fits (a.toInt.tdiv b.toInt)) :
    ∃ r : Int64, r.toInt = a.toInt.tmod b.toInt ∧
      ∀ call, modulo .standard call (.int a) (.int b) = .ok (.int r) := by
  obtain ⟨q, divides, _⟩ := Integer.ofInt?_of_fits fits
  obtain ⟨r, present, value⟩ := Integer.ofInt?_of_fits (Integer.fits_tmod a b nonzero)
  have divided : Integer.div? a b = some q := divides
  have zero : b ≠ 0 := fun same => nonzero (Int64.toInt_inj.2 same)
  refine ⟨r, value, fun call => ?_⟩
  rw [modulo_int, if_neg zero, Integer.rem?, divided, Option.bind_some, present, exactly]

theorem sign_tmod_cases (a b : Int) : a.tmod b = 0 ∨ (a.tmod b).sign = a.sign := by
  have sign := Int.sign_tmod a b
  split at sign
  · exact .inl (Int.sign_eq_zero_iff_zero.1 sign)
  · exact .inr sign

/-- Where the quotient is exact, the operators give quotient, remainder, product and sum without
overflow. -/
theorem division_exact {a b : Int64} (nonzero : b.toInt ≠ 0) (fits : Fits (a.toInt.tdiv b.toInt)) :
    ∃ q r p : Int64, Operator.quotient.apply (.int a) (.int b) = .ok (.int q) ∧
      (∀ call, modulo .standard call (.int a) (.int b) = .ok (.int r)) ∧
      Operator.times.apply (.int q) (.int b) = .ok (.int p) ∧
      Operator.plus.apply (.int p) (.int r) = .ok (.int a) ∧
      a.toInt = q.toInt * b.toInt + r.toInt ∧ r.toInt.natAbs < b.toInt.natAbs ∧
      (r = 0 ∨ r.toInt.sign = a.toInt.sign) := by
  have whole := Int.tdiv_mul_add_tmod a.toInt b.toInt
  obtain ⟨q, ratio, divided⟩ := Operator.apply_exact .quotient (fun _ => nonzero) fits
  obtain ⟨r, rest, left⟩ := modulo_exact nonzero fits
  have ratio : q.toInt = a.toInt.tdiv b.toInt := ratio
  obtain ⟨p, product, multiplied⟩ : ∃ p : Int64, p.toInt = q.toInt * b.toInt ∧
      Operator.times.apply (.int q) (.int b) = .ok (.int p) :=
    Operator.apply_exact .times (by simp) (by simpa [Operator.exact, ratio] using Integer.fits_tdiv_mul a b)
  have total : p.toInt + r.toInt = a.toInt := by rw [product, ratio, rest, whole]
  obtain ⟨s, sum, added⟩ : ∃ s : Int64, s.toInt = p.toInt + r.toInt ∧
      Operator.plus.apply (.int p) (.int r) = .ok (.int s) :=
    Operator.apply_exact .plus (by simp) (by simpa [Operator.exact, total] using Integer.fits_toInt a)
  obtain rfl : s = a := Int64.toInt_inj.1 (sum.trans total)
  refine ⟨q, r, p, divided, left, multiplied, added, by omega, ?_, ?_⟩
  · rw [rest, Int.natAbs_tmod]
    exact Nat.mod_lt _ (Int.natAbs_pos.2 nonzero)
  · rw [rest]
    refine (sign_tmod_cases s.toInt b.toInt).imp_left fun zero => ?_
    exact Int64.toInt_inj.1 (rest.trans zero)

end Builtins

namespace Expr

open Builtins

variable {options : Options} {depth : Nat} {memory : Memory}

theorem find?_operator (op : Operator) : ∃ function, Registry.builtins.find? op.name = some function ∧
    function.logic = strict (some op.demand) (folding op.apply) := by
  rw [Registry.builtins_eq]
  cases op <;> exact ⟨_, rfl, rfl⟩

theorem evalAt_operator (op : Operator) {args : List Expr} {first : Int64} {rest : List Int64}
    (values : List.Forall₂ (fun arg n => arg.evalAt .builtins options (depth + 1) memory = .ok (.int n))
      args (first :: rest)) :
    (call op.name args).evalAt .builtins options depth memory =
      (foldArgs op.apply (.int first) (rest.map .int)).mapError .fault := by
  obtain ⟨function, found, logic⟩ := find?_operator op
  have gathered : Gathered (some op.demand)
      (fun arg scope => arg.evalAt .builtins options (depth + 1) scope) memory args
      ((first :: rest).map .int) :=
    List.forall₂_map_right_iff.2 (values.imp fun arg n value => ⟨value, Check.admits_some (op.demand_int n)⟩)
  rw [evalAt_strict found logic (by simp) gathered]
  rfl

theorem evalAt_sum {array : Expr} {items : List Int64}
    (value : array.evalAt .builtins options (depth + 1) memory = .ok (.array (items.map .int))) :
    (call "sum" [array]).evalAt .builtins options depth memory =
      (foldArgs Operator.plus.apply (.int 0) (items.map .int)).mapError .fault := by
  have found : Registry.builtins.find? "sum" = some ⟨"sum", .number,
      .all [.unary, .ofType .array], strict (some .array) (unary (sum .standard))⟩ := by
    rw [Registry.builtins_eq]
    rfl
  have gathered : Gathered (some .array)
      (fun arg scope => arg.evalAt .builtins options (depth + 1) scope) memory [array]
      [.array (items.map .int)] :=
    .cons ⟨value, Check.admits_some rfl⟩ .nil
  have numeric (call : Call) : numbers .standard call (.array (items.map .int)) = .ok (items.map .int) := by
    simp [numbers, Value.asArray?, Value.isNumber, bind, Except.bind]
  rw [evalAt_strict found (by rfl) (by simp) gathered, unary, sum, numeric]
  rfl

def reassembled (x y : Expr) : Expr :=
  .call "+" [.call "*" [.call "/" [x, y], y], .call "%" [x, y]]

section Division

variable {x y : Expr} {a b : Int64}

theorem evalAt_binary (op : Operator)
    (left : x.evalAt .builtins options (depth + 1) memory = .ok (.int a))
    (right : y.evalAt .builtins options (depth + 1) memory = .ok (.int b)) :
    (call op.name [x, y]).evalAt .builtins options depth memory =
      (op.apply (.int a) (.int b)).mapError .fault := by
  rw [evalAt_operator op (.cons left (.cons right .nil))]
  simp only [List.map_cons, List.map_nil, foldArgs]
  cases op.apply (.int a) (.int b) <;> rfl

theorem evalAt_remainder
    (left : x.evalAt .builtins options (depth + 1) memory = .ok (.int a))
    (right : y.evalAt .builtins options (depth + 1) memory = .ok (.int b)) :
    ∃ call : Call, (Expr.call "%" [x, y]).evalAt .builtins options depth memory =
      (modulo .standard call (.int a) (.int b)).mapError .fault := by
  have found : Registry.builtins.find? "%" = some ⟨"%", .number, .binaryNumber,
      strict (some .number) (binary (modulo .standard))⟩ := by
    rw [Registry.builtins_eq]
    rfl
  exact evalAt_strict_binary found (by rfl) ⟨left, Check.admits_some rfl⟩ ⟨right, Check.admits_some rfl⟩

theorem evalAt_division
    (dividend : x.evalAt .builtins options (depth + 3) memory = .ok (.int a))
    (divisor : y.evalAt .builtins options (depth + 3) memory = .ok (.int b)) :
    ((∃ v, (call "%" [x, y]).evalAt .builtins options depth memory = .ok v) ↔
      ∃ v, (call "/" [x, y]).evalAt .builtins options depth memory = .ok v) ∧
    ∀ v, (call "/" [x, y]).evalAt .builtins options depth memory = .ok v →
      ∃ q r : Int64, v = .int q ∧
        (call "%" [x, y]).evalAt .builtins options depth memory = .ok (.int r) ∧
        (reassembled x y).evalAt .builtins options depth memory = .ok (.int a) ∧
        a.toInt = q.toInt * b.toInt + r.toInt ∧ r.toInt.natAbs < b.toInt.natAbs ∧
        (r = 0 ∨ r.toInt.sign = a.toInt.sign) := by
  have left (level : Nat) (higher : level ≤ depth + 3) :
      x.evalAt .builtins options level memory = .ok (.int a) :=
    evalAt_nearer higher dividend
  have right (level : Nat) (higher : level ≤ depth + 3) :
      y.evalAt .builtins options level memory = .ok (.int b) :=
    evalAt_nearer higher divisor
  have quotient (level : Nat) (higher : level ≤ depth + 2) :
      (call "/" [x, y]).evalAt .builtins options level memory =
        (Operator.quotient.apply (.int a) (.int b)).mapError .fault :=
    evalAt_binary .quotient (left _ (by omega)) (right _ (by omega))
  have remainder (level : Nat) (higher : level ≤ depth + 2) :
      ∃ call, (Expr.call "%" [x, y]).evalAt .builtins options level memory =
        (modulo .standard call (.int a) (.int b)).mapError .fault :=
    evalAt_remainder (left _ (by omega)) (right _ (by omega))
  obtain ⟨_, outer⟩ := remainder depth (by omega)
  rw [quotient depth (by omega), outer]
  by_cases exact : b.toInt ≠ 0 ∧ Integer.Fits (a.toInt.tdiv b.toInt)
  · obtain ⟨q, r, p, divided, remains, multiplied, added, facts⟩ := division_exact exact.1 exact.2
    obtain ⟨_, inner⟩ := remainder (depth + 1) (by omega)
    have product : (call "*" [call "/" [x, y], y]).evalAt .builtins options (depth + 1) memory =
        .ok (.int p) := by
      have factor := (quotient (depth + 2) (by omega)).trans (congrArg _ divided)
      exact (evalAt_binary .times factor (right _ (by omega))).trans (congrArg _ multiplied)
    have whole : (reassembled x y).evalAt .builtins options depth memory = .ok (.int a) :=
      (evalAt_binary .plus product (inner.trans (congrArg _ (remains _)))).trans (congrArg _ added)
    rw [divided, remains]
    refine ⟨iff_of_true ⟨_, rfl⟩ ⟨_, rfl⟩, ?_⟩
    rintro _ ⟨⟩
    exact ⟨q, r, rfl, rfl, whole, facts⟩
  · obtain ⟨fault, refused⟩ := modulo_refused exact _
    have undivided : Operator.quotient.apply (.int a) (.int b) = .error (Operator.quotient.refusal a b) :=
      Operator.apply_refused fun fine => exact ⟨fine.1 rfl, fine.2⟩
    rw [undivided, refused]
    simp [Except.mapError]

end Division

/-- Arithmetic on integers is exact or an error. Over arguments that come to integers an operator comes to
the exact fold, as long as no divisor is zero and every result on the way is a 64-bit integer, and
otherwise is refused at the first step where one is not; so does the sum of an array of integers, which
starts from zero. A remainder is there exactly when the quotient is; then the operators make up the
dividend again from both, and the remainder is smaller than the divisor and has the sign of the dividend
unless it is zero. -/
theorem integer_arithmetic_exact :
    (∀ (op : Operator) options depth memory args (first : Int64) rest,
      List.Forall₂ (fun arg n => evalAt .builtins options arg (depth + 1) memory = .ok (.int n)) args
          (first :: rest) →
        op.FoldsTo first rest ((call op.name args).evalAt .builtins options depth memory)) ∧
    (∀ options depth memory array (items : List Int64),
      evalAt .builtins options array (depth + 1) memory = .ok (.array (items.map .int)) →
        Operator.plus.FoldsTo 0 items ((call "sum" [array]).evalAt .builtins options depth memory)) ∧
    (∀ options depth memory x y (a b : Int64),
      evalAt .builtins options x (depth + 3) memory = .ok (.int a) →
      evalAt .builtins options y (depth + 3) memory = .ok (.int b) →
        ((∃ v, (call "%" [x, y]).evalAt .builtins options depth memory = .ok v) ↔
          ∃ v, (call "/" [x, y]).evalAt .builtins options depth memory = .ok v) ∧
        ∀ v, (call "/" [x, y]).evalAt .builtins options depth memory = .ok v →
          ∃ q r : Int64, v = .int q ∧
            (call "%" [x, y]).evalAt .builtins options depth memory = .ok (.int r) ∧
            (reassembled x y).evalAt .builtins options depth memory = .ok (.int a) ∧
            a.toInt = q.toInt * b.toInt + r.toInt ∧ r.toInt.natAbs < b.toInt.natAbs ∧
            (r = 0 ∨ r.toInt.sign = a.toInt.sign)) := by
  refine ⟨?_, ?_, ?_⟩
  · intro op options depth memory args first rest values
    rw [evalAt_operator op values]
    exact op.foldsTo_foldArgs first rest
  · intro options depth memory array items value
    rw [evalAt_sum value]
    exact Operator.plus.foldsTo_foldArgs 0 items
  · intro options depth memory x y a b dividend divisor
    exact evalAt_division dividend divisor

/-- A later argument does not bring a sum back that has left the 64-bit integers, in an operator or in an
array; and the least integer divides by three, but not by minus one. -/
theorem integer_arithmetic_exact_edges :
    let least : Int64 := Int64.minValue
    let greatest : Int64 := Int64.maxValue
    let number (n : Int64) : Expr := .constant (.int n)
    (∀ v, (call "+" [number greatest, number 1, number (-1)]).eval .builtins {} .empty ≠ .ok v) ∧
    (call "sum" [.constant (.array [.int greatest, .int least, .int 1])]).eval .builtins {} .empty =
      .ok (.int 0) ∧
    (reassembled (number least) (number 3)).eval .builtins {} .empty = .ok (.int least) ∧
    (∀ v, (call "%" [number least, number (-1)]).eval .builtins {} .empty ≠ .ok v) := by
  intro least greatest number
  have value (n : Int64) (depth : Nat) (room : depth < 1000) :
      (number n).evalAt .builtins {} depth .empty = .ok (.int n) := evalAt_constant room _ _
  obtain ⟨folds, sums, divides⟩ := integer_arithmetic_exact
  have pair (n : Int64) := folds .quotient {} 0 .empty [number least, number n] least [n]
    (.cons (value _ _ (by decide)) (.cons (value _ _ (by decide)) .nil))
  refine ⟨?_, ?_, ?_, ?_⟩
  · intro v total
    have fold := folds .plus {} 0 .empty [number greatest, number 1, number (-1)] greatest [1, -1]
      (.cons (value _ _ (by decide)) (.cons (value _ _ (by decide))
        (.cons (value _ _ (by decide)) .nil)))
    exact absurd ((fold.value v).1 total).1 (by decide)
  · have sum := sums {} 0 .empty _ [greatest, least, 1] (evalAt_constant (by decide) _ _)
    exact (sum.value _).2 ⟨by decide, 0, rfl, by decide⟩
  · have quotient := ((pair 3).value _).2 ⟨by decide, .ofInt (least.toInt.tdiv 3), rfl, by decide⟩
    obtain ⟨_, _, _, _, whole, _⟩ := (divides {} 0 .empty _ _ least 3 (value _ _ (by decide))
      (value _ _ (by decide))).2 _ quotient
    exact whole
  · intro v remainder
    obtain ⟨q, quotient⟩ := (divides {} 0 .empty _ _ least (-1) (value _ _ (by decide))
      (value _ _ (by decide))).1.1 ⟨v, remainder⟩
    exact absurd (((pair (-1)).value q).1 quotient).1 (by decide)

end Expr

end Formula
