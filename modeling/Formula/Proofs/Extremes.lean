import Formula.Proofs.Comparisons
import Formula.Proofs.ReturnTypes

/-! The least and the greatest of some numbers. The scan keeps one argument that no argument beats, although
two integers may both be equal to one double and not to each other: what is strictly less is so
transitively, because rounding keeps the order of the integers. -/
namespace Formula

namespace Value

section StrictOrder

/-- The place of a number as a double. -/
def place? (a : Value) : Option Binary64.Extended := a.asFloat?.bind Binary64.extended?

variable {a b c : Value} {v w : Binary64.Extended}

theorem place?_int (n : Int64) :
    ∃ v, Binary64.rational? (.ofInt n.toInt) = some v ∧ (Value.int n).place? = some (.ofRat v) := by
  obtain ⟨v, denoted, -⟩ := Binary64.nearest_int64 n
  exact ⟨v, denoted, Binary64.extended?_of_rational denoted⟩

theorem place?_mono {m n : Int64} (less : m < n) (left : (Value.int m).place? = some v)
    (right : (Value.int n).place? = some w) : v ≤ w := by
  obtain ⟨_, first, place⟩ := place?_int m
  obtain ⟨_, second, place'⟩ := place?_int n
  cases left.symm.trans place
  cases right.symm.trans place'
  exact Binary64.Extended.strictMono_ofRat.monotone (Binary64.ofInt_mono less first second)

theorem order?_places (number : a.isNumber = true) (mixed : a.asInt? = none ∨ b.asInt? = none) :
    a.order? b = Option.map₂ cmp a.place? b.place? := by
  cases a <;> cases b <;>
    simp_all [isNumber, asInt?, place?, asFloat?, order?, Binary64.order?_eq]

theorem integers_or_mixed (a b : Value) :
    (∃ m n, a = .int m ∧ b = .int n) ∨ a.asInt? = none ∨ b.asInt? = none := by
  cases a <;> cases b <;> simp [asInt?]

/-- What is less has a place that is not greater, and is one of two integers or has a smaller place. -/
theorem places_of_less (number : a.isNumber = true) (less : a.order? b = some .lt) :
    ∃ v w, a.place? = some v ∧ b.place? = some w ∧
      (v < w ∨ v ≤ w ∧ ∃ m n, a = .int m ∧ b = .int n ∧ m < n) := by
  rcases integers_or_mixed a b with ⟨m, n, rfl, rfl⟩ | mixed
  · have below : m < n := Std.compare_eq_lt.1 (Option.some.inj less)
    obtain ⟨_, _, left⟩ := place?_int m
    obtain ⟨_, _, right⟩ := place?_int n
    exact ⟨_, _, left, right, .inr ⟨place?_mono below left right, m, n, rfl, rfl, below⟩⟩
  · rw [order?_places number mixed, Option.map₂_eq_some_iff] at less
    obtain ⟨v, w, left, right, smaller⟩ := less
    exact ⟨v, w, left, right, .inl ((cmp_eq_lt_iff v w).1 smaller)⟩

/-- A smaller place makes a number less, also of two integers. -/
theorem less_of_places (number : a.isNumber = true) (left : a.place? = some v) (right : b.place? = some w)
    (smaller : v < w) : a.order? b = some .lt := by
  rcases integers_or_mixed a b with ⟨m, n, rfl, rfl⟩ | mixed
  · have below : m < n := by
      rcases Std.lt_trichotomy m n with less | same | greater
      · exact less
      · subst same
        cases left.symm.trans right
        exact absurd smaller (lt_irrefl _)
      · exact absurd smaller (place?_mono greater right left).not_gt
    exact congrArg some (Std.compare_eq_lt.2 below)
  · rw [order?_places number mixed, left, right]
    exact congrArg some ((cmp_eq_lt_iff v w).2 smaller)

/-- Unlike to be equal, to be strictly less is transitive. -/
theorem less_trans (first : a.isNumber = true) (second : b.isNumber = true) (below : a.order? b = some .lt)
    (above : b.order? c = some .lt) : a.order? c = some .lt := by
  obtain ⟨u, v, placeA, placeB, lower⟩ := places_of_less first below
  obtain ⟨v', w, placeB', placeC, upper⟩ := places_of_less second above
  cases placeB.symm.trans placeB'
  rcases lower with strict | ⟨weak, m, n, rfl, rfl, less⟩
  · have reach : v ≤ w := upper.elim le_of_lt (·.1)
    exact less_of_places first placeA placeC (strict.trans_le reach)
  · rcases upper with strict | ⟨_, n', k, same, rfl, less'⟩
    · exact less_of_places first placeA placeC (weak.trans_lt strict)
    · cases same
      exact congrArg some (Std.compare_eq_lt.2 (Std.lt_trans less less'))

end StrictOrder

end Value

namespace Builtins

inductive Extreme
  | least
  | greatest
  deriving DecidableEq, Repr

namespace Extreme

def name : Extreme → String
  | .least => "min"
  | .greatest => "max"

/-- How a better argument stands to one that it takes the place of. -/
def better : Extreme → Ordering
  | .least => .lt
  | .greatest => .gt

def apply : Extreme → List Value → Except Fault Value
  | .least => Builtins.least .standard
  | .greatest => Builtins.greatest .standard

/-- One step of the scan: the better of the best so far and one more argument. -/
def keep (extreme : Extreme) (best v : Value) : Value :=
  if v.order? best = some extreme.better then v else best

/-- No argument is better. -/
def Unbeaten (extreme : Extreme) (values : List Value) (best : Value) : Prop :=
  ∀ v ∈ values, v.order? best ≠ some extreme.better

variable {extreme : Extreme} {a b c : Value}

theorem apply_cons (extreme : Extreme) (first : Value) (rest : List Value) :
    extreme.apply (first :: rest) = .ok (rest.foldl extreme.keep first) := by
  have turned (best v : Value) (order : Ordering) :
      (best.order? v == some order.swap) = true ↔ v.order? best = some order := by
    rw [Value.order?_swap v best, beq_iff_eq]
    rcases v.order? best with _ | other
    · simp
    · cases other <;> cases order <;> simp
  have step : (fun best v => if best.order? v == some extreme.better.swap then v else best) =
      extreme.keep := by
    funext best v
    exact if_congr (turned best v _) rfl rfl
  rw [← step]
  cases extreme <;> rfl

theorem better_trans (first : a.isNumber = true) (second : b.isNumber = true) (third : c.isNumber = true)
    (below : a.order? b = some extreme.better) (above : b.order? c = some extreme.better) :
    a.order? c = some extreme.better := by
  cases extreme with
  | least => exact Value.less_trans first second below above
  | greatest =>
    have turned {v w : Value} (greater : v.order? w = some .gt) : w.order? v = some .lt := by
      rw [Value.order?_swap v w, greater]
      rfl
    have less := Value.less_trans third second (turned above) (turned below)
    rw [better, Value.order?_swap c a, less]
    rfl

theorem not_better_self (a : Value) : a.order? a ≠ some extreme.better := by
  intro better
  have turned := Value.order?_swap a a
  rw [better] at turned
  cases extreme <;> simp [Extreme.better] at turned

theorem Unbeaten.keep {seen : List Value} {best v : Value} (unbeaten : extreme.Unbeaten seen best)
    (numbers : ∀ w ∈ seen, w.isNumber = true) (number : best.isNumber = true) (number' : v.isNumber = true) :
    extreme.Unbeaten (v :: seen) (extreme.keep best v) := by
  unfold Extreme.keep
  split
  · rename_i better
    refine List.forall_mem_cons.2 ⟨not_better_self v, fun w member beats => ?_⟩
    exact unbeaten w member (better_trans (numbers w member) number' number beats better)
  · rename_i worse
    exact List.forall_mem_cons.2 ⟨worse, unbeaten⟩

theorem keep_mem (best v : Value) : extreme.keep best v = best ∨ extreme.keep best v = v := by
  unfold keep
  split
  · exact .inr rfl
  · exact .inl rfl

theorem unbeaten_foldl (rest : List Value) : ∀ (seen : List Value) {best : Value},
    (∀ v ∈ seen ++ rest, v.isNumber = true) → best ∈ seen → extreme.Unbeaten seen best →
      rest.foldl extreme.keep best ∈ seen ++ rest ∧
        extreme.Unbeaten (seen ++ rest) (rest.foldl extreme.keep best) := by
  -- By induction on the arguments still to come; the best so far is one of those in `seen`.
  induction rest with
  | nil =>
    intro seen best _ member unbeaten
    simpa using ⟨member, unbeaten⟩
  | cons v rest ih =>
    intro seen best numbers member unbeaten
    have reordered (w : Value) : w ∈ (v :: seen) ++ rest ↔ w ∈ seen ++ v :: rest := by
      simp only [List.cons_append, List.mem_cons, List.mem_append]
      tauto
    have number (w : Value) (present : w ∈ seen) : w.isNumber = true :=
      numbers w (List.mem_append_left _ present)
    have kept : extreme.keep best v ∈ v :: seen := by
      rcases keep_mem best v with same | same <;> rw [same]
      · exact List.mem_cons_of_mem v member
      · exact List.mem_cons_self
    have step := unbeaten.keep number (number best member) (numbers v (by simp))
    obtain ⟨present, best⟩ := ih (v :: seen) (fun w there => numbers w ((reordered w).1 there)) kept step
    exact ⟨(reordered _).1 present, fun w there => best w ((reordered w).2 there)⟩

theorem apply_unbeaten (extreme : Extreme) {values : List Value} (present : values ≠ [])
    (numbers : ∀ v ∈ values, v.isNumber = true) :
    ∃ best ∈ values, extreme.apply values = .ok best ∧ extreme.Unbeaten values best := by
  cases values with
  | nil => exact absurd rfl present
  | cons first rest =>
    have alone : extreme.Unbeaten [first] first :=
      List.forall_mem_singleton.2 (not_better_self first)
    obtain ⟨member, unbeaten⟩ := unbeaten_foldl rest [first] numbers (by simp) alone
    exact ⟨_, member, apply_cons extreme first rest, unbeaten⟩

theorem looseEq_of_unbeaten {values : List Value} (numbers : ∀ v ∈ values, v.isNumber = true)
    (free : ∀ v ∈ values, v.NanFree) (left : a ∈ values) (right : b ∈ values)
    (first : extreme.Unbeaten values a) (second : extreme.Unbeaten values b) : a.looseEq b = true := by
  have comparable : a.Comparable b := .inl ⟨⟨numbers a left, free a left⟩, numbers b right, free b right⟩
  obtain ⟨order, compared⟩ := Option.isSome_iff_exists.1 (Value.isSome_order?_iff.2 comparable)
  have here := second a left
  have there := first b right
  rw [Value.order?_swap a b, compared] at there
  rw [compared] at here
  have equal : order = .eq := by
    cases order <;> cases extreme <;> simp_all [better]
  rw [← Value.order?_eq_iff_looseEq comparable, compared, equal]

theorem apply_perm (extreme : Extreme) {values permuted : List Value} (same : values.Perm permuted)
    (present : values ≠ []) (numbers : ∀ v ∈ values, v.isNumber = true) (free : ∀ v ∈ values, v.NanFree) :
    ∃ best other, extreme.apply values = .ok best ∧ extreme.apply permuted = .ok other ∧
      best.looseEq other = true := by
  -- Both results are among the arguments, and neither is better than the other.
  have present' : permuted ≠ [] := by
    rintro rfl
    exact present same.eq_nil
  obtain ⟨best, member, applied, unbeaten⟩ := extreme.apply_unbeaten present numbers
  obtain ⟨other, member', applied', unbeaten'⟩ :=
    extreme.apply_unbeaten present' fun v there => numbers v (same.mem_iff.2 there)
  refine ⟨best, other, applied, applied', ?_⟩
  exact looseEq_of_unbeaten numbers free member (same.mem_iff.2 member') unbeaten
    fun v there => unbeaten' v (same.mem_iff.1 there)

end Extreme

end Builtins

namespace Expr

open Builtins

variable {options : Options} {depth : Nat} {memory : Memory}

theorem find?_extreme (extreme : Extreme) : ∃ function,
    Registry.builtins.find? extreme.name = some function ∧
      function.logic = strict (some .number) fun _ args => extreme.apply args := by
  rw [Registry.builtins_eq]
  cases extreme <;> exact ⟨_, rfl, rfl⟩

theorem evalAt_extreme (extreme : Extreme) {args : List Expr} {values : List Value}
    (present : values ≠ []) (numbers : ∀ v ∈ values, v.isNumber = true)
    (evaluated : List.Forall₂ (fun arg v => arg.evalAt .builtins options (depth + 1) memory = .ok v)
      args values) :
    (call extreme.name args).evalAt .builtins options depth memory =
      (extreme.apply values).mapError .fault := by
  obtain ⟨function, found, logic⟩ := find?_extreme extreme
  rw [evalAt_strict found logic present (gathered_of_passes evaluated numbers)]

/-- The least of some numbers is one of them, and none of them is less; the greatest is one of them, and
none is greater. What is no number is neither less nor greater than anything. Without it the result does
not depend on the order of the arguments, as far as equality can tell. -/
theorem extremes_extremal :
    (∀ (extreme : Extreme) options depth memory args (values : List Value), values ≠ [] →
      (∀ v ∈ values, v.isNumber = true) →
      List.Forall₂ (fun arg v => evalAt .builtins options arg (depth + 1) memory = .ok v) args values →
        ∃ best ∈ values, (call extreme.name args).evalAt .builtins options depth memory = .ok best ∧
          ∀ v ∈ values, v.order? best ≠ some extreme.better) ∧
    (∀ (extreme : Extreme) options depth memory args others (values permuted : List Value), values ≠ [] →
      (∀ v ∈ values, v.isNumber = true ∧ v.NanFree) → values.Perm permuted →
      List.Forall₂ (fun arg v => evalAt .builtins options arg (depth + 1) memory = .ok v) args values →
      List.Forall₂ (fun arg v => evalAt .builtins options arg (depth + 1) memory = .ok v) others permuted →
        ∃ best other, (call extreme.name args).evalAt .builtins options depth memory = .ok best ∧
          (call extreme.name others).evalAt .builtins options depth memory = .ok other ∧
          best.looseEq other = true) := by
  refine ⟨?_, ?_⟩
  · intro extreme options depth memory args values present numbers evaluated
    obtain ⟨best, member, applied, unbeaten⟩ := extreme.apply_unbeaten present numbers
    refine ⟨best, member, ?_, unbeaten⟩
    rw [evalAt_extreme extreme present numbers evaluated, applied]
    rfl
  · intro extreme options depth memory args others values permuted present free same evaluated evaluated'
    have present' : permuted ≠ [] := by
      rintro rfl
      exact present same.eq_nil
    have numbers (v : Value) (member : v ∈ values) : v.isNumber = true := (free v member).1
    have numbers' (v : Value) (member : v ∈ permuted) : v.isNumber = true := numbers v (same.mem_iff.2 member)
    obtain ⟨best, other, applied, applied', equal⟩ :=
      extreme.apply_perm same present numbers fun v member => (free v member).2
    refine ⟨best, other, ?_, ?_, equal⟩
    · rw [evalAt_extreme extreme present numbers evaluated, applied]
      rfl
    · rw [evalAt_extreme extreme present' numbers' evaluated', applied']
      rfl

/-- Both integers are equal to the double, and not to each other. What is no number is not beaten. -/
theorem extremes_extremal_mixed :
    let odd : Value := .int 9007199254740993
    let even : Value := .int 9007199254740992
    let double : Value := .float 9007199254740992
    let least (values : List Value) : Outcome :=
      (call "min" (values.map .constant)).eval .builtins {} .empty
    (∃ best ∈ [.float (0.0 / 0.0), odd], least [.float (0.0 / 0.0), odd] = .ok best ∧
      ∀ v ∈ [.float (0.0 / 0.0), odd], v.order? best ≠ some .lt) ∧
    ∃ best other, least [odd, double, even] = .ok best ∧ least [double, odd, even] = .ok other ∧
      best.looseEq other = true := by
  intro odd even double least
  have evaluated (values : List Value) : List.Forall₂ (fun arg v =>
      evalAt .builtins {} arg (0 + 1) .empty = .ok v) (values.map .constant) values :=
    List.forall₂_map_left_iff.2 (List.forall₂_same.2 fun v _ => evalAt_constant (by decide) _ _)
  obtain ⟨extremal, insensitive⟩ := extremes_extremal
  have number : Float.isNaN 9007199254740992 = false := by decide +kernel
  refine ⟨?_, ?_⟩
  · exact extremal .least {} 0 .empty _ [.float (0.0 / 0.0), odd] (by simp) (by simp [odd, Value.isNumber])
      (evaluated _)
  · have numbers : ∀ v ∈ [odd, double, even], v.isNumber = true ∧ v.NanFree := by
      rw [List.forall_mem_cons, List.forall_mem_cons, List.forall_mem_singleton]
      exact ⟨⟨rfl, trivial⟩, ⟨rfl, number⟩, rfl, trivial⟩
    exact insensitive .least {} 0 .empty _ _ [odd, double, even] [double, odd, even] (by simp) numbers
      (.swap _ _ _) (evaluated _) (evaluated _)

end Expr

end Formula
