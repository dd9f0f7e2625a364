import Formula.Proofs.DoubleOrder
import Formula.Proofs.StrictCalls

/-! Equality of values. It is symmetric, and reflexive on what holds no double that is no number. It is
transitive but for a double between two integers that it cannot tell apart, at any depth. -/
namespace Formula

theorem Fields.get?_of_below {α : Type} {key : String} {fields : List (String × α)}
    (below : ∀ field ∈ fields, key < field.1) : get? key fields = none := by
  induction fields with
  | nil => rfl
  | cons field rest ih =>
    obtain ⟨here, later⟩ := List.forall_mem_cons.1 below
    have other : field.1 ≠ key := by
      intro same
      rw [same] at here
      exact String.lt_irrefl key here
    rw [get?, if_neg other, ih later]

namespace Value

section Laws

mutual

/-- No double in the value, at any depth, is other than a number. -/
def NanFree : Value → Prop
  | .float x => x.isNaN = false
  | .array items => NanFreeItems items
  | .object fields => NanFreeFields fields
  | .null | .bool _ | .int _ | .str _ => True

def NanFreeItems : List Value → Prop
  | [] => True
  | item :: rest => item.NanFree ∧ NanFreeItems rest

def NanFreeFields : List (String × Value) → Prop
  | [] => True
  | (_, value) :: rest => value.NanFree ∧ NanFreeFields rest

end

mutual

theorem looseEq_self_iff : (a : Value) → (a.looseEq a = true ↔ a.NanFree)
  | .null | .bool _ | .int _ | .str _ => by simp [looseEq, NanFree]
  | .float x => by simp [looseEq, NanFree]
  | .array items => by simp [looseEq, NanFree, looseEqItems_self_iff items]
  | .object fields => by simp [looseEq, NanFree, looseEqFields_self_iff fields]

theorem looseEqItems_self_iff : (items : List Value) → (looseEqItems items items = true ↔ NanFreeItems items)
  | [] => by simp [looseEqItems, NanFreeItems]
  | item :: rest => by
    simp [looseEqItems, NanFreeItems, looseEq_self_iff item, looseEqItems_self_iff rest]

theorem looseEqFields_self_iff :
    (fields : List (String × Value)) → (looseEqFields fields fields = true ↔ NanFreeFields fields)
  | [] => by simp [looseEqFields, NanFreeFields]
  | (_, value) :: rest => by
    simp [looseEqFields, NanFreeFields, looseEq_self_iff value, looseEqFields_self_iff rest]

end

mutual

theorem looseEq_comm : (a b : Value) → a.looseEq b = b.looseEq a
  | .null, b | .bool _, b | .int _, b | .float _, b | .str _, b => by
    cases b <;> simp only [looseEq] <;> exact BEq.comm
  | .array as, b => by
    cases b <;> simp only [looseEq]
    exact looseEqItems_comm as _
  | .object as, b => by
    cases b <;> simp only [looseEq]
    exact looseEqFields_comm as _

theorem looseEqItems_comm : (as bs : List Value) → looseEqItems as bs = looseEqItems bs as
  | [], bs => by cases bs <;> rfl
  | _ :: _, [] => rfl
  | a :: as, b :: bs => by simp only [looseEqItems, looseEq_comm a b, looseEqItems_comm as bs]

theorem looseEqFields_comm : (as bs : List (String × Value)) → looseEqFields as bs = looseEqFields bs as
  | [], bs => by cases bs <;> rfl
  | _ :: _, [] => rfl
  | (k, a) :: as, (l, b) :: bs => by
    simp only [looseEqFields, looseEq_comm a b, looseEqFields_comm as bs]
    rw [BEq.comm (a := k)]

end

end Laws

section Objects

/-- The same keys, with equal values. -/
def SameFields (as bs : List (String × Value)) : Prop :=
  ∀ key, Option.Rel (fun a b => a.looseEq b = true) (Fields.get? key as) (Fields.get? key bs)

theorem sameFields_of_looseEq : ∀ {as bs : List (String × Value)}, looseEqFields as bs = true →
    SameFields as bs
  | [], [], _ => fun _ => .none
  | (k, a) :: as, (l, b) :: bs, equal => by
    simp only [looseEqFields, Bool.and_eq_true, beq_iff_eq] at equal
    obtain ⟨⟨rfl, head⟩, tail⟩ := equal
    intro key
    simp only [Fields.get?]
    split
    · exact .some head
    · exact sameFields_of_looseEq tail key

theorem SameFields.symm {as bs : List (String × Value)} (same : SameFields as bs) : SameFields bs as := by
  intro key
  have here := same key
  generalize Fields.get? key as = a? at *
  generalize Fields.get? key bs = b? at *
  cases here with
  | some equal => exact .some (by rwa [looseEq_comm])
  | none => exact .none

theorem SameFields.not_before {k l : String} {a b : Value} {as bs : List (String × Value)}
    (same : SameFields ((k, a) :: as) ((l, b) :: bs)) (above : ∀ field ∈ bs, l < field.1) : ¬ k < l := by
  intro before
  have later (field : String × Value) (member : field ∈ bs) : k < field.1 :=
    String.lt_trans before (above field member)
  have here := same k
  rw [Fields.get?_of_below (List.forall_mem_cons.2 ⟨before, later⟩)] at here
  simp [Fields.get?] at here

theorem looseEqFields_of_sameFields : ∀ {as bs : List (String × Value)}, Fields.Ascending as →
    Fields.Ascending bs → SameFields as bs → looseEqFields as bs = true
  | [], [], _, _, _ => rfl
  | [], (l, b) :: bs, _, _, same => by
    have here := same l
    simp [Fields.get?] at here
  | (k, a) :: as, [], _, _, same => by
    have here := same k
    simp [Fields.get?] at here
  | (k, a) :: as, (l, b) :: bs, ascending, ascending', same => by
    obtain ⟨above, rest⟩ := List.pairwise_cons.1 ascending
    obtain ⟨above', rest'⟩ := List.pairwise_cons.1 ascending'
    obtain rfl : k = l := by
      by_contra different
      have notAfter := same.symm.not_before above
      exact same.not_before above' (Std.lt_of_le_of_ne (String.not_lt.1 notAfter) different)
    have head : a.looseEq b = true := by simpa [Fields.get?] using same k
    have tail : SameFields as bs := by
      intro key
      by_cases here : k = key
      · subst here
        rw [Fields.get?_of_below above, Fields.get?_of_below above']
        exact .none
      · simpa [Fields.get?, here] using same key
    simp [looseEqFields, head, looseEqFields_of_sameFields rest rest' tail]

theorem looseEq_object_iff_same {as bs : List (String × Value)} (ascending : Fields.Ascending as)
    (ascending' : Fields.Ascending bs) :
    (Value.object as).looseEq (.object bs) = true ↔ SameFields as bs := by
  simp only [looseEq]
  exact ⟨sameFields_of_looseEq, looseEqFields_of_sameFields ascending ascending'⟩

end Objects

section Kinds

variable {a : Value}

theorem looseEq_null_iff : a.looseEq .null = true ↔ a = .null := by
  cases a <;> simp [looseEq]

theorem looseEq_bool_iff {b : Bool} : a.looseEq (.bool b) = true ↔ a = .bool b := by
  cases a <;> simp [looseEq]

theorem looseEq_str_iff {s : String} : a.looseEq (.str s) = true ↔ a = .str s := by
  cases a <;> simp [looseEq]

theorem looseEq_array_iff {items : List Value} :
    a.looseEq (.array items) = true ↔ ∃ as, a = .array as ∧ looseEqItems as items = true := by
  cases a <;> simp [looseEq]

theorem looseEq_object_iff {fields : List (String × Value)} :
    a.looseEq (.object fields) = true ↔ ∃ as, a = .object as ∧ looseEqFields as fields = true := by
  cases a <;> simp [looseEq]

theorem isNumber_of_looseEq {b : Value} (equal : a.looseEq b = true) (number : b.isNumber = true) :
    a.isNumber = true := by
  cases b <;> cases a <;> simp_all [looseEq, isNumber]

end Kinds

section Transitivity

mutual

/-- Somewhere the outer two hold different integers, and the middle one a double. -/
def Splits : Value → Value → Value → Prop
  | .int a, .float _, .int c => a ≠ c
  | .array as, .array bs, .array cs => SplitsItems as bs cs
  | .object as, .object bs, .object cs => SplitsFields as bs cs
  | _, _, _ => False
termination_by structural a => a

def SplitsItems : List Value → List Value → List Value → Prop
  | a :: as, b :: bs, c :: cs => a.Splits b c ∨ SplitsItems as bs cs
  | _, _, _ => False
termination_by structural a => a

def SplitsFields :
    List (String × Value) → List (String × Value) → List (String × Value) → Prop
  | (_, a) :: as, (_, b) :: bs, (_, c) :: cs => a.Splits b c ∨ SplitsFields as bs cs
  | _, _, _ => False
termination_by structural a => a

end

/-- Doubles are equal transitively, and so are integers; only an integer that is compared as a double can
come to equal another one. -/
theorem looseEq_number_iff {a b c : Value} (numbers : a.isNumber = true ∧ b.isNumber = true ∧ c.isNumber = true)
    (first : a.looseEq b = true) (second : b.looseEq c = true) :
    a.looseEq c = true ↔ ¬ a.Splits b c := by
  cases a <;> cases b <;> cases c <;> simp_all [isNumber, looseEq, Splits]
  all_goals exact PartialEquivBEq.trans first second

mutual

/-- The recursion is over the value in the middle, whose kind the other two have. -/
theorem looseEq_middle (b : Value) : ∀ {a c : Value}, a.looseEq b = true → b.looseEq c = true →
    (a.looseEq c = true ↔ ¬ a.Splits b c) := by
  intro a c first second
  rw [looseEq_comm] at second
  match b with
  | .null =>
    rw [looseEq_null_iff.1 first, looseEq_null_iff.1 second]
    simp [looseEq, Splits]
  | .bool _ =>
    rw [looseEq_bool_iff.1 first, looseEq_bool_iff.1 second]
    simp [looseEq, Splits]
  | .str _ =>
    rw [looseEq_str_iff.1 first, looseEq_str_iff.1 second]
    simp [looseEq, Splits]
  | .int _ | .float _ =>
    refine looseEq_number_iff ⟨?_, rfl, ?_⟩ first (by rwa [looseEq_comm])
    · exact isNumber_of_looseEq first rfl
    · exact isNumber_of_looseEq second rfl
  | .array bs =>
    obtain ⟨as, rfl, front⟩ := looseEq_array_iff.1 first
    obtain ⟨cs, rfl, back⟩ := looseEq_array_iff.1 second
    rw [looseEqItems_comm] at back
    simpa only [looseEq, Splits] using looseEqItems_middle bs front back
  | .object bs =>
    obtain ⟨as, rfl, front⟩ := looseEq_object_iff.1 first
    obtain ⟨cs, rfl, back⟩ := looseEq_object_iff.1 second
    rw [looseEqFields_comm] at back
    simpa only [looseEq, Splits] using looseEqFields_middle bs front back

theorem looseEqItems_middle (bs : List Value) : ∀ {as cs : List Value}, looseEqItems as bs = true →
    looseEqItems bs cs = true → (looseEqItems as cs = true ↔ ¬ SplitsItems as bs cs) := by
  intro as cs first second
  match as, bs, cs with
  | [], [], [] => simp [looseEqItems, SplitsItems]
  | a :: as, b :: bs, c :: cs =>
    simp only [looseEqItems, Bool.and_eq_true] at first second
    simp only [looseEqItems, Bool.and_eq_true, SplitsItems, not_or, looseEq_middle b first.1 second.1,
      looseEqItems_middle bs first.2 second.2]

theorem looseEqFields_middle (bs : List (String × Value)) : ∀ {as cs : List (String × Value)},
    looseEqFields as bs = true → looseEqFields bs cs = true →
      (looseEqFields as cs = true ↔ ¬ SplitsFields as bs cs) := by
  intro as cs first second
  match as, bs, cs with
  | [], [], [] => simp [looseEqFields, SplitsFields]
  | (k, a) :: as, (l, b) :: bs, (m, c) :: cs =>
    simp only [looseEqFields, Bool.and_eq_true, beq_iff_eq] at first second
    obtain ⟨⟨rfl, head⟩, tail⟩ := first
    obtain ⟨⟨rfl, head'⟩, tail'⟩ := second
    simp only [looseEqFields, Bool.and_eq_true, SplitsFields, not_or, looseEq_middle b head head',
      looseEqFields_middle bs tail tail', beq_self_eq_true, true_and]

end

/-- Where no item is split from an equal one by the needles, equal needles are in the same arrays. -/
theorem any_looseEq {items : List Value} {v w : Value} (equal : v.looseEq w = true)
    (whole : ∀ item ∈ items, ¬ item.Splits v w ∧ ¬ item.Splits w v) :
    items.any (·.looseEq v) = items.any (·.looseEq w) := by
  have reversed : w.looseEq v = true := by rwa [looseEq_comm]
  rw [Bool.eq_iff_iff, List.any_eq_true, List.any_eq_true]
  constructor
  · rintro ⟨item, member, found⟩
    exact ⟨item, member, (looseEq_middle v found equal).2 (whole item member).1⟩
  · rintro ⟨item, member, found⟩
    exact ⟨item, member, (looseEq_middle w found reversed).2 (whole item member).2⟩

end Transitivity

section Short

mutual

/-- Every integer in the value, at any depth, is one that doubles represent with both its neighbours. -/
def Short : Value → Prop
  | .int n => n.toInt.natAbs < 2 ^ 53
  | .array items => ShortItems items
  | .object fields => ShortFields fields
  | .null | .bool _ | .float _ | .str _ => True

def ShortItems : List Value → Prop
  | [] => True
  | item :: rest => item.Short ∧ ShortItems rest

def ShortFields : List (String × Value) → Prop
  | [] => True
  | (_, value) :: rest => value.Short ∧ ShortFields rest

end

theorem eq_of_beq_short {a c : Int64} {y : Float} (short : a.toInt.natAbs < 2 ^ 53)
    (first : (Float.ofInt a.toInt == y) = true) (second : (y == Float.ofInt c.toInt) = true) : a = c := by
  have equal : (Float.ofInt a.toInt == Float.ofInt c.toInt) = true := PartialEquivBEq.trans first second
  obtain ⟨v, left, -⟩ := Binary64.nearest_int64 a
  obtain ⟨w, right, -⟩ := Binary64.nearest_int64 c
  obtain rfl := Binary64.eq_of_beq_rational equal left right
  exact Binary64.eq_of_ofInt_short short (right.trans left.symm)

mutual

theorem Short.not_splits (a : Value) (short : a.Short) : ∀ {b c : Value}, a.looseEq b = true →
    b.looseEq c = true → ¬ a.Splits b c := by
  intro b c first second splits
  match a, b, c with
  | .int _, .float _, .int _ =>
    simp only [looseEq] at first second
    exact splits (eq_of_beq_short short first second)
  | .array as, .array bs, .array cs =>
    simp only [looseEq] at first second
    exact ShortItems.not_splits as short first second splits
  | .object as, .object bs, .object cs =>
    simp only [looseEq] at first second
    exact ShortFields.not_splits as short first second splits

theorem ShortItems.not_splits (as : List Value) (short : ShortItems as) : ∀ {bs cs : List Value},
    looseEqItems as bs = true → looseEqItems bs cs = true → ¬ SplitsItems as bs cs := by
  intro bs cs first second splits
  match as, bs, cs with
  | a :: as, b :: bs, c :: cs =>
    simp only [looseEqItems, Bool.and_eq_true] at first second
    rcases splits with here | later
    · exact Short.not_splits a short.1 first.1 second.1 here
    · exact ShortItems.not_splits as short.2 first.2 second.2 later

theorem ShortFields.not_splits (as : List (String × Value)) (short : ShortFields as) :
    ∀ {bs cs : List (String × Value)}, looseEqFields as bs = true → looseEqFields bs cs = true →
      ¬ SplitsFields as bs cs := by
  intro bs cs first second splits
  match as, bs, cs with
  | (_, a) :: as, (_, b) :: bs, (_, c) :: cs =>
    simp only [looseEqFields, Bool.and_eq_true] at first second
    rcases splits with here | later
    · exact Short.not_splits a short.1 first.1.2 second.1.2 here
    · exact ShortFields.not_splits as short.2 first.2 second.2 later

end

end Short

end Value

namespace Expr

variable {options : Options} {depth : Nat} {memory : Memory} {x y z : Expr} {a b c : Value}

theorem evalAt_equal (left : x.evalAt .builtins options (depth + 1) memory = .ok a)
    (right : y.evalAt .builtins options (depth + 1) memory = .ok b) :
    (call "==" [x, y]).evalAt .builtins options depth memory = .ok (.bool (a.looseEq b)) := by
  have found : Registry.builtins.find? "==" = some ⟨"==", .boolean, .binary,
      strict none (binary Builtins.equal)⟩ := by
    rw [Registry.builtins_eq]
    rfl
  obtain ⟨use, computed⟩ := evalAt_strict_binary found (by rfl) ⟨left, Check.admits_none _⟩
    ⟨right, Check.admits_none _⟩
  exact computed

theorem evalAt_contains {items : List Value}
    (left : x.evalAt .builtins options (depth + 1) memory = .ok (.array items))
    (right : y.evalAt .builtins options (depth + 1) memory = .ok b) :
    (call "contains" [x, y]).evalAt .builtins options depth memory =
      .ok (.bool (items.any (·.looseEq b))) := by
  have found : Registry.builtins.find? "contains" = some ⟨"contains", .boolean,
      .all [.binary, .positional [.array ∪ .string ∪ .object, .any]],
      strict none (binary Builtins.contains)⟩ := by
    rw [Registry.builtins_eq]
    rfl
  obtain ⟨use, computed⟩ := evalAt_strict_binary found (by rfl) ⟨left, Check.admits_none _⟩
    ⟨right, Check.admits_none _⟩
  exact computed

/-- Equality is transitive exactly where no double stands between two different integers. Let two values
equal a third. They equal each other if and only if there is no place, at any depth, where they hold
different integers and the third holds a double; and there is none if the integers of one of them are
short. So it is with the function `==`; and an array contains one of two equal needles when it contains
the other, unless the one stands between the other and an item. -/
theorem looseEq_trans_iff :
    (∀ a b c : Value, a.looseEq b = true → b.looseEq c = true →
      (a.looseEq c = true ↔ ¬ a.Splits b c) ∧ (a.Short ∨ c.Short → a.looseEq c = true)) ∧
    (∀ options depth memory x y z (a b c : Value),
      evalAt .builtins options x (depth + 1) memory = .ok a →
      evalAt .builtins options y (depth + 1) memory = .ok b →
      evalAt .builtins options z (depth + 1) memory = .ok c →
      (call "==" [x, y]).evalAt .builtins options depth memory = .ok (.bool true) →
      (call "==" [y, z]).evalAt .builtins options depth memory = .ok (.bool true) →
        ((call "==" [x, z]).evalAt .builtins options depth memory = .ok (.bool true) ↔
          ¬ a.Splits b c)) ∧
    (∀ options depth memory x y z items (v w : Value),
      evalAt .builtins options x (depth + 1) memory = .ok (.array items) →
      evalAt .builtins options y (depth + 1) memory = .ok v →
      evalAt .builtins options z (depth + 1) memory = .ok w →
      (call "==" [y, z]).evalAt .builtins options depth memory = .ok (.bool true) →
      (∀ item ∈ items, ¬ item.Splits v w ∧ ¬ item.Splits w v) →
        (call "contains" [x, y]).evalAt .builtins options depth memory =
          (call "contains" [x, z]).evalAt .builtins options depth memory) := by
  refine ⟨?_, ?_, ?_⟩
  · intro a b c first second
    have middle := Value.looseEq_middle b first second
    refine ⟨middle, ?_⟩
    rintro (short | short)
    · exact middle.2 (short.not_splits a first second)
    · rw [Value.looseEq_comm] at first second ⊢
      exact (Value.looseEq_middle b second first).2 (short.not_splits c second first)
  · intro options depth memory x y z a b c left middle right first second
    rw [evalAt_equal left middle] at first
    rw [evalAt_equal middle right] at second
    rw [evalAt_equal left right]
    simp only [Except.ok.injEq, Value.bool.injEq] at first second ⊢
    exact Value.looseEq_middle b first second
  · intro options depth memory x y z items v w array left right equal whole
    rw [evalAt_equal left right] at equal
    simp only [Except.ok.injEq, Value.bool.injEq] at equal
    rw [evalAt_contains array left, evalAt_contains array right, Value.any_looseEq equal whole]

/-- The two zeros, through an integer, and a short integer through a double. -/
theorem looseEq_trans_iff_zeros :
    let plus : Value := .array [.float 0.0]
    let whole : Value := .array [.int 0]
    let minus : Value := .array [.float (-0.0)]
    plus.looseEq whole = true ∧ whole.looseEq minus = true ∧ plus.looseEq minus = true ∧
    (Value.int 1).looseEq (.int 1) = true ∧
    (call "==" [.constant plus, .constant minus]).eval .builtins {} .empty = .ok (.bool true) ∧
    (call "contains" [.constant plus, .constant (.int 0)]).eval .builtins {} .empty =
      (call "contains" [.constant plus, .constant (.float (-0.0))]).eval .builtins {} .empty := by
  intro plus whole minus
  have value (v : Value) : (Expr.constant v).evalAt .builtins {} (0 + 1) .empty = .ok v :=
    evalAt_constant (by decide) _ _
  have first : plus.looseEq whole = true := by decide +kernel
  have second : whole.looseEq minus = true := by decide +kernel
  have between : ¬ plus.Splits whole minus := by
    simp [plus, whole, minus, Value.Splits, Value.SplitsItems]
  obtain ⟨values, equals, contains⟩ := looseEq_trans_iff
  refine ⟨first, second, (values plus whole minus first second).1.2 between, ?_, ?_, ?_⟩
  · exact (values (.int 1) (.float 1) (.int 1) (by decide +kernel) (by decide +kernel)).2
      (.inl (show Int.natAbs 1 < 2 ^ 53 by decide))
  · refine (equals {} 0 .empty _ _ _ plus whole minus (value _) (value _) (value _) ?_ ?_).2 between
    · rw [evalAt_equal (value _) (value _), first]
    · rw [evalAt_equal (value _) (value _), second]
  · refine contains {} 0 .empty _ _ _ _ (.int 0) (.float (-0.0)) (value plus) (value _) (value _) ?_ ?_
    · have zero : (Value.int 0).looseEq (.float (-0.0)) = true := by decide +kernel
      rw [evalAt_equal (value _) (value _), zero]
    · simp [Value.Splits]

/-- Two integers, with the double between them that equals both. -/
theorem looseEq_not_transitive :
    let a : Value := .int 9007199254740992
    let b : Value := .float 9007199254740992
    let c : Value := .int 9007199254740993
    (a.NanFree ∧ b.NanFree ∧ c.NanFree) ∧ a.looseEq b = true ∧ b.looseEq c = true ∧
      a.looseEq c = false := by
  have number : Float.isNaN 9007199254740992 = false := by decide +kernel
  exact ⟨⟨trivial, number, trivial⟩, by decide +kernel, by decide +kernel, by decide +kernel⟩

end Expr

end Formula
