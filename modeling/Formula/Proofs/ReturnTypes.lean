import Formula.Proofs.Bound

/-! Declared types hold. Whatever value a standard function comes to on a node that its rule
accepts, the kind of that value is among the kinds the function declares; so the types that rules
check in a tree are the types its values have. -/
namespace Formula

namespace TypeSet

theorem within_any (a : TypeSet) : a.within any = true := by
  rcases a with ⟨_ | _, _ | _, _ | _, _ | _, _ | _⟩ <;> decide

theorem within_self (a : TypeSet) : a.within a = true := by
  rcases a with ⟨_ | _, _ | _, _ | _, _ | _, _ | _⟩ <;> decide

/-- The type of null is within no other type than the full one. -/
theorem any_within {a : TypeSet} (all : any.within a = true) : a = any := by
  rcases a with ⟨_ | _, _ | _, _ | _, _ | _, _ | _⟩ <;> first | rfl | exact absurd all (by decide)

end TypeSet

/-- The value has a kind of the type. -/
def Value.Fits (types : TypeSet) (v : Value) : Prop := v.types.within types = true

namespace Value

@[simp] theorem fits_any (v : Value) : v.Fits .any := TypeSet.within_any _

@[simp] theorem fits_bool (b : Bool) : (bool b).Fits .boolean := rfl

@[simp] theorem fits_int (n : Int64) : (int n).Fits .number := rfl

@[simp] theorem fits_float (x : Float) : (float x).Fits .number := rfl

@[simp] theorem fits_str (s : String) : (str s).Fits .string := rfl

@[simp] theorem fits_array (items : List Value) : (array items).Fits .array := rfl

theorem fits_number {v : Value} (number : v.isNumber = true) : v.Fits .number := by
  cases v with
  | int n => exact fits_int n
  | float x => exact fits_float x
  | null | bool | str | array | object => simp [isNumber] at number

theorem fits_numberOrString {v : Value} (either : Check.numberOrString.passes v = true) :
    v.Fits (.number ∪ .string) := by
  cases v with
  | int | float | str => rfl
  | null | bool | array | object => simp [Check.passes] at either

end Value

/-- Every value that a computation may come to has a kind of the type. -/
def Yields (types : TypeSet) (result : Except Fault Value) : Prop :=
  ∀ v, result = .ok v → v.Fits types

namespace Yields

variable {types : TypeSet}

@[simp] theorem ok {v : Value} : Yields types (.ok v) ↔ v.Fits types := by
  simp [Yields]

@[simp] theorem pure {v : Value} : Yields types (Pure.pure v) ↔ v.Fits types := ok

@[simp] theorem error (fault : Fault) : Yields types (.error fault) := by
  simp [Yields]

@[simp] theorem any (result : Except Fault Value) : Yields .any result := fun v _ => v.fits_any

theorem bind {α : Type} {next : α → Except Fault Value} (later : ∀ a, Yields types (next a))
    (result : Except Fault α) : Yields types (result >>= next) := by
  cases result with
  | ok a => exact later a
  | error fault => exact error fault

theorem of_number {result : Except Fault Value} (number : ∀ v, result = .ok v → v.isNumber = true) :
    Yields .number result :=
  fun v computed => Value.fits_number (number v computed)

end Yields

/-- On the nodes that its rule accepts the function keeps to its declared type. -/
def Function.Typed (function : Function) : Prop :=
  ∀ signatures call memory, function.rule signatures call.node = .ok () →
    (function.logic call).Ends memory (Yields function.returns)

namespace Function

variable {name : String} {returns : TypeSet} {rule : Rule} {check : Option Check}

theorem typed_any (logic : Logic) : Typed ⟨name, .any, rule, logic⟩ :=
  fun _ _ _ _ => Plan.ends_of_always Yields.any _

theorem typed_strict {compute : Compute} {property : Nat → Prop} (counts : rule.Counts property)
    (yields : ∀ call args, property args.length → (∀ v ∈ args, Check.Admits check v) →
      Yields returns (compute call args)) :
    Typed ⟨name, returns, rule, strict check compute⟩ := by
  intro signatures call memory accepted
  apply ends_strict
  · intro e demand _
    exact Yields.error _
  · intro args supplied
    have count := counts signatures call.node accepted
    exact yields call args (supplied.1 ▸ count) supplied.2

theorem typed_unary {compute : Call → Value → Except Fault Value}
    (yields : ∀ call v, Check.Admits check v → Yields returns (compute call v)) :
    Typed ⟨name, returns, rule, strict check (unary compute)⟩ := by
  refine typed_strict (Rule.counts_any rule) ?_
  intro call args _ admitted
  match args with
  | [v] => exact yields call v (admitted v (by simp))
  | [] | _ :: _ :: _ => exact Yields.error _

theorem typed_binary {compute : Call → Value → Value → Except Fault Value}
    (yields : ∀ call v w, Check.Admits check v → Check.Admits check w →
      Yields returns (compute call v w)) :
    Typed ⟨name, returns, rule, strict check (binary compute)⟩ := by
  refine typed_strict (Rule.counts_any rule) ?_
  intro call args _ admitted
  match args with
  | [v, w] => exact yields call v w (admitted v (by simp)) (admitted w (by simp))
  | [] | [_] | _ :: _ :: _ :: _ => exact Yields.error _

theorem typed_ternary {compute : Call → Value → Value → Value → Except Fault Value}
    (yields : ∀ call u v w, Yields returns (compute call u v w)) :
    Typed ⟨name, returns, rule, strict check (ternary compute)⟩ := by
  refine typed_strict (Rule.counts_any rule) ?_
  intro call args _ _
  match args with
  | [u, v, w] => exact yields call u v w
  | [] | [_] | [_, _] | _ :: _ :: _ :: _ :: _ => exact Yields.error _

end Function

namespace Builtins

open Formula.Function Formula.Rule

variable {name : String} {rule : Rule}

theorem typed_folding {demand : Check} {types : TypeSet}
    {operation : Fallback → Value → Value → Except Fault Value}
    (independent : Independent (demand.passes · = true) operation)
    (fits : ∀ v, demand.passes v = true → v.Fits types) :
    Typed ⟨name, types, rule, strict (some demand) (folding (operation .standard))⟩ := by
  refine typed_strict (counts_any rule) ?_
  intro call args _ admitted
  cases args with
  | nil => exact Yields.error _
  | cons first rest =>
    have checked : ∀ v ∈ first :: rest, demand.passes v = true :=
      fun v member => admitted v member demand rfl
    obtain ⟨start, others⟩ := List.forall_mem_cons.1 checked
    have closed := (independent.foldArgs .standard others first start).2
    intro v computed
    exact fits v (closed v computed)

theorem typed_numeric {compute : Fallback → Call → Value → Value → Except Fault Value}
    (numeric : ∀ call, Numeric (compute · call)) :
    Typed ⟨name, .number, rule, strict (some .number) (binary (compute .standard))⟩ := by
  refine typed_binary ?_
  intro call v w left right
  exact .of_number fun u =>
    (numeric call).independent.closed v w u (left .number rfl) (right .number rfl)

theorem pick_mem {beats : Value → Value → Bool} {args : List Value} {v : Value}
    (present : 1 ≤ args.length) (computed : pick .standard beats args = .ok v) : v ∈ args := by
  have kept (rest : List Value) :
      ∀ best, rest.foldl (fun best v => if beats v best then v else best) best ∈ best :: rest := by
    induction rest with
    | nil => simp
    | cons w rest ih =>
      intro best
      by_cases better : beats w best = true
      · simp only [List.foldl_cons, better, if_true]
        exact List.mem_cons_of_mem best (ih w)
      · simp only [List.foldl_cons, better, Bool.false_eq_true, if_false]
        rcases List.mem_cons.1 (ih best) with same | later
        · exact List.mem_cons.2 (.inl same)
        · exact List.mem_cons_of_mem best (List.mem_cons_of_mem w later)
  cases args with
  | nil => simp at present
  | cons first rest =>
    simp only [pick, Except.ok.injEq] at computed
    exact computed ▸ kept rest first

/-- Without an argument the best is null: the count that the rule demands is needed here. -/
theorem typed_pick (counts : rule.Counts (1 ≤ ·)) (beats : Value → Value → Bool) :
    Typed ⟨name, .number, rule, strict (some .number) fun _ args => pick .standard beats args⟩ := by
  refine typed_strict counts ?_
  intro call args present admitted
  refine .of_number fun v computed => ?_
  exact admitted v (pick_mem present computed) .number rfl

theorem typed_access : ∀ f ∈ accessPackage, f.Typed := by
  simp only [accessPackage, List.forall_mem_cons, List.not_mem_nil, false_imp_iff, implies_true,
    and_true]
  exact ⟨typed_any _, typed_any _, typed_any _⟩

theorem yields_average (call : Call) (v : Value) : Yields .number (average .standard call v) := by
  refine Yields.bind (fun items => ?_) _
  split
  · exact Yields.error _
  · exact Yields.bind (fun total => Yields.bind (fun x => by simp) _) _

theorem yields_abs (call : Call) (v : Value) : Yields .number (abs .standard call v) := by
  unfold abs
  split
  · rename_i n
    cases Integer.abs? n <;> simp [magnitude]
  · exact Yields.bind (fun x => by simp) _

theorem yields_whole (rounding : Binary64.Rounding) (call : Call) {v : Value}
    (number : v.isNumber = true) : Yields .number (whole rounding call v) := by
  unfold whole
  split
  · simp
  · exact Yields.ok.2 (Value.fits_number number)

theorem yields_roundTo (places : Nat) (v : Value) : Yields .number (roundTo .standard places v) := by
  unfold roundTo
  split
  · simp
  · exact Yields.bind (fun x => by simp) _

theorem yields_round (call : Call) (args : List Value) :
    Yields .number (Builtins.round .standard call args) := by
  unfold Builtins.round
  split
  · exact yields_roundTo 0 _
  · split
    · exact yields_roundTo _ _
    · exact Yields.error _
  · exact Yields.error _

theorem typed_arithmetic : ∀ f ∈ arithmeticPackage, f.Typed := by
  have numbers {operation : Fallback → Value → Value → Except Fault Value} {name : String}
      (numeric : Numeric operation) :
      Typed ⟨name, .number, .numberSequence,
        strict (some .number) (folding (operation .standard))⟩ :=
    have closed : Independent (Check.number.passes · = true) operation := numeric.independent
    typed_folding closed fun _ => Value.fits_number
  simp only [arithmeticPackage, arithmeticWith, List.forall_mem_cons, List.not_mem_nil,
    false_imp_iff, implies_true, and_true]
  refine ⟨typed_folding independent_add fun _ => Value.fits_numberOrString,
    numbers numeric_subtract, numbers numeric_multiply, numbers numeric_divide,
    typed_numeric numeric_modulo, typed_numeric numeric_power,
    typed_pick ((counts_atLeast 1).all _) _, typed_pick ((counts_atLeast 1).all _) _,
    typed_unary ?_, typed_unary fun call v _ => yields_average call v,
    typed_unary fun call v _ => yields_abs call v,
    typed_unary fun call v number => yields_whole .down call (number .number rfl),
    typed_unary fun call v number => yields_whole .up call (number .number rfl),
    typed_strict (counts_any _) fun call args _ _ => yields_round call args⟩
  intro call v array
  exact .of_number (sum_array .standard call (array .array rfl)).2

theorem typed_logic : ∀ f ∈ logicPackage, f.Typed := by
  have compares (name : String) (accepted : List Ordering) : (comparison name accepted).Typed := by
    refine typed_binary fun call v w _ _ => ?_
    unfold ordered
    split <;> simp
  have connects (name : String) (stop : Bool) :
      Typed ⟨name, .boolean, .atLeast 1, connective stop⟩ :=
    fun _ _ _ _ => ends_untilTruth (fun b => Yields.ok.2 (Value.fits_bool b)) _ 0
  simp only [logicPackage, List.forall_mem_cons, List.not_mem_nil, false_imp_iff, implies_true,
    and_true]
  exact ⟨typed_binary fun _ _ _ _ _ => Yields.ok.2 (Value.fits_bool _),
    typed_binary fun _ _ _ _ _ => Yields.ok.2 (Value.fits_bool _),
    compares _ _, compares _ _, compares _ _, compares _ _, connects _ _, connects _ _,
    typed_unary fun _ _ _ => Yields.ok.2 (Value.fits_bool _), typed_any _,
    typed_unary fun _ _ _ => Yields.ok.2 (Value.fits_bool _), typed_any _⟩

theorem yields_concat (args : List Value) : Yields (.string ∪ .array) (.ok (concat args)) := by
  unfold concat
  split <;> exact Yields.ok.2 rfl

theorem yields_length (call : Call) (v : Value) : Yields .number (length call v) := by
  cases v <;> simp [length, size]

theorem yields_cut (call : Call) (chars : List Char) (start length : Nat) :
    Yields .string (cut call chars start length) := by
  unfold cut
  split <;> simp

theorem yields_slice (call : Call) (s start : Value) (length : Option Value) :
    Yields .string (slice call s start length) := by
  refine Yields.bind (fun chars => Yields.bind (fun start => ?_) _) _
  cases length with
  | some v => exact Yields.bind (fun length => yields_cut call chars start length) _
  | none => exact Yields.bind (fun length => yields_cut call chars start length) (.ok _)

theorem yields_substring (call : Call) (args : List Value) : Yields .string (substring call args) := by
  unfold substring
  split
  · exact yields_slice call _ _ _
  · exact yields_slice call _ _ _
  · exact Yields.error _

theorem yields_replace (call : Call) (s part replacement : Value) :
    Yields .string (replace call s part replacement) := by
  unfold replace
  split <;> simp

theorem typed_texts : ∀ f ∈ textPackage, f.Typed := by
  have maps (name : String) (change : String → String) : Typed ⟨name, .string, .unaryString,
      strict (some .stringOrNull) (unary (mapText change))⟩ :=
    typed_unary fun _ _ _ => Yields.ok.2 (Value.fits_str _)
  have tests {name : String} {rule : Rule} (test : List Char → List Char → Bool) :
      Typed ⟨name, .boolean, rule, strict (some .stringOrNull) (binary (testText test))⟩ :=
    typed_binary fun _ _ _ _ _ => Yields.ok.2 (Value.fits_bool _)
  simp only [textPackage, List.forall_mem_cons, List.not_mem_nil, false_imp_iff, implies_true,
    and_true]
  exact ⟨typed_strict (counts_any _) fun _ args _ _ => yields_concat args,
    typed_unary fun call v _ => yields_length call v, maps _ _, maps _ _, maps _ _,
    typed_strict (counts_any _) fun call args _ _ => yields_substring call args,
    tests _, tests _, typed_ternary yields_replace⟩

theorem yields_ticksTo (unit : Int) (call : Call) (v : Value) :
    Yields .number (ticksTo unit call v) := by
  unfold ticksTo
  split
  · exact Yields.bind (fun x => by simp) _
  · exact Yields.error _

theorem yields_toInt (call : Call) (v : Value) : Yields .number (Builtins.toInt call v) := by
  unfold Builtins.toInt
  split
  · simp
  · refine Yields.bind (fun number => ?_) _
    split
    · simp
    · exact Yields.bind (fun n => by simp) _
    · exact Yields.error _

theorem yields_toFloat (call : Call) (v : Value) : Yields .number (Builtins.toFloat call v) := by
  refine Yields.bind (fun number => ?_) _
  split <;> simp

theorem yields_toText (call : Call) (v : Value) : Yields .string (toText call v) := by
  cases v <;> simp [toText]

theorem yields_toBool (call : Call) (v : Value) : Yields .boolean (Builtins.toBool call v) := by
  unfold Builtins.toBool
  split
  · split
    · simp
    · split <;> simp
  · simp
  · simp
  · simp

theorem typed_conversion : ∀ f ∈ conversionPackage, f.Typed := by
  have durations (name : String) (unit : Int) : Typed ⟨name, .number, .unaryNumber,
      strict none (unary (ticksTo unit))⟩ :=
    typed_unary fun call v _ => yields_ticksTo unit call v
  simp only [conversionPackage, List.forall_mem_cons, List.not_mem_nil, false_imp_iff,
    implies_true, and_true]
  exact ⟨durations _ _, durations _ _, durations _ _, typed_unary fun call v _ => yields_toInt call v,
    typed_unary fun call v _ => yields_toFloat call v,
    typed_unary fun call v _ => yields_toText call v,
    typed_unary fun call v _ => yields_toBool call v⟩

theorem yields_shift (perUnit : Float) (call : Call) (v amount : Value) :
    Yields .string (shift perUnit call v amount) := by
  refine Yields.bind (fun start => ?_) _
  split
  · exact Yields.error _
  · split
    · split <;> simp
    · exact Yields.error _

theorem yields_difference (call : Call) (later earlier : Value) :
    Yields .number (difference call later earlier) := by
  refine Yields.bind (fun later => Yields.bind (fun earlier => ?_) _) _
  split <;> simp

theorem typed_dates : ∀ f ∈ datePackage, f.Typed := by
  have fields (name : String) (get : Calendar.Instant → Int) : (calendarField name get).Typed :=
    typed_unary fun _ _ _ => Yields.bind (fun _ => by simp) _
  have shifts (name : String) (perUnit : Float) : (shifting name perUnit).Typed :=
    typed_binary fun call v w _ _ => yields_shift perUnit call v w
  simp only [datePackage, List.forall_mem_cons, List.not_mem_nil, false_imp_iff, implies_true,
    and_true]
  exact ⟨typed_unary fun _ _ _ => Yields.bind (fun _ => by simp) _, fields _ _, fields _ _,
    fields _ _, shifts _ _, shifts _ _, typed_binary fun call v w _ _ => yields_difference call v w⟩

theorem yields_count (call : Call) (v : Value) : Yields .number (count call v) := by
  cases v <;> simp [count, size]

theorem yields_contains (call : Call) (collection needle : Value) :
    Yields .boolean (contains call collection needle) := by
  unfold contains
  split <;> simp

theorem yields_join (call : Call) (collection separator : Value) :
    Yields .string (join call collection separator) := by
  cases collection <;> simp [join]

theorem typed_iteration {finish : List (Value × Value) → Value}
    (arrays : ∀ results, (finish results).Fits .array) :
    Typed ⟨name, .array, .iteration, iteration finish⟩ := by
  intro signatures call memory accepted
  obtain ⟨collection, iterator, body, name, shape, single⟩ :=
    iteration_accepts signatures call.node accepted
  simp only [iteration, shape, single]
  intro v
  cases visited : items call v with
  | error fault =>
    have refused : (Plan.fail fault).Ends memory (Yields .array) := Yields.error fault
    simpa only [visited] using refused
  | ok items =>
    have finished (results : List (Value × Value)) :
        (Plan.succeed (finish results)).Ends memory (Yields .array) := Yields.ok.2 (arrays results)
    simpa only [visited] using ends_visit finished items []

theorem typed_collections : ∀ f ∈ collectionPackage, f.Typed := by
  simp only [collectionPackage, List.forall_mem_cons, List.not_mem_nil, false_imp_iff,
    implies_true, and_true]
  exact ⟨typed_strict (counts_any _) fun _ args _ _ => Yields.ok.2 (Value.fits_array args),
    typed_unary fun call v _ => yields_count call v,
    typed_binary fun call v w _ _ => yields_contains call v w, typed_any _, typed_any _,
    typed_binary fun call v w _ _ => yields_join call v w, typed_any _,
    typed_iteration fun results => Value.fits_array _, typed_iteration fun results => Value.fits_array _⟩

/-- Every standard function keeps to its declared type. -/
theorem typed_all : ∀ f ∈ all, f.Typed := by
  simp only [all, allWith, List.forall_mem_append]
  exact ⟨⟨⟨⟨⟨⟨typed_access, typed_arithmetic⟩, typed_logic⟩, typed_texts⟩, typed_conversion⟩,
    typed_dates⟩, typed_collections⟩

end Builtins

namespace Expr

variable {options : Options}

/-- The node of a bound tree has a static type, and the value it comes to fits that type. A literal
has its own type and a call the declared type of its function. -/
theorem evalAt_fits {e : Expr} (bound : Registry.builtins.validateTree e = .ok ()) {depth : Nat}
    {memory : Memory} {v : Value} (value : e.evalAt .builtins options depth memory = .ok v) :
    ∃ types, Registry.builtins.typesOf e = .ok types ∧ v.Fits types := by
  obtain ⟨function, found, ruled⟩ := Registry.validate_ok (Registry.validateTree_ok bound).2
  have room : depth < options.maxDepth := by
    rcases Nat.lt_or_ge depth options.maxDepth with room | limit
    · exact room
    · rw [evalAt_eq, Registry.enter_at_limit limit] at value
      simp at value
  -- The static type of a literal is the type of its value, not the one its function declares.
  cases e with
  | constant w =>
    obtain rfl : w = v := by simpa only [evalAt_constant room, Except.ok.injEq] using value
    exact ⟨w.types, rfl, TypeSet.within_self w.types⟩
  | call name args =>
    rw [evalAt_eq, Registry.enter_known room found] at value
    have declared : Registry.builtins.typesOf (.call name args) = .ok function.returns := by
      have known : Registry.builtins.find? name = some function := found
      simp only [Registry.typesOf, types?, Registry.signatures, known, Option.map_some]
    have typed := Builtins.typed_all function (Registry.mem_builtins found)
      Registry.builtins.signatures ⟨.call name args, options, depth + 1, Registry.builtins.size⟩ memory ruled
    exact ⟨function.returns, declared, typed.run_ok value v rfl⟩

/-- Declared types are sound: the value of a bound tree, and the value of every node that its
evaluation enters, has a kind of the static type of its node; null comes only from nodes that may be
anything. -/
theorem visits_fit {e : Expr} (bound : Registry.builtins.validateTree e = .ok ()) (memory : Memory) :
    (∀ v, e.eval .builtins options memory = .ok v →
      ∃ types, Registry.builtins.typesOf e = .ok types ∧ v.types.within types = true ∧
        (v = .null → types = .any)) ∧
    (∀ node level scope v, Visits .builtins options e 0 memory node level scope →
      node.evalAt .builtins options level scope = .ok v →
        ∃ types, Registry.builtins.typesOf node = .ok types ∧ v.types.within types = true ∧
          (v = .null → types = .any)) := by
  have nodes (node : Expr) (level : Nat) (scope : Memory) (v : Value)
      (visited : Visits .builtins options e 0 memory node level scope)
      (value : node.evalAt .builtins options level scope = .ok v) :
      ∃ types, Registry.builtins.typesOf node = .ok types ∧ v.types.within types = true ∧
        (v = .null → types = .any) := by
    obtain ⟨types, declared, fits⟩ := evalAt_fits (visited.bound bound).1 value
    refine ⟨types, declared, fits, ?_⟩
    rintro rfl
    exact TypeSet.any_within fits
  exact ⟨fun v value => nodes e 0 memory v .self value, nodes⟩

def leastOfThree : Expr := .call "min" [accessor "x", .constant (.int 3)]

/-- With `x` bound to 5, the least of `x` and 3 is a number as `min` declares, and so is the value of
`x` itself, which may be anything. -/
theorem visits_fit_min :
    let memory : Memory := .document (.object [("x", .int 5)])
    Registry.builtins.validateTree leastOfThree = .ok () ∧
      leastOfThree.eval .builtins {} memory = .ok (.int 3) ∧
      (∃ types, Registry.builtins.typesOf leastOfThree = .ok types ∧
        (Value.int 3).types.within types = true) ∧
      (accessor "x").evalAt .builtins {} 1 memory = .ok (.int 5) ∧
      (∃ types, Registry.builtins.typesOf (accessor "x") = .ok types ∧
        (Value.int 5).types.within types = true) := by
  intro memory
  have bound : Registry.builtins.validateTree leastOfThree = .ok () :=
    Registry.validateTree_of_toOption (by rw [Registry.builtins_eq]; decide +kernel)
  have least : leastOfThree.eval .builtins {} memory = .ok (.int 3) :=
    Outcome.eq_int (by rw [Registry.builtins_eq]; decide +kernel)
  have read : (accessor "x").evalAt .builtins {} 1 memory = .ok (.int 5) :=
    Outcome.eq_int (by rw [Registry.builtins_eq]; decide +kernel)
  have visited : Visits .builtins {} leastOfThree 0 memory (accessor "x") 1 memory := by
    have found : Registry.builtins.find? leastOfThree.name = some ⟨"min", .number,
        .all [.atLeast 1, .ofType .number], strict (some .number) fun _ => Builtins.least .standard⟩ := by
      rw [Registry.builtins_eq]
      rfl
    exact .child (by decide) found .now rfl .self
  obtain ⟨root, nodes⟩ := visits_fit bound memory
  obtain ⟨types, declared, fits, _⟩ := root (.int 3) least
  obtain ⟨inner, known, fitsInner, _⟩ := nodes (accessor "x") 1 memory (.int 5) visited read
  exact ⟨bound, least, ⟨types, declared, fits⟩, read, ⟨inner, known, fitsInner⟩⟩

end Expr

end Formula
