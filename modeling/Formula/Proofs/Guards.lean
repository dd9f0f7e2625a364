import Formula.Proofs.Computations
import Formula.Proofs.Rules

/-! Rules guard the logic of their functions. On a node that its rule accepts, a standard function
ends with a value, with a fault in the values it met, or with what memory answers to a well-formed
path. -/
namespace Formula

/-- The faults that remain for a node of a bound tree: faults in values, and a well-formed path
that memory answers with something else than that it is missing. -/
def Fault.Legitimate (memory : Memory) : Fault → Prop
  | .memory error => (∃ path steps, Memory.steps path = .ok steps ∧
      memory.resolve path = .error error) ∧ ∀ path, error ≠ .notFound path
  | fault => fault.OfValues

/-- A result, or a legitimate fault. -/
def Fair (memory : Memory) (result : Except Fault Value) : Prop :=
  ∀ fault, result = .error fault → fault.Legitimate memory

theorem Computes.fair {memory : Memory} {result : Except Fault Value} (computes : Computes result) :
    Fair memory result := by
  intro fault failed
  have ofValues := computes fault failed
  cases fault with
  | memory error => exact ofValues.elim
  | node | overflow | absOverflow | divisionByZero | custom => exact ofValues

theorem fair_ok {memory : Memory} (v : Value) : Fair memory (.ok v) :=
  (Computes.ok v).fair

/-- The rule of the function keeps its logic from every fault but the legitimate ones. -/
def Function.Sound (function : Function) : Prop :=
  ∀ signatures call memory, function.name = call.node.name →
    function.rule signatures call.node = .ok () →
      (function.logic call).Ends memory (Fair memory)

namespace Function

variable {name : String} {returns : TypeSet} {rule : Rule} {check : Option Check}

/-- For a strict function it is enough that its rule counts the children and that its computation
is content with as many values. -/
theorem sound_strict {compute : Compute} {property : Nat → Prop} (counts : rule.Counts property)
    (computes : ∀ call args, property args.length → Computes (compute call args)) :
    Sound ⟨name, returns, rule, strict check compute⟩ := by
  intro signatures call memory _ accepted
  apply ends_strict
  · intro e demand _
    exact Computes.fair (Computes.error.2 rfl)
  · intro args supplied
    have count := counts signatures call.node accepted
    exact (computes call args (supplied.1 ▸ count)).fair

theorem sound_unary {compute : Call → Value → Except Fault Value} (counts : rule.Counts (· = 1))
    (computes : ∀ call v, Computes (compute call v)) :
    Sound ⟨name, returns, rule, strict check (unary compute)⟩ :=
  sound_strict counts fun call _ count => computes_unary count (computes call)

theorem sound_binary {compute : Call → Value → Value → Except Fault Value}
    (counts : rule.Counts (· = 2)) (computes : ∀ call v w, Computes (compute call v w)) :
    Sound ⟨name, returns, rule, strict check (binary compute)⟩ :=
  sound_strict counts fun call _ count => computes_binary count (computes call)

end Function

namespace Builtins

open Formula.Function Formula.Rule

theorem sound_accessor : Sound ⟨Expr.accessorName, .any, Rule.accessor, accessor⟩ := by
  intro signatures call memory named accepted
  obtain ⟨path, steps, shape, read⟩ := accessor_accepts signatures call.node accepted
  have own : call.node.path? = some path := by
    cases node : call.node with
    | constant v => simp [node, Expr.args] at shape
    | call name args =>
      rw [node] at shape named
      simp only [Expr.args] at shape
      simp only [Expr.name] at named
      simp [Expr.path?, shape, ← named]
  simp only [accessor, own, Plan.Ends]
  split
  · exact fair_ok _
  · exact fair_ok _
  · exact fair_ok _
  · rename_i e missing refused
    intro fault failed
    cases failed
    refine ⟨⟨path, steps, read, refused⟩, ?_⟩
    intro other same
    exact missing other (same ▸ rfl)

theorem sound_iteration {name : String} (finish : List (Value × Value) → Value) :
    Sound ⟨name, .array, .iteration, iteration finish⟩ := by
  intro signatures call memory _ accepted
  obtain ⟨collection, iterator, body, name, shape, single⟩ := iteration_accepts signatures call.node accepted
  simp only [iteration, shape, single]
  intro v
  have computes := computes_items call v
  cases visited : items call v with
  | error fault =>
    rw [visited] at computes
    have fair : (Plan.fail fault).Ends memory (Fair memory) :=
      Computes.fair (Computes.error.2 (Computes.error.1 computes))
    simpa only [visited] using fair
  | ok items =>
    have fair (results : List (Value × Value)) :
        (Plan.succeed (finish results)).Ends memory (Fair memory) := fair_ok _
    simpa only [visited] using ends_visit fair items []

theorem sound_access : ∀ f ∈ accessPackage, f.Sound := by
  simp only [accessPackage, List.forall_mem_cons, List.not_mem_nil, false_imp_iff, implies_true,
    and_true]
  refine ⟨?_, sound_accessor, sound_binary ((counts_exactly 2).all _) computes_element⟩
  intro signatures call memory _ accepted
  obtain ⟨v, literal⟩ := constant_accepts signatures call.node accepted
  simp only [Builtins.constant, literal, Expr.value?]
  exact fair_ok v

theorem sound_arithmetic : ∀ f ∈ arithmeticPackage, f.Sound := by
  have folds {operation : Value → Value → Except Fault Value} {name : String} {returns : TypeSet}
      {rule : Rule} {check : Option Check} (counts : rule.Counts (2 ≤ ·))
      (computes : ∀ v w, Computes (operation v w)) :
      Sound ⟨name, returns, rule, strict check (folding operation)⟩ :=
    sound_strict counts fun call args count => computes_folding (by omega) computes
  simp only [arithmeticPackage, arithmeticWith, List.forall_mem_cons, List.not_mem_nil,
    false_imp_iff, implies_true, and_true]
  refine ⟨folds ((counts_atLeast 2).all _) computes_add,
    folds ((counts_atLeast 2).all _) computes_subtract,
    folds ((counts_atLeast 2).all _) computes_multiply,
    folds ((counts_atLeast 2).all _) computes_divide,
    sound_binary ((counts_exactly 2).all _) computes_modulo,
    sound_binary ((counts_exactly 2).all _) computes_power,
    sound_strict ((counts_atLeast 1).all _) fun _ _ _ => computes_pick _ _,
    sound_strict ((counts_atLeast 1).all _) fun _ _ _ => computes_pick _ _,
    sound_unary ((counts_exactly 1).all _) computes_sum,
    sound_unary ((counts_exactly 1).all _) computes_average,
    sound_unary ((counts_exactly 1).all _) computes_abs,
    sound_unary ((counts_exactly 1).all _) fun call => computes_whole call _,
    sound_unary ((counts_exactly 1).all _) fun call => computes_whole call _,
    sound_strict ((counts_arity 1 (some 2)).all _) ?_⟩
  intro call args count
  exact computes_round call count.1 (count.2 2 rfl)

theorem sound_logic : ∀ f ∈ logicPackage, f.Sound := by
  have compares {name : String} (accepted : List Ordering) : (comparison name accepted).Sound :=
    sound_binary ((counts_exactly 2).all _) fun call => computes_ordered call accepted
  have connects {name : String} (stop : Bool) :
      Sound ⟨name, .boolean, .atLeast 1, connective stop⟩ := by
    intro signatures call memory _ _
    exact ends_untilTruth (fun b => fair_ok _) _ 0
  simp only [logicPackage, List.forall_mem_cons, List.not_mem_nil, false_imp_iff, implies_true,
    and_true]
  refine ⟨sound_binary (counts_exactly 2) fun _ _ _ => Computes.ok _,
    sound_binary (counts_exactly 2) fun _ _ _ => Computes.ok _,
    compares _, compares _, compares _, compares _, connects _, connects _,
    sound_unary (counts_exactly 1) fun _ _ => Computes.ok _, ?_,
    sound_unary (counts_exactly 1) fun _ _ => Computes.ok _, ?_⟩
  · intro signatures call memory _ accepted
    have three := counts_exactly 3 signatures call.node accepted
    simp only [branch, three, if_true]
    intro condition v
    exact fair_ok v
  · intro signatures call memory _ _
    exact ends_untilPresent (fun v => fair_ok v) _ 0

theorem sound_texts : ∀ f ∈ textPackage, f.Sound := by
  simp only [textPackage, List.forall_mem_cons, List.not_mem_nil, false_imp_iff, implies_true,
    and_true]
  refine ⟨sound_strict (counts_atLeast 1) fun _ _ _ => Computes.ok _,
    sound_unary ((counts_exactly 1).all _) computes_length,
    sound_unary ((counts_exactly 1).all _) fun _ _ => Computes.ok _,
    sound_unary ((counts_exactly 1).all _) fun _ _ => Computes.ok _,
    sound_unary ((counts_exactly 1).all _) fun _ _ => Computes.ok _,
    sound_strict ((counts_arity 2 (some 3)).all _) ?_,
    sound_binary ((counts_exactly 2).all _) fun _ _ _ => Computes.ok _,
    sound_binary ((counts_exactly 2).all _) fun _ _ _ => Computes.ok _,
    sound_strict ((counts_exactly 3).all _) ?_⟩
  · intro call args count
    exact computes_substring call count.1 (count.2 3 rfl)
  · intro call args count
    exact computes_ternary count (computes_replace call)

theorem sound_conversion : ∀ f ∈ conversionPackage, f.Sound := by
  simp only [conversionPackage, List.forall_mem_cons, List.not_mem_nil, false_imp_iff,
    implies_true, and_true]
  exact ⟨sound_unary ((counts_exactly 1).all _) fun call => computes_ticksTo call _,
    sound_unary ((counts_exactly 1).all _) fun call => computes_ticksTo call _,
    sound_unary ((counts_exactly 1).all _) fun call => computes_ticksTo call _,
    sound_unary (counts_exactly 1) computes_toInt,
    sound_unary (counts_exactly 1) computes_toFloat,
    sound_unary (counts_exactly 1) computes_toText,
    sound_unary (counts_exactly 1) computes_toBool⟩

theorem sound_dates : ∀ f ∈ datePackage, f.Sound := by
  have fields {name : String} (get : Calendar.Instant → Int) : (calendarField name get).Sound :=
    sound_unary ((counts_exactly 1).all _) fun call => computes_field call get
  have shifts {name : String} (perUnit : Float) : (shifting name perUnit).Sound :=
    sound_binary ((counts_exactly 2).all _) fun call => computes_shift call perUnit
  simp only [datePackage, List.forall_mem_cons, List.not_mem_nil, false_imp_iff, implies_true,
    and_true]
  exact ⟨sound_unary ((counts_exactly 1).all _) computes_ticks, fields _, fields _, fields _,
    shifts _, shifts _, sound_binary ((counts_exactly 2).all _) computes_difference⟩

theorem sound_collections : ∀ f ∈ collectionPackage, f.Sound := by
  simp only [collectionPackage, List.forall_mem_cons, List.not_mem_nil, false_imp_iff,
    implies_true, and_true]
  exact ⟨sound_strict (counts_any _) fun _ args _ => Computes.ok (createArray args),
    sound_unary ((counts_exactly 1).all _) computes_count,
    sound_binary ((counts_exactly 2).all _) computes_contains,
    sound_unary ((counts_exactly 1).all _) computes_first,
    sound_unary ((counts_exactly 1).all _) computes_last,
    sound_binary ((counts_exactly 2).all _) computes_join,
    sound_binary ((counts_exactly 2).all _) computes_property,
    sound_iteration _, sound_iteration _⟩

theorem sound_all : ∀ f ∈ all, f.Sound := by
  simp only [all, allWith, List.forall_mem_append]
  exact ⟨⟨⟨⟨⟨⟨sound_access, sound_arithmetic⟩, sound_logic⟩, sound_texts⟩, sound_conversion⟩,
    sound_dates⟩, sound_collections⟩

end Builtins

end Formula
