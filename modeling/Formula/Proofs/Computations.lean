import Formula.Proofs.Endings

/-! The computations of the standard functions fail over the values they are given, and over
nothing else: given as many values as they ask for, none of them complains about the shape of its
node. -/
namespace Formula

/-- A complaint about the shape of a node: its children, its literal, its path or its iterator. -/
@[simp] def Complaint.structural : Complaint → Bool
  | .argumentCount _ _ | .roundArguments _ | .substringArguments _ | .noArguments | .noValue
  | .noPath | .noBranches | .notThreeArguments | .noIterator => true
  | _ => false

/-- A fault in the values that a function met. -/
def Fault.OfValues : Fault → Prop
  | .node _ complaint => complaint.structural = false
  | .memory _ => False
  | _ => True

/-- The computation has a result, or fails over its values. -/
def Computes {α : Type} (result : Except Fault α) : Prop :=
  ∀ fault, result = .error fault → fault.OfValues

namespace Computes

variable {α β : Type}

@[simp] theorem ok (a : α) : Computes (.ok a : Except Fault α) := by
  intro fault failed
  simp at failed

@[simp] theorem pure (a : α) : Computes (Pure.pure a : Except Fault α) := ok a

@[simp] theorem error {fault : Fault} : Computes (.error fault : Except Fault α) ↔ fault.OfValues := by
  constructor
  · intro computes
    exact computes fault rfl
  · intro ofValues other failed
    cases failed
    exact ofValues

theorem bind {result : Except Fault α} {next : α → Except Fault β} (first : Computes result)
    (later : ∀ a, Computes (next a)) : Computes (result >>= next) := by
  cases result with
  | ok a => exact later a
  | error fault => exact error.2 (error.1 first)

@[simp] theorem converted (call : Call) (result : Except CastError α) :
    Computes (Formula.converted call result) := by
  cases result <;> simp [Formula.converted, Call.fault, Fault.OfValues]

end Computes

@[simp] theorem ofValues_fault {call : Call} {complaint : Complaint} :
    (call.fault complaint).OfValues ↔ complaint.structural = false := Iff.rfl

@[simp] theorem ofValues_divisionByZero : Fault.divisionByZero.OfValues := trivial

@[simp] theorem ofValues_overflow {operator : String} {a b : Value} :
    (Fault.overflow operator a b).OfValues := trivial

@[simp] theorem ofValues_absOverflow {n : Int64} : (Fault.absOverflow n).OfValues := trivial

theorem computes_unary {compute : Call → Value → Except Fault Value} {call : Call} {args : List Value}
    (count : args.length = 1) (each : ∀ v, Computes (compute call v)) :
    Computes (unary compute call args) := by
  match args, count with
  | [v], _ => exact each v

theorem computes_binary {compute : Call → Value → Value → Except Fault Value} {call : Call}
    {args : List Value} (count : args.length = 2) (each : ∀ v w, Computes (compute call v w)) :
    Computes (binary compute call args) := by
  match args, count with
  | [v, w], _ => exact each v w

theorem computes_ternary {compute : Call → Value → Value → Value → Except Fault Value} {call : Call}
    {args : List Value} (count : args.length = 3) (each : ∀ u v w, Computes (compute call u v w)) :
    Computes (ternary compute call args) := by
  match args, count with
  | [u, v, w], _ => exact each u v w

theorem computes_foldArgs {operation : Value → Value → Except Fault Value}
    (each : ∀ v w, Computes (operation v w)) (args : List Value) :
    ∀ acc, Computes (foldArgs operation acc args) := by
  induction args with
  | nil => simp [foldArgs]
  | cons v rest ih =>
    intro acc
    have step := each acc v
    simp only [foldArgs]
    cases result : operation acc v with
    | ok next => exact ih next
    | error fault => simpa [result] using step

theorem computes_folding {operation : Value → Value → Except Fault Value} {call : Call}
    {args : List Value} (count : 1 ≤ args.length) (each : ∀ v w, Computes (operation v w)) :
    Computes (folding operation call args) := by
  match args, count with
  | first :: rest, _ => exact computes_foldArgs each rest first

namespace Builtins

variable (call : Call)

theorem computes_element (collection key : Value) : Computes (element call collection key) := by
  unfold element
  cases collection with
  | array items =>
    by_cases whole : key.isInteger = true
    · simp only [whole, if_true]
      exact (Computes.converted call key.toInt).bind fun n => Computes.pure _
    · simp [whole]
  | object fields => cases key <;> simp
  | null => simp
  | bool | int | float | str => simp

@[simp] theorem computes_double (v : Value) : Computes (double .standard v) := by
  cases v <;> simp [double, Value.asFloat?, Fallback.standard]

theorem computes_onDoubles (operation : Float → Float → Float) (a b : Value) :
    Computes (onDoubles .standard operation a b) :=
  (computes_double a).bind fun _ => (computes_double b).bind fun _ => Computes.pure _

theorem computes_exactly (operator : String) (a b : Value) (result : Option Int64) :
    Computes (exactly operator a b result) := by
  cases result <;> simp [exactly]

theorem computes_add (a b : Value) : Computes (add .standard a b) := by
  unfold add
  split
  · exact computes_exactly _ _ _ _
  · simp
  · simp
  · exact computes_onDoubles _ _ _

theorem computes_subtract (a b : Value) : Computes (subtract .standard a b) := by
  unfold subtract
  split
  · exact computes_exactly _ _ _ _
  · exact computes_onDoubles _ _ _

theorem computes_multiply (a b : Value) : Computes (multiply .standard a b) := by
  unfold multiply
  split
  · exact computes_exactly _ _ _ _
  · exact computes_onDoubles _ _ _

theorem computes_divide (a b : Value) : Computes (divide .standard a b) := by
  unfold divide
  split
  · simp
  · split
    · exact computes_exactly _ _ _ _
    · exact computes_onDoubles _ _ _

theorem computes_modulo (a b : Value) : Computes (modulo .standard call a b) := by
  unfold modulo
  split
  · simp
  · split
    · exact computes_exactly _ _ _ _
    · exact computes_onDoubles _ _ _

theorem computes_power (a b : Value) : Computes (power .standard call a b) := by
  unfold power
  split
  · split
    · exact computes_exactly _ _ _ _
    · exact computes_onDoubles _ _ _
  · exact computes_onDoubles _ _ _

theorem computes_numbers (v : Value) : Computes (numbers .standard call v) := by
  have listed (items : List Value) : Computes
      (if items.all Value.isNumber then .ok items else .error (call.fault .notNumbers)) := by
    split <;> simp
  unfold numbers
  cases v.asArray? with
  | some items => exact listed items
  | none => exact listed []

theorem computes_sum (v : Value) : Computes (sum .standard call v) :=
  (computes_numbers call v).bind fun items => computes_foldArgs computes_add items _

theorem computes_average (v : Value) : Computes (average .standard call v) := by
  refine (computes_numbers call v).bind fun items => ?_
  split
  · simp
  · exact (computes_sum call v).bind fun total => (computes_double total).bind fun _ => Computes.pure _

theorem computes_abs (v : Value) : Computes (abs .standard call v) := by
  unfold abs
  split
  · rename_i n
    cases Integer.abs? n <;> simp [magnitude]
  · exact (computes_double _).bind fun _ => Computes.pure _

theorem computes_whole (rounding : Binary64.Rounding) (v : Value) :
    Computes (whole rounding call v) := by
  cases v <;> simp [whole]

theorem computes_roundTo (places : Nat) (v : Value) : Computes (roundTo .standard places v) := by
  unfold roundTo
  split
  · simp
  · exact (computes_double _).bind fun _ => Computes.pure _

theorem computes_round {args : List Value} (least : 1 ≤ args.length) (most : args.length ≤ 2) :
    Computes (Builtins.round .standard call args) := by
  match args, least, most with
  | [v], _, _ => exact computes_roundTo 0 v
  | [v, places], _, _ =>
    simp only [Builtins.round]
    cases places? places with
    | some n => exact computes_roundTo n v
    | none => simp

theorem computes_pick (beats : Value → Value → Bool) (args : List Value) :
    Computes (pick .standard beats args) := by
  cases args <;> simp [pick, Fallback.standard]

theorem computes_ordered (accepted : List Ordering) (a b : Value) :
    Computes (ordered accepted call a b) := by
  unfold ordered
  split <;> simp

theorem computes_length (v : Value) : Computes (length call v) := by
  cases v <;> simp [length]

theorem computes_textOf (v : Value) : Computes (textOf call v) := by
  cases v <;> simp [textOf]

theorem computes_textBound (v : Value) : Computes (textBound call v) := by
  unfold textBound
  split
  · simp
  · split <;> simp

theorem computes_cut (chars : List Char) (start length : Nat) : Computes (cut call chars start length) := by
  unfold cut
  split <;> simp

theorem computes_slice (s start : Value) (length : Option Value) :
    Computes (slice call s start length) := by
  refine (computes_textOf call s).bind fun chars => (computes_textBound call start).bind fun start => ?_
  cases length with
  | some v => exact (computes_textBound call v).bind fun length => computes_cut call chars start length
  | none => exact (Computes.ok _).bind fun length => computes_cut call chars start length

theorem computes_substring {args : List Value} (least : 2 ≤ args.length) (most : args.length ≤ 3) :
    Computes (substring call args) := by
  match args, least, most with
  | [s, start], _, _ => exact computes_slice call s start none
  | [s, start, length], _, _ => exact computes_slice call s start (some length)

theorem computes_replace (s part replacement : Value) :
    Computes (replace call s part replacement) := by
  unfold replace
  split <;> simp

theorem computes_ticksTo (unit : Int) (v : Value) : Computes (ticksTo unit call v) := by
  unfold ticksTo
  split
  · exact (Computes.converted call _).bind fun _ => Computes.pure _
  · simp

theorem computes_numeral (v : Value) : Computes (numeral call v) := by
  cases v <;> simp [numeral]

theorem computes_toInt (v : Value) : Computes (Builtins.toInt call v) := by
  unfold Builtins.toInt
  split
  · simp
  · refine (computes_numeral call _).bind fun number => ?_
    split
    · simp
    · exact (Computes.converted call _).bind fun _ => Computes.pure _
    · simp

theorem computes_toFloat (v : Value) : Computes (Builtins.toFloat call v) := by
  refine (computes_numeral call v).bind fun number => ?_
  split <;> simp

theorem computes_toText (v : Value) : Computes (toText call v) := by
  cases v <;> simp [toText]

theorem computes_toBool (v : Value) : Computes (Builtins.toBool call v) := by
  unfold Builtins.toBool
  split
  · split
    · simp
    · split <;> simp
  · simp
  · simp
  · simp

theorem computes_timestamp (v : Value) : Computes (timestamp call v) := by
  cases v <;> simp [timestamp]

theorem computes_timestampTicks (v : Value) : Computes (timestampTicks call v) :=
  (computes_timestamp call v).bind fun _ => Computes.converted call _

theorem computes_ticks (v : Value) : Computes (ticks call v) :=
  (computes_timestampTicks call v).bind fun _ => Computes.pure _

theorem computes_field (get : Calendar.Instant → Int) (v : Value) : Computes (field get call v) :=
  (computes_timestamp call v).bind fun _ => Computes.pure _

theorem computes_shift (perUnit : Float) (v amount : Value) :
    Computes (shift perUnit call v amount) := by
  refine (computes_timestamp call v).bind fun start => ?_
  split
  · simp
  · split
    · split <;> simp
    · simp

theorem computes_difference (later earlier : Value) : Computes (difference call later earlier) := by
  refine (computes_timestampTicks call later).bind fun later =>
    (computes_timestampTicks call earlier).bind fun earlier => ?_
  split <;> simp

theorem computes_count (v : Value) : Computes (count call v) := by
  cases v <;> simp [count]

theorem computes_contains (collection needle : Value) : Computes (contains call collection needle) := by
  unfold contains
  split <;> simp

theorem computes_first (v : Value) : Computes (first call v) := by
  cases v <;> simp [first]

theorem computes_last (v : Value) : Computes (last call v) := by
  cases v <;> simp [last]

theorem computes_join (collection separator : Value) : Computes (join call collection separator) := by
  cases collection <;> simp [join]

theorem computes_property (v name : Value) : Computes (property call v name) := by
  unfold property
  split <;> simp

theorem computes_items (v : Value) : Computes (items call v) := by
  cases v <;> simp [items]

end Builtins

end Formula
