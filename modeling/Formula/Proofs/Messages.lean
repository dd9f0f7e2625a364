import Formula.Proofs.Evaluation

/-! Faults up to their texts. The node of a call shows in the texts of its faults and nowhere else: a
computation on the same values comes to the same value on every node, or fails on every node. Only
numerals and the texts of doubles also depend on the culture of the settings. -/
namespace Formula

/-- What an error is about, without the text of a fault. -/
inductive ErrorKind
  | fault
  | unknownFunction (name : String)
  | tooDeep (depth limit : Nat)
  deriving DecidableEq

def EvalError.kind : EvalError → ErrorKind
  | .fault _ => .fault
  | .unknownFunction name => .unknownFunction name
  | .tooDeep depth limit => .tooDeep depth limit

def Outcome.kind (outcome : Outcome) : Except ErrorKind Value := outcome.mapError EvalError.kind

namespace Outcome

@[simp] theorem kind_ok (v : Value) : kind (.ok v) = .ok v := rfl

@[simp] theorem kind_error (e : EvalError) : kind (.error e) = .error e.kind := rfl

theorem ok_of_kind {outcome : Outcome} {v : Value} (value : outcome.kind = .ok v) :
    outcome = .ok v := by
  cases outcome with
  | ok w =>
    obtain rfl : w = v := by simpa using value
    rfl
  | error e => simp at value

theorem kind_bind {first second : Outcome} {next other : Value → Outcome}
    (start : first.kind = second.kind) (later : ∀ v, (next v).kind = (other v).kind) :
    kind (first.bind next) = kind (second.bind other) := by
  match first, second, start with
  | .ok v, .ok w, start =>
    obtain rfl : v = w := by simpa using start
    exact later v
  | .error e, .error f, start => exact start

end Outcome

/-- Two results with the same value, or two faults whatever they say. -/
def Akin {α : Type} (first second : Except Fault α) : Prop := first.toOption = second.toOption

namespace Akin

variable {α β : Type}

@[simp] theorem refl (result : Except Fault α) : Akin result result := rfl

@[simp] theorem error (first second : Fault) :
    Akin (.error first : Except Fault α) (.error second) := rfl

theorem cases {first second : Except Fault α} (akin : Akin first second) :
    (∃ fault other, first = .error fault ∧ second = .error other) ∨
      ∃ a, first = .ok a ∧ second = .ok a := by
  match first, second, akin with
  | .ok a, .ok b, akin =>
    obtain rfl : a = b := by simpa [Akin, Except.toOption] using akin
    exact .inr ⟨a, rfl, rfl⟩
  | .error fault, .error other, _ => exact .inl ⟨fault, other, rfl, rfl⟩

theorem bind {first second : Except Fault α} {next other : α → Except Fault β}
    (start : Akin first second) (later : ∀ a, Akin (next a) (other a)) :
    Akin (first >>= next) (second >>= other) := by
  rcases start.cases with ⟨fault, other, rfl, rfl⟩ | ⟨a, rfl, rfl⟩
  · exact error _ _
  · exact later a

@[simp] theorem converted (a b : Call) (result : Except CastError α) :
    Akin (Formula.converted a result) (Formula.converted b result) := by
  cases result <;> simp [Formula.converted]

end Akin

section Arity

variable (a b : Call) {args : List Value}

theorem akin_unary {compute : Call → Value → Except Fault Value}
    (each : ∀ v, Akin (compute a v) (compute b v)) :
    Akin (unary compute a args) (unary compute b args) := by
  match args with
  | [v] => exact each v
  | [] | _ :: _ :: _ => simp [unary]

theorem akin_binary {compute : Call → Value → Value → Except Fault Value}
    (each : ∀ v w, Akin (compute a v w) (compute b v w)) :
    Akin (binary compute a args) (binary compute b args) := by
  match args with
  | [v, w] => exact each v w
  | [] | [_] | _ :: _ :: _ :: _ => simp [binary]

theorem akin_ternary {compute : Call → Value → Value → Value → Except Fault Value}
    (each : ∀ u v w, Akin (compute a u v w) (compute b u v w)) :
    Akin (ternary compute a args) (ternary compute b args) := by
  match args with
  | [u, v, w] => exact each u v w
  | [] | [_] | [_, _] | _ :: _ :: _ :: _ :: _ => simp [ternary]

theorem akin_folding {operation : Value → Value → Except Fault Value} :
    Akin (folding operation a args) (folding operation b args) := by
  cases args <;> simp [folding]

end Arity

namespace Builtins

variable (a b : Call) {fallback : Fallback}

theorem akin_element (collection key : Value) :
    Akin (element a collection key) (element b collection key) := by
  unfold element
  cases collection with
  | array items =>
    by_cases whole : key.isInteger = true
    · simp only [whole, if_true]
      exact (Akin.converted a b key.toInt).bind fun n => Akin.refl _
    · simp [whole]
  | object fields => cases key <;> simp
  | null | bool | int | float | str => simp

theorem akin_numbers (v : Value) : Akin (numbers fallback a v) (numbers fallback b v) := by
  have listed (items : List Value) : Akin
      (if items.all Value.isNumber then .ok items else .error (a.fault .notNumbers))
      (if items.all Value.isNumber then .ok items else .error (b.fault .notNumbers)) := by
    split <;> simp
  unfold numbers
  cases v.asArray? with
  | some items => exact listed items
  | none => exact (Akin.refl fallback.items).bind listed

theorem akin_sum (v : Value) : Akin (sum fallback a v) (sum fallback b v) :=
  (akin_numbers a b v).bind fun _ => Akin.refl _

theorem akin_average (v : Value) : Akin (average fallback a v) (average fallback b v) := by
  refine (akin_numbers a b v).bind fun items => ?_
  split
  · simp
  · exact (akin_sum a b v).bind fun total => Akin.refl _

theorem akin_round (args : List Value) : Akin (round fallback a args) (round fallback b args) := by
  match args with
  | [v] => simp [round]
  | [v, places] =>
    simp only [round]
    split <;> simp
  | [] | _ :: _ :: _ :: _ => simp [round]

theorem akin_ordered (accepted : List Ordering) (v w : Value) :
    Akin (ordered accepted a v w) (ordered accepted b v w) := by
  unfold ordered
  split <;> simp

theorem akin_length (v : Value) : Akin (length a v) (length b v) := by
  cases v <;> simp [length]

theorem akin_textBound (v : Value) : Akin (textBound a v) (textBound b v) := by
  unfold textBound
  split
  · simp
  · split <;> simp

theorem akin_textOf (v : Value) : Akin (textOf a v) (textOf b v) := by
  cases v <;> simp [textOf]

theorem akin_cut (chars : List Char) (start length : Nat) :
    Akin (cut a chars start length) (cut b chars start length) := by
  unfold cut
  split <;> simp

theorem akin_slice (s start : Value) (length : Option Value) :
    Akin (slice a s start length) (slice b s start length) := by
  refine (akin_textOf a b s).bind fun chars => (akin_textBound a b start).bind fun first => ?_
  cases length with
  | none => exact akin_cut a b chars first _
  | some v => exact (akin_textBound a b v).bind fun length => akin_cut a b chars first length

theorem akin_substring (args : List Value) : Akin (substring a args) (substring b args) := by
  match args with
  | [s, start] => exact akin_slice a b s start none
  | [s, start, length] => exact akin_slice a b s start (some length)
  | [] | [_] | _ :: _ :: _ :: _ :: _ => simp [substring]

theorem akin_replace (s part replacement : Value) :
    Akin (replace a s part replacement) (replace b s part replacement) := by
  unfold replace
  split <;> simp

theorem akin_ticksTo (unit : Int) (v : Value) : Akin (ticksTo unit a v) (ticksTo unit b v) := by
  unfold ticksTo
  split
  · exact (Akin.converted a b v.toFloat).bind fun x => Akin.refl _
  · simp

section Culture

variable {a b} (options : a.options = b.options)

include options

/-- Numerals are read, and doubles written, in the culture of the settings. -/
theorem akin_numeral (v : Value) : Akin (numeral a v) (numeral b v) := by
  cases v with
  | str s => simp [numeral, options]
  | null | bool | int | float | array | object => simp [numeral]

theorem akin_toInt (v : Value) : Akin (toInt a v) (toInt b v) := by
  cases v with
  | bool => simp [toInt]
  | null | int | float | str | array | object =>
    refine (akin_numeral options _).bind fun v => ?_
    cases v with
    | float x => exact (Akin.converted a b _).bind fun n => Akin.refl _
    | null | bool | int | str | array | object => simp

theorem akin_toFloat (v : Value) : Akin (toFloat a v) (toFloat b v) := by
  refine (akin_numeral options v).bind fun v => ?_
  split <;> simp

theorem akin_toText (v : Value) : Akin (toText a v) (toText b v) := by
  cases v <;> simp [toText, options]

end Culture

theorem akin_toBool (v : Value) : Akin (toBool a v) (toBool b v) := by
  cases v with
  | str s =>
    simp only [toBool]
    split
    · simp
    · split <;> simp
  | null | bool | int | float | array | object => simp [toBool]

theorem akin_timestamp (v : Value) : Akin (timestamp a v) (timestamp b v) := by
  cases v <;> simp [timestamp]

theorem akin_timestampTicks (v : Value) : Akin (timestampTicks a v) (timestampTicks b v) :=
  (akin_timestamp a b v).bind fun stamp => Akin.converted a b stamp.ticks

theorem akin_ticks (v : Value) : Akin (ticks a v) (ticks b v) :=
  (akin_timestampTicks a b v).bind fun _ => Akin.refl _

theorem akin_field (get : Calendar.Instant → Int) (v : Value) : Akin (field get a v) (field get b v) :=
  (akin_timestamp a b v).bind fun _ => Akin.refl _

theorem akin_shift (perUnit : Float) (v amount : Value) :
    Akin (shift perUnit a v amount) (shift perUnit b v amount) := by
  refine (akin_timestamp a b v).bind fun start => ?_
  split
  · simp
  · split
    · split <;> simp
    · simp

theorem akin_difference (later earlier : Value) :
    Akin (difference a later earlier) (difference b later earlier) := by
  refine (akin_timestampTicks a b later).bind fun later =>
    (akin_timestampTicks a b earlier).bind fun earlier => ?_
  split <;> simp

theorem akin_count (v : Value) : Akin (count a v) (count b v) := by
  cases v <;> simp [count]

theorem akin_contains (collection needle : Value) :
    Akin (contains a collection needle) (contains b collection needle) := by
  unfold contains
  split <;> simp

theorem akin_join (collection separator : Value) :
    Akin (join a collection separator) (join b collection separator) := by
  cases collection <;> simp [join]

theorem akin_property (v name : Value) : Akin (property a v name) (property b v name) := by
  unfold property
  split <;> simp

theorem akin_items (v : Value) : Akin (items a v) (items b v) := by
  cases v <;> simp [items]

end Builtins

end Formula
