import Formula.Proofs.PathJoin
import Formula.Proofs.Scanning
import Formula.Proofs.StrictCalls

/-! The ways of reaching inside a value agree. Over layered memory, a path that goes on with a selector,
the function `element` and, for keys, the function `getProperty` find the same member or item, and null
where there is none. -/
namespace Formula

namespace Path

/-- The path to an item of what `path` leads to. -/
def item (path : String) (position : Nat) : String := path ++ "[" ++ toString position ++ "]"

/-- The path to a member of what `path` leads to, with the key in these quotes. -/
def member (path : String) (quote : Char) (key : String) : String :=
  path ++ "[" ++ String.singleton quote ++ key ++ String.singleton quote ++ "]"

variable {path : String} {steps : List Step}

theorem numeral_digits (n : Nat) : Numeral (Decimal.digits n) n := by
  have nonempty : Decimal.digits n ≠ [] := Nat.toDigits_ne_nil
  have numeral := numeral_ofDigits nonempty fun c => Decimal.isDigit_of_mem_digits
  rwa [show Decimal.ofDigits (Decimal.digits n) = n from Decimal.ofDigits_zeros 0 n] at numeral

theorem steps_selector (read : Memory.steps path = .ok steps) {longer : String} {brackets : List Char}
    {step : Step} (selector : Selector brackets step) (text : longer.toList = path.toList ++ brackets) :
    Memory.steps longer = .ok (steps ++ [step]) := by
  rw [steps_ok_iff] at read ⊢
  have alone : Selectors brackets [step] := by simpa using Selectors.more selector .none
  rw [text]
  exact read.selectors alone

theorem steps_item (read : Memory.steps path = .ok steps) {position : Nat}
    (word : position < indexLimit) :
    Memory.steps (item path position) = .ok (steps ++ [.index position]) := by
  apply steps_selector read (.index (numeral_digits position) word)
  simp [item, toString, Nat.repr, Decimal.digits]

theorem steps_member (read : Memory.steps path = .ok steps) {quote : Char}
    (quotes : isQuote quote = true) {key : String} (free : quote ∉ key.toList) :
    Memory.steps (member path quote key) = .ok (steps ++ [.key key]) := by
  have selector := Selector.key (by simpa [isQuote] using quotes) free
  rw [String.ofList_toList] at selector
  apply steps_selector read selector
  simp [member]

end Path

namespace Value

def Indexed : Value → Prop
  | .null | .array _ => True
  | _ => False

def Keyed : Value → Prop
  | .null | .object _ => True
  | _ => False

end Value

namespace Builtins

variable {call : Call} {v : Value}

theorem element_index (indexed : v.Indexed) {position : Int64} {n : Nat} (whole : position.toInt = n) :
    element call v (.int position) = .ok ((v.step (.index n)).getD .null) := by
  match v with
  | .null => rfl
  | .array items =>
    have reached : Integer.toNat? position = some n := by
      simp [Integer.toNat?, whole]
    simp [element, Value.isInteger, Value.toInt, converted, itemAt, reached, Value.step, bind,
      Except.bind, pure, Except.pure]

/-- A position before the first item is outside, not counted from the end. -/
theorem element_negative (indexed : v.Indexed) {position : Int64} (below : position.toInt < 0) :
    element call v (.int position) = .ok .null := by
  match v with
  | .null => rfl
  | .array items =>
    have outside : Integer.toNat? position = none := by
      simp [Integer.toNat?, below]
    simp [element, Value.isInteger, Value.toInt, converted, itemAt, outside, bind, Except.bind, pure,
      Except.pure]

theorem element_key (keyed : v.Keyed) (key : String) :
    element call v (.str key) = .ok ((v.step (.key key)).getD .null) := by
  match v with
  | .null | .object fields => rfl

theorem property_key (keyed : v.Keyed) (key : String) :
    property call v (.str key) = .ok ((v.step (.key key)).getD .null) := by
  match v with
  | .null | .object fields => rfl

end Builtins

namespace Memory

/-- The value that a path leads to, null where it leads nowhere. -/
def valueAt (memory : Memory) (path : String) : Value :=
  match memory.resolve path with
  | .ok v => v
  | .error _ => .null

/-- What is one step inside the value that a path leads to, null where there is no such thing. -/
def inside (memory : Memory) (path : String) (step : Step) : Value :=
  ((memory.valueAt path).step step).getD .null

variable {memory : Memory} {path longer : String} {steps : List Step}

theorem Layered.valueAt_longer (layered : memory.Layered) (read : Memory.steps path = .ok steps)
    {step : Step} (further : Memory.steps longer = .ok (steps ++ [step])) :
    memory.valueAt longer = memory.inside path step := by
  rw [inside, valueAt, valueAt, layered.resolve_longer read further]
  cases memory.resolve path with
  | error e => rfl
  | ok v =>
    simp only [onward, find, Value.walk]
    cases v.step step <;> rfl

end Memory

namespace Expr

variable {options : Options} {depth : Nat} {memory : Memory} {path : String} {steps : List Step}

/-- Without substitutes, an accessor comes to the value at its path. -/
theorem evalAt_layered (layered : memory.Layered) (silent : ∀ path, options.whenNull path = none)
    (room : depth < options.maxDepth) (read : Memory.steps path = .ok steps) :
    (accessor path).evalAt .builtins options depth memory = .ok (memory.valueAt path) := by
  rw [evalAt_path room (by rfl), Memory.valueAt]
  cases answer : memory.resolve path with
  | ok v => exact answered_value silent path v
  | error e =>
    rw [layered.missing read answer]
    exact answered_missing silent path path

def elementOf (path : String) (v : Value) : Expr := .call "element" [accessor path, constant v]

def propertyOf (path : String) (v : Value) : Expr := .call "getProperty" [accessor path, constant v]

section Functions

variable (layered : memory.Layered) (silent : ∀ path, options.whenNull path = none)
  (room : depth + 1 < options.maxDepth) (read : Memory.steps path = .ok steps)

include layered silent room read

theorem evalAt_lookup {name : String} {function : Function}
    {compute : Call → Value → Value → Except Fault Value}
    (found : Registry.builtins.find? name = some function)
    (logic : function.logic = strict none (binary compute)) (v : Value) :
    ∃ call, (Expr.call name [accessor path, constant v]).evalAt .builtins options depth memory =
      (compute call (memory.valueAt path) v).mapError .fault := by
  exact evalAt_strict_binary found logic
    ⟨evalAt_layered layered silent room read, Check.admits_none _⟩
    ⟨evalAt_constant room _ _, Check.admits_none _⟩

theorem evalAt_element (v : Value) :
    ∃ call, (elementOf path v).evalAt .builtins options depth memory =
      (Builtins.element call (memory.valueAt path) v).mapError .fault := by
  have found : Registry.builtins.find? "element" = some ⟨"element", .any,
      .all [.binary, .positional [.array ∪ .object, .number ∪ .string]],
      strict none (binary Builtins.element)⟩ := by
    rw [Registry.builtins_eq]
    rfl
  exact evalAt_lookup layered silent room read found (by rfl) v

theorem evalAt_getProperty (v : Value) :
    ∃ call, (propertyOf path v).evalAt .builtins options depth memory =
      (Builtins.property call (memory.valueAt path) v).mapError .fault := by
  have found : Registry.builtins.find? "getProperty" = some ⟨"getProperty", .any,
      .all [.binary, .positional [.object, .string]], strict none (binary Builtins.property)⟩ := by
    rw [Registry.builtins_eq]
    rfl
  exact evalAt_lookup layered silent room read found (by rfl) v

theorem evalAt_item (indexed : (memory.valueAt path).Indexed) {position : Int64} {n : Nat}
    (whole : position.toInt = n) :
    (elementOf path (.int position)).evalAt .builtins options depth memory =
        .ok (memory.inside path (.index n)) ∧
      (accessor (Path.item path n)).evalAt .builtins options depth memory =
        .ok (memory.inside path (.index n)) := by
  have small : n < 2 ^ 63 := by
    have := position.toInt_lt
    omega
  have word : n < Path.indexLimit := Nat.lt_trans small (by decide)
  have further := Path.steps_item read word
  obtain ⟨_, computed⟩ := evalAt_element layered silent room read (.int position)
  constructor
  · rw [computed, Builtins.element_index indexed whole]
    rfl
  · rw [evalAt_layered layered silent (by omega) further, layered.valueAt_longer read further]

theorem evalAt_member (keyed : (memory.valueAt path).Keyed) (key : String) {quote : Char}
    (quotes : Path.isQuote quote = true) (free : quote ∉ key.toList) :
    (elementOf path (.str key)).evalAt .builtins options depth memory =
        .ok (memory.inside path (.key key)) ∧
      (propertyOf path (.str key)).evalAt .builtins options depth memory =
        .ok (memory.inside path (.key key)) ∧
      (accessor (Path.member path quote key)).evalAt .builtins options depth memory =
        .ok (memory.inside path (.key key)) := by
  have further := Path.steps_member read quotes free
  obtain ⟨_, element⟩ := evalAt_element layered silent room read (.str key)
  obtain ⟨_, property⟩ := evalAt_getProperty layered silent room read (.str key)
  refine ⟨?_, ?_, ?_⟩
  · rw [element, Builtins.element_key keyed]
    rfl
  · rw [property, Builtins.property_key keyed]
    rfl
  · rw [evalAt_layered layered silent (by omega) further, layered.valueAt_longer read further]

end Functions

/-- Over layered memory and without substitutes for null, the ways of reaching inside the value at a path
agree. Inside an array, null or nothing, `element` and the path with the position come to one item, which
is null past the end, and `element` comes to null before the start. Inside an object, null or nothing,
`element`, `getProperty` and the path with the key, in quotes that are not in it, come to one member,
which is null for a key that is not there. -/
theorem lookups_agree (layered : memory.Layered) (silent : ∀ path, options.whenNull path = none)
    (room : depth + 1 < options.maxDepth) (read : Path.parse path = .ok steps) :
    ((memory.valueAt path).Indexed → ∀ position : Int64,
      (∀ n : Nat, position.toInt = n →
        (elementOf path (.int position)).evalAt .builtins options depth memory =
            .ok (memory.inside path (.index n)) ∧
          (accessor (Path.item path n)).evalAt .builtins options depth memory =
            .ok (memory.inside path (.index n))) ∧
      (position.toInt < 0 →
        (elementOf path (.int position)).evalAt .builtins options depth memory = .ok .null)) ∧
    ((memory.valueAt path).Keyed → ∀ key quote, Path.isQuote quote = true → quote ∉ key.toList →
      (elementOf path (.str key)).evalAt .builtins options depth memory =
          .ok (memory.inside path (.key key)) ∧
        (propertyOf path (.str key)).evalAt .builtins options depth memory =
          .ok (memory.inside path (.key key)) ∧
        (accessor (Path.member path quote key)).evalAt .builtins options depth memory =
          .ok (memory.inside path (.key key))) := by
  have read := Memory.steps_of_parse read
  refine ⟨fun indexed position => ⟨?_, ?_⟩, fun keyed key quote quotes free => ?_⟩
  · intro n whole
    exact evalAt_item layered silent room read indexed whole
  · intro below
    obtain ⟨_, computed⟩ := evalAt_element layered silent room read (.int position)
    rw [computed, Builtins.element_negative indexed below]
    rfl
  · exact evalAt_member layered silent room read keyed key quotes free

/-- A layer that hides an object behind an array, with an index far outside; a member of the document
with the empty key; and a path that leads nowhere. -/
theorem lookups_agree_edges :
    let memory : Memory := .over [("x", .array [.int 1])]
      (.document (.object [("x", .object [("a", .int 2)]), ("y", .object [("", .int 3)])]))
    (elementOf "x" (.int 0)).eval .builtins {} memory = .ok (.int 1) ∧
    (accessor "x[0]").eval .builtins {} memory = .ok (.int 1) ∧
    (elementOf "x" (.int (-1))).eval .builtins {} memory = .ok .null ∧
    (elementOf "x" (.int Int64.maxValue)).eval .builtins {} memory = .ok .null ∧
    (accessor "x[9223372036854775807]").eval .builtins {} memory = .ok .null ∧
    (elementOf "y" (.str "")).eval .builtins {} memory = .ok (.int 3) ∧
    (propertyOf "y" (.str "")).eval .builtins {} memory = .ok (.int 3) ∧
    (accessor "y['']").eval .builtins {} memory = .ok (.int 3) ∧
    (propertyOf "z" (.str "a.b")).eval .builtins {} memory = .ok .null ∧
    (accessor "z['a.b']").eval .builtins {} memory = .ok .null := by
  intro memory
  have layered : memory.Layered := .layer _ (.document _)
  have x : Path.parse "x" = .ok [.key "x"] := by decide +kernel
  have y : Path.parse "y" = .ok [.key "y"] := by decide +kernel
  have z : Path.parse "z" = .ok [.key "z"] := by decide +kernel
  have array : memory.valueAt "x" = .array [.int 1] := by
    rw [Memory.valueAt, Memory.resolve_over (Memory.steps_of_parse x)]
    rfl
  have object : memory.valueAt "y" = .object [("", .int 3)] := by
    rw [Memory.valueAt, Memory.resolve_over (Memory.steps_of_parse y)]
    simp only [Memory.entered?, Fields.get?]
    rw [Memory.resolve_document (Memory.steps_of_parse y)]
    rfl
  have nothing : memory.valueAt "z" = .null := by
    rw [Memory.valueAt, Memory.resolve_over (Memory.steps_of_parse z),
      Memory.resolve_document (Memory.steps_of_parse z)]
    rfl
  have silent (path : String) : ({} : Options).whenNull path = none := rfl
  have room : 0 + 1 < ({} : Options).maxDepth := by decide
  have items := (lookups_agree layered silent room x).1 (by rw [array]; trivial)
  have first := (items 0).1 0 (by decide)
  have far := (items Int64.maxValue).1 9223372036854775807 (by decide)
  have unnamed := (lookups_agree layered silent room y).2
    (by rw [object]; trivial) "" '\'' (by decide) (by simp)
  have missing := (lookups_agree layered silent room z).2
    (by rw [nothing]; trivial) "a.b" '\'' (by decide) (by simp)
  simp only [Memory.inside, array, object, nothing] at first far unnamed missing
  exact ⟨first.1, first.2, (items (-1)).2 (by decide), far.1, far.2, unnamed.1, unnamed.2.1,
    unnamed.2.2, missing.2.1, missing.2.2⟩

end Expr

end Formula
