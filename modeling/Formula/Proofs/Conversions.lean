import Formula.Proofs.Numerals
import Formula.Proofs.StrictCalls

/-! Numbers as texts. A number that an expression turns into text, in the writing of its culture, comes back
from it: an integer as itself, a finite double as an equal one. -/
namespace Formula

open Binary64 (rational?)

namespace Builtins

variable {call : Call} {text : String}

theorem toInt_of_read {n : Int64} (read : Culture.read? call.options.locale text = some (.whole n)) :
    toInt call (.str text) = .ok (.int n) := by
  have numeral : Value.ofNumeral call.options.locale text = .ok (.int n) := by rw [Value.ofNumeral, read]
  simp only [toInt, Builtins.numeral, numeral, converted]
  rfl

theorem toFloat_of_read {reading : Culture.Reading}
    (read : Culture.read? call.options.locale text = some reading) :
    toFloat call (.str text) = .ok (.float reading.toFloat) := by
  cases reading with
  | whole n =>
    have numeral : Value.ofNumeral call.options.locale text = .ok (.int n) := by rw [Value.ofNumeral, read]
    simp only [toFloat, Builtins.numeral, numeral, converted]
    rfl
  | double x =>
    have numeral : Value.ofNumeral call.options.locale text = .ok (.float x) := by rw [Value.ofNumeral, read]
    simp only [toFloat, Builtins.numeral, numeral, converted]
    rfl

end Builtins

theorem Value.float_of_kind {ε : Type} {result : Except ε Value}
    (kind : result.toOption.map Value.kind = some .number) : ∃ x, result = .ok (.float x) := by
  match result, kind with
  | .ok (.float x), _ => exact ⟨x, rfl⟩

theorem Value.isFinite_of_ofNumeral {tag : Option String} {text : String} {x : Float}
    (read : ofNumeral tag text = .ok (.float x)) : x.isFinite = true := by
  unfold ofNumeral at read
  split at read
  · cases read
  · rename_i double
    cases read
    exact Culture.isFinite_of_read? double
  · cases read

namespace Expr

open Builtins

section Calls

variable {options : Options} {depth : Nat} {memory : Memory} {e : Expr}

theorem find?_int : Registry.builtins.find? "int" =
    some ⟨"int", .number, .unary, strict (some .notNull) (unary toInt)⟩ := by
  rw [Registry.builtins_eq]
  rfl

theorem find?_float : Registry.builtins.find? "float" =
    some ⟨"float", .number, .unary, strict (some .notNull) (unary toFloat)⟩ := by
  rw [Registry.builtins_eq]
  rfl

theorem find?_string : Registry.builtins.find? "string" =
    some ⟨"string", .string, .unary, strict none (unary toText)⟩ := by
  rw [Registry.builtins_eq]
  rfl

theorem evalAt_string_int {n : Int64}
    (value : e.evalAt .builtins options (depth + 1) memory = .ok (.int n)) :
    (call "string" [e]).evalAt .builtins options depth memory = .ok (.str (toString n.toInt)) := by
  obtain ⟨use, -, written⟩ := evalAt_strict_unary find?_string (by rfl) ⟨value, Check.admits_none _⟩
  rw [written]
  rfl

theorem evalAt_string_float {x : Float}
    (value : e.evalAt .builtins options (depth + 1) memory = .ok (.float x)) :
    (call "string" [e]).evalAt .builtins options depth memory =
      .ok (.str (Culture.write options.locale x)) := by
  obtain ⟨use, rfl, written⟩ := evalAt_strict_unary find?_string (by rfl) ⟨value, Check.admits_none _⟩
  rw [written]
  rfl

theorem evalAt_int_text {text : String} {n : Int64} (read : Culture.read? options.locale text = some (.whole n))
    (value : e.evalAt .builtins options (depth + 1) memory = .ok (.str text)) :
    (call "int" [e]).evalAt .builtins options depth memory = .ok (.int n) := by
  obtain ⟨use, rfl, converted⟩ := evalAt_strict_unary find?_int (by rfl) ⟨value, Check.admits_some rfl⟩
  rw [converted, toInt_of_read read]
  rfl

theorem evalAt_float_text {text : String} {reading : Culture.Reading}
    (read : Culture.read? options.locale text = some reading)
    (value : e.evalAt .builtins options (depth + 1) memory = .ok (.str text)) :
    (call "float" [e]).evalAt .builtins options depth memory = .ok (.float reading.toFloat) := by
  obtain ⟨use, rfl, converted⟩ := evalAt_strict_unary find?_float (by rfl) ⟨value, Check.admits_some rfl⟩
  rw [converted, toFloat_of_read read]
  rfl

end Calls

/-- Numbers survive their text in every culture. An integer comes back as itself; a finite double as an equal
one, whether its text is read as an integer or as a double; and what is read as a double is finite. -/
theorem numbers_survive_text (e : Expr) (options : Options) (depth : Nat) (memory : Memory) :
    (∀ n, e.evalAt .builtins options (depth + 2) memory = .ok (.int n) →
      (call "int" [call "string" [e]]).evalAt .builtins options depth memory = .ok (.int n)) ∧
    (∀ x, x.isFinite = true → e.evalAt .builtins options (depth + 2) memory = .ok (.float x) →
      ∃ y, (call "float" [call "string" [e]]).evalAt .builtins options depth memory = .ok (.float y) ∧
        (y == x) = true) ∧
    ∀ tag text x, Value.ofNumeral tag text = .ok (.float x) → x.isFinite = true := by
  refine ⟨fun n value => ?_, fun x finite value => ?_, fun _ _ _ => Value.isFinite_of_ofNumeral⟩
  · exact evalAt_int_text (Culture.read?_whole options.locale n) (evalAt_string_int value)
  · obtain ⟨v, denoted⟩ := Option.isSome_iff_exists.1 ((Binary64.isSome_rational? x).trans finite)
    obtain ⟨reading, read, same⟩ := Culture.read?_write options.locale denoted
    exact ⟨_, evalAt_float_text read (evalAt_string_float value), Binary64.beq_of_rational same denoted⟩

/-- The least integer, a fraction, the negative zero and a whole double of 60 bits where a comma stands before
the fraction. -/
theorem numbers_survive_text_comma :
    let options : Options := { locale := some "de-DE" }
    let text (v : Value) : Expr := .call "string" [.constant v]
    let number (v : Value) : Expr := .call "float" [text v]
    (call "int" [text (.int Int64.minValue)]).eval .builtins options .empty = .ok (.int Int64.minValue) ∧
      (text (.float 2.5)).eval .builtins options .empty = .ok (.str "2,5") ∧
      (∃ y, (number (.float 2.5)).eval .builtins options .empty = .ok (.float y) ∧ (y == 2.5) = true) ∧
      (text (.float (-0.0))).eval .builtins options .empty = .ok (.str "-0") ∧
      (∃ y, (number (.float (-0.0))).eval .builtins options .empty = .ok (.float y) ∧ (y == -0.0) = true) ∧
      (text (.float 1152921504606846976.0)).eval .builtins options .empty = .ok (.str "1152921504606847000") ∧
      (∃ y, (number (.float 1152921504606846976.0)).eval .builtins options .empty = .ok (.float y) ∧
        (y == 1152921504606846976.0) = true) ∧
      ∃ y, Value.ofNumeral (some "de-DE") "1.234,5" = .ok (.float y) ∧ y.isFinite = true := by
  intro options text number
  have value (v : Value) : (constant v).evalAt .builtins options (0 + 2) .empty = .ok v :=
    evalAt_constant (by decide) v _
  have double (x : Float) (finite : x.isFinite = true) :=
    (numbers_survive_text (.constant (.float x)) options 0 .empty).2.1 x finite (value _)
  obtain ⟨y, grouped⟩ : ∃ y, Value.ofNumeral (some "de-DE") "1.234,5" = .ok (.float y) :=
    Value.float_of_kind (by decide +kernel)
  refine ⟨(numbers_survive_text _ options 0 .empty).1 _ (value _), Outcome.eq_str ?_, double _ (by decide +kernel),
    Outcome.eq_str ?_, double _ (by decide +kernel), Outcome.eq_str ?_, double _ (by decide +kernel),
    y, grouped, (numbers_survive_text (.constant .null) options 0 .empty).2.2 _ _ _ grouped⟩
  · rw [Registry.builtins_eq]
    decide +kernel
  · rw [Registry.builtins_eq]
    decide +kernel
  · rw [Registry.builtins_eq]
    decide +kernel

end Expr

end Formula
