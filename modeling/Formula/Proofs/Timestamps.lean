import Formula.Proofs.StrictCalls
import Formula.Proofs.TimestampText

/-! Timestamps in expressions. Whatever a shift of a timestamp returns is a timestamp again, and reads
back as the shifted instant. -/
namespace Formula.Builtins

open Calendar

def shifters : List (String × Float) := [("addDays", 86400000.0), ("addHours", 3600000.0)]

theorem find?_shifter : ∀ shifter ∈ shifters,
    Registry.builtins.find? shifter.1 = some (shifting shifter.1 shifter.2) := by
  rw [Registry.builtins_eq]
  simp only [shifters, List.forall_mem_cons, List.not_mem_nil, false_imp_iff, implies_true, and_true]
  exact ⟨rfl, rfl⟩

/-- The instant that lies `amount` units after the one that the text denotes, if it is supported. -/
inductive Shifts (perUnit : Float) (text : String) (amount : Value) : Instant → Prop
  | intro {start : Instant} {x : Float} {millis : Int} (read : parse text = .ok start)
      (number : amount.asFloat? = some x) (shift : millis? perUnit x = some millis)
      (supported : (start.addMillis millis).inRange = true) :
      Shifts perUnit text amount (start.addMillis millis)

theorem Shifts.inRange {perUnit : Float} {text : String} {amount : Value} {i : Instant}
    (shifts : Shifts perUnit text amount i) : i.inRange = true := by
  cases shifts with
  | intro read number shift supported => exact supported

theorem timestamp_ok {call : Call} {v : Value} {i : Instant} (read : timestamp call v = .ok i) :
    ∃ text, v = .str text ∧ parse text = .ok i := by
  cases v with
  | str text => exact ⟨text, rfl, converted_ok_iff.1 read⟩
  | null | bool | int | float | array | object => simp [timestamp] at read

end Formula.Builtins
