import Formula.Proofs.Ticks
import Formula.Proofs.TimestampText

/-! What a timestamp shows: a clock, and how far the clock is ahead of Universal Time. The clock may read as
it likes, the instant that a text denotes depends only on the difference of the two. -/
namespace Formula.Calendar

namespace Timestamp

/-- The clock that a date-time with an offset shows, and the minutes it is ahead. -/
def clock? (text : List Char) : Option (Instant × Int) := do
  let (year, text) ← number? 4 4 text
  let text ← char? '-' text
  let (month, text) ← number? 2 2 text
  let text ← char? '-' text
  let (day, text) ← number? 2 2 text
  let text ← match text with
    | mark :: text => if mark = 'T' ∨ mark = 't' ∨ mark = ' ' then some text else none
    | [] => none
  let (hour, text) ← number? 2 2 text
  let text ← char? ':' text
  let (minute, text) ← number? 2 2 text
  let text ← char? ':' text
  let (second, text) ← number? 2 2 text
  let (nano, text) ← fraction? text
  let (ahead, text) ← offset? text
  if !text.isEmpty then none
  else
    let day ← day? ⟨year, month, day⟩
    let clock ← instant? day ⟨hour, minute, second, nano⟩
    return (clock, ahead)

/-- The instant is what Universal Time shows then. -/
theorem offsetDateTime?_eq (text : List Char) :
    offsetDateTime? text = (clock? text).map fun (clock, ahead) => clock.behind ahead := by
  have peel {α : Type} {x : Option α} {f : α → Option Instant} {g : α → Option (Instant × Int)}
      (rest : ∀ a, f a = (g a).map fun (clock, ahead) => clock.behind ahead) :
      x >>= f = (x >>= g).map fun (clock, ahead) => clock.behind ahead := by
    cases x with
    | none => rfl
    | some a => exact rest a
  unfold offsetDateTime? clock?
  -- The two readers take the same fields; they differ in what they make of them at the end.
  refine peel fun (year, text) => ?_
  refine peel fun text => ?_
  refine peel fun (month, text) => ?_
  refine peel fun text => ?_
  refine peel fun (day, text) => ?_
  rcases text with _ | ⟨mark, text⟩
  · rfl
  · by_cases known : mark = 'T' ∨ mark = 't' ∨ mark = ' '
    · dsimp only
      rw [if_pos known, if_pos known]
      refine peel fun text => ?_
      refine peel fun (hour, text) => ?_
      refine peel fun text => ?_
      refine peel fun (minute, text) => ?_
      refine peel fun text => ?_
      refine peel fun (second, text) => ?_
      refine peel fun (nano, text) => ?_
      refine peel fun (ahead, text) => ?_
      by_cases rest : (!text.isEmpty) = true
      · simp only [rest, if_true, Option.map_none]
      · simp only [rest]
        exact peel fun day => peel fun clock => rfl
    · dsimp only
      rw [if_neg known, if_neg known]
      rfl

/-- The clock of a text in any form and the minutes it is ahead; without an offset it shows Universal
Time. -/
def reading? (text : String) : Option (Instant × Int) :=
  let chars := Text.strip text.toList
  (clock? chars).orElse fun _ =>
    ((localDateTime? chars).orElse fun _ => bareDate? chars).map fun clock => (clock, 0)

theorem read?_eq (text : String) :
    read? text = (reading? text).map fun (clock, ahead) => clock.behind ahead := by
  rw [read?, reading?, offsetDateTime?_eq]
  cases clock? (Text.strip text.toList) with
  | some shown => rfl
  | none =>
    cases (localDateTime? (Text.strip text.toList)).orElse fun _ => bareDate? (Text.strip text.toList) with
    | none => rfl
    | some clock => exact congrArg some (behind_zero clock).symm

end Timestamp

variable {text : String} {clock : Instant} {ahead : Int}

theorem reading_of_parse {i : Instant} (read : parse text = .ok i) :
    ∃ clock ahead, Timestamp.reading? text = some (clock, ahead) ∧ i = clock.behind ahead := by
  rw [parse, Timestamp.read?_eq] at read
  cases shown : Timestamp.reading? text with
  | none => simp [shown] at read
  | some reading =>
    obtain ⟨clock, ahead⟩ := reading
    refine ⟨clock, ahead, rfl, ?_⟩
    simp only [shown, Option.map_some] at read
    split at read <;> cases read
    rfl

theorem parse_of_reading (shown : Timestamp.reading? text = some (clock, ahead))
    (supported : (clock.behind ahead).inRange = true) : parse text = .ok (clock.behind ahead) := by
  simp only [parse, Timestamp.read?_eq, shown, Option.map_some, supported, if_true]

end Formula.Calendar
