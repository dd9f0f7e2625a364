import Formula.Proofs.DoubleProducts
import Formula.Proofs.TickArithmetic

/-! Shifts by whole days and hours. The amount passes through a product of doubles, a bound and a rounding,
and none of them changes a shift that stays in the supported years: such a shift has few bits, so it is
exact, and one with more bits leaves these years whatever it is rounded to. -/
namespace Formula

open Calendar (Instant parse ticksPerHour ticksPerDay)
open Calendar.Timestamp (write)

inductive Span
  | hour
  | day
  deriving DecidableEq, Repr

namespace Span

def hours : Span → Int
  | hour => 1
  | day => 24

def ticks : Span → Int
  | hour => ticksPerHour
  | day => ticksPerDay

def shifter : Span → String
  | hour => "addHours"
  | day => "addDays"

def perUnit : Span → Float
  | hour => 3600000.0
  | day => 86400000.0

theorem hours_bounds (span : Span) : 1 ≤ span.hours ∧ span.hours ≤ 24 := by
  cases span <;> decide

theorem ticks_eq (span : Span) : span.ticks = span.hours * ticksPerHour := by
  cases span <;> rfl

theorem rational?_perUnit (span : Span) :
    Binary64.rational? span.perUnit = some ((3600000 * span.hours : Int) : ℚ) := by
  apply Binary64.whole?_eq_some_iff.1
  cases span <;> decide +kernel

theorem find?_shifter (span : Span) :
    Registry.builtins.find? span.shifter = some (Builtins.shifting span.shifter span.perUnit) := by
  have listed : (span.shifter, span.perUnit) ∈ Builtins.shifters := by
    cases span
    · exact .tail _ (.head _)
    · exact .head _
  exact Builtins.find?_shifter (span.shifter, span.perUnit) listed

end Span

namespace Builtins

open Binary64

variable {perUnit amount : Float}

/-- A shift that is a whole number of milliseconds is taken as it is, up to 63 bits. -/
theorem millis?_whole {k : Int} (product : rational? (amount * perUnit) = some (k : ℚ)) :
    millis? perUnit amount = if k.natAbs < 2 ^ 63 then some k else none := by
  have finite : (amount * perUnit).isFinite = true := by
    rw [← isSome_rational?, product, Option.isSome_some]
  have bound : rational? (.ofInt (Int.pow 2 63)) = some ((2 ^ 63 : Int) : ℚ) :=
    whole?_eq_some_iff.1 (by decide +kernel)
  have small : (amount * perUnit).abs < .ofInt (Int.pow 2 63) ↔ k.natAbs < 2 ^ 63 := by
    rw [lt_iff_rational (rational?_abs product) bound, ← Int.cast_abs, Int.cast_lt, Int.abs_eq_natAbs]
    exact_mod_cast Iff.rfl
  have rounded := whole?_eq_some_iff.2 (rational?_round .halfAwayFromZero product)
  simp only [millis?, finite, Bool.true_and, decide_eq_true_eq, small, rounded]

/-- An amount whose milliseconds have too many bits to be exact comes to milliseconds with as many bits, or
to none: a long product stays long, and then it is whole. -/
theorem millis?_long (span : Span) {v : ℚ} {k : Int} (denoted : rational? amount = some v)
    (room : |v| ≤ 2 ^ 64) (long : 2 ^ 53 ≤ |v * (3600000 * span.hours : Int)|)
    (result : millis? span.perUnit amount = some k) : 2 ^ 53 ≤ k.natAbs := by
  obtain ⟨least, most⟩ := span.hours_bounds
  have unit : |((3600000 * span.hours : Int) : ℚ)| ≤ 2 ^ 27 := by
    rw [← Int.cast_abs]
    exact_mod_cast abs_le.2 ⟨by omega, by omega⟩
  have below : |v * (3600000 * span.hours : Int)| < 2 ^ (1023 : Int) := by
    calc |v * (3600000 * span.hours : Int)| = |v| * |((3600000 * span.hours : Int) : ℚ)| := abs_mul _ _
      _ ≤ 2 ^ 64 * 2 ^ 27 := by gcongr
      _ = 2 ^ (91 : Int) := by norm_num
      _ < 2 ^ (1023 : Int) := zpow_lt_zpow_right₀ (by norm_num) (by norm_num)
  obtain ⟨q, rounded, size⟩ := rational?_mul_long denoted span.rational?_perUnit long below
  obtain ⟨j, rfl⟩ := whole_of_long rounded size
  rw [millis?_whole rounded] at result
  split at result
  · cases result
    rw [← Int.cast_abs, Int.abs_eq_natAbs] at size
    exact_mod_cast size
  · cases result

theorem millis?_int (span : Span) (n : Int64) :
    millis? span.perUnit (.ofInt n.toInt) = some (3600000 * (span.hours * n.toInt)) ∨
      2 ^ 53 < (3600000 * (span.hours * n.toInt)).natAbs ∧
        ∀ k, millis? span.perUnit (.ofInt n.toInt) = some k → 2 ^ 53 ≤ k.natAbs := by
  have units := span.rational?_perUnit
  obtain ⟨least, most⟩ := span.hours_bounds
  have product : n.toInt * (3600000 * span.hours) = 3600000 * (span.hours * n.toInt) := by ring
  rcases rational?_int64 n with exact | ⟨v, denoted, long, room, size⟩
  · rcases Nat.lt_or_ge (2 ^ 53) (3600000 * (span.hours * n.toInt)).natAbs with long | short
    · refine .inr ⟨long, fun k => millis?_long span exact ?_ ?_⟩
      · have first := n.le_toInt
        have last := n.toInt_lt
        rw [← Int.cast_abs]
        exact_mod_cast abs_le.2 ⟨by omega, by omega⟩
      · rw [← Int.cast_mul, product, ← Int.cast_abs, Int.abs_eq_natAbs]
        exact_mod_cast long.le
    · left
      have shift := rational?_mul_short exact units (product ▸ short)
      rw [millis?_whole shift, if_pos (by rw [product]; omega), product]
  · refine .inr ⟨?_, fun k => millis?_long span denoted room ?_⟩
    · rw [← product, Int.natAbs_mul]
      exact size.trans_le (Nat.le_mul_of_pos_right _ (by omega))
    · have unit : (1 : ℚ) ≤ |((3600000 * span.hours : Int) : ℚ)| := by
        rw [← Int.cast_abs]
        exact_mod_cast le_abs.2 (.inl (by omega))
      rw [abs_mul]
      exact long.trans (le_mul_of_one_le_right (abs_nonneg v) unit)

end Builtins

namespace Calendar.Instant

variable {i : Instant}

/-- What the clock shows so many hours later. -/
def later (i : Instant) (hours : Int) : Instant := i.behind (-60 * hours)

theorem seconds_later (i : Instant) (hours : Int) : (i.later hours).seconds = i.seconds + 3600 * hours := by
  rw [later, seconds_behind]
  ring

theorem tickCount_later (i : Instant) (hours : Int) :
    (i.later hours).tickCount = i.tickCount + hours * ticksPerHour := by
  rw [later, tickCount_behind, ticksPerHour]
  ring

/-- So many days later the clock shows the same. -/
theorem later_days (i : Instant) (days : Int) : i.later (24 * days) = { i with day := i.day + days } := by
  apply ext_seconds
  · rw [seconds_later, seconds, seconds]
    ring
  · rfl

theorem later_zero (i : Instant) : i.later 0 = i := Timestamp.behind_zero i

theorem later_later (i : Instant) (hours more : Int) : (i.later hours).later more = i.later (hours + more) := by
  apply ext_seconds
  · rw [seconds_later, seconds_later, seconds_later]
    ring
  · rfl

theorem isLeap_later (i : Instant) (hours : Int) : (i.later hours).isLeap = i.isLeap := rfl

theorem truncated_later (i : Instant) (hours : Int) : i.truncated.later hours = (i.later hours).truncated := rfl

theorem inRange_truncated (i : Instant) : i.truncated.inRange = i.inRange := rfl

theorem truncated_whole (whole : i.nano % 1000000 = 0) : i.truncated = i :=
  ext_seconds rfl (Nat.div_mul_cancel (Nat.dvd_of_mod_eq_zero whole))

theorem inRange_iff_year : i.inRange = true ↔ 1 ≤ i.date.year ∧ i.date.year ≤ 9999 := by
  rw [inRange, inYearRange, date, Date.year_ofNumber, Bool.and_eq_true, decide_eq_true_iff, decide_eq_true_iff]

theorem seconds_ofNanos (total : Int) : (ofNanos total).seconds = total / 1000000000 := by
  simp only [seconds, ofNanos]
  omega

section Ordinary

variable (ordinary : i.isLeap = false)

include ordinary

theorem nano_of_ordinary : i.nano < 1000000000 := by
  rw [← not_le, ← isLeap_iff, ordinary]
  decide

theorem addMillis_ordinary (millis : Int) :
    i.addMillis millis = ofNanos (i.seconds * 1000000000 + i.nano + 1000000 * millis) := by
  have below := nano_of_ordinary ordinary
  have moves : ¬ i.staysInLeap millis := fun stays => absurd stays.1 below.not_ge
  have part : (i.nano : Int) % 1000000000 = i.nano := by omega
  rw [addMillis, dif_neg moves]
  simp [ordinary, seconds, part]

theorem addMillis_hours (hours : Int) : i.addMillis (3600000 * hours) = i.later hours := by
  have below := nano_of_ordinary ordinary
  rw [addMillis_ordinary ordinary]
  apply ext_seconds
  · rw [seconds_ofNanos, seconds_later]
    omega
  · simp only [ofNanos, later, behind]
    omega

/-- A shift by 54 bits of milliseconds is one by more than 280 thousand years. -/
theorem not_inRange_addMillis (supported : i.inRange = true) {millis : Int}
    (long : 2 ^ 53 ≤ millis.natAbs) : (i.addMillis millis).inRange = false := by
  obtain ⟨first, last⟩ := inRange_iff.1 supported
  have second := i.second_lt
  have below := nano_of_ordinary ordinary
  rw [← Bool.not_eq_true, inRange_iff, addMillis_ordinary ordinary]
  simp only [ofNanos, seconds]
  omega

end Ordinary

end Calendar.Instant

namespace Builtins

variable {text : String} {i : Instant} {call : Call}

/-- Outside leap seconds a whole shift comes to the exact instant, if that is supported. -/
theorem shift_int (span : Span) (read : parse text = .ok i) (ordinary : i.isLeap = false) (n : Int64) :
    shift span.perUnit call (.str text) (.int n) =
      if (i.later (span.hours * n.toInt)).inRange then
        .ok (.str (write (i.later (span.hours * n.toInt))))
      else .error (call.fault .dateRange) := by
  have supported := Calendar.inRange_of_parse read
  have exact := Instant.addMillis_hours ordinary (span.hours * n.toInt)
  have amount : (Value.int n).asFloat? = some (.ofInt n.toInt) := rfl
  simp only [shift, timestamp_parsed call read, amount, bind, Except.bind]
  rcases millis?_int span n with short | ⟨long, others⟩
  · simp only [short, Option.map_some, exact]
    rfl
  · have away : (i.later (span.hours * n.toInt)).inRange = false :=
      exact ▸ Instant.not_inRange_addMillis ordinary supported long.le
    rw [if_neg (ne_true_of_eq_false away)]
    cases result : millis? span.perUnit (.ofInt n.toInt) with
    | none => rfl
    | some k =>
      have gone := Instant.not_inRange_addMillis ordinary supported (others k result)
      exact if_neg (ne_true_of_eq_false gone)

end Builtins

namespace Expr

variable {options : Options} {depth : Nat} {memory : Memory} {x y z : Expr} {i : Instant} {n : Int64}

theorem Reads.shallower {level : Nat} (reads : Reads options depth memory x i) (higher : level ≤ depth) :
    Reads options level memory x i := by
  obtain ⟨text, value, parsed⟩ := reads
  exact ⟨text, evalAt_nearer higher value, parsed⟩

theorem Reads.inRange (reads : Reads options depth memory x i) : i.inRange = true := by
  obtain ⟨text, -, parsed⟩ := reads
  exact Calendar.inRange_of_parse parsed

theorem evalAt_shift (span : Span) (reads : Reads options (depth + 1) memory x i)
    (ordinary : i.isLeap = false) (amount : y.evalAt .builtins options (depth + 1) memory = .ok (.int n)) :
    (call span.shifter [x, y]).evalAt .builtins options depth memory =
      if (i.later (span.hours * n.toInt)).inRange then
        .ok (.str (write (i.later (span.hours * n.toInt))))
      else .error (.fault (.node (call span.shifter [x, y]) .dateRange)) := by
  obtain ⟨text, value, parsed⟩ := reads
  rw [evalAt_strict span.find?_shifter (by rfl) (by simp)
    (.cons ⟨value, Check.admits_none _⟩ (.cons ⟨amount, Check.admits_none _⟩ .nil)), binary,
    Builtins.shift_int span parsed ordinary]
  split <;> rfl

theorem reads_shift (span : Span) {w : Value} (reads : Reads options (depth + 1) memory x i)
    (ordinary : i.isLeap = false) (amount : y.evalAt .builtins options (depth + 1) memory = .ok (.int n))
    (value : (call span.shifter [x, y]).evalAt .builtins options depth memory = .ok w) :
    Reads options depth memory (call span.shifter [x, y]) (i.later (span.hours * n.toInt)).truncated := by
  rw [evalAt_shift span reads ordinary amount] at value
  split at value
  · rename_i supported
    refine ⟨_, ?_, Calendar.parse_write supported⟩
    rw [evalAt_shift span reads ordinary amount, if_pos supported]
  · cases value

/-- Shifts by whole days and hours are exact. Outside leap seconds such a shift comes to the text of the
exact instant if that lies in the years 1 to 9999, and is refused for the range of dates if not, whatever
the amount. In these years a shift of whole milliseconds is the amount of ticks apart, and the opposite
shift leads back to the instant; and of two shifts in a row the second comes to what one shift by both
amounts comes to. -/
theorem whole_shift_exact :
    (∀ (span : Span) options depth memory x y i (n : Int64), Reads options (depth + 1) memory x i →
      i.isLeap = false → y.evalAt .builtins options (depth + 1) memory = .ok (.int n) →
        let shifted := i.later (span.hours * n.toInt)
        (call span.shifter [x, y]).evalAt .builtins options depth memory =
          if 1 ≤ shifted.date.year ∧ shifted.date.year ≤ 9999 then .ok (.str (write shifted))
          else .error (.fault (.node (call span.shifter [x, y]) .dateRange))) ∧
    (∀ (span : Span) options depth memory x y i (n : Int64) w, Reads options (depth + 2) memory x i →
      i.isLeap = false → y.evalAt .builtins options (depth + 2) memory = .ok (.int n) →
      (call span.shifter [x, y]).evalAt .builtins options (depth + 1) memory = .ok w →
        (i.nano % 1000000 = 0 →
          (∃ d : Int64, (call "dateDiffTicks" [call span.shifter [x, y], x]).evalAt .builtins options depth
              memory = .ok (.int d) ∧ d.toInt = n.toInt * span.ticks) ∧
          ∀ back (m : Int64), back.evalAt .builtins options (depth + 1) memory = .ok (.int m) →
            m.toInt = -n.toInt →
              Reads options depth memory (call span.shifter [call span.shifter [x, y], back]) i) ∧
        ∀ more sum (m k : Int64), more.evalAt .builtins options (depth + 1) memory = .ok (.int m) →
          sum.evalAt .builtins options (depth + 1) memory = .ok (.int k) → k.toInt = n.toInt + m.toInt →
            ∀ v, (call span.shifter [call span.shifter [x, y], more]).evalAt .builtins options depth memory =
                .ok v ↔
              (call span.shifter [x, sum]).evalAt .builtins options depth memory = .ok v) := by
  constructor
  · intro span options depth memory x y i n reads ordinary amount shifted
    rw [evalAt_shift span reads ordinary amount]
    simp only [Instant.inRange_iff_year]
    rfl
  · intro span options depth memory x y i n w reads ordinary amount value
    have there := reads_shift span reads ordinary amount value
    have later : (i.later (span.hours * n.toInt)).isLeap = false := (i.isLeap_later _).trans ordinary
    have here := reads.shallower (by omega : depth + 1 ≤ depth + 2)
    have supported : i.inRange = true := here.inRange
    refine ⟨fun whole => ?_, ?_⟩
    · rw [← Instant.truncated_later, Instant.truncated_whole whole] at there
      constructor
      · obtain ⟨d, difference, exact⟩ := evalAt_difference there here
        refine ⟨d, difference, ?_⟩
        rw [exact, Instant.tickCount_later, span.ticks_eq]
        ring
      · intro back m opposite negative
        have returned : (i.later (span.hours * n.toInt)).later (span.hours * m.toInt) = i := by
          rw [Instant.later_later, negative, mul_neg, add_neg_cancel, Instant.later_zero]
        have again := evalAt_shift span there later opposite
        rw [returned, if_pos supported] at again
        have parsed := Calendar.parse_write supported
        rw [Instant.truncated_whole whole] at parsed
        exact ⟨_, again, parsed⟩
    · intro more sum m k amount' amount'' total v
      have combined : (i.later (span.hours * n.toInt)).truncated.later (span.hours * m.toInt) =
          (i.later (span.hours * k.toInt)).truncated := by
        rw [Instant.truncated_later, Instant.later_later, total, mul_add]
      rw [evalAt_shift span there ((Instant.isLeap_truncated _).trans later) amount', combined,
        evalAt_shift span here ordinary amount'', Calendar.Timestamp.write_truncated,
        Instant.inRange_truncated]
      split <;> simp

/-- From the first of March back to a leap day, and on by a year less a day; and a shift by more days than
there are. -/
theorem whole_shift_exact_leap_day :
    let stamp : Expr := .constant (.str "2024-02-29T22:30:00.5-02:00")
    let days (n : Int64) : Expr := .constant (.int n)
    let eve : Expr := call "addDays" [stamp, days (-1)]
    ∃ i, parse "2024-02-29T22:30:00.5-02:00" = .ok i ∧
      eve.eval .builtins {} .empty = .ok (.str "2024-02-29T00:30:00.500Z") ∧
      (call "addDays" [stamp, days 9223372036854775807]).eval .builtins {} .empty =
        .error (.fault (.node (call "addDays" [stamp, days 9223372036854775807]) .dateRange)) ∧
      (call "dateDiffTicks" [eve, stamp]).eval .builtins {} .empty = .ok (.int (-864000000000)) ∧
      Reads {} 0 .empty (call "addDays" [eve, days 1]) i ∧
      ∀ v, (call "addDays" [eve, days 366]).eval .builtins {} .empty = .ok v ↔
        (call "addDays" [stamp, days 365]).eval .builtins {} .empty = .ok v := by
  intro stamp days eve
  obtain ⟨single, double⟩ := whole_shift_exact
  let i : Instant := ⟨738945, 1800, 500000000, by decide, by decide, by decide⟩
  have read : parse "2024-02-29T22:30:00.5-02:00" = .ok i := Calendar.parse_of_toOption (by decide +kernel)
  have amount (n : Int64) (level : Nat) (room : level < 1000) :
      (days n).evalAt .builtins {} level .empty = .ok (.int n) := evalAt_constant room _ _
  have shift (n : Int64) (level : Nat) (room : level + 1 < 1000) :=
    single .day {} level .empty stamp (days n) i n (reads_constant room read) (by decide) (amount n _ room)
  have before (level : Nat) (room : level + 1 < 1000) :
      eve.evalAt .builtins {} level .empty = .ok (.str "2024-02-29T00:30:00.500Z") := by
    have text : write (i.later (Span.day.hours * (-1 : Int64).toInt)) = "2024-02-29T00:30:00.500Z" := by
      decide +kernel
    exact (shift (-1) level room).trans (text ▸ if_pos (by decide +kernel))
  have after := (shift 9223372036854775807 0 (by decide)).trans (if_neg (by decide +kernel))
  obtain ⟨whole, sums⟩ := double .day {} 0 .empty stamp (days (-1)) i (-1) _ (reads_constant (by decide) read)
    (by decide) (amount (-1) 2 (by decide)) (before 1 (by decide))
  obtain ⟨⟨d, difference, exact⟩, opposite⟩ := whole (by decide)
  obtain rfl : d = -864000000000 := Int64.toInt_inj.1 (exact.trans (by decide))
  exact ⟨i, read, before 0 (by decide), after, difference,
    opposite (days 1) 1 (amount 1 1 (by decide)) (by decide),
    sums (days 366) (days 365) 366 365 (amount 366 1 (by decide)) (amount 365 1 (by decide)) (by decide)⟩

end Expr

end Formula
