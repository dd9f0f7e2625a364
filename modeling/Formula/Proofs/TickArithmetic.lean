import Formula.Proofs.Levels
import Formula.Proofs.Offsets
import Formula.Proofs.Timestamps

/-! Ticks in expressions. On timestamps the count of ticks and the difference of two counts are always
there, so the differences add up; and the counts keep the order of the timestamps, unless a leap second
overtakes the second after it. -/
namespace Formula

open Calendar (Instant parse ticksPerMinute ticksPerSecond unixEpochTicks)
open Calendar.Timestamp (reading?)

/-- The complaint that a count of ticks, or a difference of two, needs more than 64 bits. -/
def Fault.TickRange : Fault → Prop
  | .node _ .tickRange | .node _ (.conversion (.tickRange _)) => True
  | _ => False

def EvalError.TickRange : EvalError → Prop
  | .fault cause => cause.TickRange
  | _ => False

namespace Builtins

variable {call : Call}

section Counting

variable {a b : String} {i j : Instant}

theorem timestamp_parsed (call : Call) (read : parse a = .ok i) : timestamp call (.str a) = .ok i := by
  rw [timestamp, read, converted]

theorem timestampTicks_of_timestamp {v : Value} (read : timestamp call v = .ok i) :
    ∃ n : Int64, timestampTicks call v = .ok n ∧ n.toInt = i.tickCount := by
  obtain ⟨text, -, parsed⟩ := timestamp_ok read
  obtain ⟨n, counted, value⟩ := Instant.ticks_ok (Calendar.inRange_of_parse parsed)
  exact ⟨n, by simp only [timestampTicks, read, bind, Except.bind, counted, converted], value⟩

/-- Two counts are natural numbers of 62 bits, so their difference fits. -/
theorem difference_of_timestamps {v w : Value} (later : timestamp call v = .ok i)
    (earlier : timestamp call w = .ok j) :
    ∃ n : Int64, difference call v w = .ok (.int n) ∧ n.toInt = i.tickCount - j.tickCount := by
  obtain ⟨m, first, left⟩ := timestampTicks_of_timestamp later
  obtain ⟨n, second, right⟩ := timestampTicks_of_timestamp earlier
  obtain ⟨text, -, parsed⟩ := timestamp_ok later
  obtain ⟨text', -, parsed'⟩ := timestamp_ok earlier
  have bounds := Instant.tickCount_bounds (Calendar.inRange_of_parse parsed)
  have bounds' := Instant.tickCount_bounds (Calendar.inRange_of_parse parsed')
  have fits : Integer.Fits (m.toInt - n.toInt) := by
    have size : Int.pow 2 63 = 2 ^ 63 := rfl
    rw [Integer.Fits, left, right, size]
    omega
  have present : Integer.sub? m n = some (.ofInt (m.toInt - n.toInt)) := if_pos fits
  refine ⟨_, ?_, (Integer.toInt_ofInt? present).trans (by rw [left, right])⟩
  simp only [difference, first, second, bind, Except.bind, present]
  rfl

end Counting

section Reach

/-- A result that is not refused for the size of a count. -/
def InTickRange {α : Type} (result : Except Fault α) : Prop :=
  ∀ fault, result = .error fault → ¬ fault.TickRange

theorem inTickRange_timestamp (v : Value) : InTickRange (timestamp call v) := by
  intro fault refused
  cases v with
  | str text =>
    cases read : parse text with
    | ok i => simp [timestamp, read, converted] at refused
    | error cause =>
      rw [timestamp, read, converted] at refused
      cases refused
      unfold parse at read
      split at read
      · cases read
        exact id
      · split at read <;> cases read
        exact id
  | null | bool | int | float | array | object =>
    cases refused
    exact id

theorem inTickRange_timestampTicks (v : Value) : InTickRange (timestampTicks call v) := by
  intro fault refused
  cases read : timestamp call v with
  | ok i =>
    obtain ⟨n, counted, -⟩ := timestampTicks_of_timestamp read
    rw [counted] at refused
    cases refused
  | error first =>
    simp only [timestampTicks, read, bind, Except.bind] at refused
    cases refused
    exact inTickRange_timestamp v fault read

theorem inTickRange_ticks (v : Value) : InTickRange (ticks call v) := by
  intro fault refused
  cases counted : timestampTicks call v with
  | ok n => simp [ticks, counted, bind, Except.bind, pure, Except.pure] at refused
  | error first =>
    simp only [ticks, counted, bind, Except.bind] at refused
    cases refused
    exact inTickRange_timestampTicks v fault counted

theorem inTickRange_difference (v w : Value) : InTickRange (difference call v w) := by
  intro fault refused
  cases later : timestamp call v with
  | error first =>
    simp only [difference, timestampTicks, later, bind, Except.bind] at refused
    cases refused
    exact inTickRange_timestamp v fault later
  | ok i =>
    cases earlier : timestamp call w with
    | error first =>
      obtain ⟨m, counted, -⟩ := timestampTicks_of_timestamp later
      simp only [difference, counted, bind, Except.bind] at refused
      simp only [timestampTicks, earlier, bind, Except.bind] at refused
      cases refused
      exact inTickRange_timestamp w fault earlier
    | ok j =>
      obtain ⟨n, value, -⟩ := difference_of_timestamps later earlier
      rw [value] at refused
      cases refused

end Reach

end Builtins

namespace Expr

open Builtins

/-- The expression comes to a text that denotes this instant. -/
def Reads (options : Options) (level : Nat) (memory : Memory) (x : Expr) (i : Instant) : Prop :=
  ∃ text, x.evalAt .builtins options level memory = .ok (.str text) ∧ parse text = .ok i

section Calls

variable {options : Options} {depth : Nat} {memory : Memory} {x y : Expr} {i j : Instant}

theorem reads_constant {text : String} (room : depth < options.maxDepth) (read : parse text = .ok i) :
    Reads options depth memory (.constant (.str text)) i :=
  ⟨text, evalAt_constant room _ memory, read⟩

theorem find?_ticks : Registry.builtins.find? "ticks" =
    some ⟨"ticks", .number, .unaryString, strict (some .string) (unary ticks)⟩ := by
  rw [Registry.builtins_eq]
  rfl

theorem find?_difference : Registry.builtins.find? "dateDiffTicks" =
    some ⟨"dateDiffTicks", .number, .all [.binary, .ofType .string],
      strict (some .string) (binary difference)⟩ := by
  rw [Registry.builtins_eq]
  rfl

theorem evalAt_ticks (reads : Reads options (depth + 1) memory x i) :
    ∃ n : Int64, (call "ticks" [x]).evalAt .builtins options depth memory = .ok (.int n) ∧
      n.toInt = i.tickCount := by
  obtain ⟨text, value, parsed⟩ := reads
  obtain ⟨use, -, computed⟩ := evalAt_strict_unary find?_ticks (by rfl) ⟨value, Check.admits_some rfl⟩
  obtain ⟨n, counted, exact⟩ := timestampTicks_of_timestamp (timestamp_parsed use parsed)
  refine ⟨n, ?_, exact⟩
  rw [computed, ticks, counted]
  rfl

theorem evalAt_difference (later : Reads options (depth + 1) memory x i)
    (earlier : Reads options (depth + 1) memory y j) :
    ∃ n : Int64, (call "dateDiffTicks" [x, y]).evalAt .builtins options depth memory = .ok (.int n) ∧
      n.toInt = i.tickCount - j.tickCount := by
  obtain ⟨a, left, parsed⟩ := later
  obtain ⟨b, right, parsed'⟩ := earlier
  obtain ⟨use, computed⟩ := evalAt_strict_binary find?_difference (by rfl)
    ⟨left, Check.admits_some rfl⟩ ⟨right, Check.admits_some rfl⟩
  obtain ⟨n, value, exact⟩ := difference_of_timestamps (timestamp_parsed use parsed)
    (timestamp_parsed use parsed')
  refine ⟨n, ?_, exact⟩
  rw [computed, value]
  rfl

/-- A strict function whose computation is never refused for the size of a count only passes such a refusal
on. -/
theorem tickRange_of_strict {name : String} {function : Function} {check : Option Check} {compute : Compute}
    (found : Registry.builtins.find? name = some function) (logic : function.logic = strict check compute)
    (inRange : ∀ call values, InTickRange (compute call values)) {args : List Expr} {error : EvalError}
    (failed : (call name args).evalAt .builtins options depth memory = .error error) :
    (∃ arg ∈ args, ∃ scope, arg.evalAt .builtins options (depth + 1) scope = .error error) ∨
      ¬ error.TickRange := by
  rw [evalAt_eq] at failed
  rcases Nat.lt_or_ge depth options.maxDepth with room | limit
  · have known : Registry.builtins.find? (call name args).name = some function := found
    rw [Registry.enter_known room known, logic] at failed
    have ends : (strict check compute ⟨call name args, options, depth + 1, Registry.builtins.size⟩).Ends
        memory InTickRange := by
      apply ends_strict
      · rintro e demand - fault ⟨⟩
        exact id
      · intro values _
        exact inRange _ values
    rcases ends.run failed with ⟨arg, member, bindings, below⟩ | ⟨fault, rfl, never⟩
    · exact .inl ⟨arg, member, _, below⟩
    · exact .inr (never fault rfl)
  · rw [Registry.enter_at_limit limit] at failed
    cases failed
    exact .inr id

theorem tickRange_of_count {name : String} (counts : name ∈ ["ticks", "dateDiffTicks"]) {args : List Expr}
    {error : EvalError} (failed : (call name args).evalAt .builtins options depth memory = .error error) :
    (∃ arg ∈ args, ∃ scope, arg.evalAt .builtins options (depth + 1) scope = .error error) ∨
      ¬ error.TickRange := by
  have shape {call : Call} {complaint : Complaint} (size : ∃ n m, complaint = .argumentCount n m) :
      InTickRange (.error (call.fault complaint) : Except Fault Value) := by
    obtain ⟨n, m, rfl⟩ := size
    rintro _ ⟨⟩
    exact id
  rcases List.mem_cons.1 counts with rfl | counts
  · apply tickRange_of_strict find?_ticks (by rfl) _ failed
    intro call values
    match values with
    | [v] => exact inTickRange_ticks v
    | [] | _ :: _ :: _ => exact shape ⟨_, _, rfl⟩
  · obtain rfl := List.mem_singleton.1 counts
    apply tickRange_of_strict find?_difference (by rfl) _ failed
    intro call values
    match values with
    | [v, w] => exact inTickRange_difference v w
    | [] | [_] | _ :: _ :: _ :: _ => exact shape ⟨_, _, rfl⟩

end Calls

/-- Tick arithmetic on timestamps is total and exact. Every instant that a text denotes has a count, no
step on the way to it overflows, and it is not negative; the difference of two timestamps is that of
their counts, changes its sign with their order, and differences along the way add up. Neither function
is refused for the size of a count, unless an argument of it was. -/
theorem tick_arithmetic :
    (∀ text i, parse text = .ok i →
      Integer.Fits (i.unixSeconds * ticksPerSecond) ∧
      Integer.Fits (i.unixSeconds * ticksPerSecond + unixEpochTicks) ∧
      ∃ n : Int64, i.ticks = .ok n ∧ n.toInt = i.tickCount ∧ 0 ≤ n.toInt) ∧
    (∀ options depth memory x y z i j k, Reads options (depth + 1) memory x i →
      Reads options (depth + 1) memory y j → Reads options (depth + 1) memory z k →
        ∃ m n xy yx yz xz : Int64,
          (call "ticks" [x]).evalAt .builtins options depth memory = .ok (.int m) ∧
          (call "ticks" [y]).evalAt .builtins options depth memory = .ok (.int n) ∧
          (call "dateDiffTicks" [x, y]).evalAt .builtins options depth memory = .ok (.int xy) ∧
          (call "dateDiffTicks" [y, x]).evalAt .builtins options depth memory = .ok (.int yx) ∧
          (call "dateDiffTicks" [y, z]).evalAt .builtins options depth memory = .ok (.int yz) ∧
          (call "dateDiffTicks" [x, z]).evalAt .builtins options depth memory = .ok (.int xz) ∧
          m.toInt = i.tickCount ∧ n.toInt = j.tickCount ∧ xy.toInt = m.toInt - n.toInt ∧
          yx.toInt = -xy.toInt ∧ xz.toInt = xy.toInt + yz.toInt) ∧
    (∀ name ∈ ["ticks", "dateDiffTicks"], ∀ args options depth memory error,
      (call name args).evalAt .builtins options depth memory = .error error →
        (∃ arg ∈ args, ∃ scope, arg.evalAt .builtins options (depth + 1) scope = .error error) ∨
          ¬ error.TickRange) := by
  refine ⟨?_, ?_, ?_⟩
  · intro text i read
    have supported := Calendar.inRange_of_parse read
    obtain ⟨first, second, -⟩ := Instant.steps_fit supported
    obtain ⟨n, counted, exact⟩ := Instant.ticks_ok supported
    have natural := (Instant.tickCount_bounds supported).1
    exact ⟨first, second, n, counted, exact, exact ▸ natural⟩
  · intro options depth memory x y z i j k first second third
    obtain ⟨m, counted, left⟩ := evalAt_ticks first
    obtain ⟨n, counted', right⟩ := evalAt_ticks second
    obtain ⟨xy, forth, here⟩ := evalAt_difference first second
    obtain ⟨yx, back, there⟩ := evalAt_difference second first
    obtain ⟨yz, further, rest⟩ := evalAt_difference second third
    obtain ⟨xz, whole, total⟩ := evalAt_difference first third
    exact ⟨m, n, xy, yx, yz, xz, counted, counted', forth, back, further, whole, left, right, by omega,
      by omega, by omega⟩
  · intro name counts args options depth memory error failed
    exact tickRange_of_count counts failed

def firstStamp : Expr := .constant (.str "0001-01-01T23:59:00+23:59")

/-- `9999-12-31T23:59:60.9999999Z`, which ends with a leap second. -/
def lastStamp : Expr := .constant (.str "9999-12-31T23:59:60.9999999Z")

/-- From the first instant to the last one that has a count, and a text that is no timestamp. -/
theorem tick_arithmetic_edges :
    (call "ticks" [firstStamp]).eval .builtins {} .empty = .ok (.int 0) ∧
    (call "ticks" [lastStamp]).eval .builtins {} .empty = .ok (.int 3155378976009999999) ∧
    (call "dateDiffTicks" [firstStamp, lastStamp]).eval .builtins {} .empty =
      .ok (.int (-3155378976009999999)) ∧
    ∃ error, (call "ticks" [.constant (.str "today")]).eval .builtins {} .empty = .error error ∧
      ¬ error.TickRange := by
  obtain ⟨counts, differences, refusals⟩ := tick_arithmetic
  have first : Reads {} 1 .empty firstStamp ⟨0, 0, 0, by decide, by decide, by decide⟩ :=
    reads_constant (by decide) (Calendar.parse_of_toOption (by decide +kernel))
  have last : Reads {} 1 .empty lastStamp ⟨3652058, 86399, 1999999900, by decide, by decide, by decide⟩ :=
    reads_constant (by decide) (Calendar.parse_of_toOption (by decide +kernel))
  obtain ⟨m, n, d, _, _, _, least, greatest, span, _, _, _, low, high, between, _, _⟩ :=
    differences {} 0 .empty _ _ _ _ _ _ first last last
  obtain rfl : m = 0 := Int64.toInt_inj.1 (low.trans (by decide))
  obtain rfl : n = 3155378976009999999 := Int64.toInt_inj.1 (high.trans (by decide))
  obtain rfl : d = -3155378976009999999 := Int64.toInt_inj.1 (between.trans (by decide))
  refine ⟨least, greatest, span, ?_⟩
  have refused : ((call "ticks" [.constant (.str "today")]).eval .builtins {} .empty).toOption.isNone = true := by
    rw [Registry.builtins_eq]
    decide +kernel
  cases ended : (call "ticks" [.constant (.str "today")]).eval .builtins {} .empty with
  | ok v => simp [ended, Except.toOption] at refused
  | error error =>
    refine ⟨error, rfl, (refusals "ticks" (by simp) _ _ _ _ _ ended).resolve_left ?_⟩
    rintro ⟨arg, member, scope, failed⟩
    obtain rfl := List.mem_singleton.1 member
    rw [evalAt_constant (by decide)] at failed
    cases failed

/-- The counts of timestamps keep their order, except where a leap second overtakes the second that
follows it; there, and only there, the later timestamp has fewer ticks and the difference is negative. And
texts that show different clocks have the same count if the clocks are ahead of Universal Time by as much
as they differ. -/
theorem ticks_ordered_iff {options : Options} {depth : Nat} {memory : Memory} {x : Expr} {i : Instant}
    (reads : Reads options (depth + 1) memory x i) :
    (∀ y j, Reads options (depth + 1) memory y j → i ≤ j →
      ∃ m n d : Int64,
        (call "ticks" [x]).evalAt .builtins options depth memory = .ok (.int m) ∧
        (call "ticks" [y]).evalAt .builtins options depth memory = .ok (.int n) ∧
        (call "dateDiffTicks" [y, x]).evalAt .builtins options depth memory = .ok (.int d) ∧
        (m.toInt ≤ n.toInt ↔ ¬ i.Overtakes j) ∧ (0 ≤ d.toInt ↔ ¬ i.Overtakes j)) ∧
    (∀ y a b p q ahead beyond, x.evalAt .builtins options (depth + 1) memory = .ok (.str a) →
      y.evalAt .builtins options (depth + 1) memory = .ok (.str b) →
      reading? a = some (p, ahead) → reading? b = some (q, beyond) →
      q.seconds - p.seconds = 60 * (beyond - ahead) → q.nano = p.nano →
        ∃ n : Int64, (call "ticks" [x]).evalAt .builtins options depth memory = .ok (.int n) ∧
          (call "ticks" [y]).evalAt .builtins options depth memory = .ok (.int n) ∧
          n.toInt = p.tickCount - ahead * ticksPerMinute) := by
  obtain ⟨m, counted, left⟩ := evalAt_ticks reads
  constructor
  · intro y j second le
    obtain ⟨n, counted', right⟩ := evalAt_ticks second
    obtain ⟨d, between, difference⟩ := evalAt_difference second reads
    have order := Instant.tickCount_le_iff le
    refine ⟨m, n, d, counted, counted', between, ?_, ?_⟩ <;> rw [← order] <;> omega
  · intro y a b p q ahead beyond value value' shown shown' apart nano
    obtain ⟨text, same, read⟩ := reads
    obtain rfl : text = a := by simpa using same.symm.trans value
    obtain ⟨clock, minutes, own, rfl⟩ := Calendar.reading_of_parse read
    obtain ⟨rfl, rfl⟩ : p = clock ∧ ahead = minutes := by simpa using shown.symm.trans own
    have together : q.behind beyond = p.behind ahead := by
      refine Instant.ext_seconds ?_ nano
      rw [Instant.seconds_behind, Instant.seconds_behind]
      omega
    have read' : parse b = .ok (p.behind ahead) := by
      have supported := Calendar.inRange_of_parse read
      rw [← together] at supported ⊢
      exact Calendar.parse_of_reading shown' supported
    obtain ⟨n, counted', right⟩ := evalAt_ticks ⟨b, value', read'⟩
    obtain rfl : n = m := Int64.toInt_inj.1 (right.trans left.symm)
    exact ⟨n, counted, counted', left.trans (Instant.tickCount_behind p ahead)⟩

/-- The last tenth of a second of 2016 before its leap second, in New York and in Universal Time. -/
theorem ticks_ordered_iff_offsets :
    let eve : Expr := .constant (.str "2016-12-31T18:59:59.9-05:00")
    let same : Expr := .constant (.str "2016-12-31T23:59:59.9Z")
    let leap : Expr := .constant (.str "2016-12-31T23:59:60.5Z")
    ∃ m n d : Int64, (call "ticks" [eve]).eval .builtins {} .empty = .ok (.int m) ∧
      (call "ticks" [same]).eval .builtins {} .empty = .ok (.int m) ∧
      (call "ticks" [leap]).eval .builtins {} .empty = .ok (.int n) ∧
      (call "dateDiffTicks" [leap, eve]).eval .builtins {} .empty = .ok (.int d) ∧
      m.toInt ≤ n.toInt ∧ 0 ≤ d.toInt := by
  intro eve same leap
  let i : Instant := ⟨736328, 86399, 900000000, by decide, by decide, by decide⟩
  let j : Instant := ⟨736328, 86399, 1500000000, by decide, by decide, by decide⟩
  have early : parse "2016-12-31T18:59:59.9-05:00" = .ok i := Calendar.parse_of_toOption (by decide +kernel)
  have late : parse "2016-12-31T23:59:60.5Z" = .ok j := Calendar.parse_of_toOption (by decide +kernel)
  have value (v : Value) : (constant v).evalAt .builtins {} (0 + 1) .empty = .ok v :=
    evalAt_constant (by decide) v _
  have before : i ≤ j := .inr ⟨rfl, .inr ⟨rfl, by decide⟩⟩
  have apart : ¬ i.Overtakes j := fun overtakes => absurd overtakes.1 (by decide)
  have reads : Reads {} (0 + 1) .empty eve i := ⟨_, value _, early⟩
  obtain ⟨ordered, offsets⟩ := ticks_ordered_iff reads
  obtain ⟨m, n, d, first, second, between, keeps, natural⟩ := ordered leap j ⟨_, value _, late⟩ before
  obtain ⟨m', first', again, -⟩ := offsets same _ _
    ⟨736328, 68399, 900000000, by decide, by decide, by decide⟩ i (-300) 0 (value _) (value _)
    (by decide +kernel) (by decide +kernel) (by decide) rfl
  obtain rfl : m' = m := by simpa using first'.symm.trans first
  exact ⟨m', n, d, first, again, second, between, keeps.2 apart, natural.2 apart⟩

/-- Half a second before 2017, in the leap second, more ticks are counted than at the start of 2017. -/
theorem leap_second_overtakes :
    ∃ i j, parse "2016-12-31T23:59:60.5Z" = .ok i ∧ parse "2017-01-01T00:00:00Z" = .ok j ∧ i ≤ j ∧
      j.tickCount < i.tickCount ∧
      (call "dateDiffTicks" [.constant (.str "2017-01-01T00:00:00Z"),
        .constant (.str "2016-12-31T23:59:60.5Z")]).eval .builtins {} .empty = .ok (.int (-5000000)) := by
  let i : Instant := ⟨736328, 86399, 1500000000, by decide, by decide, by decide⟩
  let j : Instant := ⟨736329, 0, 0, by decide, by decide, by decide⟩
  have leap : parse "2016-12-31T23:59:60.5Z" = .ok i := Calendar.parse_of_toOption (by decide +kernel)
  have next : parse "2017-01-01T00:00:00Z" = .ok j := Calendar.parse_of_toOption (by decide +kernel)
  have late : Reads {} 1 .empty (.constant (.str "2017-01-01T00:00:00Z")) j := reads_constant (by decide) next
  have early : Reads {} 1 .empty (.constant (.str "2016-12-31T23:59:60.5Z")) i := reads_constant (by decide) leap
  obtain ⟨d, between, difference⟩ := evalAt_difference late early
  obtain rfl : d = -5000000 := Int64.toInt_inj.1 (difference.trans (by decide))
  exact ⟨i, j, leap, next, .inl (by decide), by decide, between⟩

end Expr

end Formula
