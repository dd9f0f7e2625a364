import Formula.Proofs.Levels
import Formula.Proofs.StrictCalls

/-! Substrings are exact slices by characters. A call with bounds comes to the characters between them
exactly when the bounds lie in the text; a text is made up of its slices, and a slice of a slice is a slice
of the text. -/
namespace Formula

namespace Text

/-- The characters of a text from `start` on, `length` of them as far as there are so many. -/
def part (s : String) (start length : Nat) : String := String.ofList ((s.toList.drop start).take length)

variable {s : String} {start length : Nat}

theorem length_part (inside : start + length ≤ s.length) : (part s start length).length = length := by
  rw [part, String.length_ofList, List.length_take, List.length_drop, String.length_toList]
  omega

theorem part_append :
    part s 0 start ++ part s start length ++ part s (start + length) (s.length - (start + length)) = s := by
  have rest : (s.toList.drop (start + length)).take (s.length - (start + length)) =
      s.toList.drop (start + length) :=
    List.take_of_length_le (Nat.le_of_eq (by rw [List.length_drop, String.length_toList]))
  apply String.toList_inj.1
  simp only [part, String.toList_append, String.toList_ofList, List.drop_zero, rest, List.append_assoc]
  rw [← List.drop_drop, List.take_append_drop, List.take_append_drop]

theorem part_part {further count : Nat} (inside : further + count ≤ length) :
    part (part s start length) further count = part s (start + further) count := by
  simp only [part, String.toList_ofList, List.drop_take, List.drop_drop, List.take_take]
  rw [Nat.min_eq_left (by omega)]

end Text

namespace Builtins

open Text

variable {call : Call} {s : String} {i k : Int64} {v : Value}

theorem textBound_int (i : Int64) : textBound call (.int i) =
    if 0 ≤ i.toInt then .ok i.toInt.toNat else .error (call.fault .textBounds) := by
  by_cases natural : 0 ≤ i.toInt <;> simp [textBound, Value.toInt, Integer.toNat?, natural]

theorem cut_ok_iff {start length : Nat} : cut call s.toList start length = .ok v ↔
    Integer.sizeSum start length ≤ s.length ∧ v = .str (part s start length) := by
  rw [cut, String.length_toList]
  split
  · simp
    omega
  · simp [part, eq_comm]
    omega

/-- Two bounds of 64 bits have a sum that is a size, so the greatest size never stands in for it. -/
theorem slice_ok_iff : slice call (.str s) (.int i) (some (.int k)) = .ok v ↔
    ∃ start length : Nat, i.toInt = start ∧ k.toInt = length ∧ start + length ≤ s.length ∧
      v = .str (part s start length) := by
  have first := i.toInt_lt
  have second := k.toInt_lt
  by_cases start : 0 ≤ i.toInt
  · by_cases length : 0 ≤ k.toInt
    · have size : Integer.sizeSum i.toInt.toNat k.toInt.toNat = i.toInt.toNat + k.toInt.toNat := by
        simp only [Integer.sizeSum]
        omega
      simp only [slice, textOf, textBound_int, start, length, bind, Except.bind, if_true, cut_ok_iff, size]
      constructor
      · rintro ⟨inside, value⟩
        exact ⟨_, _, by omega, by omega, inside, value⟩
      · rintro ⟨first, count, hi, hk, inside, value⟩
        simp only [hi, hk, Int.toNat_natCast]
        exact ⟨inside, value⟩
    · simp only [slice, textOf, textBound_int, start, length, bind, Except.bind, if_true, if_false]
      constructor
      · rintro ⟨⟩
      · rintro ⟨_, _, -, natural, -⟩
        omega
  · simp only [slice, textOf, textBound_int, start, bind, Except.bind, if_false]
    constructor
    · rintro ⟨⟩
    · rintro ⟨_, _, natural, -⟩
      omega

/-- What is left of a text from a bound on may be longer than the greatest size, but the bound is not. -/
theorem slice_rest_ok_iff : slice call (.str s) (.int i) none = .ok v ↔
    ∃ start : Nat, i.toInt = start ∧ start ≤ s.length ∧ v = .str (part s start (s.length - start)) := by
  have bound := i.toInt_lt
  by_cases start : 0 ≤ i.toInt
  · have size : Integer.sizeSum i.toInt.toNat (s.length - i.toInt.toNat) ≤ s.length ↔
        i.toInt.toNat ≤ s.length := by
      simp only [Integer.sizeSum]
      omega
    simp only [slice, textOf, textBound_int, start, bind, Except.bind, if_true, String.length_toList,
      cut_ok_iff, size]
    constructor
    · rintro ⟨inside, value⟩
      exact ⟨_, by omega, inside, value⟩
    · rintro ⟨first, hi, inside, value⟩
      simp only [hi, Int.toNat_natCast]
      exact ⟨inside, value⟩
  · simp only [slice, textOf, textBound_int, start, bind, Except.bind, if_false]
    constructor
    · rintro ⟨⟩
    · rintro ⟨_, natural, -⟩
      omega

theorem concat_texts (first : String) (rest : List String) :
    concat ((first :: rest).map .str) = .str (String.join (first :: rest)) := by
  have pieces : ((first :: rest).map Value.str).map piece = first :: rest := by
    rw [List.map_map]
    exact List.map_id'' (fun text => rfl) _
  rw [concat, if_neg (by simp [Value.asArray?]), pieces]

end Builtins

namespace Expr

open Builtins Text

variable {options : Options} {depth : Nat} {memory : Memory} {x a b : Expr} {s : String} {i k : Int} {v : Value}

/-- The expression comes to an integer at this level. -/
def Gives (options : Options) (level : Nat) (memory : Memory) (e : Expr) (n : Int) : Prop :=
  ∃ word : Int64, word.toInt = n ∧ e.evalAt .builtins options level memory = .ok (.int word)

theorem Gives.nearer {level : Nat} (higher : level ≤ depth) (gives : Gives options depth memory a i) :
    Gives options level memory a i := by
  obtain ⟨word, exact, value⟩ := gives
  exact ⟨word, exact, evalAt_nearer higher value⟩

theorem find?_substring : Registry.builtins.find? "substring" = some ⟨"substring", .string,
    .all [.arity 2 (some 3), .positional [.string, .number]], strict none substring⟩ := by
  rw [Registry.builtins_eq]
  rfl

theorem find?_concat : Registry.builtins.find? "concat" = some ⟨"concat", .string ∪ .array, .atLeast 1,
    strict none fun _ args => .ok (concat args)⟩ := by
  rw [Registry.builtins_eq]
  rfl

theorem find?_length : Registry.builtins.find? "length" = some ⟨"length", .number,
    .all [.unary, .ofType (.string ∪ .array)], strict none (unary length)⟩ := by
  rw [Registry.builtins_eq]
  rfl

theorem evalAt_substring_iff (text : x.evalAt .builtins options (depth + 1) memory = .ok (.str s))
    (first : Gives options (depth + 1) memory a i) (count : Gives options (depth + 1) memory b k) :
    (call "substring" [x, a, b]).evalAt .builtins options depth memory = .ok v ↔
      ∃ start length : Nat, i = start ∧ k = length ∧ start + length ≤ s.length ∧
        v = .str (part s start length) := by
  obtain ⟨one, rfl, first⟩ := first
  obtain ⟨two, rfl, count⟩ := count
  rw [evalAt_strict find?_substring rfl (by simp) (.cons ⟨text, Check.admits_none _⟩
    (.cons ⟨first, Check.admits_none _⟩ (.cons ⟨count, Check.admits_none _⟩ .nil))), substring,
    mapError_ok_iff, slice_ok_iff]

theorem evalAt_substring_rest_iff (text : x.evalAt .builtins options (depth + 1) memory = .ok (.str s))
    (first : Gives options (depth + 1) memory a i) :
    (call "substring" [x, a]).evalAt .builtins options depth memory = .ok v ↔
      ∃ start : Nat, i = start ∧ start ≤ s.length ∧ v = .str (part s start (s.length - start)) := by
  obtain ⟨one, rfl, first⟩ := first
  rw [evalAt_strict find?_substring rfl (by simp) (.cons ⟨text, Check.admits_none _⟩
    (.cons ⟨first, Check.admits_none _⟩ .nil)), substring, mapError_ok_iff, slice_rest_ok_iff]

theorem evalAt_concat {args : List Expr} {first : String} {rest : List String}
    (values : List.Forall₂ (fun arg text => arg.evalAt .builtins options (depth + 1) memory = .ok (.str text))
      args (first :: rest)) :
    (call "concat" args).evalAt .builtins options depth memory = .ok (.str (String.join (first :: rest))) := by
  have gathered : Gathered none (fun arg scope => arg.evalAt .builtins options (depth + 1) scope) memory args
      ((first :: rest).map .str) :=
    List.forall₂_map_right_iff.2 (values.imp fun arg text value => ⟨value, Check.admits_none _⟩)
  rw [evalAt_strict find?_concat rfl (by simp) gathered, concat_texts]
  rfl

theorem gives_length (text : x.evalAt .builtins options (depth + 1) memory = .ok (.str s))
    (fits : Integer.Fits s.length) : Gives options depth memory (call "length" [x]) s.length := by
  obtain ⟨use, -, counted⟩ := evalAt_strict_unary find?_length (by rfl) ⟨text, Check.admits_none _⟩
  exact ⟨_, Int64.toInt_ofInt_of_le fits.1 fits.2, counted⟩

theorem ok_of_substring {args : List Expr}
    (value : (call "substring" (x :: args)).evalAt .builtins options depth memory = .ok v) :
    ∃ w, x.evalAt .builtins options (depth + 1) memory = .ok w := by
  obtain ⟨-, values, gathered, -⟩ := (evalAt_strict_iff find?_substring rfl).1 value
  obtain ⟨w, _, first, -⟩ := List.forall₂_cons_left_iff.1 gathered
  exact ⟨w, first.1⟩

/-- Substrings are exact slices by characters. Over an argument that comes to a text and bounds that come
to integers, a substring is there exactly when the bounds lie in the text, and has as many characters as
asked for; what lies before it, itself and what lies behind it are put together to the text again. Without a
length it reaches to the end, where the number of characters tells the length. A substring of a substring
is the substring with the sum of both starts. -/
theorem substring_exact (text : x.evalAt .builtins options (depth + 2) memory = .ok (.str s)) :
    (∀ a b i k, Gives options (depth + 2) memory a i → Gives options (depth + 2) memory b k →
      ((∃ v, (call "substring" [x, a, b]).evalAt .builtins options depth memory = .ok v) ↔
        0 ≤ i ∧ 0 ≤ k ∧ i + k ≤ s.length) ∧
      ∀ v, (call "substring" [x, a, b]).evalAt .builtins options depth memory = .ok v →
        (∃ t : String, v = .str t ∧ (t.length : Int) = k) ∧
        ∀ zero stop, Gives options (depth + 2) memory zero 0 → Gives options (depth + 2) memory stop (i + k) →
          (call "concat" [call "substring" [x, zero, a], call "substring" [x, a, b],
            call "substring" [x, stop]]).evalAt .builtins options depth memory = .ok (.str s)) ∧
    (∀ a i, Gives options (depth + 2) memory a i →
      ((∃ v, (call "substring" [x, a]).evalAt .builtins options depth memory = .ok v) ↔
        0 ≤ i ∧ i ≤ s.length) ∧
      ∀ b, Gives options (depth + 2) memory b (s.length - i) → ∀ v,
        (call "substring" [x, a]).evalAt .builtins options depth memory = .ok v ↔
          (call "substring" [x, a, b]).evalAt .builtins options depth memory = .ok v) ∧
    (Integer.Fits s.length → Gives options depth memory (call "length" [x]) s.length) ∧
    ∀ a b c d e i k j l, Gives options (depth + 2) memory a i → Gives options (depth + 2) memory b k →
      Gives options (depth + 2) memory c j → Gives options (depth + 2) memory d l →
      Gives options (depth + 2) memory e (i + j) → ∀ v,
        (call "substring" [call "substring" [x, a, b], c, d]).evalAt .builtins options depth memory = .ok v →
          (call "substring" [x, e, d]).evalAt .builtins options depth memory = .ok v := by
  have near := evalAt_nearer (Nat.le_succ (depth + 1)) text
  refine ⟨?_, ?_, gives_length near, ?_⟩
  · intro a b i k lower count
    simp only [evalAt_substring_iff near (lower.nearer (Nat.le_succ _)) (count.nearer (Nat.le_succ _))]
    constructor
    · constructor
      · rintro ⟨_, start, length, rfl, rfl, inside, -⟩
        omega
      · rintro ⟨hi, hk, inside⟩
        exact ⟨_, i.toNat, k.toNat, by omega, by omega, by omega, rfl⟩
    · rintro _ ⟨start, length, rfl, rfl, inside, rfl⟩
      refine ⟨⟨_, rfl, congrArg _ (length_part inside)⟩, ?_⟩
      intro zero stop none upper
      have before := (evalAt_substring_iff text none lower).2 ⟨0, start, rfl, rfl, by omega, rfl⟩
      have between := (evalAt_substring_iff text lower count).2 ⟨start, length, rfl, rfl, inside, rfl⟩
      have behind := (evalAt_substring_rest_iff text upper).2 ⟨start + length, by simp, inside, rfl⟩
      rw [evalAt_concat (.cons before (.cons between (.cons behind .nil)))]
      simp [String.join, part_append]
  · intro a i lower
    simp only [evalAt_substring_rest_iff near (lower.nearer (Nat.le_succ _))]
    constructor
    · constructor
      · rintro ⟨_, start, rfl, inside, -⟩
        omega
      · rintro ⟨hi, inside⟩
        exact ⟨_, i.toNat, by omega, by omega, rfl⟩
    · intro b count v
      rw [evalAt_substring_iff near (lower.nearer (Nat.le_succ _)) (count.nearer (Nat.le_succ _))]
      constructor
      · rintro ⟨start, rfl, inside, value⟩
        exact ⟨start, s.length - start, rfl, by omega, by omega, value⟩
      · rintro ⟨start, length, rfl, rest, inside, value⟩
        obtain rfl : length = s.length - start := by omega
        exact ⟨start, rfl, by omega, value⟩
  · intro a b c d e i k j l lower count further few sum v value
    obtain ⟨w, inner⟩ := ok_of_substring value
    obtain ⟨start, length, rfl, rfl, inside, rfl⟩ := (evalAt_substring_iff text lower count).1 inner
    obtain ⟨more, size, rfl, rfl, within, rfl⟩ := (evalAt_substring_iff inner
      (further.nearer (Nat.le_succ _)) (few.nearer (Nat.le_succ _))).1 value
    rw [length_part inside] at within
    rw [part_part within]
    exact (evalAt_substring_iff near (sum.nearer (Nat.le_succ _)) (few.nearer (Nat.le_succ _))).2
      ⟨start + more, size, by simp, rfl, by omega, rfl⟩

/-- Four characters of one, two, four and one bytes; the empty slice at the end; bounds whose sum is beyond
the 64-bit integers; and the third character, taken from the last three. -/
theorem substring_exact_scalars :
    let x : Expr := .constant (.str "né𝄞z")
    let int (n : Int64) : Expr := .constant (.int n)
    let substring (args : List Expr) : Outcome := (call "substring" args).eval .builtins {} .empty
    (call "concat" [call "substring" [x, int 0, int 1], call "substring" [x, int 1, int 2],
      call "substring" [x, int 3]]).eval .builtins {} .empty = .ok (.str "né𝄞z") ∧
    (∃ v, substring [x, int 4] = .ok v) ∧ (¬ ∃ v, substring [x, int 5] = .ok v) ∧
    (¬ ∃ v, substring [x, int Int64.maxValue, int Int64.maxValue] = .ok v) ∧
    Gives {} 0 .empty (call "length" [x]) 4 ∧ substring [x, int 2, int 1] = .ok (.str "𝄞") := by
  intro x int substring
  have gives (n : Int64) : Gives {} (0 + 2) .empty (int n) n.toInt := ⟨n, rfl, evalAt_constant (by decide) _ _⟩
  have size : "né𝄞z".length = 4 := by decide +kernel
  obtain ⟨slices, ends, counted, nested⟩ :=
    substring_exact (evalAt_constant (by decide) (.str "né𝄞z") .empty : x.evalAt .builtins {} (0 + 2) .empty = _)
  simp only [size] at slices ends counted
  have inside := slices (int 1) (int 2) 1 2 (gives 1) (gives 2)
  obtain ⟨v, there⟩ := inside.1.2 (by decide)
  have last : substring [call "substring" [x, int 1, int 3], int 1, int 1] = .ok (.str "𝄞") :=
    Outcome.eq_str (by simp only [substring, Registry.builtins_eq]; decide +kernel)
  have beyond := (slices _ _ _ _ (gives Int64.maxValue) (gives Int64.maxValue)).1
  exact ⟨(inside.2 v there).2 _ _ (gives 0) (gives 3), (ends _ 4 (gives 4)).1.2 (by decide),
    fun there => absurd ((ends _ 5 (gives 5)).1.1 there) (by decide),
    fun there => absurd (beyond.1 there) (by decide), counted (by decide),
    nested _ _ _ _ (int 2) 1 3 1 1 (gives 1) (gives 3) (gives 1) (gives 1) (gives 2) _ last⟩

end Expr

end Formula
