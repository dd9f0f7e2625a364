import Formula.Proofs.Environment

/-! Cultures. A culture tag is known to a run by its decimal mark alone, and only where a tree reads or writes
a numeral on purpose: texts that are joined, added or reported have the same numbers in every culture. -/
namespace Formula

theorem Culture.decimalMark_eq_iff {first second : Option String} :
    decimalMark first = decimalMark second ↔ usesComma first = usesComma second := by
  unfold decimalMark
  cases usesComma first <;> cases usesComma second <;> decide

namespace Options

variable {options : Options} {first second : Option String}

theorem indistinct_of_mark (same : Culture.decimalMark first = Culture.decimalMark second) (node : Expr) :
    Indistinct { options with locale := first } { options with locale := second } node := by
  intro function standard _ depth known
  have alike : Call.Alike ⟨node, { options with locale := first }, depth, known⟩
      ⟨node, { options with locale := second }, depth, known⟩ :=
    ⟨rfl, Culture.decimalMark_eq_iff.1 same, fun _ _ => rfl⟩
  exact alike.standard function standard

theorem indistinct_of_plain {node : Expr} (plain : node.name ∉ Builtins.localized) :
    Indistinct { options with locale := first } { options with locale := second } node := by
  intro function standard named depth known
  have close : Call.Close ⟨node, { options with locale := first }, depth, known⟩
      ⟨node, { options with locale := second }, depth, known⟩ := ⟨rfl, fun _ _ => rfl⟩
  exact close.standard function standard (named ▸ plain)

end Options

namespace Expr

/-- Two cultures with one decimal mark give one outcome, value or error, and a tree without `int`, `float`
and `string` has one outcome in all cultures. -/
theorem eval_cultures (e : Expr) (options : Options) (memory : Memory) (first second : Option String) :
    (Culture.decimalMark first = Culture.decimalMark second →
      e.eval .builtins { options with locale := first } memory =
        e.eval .builtins { options with locale := second } memory) ∧
    ((∀ node ∈ e.nodes, node.name ∉ Builtins.localized) →
      e.eval .builtins { options with locale := first } memory =
        e.eval .builtins { options with locale := second } memory) := by
  have memories : Memory.Alike e.paths memory memory := fun _ _ => .inl rfl
  constructor
  · intro same
    refine evalAt_indistinct ?_ memories (fun node _ => Options.indistinct_of_mark same node) 0
    rfl
  · intro plain
    refine evalAt_indistinct ?_ memories (fun node inside => Options.indistinct_of_plain (plain node inside)) 0
    rfl

/-- `string(1.5)` in two cultures with a comma, and `concat(1.5, x)` in one of them and in none. -/
theorem eval_cultures_comma :
    let written : Expr := .call "string" [.constant (.float 1.5)]
    let joined : Expr := .call "concat" [.constant (.float 1.5), accessor "x"]
    let memory : Memory := .document (.object [("x", .str " m")])
    Culture.decimalMark (some "de-DE") = Culture.decimalMark (some "FR_ca") ∧
      written.eval .builtins { locale := some "de-DE" } memory = .ok (.str "1,5") ∧
      written.eval .builtins { locale := some "FR_ca" } memory = .ok (.str "1,5") ∧
      (∀ node ∈ joined.nodes, node.name ∉ Builtins.localized) ∧
      joined.eval .builtins { locale := some "de-DE" } memory = .ok (.str "1.5 m") ∧
      joined.eval .builtins { locale := none } memory = .ok (.str "1.5 m") := by
  intro written joined memory
  have marks : Culture.decimalMark (some "de-DE") = Culture.decimalMark (some "FR_ca") := by decide +kernel
  have comma : written.eval .builtins { locale := some "de-DE" } memory = .ok (.str "1,5") :=
    Outcome.eq_str (by rw [Registry.builtins_eq]; decide +kernel)
  have plain : ∀ node ∈ joined.nodes, node.name ∉ Builtins.localized := by
    simp [joined, nodes, nodesAll, accessor, name, constantName, accessorName, Builtins.localized]
  have point : joined.eval .builtins { locale := some "de-DE" } memory = .ok (.str "1.5 m") :=
    Outcome.eq_str (by rw [Registry.builtins_eq]; decide +kernel)
  have same := (eval_cultures written {} memory (some "de-DE") (some "FR_ca")).1 marks
  have untouched := (eval_cultures joined {} memory (some "de-DE") none).2 plain
  exact ⟨marks, comma, same ▸ comma, plain, point, untouched ▸ point⟩

end Expr

end Formula
