import Formula.Builtins.All
import Formula.Expr.Basic

/-! What a standard function can see of its call. Of the settings it looks at nothing but the
decimal mark and the substitute of its own path; the depth limit, the depth and the number of known
functions are out of its sight. The decimal mark is in sight of the functions alone that read or write
numerals. -/
namespace Formula

open Builtins

/-- Two calls that no standard function tells apart. -/
structure Call.Alike (a b : Call) : Prop where
  node : a.node = b.node
  comma : Culture.usesComma a.options.locale = Culture.usesComma b.options.locale
  whenNull : ∀ path, a.node.path? = some path → a.options.whenNull path = b.options.whenNull path

/-- Two calls that are alike but for the culture. -/
structure Call.Close (a b : Call) : Prop where
  node : a.node = b.node
  whenNull : ∀ path, a.node.path? = some path → a.options.whenNull path = b.options.whenNull path

/-- The functions that read or write numerals in the culture of the call. -/
def Builtins.localized : List String := ["int", "float", "string"]

namespace Call.Close

variable {a b : Call} {fallback : Fallback}

theorem fault (close : a.Close b) : a.fault = b.fault := by
  funext complaint
  rw [Call.fault, Call.fault, close.node]

theorem converted {α : Type} (close : a.Close b) :
    (Formula.converted a : Except CastError α → _) = Formula.converted b := by
  funext result
  cases result with
  | ok value => rfl
  | error e => simp only [Formula.converted, close.fault]

theorem unary {compute : Call → Value → Except Fault Value} (close : a.Close b)
    (same : compute a = compute b) : Formula.unary compute a = Formula.unary compute b := by
  funext args
  match args with
  | [v] => simp only [Formula.unary, same]
  | [] | _ :: _ :: _ => simp only [Formula.unary, close.fault]

theorem binary {compute : Call → Value → Value → Except Fault Value} (close : a.Close b)
    (same : compute a = compute b) : Formula.binary compute a = Formula.binary compute b := by
  funext args
  match args with
  | [v, w] => simp only [Formula.binary, same]
  | [] | [_] | _ :: _ :: _ :: _ => simp only [Formula.binary, close.fault]

theorem ternary {compute : Call → Value → Value → Value → Except Fault Value} (close : a.Close b)
    (same : compute a = compute b) : Formula.ternary compute a = Formula.ternary compute b := by
  funext args
  match args with
  | [u, v, w] => simp only [Formula.ternary, same]
  | [] | [_] | [_, _] | _ :: _ :: _ :: _ :: _ => simp only [Formula.ternary, close.fault]

theorem folding {operation : Value → Value → Except Fault Value} (close : a.Close b) :
    Formula.folding operation a = Formula.folding operation b := by
  funext args
  cases args with
  | nil => simp only [Formula.folding, close.fault]
  | cons first rest => rfl

theorem strict {check : Option Check} {compute : Compute} (close : a.Close b)
    (same : compute a = compute b) : Formula.strict check compute a = Formula.strict check compute b := by
  rw [Formula.strict, Formula.strict, close.node, same]

theorem access (close : a.Close b) : ∀ f ∈ accessPackage, f.logic a = f.logic b := by
  simp only [accessPackage, List.forall_mem_cons, List.not_mem_nil, false_imp_iff, implies_true,
    and_true]
  refine ⟨?_, ?_, close.strict (close.binary ?_)⟩
  · simp only [Builtins.constant, close.node, close.fault]
  · simp only [Builtins.accessor, close.fault, ← close.node]
    cases read : a.node.path? with
    | none => rfl
    | some path => simp only [close.whenNull path read]
  · funext collection key
    simp only [element, close.fault, close.converted]

theorem arithmetic (close : a.Close b) : ∀ f ∈ arithmeticWith fallback, f.logic a = f.logic b := by
  have sums : sum fallback a = sum fallback b := by
    funext v
    simp only [sum, numbers, close.fault]
  have averages : average fallback a = average fallback b := by
    funext v
    simp only [average, numbers, sums, close.fault]
  have rounds : Builtins.round fallback a = Builtins.round fallback b := by
    funext args
    match args with
    | [v] => rfl
    | [v, places] => simp only [Builtins.round, close.fault]
    | [] | _ :: _ :: _ :: _ => simp only [Builtins.round, close.fault]
  simp only [arithmeticWith, List.forall_mem_cons, List.not_mem_nil, false_imp_iff, implies_true,
    and_true]
  exact ⟨close.strict close.folding, close.strict close.folding, close.strict close.folding,
    close.strict close.folding, close.strict (close.binary rfl), close.strict (close.binary rfl),
    close.strict rfl, close.strict rfl, close.strict (close.unary sums),
    close.strict (close.unary averages), close.strict (close.unary rfl),
    close.strict (close.unary rfl), close.strict (close.unary rfl), close.strict rounds⟩

theorem logic (close : a.Close b) : ∀ f ∈ logicPackage, f.logic a = f.logic b := by
  have compared (accepted : List Ordering) : ordered accepted a = ordered accepted b := by
    funext v w
    simp only [ordered, close.fault]
  have connected (stop : Bool) : connective stop a = connective stop b := by
    simp only [connective, close.node]
  simp only [logicPackage, comparison, List.forall_mem_cons, List.not_mem_nil, false_imp_iff,
    implies_true, and_true]
  refine ⟨close.strict (close.binary rfl), close.strict (close.binary rfl),
    close.strict (close.binary (compared _)), close.strict (close.binary (compared _)),
    close.strict (close.binary (compared _)), close.strict (close.binary (compared _)),
    connected _, connected _, close.strict (close.unary rfl), ?_, close.strict (close.unary rfl), ?_⟩
  · simp only [branch, close.node, close.fault]
  · simp only [coalesce, close.node]

theorem texts (close : a.Close b) : ∀ f ∈ textPackage, f.logic a = f.logic b := by
  have lengths : length a = length b := by
    funext v
    simp only [length, close.fault]
  have slices : slice a = slice b := by
    have strings : textOf a = textOf b := by
      funext v
      cases v <;> simp only [textOf, close.fault]
    have bounds : textBound a = textBound b := by
      funext v
      simp only [textBound, close.fault]
    funext s start length
    simp only [slice, cut, strings, bounds, close.fault]
  have substrings : substring a = substring b := by
    funext args
    match args with
    | [s, start] | [s, start, length] => simp only [substring, slices]
    | [] | [_] | _ :: _ :: _ :: _ :: _ => simp only [substring, close.fault]
  have replacements : replace a = replace b := by
    funext s part replacement
    simp only [replace, close.fault]
  simp only [textPackage, List.forall_mem_cons, List.not_mem_nil, false_imp_iff, implies_true,
    and_true]
  exact ⟨close.strict rfl, close.strict (close.unary lengths), close.strict (close.unary rfl),
    close.strict (close.unary rfl), close.strict (close.unary rfl), close.strict substrings,
    close.strict (close.binary rfl), close.strict (close.binary rfl),
    close.strict (close.ternary replacements)⟩

theorem ticksTo (close : a.Close b) (unit : Int) : Builtins.ticksTo unit a = Builtins.ticksTo unit b := by
  funext v
  simp only [Builtins.ticksTo, close.converted, close.fault]

theorem toBool (close : a.Close b) : Builtins.toBool a = Builtins.toBool b := by
  funext v
  simp only [Builtins.toBool, close.fault]

theorem conversion (close : a.Close b) :
    ∀ f ∈ conversionPackage, f.name ∉ localized → f.logic a = f.logic b := by
  simp only [conversionPackage, List.forall_mem_cons, List.not_mem_nil, false_imp_iff, implies_true,
    and_true]
  exact ⟨fun _ => close.strict (close.unary (close.ticksTo _)), fun _ => close.strict (close.unary (close.ticksTo _)),
    fun _ => close.strict (close.unary (close.ticksTo _)), fun plain => absurd (by decide) plain,
    fun plain => absurd (by decide) plain, fun plain => absurd (by decide) plain,
    fun _ => close.strict (close.unary close.toBool)⟩

theorem dates (close : a.Close b) : ∀ f ∈ datePackage, f.logic a = f.logic b := by
  have stamps : timestamp a = timestamp b := by
    funext v
    cases v <;> simp only [timestamp, close.converted, close.fault]
  have counts : timestampTicks a = timestampTicks b := by
    funext v
    simp only [timestampTicks, stamps, close.converted]
  have fields (get : Calendar.Instant → Int) : field get a = field get b := by
    funext v
    simp only [field, stamps]
  have shifts (perUnit : Float) : shift perUnit a = shift perUnit b := by
    funext v amount
    simp only [shift, stamps, close.fault]
  have tickCounts : ticks a = ticks b := by
    funext v
    simp only [ticks, counts]
  have differences : difference a = difference b := by
    funext later earlier
    simp only [difference, counts, close.fault]
  simp only [datePackage, calendarField, shifting, List.forall_mem_cons, List.not_mem_nil,
    false_imp_iff, implies_true, and_true]
  exact ⟨close.strict (close.unary tickCounts), close.strict (close.unary (fields _)),
    close.strict (close.unary (fields _)), close.strict (close.unary (fields _)),
    close.strict (close.binary (shifts _)), close.strict (close.binary (shifts _)),
    close.strict (close.binary differences)⟩

theorem collections (close : a.Close b) : ∀ f ∈ collectionPackage, f.logic a = f.logic b := by
  have counts : count a = count b := by
    funext v
    simp only [count, close.fault]
  have members : contains a = contains b := by
    funext collection needle
    simp only [contains, close.fault]
  have joins : join a = join b := by
    funext collection separator
    simp only [join, close.fault]
  have properties : property a = property b := by
    funext v name
    simp only [property, close.fault]
  have iterated (finish : List (Value × Value) → Value) : iteration finish a = iteration finish b := by
    have visited : items a = items b := by
      funext v
      cases v <;> simp only [items, close.fault]
    simp only [iteration, close.node, close.fault, visited]
  simp only [collectionPackage, List.forall_mem_cons, List.not_mem_nil, false_imp_iff,
    implies_true, and_true]
  exact ⟨close.strict rfl, close.strict (close.unary counts), close.strict (close.binary members),
    close.strict (close.unary rfl), close.strict (close.unary rfl),
    close.strict (close.binary joins), close.strict (close.binary properties),
    iterated _, iterated _⟩

theorem standard (close : a.Close b) : ∀ f ∈ allWith fallback, f.name ∉ localized → f.logic a = f.logic b := by
  simp only [allWith, List.forall_mem_append]
  exact ⟨⟨⟨⟨⟨⟨fun f member _ => close.access f member, fun f member _ => close.arithmetic f member⟩,
    fun f member _ => close.logic f member⟩, fun f member _ => close.texts f member⟩, close.conversion⟩,
    fun f member _ => close.dates f member⟩, fun f member _ => close.collections f member⟩

end Call.Close

namespace Call.Alike

variable {a b : Call} {fallback : Fallback}

theorem close (alike : a.Alike b) : a.Close b := ⟨alike.node, alike.whenNull⟩

theorem read? (alike : a.Alike b) :
    Culture.read? a.options.locale = Culture.read? b.options.locale := by
  funext text
  simp only [Culture.read?, Culture.normalize, alike.comma]

theorem write (alike : a.Alike b) :
    Culture.write a.options.locale = Culture.write b.options.locale := by
  funext x
  simp only [Culture.write, alike.comma]

theorem conversion (alike : a.Alike b) : ∀ f ∈ conversionPackage, f.logic a = f.logic b := by
  have numerals : numeral a = numeral b := by
    funext v
    cases v <;> simp only [numeral, Value.ofNumeral, alike.close.converted, alike.read?]
  have integers : Builtins.toInt a = Builtins.toInt b := by
    funext v
    simp only [Builtins.toInt, numerals, alike.close.converted, alike.close.fault]
  have floats : Builtins.toFloat a = Builtins.toFloat b := by
    funext v
    simp only [Builtins.toFloat, numerals, alike.close.fault]
  have strings : toText a = toText b := by
    funext v
    simp only [toText, alike.write]
  simp only [conversionPackage, List.forall_mem_cons, List.not_mem_nil, false_imp_iff,
    implies_true, and_true]
  exact ⟨alike.close.strict (alike.close.unary (alike.close.ticksTo _)),
    alike.close.strict (alike.close.unary (alike.close.ticksTo _)),
    alike.close.strict (alike.close.unary (alike.close.ticksTo _)),
    alike.close.strict (alike.close.unary integers), alike.close.strict (alike.close.unary floats),
    alike.close.strict (alike.close.unary strings), alike.close.strict (alike.close.unary alike.close.toBool)⟩

theorem standard (alike : a.Alike b) : ∀ f ∈ allWith fallback, f.logic a = f.logic b := by
  simp only [allWith, List.forall_mem_append]
  exact ⟨⟨⟨⟨⟨⟨alike.close.access, alike.close.arithmetic⟩, alike.close.logic⟩, alike.close.texts⟩,
    alike.conversion⟩, alike.close.dates⟩, alike.close.collections⟩

end Call.Alike

end Formula
