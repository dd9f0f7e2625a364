import Formula.Expr.Json
import Formula.Proofs.Checks
import Formula.Proofs.JsonValues
import Formula.Proofs.Tree

/-! Trees as documents. A tree stands at the root of a document and at every item among the arguments of
a call; decoding looks at these places in pre-order, stops at the first where no tree can stand, and at
nothing else. Every tree whose literals have a JSON form is the decoding of some document. -/
namespace Formula

namespace Fields

theorem get?_mem {α : Type} {key : String} {v : α} {fields : List (String × α)}
    (found : get? key fields = some v) : (key, v) ∈ fields := by
  induction fields with
  | nil => cases found
  | cons head rest ih =>
    simp only [get?] at found
    split at found
    · rename_i same
      rw [← Option.some.inj found, ← same]
      exact List.mem_cons_self
    · exact List.mem_cons_of_mem _ (ih found)

end Fields

namespace Json

def arguments : Json → List Json
  | .object members =>
    match Fields.get? "call" members, Fields.get? "args" members with
    | some (.str _), some (.array items) => items
    | _, _ => []
  | _ => []

theorem arguments_call {members : List (String × Json)} {name : String}
    (named : Fields.get? "call" members = some (.str name)) :
    (Json.object members).arguments = match Fields.get? "args" members with
      | some (.array items) => items
      | _ => [] := by
  simp only [arguments, named]
  cases Fields.get? "args" members with
  | none => rfl
  | some found => cases found <;> rfl

theorem arguments_leaf {members : List (String × Json)} (leaf : Fields.get? "call" members = none) :
    (Json.object members).arguments = [] := by
  simp only [arguments, leaf]

theorem sizeOf_argument {j item : Json} (member : item ∈ j.arguments) : sizeOf item < sizeOf j := by
  unfold arguments at member
  split at member
  · split at member
    · rename_i members items _ given
      have inside := List.sizeOf_lt_of_mem (Fields.get?_mem given)
      have below := List.sizeOf_lt_of_mem member
      simp only [Json.object.sizeOf_spec, Json.array.sizeOf_spec, Prod.mk.sizeOf_spec] at *
      omega
    · cases member
  · cases member

@[elab_as_elim]
theorem descend {motive : Json → Prop} (place : ∀ j, (∀ item ∈ j.arguments, motive item) → motive j) (j : Json) :
    motive j :=
  place j fun item _ => descend place item
termination_by j
decreasing_by exact sizeOf_argument ‹_›

/-- The places of a document where a tree has to stand, each before those below it. -/
def places (j : Json) : List Json := j :: j.arguments.attach.flatMap fun item => item.val.places
termination_by j
decreasing_by exact sizeOf_argument item.property

theorem places_eq (j : Json) : j.places = j :: j.arguments.flatMap places := by
  rw [places]
  simp

/-- A place where a tree can stand, apart from the trees below it. -/
inductive Treelike : Json → Prop
  | literal {j : Json} (plain : ∀ members, j ≠ .object members) : Treelike j
  | call {members name} (named : Fields.get? "call" members = some (.str name))
      (args : Fields.get? "args" members = none ∨ ∃ items, Fields.get? "args" members = some (.array items)) :
      Treelike (.object members)
  | path {members path} (noCall : Fields.get? "call" members = none)
      (named : Fields.get? "path" members = some (.str path)) : Treelike (.object members)
  | value {members v} (noCall : Fields.get? "call" members = none)
      (noPath : Fields.get? "path" members = none) (given : Fields.get? "value" members = some v) :
      Treelike (.object members)

/-- A place where no tree can stand, with the reason. -/
inductive Malformed : Json → TreeError → Prop
  | call {members found} (given : Fields.get? "call" members = some found) (nameless : ∀ name, found ≠ .str name) :
      Malformed (.object members) (.invalidCall found)
  | args {members name found} (named : Fields.get? "call" members = some (.str name))
      (given : Fields.get? "args" members = some found) (noArray : ∀ items, found ≠ .array items) :
      Malformed (.object members) (.invalidArgs name)
  | path {members found} (noCall : Fields.get? "call" members = none)
      (given : Fields.get? "path" members = some found) (nameless : ∀ path, found ≠ .str path) :
      Malformed (.object members) (.invalidPath found)
  | shape {members} (noCall : Fields.get? "call" members = none) (noPath : Fields.get? "path" members = none)
      (noValue : Fields.get? "value" members = none) :
      Malformed (.object members) (.unknownShape (.object members))

/-- Looks at one place alone. -/
def check : Json → Except TreeError Unit
  | .object members =>
    match Fields.get? "call" members, Fields.get? "path" members, Fields.get? "value" members with
    | some (.str name), _, _ =>
      match Fields.get? "args" members with
      | none | some (.array _) => .ok ()
      | some _ => .error (.invalidArgs name)
    | some found, _, _ => .error (.invalidCall found)
    | none, some (.str _), _ => .ok ()
    | none, some found, _ => .error (.invalidPath found)
    | none, none, some _ => .ok ()
    | none, none, none => .error (.unknownShape (.object members))
  | _ => .ok ()

theorem check_treelike {j : Json} (good : Treelike j) : check j = .ok () := by
  cases good with
  | literal plain =>
    cases j with
    | object members => exact absurd rfl (plain members)
    | null | bool | int | float | str | array => rfl
  | call named args =>
    rcases args with none | ⟨items, given⟩
    · simp only [check, named, none]
    · simp only [check, named, given]
  | path noCall named => simp only [check, noCall, named]
  | value noCall noPath given => simp only [check, noCall, noPath, given]

theorem check_malformed {j : Json} {error : TreeError} (bad : Malformed j error) : check j = .error error := by
  cases bad with
  | call given nameless => simp only [check, given]
  | args named given noArray => simp only [check, named, given]
  | path noCall given nameless => simp only [check, noCall, given]
  | shape noCall noPath noValue => simp only [check, noCall, noPath, noValue]

theorem treelike_or_malformed (j : Json) : Treelike j ∨ ∃ error, Malformed j error := by
  cases j with
  | null | bool | int | float | str | array => exact .inl (.literal nofun)
  | object members =>
    cases call : Fields.get? "call" members with
    | some found =>
      cases found with
      | str name =>
        cases args : Fields.get? "args" members with
        | none => exact .inl (.call call (.inl args))
        | some given =>
          cases given with
          | array items => exact .inl (.call call (.inr ⟨items, args⟩))
          | null | bool | int | float | str | object => exact .inr ⟨_, .args call args nofun⟩
      | null | bool | int | float | array | object => exact .inr ⟨_, .call call nofun⟩
    | none =>
      cases path : Fields.get? "path" members with
      | some found =>
        cases found with
        | str text => exact .inl (.path call path)
        | null | bool | int | float | array | object => exact .inr ⟨_, .path call path nofun⟩
      | none =>
        cases value : Fields.get? "value" members with
        | some v => exact .inl (.value call path value)
        | none => exact .inr ⟨_, .shape call path value⟩

theorem check_ok_iff {j : Json} : check j = .ok () ↔ Treelike j := by
  refine ⟨fun passed => ?_, check_treelike⟩
  rcases treelike_or_malformed j with good | ⟨error, bad⟩
  · exact good
  · cases (check_malformed bad).symm.trans passed

theorem check_error_iff {j : Json} {error : TreeError} : check j = .error error ↔ Malformed j error := by
  refine ⟨fun failed => ?_, check_malformed⟩
  rcases treelike_or_malformed j with good | ⟨found, bad⟩
  · cases (check_treelike good).symm.trans failed
  · cases (check_malformed bad).symm.trans failed
    exact bad

end Json

namespace Expr

theorem ofArgs_eq (call : String) (members : List (String × Json)) :
    ofArgs call members = match Fields.get? "args" members with
      | none => .ok []
      | some (.array items) => ofItems items
      | some _ => .error (.invalidArgs call) := by
  induction members with
  | nil => rfl
  | cons head rest ih =>
    obtain ⟨name, found⟩ := head
    by_cases here : name = "args"
    · cases found <;> simp [ofArgs, Fields.get?, here]
    · cases found <;> simp [ofArgs, Fields.get?, here, ih]

theorem ofJson_malformed {j : Json} {error : TreeError} (bad : j.Malformed error) :
    ofJson j = .error error := by
  cases bad with
  | @call members found given nameless =>
    rw [ofJson, given]
    cases found with
    | str name => exact absurd rfl (nameless name)
    | null | bool | int | float | array | object => rfl
  | @args members name found named given noArray =>
    rw [ofJson, named]
    simp only [ofArgs_eq, given]
    cases found with
    | array items => exact absurd rfl (noArray items)
    | null | bool | int | float | str | object => rfl
  | @path members found noCall given nameless =>
    rw [ofJson, noCall]
    simp only [ofLeaf, given]
  | shape noCall noPath noValue =>
    rw [ofJson, noCall]
    simp only [ofLeaf, noPath, noValue]

/-- Where a tree can stand, the arguments decide. -/
theorem ofJson_treelike {j : Json} (good : j.Treelike) :
    ∃ node : List Expr → Expr, ofJson j = (ofItems j.arguments).map node := by
  cases good with
  | literal plain =>
    refine ⟨fun _ => .constant (.ofJson j), ?_⟩
    cases j with
    | object members => exact absurd rfl (plain members)
    | null | bool | int | float | str | array => rfl
  | @call members name named args =>
    refine ⟨.call name, ?_⟩
    rw [ofJson, named, Json.arguments_call named]
    simp only [ofArgs_eq]
    rcases args with none | ⟨items, given⟩
    · rw [none]
      rfl
    · rw [given]
  | @path members path noCall named =>
    refine ⟨fun _ => accessor path, ?_⟩
    rw [ofJson, noCall, Json.arguments_leaf noCall]
    simp only [ofLeaf, named]
    rfl
  | @value members v noCall noPath given =>
    refine ⟨fun _ => .constant (.ofJson v), ?_⟩
    rw [ofJson, noCall, Json.arguments_leaf noCall]
    simp only [ofLeaf, noPath, given]
    rfl

theorem ofItems_places {items : List Json}
    (each : ∀ item ∈ items, (ofJson item).map (fun _ => ()) = forM item.places Json.check) :
    (ofItems items).map (fun _ => ()) = forM (items.flatMap Json.places) Json.check := by
  induction items with
  | nil => rfl
  | cons item rest ih =>
    obtain ⟨here, later⟩ := List.forall_mem_cons.1 each
    rw [List.flatMap_cons, List.forM_append, ← here, ← ih later, ofItems]
    cases ofJson item with
    | error error => rfl
    | ok arg => cases ofItems rest <;> rfl

/-- Decoding fails where, and as, the check of the places in pre-order does. -/
theorem ofJson_places (j : Json) : (ofJson j).map (fun _ => ()) = forM j.places Json.check := by
  induction j using Json.descend with
  | place j ih =>
    rw [Json.places_eq, List.forM_cons]
    rcases j.treelike_or_malformed with good | ⟨error, bad⟩
    · obtain ⟨node, decoded⟩ := ofJson_treelike good
      have below := ofItems_places ih
      rw [decoded, Json.check_treelike good]
      refine Eq.trans ?_ below
      cases ofItems j.arguments <;> rfl
    · rw [ofJson_malformed bad, Json.check_malformed bad]
      rfl

theorem ofJson_ok_iff {j : Json} : (∃ e, ofJson j = .ok e) ↔ ∀ place ∈ j.places, place.Treelike := by
  have verdict : (∃ e, ofJson j = .ok e) ↔ (ofJson j).map (fun _ => ()) = .ok () := by
    cases ofJson j <;> simp [Except.map]
  rw [verdict, ofJson_places, forM_ok_iff]
  exact forall_congr' fun place => imp_congr_right fun _ => Json.check_ok_iff

theorem ofJson_error_iff {j : Json} {error : TreeError} : ofJson j = .error error ↔
    ∃ before place after, j.places = before ++ place :: after ∧ (∀ earlier ∈ before, earlier.Treelike) ∧
      place.Malformed error := by
  have verdict : ofJson j = .error error ↔ (ofJson j).map (fun _ => ()) = .error error := by
    cases ofJson j <;> simp [Except.map]
  rw [verdict, ofJson_places, forM_error_iff]
  simp only [Json.check_ok_iff, Json.check_error_iff]

end Expr

section Elsewhere

/-- Two objects that give a tree the same: the call and, with a call, its arguments, else the path or, with
neither, whether there is a value. Everything else may differ. -/
structure Json.SameTree (members others : List (String × Json)) : Prop where
  call : Fields.get? "call" members = Fields.get? "call" others
  args : Fields.get? "call" members ≠ none → Fields.get? "args" members = Fields.get? "args" others
  path : Fields.get? "call" members = none → Fields.get? "path" members = Fields.get? "path" others
  value : Fields.get? "call" members = none → Fields.get? "path" members = none →
    (Fields.get? "value" members).isSome = (Fields.get? "value" others).isSome

namespace Json.SameTree

variable {members others : List (String × Json)}

theorem symm (same : SameTree members others) : SameTree others members where
  call := same.call.symm
  args call := (same.args (same.call ▸ call)).symm
  path call := (same.path (same.call.trans call)).symm
  value call path :=
    have leaf := same.call.trans call
    (same.value leaf ((same.path leaf).trans path)).symm

theorem arguments (same : SameTree members others) :
    (object members).arguments = (object others).arguments := by
  simp only [Json.arguments, ← same.call]
  cases call : Fields.get? "call" members with
  | none => rfl
  | some found => rw [same.args (by simp [call])]

theorem treelike (same : SameTree members others) (good : (object members).Treelike) :
    (object others).Treelike := by
  cases good with
  | literal plain => exact absurd rfl (plain members)
  | call named args => exact .call (same.call ▸ named) (same.args (by simp [named]) ▸ args)
  | path noCall named => exact .path (same.call ▸ noCall) (same.path noCall ▸ named)
  | value noCall noPath given =>
    have present := same.value noCall noPath
    rw [given, Option.isSome_some] at present
    obtain ⟨v, given⟩ := Option.isSome_iff_exists.1 present.symm
    exact .value (same.call ▸ noCall) (same.path noCall ▸ noPath) given

end Json.SameTree

theorem Expr.ofJson_ok_of_sameTree {members others : List (String × Json)} (same : Json.SameTree members others)
    (decoded : ∃ e, ofJson (.object members) = .ok e) : ∃ e, ofJson (.object others) = .ok e := by
  rw [ofJson_ok_iff, Json.places_eq, List.forall_mem_cons] at decoded ⊢
  exact ⟨same.treelike decoded.1, same.arguments ▸ decoded.2⟩

end Elsewhere

section Encoding

namespace Value

mutual

theorem numeric_toJson : (v : Value) → v.toJson.Numeric
  | .null | .bool _ | .str _ => trivial
  | .int n => ⟨(Integer.fits_toInt n).1, (Integer.fits_toInt n).2.trans (by decide)⟩
  | .float x => by
    rw [toJson]
    split
    · rename_i finite
      exact finite
    · trivial
  | .array items => numeric_toJsonItems items
  | .object fields => numeric_toJsonMembers fields

theorem numeric_toJsonItems : (items : List Value) → Json.NumericItems (toJsonItems items)
  | [] => trivial
  | item :: rest => ⟨numeric_toJson item, numeric_toJsonItems rest⟩

theorem numeric_toJsonMembers : (fields : List (String × Value)) → Json.NumericMembers (toJsonMembers fields)
  | [] => trivial
  | (_, v) :: rest => ⟨numeric_toJson v, numeric_toJsonMembers rest⟩

end

end Value

namespace Expr

mutual

def toJson : Expr → Json
  | .constant v => .object [("value", v.toJson)]
  | .call name args => .object [("args", .array (toJsonAll args)), ("call", .str name)]

def toJsonAll : List Expr → List Json
  | [] => []
  | e :: rest => e.toJson :: toJsonAll rest

end

mutual

theorem numeric_toJson : (e : Expr) → e.toJson.Numeric
  | .constant v => ⟨v.numeric_toJson, trivial⟩
  | .call _ args => ⟨numeric_toJsonAll args, trivial, trivial⟩

theorem numeric_toJsonAll : (args : List Expr) → Json.NumericItems (toJsonAll args)
  | [] => trivial
  | e :: rest => ⟨numeric_toJson e, numeric_toJsonAll rest⟩

end

/-- No literal of the tree holds a double that JSON has no form for. -/
def Encodable (e : Expr) : Prop := ∀ node ∈ e.nodes, ∀ v, node.value? = some v → v.finite = v

theorem ofItems_toJsonAll {args : List Expr} (each : ∀ e ∈ args, ofJson e.toJson = .ok e) :
    ofItems (toJsonAll args) = .ok args := by
  induction args with
  | nil => rfl
  | cons e rest ih =>
    obtain ⟨here, later⟩ := List.forall_mem_cons.1 each
    simp only [toJsonAll, ofItems, here, ih later]

theorem ofJson_toJson {e : Expr} (encodable : e.Encodable) : ofJson e.toJson = .ok e := by
  induction e with
  | constant v =>
    have kept : v.finite = v := encodable _ (self_mem_nodes _) v rfl
    change Except.ok (constant (.ofJson v.toJson)) = _
    rw [Value.ofJson_toJson, kept]
  | call name args ih =>
    have each : ∀ e ∈ args, ofJson e.toJson = .ok e := fun e member =>
      ih e member fun node inside => encodable node (nodes_of_child member inside)
    change (ofItems (toJsonAll args)).map (call name) = _
    rw [ofItems_toJsonAll each]
    rfl

/-- Decoding succeeds exactly when a tree can stand at each place of the document, and otherwise reports
the first place in pre-order where none can; nothing else in the document makes a difference to the verdict.
Every tree whose literals have a JSON form is the decoding of a document, and a path is short for a call. -/
theorem decoding_exact :
    (∀ j : Json,
      ((∃ e, ofJson j = .ok e) ↔ ∀ place ∈ j.places, place.Treelike) ∧
      ∀ error, ofJson j = .error error ↔ ∃ before place after, j.places = before ++ place :: after ∧
        (∀ earlier ∈ before, earlier.Treelike) ∧ place.Malformed error) ∧
    (∀ members others, Json.SameTree members others →
      ((∃ e, ofJson (.object members) = .ok e) ↔ ∃ e, ofJson (.object others) = .ok e)) ∧
    (∀ e : Expr, e.Encodable → ∃ j : Json, j.Numeric ∧ ofJson j = .ok e) ∧
    ∀ path, ofJson (.object [("path", .str path)]) = .ok (accessor path) ∧
      ofJson (.object [("args", .array [.str path]), ("call", .str accessorName)]) = .ok (accessor path) := by
  refine ⟨fun j => ⟨ofJson_ok_iff, fun error => ofJson_error_iff⟩, fun members others same => ?_,
    fun e encodable => ⟨e.toJson, numeric_toJson e, ofJson_toJson encodable⟩, fun path => ⟨rfl, rfl⟩⟩
  exact ⟨ofJson_ok_of_sameTree same, ofJson_ok_of_sameTree same.symm⟩

/-- `+(1, f(…), …)`: of the two malformed arguments the first decides; a path beside useless arguments, with
and without them; and a tree with a double and a path. -/
theorem decoding_exact_cases :
    let call : Json := .object [("args", .bool true), ("call", .str "f")]
    let sum : Json := .object [("args", .array [.int 1, call, .object [("call", .int 3)]]), ("call", .str "+")]
    let beside : List (String × Json) := [("args", .int 1), ("path", .str "x")]
    let plain : List (String × Json) := [("path", .str "x"), ("spare", .null)]
    let half : Expr := .call "*" [.constant (.float 0.5), accessor "x"]
    sum.places = [sum, .int 1, call, .object [("call", .int 3)]] ∧ ofJson sum = .error (.invalidArgs "f") ∧
      Json.SameTree beside plain ∧
      ((∃ e, ofJson (.object beside) = .ok e) ↔ ∃ e, ofJson (.object plain) = .ok e) ∧
      half.Encodable ∧ ∃ j : Json, j.Numeric ∧ ofJson j = .ok half := by
  intro call sum beside plain half
  have places : sum.places = [sum, .int 1, call, .object [("call", .int 3)]] := by
    simp [sum, call, Json.places_eq, Json.arguments, Fields.get?]
  have same : Json.SameTree beside plain :=
    ⟨rfl, fun call => absurd rfl call, fun _ => rfl, fun _ path => absurd path (by simp [beside, Fields.get?])⟩
  have encodable : half.Encodable := by
    have kept : (0.5 : Float).isFinite = true := by decide +kernel
    simp [half, Encodable, accessor, nodes, nodesAll, value?, Value.finite, kept]
  have malformed : call.Malformed (.invalidArgs "f") := .args rfl rfl (by simp)
  have treelike : ∀ earlier ∈ [sum, .int 1], earlier.Treelike := by
    simp only [List.forall_mem_cons, List.not_mem_nil, false_imp_iff, implies_true, and_true]
    exact ⟨.call rfl (.inr ⟨_, rfl⟩), .literal (by simp)⟩
  obtain ⟨documents, elsewhere, covered, -⟩ := decoding_exact
  exact ⟨places, ((documents sum).2 _).2 ⟨_, call, _, places, treelike, malformed⟩, same, elsewhere _ _ same,
    encodable, covered half encodable⟩

end Expr

end Encoding

end Formula
