import Formula.Proofs.Doubles
import Formula.Value.Json

/-! Values and JSON documents. A value comes back from its document with null in place of the doubles that
are not finite, and its own text is the text of the document; a document comes back from its value with
the whole numbers that do not fit 64 bits as doubles. -/
namespace Formula

namespace Json

mutual

/-- Every number is one that documents keep: a whole number with its exact value or a finite double. -/
def Numeric : Json → Prop
  | .int n => Exact n
  | .float x => x.isFinite = true
  | .array items => NumericItems items
  | .object members => NumericMembers members
  | .null | .bool _ | .str _ => True

def NumericItems : List Json → Prop
  | [] => True
  | item :: rest => item.Numeric ∧ NumericItems rest

def NumericMembers : List (String × Json) → Prop
  | [] => True
  | (_, value) :: rest => value.Numeric ∧ NumericMembers rest

end

mutual

/-- The document with a double in place of every whole number above the range of 64-bit integers. -/
def rounded : Json → Json
  | .int n => if n < Int.pow 2 63 then .int n else .float (.ofInt n)
  | .array items => .array (roundedItems items)
  | .object members => .object (roundedMembers members)
  | j => j

def roundedItems : List Json → List Json
  | [] => []
  | item :: rest => item.rounded :: roundedItems rest

def roundedMembers : List (String × Json) → List (String × Json)
  | [] => []
  | (name, value) :: rest => (name, value.rounded) :: roundedMembers rest

end

theorem nearest_ofInt {n : Int} (exact : Exact n) (large : Int.pow 2 63 ≤ n) : Binary64.Nearest n (.ofInt n) := by
  -- Such a number has 64 bits, and eleven of them are rounded away.
  obtain ⟨-, below⟩ := exact
  obtain ⟨size, rfl⟩ := Int.eq_ofNat_of_zero_le (le_trans (by decide) large)
  have lower : 2 ^ 63 ≤ size := Int.ofNat_le.1 large
  have upper : size < 2 ^ 64 := Int.ofNat_lt.1 below
  have log : size.log2 = 63 := (Nat.log2_eq_iff (by omega)).2 ⟨lower, upper⟩
  exact_mod_cast Binary64.nearest_ofNat (by omega) (by omega)

theorem renderFloat_of_not_finite {x : Float} (endless : x.isFinite = false) : renderFloat x = "null" := by
  change (Binary64.unpack x).isFinite = false at endless
  unfold renderFloat Decimal.Layout.render Decimal.Layout.write
  cases unpacked : Binary64.unpack x with
  | notANumber => rfl
  | infinity sign => cases sign <;> rfl
  | zero sign => simp [unpacked, Float.Model.UnpackedFloat.isFinite] at endless
  | finite sign m e positive => simp [unpacked, Float.Model.UnpackedFloat.isFinite] at endless

end Json

namespace Value

mutual

/-- The value with null in place of every double that is not finite. -/
def finite : Value → Value
  | .float x => if x.isFinite then .float x else .null
  | .array items => .array (finiteItems items)
  | .object fields => .object (finiteFields fields)
  | v => v

def finiteItems : List Value → List Value
  | [] => []
  | item :: rest => item.finite :: finiteItems rest

def finiteFields : List (String × Value) → List (String × Value)
  | [] => []
  | (name, value) :: rest => (name, value.finite) :: finiteFields rest

end

mutual

theorem ofJson_toJson : (v : Value) → ofJson v.toJson = v.finite
  | .null | .bool _ | .str _ => rfl
  | .int n => by simp [toJson, ofJson, finite]
  | .float x => by cases kept : x.isFinite <;> simp [toJson, ofJson, finite, kept]
  | .array items => by rw [toJson, ofJson, finite, ofJsonItems_toJsonItems items]
  | .object fields => by rw [toJson, ofJson, finite, ofJsonMembers_toJsonMembers fields]

theorem ofJsonItems_toJsonItems : (items : List Value) → ofJsonItems (toJsonItems items) = finiteItems items
  | [] => rfl
  | item :: rest => by
    rw [toJsonItems, ofJsonItems, finiteItems, ofJson_toJson item, ofJsonItems_toJsonItems rest]

theorem ofJsonMembers_toJsonMembers :
    (fields : List (String × Value)) → ofJsonMembers (toJsonMembers fields) = finiteFields fields
  | [] => rfl
  | (name, value) :: rest => by
    rw [toJsonMembers, ofJsonMembers, finiteFields, ofJson_toJson value, ofJsonMembers_toJsonMembers rest]

end

mutual

theorem serialize_eq_render : (v : Value) → v.serialize = v.toJson.render
  | .null | .bool _ | .str _ | .int _ => rfl
  | .float x => by
    cases kept : x.isFinite with
    | false => rw [serialize, toJson, if_neg (by simp [kept]), Json.render, Json.renderFloat_of_not_finite kept]
    | true => rw [serialize, toJson, if_pos kept, Json.render]
  | .array items => by rw [serialize, toJson, Json.render, serializeItems_eq_render items]
  | .object fields => by rw [serialize, toJson, Json.render, serializeMembers_eq_render fields]

theorem serializeItems_eq_render : (items : List Value) → serializeItems items = Json.renderItems (toJsonItems items)
  | [] => rfl
  | [item] => serialize_eq_render item
  | item :: next :: rest => by
    change item.serialize ++ "," ++ serializeItems (next :: rest) = _
    rw [serialize_eq_render item, serializeItems_eq_render (next :: rest)]
    rfl

theorem serializeMembers_eq_render :
    (fields : List (String × Value)) → serializeMembers fields = Json.renderMembers (toJsonMembers fields)
  | [] => rfl
  | [(name, value)] => congrArg (Json.quote name ++ ":" ++ ·) (serialize_eq_render value)
  | (name, value) :: next :: rest => by
    change Json.quote name ++ ":" ++ value.serialize ++ "," ++ serializeMembers (next :: rest) = _
    rw [serialize_eq_render value, serializeMembers_eq_render (next :: rest)]
    rfl

end

mutual

theorem toJson_ofJson : (j : Json) → j.Numeric → (ofJson j).toJson = j.rounded
  | .null, _ | .bool _, _ | .str _, _ => rfl
  | .int n, exact => by
    rw [Json.Numeric] at exact
    rw [ofJson, Json.rounded]
    split
    · rename_i word fit
      obtain rfl := Integer.toInt_ofInt? fit
      exact (if_pos (Integer.fits_toInt word).2).symm
    · rename_i none
      have large : Int.pow 2 63 ≤ n := not_lt.1 fun below => Integer.ofInt?_eq_none_iff.1 none ⟨exact.1, below⟩
      rw [toJson, if_pos (Json.nearest_ofInt exact large).isFinite, if_neg (not_lt.2 large)]
  | .float _, kept => if_pos kept
  | .array items, numeric => by rw [ofJson, toJson, Json.rounded, toJsonItems_ofJsonItems items numeric]
  | .object members, numeric => by rw [ofJson, toJson, Json.rounded, toJsonMembers_ofJsonMembers members numeric]

theorem toJsonItems_ofJsonItems :
    (items : List Json) → Json.NumericItems items → toJsonItems (ofJsonItems items) = Json.roundedItems items
  | [], _ => rfl
  | item :: rest, numeric => by
    rw [ofJsonItems, toJsonItems, Json.roundedItems, toJson_ofJson item numeric.1,
      toJsonItems_ofJsonItems rest numeric.2]

theorem toJsonMembers_ofJsonMembers :
    (members : List (String × Json)) → Json.NumericMembers members →
      toJsonMembers (ofJsonMembers members) = Json.roundedMembers members
  | [], _ => rfl
  | (name, value) :: rest, numeric => by
    rw [ofJsonMembers, toJsonMembers, Json.roundedMembers, toJson_ofJson value numeric.1,
      toJsonMembers_ofJsonMembers rest numeric.2]

end

/-- Both directions between values and documents, and the two ways to the text of a value. -/
theorem json_roundtrip :
    (∀ v : Value, ofJson v.toJson = v.finite ∧ v.serialize = v.toJson.render) ∧
    (∀ items, (array items).render = (array items).serialize) ∧
    (∀ fields, (object fields).render = (object fields).serialize) ∧
    (∀ j : Json, j.Numeric → (ofJson j).toJson = j.rounded) ∧
    (∀ n : Int, Json.Exact n → Int.pow 2 63 ≤ n → Binary64.Nearest n (.ofInt n)) :=
  ⟨fun v => ⟨ofJson_toJson v, serialize_eq_render v⟩,
    fun items => (serialize_eq_render (array items)).symm,
    fun fields => (serialize_eq_render (object fields)).symm,
    toJson_ofJson, fun _ => Json.nearest_ofInt⟩

/-- Doubles without a JSON form at two depths, and the largest whole number of a document. -/
theorem json_roundtrip_mixed :
    let v := array [.float (0.0 / 0.0), .int 2, object [("x", .float (1.0 / 0.0)), ("y", .float (-0.0))]]
    let j := Json.object [("n", .int 18446744073709551615), ("x", .float 2.0)]
    ofJson v.toJson = array [.null, .int 2, object [("x", .null), ("y", .float (-0.0))]] ∧
      v.serialize = v.toJson.render ∧ v.render = v.serialize ∧
      j.Numeric ∧ (ofJson j).toJson = Json.object [("n", .float 18446744073709551616.0), ("x", .float 2.0)] ∧
      Json.Exact 18446744073709551615 ∧ Int.pow 2 63 ≤ 18446744073709551615 ∧
      Binary64.Nearest 18446744073709551615 18446744073709551616.0 := by
  intro v j
  have exact : Json.Exact 18446744073709551615 := by decide
  have large : Int.pow 2 63 ≤ 18446744073709551615 := by decide
  have whole : (2.0 : Float).isFinite = true := by decide +kernel
  have numeric : j.Numeric := ⟨exact, whole, trivial⟩
  have top : Float.ofInt 18446744073709551615 = 18446744073709551616.0 := by decide +kernel
  obtain ⟨values, arrays, -, documents, doubles⟩ := json_roundtrip
  refine ⟨(values v).1.trans ?_, (values v).2, arrays _, numeric, (documents j numeric).trans ?_, exact, large,
    top ▸ doubles _ exact large⟩
  · have lost : (0.0 / 0.0 : Float).isFinite = false ∧ (1.0 / 0.0 : Float).isFinite = false := by decide +kernel
    have kept : (-0.0 : Float).isFinite = true := by decide +kernel
    simp [v, finite, finiteItems, finiteFields, lost, kept]
  · simp [j, Json.rounded, Json.roundedMembers, top]

end Value

end Formula
