import Formula.Registry
import Formula.Strict

/-! Literals, references to memory and `element`, which looks inside a value. -/
namespace Formula.Builtins

def constant : Logic := fun call =>
  match call.node.value? with
  | some v => .succeed v
  | none => .fail (call.fault .noValue)

/-- A null and a missing path are the same to an accessor. -/
def accessor : Logic := fun call =>
  match call.node.path? with
  | none => .fail (call.fault .noPath)
  | some path => .read path fun
    | .ok .null | .error (.notFound _) => .succeed ((call.options.whenNull path).getD .null)
    | .ok v => .succeed v
    | .error e => .fail (.memory e)

/-- The item at a position, null outside the array. -/
def itemAt (items : List Value) (position : Int64) : Value :=
  ((Integer.toNat? position).bind (items[·]?)).getD .null

def element (call : Call) (collection key : Value) : Except Fault Value :=
  let refused := .error (call.fault (.index collection.kind key.kind))
  match collection, key with
  | .array items, key =>
    if key.isInteger then return itemAt items (← converted call key.toInt) else refused
  | .object fields, .str name => .ok ((Fields.get? name fields).getD .null)
  | .null, _ => .ok .null
  | _, _ => refused

def accessPackage : List Function := [
  ⟨Expr.constantName, .any, Rule.constant, constant⟩,
  ⟨Expr.accessorName, .any, Rule.accessor, accessor⟩,
  ⟨"element", .any,
    .all [.binary, .positional [.array ∪ .object, .number ∪ .string]],
    strict none (binary element)⟩]

end Formula.Builtins
