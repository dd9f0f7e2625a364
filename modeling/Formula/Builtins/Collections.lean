import Formula.Builtins.Strings
import Formula.Registry
import Formula.Strict
import Formula.Value.Compare

/-! Arrays, objects and iteration. `foreach` and `where` evaluate their body once for each item,
over a layer that binds the iterator. An object iterates as `key` and `value` pairs. -/
namespace Formula.Builtins

def createArray (args : List Value) : Value := .array args

def count (call : Call) (v : Value) : Except Fault Value :=
  match v with
  | .null => .ok (size 0)
  | .array items => .ok (size items.length)
  | .object fields => .ok (size fields.length)
  | v => .error (call.fault (.uncountable v.kind))

/-- An item of an array, a part of a text, or a key of an object. -/
def contains (call : Call) (collection needle : Value) : Except Fault Value :=
  match collection, needle with
  | .null, _ => .ok (.bool false)
  | .array items, needle => .ok (.bool (items.any (·.looseEq needle)))
  | .str s, .str part => .ok (.bool (Text.contains part.toList s.toList))
  | .object fields, .str name => .ok (.bool (Fields.get? name fields).isSome)
  | collection, needle => .error (call.fault (.unsearchable needle.kind collection.kind))

def first (_ : Call) (v : Value) : Except Fault Value :=
  match v with
  | .array items => .ok (items.head?.getD .null)
  | .str s => .ok ((s.toList.head?.map fun c => .str (String.ofList [c])).getD .null)
  | _ => .ok .null

def last (_ : Call) (v : Value) : Except Fault Value :=
  match v with
  | .array items => .ok (items.getLast?.getD .null)
  | .str s => .ok ((s.toList.getLast?.map fun c => .str (String.ofList [c])).getD .null)
  | _ => .ok .null

def join (call : Call) (collection separator : Value) : Except Fault Value :=
  match collection with
  | .null => .ok (.str "")
  | .array items => .ok (.str ((text separator).intercalate (items.map piece)))
  | v => .error (call.fault (.unjoinable v.kind))

def property (call : Call) (v name : Value) : Except Fault Value :=
  match v, name with
  | .null, _ => .ok .null
  | .object fields, .str name => .ok ((Fields.get? name fields).getD .null)
  | .object _, name => .error (call.fault (.propertyName name.kind))
  | v, _ => .error (call.fault (.noProperties v.kind))

def entry (field : String × Value) : Value :=
  .ofBindings [("key", .str field.1), ("value", field.2)]

def items (call : Call) : Value → Except Fault (List Value)
  | .null => .ok []
  | .array items => .ok items
  | .object fields => .ok (fields.map entry)
  | v => .error (call.fault (.notIterable v.kind))

/-- Evaluates the body, which is child 2, for each item; `seen` pairs the items so far with
their results, the last first. -/
def visit (iterator : String) (next : List (Value × Value) → Plan) :
    List Value → List (Value × Value) → Plan
  | [], seen => next seen.reverse
  | item :: rest, seen => .child 2 (some [(iterator, item)]) fun result =>
    visit iterator next rest ((item, result) :: seen)

def iteration (finish : List (Value × Value) → Value) : Logic := fun call =>
  match call.node.args with
  | [_, iterator, _] =>
    match iterator.iterator? with
    | none => .fail (call.fault .noIterator)
    | some name => .child 0 none fun collection =>
      match items call collection with
      | .error fault => .fail fault
      | .ok items => visit name (fun results => .succeed (finish results)) items []
  | _ => .fail (call.fault .notThreeArguments)

def foreach : Logic := iteration fun results => .array (results.map (·.2))

def filter : Logic := iteration fun results =>
  .array ((results.filter (·.2.isTruthy)).map (·.1))

def collectionPackage : List Function := [
  ⟨"createArray", .array, .anything, strict none fun _ args => .ok (createArray args)⟩,
  ⟨"count", .number, .all [.unary, .ofType (.array ∪ .object)], strict none (unary count)⟩,
  ⟨"contains", .boolean, .all [.binary, .positional [.array ∪ .string ∪ .object, .any]],
    strict none (binary contains)⟩,
  ⟨"first", .any, .all [.unary, .ofType (.array ∪ .string)], strict none (unary first)⟩,
  ⟨"last", .any, .all [.unary, .ofType (.array ∪ .string)], strict none (unary last)⟩,
  ⟨"join", .string, .all [.binary, .positional [.array, .string]], strict none (binary join)⟩,
  ⟨"getProperty", .any, .all [.binary, .positional [.object, .string]],
    strict none (binary property)⟩,
  ⟨"foreach", .array, .iteration, foreach⟩,
  ⟨"where", .array, .iteration, filter⟩]

end Formula.Builtins
