import Formula.Path
import Formula.Value.Basic

/-! Memory is what the paths of an expression are read from. It is any function from path
texts to values, so a host may bring its own; a document and a layer of bindings over another
memory are the two kinds made here. Nothing ever writes to one. -/
namespace Formula

inductive MemoryError
  | notFound (path : String)
  | invalidPath (path : String) (fault : PathFault)
  deriving DecidableEq, Repr

def MemoryError.message : MemoryError → String
  | .notFound path => "'" ++ path ++ "' was not found in memory"
  | .invalidPath path fault => "'" ++ path ++ "' is not a valid path: " ++ fault.reason

def Value.step : Value → Step → Option Value
  | .object fields, .key name => Fields.get? name fields
  | .array items, .index position => items[position]?
  | _, _ => none

def Value.walk (root : Value) : List Step → Option Value
  | [] => some root
  | step :: steps => (root.step step).bind (·.walk steps)

theorem Value.walk_append (root : Value) (first rest : List Step) :
    root.walk (first ++ rest) = (root.walk first).bind (·.walk rest) := by
  induction first generalizing root with
  | nil => rfl
  | cons step steps ih =>
    simp only [List.cons_append, Value.walk, Option.bind_assoc]
    exact congrArg _ (funext ih)

structure Memory where
  resolve : String → Except MemoryError Value

namespace Memory

/-- The steps of a path; the error carries the text. -/
def steps (path : String) : Except MemoryError (List Step) :=
  match Path.parse path with
  | .ok steps => .ok steps
  | .error fault => .error (.invalidPath path fault)

/-- What the steps of `path` lead to in `root`. -/
def find (path : String) (root : Value) (steps : List Step) : Except MemoryError Value :=
  match root.walk steps with
  | some v => .ok v
  | none => .error (.notFound path)

/-- A memory that is one value. -/
def document (root : Value) : Memory where
  resolve path :=
    match steps path with
    | .error e => .error e
    | .ok steps => find path root steps

def empty : Memory := document (.object [])

end Memory

/-- Bindings laid over `below`. A path whose first step names a binding is read inside it, and
is missing when it leads nowhere there; every other path is left to the memory below. -/
def Memory.over (bindings : List (String × Value)) (below : Memory) : Memory where
  resolve path :=
    match Memory.steps path with
    | .error e => .error e
    | .ok (.key name :: steps) =>
      match Fields.get? name bindings with
      | some v => Memory.find path v steps
      | none => below.resolve path
    | .ok _ => below.resolve path

def Memory.extend (below : Memory) : Option (List (String × Value)) → Memory
  | none => below
  | some bindings => Memory.over bindings below

end Formula
