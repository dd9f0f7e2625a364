import Formula.Plan
import Formula.Rule

/-! The known functions. A registry is filled once, name by name, and a name keeps the function
it was first given. -/
namespace Formula

structure Function where
  name : String
  returns : TypeSet
  rule : Rule
  logic : Logic

inductive RegistryError
  | duplicate (name : String)
  deriving DecidableEq, Repr

def RegistryError.message : RegistryError → String
  | .duplicate name => s!"function '{name}' is already registered"

inductive BindError
  | unknownFunction (name : String)
  | shape (error : ShapeError)

def BindError.message : BindError → String
  | .unknownFunction name => unknownFunctionMessage name
  | .shape error => error.message

/-- Functions in the order of their registration. -/
structure Registry where
  functions : List Function

namespace Registry

def empty : Registry := ⟨[]⟩

def find? (registry : Registry) (name : String) : Option Function :=
  registry.functions.find? (·.name == name)

def contains (registry : Registry) (name : String) : Bool := (registry.find? name).isSome

def size (registry : Registry) : Nat := registry.functions.length

def register (registry : Registry) (function : Function) : Except RegistryError Registry :=
  if registry.contains function.name then .error (.duplicate function.name)
  else .ok ⟨registry.functions ++ [function]⟩

/-- Registers functions up to the first whose name is taken; those before it stay. -/
def registerAll (registry : Registry) : List Function → Registry × Except RegistryError Unit
  | [] => (registry, .ok ())
  | function :: rest =>
    match registry.register function with
    | .ok registry => registry.registerAll rest
    | .error e => (registry, .error e)

def names (registry : Registry) : List String :=
  (registry.functions.map (·.name)).mergeSort (· ≤ ·)

def describe (registry : Registry) : List (String × TypeSet) :=
  registry.names.filterMap fun name => (registry.find? name).map fun f => (name, f.returns)

def signatures (registry : Registry) : Signatures := fun name => (registry.find? name).map (·.returns)

/-- The static type of a tree, or the name that is not known. -/
def typesOf (registry : Registry) (e : Expr) : Except String TypeSet :=
  match e.types? registry.signatures with
  | some types => .ok types
  | none => .error e.name

/-- Checks one node, not its children. -/
def validate (registry : Registry) (node : Expr) : Except BindError Unit :=
  match registry.find? node.name with
  | none => .error (.unknownFunction node.name)
  | some function =>
    match function.rule registry.signatures node with
    | .ok () => .ok ()
    | .error e => .error (.shape e)

mutual

/-- Checks every node, the children before their parent. -/
def validateTree (registry : Registry) : Expr → Except BindError Unit
  | .constant v => registry.validate (.constant v)
  | .call name args =>
    match validateTrees registry args with
    | .ok () => registry.validate (.call name args)
    | .error e => .error e

def validateTrees (registry : Registry) : List Expr → Except BindError Unit
  | [] => .ok ()
  | e :: rest =>
    match validateTree registry e with
    | .ok () => validateTrees registry rest
    | .error error => .error error

end

/-- A call over children that are bound already. -/
def make (registry : Registry) (name : String) (args : List Expr) : Except BindError Expr :=
  match registry.validate (.call name args) with
  | .ok () => .ok (.call name args)
  | .error e => .error e

end Registry

end Formula
