import Formula.Expr.Printer
import Formula.Memory

/-! Rules on the shape of a node: how many children it has and what their static types are. A
rule sees the tree and the declared types of the known functions, never a memory. -/
namespace Formula

/-- The declared type of a function, if the name is known. -/
abbrev Signatures := String → Option TypeSet

/-- A literal has the type of its value, a call the declared type of its function. -/
def Expr.types? (signatures : Signatures) : Expr → Option TypeSet
  | .constant v => some v.types
  | .call name _ => signatures name

/-- What is wrong with the shape of a node. -/
inductive ShapeFault
  | notExactly (expected found : Nat)
  | tooFew (least found : Nat)
  | tooMany (most found : Nat)
  | wrongType (child : Expr) (expected found : TypeSet)
  | constantChildren
  | constantValue
  | accessorPath
  | badPath (error : MemoryError)
  | iterator
  | custom (message : String)

structure ShapeError where
  node : Expr
  fault : ShapeFault

def children (n : Nat) : String := if n = 1 then "child" else "children"

def ShapeError.message (e : ShapeError) : String :=
  let node := e.node.render
  match e.fault with
  | .notExactly n found =>
    s!"{node} should have exactly {n} {children n}, found {found}"
  | .tooFew n found => s!"{node} should have at least {n} {children n}, found {found}"
  | .tooMany n found => s!"{node} can't have more than {n} {children n}, found {found}"
  | .wrongType child expected found =>
    s!"{child.render} in {node} should be {expected.render}, found {found.render}"
  | .constantChildren => "a constant can't have children"
  | .constantValue => "constant node is missing its value"
  | .accessorPath => "an accessor needs exactly one constant string path"
  | .badPath error => error.message
  | .iterator => s!"the second argument of {e.node.name} should be a plain variable name"
  | .custom message => message

abbrev Rule := Signatures → Expr → Except ShapeError Unit

namespace Rule

def anything : Rule := fun _ _ => .ok ()

/-- Between `least` and `most` children; without `most` there is no upper bound. -/
def arity (least : Nat) (most : Option Nat) : Rule := fun _ node =>
  let found := node.args.length
  if some least = most ∧ found ≠ least then .error ⟨node, .notExactly least found⟩
  else if found < least then .error ⟨node, .tooFew least found⟩
  else
    match most with
    | none => .ok ()
    | some most => if most < found then .error ⟨node, .tooMany most found⟩ else .ok ()

def exactly (n : Nat) : Rule := arity n (some n)

def atLeast (n : Nat) : Rule := arity n none

/-- An unknown function may produce anything; it is reported where it is bound itself. -/
def checkChild (signatures : Signatures) (node child : Expr) (expected : TypeSet) :
    Except ShapeError Unit :=
  let found := (child.types? signatures).getD .any
  if found.meets expected then .ok () else .error ⟨node, .wrongType child expected found⟩

/-- Checks the children against the types in turn; the last type serves for all further ones. -/
def checkAll (signatures : Signatures) (node : Expr) :
    List TypeSet → List Expr → Except ShapeError Unit
  | [], _ | _, [] => .ok ()
  | [expected], child :: rest => do
    checkChild signatures node child expected
    checkAll signatures node [expected] rest
  | expected :: next :: types, child :: rest => do
    checkChild signatures node child expected
    checkAll signatures node (next :: types) rest

def positional (types : List TypeSet) : Rule := fun signatures node =>
  checkAll signatures node types node.args

def ofType (expected : TypeSet) : Rule := positional [expected]

/-- The rules in turn; the first that fails decides. -/
def all : List Rule → Rule
  | [] => anything
  | rule :: rules => fun signatures node => do
    rule signatures node
    all rules signatures node

def unary : Rule := exactly 1

def binary : Rule := exactly 2

def unaryNumber : Rule := all [unary, ofType .number]

def binaryNumber : Rule := all [binary, ofType .number]

def numberSequence : Rule := all [atLeast 2, ofType .number]

def unaryString : Rule := all [unary, ofType .string]

def constant : Rule := fun _ node =>
  if !node.args.isEmpty then .error ⟨node, .constantChildren⟩
  else if node.value?.isNone then .error ⟨node, .constantValue⟩
  else .ok ()

def accessor : Rule := fun _ node =>
  match node.args with
  | [.constant (.str path)] =>
    match Memory.steps path with
    | .ok _ => .ok ()
    | .error e => .error ⟨node, .badPath e⟩
  | _ => .error ⟨node, .accessorPath⟩

end Rule

/-- The variable that an iterator argument names: the path itself, when it is a single key. -/
def Expr.iterator? (iterator : Expr) : Option String :=
  match iterator.path? with
  | none => none
  | some path =>
    match Path.parse path with
    | .ok [.key _] => some path
    | _ => none

/-- Three children, the second an iterator. -/
def Rule.iteration : Rule :=
  all [exactly 3, fun _ node =>
    match node.args[1]?.bind Expr.iterator? with
    | some _ => .ok ()
    | none => .error ⟨node, .iterator⟩]

end Formula
