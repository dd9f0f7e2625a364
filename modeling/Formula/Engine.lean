import Formula.Builtins.All
import Formula.Eval
import Formula.Expr.Json

/-! The engine: the standard functions and those of a host, and the settings that expressions
run with unless they are given their own. An expression is bound once and run any number of
times. -/
namespace Formula

inductive Error
  | validation (error : ShapeError)
  | evaluation (fault : Fault)
  | lookup (name : String)
  | tooDeep (depth limit : Nat)
  | registry (error : RegistryError)
  | tree (error : TreeError)

namespace Error

def message : Error → String
  | .validation e => "Validation error: " ++ e.message
  | .evaluation e => "Evaluation error: " ++ e.message
  | .lookup name => "Lookup error: " ++ unknownFunctionMessage name
  | .tooDeep depth limit => "Resource limit exceeded: " ++ (EvalError.tooDeep depth limit).message
  | .registry e => "Registry error: " ++ e.message
  | .tree e => "Invalid expression tree: " ++ e.message

def ofEval : EvalError → Error
  | .fault cause => .evaluation cause
  | .unknownFunction name => .lookup name
  | .tooDeep depth limit => .tooDeep depth limit

def ofBind : BindError → Error
  | .unknownFunction name => .lookup name
  | .shape e => .validation e

end Error

structure Engine where
  registry : Registry
  defaults : Options

/-- A tree that passed the rules of every function it calls. -/
structure Bound where
  expr : Expr
  engine : Engine

namespace Engine

/-- The standard functions first, then those of the host, which cannot take their names. -/
def new (defaults : Options) (host : Setup) : Except Error Engine :=
  match host.run Registry.builtins with
  | (registry, .ok ()) => .ok ⟨registry, defaults⟩
  | (_, .error e) => .error (.registry e)

def bind (engine : Engine) (e : Expr) : Except Error Bound :=
  match engine.registry.validateTree e with
  | .ok () => .ok ⟨e, engine⟩
  | .error error => .error (.ofBind error)

def bindJson (engine : Engine) (json : Json) : Except Error Bound :=
  match Expr.ofJson json with
  | .ok e => engine.bind e
  | .error error => .error (.tree error)

end Engine

namespace Bound

def runWith (bound : Bound) (options : Options) (memory : Memory) : Except Error Value :=
  match bound.expr.eval bound.engine.registry options memory with
  | .ok v => .ok v
  | .error e => .error (.ofEval e)

def run (bound : Bound) (memory : Memory) : Except Error Value :=
  bound.runWith bound.engine.defaults memory

end Bound

end Formula
