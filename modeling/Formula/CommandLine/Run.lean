import Formula.CommandLine.Arguments
import Formula.Engine
import Formula.Json.Reader

/-! The command line as a function from arguments and readable texts to what is printed. -/
namespace Formula.CommandLine

/-- What can be read: the standard input, once, and files by their path. -/
structure Inputs where
  stdin : Option String
  file : String → Option String

/-- Failures that end with exit code 1. -/
inductive Failure
  | unreadable (path : String)
  | invalidJson (path : String)
  | engine (error : Error)

def Failure.code : Failure → String
  | .unreadable _ => "glint::io"
  | .invalidJson _ => "glint::json"
  | .engine (.tree _) => "glint::tree"
  | .engine (.validation _) => "glint::validation"
  | .engine (.lookup _) => "glint::lookup"
  | .engine (.tooDeep ..) => "glint::resource"
  | .engine (.evaluation _) | .engine (.registry _) => "glint::evaluation"

def Failure.message : Failure → String
  | .unreadable path => s!"could not read {path}"
  | .invalidJson path => s!"{path} is not valid JSON"
  | .engine error => error.message

def Failure.help : Failure → Option String
  | .engine (.tree _) =>
    some "nodes look like \x7b\"call\": \"name\", \"args\": [...]\x7d or \x7b\"path\": \"a.b\"\x7d"
  | .engine (.validation _) =>
    some "check the number and kind of arguments passed to the function"
  | .engine (.lookup _) => some "run `glint functions` to list what is available"
  | .engine (.tooDeep ..) => some "raise the limit with --max-depth"
  | _ => none

inductive Ending
  | success
  | misuse
  | failure (failure : Failure)

structure Result where
  stdout : String
  ending : Ending

def Result.exit (result : Result) : Nat :=
  match result.ending with
  | .success => 0
  | .failure _ => 1
  | .misuse => 2

def programHelp : String :=
"Evaluate Glint expression trees

Usage: glint <COMMAND>

Commands:
  eval       Evaluate a JSON expression tree
  functions  List the built-in functions and their return types
  help       Print this message or the help of the given subcommand(s)

Options:
  -h, --help  Print help
"

def evalHelp : String :=
"Evaluate a JSON expression tree

Usage: glint eval [OPTIONS] <TREE>

Arguments:
  <TREE>  Path to the tree, or `-` to read it from stdin

Options:
      --memory <MEMORY>        JSON document the tree's accessors read from
      --locale <LOCALE>        Culture tag used for number formatting (e.g. `de-DE`)
      --max-depth <MAX_DEPTH>  Maximum evaluation depth
      --debug-tree             Print the decoded tree before evaluating it
  -h, --help                   Print help
"

def functionsHelp : String :=
"List the built-in functions and their return types

Usage: glint functions

Options:
  -h, --help  Print help
"

def helpHelp : String :=
"Print this message or the help of the given subcommand(s)

Usage: glint help [COMMAND]...

Arguments:
  [COMMAND]...  Print help for the subcommand(s)
"

def Topic.text : Topic → String
  | .program => programHelp
  | .eval => evalHelp
  | .functions => functionsHelp
  | .help => helpHelp

/-- How deeply a document may be nested. -/
def room : Nat := 127

def readText (inputs : Inputs) (path : String) : Except Failure String :=
  match if path = "-" then inputs.stdin else inputs.file path with
  | some text => .ok text
  | none => .error (.unreadable path)

def readJson (inputs : Inputs) (path : String) : Except Failure Json := do
  match Json.read? room (← readText inputs path) with
  | some json => return json
  | none => throw (.invalidJson path)

/-- The inputs after `path` was read: nothing is left of the standard input. -/
def Inputs.after (inputs : Inputs) (path : String) : Inputs :=
  if path = "-" then { inputs with stdin := some "" } else inputs

def options (arguments : EvalArguments) : Options :=
  { maxDepth := arguments.maxDepth.getD ({} : Options).maxDepth
    locale := arguments.locale }

def bindTree (arguments : EvalArguments) (inputs : Inputs) (tree : String) :
    Except Failure Bound := do
  let engine ← (Engine.new (options arguments) (.done (.ok ()))).mapError .engine
  let json ← readJson inputs tree
  (engine.bindJson json).mapError .engine

def readMemory (inputs : Inputs) : Option String → Except Failure Memory
  | none => .ok .empty
  | some path => do return .document (.ofJson (← readJson inputs path))

def evaluate (arguments : EvalArguments) (inputs : Inputs) (bound : Bound) :
    Except Failure Value := do
  let memory ← readMemory inputs arguments.memory
  (bound.run memory).mapError .engine

def debugText (bound : Bound) : String := "=== Expression ===\n" ++ bound.expr.render ++ "\n\n"

def runEval (tree : String) (arguments : EvalArguments) (inputs : Inputs) : Result :=
  match bindTree arguments inputs tree with
  | .error failure => ⟨"", .failure failure⟩
  | .ok bound =>
    let shown := if arguments.debugTree then debugText bound else ""
    match evaluate arguments (inputs.after tree) bound with
    | .error failure => ⟨shown, .failure failure⟩
    | .ok v => ⟨shown ++ v.toJson.render ++ "\n", .success⟩

def listing : String :=
  String.join <| Registry.builtins.describe.map fun (name, types) =>
    name.pushn ' ' (16 - name.length) ++ " " ++ types.render ++ "\n"

def Request.sources : Request → List String
  | .eval tree arguments => tree :: arguments.memory.toList
  | _ => []

def run (request : Request) (inputs : Inputs) : Result :=
  match request with
  | .eval tree arguments => runEval tree arguments inputs
  | .functions => ⟨listing, .success⟩
  | .help topic => ⟨topic.text, .success⟩
  | .misuse => ⟨"", .misuse⟩

end Formula.CommandLine
