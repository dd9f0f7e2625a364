import Formula.Decimal.Numeral

/-! The arguments of the command line. An option takes its value from the next argument or after
an equals sign; a next argument that looks like an option is none, a single hyphen is one. After
`--` every argument is positional. Each option may be given once. -/
namespace Formula.CommandLine

structure EvalArguments where
  tree : Option String := none
  memory : Option String := none
  locale : Option String := none
  maxDepth : Option Nat := none
  debugTree : Bool := false

inductive Topic
  | program
  | eval
  | functions
  | help
  deriving DecidableEq, Repr

inductive Request
  | eval (tree : String) (arguments : EvalArguments)
  | functions
  | help (topic : Topic)
  | misuse

/-- Whether an argument is `--help`, or `-h` with whatever letters follow. -/
def isHelp (argument : String) : Bool :=
  match argument.toList with
  | '-' :: 'h' :: _ => true
  | _ => argument == "--help"

def splitOption (text : List Char) : String × Option String :=
  match text.dropWhile (· != '=') with
  | [] => (String.ofList text, none)
  | _ :: value => (String.ofList (text.takeWhile (· != '=')), some (String.ofList value))

/-- A word of 64 bits, with an optional plus sign. -/
def word? (text : String) : Option Nat :=
  let digits := match text.toList with
    | '+' :: rest => rest
    | all => all
  (Numeral.natural? digits).filter (· < Nat.pow 2 64)

def isValue (argument : String) : Bool :=
  match argument.toList with
  | '-' :: _ :: _ => false
  | _ => true

/-- Sets an option that takes a value; `none` when it has one already or the value is bad. -/
def EvalArguments.set? (arguments : EvalArguments) (name value : String) : Option EvalArguments :=
  match name with
  | "memory" =>
    if arguments.memory.isSome ∨ value.isEmpty then none
    else some { arguments with memory := some value }
  | "locale" =>
    if arguments.locale.isSome then none else some { arguments with locale := some value }
  | "max-depth" =>
    if arguments.maxDepth.isSome then none
    else (word? value).map fun n => { arguments with maxDepth := some n }
  | _ => none

def EvalArguments.position? (arguments : EvalArguments) (value : String) : Option EvalArguments :=
  if arguments.tree.isSome then none else some { arguments with tree := some value }

def EvalArguments.request (arguments : EvalArguments) : Request :=
  match arguments.tree with
  | some tree => .eval tree arguments
  | none => .misuse

def positions (arguments : EvalArguments) : List String → Request
  | [] => arguments.request
  | argument :: rest =>
    match arguments.position? argument with
    | some arguments => positions arguments rest
    | none => .misuse

/-- The arguments of `eval`. `waiting` names an option whose value comes next. -/
def parseEval (arguments : EvalArguments) (waiting : Option String) : List String → Request
  | [] => if waiting.isSome then .misuse else arguments.request
  | argument :: rest =>
    match waiting with
    | some name =>
      if isValue argument then
        match arguments.set? name argument with
        | some arguments => parseEval arguments none rest
        | none => .misuse
      else .misuse
    | none =>
      if isHelp argument then .help .eval
      else
        match argument.toList with
        | ['-', '-'] => positions arguments rest
        | '-' :: '-' :: option =>
          match splitOption option with
          | ("debug-tree", none) =>
            if arguments.debugTree then .misuse
            else parseEval { arguments with debugTree := true } none rest
          | (name, some value) =>
            match arguments.set? name value with
            | some arguments => parseEval arguments none rest
            | none => .misuse
          | (name, none) =>
            if ["memory", "locale", "max-depth"].contains name then
              parseEval arguments (some name) rest
            else .misuse
        | '-' :: _ :: _ => .misuse
        | _ =>
          match arguments.position? argument with
          | some arguments => parseEval arguments none rest
          | none => .misuse

def parse : List String → Request
  | "eval" :: rest => parseEval {} none rest
  | ["functions"] | ["functions", "--"] => .functions
  | "functions" :: argument :: _ => if isHelp argument then .help .functions else .misuse
  | ["help"] => .help .program
  | ["help", "eval"] => .help .eval
  | ["help", "functions"] => .help .functions
  | ["help", "help"] => .help .help
  | argument :: _ => if isHelp argument then .help .program else .misuse
  | [] => .misuse

end Formula.CommandLine
