import Formula.Expr.Printer
import Formula.Memory
import Formula.Value.Convert

/-! Why an evaluation ends without a value. A fault is a function that cannot work with what it
was given; its message names the sub-expression as the caller wrote it. -/
namespace Formula

inductive Check
  | number
  | integer
  | string
  | stringOrNull
  | numberOrString
  | array
  | notNull
  deriving DecidableEq, Repr

def Check.passes : Check → Value → Bool
  | .number, v => v.isNumber
  | .integer, v => v.isInteger
  | .string, .str _ => true
  | .stringOrNull, .str _ | .stringOrNull, .null => true
  | .numberOrString, .int _ | .numberOrString, .float _ | .numberOrString, .str _ => true
  | .array, .array _ => true
  | .notNull, v => !v.isNull
  | _, _ => false

def Check.complaint : Check → String
  | .number => "is not a number"
  | .integer => "is not an integer"
  | .string => "is not a string"
  | .stringOrNull => "is neither a string nor null"
  | .numberOrString => "is neither a number nor a string"
  | .array => "is not an array"
  | .notNull => "is null"

/-- What is wrong with one node. The first group is about its shape and cannot arise in a bound
tree; the rest is about the values it met. -/
inductive Complaint
  | argumentCount (expected found : Nat)
  | roundArguments (found : Nat)
  | substringArguments (found : Nat)
  | noArguments
  | noValue
  | noPath
  | noBranches
  | notThreeArguments
  | noIterator
  | check (demand : Check)
  | conversion (error : CastError)
  | index (collection key : Kind)
  | notNumbers
  | emptyArray
  | roundDigits
  | incomparable (left right : Kind)
  | noLength (found : Kind)
  | notText (found : Kind)
  | textBounds
  | textRange (length : Nat)
  | emptyPattern
  | fractionalTicks
  | notWhole (found : Kind)
  | notNumeric (found : Kind)
  | notBoolean (text : String)
  | notTimestamp (found : Kind)
  | noUnits
  | dateRange
  | tickRange
  | uncountable (found : Kind)
  | unsearchable (needle collection : Kind)
  | unjoinable (found : Kind)
  | propertyName (found : Kind)
  | noProperties (found : Kind)
  | notIterable (found : Kind)

def arguments (n : Nat) : String := if n = 1 then "argument" else "arguments"

def Complaint.text : Complaint → String
  | .argumentCount n found =>
    s!"should have exactly {n} {arguments n}, found {found}"
  | .roundArguments found => s!"should have 1 or 2 arguments, found {found}"
  | .substringArguments found => s!"should have 2 or 3 arguments, found {found}"
  | .noArguments => "has no arguments"
  | .noValue => "has no value"
  | .noPath => "has no path"
  | .noBranches => "should have a condition and two branches"
  | .notThreeArguments => "should have three arguments"
  | .noIterator => "has no iterator variable"
  | .check demand => demand.complaint
  | .conversion error => error.message
  | .index collection key => s!"can't index {collection.name} with {key.name}"
  | .notNumbers => "should contain an array of numbers"
  | .emptyArray => "should contain a non-empty array"
  | .roundDigits => "should round to between 0 and 15 digits"
  | .incomparable left right => s!"can't compare {left.name} with {right.name}"
  | .noLength found => s!"should contain a string or an array, found {found.name}"
  | .notText found => s!"is not a string, found {found.name}"
  | .textBounds => "should use non-negative integer bounds"
  | .textRange length => s!"is out of range for a string of length {length}"
  | .emptyPattern => "can't replace an empty string"
  | .fractionalTicks => "should contain an integer of ticks"
  | .notWhole found => s!"can't convert {found.name} to an integer"
  | .notNumeric found => s!"can't convert {found.name} to a number"
  | .notBoolean text => s!"can't read '{text}' as a boolean"
  | .notTimestamp found => s!"should contain a timestamp string, found {found.name}"
  | .noUnits => "should contain a number of units"
  | .dateRange => "is out of the supported date range"
  | .tickRange => "is out of range for ticks"
  | .uncountable found => s!"can't count {found.name}"
  | .unsearchable needle collection => s!"can't look for {needle.name} in {collection.name}"
  | .unjoinable found => s!"can't join {found.name}"
  | .propertyName found => s!"should name the property with a string, found {found.name}"
  | .noProperties found => s!"has no properties on {found.name}"
  | .notIterable found => s!"can't iterate over {found.name}"

inductive Fault
  | node (e : Expr) (complaint : Complaint)
  | overflow (operator : String) (left right : Value)
  | absOverflow (n : Int64)
  | divisionByZero
  | memory (error : MemoryError)
  | custom (message : String)

def Fault.message : Fault → String
  | .node e (.conversion error) => s!"{e.render}: {error.message}"
  | .node e complaint => s!"{e.render} {complaint.text}"
  | .overflow operator left right =>
    s!"integer overflow in {left.render} {operator} {right.render}"
  | .absOverflow n => s!"integer overflow in abs({n.toInt})"
  | .divisionByZero => "Cannot divide by 0"
  | .memory error => error.message
  | .custom message => message

/-- How an evaluation fails: by a fault, by a name no function has, or by its depth. -/
inductive EvalError
  | fault (cause : Fault)
  | unknownFunction (name : String)
  | tooDeep (depth limit : Nat)

def unknownFunctionMessage (name : String) : String := s!"'{name}' is not a registered function"

def EvalError.message : EvalError → String
  | .fault cause => cause.message
  | .unknownFunction name => unknownFunctionMessage name
  | .tooDeep depth limit => s!"evaluation stack overflow: depth {depth} exceeds maximum of {limit}"

end Formula
