import Formula.Builtins.Access
import Formula.Builtins.Arithmetic
import Formula.Builtins.Collections
import Formula.Builtins.Conversion
import Formula.Builtins.Dates
import Formula.Builtins.Logic
import Formula.Builtins.Strings

/-! The standard functions, in the order in which they are registered, and what a host can
register. -/
namespace Formula

namespace Builtins

def allWith (fallback : Fallback) : List Function :=
  accessPackage ++ arithmeticWith fallback ++ logicPackage ++ textPackage ++ conversionPackage ++
  datePackage ++ collectionPackage

def all : List Function := allWith .standard

/-- What a host registers with one call: a group of the standard functions, or all groups in
turn. -/
inductive Package
  | access | arithmetic | logic | texts | conversion | dates | collections | standard
  deriving DecidableEq, Repr

def Package.functions : Package → List Function
  | .access => accessPackage
  | .arithmetic => arithmeticPackage
  | .logic => logicPackage
  | .texts => textPackage
  | .conversion => conversionPackage
  | .dates => datePackage
  | .collections => collectionPackage
  | .standard => all

end Builtins

/-- The registry of the standard functions, whose names are all different. -/
def Registry.builtinsWith (fallback : Builtins.Fallback) : Registry :=
  (Registry.empty.registerAll (Builtins.allWith fallback)).1

def Registry.builtins : Registry := builtinsWith .standard

inductive Registration
  | one (function : Function)
  | package (group : Builtins.Package)

/-- A function that is refused leaves the registry as it is. -/
def Registry.perform (registry : Registry) : Registration → Registry × Except RegistryError Unit
  | .one function =>
    match registry.register function with
    | .ok extended => (extended, .ok ())
    | .error e => (registry, .error e)
  | .package group => registry.registerAll group.functions

/-- What a host does with a registry: it looks at it, asks for registrations and sees how each of
them ends, and in the end gives a verdict of its own. -/
inductive Setup
  | done (verdict : Except RegistryError Unit)
  | look (next : Registry → Setup)
  | ask (call : Registration) (next : Except RegistryError Unit → Setup)

namespace Setup

def run (registry : Registry) : Setup → Registry × Except RegistryError Unit
  | .done verdict => (registry, verdict)
  | .look next => (next registry).run registry
  | .ask call next =>
    let (registry, result) := registry.perform call
    (next result).run registry

/-- One registration after the other, until one is refused. -/
def each : List Registration → Setup
  | [] => .done (.ok ())
  | call :: rest => .ask call fun
    | .ok () => each rest
    | .error e => .done (.error e)

end Setup

end Formula
