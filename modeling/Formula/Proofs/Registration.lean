import Formula.Engine
import Formula.Proofs.Extension

/-! A registry is a map that is written once. Functions come to it one at a time or in packages, and a
package ends with the first of its functions whose name is taken; whatever is asked of a registry, a name
keeps the function that came first, and the listings show every name once. -/
namespace Formula

def Registration.functions : Registration → List Function
  | .one function => [function]
  | .package group => group.functions

namespace Registry

/-- The registry after any number of calls, those that fail included. -/
def after (registry : Registry) (calls : List Registration) : Registry :=
  calls.foldl (fun registry call => (registry.perform call).1) registry

/-- The functions of a list that are handed over one after the other, the last of them in vain when its
name is taken. -/
def offered (registry : Registry) : List Function → List Function
  | [] => []
  | function :: rest =>
    if registry.contains function.name then [function]
    else function :: offered ⟨registry.functions ++ [function]⟩ rest

/-- All functions ever handed over, the first one first. -/
def history (registry : Registry) : List Registration → List Function
  | [] => []
  | call :: rest => registry.offered call.functions ++ (registry.perform call).1.history rest

/-- No two functions share a name. -/
def Distinct (registry : Registry) : Prop := (registry.functions.map (·.name)).Nodup

section Registering

variable {registry : Registry} {function : Function} {functions rest : List Function} {name : String}

theorem perform_eq (call : Registration) : registry.perform call = registry.registerAll call.functions := by
  cases call with
  | one function =>
    cases known : registry.contains function.name with
    | true => simp only [perform, Registration.functions, register_taken known, registerAll_taken known]
    | false =>
      simp only [perform, Registration.functions, register_fresh known, registerAll_fresh known, registerAll]
  | package group => rfl

theorem distinct_append (distinct : registry.Distinct) (fresh : registry.contains function.name = false) :
    (⟨registry.functions ++ [function]⟩ : Registry).Distinct := by
  have apart : function.name ∉ registry.functions.map (·.name) := by simp [← contains_iff, fresh]
  rw [Distinct, List.map_append]
  refine List.nodup_append.2 ⟨distinct, by simp, ?_⟩
  rintro known member _ same rfl
  obtain rfl := List.mem_singleton.1 same
  exact apart member

theorem distinct_registerAll (functions : List Function) : ∀ registry : Registry, registry.Distinct →
    (registry.registerAll functions).1.Distinct := by
  induction functions with
  | nil => exact fun registry distinct => distinct
  | cons function rest ih =>
    intro registry distinct
    cases known : registry.contains function.name with
    | true => rwa [registerAll_taken known]
    | false =>
      rw [registerAll_fresh known]
      exact ih _ (distinct_append distinct known)

theorem find?_registerAll (name : String) (functions : List Function) : ∀ registry : Registry,
    (registry.registerAll functions).1.find? name =
      (registry.functions ++ registry.offered functions).find? (·.name == name) := by
  induction functions with
  | nil => intro registry; simp [registerAll, offered, find?]
  | cons function rest ih =>
    intro registry
    cases known : registry.contains function.name with
    | true =>
      -- The function that comes in vain stands behind the one that has its name.
      rw [registerAll_taken known, offered, if_pos known, List.find?_append, ← find?]
      cases found : registry.find? name with
      | some first => rfl
      | none =>
        have other : (function.name == name) = false := by
          rw [beq_eq_false_iff_ne]
          rintro rfl
          simp [contains, found] at known
        simp [other]
    | false =>
      rw [registerAll_fresh known, ih, offered, if_neg (by simp [known]), List.append_assoc,
        List.singleton_append]

/-- Either all names of a list are new or there is a first one that is taken. -/
theorem fresh_or_taken (registry : Registry) (functions : List Function) :
    (∀ f ∈ functions, registry.contains f.name = false) ∨
    ∃ added taken rest, functions = added ++ taken :: rest ∧
      (∀ f ∈ added, registry.contains f.name = false) ∧ registry.contains taken.name = true := by
  cases found : functions.find? fun f => registry.contains f.name with
  | none => exact .inl fun f member => by simpa using List.find?_eq_none.1 found f member
  | some taken =>
    obtain ⟨known, added, rest, split, fresh⟩ := List.find?_eq_some_iff_append.1 found
    exact .inr ⟨added, taken, rest, split, fun f member => by simpa using fresh f member, known⟩

theorem fresh_of_registerAll (functions : List Function) : ∀ registry extended : Registry,
    registry.registerAll functions = (extended, .ok ()) →
    ∀ f ∈ functions, registry.contains f.name = false := by
  induction functions with
  | nil => simp
  | cons function rest ih =>
    intro registry extended done
    cases known : registry.contains function.name with
    | true => rw [registerAll_taken known] at done; cases done
    | false =>
      rw [registerAll_fresh known] at done
      refine List.forall_mem_cons.2 ⟨known, fun f member => ?_⟩
      have later := ih _ _ done f member
      rw [← Bool.not_eq_true, contains_append] at later
      exact Bool.not_eq_true _ ▸ fun before => later (.inl before)

theorem nodup_package (group : Builtins.Package) : (group.functions.map (·.name)).Nodup := by
  cases group <;> decide +kernel

/-- A package is taken as a whole, or as far as its first name that is bound. -/
theorem perform_package (registry : Registry) (group : Builtins.Package) :
    (∀ f ∈ group.functions, registry.contains f.name = false) ∧
      registry.perform (.package group) = (⟨registry.functions ++ group.functions⟩, .ok ()) ∨
    ∃ added taken rest, group.functions = added ++ taken :: rest ∧
      (∀ f ∈ added, registry.contains f.name = false) ∧ registry.contains taken.name = true ∧
      registry.perform (.package group) = (⟨registry.functions ++ added⟩, .error (.duplicate taken.name)) := by
  have distinct := nodup_package group
  rcases registry.fresh_or_taken group.functions with fresh | ⟨added, taken, rest, split, fresh, known⟩
  · have all := registerAll_append group.functions [] registry distinct fresh
    rw [List.append_nil] at all
    exact .inl ⟨fresh, all⟩
  · refine .inr ⟨added, taken, rest, split, fresh, known, ?_⟩
    rw [split, List.map_append, List.nodup_append] at distinct
    change registry.registerAll group.functions = _
    rw [split, registerAll_append added _ registry distinct.1 fresh,
      registerAll_taken (contains_append.2 (.inl known))]

end Registering

section Calls

variable {registry : Registry} (calls : List Registration)

theorem after_cons (call : Registration) : registry.after (call :: calls) = (registry.perform call).1.after calls :=
  rfl

theorem after_append (more : List Registration) :
    registry.after (calls ++ more) = (registry.after calls).after more := by
  rw [after, List.foldl_append]
  rfl

theorem distinct_after (distinct : registry.Distinct) : (registry.after calls).Distinct := by
  induction calls generalizing registry with
  | nil => exact distinct
  | cons call rest ih =>
    rw [after_cons, perform_eq]
    exact ih (distinct_registerAll _ registry distinct)

/-- A run of calls binds a name to the first function ever handed over under it. -/
theorem find?_after (name : String) : (registry.after calls).find? name =
    (registry.functions ++ registry.history calls).find? (·.name == name) := by
  induction calls generalizing registry with
  | nil => simp [after, history, find?]
  | cons call rest ih =>
    rw [after_cons, ih, List.find?_append, ← find?, perform_eq, find?_registerAll, ← List.find?_append,
      history, perform_eq, List.append_assoc]

theorem extends_after : (registry.after calls).Extends registry := by
  intro name function found
  rw [find?_after, List.find?_append, ← find?, found]
  rfl

theorem Extends.fresh {extended : Registry} {name : String} (more : extended.Extends registry)
    (fresh : extended.contains name = false) : registry.contains name = false := by
  cases found : registry.find? name with
  | none => simp [contains, found]
  | some function =>
    rw [contains, more name function found] at fresh
    cases fresh

end Calls

section Hosts

/-- Whatever a host does comes to a run of calls. -/
theorem run_after (host : Setup) : ∀ registry : Registry,
    ∃ calls, (host.run registry).1 = registry.after calls := by
  induction host with
  | done verdict => exact fun registry => ⟨[], rfl⟩
  | look next ih => exact fun registry => ih registry registry
  | ask call next ih =>
    intro registry
    obtain ⟨calls, same⟩ := ih (registry.perform call).2 (registry.perform call).1
    exact ⟨call :: calls, same⟩

theorem fresh_of_each (calls : List Registration) : ∀ registry : Registry,
    ((Setup.each calls).run registry).2 = .ok () →
    ∀ call ∈ calls, ∀ f ∈ call.functions, registry.contains f.name = false := by
  induction calls with
  | nil => simp
  | cons call rest ih =>
    intro registry accepted
    have kept : (registry.perform call).1.Extends registry := extends_after [call]
    rcases answered : registry.perform call with ⟨extended, verdict⟩
    simp only [Setup.each, Setup.run, answered] at accepted kept
    cases verdict with
    | error e => cases accepted
    | ok done =>
      refine List.forall_mem_cons.2 ⟨?_, fun other member f inside => ?_⟩
      · exact fresh_of_registerAll _ registry extended (perform_eq call ▸ answered)
      · exact kept.fresh (ih extended accepted other member f inside)

end Hosts

section Listings

variable {registry : Registry}

theorem names_perm (registry : Registry) : registry.names.Perm (registry.functions.map (·.name)) :=
  List.mergeSort_perm _ _

theorem mem_names {name : String} : name ∈ registry.names ↔ registry.contains name = true := by
  rw [(names_perm registry).mem_iff, contains_iff]

theorem length_names (registry : Registry) : registry.names.length = registry.size := by
  rw [(names_perm registry).length_eq, List.length_map, size]

theorem names_ascending (distinct : registry.Distinct) : registry.names.Pairwise (· < ·) := by
  have sorted : registry.names.Pairwise fun a b => decide (a ≤ b) = true := by
    apply List.pairwise_mergeSort
    · intro a b c first second
      simp only [decide_eq_true_eq] at first second ⊢
      exact String.le_trans first second
    · intro a b
      simpa using String.le_total a b
  have apart : registry.names.Pairwise (· ≠ ·) := (names_perm registry).nodup_iff.2 distinct
  refine (sorted.and apart).imp ?_
  rintro a b ⟨le, different⟩
  exact Std.lt_of_le_of_ne (of_decide_eq_true le) different

theorem describe_names (registry : Registry) : registry.describe.map (·.1) = registry.names := by
  have each : ∀ names : List String, (∀ name ∈ names, registry.contains name = true) →
      ((names.filterMap fun name => (registry.find? name).map fun f => (name, f.returns)).map (·.1)) = names := by
    intro names bound
    induction names with
    | nil => rfl
    | cons name rest ih =>
      obtain ⟨here, later⟩ := List.forall_mem_cons.1 bound
      obtain ⟨f, found⟩ := Option.isSome_iff_exists.1 here
      simp [found, ih later]
  exact each _ fun name => mem_names.1

end Listings

theorem run_new {defaults : Options} {host : Setup} {engine : Engine}
    (made : Engine.new defaults host = .ok engine) : host.run builtins = (engine.registry, .ok ()) := by
  rw [Engine.new] at made
  split at made
  · rename_i registry accepted
    cases made
    exact accepted
  · cases made

/-- A registry is a map that is written once. After any calls on an empty registry, those that fail
included, a name is bound to the first function ever handed over under it and stays bound to it. A function
whose name is bound is refused and changes nothing. A package is refused exactly when one of its names is
bound; it reports the first of them and has then added the functions before it, and no others. The names
are listed in strictly ascending order and are those that are bound, and all listings have one length. So
no host rebinds a standard function, whatever it asks for. -/
theorem write_once (calls : List Registration) :
    let registry := empty.after calls
    (∀ name, registry.find? name = (empty.history calls).find? (·.name == name)) ∧
    (∀ more, (empty.after (calls ++ more)).Extends registry) ∧
    (∀ f, (registry.contains f.name = true →
        registry.perform (.one f) = (registry, .error (.duplicate f.name))) ∧
      (registry.contains f.name = false →
        registry.perform (.one f) = (⟨registry.functions ++ [f]⟩, .ok ()))) ∧
    (∀ group : Builtins.Package,
      ((registry.perform (.package group)).2 = .ok () ↔
        ∀ f ∈ group.functions, registry.contains f.name = false) ∧
      ((registry.perform (.package group)).2 = .ok () →
        (registry.perform (.package group)).1 = ⟨registry.functions ++ group.functions⟩) ∧
      ∀ error, (registry.perform (.package group)).2 = .error error →
        ∃ added taken rest, group.functions = added ++ taken :: rest ∧
          (∀ f ∈ added, registry.contains f.name = false) ∧ registry.contains taken.name = true ∧
          error = .duplicate taken.name ∧
          (registry.perform (.package group)).1 = ⟨registry.functions ++ added⟩) ∧
    registry.names.Pairwise (· < ·) ∧ (∀ name, name ∈ registry.names ↔ registry.contains name = true) ∧
    registry.names.length = registry.size ∧ registry.describe.length = registry.size ∧
    (builtins.after calls).Extends builtins ∧
    ∀ defaults host engine, Engine.new defaults host = .ok engine →
      engine.registry.Extends builtins ∧
      (∃ asked, engine.registry = empty.after (.package .standard :: asked)) ∧
      ∀ asked, host = .each asked →
        ∀ call ∈ asked, ∀ f ∈ call.functions, builtins.contains f.name = false := by
  intro registry
  have distinct : registry.Distinct := distinct_after calls (by simp [Distinct, empty])
  refine ⟨find?_after calls, fun more => ?_, fun f => ⟨fun taken => ?_, fun fresh => ?_⟩, fun group => ?_,
    names_ascending distinct, fun name => mem_names, length_names registry, ?_, extends_after calls,
    fun _ host engine made => ?_⟩
  · rw [after_append]
    exact extends_after more
  · rw [perform, register_taken taken]
  · rw [perform, register_fresh fresh]
  · rcases perform_package registry group with ⟨fresh, done⟩ | ⟨added, taken, rest, split, fresh, known, done⟩
    · rw [done]
      exact ⟨iff_of_true rfl fresh, fun _ => rfl, fun error failed => by cases failed⟩
    · rw [done]
      have member : taken ∈ group.functions := by simp [split]
      refine ⟨iff_of_false (by simp) fun all => ?_, by simp, ?_⟩
      · rw [all taken member] at known
        cases known
      · rintro _ ⟨⟩
        exact ⟨added, taken, rest, split, fresh, known, rfl, rfl⟩
  · rw [← length_names, ← describe_names, List.length_map]
  · have accepted := run_new made
    obtain ⟨asked, same⟩ := run_after host builtins
    rw [accepted] at same
    have kept : (builtins.after asked).Extends builtins := extends_after asked
    rw [← same] at kept
    refine ⟨kept, ⟨asked, same⟩, ?_⟩
    rintro asked rfl
    exact fresh_of_each asked builtins (congrArg Prod.snd accepted)

def counter : Function := ⟨"length", .number, Rule.anything, fun _ => .succeed (.int 0)⟩

/-- A host that does not care whether it gets the name. -/
def careless : Setup := .ask (.one counter) fun _ => .done (.ok ())

/-- Registered first, it stops the functions on texts after `concat` and keeps its name whatever follows;
registered over the standard functions, it is refused, and a host that goes on without it finds the standard
one. -/
theorem write_once_counter :
    let registry := empty.after [.one counter, .package .texts]
    ((empty.after [.one counter]).perform (.package .texts)).2 = .error (.duplicate "length") ∧
    registry.names.length = 2 ∧ registry.describe.length = 2 ∧ "concat" ∈ registry.names ∧
    "trim" ∉ registry.names ∧
    (empty.after ([.one counter, .package .texts] ++ [.package .standard])).find? "length" = some counter ∧
    (∀ rest engine, Engine.new {} (.each (.one counter :: rest)) ≠ .ok engine) ∧
    ∃ engine, Engine.new {} careless = .ok engine ∧
      engine.registry.find? "length" = builtins.find? "length" := by
  intro registry
  obtain ⟨first, stays, _, _, _, bound, names, described, _, made⟩ := write_once [.one counter, .package .texts]
  have size : registry.size = 2 := rfl
  have accepted : Engine.new {} careless = .ok ⟨_, {}⟩ := rfl
  have kept : registry.find? "length" = some counter := first "length"
  refine ⟨rfl, names.trans size, described.trans size, (bound _).2 (by decide +kernel), fun listed => ?_,
    stays _ _ _ kept, fun rest engine hosted => ?_, ⟨_, accepted, ?_⟩⟩
  · exact absurd ((bound _).1 listed) (by decide +kernel)
  · have fresh := (made {} _ engine hosted).2.2 _ rfl _ List.mem_cons_self counter List.mem_cons_self
    rw [builtins_eq] at fresh
    exact absurd fresh (by decide +kernel)
  · have standard : ∃ length, builtins.find? "length" = some length := ⟨_, by rw [builtins_eq]; rfl⟩
    obtain ⟨length, found⟩ := standard
    rw [found]
    exact (made {} careless _ accepted).1 _ _ found

end Registry

end Formula
