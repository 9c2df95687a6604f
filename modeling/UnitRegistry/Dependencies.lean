import UnitRegistry.Symbol
/-!
Dependency edges of a unit. While edges are not tracked, additions are dropped and both sets read as empty;
whether they are tracked is asked anew on every call.
-/
set_option autoImplicit false

namespace UnitRegistry

structure DependencyTracker where
  depends : List Symbol := []
  defined : List Symbol := []
deriving DecidableEq, Inhabited

namespace DependencyTracker

def addDependency (tracking : Bool) (symbol : Option Symbol) (t : DependencyTracker) : DependencyTracker :=
  match symbol with
  | none => t
  | some s => if tracking then { t with depends := t.depends.insert s } else t

def addDefinition (tracking : Bool) (symbol : Option Symbol) (t : DependencyTracker) : DependencyTracker :=
  match symbol with
  | none => t
  | some s => if tracking then { t with defined := t.defined.insert s } else t

def dependencies (tracking : Bool) (t : DependencyTracker) : List Symbol := if tracking then t.depends else []

def definitions (tracking : Bool) (t : DependencyTracker) : List Symbol := if tracking then t.defined else []

end DependencyTracker

end UnitRegistry
