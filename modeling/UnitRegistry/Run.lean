import UnitRegistry.Unit
/-!
Runs: the registry of units by source, which of them went through a complete run, and whether the run is
complete now.
-/
set_option autoImplicit false

namespace UnitRegistry

abbrev RunRef := Nat

structure Phase where
  name : Text
  routine : RoutineRef
deriving DecidableEq, Inhabited

structure Run where
  context : ContextRef
  registry : List (FileRef × UnitRef) := []
  compiled : List UnitRef := []
  complete : Bool := false
deriving DecidableEq, Inhabited

namespace Run

def units (r : Run) : List UnitRef := r.registry.map Prod.snd

def unitCount (r : Run) : Nat := r.registry.length

def unitOf? (r : Run) (source : Option FileRef) : Option UnitRef := source.bind fun file => r.registry.lookup file

def isCompiled (r : Run) (unit : UnitRef) : Bool := r.compiled.contains unit

def register (r : Run) (source : FileRef) (unit : UnitRef) : Run :=
  { r with registry := r.registry ++ [(source, unit)], complete := false }

def setComplete (r : Run) (complete : Bool) : Run := { r with complete }

def markCompiled (r : Run) (units : List UnitRef) : Run :=
  { r with compiled := units.foldl (fun compiled unit => compiled.insert unit) r.compiled }

end Run

end UnitRegistry
