import UnitRegistry.Disk
import UnitRegistry.Journal
import UnitRegistry.Log.Sink
import UnitRegistry.Store

set_option autoImplicit false

namespace UnitRegistry

inductive CacheRef where
  | unit (unit : UnitRef)
  | single (index : Nat)
deriving DecidableEq, Inhabited

structure SingleAccumulator where
  reporter : ReporterRef
  accumulator : Accumulator
deriving DecidableEq, Inhabited

structure State where
  options : Options := {}
  environment : Environment := {}
  disk : Disk := {}
  logger : Log.Logger := {}
  sinks : Store Log.Sink := {}
  heldSinks : List Log.SinkRef := []
  heap : Heap := {}
  reporters : Store Reporter := {}
  contexts : Store RunContext := {}
  accumulators : Store SingleAccumulator := {}
  units : Store CompilationUnit := {}
  caches : Store ObservedSynthetics := {}
  runs : Store Run := {}
  journal : Array Event := #[]

namespace State

def defaultReporter : ReporterRef := 0
def defaultContext : ContextRef := 0
def nullUnit : UnitRef := 0

-- The null unit reports on the error stream, and no run ever summarizes its context, so every category of it
-- is shown at once.
def start : State :=
  { heap := ({} : Heap).push {}
    reporters := ({} : Store Reporter).push { display := .console .standardError false }
    contexts := ({} : Store RunContext).push (.create defaultReporter ⟨true, true, true⟩)
    units := ({} : Store CompilationUnit).push (.null defaultContext 0) }

instance : Inhabited State := ⟨start⟩

def emit (s : State) (event : Event) : State := { s with journal := s.journal.push event }

def setOptions (s : State) (options : Options) : State := { s with options }

def setEnvironment (s : State) (environment : Environment) : State := { s with environment }

def reporter (s : State) (ref : ReporterRef) : Reporter := s.reporters.get ref

def context (s : State) (ref : ContextRef) : RunContext := s.contexts.get ref

def unit (s : State) (ref : UnitRef) : CompilationUnit := s.units.get ref

def run (s : State) (ref : RunRef) : Run := s.runs.get ref

def modifyReporter (s : State) (ref : ReporterRef) (f : Reporter → Reporter) : State :=
  { s with reporters := s.reporters.modify ref f }

def modifyContext (s : State) (ref : ContextRef) (f : RunContext → RunContext) : State :=
  { s with contexts := s.contexts.modify ref f }

def modifyUnit (s : State) (ref : UnitRef) (f : CompilationUnit → CompilationUnit) : State :=
  { s with units := s.units.modify ref f }

def modifyRun (s : State) (ref : RunRef) (f : Run → Run) : State := { s with runs := s.runs.modify ref f }

def tree (s : State) (ref : Option NodeRef) : Tree := s.heap.tree ref

end State

end UnitRegistry
