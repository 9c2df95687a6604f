import UnitRegistry.State.Reporting
import UnitRegistry.State.Units

set_option autoImplicit false

namespace UnitRegistry

namespace State

def addRun (s : State) (context : ContextRef) : State × RunRef :=
  ({ s with runs := s.runs.push { context } }, s.runs.size)

def addSource (s : State) (ref : RunRef) (source : Option FileRef) : EStateM.Result Fault State UnitRef :=
  match source with
  | none => .error .nullSource s
  | some file =>
      let s := s.emit (.submitted ref file)
      match (s.run ref).unitOf? (some file) with
      | some unit => .ok unit s
      | none =>
          let (s, unit) := s.addUnit (some file) (s.run ref).context
          let s := s.modifyRun ref (·.register file unit)
          let number := Text.ofNat (s.run ref).unitCount
          .ok unit (s.trace .debug "run" ("Added unit " ++ (s.unit unit).render ++ " (#" ++ number ++ ")"))

def unitOf (s : State) (ref : RunRef) (source : Option FileRef) : UnitRef :=
  ((s.run ref).unitOf? source).getD nullUnit

def pendingUnits (s : State) (ref : RunRef) : List UnitRef :=
  (s.run ref).units.filter fun unit => (s.unit unit).isPresent && !(s.run ref).isCompiled unit

def runReporter (s : State) (ref : RunRef) : ReporterRef := (s.context (s.run ref).context).reporter

def runHasErrors (s : State) (ref : RunRef) : Bool := s.hasErrors (s.runReporter ref)

-- Whether the run is complete is decided by the errors so far; if it is, its units count as compiled.
def completeRun (s : State) (ref : RunRef) (units : List UnitRef) : State :=
  if s.runHasErrors ref then s.modifyRun ref (·.setComplete false)
  else s.modifyRun ref fun run => (run.setComplete true).markCompiled units

def logStart (s : State) (phase : Phase) (units : List UnitRef) : State :=
  s.trace .debug "run" ("Running phase " ++ phase.name ++ " on " ++ Text.ofNat units.length ++ " unit(s)")

def logStop (s : State) (ref : RunRef) (phase : Phase) : State :=
  let errors := Text.ofNat ((s.reporter (s.runReporter ref)).count .error)
  s.trace .info "run" ("Stopping before phase " ++ phase.name ++ ": " ++ errors ++ " error(s)")

def logEnd (s : State) (ref : RunRef) : State :=
  let reporter := s.reporter (s.runReporter ref)
  let verdict : Text := if (s.run ref).complete then "completed" else "failed"
  s.trace .info "run" ("Run " ++ verdict ++ " with " ++ Text.ofNat (reporter.count .error) ++ " error(s), " ++
    Text.ofNat (reporter.count .warning) ++ " warning(s)")

def logChecks (s : State) (unit : UnitRef) (count : Nat) : State :=
  if count = 0 then s
  else
    s.trace .debug "unit" ("Ran " ++ Text.ofNat count ++ " deferred check(s) for " ++ (s.unit unit).render)

end State

end UnitRegistry
