import UnitRegistry.Program
/-!
Sessions: running programs. The operations that call routines are written over the way to run a program, so
each is a rule of its own: incomplete input, the checks of a unit, the phases of a run.
-/
set_option autoImplicit false

namespace UnitRegistry

structure Session (Data : Type) where
  state : State := .start
  routines : Store (Cause → Program Data) := {}
  data : Data

inductive Stop where
  | fault (fault : Fault)
  | exhausted
deriving DecidableEq, Inhabited

-- What was done before a stop stays done.
abbrev Exec (Data : Type) := EStateM Stop (Session Data)

namespace Session

variable {Data : Type}

def current : Exec Data State := fun s => .ok s.state s

def update (f : State → State) : Exec Data Unit := fun s => .ok () { s with state := f s.state }

def perform (request : Request) : Exec Data request.Reply := fun ⟨state, routines, data⟩ =>
  match state.perform request with
  | .ok reply state => .ok reply ⟨state, routines, data⟩
  | .error fault state => .error (.fault fault) ⟨state, routines, data⟩

def define (body : Cause → Program Data) : Exec Data RoutineRef := fun s =>
  .ok s.routines.size { s with routines := s.routines.push body }

def own (change : Data → Data) : Exec Data Data := fun s =>
  let data := change s.data
  .ok data { s with data }

def routine (ref : RoutineRef) : Exec Data (Cause → Program Data) := fun s => .ok (s.routines.get ref) s

-- What was done before the fault stays done. Only a fault can be caught.
def attempt (x : Exec Data Unit) : Exec Data (Option Fault) := fun s =>
  match x s with
  | .ok _ s => .ok none s
  | .error (.fault fault) s => .ok (some fault) s
  | .error .exhausted s => .error .exhausted s

def incomplete (call : Program Data → Exec Data Unit) (reporter : ReporterRef) (remark : Remark) :
    Exec Data Unit := do
  match ((← current).reporter reporter).handler with
  | none => update (·.report reporter .error remark)
  | some handler =>
      let body ← routine handler.routine
      update (·.emit (.handlerStarted reporter handler remark))
      call (body (.incomplete remark))

-- A check leaves the queue before it starts. The answer is how many have run.
def drain (call : Program Data → Exec Data Unit) (unit : UnitRef) : Nat → Nat → Exec Data Nat
  | 0, _ => throw .exhausted
  | fuel + 1, ran => do
      match ((← current).unit unit).checks with
      | [] => return ran
      | check :: _ =>
          let body ← routine check.routine
          update fun s => (s.modifyUnit unit CompilationUnit.dropCheck).emit (.checkStarted unit check)
          call (body (.check unit))
          drain call unit fuel (ran + 1)

def runChecks (call : Program Data → Exec Data Unit) (fuel : Nat) (unit : UnitRef) : Exec Data Unit := do
  let ran ← drain call unit fuel 0
  update (·.logChecks unit ran)

def runPhaseOn (call : Program Data → Exec Data Unit) (run : RunRef) (phase : Phase) (unit : UnitRef) :
    Exec Data Unit := do
  let body ← routine phase.routine
  update (·.emit (.phaseStarted run phase unit))
  call (body (.phase unit))

def applyPhase (call : Program Data → Exec Data Unit) (run : RunRef) (units : List UnitRef) (phase : Phase) :
    Exec Data Unit := do
  update (·.logStart phase units)
  units.forM (runPhaseOn call run phase)

def visit (call : Program Data → Exec Data Unit) (run : RunRef) (units : List UnitRef) :
    List (Option Phase) → Exec Data Bool
  | [] => return true
  | none :: rest => visit call run units rest
  | some phase :: rest => do
      if (← current).runHasErrors run then
        update (·.logStop run phase)
        return false
      applyPhase call run units phase
      visit call run units rest

def finish (call : Program Data → Exec Data Unit) (fuel : Nat) (run : RunRef) (units : List UnitRef)
    (visited : Bool) : Exec Data Unit := do
  if visited && !(← current).runHasErrors run then
    units.forM (runChecks call fuel)
    update (·.completeRun run units)

-- All of a call but its summary. The units are those that are pending when the call begins.
def runUnits (call : Program Data → Exec Data Unit) (fuel : Nat) (run : RunRef)
    (phases : List (Option Phase)) : Exec Data Unit := do
  update (·.modifyRun run (·.setComplete false))
  let units := (← current).pendingUnits run
  let visited ← visit call run units phases
  finish call fuel run units visited

def conclude (run : RunRef) : Exec Data Bool := do
  update fun s => s.summarizeWarnings (s.run run).context
  update (·.logEnd run)
  return ((← current).run run).complete

def runPhases (call : Program Data → Exec Data Unit) (fuel : Nat) (run : RunRef)
    (phases : List (Option Phase)) : Exec Data Bool := do
  runUnits call fuel run phases
  conclude run

-- The fuel bounds how long any chain of steps may get, those of called routines included.
def exec : Nat → Program Data → Exec Data Unit
  | 0, _ => throw .exhausted
  | fuel + 1, program =>
      match program with
      | .done => return ()
      | .raise fault => throw (.fault fault)
      | .attempt body next => do exec fuel (next (← attempt (exec fuel body)))
      | .own change next => do exec fuel (next (← own change))
      | .look next => do exec fuel (next (← current))
      | .act request next => do exec fuel (next (← perform request))
      | .define body next => do exec fuel (next (← define body))
      | .incomplete reporter remark next => do
          incomplete (exec fuel) reporter remark
          exec fuel next
      | .runChecks unit next => do
          runChecks (exec fuel) fuel unit
          exec fuel next
      | .runPhases run phases next => do
          exec fuel (next (← runPhases (exec fuel) fuel run phases))

end Session

end UnitRegistry
