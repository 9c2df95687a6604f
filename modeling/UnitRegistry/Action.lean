import UnitRegistry.Program
/-!
Actions: programs that come to a value and go on from it. They make a monad, so an embedding can write its
programs step by step.
-/
set_option autoImplicit false

namespace UnitRegistry

def Action (Data α : Type) := (α → Program Data) → Program Data

namespace Action

variable {Data α : Type}

instance : Monad (Action Data) where
  pure a := fun next => next a
  bind x f := fun next => x fun a => f a next

instance : Inhabited (Action Data α) := ⟨fun _ => .done⟩

def toProgram (x : Action Data Unit) : Program Data := x fun _ => .done

def request (r : Request) : Action Data r.Reply := fun next => .act r next

def look : Action Data State := fun next => .look next

def data : Action Data Data := fun next => .own id next

def update (f : Data → Data) : Action Data Unit := fun next => .own f fun _ => next ()

def raise (fault : Fault) : Action Data α := fun _ => .raise fault

def attempt (body : Action Data Unit) : Action Data (Option Fault) := fun next => .attempt body.toProgram next

def ofExcept : Except Fault α → Action Data α
  | .ok value => pure value
  | .error fault => raise fault

def define (body : Cause → Action Data Unit) : Action Data RoutineRef :=
  fun next => .define (fun cause => (body cause).toProgram) next

-- Without a routine there is nothing to register.
def addCheck (unit : UnitRef) : Option Check → Action Data Unit
  | none => pure ()
  | some check => request (.addCheck unit check)

def incomplete (reporter : ReporterRef) (remark : Remark) : Action Data Unit :=
  fun next => .incomplete reporter remark (next ())

def runChecks (unit : UnitRef) : Action Data Unit := fun next => .runChecks unit (next ())

def runPhases (run : RunRef) (phases : List (Option Phase)) : Action Data Bool :=
  fun next => .runPhases run phases next

end Action

end UnitRegistry
