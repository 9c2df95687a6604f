import UnitRegistry.Request
/-!
Programs: what an embedding does with the library, one request after another. Checks, phases and handlers run
programs as well, so a program can be called back in the middle of another. An embedding has data of its own,
which its programs may read and change at any time.
-/
set_option autoImplicit false

namespace UnitRegistry

inductive Cause where
  | check (unit : UnitRef)
  | phase (unit : UnitRef)
  | incomplete (remark : Remark)
deriving DecidableEq, Inhabited

-- The last three constructors are the operations that call routines. A fault in what is attempted is caught.
inductive Program (Data : Type) where
  | done
  | raise (fault : Fault)
  | attempt (body : Program Data) (next : Option Fault → Program Data)
  | own (change : Data → Data) (next : Data → Program Data)
  | look (next : State → Program Data)
  | act (request : Request) (next : request.Reply → Program Data)
  | define (body : Cause → Program Data) (next : RoutineRef → Program Data)
  | incomplete (reporter : ReporterRef) (remark : Remark) (next : Program Data)
  | runChecks (unit : UnitRef) (next : Program Data)
  | runPhases (run : RunRef) (phases : List (Option Phase)) (next : Bool → Program Data)

instance {Data : Type} : Inhabited (Program Data) := ⟨.done⟩

end UnitRegistry
