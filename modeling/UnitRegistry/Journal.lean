import UnitRegistry.Log.Record
import UnitRegistry.Run
/-!
The journal: in order, everything that became visible outside, every message that was given, and every routine
that was started.
-/
set_option autoImplicit false

namespace UnitRegistry

inductive Event where
  | console (stream text : Text)
  | standardError (text : Text)
  | logged (recorder : Text) (record : Log.Record)
  | flushed (recorder : Text)
  | reported (reporter : ReporterRef) (entry : Entry)
  | reset (reporter : ReporterRef)
  | warned (accumulator : AccumulatorRef) (remark : Remark)
  | summarized (accumulator : AccumulatorRef) (count : Nat)
  | submitted (run : RunRef) (source : FileRef)
  | phaseStarted (run : RunRef) (phase : Phase) (unit : UnitRef)
  | checkAdded (unit : UnitRef) (check : Check)
  | checkStarted (unit : UnitRef) (check : Check)
  | handlerStarted (reporter : ReporterRef) (handler : Handler) (remark : Remark)
  | observed (observer : Text) (notice : SyntheticNotice) (tree : Text)
deriving DecidableEq, Inhabited

end UnitRegistry
