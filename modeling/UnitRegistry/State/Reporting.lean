import UnitRegistry.State.Basic

set_option autoImplicit false

namespace UnitRegistry

inductive ReportKind where
  | echo
  | warning
  | error
  | remark
deriving DecidableEq, Inhabited

namespace State

def printLine (stream : Stream) (s : State) (line : Text) : State :=
  let text := line ++ [Text.lineFeed]
  s.emit (match stream with
    | .named label => .console label text
    | .standardError => .standardError text)

def print (s : State) : Option (Stream × List Text) → State
  | none => s
  | some (stream, lines) => lines.foldl (printLine stream) s

def reportEntry (s : State) (ref : ReporterRef) (entry : Entry) : State :=
  ((s.print ((s.reporter ref).shown entry)).modifyReporter ref (·.record entry)).emit (.reported ref entry)

def reportRemark (s : State) (ref : ReporterRef) (remark : Remark) : State :=
  (s.print ((s.reporter ref).shownRemark s.options.verbose remark)).modifyReporter ref (·.recordRemark remark)

-- Warnings count as errors when the switch says so at the moment of the warning.
def warningSeverity (s : State) : Severity := if s.options.warningsAsErrors then .error else .warning

def report (s : State) (ref : ReporterRef) (kind : ReportKind) (remark : Remark) : State :=
  match kind with
  | .echo => s.reportEntry ref ⟨.info, remark.position, remark.message⟩
  | .warning => s.reportEntry ref ⟨s.warningSeverity, remark.position, remark.message⟩
  | .error => s.reportEntry ref ⟨.error, remark.position, remark.message⟩
  | .remark => s.reportRemark ref remark

def hasErrors (s : State) (ref : ReporterRef) : Bool := (s.reporter ref).hasErrors

def addReporter (s : State) (reporter : Reporter) : State × ReporterRef :=
  ({ s with reporters := s.reporters.push reporter }, s.reporters.size)

def setHandler (s : State) (ref : ReporterRef) (handler : Option Handler) : State :=
  s.modifyReporter ref ({ · with handler })

def resetReporter (s : State) (ref : ReporterRef) : State := (s.modifyReporter ref Reporter.reset).emit (.reset ref)

def accumulator (s : State) : AccumulatorRef → Accumulator
  | .category context category => (s.context context).get category
  | .single index => (s.accumulators.get index).accumulator

def accumulatorReporter (s : State) : AccumulatorRef → ReporterRef
  | .category context _ => (s.context context).reporter
  | .single index => (s.accumulators.get index).reporter

def modifyAccumulator (s : State) (ref : AccumulatorRef) (f : Accumulator → Accumulator) : State :=
  match ref with
  | .category context category => s.modifyContext context (·.modify category f)
  | .single index =>
      { s with accumulators := s.accumulators.modify index fun a => { a with accumulator := f a.accumulator } }

def addAccumulator (s : State) (reporter : ReporterRef) (accumulator : Accumulator) : State × AccumulatorRef :=
  ({ s with accumulators := s.accumulators.push ⟨reporter, accumulator⟩ }, .single s.accumulators.size)

def addContext (s : State) (reporter : ReporterRef) (settings : WarningSettings) : State × ContextRef :=
  ({ s with contexts := s.contexts.push (.create reporter settings) }, s.contexts.size)

def warn (s : State) (ref : AccumulatorRef) (remark : Remark) : State :=
  let s := s.emit (.warned ref remark)
  if (s.accumulator ref).enabled then s.report (s.accumulatorReporter ref) .warning remark
  else s.modifyAccumulator ref (·.hold remark)

def summarize (s : State) (ref : AccumulatorRef) : State :=
  match (s.accumulator ref).summary? with
  | none => s
  | some message =>
      ((s.emit (.summarized ref (s.accumulator ref).count)).modifyAccumulator ref Accumulator.clear).report
        (s.accumulatorReporter ref) .warning ⟨.nowhere, message⟩

def summarizeWarnings (s : State) (context : ContextRef) : State :=
  Category.all.foldl (fun s category => s.summarize (.category context category)) s

end State

inductive EmissionKind where
  | report (kind : ReportKind)
  | categorized (category : Category)
deriving DecidableEq, Inhabited

def State.emission (s : State) (context : ContextRef) (kind : EmissionKind) (remark : Remark) : State :=
  match kind with
  | .report kind => s.report (s.context context).reporter kind remark
  | .categorized category => s.warn (.category context category) remark

end UnitRegistry
