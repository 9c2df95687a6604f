import UnitRegistry.Proofs.Conduct

set_option autoImplicit false

namespace UnitRegistry

namespace Event

def startedPhase? (run : RunRef) : Event → Option (Phase × UnitRef)
  | .phaseStarted of phase unit => if of = run then some (phase, unit) else none
  | _ => none

def addedCheck? (unit : UnitRef) : Event → Option Check
  | .checkAdded of check => if of = unit then some check else none
  | _ => none

def startedCheck? (unit : UnitRef) : Event → Option Check
  | .checkStarted of check => if of = unit then some check else none
  | _ => none

def isSilent : Event → Bool
  | .phaseStarted _ _ _ => false
  | .checkAdded _ _ => false
  | .checkStarted _ _ => false
  | _ => true

end Event

def phasesStarted (run : RunRef) (events : List Event) : List (Phase × UnitRef) :=
  events.filterMap (Event.startedPhase? run)

def checksAdded (unit : UnitRef) (events : List Event) : List Check := events.filterMap (Event.addedCheck? unit)

def checksStarted (unit : UnitRef) (events : List Event) : List Check := events.filterMap (Event.startedCheck? unit)

theorem phases_started_append (run : RunRef) (earlier later : List Event) :
    phasesStarted run (earlier ++ later) = phasesStarted run earlier ++ phasesStarted run later :=
  List.filterMap_append

theorem checks_added_append (unit : UnitRef) (earlier later : List Event) :
    checksAdded unit (earlier ++ later) = checksAdded unit earlier ++ checksAdded unit later :=
  List.filterMap_append

theorem checks_started_append (unit : UnitRef) (earlier later : List Event) :
    checksStarted unit (earlier ++ later) = checksStarted unit earlier ++ checksStarted unit later :=
  List.filterMap_append

namespace State

def since (s t : State) : List Event := t.journal.toList.drop s.journal.size

def Extends (s t : State) : Prop := t.journal.toList = s.journal.toList ++ s.since t

structure Records (bars : Drive → RunRef → Prop) (s : State) (events : List Event) (t : State) : Prop where
  journal : t.journal.toList = s.journal.toList ++ events
  phases : ∀ run, bars .phase run → phasesStarted run events = []
  checks : ∀ unit, (s.unit unit).checks ++ checksAdded unit events = checksStarted unit events ++ (t.unit unit).checks

theorem since_eq {s t : State} {events : List Event} (journal : t.journal.toList = s.journal.toList ++ events) :
    s.since t = events := by
  simp [since, journal]

theorem extends_of_journal {s t : State} {events : List Event} (journal : t.journal.toList = s.journal.toList ++ events) :
    Extends s t := by
  rw [Extends, since_eq journal, journal]

theorem since_append {s t u : State} (first : Extends s t) (second : Extends t u) :
    s.since u = s.since t ++ t.since u := by
  apply since_eq
  rw [second, first, List.append_assoc]

theorem extends_trans {s t u : State} (first : Extends s t) (second : Extends t u) : Extends s u := by
  rw [Extends, since_append first second, ← List.append_assoc, ← first, ← second]

variable {bars : Drive → RunRef → Prop}

theorem records_trans {s t u : State} {earlier later : List Event} (first : Records bars s earlier t)
    (second : Records bars t later u) : Records bars s (earlier ++ later) u := by
  refine ⟨?_, fun run barred => ?_, fun unit => ?_⟩
  · rw [second.journal, first.journal, List.append_assoc]
  · rw [phases_started_append, first.phases run barred, second.phases run barred, List.nil_append]
  · rw [checks_added_append, checks_started_append, ← List.append_assoc, first.checks unit, List.append_assoc,
      second.checks unit, List.append_assoc]

theorem records_silent {s t : State} (events : List Event)
    (journal : t.journal.toList = s.journal.toList ++ events) (silent : ∀ event ∈ events, event.isSilent = true)
    (same : ∀ unit, (t.unit unit).checks = (s.unit unit).checks) : Records bars s events t := by
  have nothing {α : Type} (read : Event → Option α) (absent : ∀ event : Event, event.isSilent = true → read event = none) :
      events.filterMap read = [] :=
    List.filterMap_eq_nil_iff.mpr fun event member => absent event (silent event member)
  refine ⟨journal, fun run _ => ?_, fun unit => ?_⟩
  · exact nothing _ fun event => by cases event <;> simp [Event.isSilent, Event.startedPhase?]
  · have added : checksAdded unit events = [] :=
      nothing _ fun event => by cases event <;> simp [Event.isSilent, Event.addedCheck?]
    have started : checksStarted unit events = [] :=
      nothing _ fun event => by cases event <;> simp [Event.isSilent, Event.startedCheck?]
    rw [added, started, same unit, List.append_nil, List.nil_append]

theorem records_none {s t : State} (journal : t.journal = s.journal)
    (same : ∀ unit, (t.unit unit).checks = (s.unit unit).checks) : Records bars s [] t :=
  records_silent [] (by simp [journal]) (by simp) same

theorem records_emit {s t : State} (event : Event) (journal : t.journal = s.journal.push event)
    (silent : event.isSilent = true) (units : t.units = s.units) : Records bars s [event] t :=
  records_silent [event] (by simp [journal]) (by simpa using silent) fun unit => by simp [State.unit, units]

theorem emit_records (s : State) (event : Event) (silent : event.isSilent = true) :
    Records bars s [event] (s.emit event) :=
  records_emit event rfl silent rfl

theorem unit_modify (s : State) (ref other : UnitRef) (f : CompilationUnit → CompilationUnit) :
    (s.modifyUnit ref f).unit other = if ref = other ∧ ref < s.units.size then f (s.unit other) else s.unit other :=
  Store.get_modify_cases s.units ref other f

theorem unit_add (s : State) (source : Option FileRef) (context : ContextRef) (other : UnitRef) :
    (s.addUnit source context).1.unit other =
      if other = s.units.size then { source, context, body := s.heap.size } else s.unit other := by
  by_cases new : other = s.units.size
  · rw [if_pos new, new]
    exact Store.get_push_self _ _
  · rw [if_neg new]
    exact Store.get_push_of_ne _ _ _ new

theorem add_unit_checks (s : State) (source : Option FileRef) (context : ContextRef) (unit : UnitRef) :
    ((s.addUnit source context).1.unit unit).checks = (s.unit unit).checks := by
  rw [unit_add]
  split
  · subst unit
    rw [unit, Store.get_of_size_le _ _ (Nat.le_refl _)]
    rfl
  · rfl

theorem present_of_queued (s : State) (unit : UnitRef) (queued : (s.unit unit).checks ≠ []) : unit < s.units.size := by
  refine Nat.lt_of_not_le fun absent => queued ?_
  rw [State.unit, Store.get_of_size_le _ _ absent]
  rfl

theorem there_of_own (s : State) (unit : UnitRef) (own : (s.unit unit).sentinel = false) : unit < s.units.size := by
  refine Nat.lt_of_not_le fun absent => ?_
  rw [State.unit, Store.get_of_size_le _ _ absent] at own
  cases own

theorem add_check_records (s : State) (unit : UnitRef) (check : Check) :
    ∃ events, Records bars s events (s.addCheck unit check) := by
  cases own : (s.unit unit).sentinel with
  | true =>
      rw [add_check_sentinel s unit check own]
      exact ⟨[], records_none rfl fun _ => rfl⟩
  | false =>
      rw [add_check_own s unit check own]
      have there := there_of_own s unit own
      refine ⟨[.checkAdded unit check], by simp [emit, modifyUnit], fun _ _ => rfl, fun other => ?_⟩
      change _ = _ ++ ((s.modifyUnit unit (·.addCheck check)).unit other).checks
      rw [unit_modify]
      by_cases same : unit = other
      · subst other
        simp [checksAdded, checksStarted, Event.addedCheck?, Event.startedCheck?, there, CompilationUnit.addCheck, own]
      · simp [checksAdded, checksStarted, Event.addedCheck?, Event.startedCheck?, same]

theorem start_check_records (s : State) (unit : UnitRef) (check : Check) (rest : List Check)
    (queued : (s.unit unit).checks = check :: rest) :
    Records bars s [.checkStarted unit check]
      ((s.modifyUnit unit CompilationUnit.dropCheck).emit (.checkStarted unit check)) := by
  have there := present_of_queued s unit (by simp [queued])
  refine ⟨by simp [emit, modifyUnit], fun _ _ => rfl, fun other => ?_⟩
  change _ = _ ++ ((s.modifyUnit unit CompilationUnit.dropCheck).unit other).checks
  rw [unit_modify]
  by_cases same : unit = other
  · subst other
    simp [checksAdded, checksStarted, Event.addedCheck?, Event.startedCheck?, there, CompilationUnit.dropCheck, queued]
  · simp [checksAdded, checksStarted, Event.addedCheck?, Event.startedCheck?, same]

theorem adjust_unit_checks (s : State) (ref unit : UnitRef) (f : CompilationUnit → CompilationUnit)
    (keeps : (s.unit ref).Keeps (f (s.unit ref))) :
    ((s.modifyUnit ref f).unit unit).checks = (s.unit unit).checks := by
  rw [unit_modify]
  split
  · rename_i same
    rw [← same.1, keeps.checks]
  · rfl

theorem complete_run_units (s : State) (run : RunRef) (units : List UnitRef) :
    (s.completeRun run units).units = s.units ∧ (s.completeRun run units).journal = s.journal := by
  obtain ⟨f, modified, _⟩ := complete_run_modifies s run units
  rw [modified]
  exact ⟨rfl, rfl⟩

theorem modify_accumulator_units (s : State) (ref : AccumulatorRef) (f : Accumulator → Accumulator) :
    (s.modifyAccumulator ref f).units = s.units ∧ (s.modifyAccumulator ref f).journal = s.journal := by
  cases ref <;> exact ⟨rfl, rfl⟩

theorem outputs_records {s t : State} (outputs : Outputs s t) : ∃ events, Records bars s events t := by
  obtain ⟨disk, sinks, events, output, rfl⟩ := outputs
  refine ⟨events, records_silent events (by simp) (fun event member => ?_) fun _ => rfl⟩
  have leaves := output event member
  cases event <;> first | rfl | cases leaves

theorem recorded_records (s : State) (ref : ReporterRef) (entry : Entry) :
    Records bars s [.reported ref entry] (s.recorded ref entry) :=
  records_emit (.reported ref entry) rfl rfl rfl

theorem announced_records {s begun printed : State} (event : Event) (begins : Records bars s [event] begun)
    (outputs : Outputs begun printed) (ref : ReporterRef) (entry : Entry) :
    ∃ events, Records bars s events (printed.recorded ref entry) := by
  obtain ⟨events, prints⟩ := outputs_records outputs
  exact ⟨_, records_trans (records_trans begins prints) (recorded_records printed ref entry)⟩

theorem emptied_records (s : State) (ref : AccumulatorRef) :
    Records bars s [.summarized ref (s.accumulator ref).count] (s.emptied ref) := by
  obtain ⟨units, journal⟩ :=
    modify_accumulator_units (s.emit (.summarized ref (s.accumulator ref).count)) ref Accumulator.clear
  exact records_emit (.summarized ref _) journal rfl units

theorem move_records {s t : State} (move : Move bars s t) : ∃ events, Records bars s events t := by
  cases move with
  | outputs outputs => exact outputs_records outputs
  | surroundings around =>
      obtain ⟨_, _, _, _, _, _, _, _, rfl⟩ := around
      exact ⟨[], records_none rfl fun _ => rfl⟩
  | startHandler ref handler remark => exact ⟨_, emit_records s (.handlerStarted ref handler remark) rfl⟩
  | addReporter => exact ⟨[], records_none rfl fun _ => rfl⟩
  | record ref entry => exact ⟨_, recorded_records s ref entry⟩
  | resetReporter ref => exact ⟨_, records_emit (.reset ref) rfl rfl rfl⟩
  | adjustReporter => exact ⟨[], records_none rfl fun _ => rfl⟩
  | addAccumulator => exact ⟨[], records_none rfl fun _ => rfl⟩
  | addContext => exact ⟨[], records_none rfl fun _ => rfl⟩
  | passWarning ref remark enabled outputs =>
      exact announced_records _ (emit_records s (.warned ref remark) rfl) outputs _ _
  | holdWarning ref remark =>
      obtain ⟨units, journal⟩ := modify_accumulator_units (s.emit (.warned ref remark)) ref (·.hold remark)
      exact ⟨_, records_emit (.warned ref remark) journal rfl units⟩
  | clearWarnings ref held outputs => exact announced_records _ (emptied_records s ref) outputs _ _
  | addUnit source context => exact ⟨[], records_none rfl (add_unit_checks s source context)⟩
  | adjustUnit ref f keeps => exact ⟨[], records_none rfl fun unit => adjust_unit_checks s ref unit f keeps⟩
  | addCheck unit check => exact add_check_records s unit check
  | startCheck unit check rest queued => exact ⟨_, start_check_records s unit check rest queued⟩
  | addRun => exact ⟨[], records_none rfl fun _ => rfl⟩
  | submit run file => exact ⟨_, emit_records s (.submitted run file) rfl⟩
  | register run file =>
      refine ⟨_, records_trans (emit_records s (.submitted run file) rfl) (records_none rfl ?_)⟩
      exact add_unit_checks (s.emit (.submitted run file)) (some file) (s.run run).context
  | openRun => exact ⟨[], records_none rfl fun _ => rfl⟩
  | startPhase run phase unit free =>
      refine ⟨[.phaseStarted run phase unit], by simp [emit], fun other barred => ?_, fun _ => ?_⟩
      · have different : run ≠ other := fun same => free (same ▸ barred)
        simp [phasesStarted, Event.startedPhase?, different]
      · exact List.append_nil _
  | completeRun run units =>
      obtain ⟨same, journal⟩ := complete_run_units s run units
      exact ⟨[], records_none journal fun unit => by simp [State.unit, same]⟩

theorem moves_events (ready : State → Prop) (law : State → List Event → State → Prop)
    (next : ∀ {s events t}, law s events t → ready t) (none : ∀ {s}, ready s → law s [] s)
    (join : ∀ {s t u earlier later}, law s earlier t → law t later u → law s (earlier ++ later) u)
    (step : ∀ {s t}, Move bars s t → ready s → ∃ events, law s events t)
    {s t : State} (moves : Moves bars s t) (start : ready s) : ∃ events, law s events t := by
  induction moves with
  | refl => exact ⟨[], none start⟩
  | tail _ move ih =>
      obtain ⟨earlier, first⟩ := ih
      obtain ⟨later, second⟩ := step move (next first)
      exact ⟨earlier ++ later, join first second⟩

theorem moves_since {ready : State → Prop} {law : State → List Event → State → Prop}
    (journal : ∀ {s events t}, law s events t → t.journal.toList = s.journal.toList ++ events)
    (next : ∀ {s events t}, law s events t → ready t) (none : ∀ {s}, ready s → law s [] s)
    (join : ∀ {s t u earlier later}, law s earlier t → law t later u → law s (earlier ++ later) u)
    (step : ∀ {s t}, Move bars s t → ready s → ∃ events, law s events t)
    {s t : State} (moves : Moves bars s t) (start : ready s) : law s (s.since t) t := by
  obtain ⟨events, found⟩ := moves_events ready law next none join step moves start
  rw [since_eq (journal found)]
  exact found

theorem moves_records {s t : State} (moves : Moves bars s t) : Records bars s (s.since t) t :=
  moves_since Records.journal (fun _ => trivial) (fun _ => records_none rfl fun _ => rfl) records_trans
    (fun move _ => move_records move) moves trivial

theorem moves_extends {s t : State} (moves : Moves bars s t) : Extends s t := (moves_records moves).journal

end State

end UnitRegistry
