import Mathlib.Logic.Relation
import UnitRegistry.Proofs.Output
import UnitRegistry.Request
/-!
The smallest changes of the state, and every request as a sequence of them. What holds along all runs of all
programs is proved once for each kind of change.
-/
set_option autoImplicit false

namespace UnitRegistry

def ending {ε σ α : Type} : EStateM.Result ε σ α → σ
  | .ok _ s => s
  | .error _ s => s

@[simp] theorem ending_ok {ε σ α : Type} (value : α) (s : σ) : ending (.ok value s : EStateM.Result ε σ α) = s := rfl

@[simp] theorem ending_error {ε σ α : Type} (fault : ε) (s : σ) :
    ending (.error fault s : EStateM.Result ε σ α) = s := rfl

def value? {ε σ α : Type} : EStateM.Result ε σ α → Option α
  | .ok value _ => some value
  | .error _ _ => none

-- A run on given values is stated by its value alone, without its last state in full.
theorem eq_ok_of_value {ε σ α : Type} {result : EStateM.Result ε σ α} {value : α} (came : value? result = some value) :
    result = .ok value (ending result) := by
  cases result with
  | ok found s =>
      cases came
      rfl
  | error fault s => cases came

def stop? {ε σ α : Type} : EStateM.Result ε σ α → Option ε
  | .ok _ _ => none
  | .error stop _ => some stop

theorem eq_error_of_stop {ε σ α : Type} {result : EStateM.Result ε σ α} {stop : ε} (stopped : stop? result = some stop) :
    result = .error stop (ending result) := by
  cases result with
  | ok value s => cases stopped
  | error found s =>
      cases stopped
      rfl

structure CompilationUnit.Keeps (u v : CompilationUnit) : Prop where
  source : v.source = u.source
  sentinel : v.sentinel = u.sentinel
  context : v.context = u.context
  checks : v.checks = u.checks

structure Reporter.Keeps (r q : Reporter) : Prop where
  counts : q.counts = r.counts
  entries : q.entries = r.entries

namespace State

def Surroundings (s t : State) : Prop :=
  ∃ options environment disk logger sinks heldSinks heap caches,
    t = { s with options, environment, disk, logger, sinks, heldSinks, heap, caches }

def recorded (s : State) (ref : ReporterRef) (entry : Entry) : State :=
  (s.modifyReporter ref (·.record entry)).emit (.reported ref entry)

def warned (s : State) (remark : Remark) : Entry := ⟨s.warningSeverity, remark.position, remark.message⟩

def emptied (s : State) (ref : AccumulatorRef) : State :=
  (s.emit (.summarized ref (s.accumulator ref).count)).modifyAccumulator ref Accumulator.clear

inductive Drive where
  | opening
  | phase
  | completion

-- Only the last three changes drive a run, each in its own way, and a run can be barred from any of the ways.
inductive Move (bars : Drive → RunRef → Prop) : State → State → Prop where
  | outputs {s t : State} (outputs : Outputs s t) : Move bars s t
  | surroundings {s t : State} (around : Surroundings s t) : Move bars s t
  | startHandler (s : State) (ref : ReporterRef) (handler : Handler) (remark : Remark) :
      Move bars s (s.emit (.handlerStarted ref handler remark))
  | addReporter (s : State) (reporter : Reporter) : Move bars s (s.addReporter reporter).1
  | record (s : State) (ref : ReporterRef) (entry : Entry) : Move bars s (s.recorded ref entry)
  | resetReporter (s : State) (ref : ReporterRef) : Move bars s (s.resetReporter ref)
  | adjustReporter (s : State) (ref : ReporterRef) (f : Reporter → Reporter) (keeps : ∀ r : Reporter, r.Keeps (f r)) :
      Move bars s (s.modifyReporter ref f)
  | addAccumulator (s : State) (ref : ReporterRef) (accumulator : Accumulator) :
      Move bars s (s.addAccumulator ref accumulator).1
  | addContext (s : State) (ref : ReporterRef) (settings : WarningSettings) :
      Move bars s (s.addContext ref settings).1
  | passWarning {s printed : State} (ref : AccumulatorRef) (remark : Remark) (enabled : (s.accumulator ref).enabled = true)
      (outputs : Outputs (s.emit (.warned ref remark)) printed) :
      Move bars s (printed.recorded (s.accumulatorReporter ref) (s.warned remark))
  | holdWarning (s : State) (ref : AccumulatorRef) (remark : Remark) (disabled : (s.accumulator ref).enabled = false) :
      Move bars s ((s.emit (.warned ref remark)).modifyAccumulator ref (·.hold remark))
  | clearWarnings {s printed : State} (ref : AccumulatorRef) (held : (s.accumulator ref).count ≠ 0)
      (outputs : Outputs (s.emptied ref) printed) :
      Move bars s (printed.recorded (s.accumulatorReporter ref)
        (s.warned ⟨.nowhere, (s.accumulator ref).summaryMessage (s.accumulator ref).count⟩))
  | addUnit (s : State) (source : Option FileRef) (context : ContextRef) :
      Move bars s (s.addUnit source context).1
  | adjustUnit (s : State) (ref : UnitRef) (f : CompilationUnit → CompilationUnit)
      (keeps : (s.unit ref).Keeps (f (s.unit ref))) : Move bars s (s.modifyUnit ref f)
  | addCheck (s : State) (unit : UnitRef) (check : Check) : Move bars s (s.addCheck unit check)
  | startCheck (s : State) (unit : UnitRef) (check : Check) (rest : List Check)
      (queued : (s.unit unit).checks = check :: rest) :
      Move bars s ((s.modifyUnit unit CompilationUnit.dropCheck).emit (.checkStarted unit check))
  | addRun (s : State) (context : ContextRef) : Move bars s (s.addRun context).1
  | submit (s : State) (run : RunRef) (file : FileRef) (unit : UnitRef)
      (known : (s.run run).unitOf? (some file) = some unit) : Move bars s (s.emit (.submitted run file))
  | register (s : State) (run : RunRef) (file : FileRef) (absent : (s.run run).unitOf? (some file) = none) :
      Move bars s (((s.emit (.submitted run file)).addUnit (some file) (s.run run).context).1.modifyRun run
        (·.register file s.units.size))
  | openRun (s : State) (run : RunRef) (free : ¬ bars .opening run) :
      Move bars s (s.modifyRun run (·.setComplete false))
  | startPhase (s : State) (run : RunRef) (phase : Phase) (unit : UnitRef) (free : ¬ bars .phase run) :
      Move bars s (s.emit (.phaseStarted run phase unit))
  | completeRun (s : State) (run : RunRef) (units : List UnitRef) (free : ¬ bars .completion run) :
      Move bars s (s.completeRun run units)

theorem add_source_known (s : State) (run : RunRef) (file : FileRef) (unit : UnitRef)
    (found : (s.run run).unitOf? (some file) = some unit) :
    s.addSource run (some file) = .ok unit (s.emit (.submitted run file)) := by
  have same : ((s.emit (.submitted run file)).run run).unitOf? (some file) = some unit := found
  rw [addSource, same]

def enrolled (s : State) (run : RunRef) (file : FileRef) : State :=
  ((s.emit (.submitted run file)).addUnit (some file) (s.run run).context).1.modifyRun run (·.register file s.units.size)

theorem add_source_new (s : State) (run : RunRef) (file : FileRef) (absent : (s.run run).unitOf? (some file) = none) :
    ∃ message, s.addSource run (some file) = .ok s.units.size ((s.enrolled run file).trace .debug "run" message) := by
  have same : ((s.emit (.submitted run file)).run run).unitOf? (some file) = none := absent
  rw [addSource, same]
  exact ⟨_, rfl⟩

theorem add_check_sentinel (s : State) (unit : UnitRef) (check : Check) (sentinel : (s.unit unit).sentinel = true) :
    s.addCheck unit check = s := by
  rw [State.addCheck, if_pos sentinel]

theorem add_check_own (s : State) (unit : UnitRef) (check : Check) (own : (s.unit unit).sentinel = false) :
    s.addCheck unit check = (s.modifyUnit unit (·.addCheck check)).emit (.checkAdded unit check) := by
  rw [State.addCheck, own]
  rfl

theorem complete_run_modifies (s : State) (run : RunRef) (units : List UnitRef) :
    ∃ f : Run → Run, s.completeRun run units = s.modifyRun run f ∧
      ∀ r, (f r).context = r.context ∧ (f r).registry = r.registry := by
  by_cases errors : s.runHasErrors run = true
  · exact ⟨(·.setComplete false), by rw [State.completeRun, if_pos errors], fun _ => ⟨rfl, rfl⟩⟩
  · exact ⟨fun r => (r.setComplete true).markCompiled units, by rw [State.completeRun, if_neg errors],
      fun _ => ⟨rfl, rfl⟩⟩

def Moves (bars : Drive → RunRef → Prop) : State → State → Prop := Relation.ReflTransGen (Move bars)

def nobody : Drive → RunRef → Prop := fun _ _ => False

def drivesOf (run : RunRef) : Drive → RunRef → Prop := fun _ driven => driven = run

def only (way : Drive) (run : RunRef) : Drive → RunRef → Prop := fun drive driven => drive = way ∧ driven = run

variable {bars : Drive → RunRef → Prop}

theorem moves_refl (s : State) : Moves bars s s := .refl

theorem moves_trans {s t u : State} (first : Moves bars s t) (second : Moves bars t u) : Moves bars s u :=
  Relation.ReflTransGen.trans first second

theorem move_moves {s t : State} (move : Move bars s t) : Moves bars s t := .single move

theorem outputs_moves {s t : State} (outputs : Outputs s t) : Moves bars s t := .single (.outputs outputs)

theorem surroundings_moves {s t : State} (around : Surroundings s t) : Moves bars s t :=
  .single (.surroundings around)

theorem foldl_moves {α : Type} (f : State → α → State) (step : ∀ s a, Moves bars s (f s a)) (items : List α)
    (s : State) : Moves bars s (items.foldl f s) := by
  induction items generalizing s with
  | nil => exact moves_refl s
  | cons item rest ih => exact moves_trans (step s item) (ih (f s item))

theorem report_entry_moves (s : State) (ref : ReporterRef) (entry : Entry) :
    Moves bars s (s.reportEntry ref entry) :=
  moves_trans (outputs_moves (print_outputs s _)) (move_moves (.record _ ref entry))

theorem record_remark_keeps (remark : Remark) (r : Reporter) : r.Keeps (r.recordRemark remark) := by
  cases r with
  | mk display counts handler => cases display <;> exact ⟨rfl, rfl⟩

theorem set_colors_keeps (colors : Bool) (r : Reporter) : r.Keeps (r.setColors colors) := by
  cases r with
  | mk display counts handler => cases display <;> exact ⟨rfl, rfl⟩

theorem report_moves (s : State) (ref : ReporterRef) (kind : ReportKind) (remark : Remark) :
    Moves bars s (s.report ref kind remark) := by
  cases kind with
  | remark =>
      exact moves_trans (outputs_moves (print_outputs s _))
        (move_moves (.adjustReporter _ ref _ (record_remark_keeps remark)))
  | _ => exact report_entry_moves s ref _

theorem warn_passes (s : State) (ref : AccumulatorRef) (remark : Remark) (enabled : (s.accumulator ref).enabled = true) :
    ∃ printed, Outputs (s.emit (.warned ref remark)) printed ∧
      s.warn ref remark = printed.recorded (s.accumulatorReporter ref) (s.warned remark) := by
  have same : (s.emit (.warned ref remark)).accumulator ref = s.accumulator ref := by cases ref <;> rfl
  have passed : s.warn ref remark = (s.emit (.warned ref remark)).reportEntry (s.accumulatorReporter ref) (s.warned remark) := by
    rw [warn, same, if_pos enabled]
    cases ref <;> rfl
  exact ⟨_, print_outputs _ _, passed⟩

theorem warn_holds (s : State) (ref : AccumulatorRef) (remark : Remark) (disabled : (s.accumulator ref).enabled = false) :
    s.warn ref remark = (s.emit (.warned ref remark)).modifyAccumulator ref (·.hold remark) := by
  have same : (s.emit (.warned ref remark)).accumulator ref = s.accumulator ref := by cases ref <;> rfl
  rw [warn, same, disabled]
  rfl

theorem summarize_idle (s : State) (ref : AccumulatorRef) (none : (s.accumulator ref).count = 0) : s.summarize ref = s := by
  simp only [summarize, Accumulator.summary?, if_pos none]

theorem summarize_states (s : State) (ref : AccumulatorRef) (held : (s.accumulator ref).count ≠ 0) :
    ∃ printed, Outputs (s.emptied ref) printed ∧ s.summarize ref = printed.recorded (s.accumulatorReporter ref)
      (s.warned ⟨.nowhere, (s.accumulator ref).summaryMessage (s.accumulator ref).count⟩) := by
  simp only [summarize, Accumulator.summary?, if_neg held]
  cases ref <;> exact ⟨_, print_outputs _ _, rfl⟩

theorem warn_moves (s : State) (ref : AccumulatorRef) (remark : Remark) : Moves bars s (s.warn ref remark) := by
  cases enabled : (s.accumulator ref).enabled with
  | true =>
      obtain ⟨printed, outputs, passed⟩ := warn_passes s ref remark enabled
      rw [passed]
      exact move_moves (.passWarning ref remark enabled outputs)
  | false =>
      rw [warn_holds s ref remark enabled]
      exact move_moves (.holdWarning s ref remark enabled)

theorem summarize_moves (s : State) (ref : AccumulatorRef) : Moves bars s (s.summarize ref) := by
  by_cases none : (s.accumulator ref).count = 0
  · rw [summarize_idle s ref none]
    exact moves_refl s
  · obtain ⟨printed, outputs, stated⟩ := summarize_states s ref none
    rw [stated]
    exact move_moves (.clearWarnings ref none outputs)

theorem summarize_warnings_moves (s : State) (context : ContextRef) : Moves bars s (s.summarizeWarnings context) :=
  foldl_moves _ (fun s category => summarize_moves s (.category context category)) _ s

theorem emission_moves (s : State) (context : ContextRef) (kind : EmissionKind) (remark : Remark) :
    Moves bars s (s.emission context kind remark) := by
  cases kind with
  | report kind => exact report_moves s _ kind remark
  | categorized category => exact warn_moves s _ remark

theorem trace_moves (s : State) (level : Log.Level) (tag message : Text) : Moves bars s (s.trace level tag message) :=
  outputs_moves (trace_outputs s level tag message)

theorem add_source_moves (s : State) (run : RunRef) (source : Option FileRef) :
    Moves bars s (ending (s.addSource run source)) := by
  cases source with
  | none => exact moves_refl s
  | some file =>
      cases known : (s.run run).unitOf? (some file) with
      | some unit =>
          rw [add_source_known s run file unit known]
          exact move_moves (.submit s run file unit known)
      | none =>
          obtain ⟨message, added⟩ := add_source_new s run file known
          rw [added]
          exact moves_trans (move_moves (.register s run file known)) (trace_moves _ _ _ _)

theorem adjust_moves (s : State) (ref : UnitRef) (f : CompilationUnit → CompilationUnit)
    (keeps : ∀ u : CompilationUnit, u.Keeps (f u)) : Moves bars s (s.modifyUnit ref f) :=
  move_moves (.adjustUnit s ref f (keeps _))

theorem add_node_moves (s : State) (node : Node) : Moves bars s (s.addNode node).1 :=
  surroundings_moves ⟨_, _, _, _, _, _, _, _, rfl⟩

theorem set_body_keeps (node : NodeRef) (u : CompilationUnit) : u.Keeps (u.setBody node) := by
  by_cases sentinel : u.sentinel = true
  · rw [CompilationUnit.setBody, if_pos sentinel]
    exact ⟨rfl, rfl, rfl, rfl⟩
  · rw [CompilationUnit.setBody, if_neg sentinel]
    exact ⟨rfl, rfl, rfl, rfl⟩

theorem body_moves (s : State) (ref : UnitRef) : Moves bars s (s.body ref).1 := by
  by_cases sentinel : (s.unit ref).sentinel = true
  · rw [body, if_pos sentinel]
    exact add_node_moves s {}
  · rw [body, if_neg sentinel]
    exact moves_refl s

theorem set_body_moves (s : State) (ref : UnitRef) (tree : Option NodeRef) : Moves bars s (s.setBody ref tree) := by
  by_cases sentinel : (s.unit ref).sentinel = true
  · simp only [setBody, if_pos sentinel]
    exact moves_refl s
  · cases tree with
    | none =>
        simp only [setBody, if_neg sentinel]
        exact moves_trans (add_node_moves s _) (adjust_moves _ ref _ (set_body_keeps _))
    | some node =>
        simp only [setBody, if_neg sentinel]
        exact adjust_moves s ref _ (set_body_keeps node)

theorem take_body_moves (s : State) (ref : UnitRef) : Moves bars s (s.takeBody ref).1 := by
  by_cases sentinel : ((s.addNode {}).1.unit ref).sentinel = true
  · simp only [takeBody, if_pos sentinel]
    exact add_node_moves s {}
  · simp only [takeBody, if_neg sentinel]
    exact moves_trans (add_node_moves s _) (adjust_moves _ ref _ (set_body_keeps _))

theorem encountered_xml_keeps (position : Position) (u v : CompilationUnit) (result : u.encounteredXml position = .ok v) :
    u.Keeps v := by
  unfold CompilationUnit.encounteredXml at result
  split at result
  · cases result
    exact ⟨rfl, rfl, rfl, rfl⟩
  · split at result
    · cases result
    · split at result
      · cases result
      · cases result
        exact ⟨rfl, rfl, rfl, rfl⟩

theorem encountered_xml_moves (s : State) (ref : UnitRef) (position : Position) :
    Moves bars s (ending (s.encounteredXml ref position)) := by
  cases result : (s.unit ref).encounteredXml position with
  | error fault =>
      simp only [encounteredXml, result]
      exact moves_refl s
  | ok unit =>
      simp only [encounteredXml, result]
      exact move_moves (.adjustUnit s ref _ (encountered_xml_keeps position _ unit result))

theorem cache_transformed_keeps (tree result : Option NodeRef) (u : CompilationUnit) :
    u.Keeps (u.cacheTransformed tree result) := by
  cases tree with
  | none => exact ⟨rfl, rfl, rfl, rfl⟩
  | some tree =>
      simp only [CompilationUnit.cacheTransformed]
      split <;> exact ⟨rfl, rfl, rfl, rfl⟩

theorem forget_transformed_keeps (tree : Option NodeRef) (u : CompilationUnit) : u.Keeps (u.forgetTransformed tree) := by
  cases tree <;> exact ⟨rfl, rfl, rfl, rfl⟩

theorem mark_feature_keeps (feature : Option Symbol) (u : CompilationUnit) : u.Keeps (u.markFeature feature) := by
  cases feature with
  | none => exact ⟨rfl, rfl, rfl, rfl⟩
  | some feature =>
      simp only [CompilationUnit.markFeature]
      split <;> exact ⟨rfl, rfl, rfl, rfl⟩

theorem set_target_keeps (position : Position) (u : CompilationUnit) : u.Keeps (u.setTarget position) := by
  by_cases sentinel : u.sentinel = true
  · rw [CompilationUnit.setTarget, if_pos sentinel]
    exact ⟨rfl, rfl, rfl, rfl⟩
  · rw [CompilationUnit.setTarget, if_neg sentinel]
    exact ⟨rfl, rfl, rfl, rfl⟩

theorem fresh_name_moves (s : State) (ref : UnitRef) (kind : NameKind) (stem : Text) :
    Moves bars s (s.freshName ref kind stem).1 := by
  rw [freshName]
  exact adjust_moves s ref _ (fun _ => ⟨rfl, rfl, rfl, rfl⟩)

theorem modify_cache_moves (s : State) (ref : CacheRef) (f : ObservedSynthetics → ObservedSynthetics) :
    Moves bars s (s.modifyCache ref f) := by
  cases ref with
  | unit unit => exact adjust_moves s unit _ (fun _ => ⟨rfl, rfl, rfl, rfl⟩)
  | single index => exact surroundings_moves ⟨_, _, _, _, _, _, _, _, rfl⟩

theorem notices_moves (s : State) (ref : CacheRef) (notices : List SyntheticNotice) :
    Moves bars s (notices.foldl (notify ref) s) :=
  foldl_moves _ (fun s notice => outputs_moves (notify_outputs ref s notice)) notices s

theorem put_synthetic_moves (s : State) (ref : CacheRef) (symbol : Option Symbol) (tree : Option NodeRef) :
    Moves bars s (s.putSynthetic ref symbol tree) := by
  rw [putSynthetic]
  exact moves_trans (notices_moves s ref _) (modify_cache_moves _ ref _)

theorem remove_synthetic_moves (s : State) (ref : CacheRef) (symbol : Option Symbol) :
    Moves bars s (s.removeSynthetic ref symbol) := by
  rw [removeSynthetic]
  exact moves_trans (notices_moves s ref _) (modify_cache_moves _ ref _)

theorem write_disk_moves (s : State) (path content : Text) : Moves bars s (s.writeDisk path content) := by
  cases found : Disk.resolve path with
  | none =>
      simp only [writeDisk, found]
      exact moves_refl s
  | some name =>
      simp only [writeDisk, found]
      exact surroundings_moves ⟨_, _, _, _, _, _, _, _, rfl⟩

theorem load_source_moves (s : State) (path : Text) : Moves bars s (s.loadSource path).1 := by
  cases found : (Disk.resolve path).bind s.disk.read? with
  | none =>
      simp only [loadSource, found]
      exact moves_refl s
  | some content =>
      simp only [loadSource, found]
      exact trace_moves s _ _ _

theorem hold_sink_moves (s : State) (sink : Log.Sink) : Moves bars s (s.holdSink sink).1 :=
  surroundings_moves ⟨_, _, _, _, _, _, _, _, rfl⟩

theorem drop_sink_moves (s : State) (ref : Log.SinkRef) : Moves bars s (s.dropSink ref) :=
  moves_trans (surroundings_moves ⟨_, _, _, _, _, _, _, _, rfl⟩) (outputs_moves (release_in_outputs _ _ _))

theorem open_file_moves (s : State) (path : Text) (append : Bool) (format : Log.Format) :
    Moves bars s (s.openFile path append format).1 := by
  cases found : Disk.resolve path with
  | none =>
      simp only [openFile, found]
      exact moves_refl s
  | some name =>
      simp only [openFile, found]
      exact surroundings_moves ⟨_, _, _, _, _, _, _, _, rfl⟩

theorem add_file_sink_moves (s : State) (path : Text) (append : Bool) (format : Log.Format) :
    Moves bars s (s.addFileSink path append format).1 :=
  moves_trans (open_file_moves s path append format) (hold_sink_moves _ _)

theorem add_child_moves (s : State) (parent child : Log.SinkRef) : Moves bars s (s.addChild parent child) := by
  cases found : s.sink parent with
  | fanOut children =>
      simp only [addChild, found]
      exact outputs_moves (set_sink_outputs s parent _)
  | _ =>
      simp only [addChild, found]
      exact moves_refl s

theorem set_logger_moves (s : State) (logger : Log.Logger) : Moves bars s (s.setLogger logger) :=
  surroundings_moves ⟨_, _, _, _, _, _, _, _, rfl⟩

theorem push_to_logger_moves (s : State) (sink : Log.Sink) :
    Moves bars s ((s.pushSink sink).1.addSink (s.pushSink sink).2) :=
  surroundings_moves ⟨_, _, _, _, _, _, _, _, rfl⟩

theorem add_console_moves (s : State) (config : Log.Config) : Moves bars s (s.addConsole config) := by
  by_cases console : config.console = true
  · rw [addConsole, if_pos console]
    exact push_to_logger_moves s _
  · rw [addConsole, if_neg console]
    exact moves_refl s

theorem add_log_file_moves (s : State) (config : Log.Config) : Moves bars s (s.addLogFile config) := by
  have opened : Moves bars s (s.openFile config.file true config.format).1 := open_file_moves s _ true _
  by_cases none : config.file = []
  · rw [addLogFile, if_pos none]
    exact moves_refl s
  · rw [addLogFile, if_neg none]
    by_cases writable : (s.openFile config.file true config.format).2.isOpen = true
    · simp only [if_pos writable]
      exact moves_trans opened (push_to_logger_moves _ _)
    · simp only [if_neg writable]
      exact moves_trans opened (outputs_moves (emit_outputs _ _ rfl))

theorem configure_log_moves (s : State) (config : Log.Config) : Moves bars s (s.configureLog config) :=
  moves_trans (moves_trans (moves_trans (set_logger_moves s _) (outputs_moves (release_in_outputs _ _ _)))
    (add_console_moves _ config)) (add_log_file_moves _ config)

theorem perform_moves (s : State) (request : Request) : Moves bars s (ending (s.perform request)) := by
  cases request with
  | writeFile path content => exact write_disk_moves s path content
  | loadSource path => exact load_source_moves s path
  | addReporter display => exact move_moves (.addReporter s _)
  | setColors ref colors => exact move_moves (.adjustReporter s ref _ (set_colors_keeps colors))
  | report ref kind remark => exact report_moves s ref kind remark
  | setHandler ref handler => exact move_moves (.adjustReporter s ref _ (fun _ => ⟨rfl, rfl⟩))
  | resetReporter ref => exact move_moves (.resetReporter s ref)
  | addAccumulator ref what option enabled => exact move_moves (.addAccumulator s ref _)
  | warn ref remark => exact warn_moves s ref remark
  | summarize ref => exact summarize_moves s ref
  | addContext ref settings => exact move_moves (.addContext s ref settings)
  | summarizeWarnings context =>
      rw [perform, ending_ok]
      exact summarize_warnings_moves s context
  | emission context kind remark => exact emission_moves s context kind remark
  | addUnit source context => exact move_moves (.addUnit s source context)
  | body unit => exact body_moves s unit
  | setBody unit tree => exact set_body_moves s unit tree
  | takeBody unit => exact take_body_moves s unit
  | encounteredXml unit position => exact encountered_xml_moves s unit position
  | addDependency unit symbol => exact adjust_moves s unit _ (fun _ => ⟨rfl, rfl, rfl, rfl⟩)
  | addDefinition unit symbol => exact adjust_moves s unit _ (fun _ => ⟨rfl, rfl, rfl, rfl⟩)
  | cacheTransformed unit tree result => exact adjust_moves s unit _ (cache_transformed_keeps tree result)
  | forgetTransformed unit tree => exact adjust_moves s unit _ (forget_transformed_keeps tree)
  | markFeature unit feature => exact adjust_moves s unit _ (mark_feature_keeps feature)
  | setTarget unit position => exact adjust_moves s unit _ (set_target_keeps position)
  | freshName unit kind stem => exact fresh_name_moves s unit kind stem
  | addCheck unit check => exact move_moves (.addCheck s unit check)
  | putSynthetic cache symbol tree => exact put_synthetic_moves s cache symbol tree
  | removeSynthetic cache symbol => exact remove_synthetic_moves s cache symbol
  | getSynthetic cache symbol => exact notices_moves s cache _
  | clearSynthetics cache =>
      rw [perform, ending_ok, clearSynthetics]
      exact modify_cache_moves s cache _
  | freezeSynthetics cache =>
      rw [perform, ending_ok, freezeSynthetics]
      exact modify_cache_moves s cache _
  | observeSynthetics cache observer =>
      rw [perform, ending_ok, observeSynthetics]
      exact modify_cache_moves s cache _
  | addRun context => exact move_moves (.addRun s context)
  | addSource run source => exact add_source_moves s run source
  | configureLog config => exact configure_log_moves s config
  | flushLogger => exact outputs_moves (flush_logger_outputs s)
  | log level tag message => exact outputs_moves (log_record_outputs s _)
  | logRecord record => exact outputs_moves (log_record_outputs s record)
  | trace level tag message => exact trace_moves s level tag message
  | addFileSink path append format => exact add_file_sink_moves s path append format
  | writeSink sink record => exact outputs_moves (write_sink_outputs s sink record)
  | flushSink sink => exact outputs_moves (flush_sink_outputs s sink)
  | dropSink sink => exact drop_sink_moves s sink
  | addChild parent child => exact add_child_moves s parent child
  | _ => exact surroundings_moves ⟨_, _, _, _, _, _, _, _, rfl⟩

end State

end UnitRegistry
