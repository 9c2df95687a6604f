import UnitRegistry.Proofs.Reporting

set_option autoImplicit false

namespace UnitRegistry

namespace Request

def isReporting : Request → Bool
  | .addReporter _ => true
  | .setColors _ _ => true
  | .report _ _ _ => true
  | .setHandler _ _ => true
  | .resetReporter _ => true
  | .warn _ _ => true
  | .summarize _ => true
  | .summarizeWarnings _ => true
  | .emission _ _ _ => true
  | _ => false

def isConfiguring : Request → Bool
  | .configureLog _ => true
  | .setLogLevel _ => true
  | .setLogFilter _ => true
  | .addSink _ => true
  | _ => false

end Request

namespace State

def Inert (s t : State) : Prop := ∃ disk sinks heldSinks journal, t = { s with disk, sinks, heldSinks, journal }

theorem inert_refl (s : State) : Inert s s := ⟨_, _, _, _, rfl⟩

theorem inert_trans {s t u : State} (first : Inert s t) (second : Inert t u) : Inert s u := by
  obtain ⟨_, _, _, _, rfl⟩ := first
  obtain ⟨_, _, _, _, rfl⟩ := second
  exact ⟨_, _, _, _, rfl⟩

theorem outputs_inert {s t : State} (outputs : Outputs s t) : Inert s t := by
  obtain ⟨_, _, _, _, rfl⟩ := outputs
  exact ⟨_, _, _, _, rfl⟩

def Told (s t : State) : Prop :=
  ∃ disk sinks heldSinks reporters contexts accumulators journal,
    t = { s with disk, sinks, heldSinks, reporters, contexts, accumulators, journal }

theorem told_refl (s : State) : Told s s := ⟨_, _, _, _, _, _, _, rfl⟩

theorem told_trans {s t u : State} (first : Told s t) (second : Told t u) : Told s u := by
  obtain ⟨_, _, _, _, _, _, _, rfl⟩ := first
  obtain ⟨_, _, _, _, _, _, _, rfl⟩ := second
  exact ⟨_, _, _, _, _, _, _, rfl⟩

theorem outputs_told {s t : State} (outputs : Outputs s t) : Told s t := by
  obtain ⟨_, _, _, _, rfl⟩ := outputs
  exact ⟨_, _, _, _, _, _, _, rfl⟩

section Operations

variable (s : State)

theorem write_disk_inert (path content : Text) : Inert s (s.writeDisk path content) := by
  cases found : Disk.resolve path <;> simp only [writeDisk, found] <;> exact ⟨_, _, _, _, rfl⟩

theorem load_source_inert (path : Text) : Inert s (s.loadSource path).1 := by
  cases found : (Disk.resolve path).bind s.disk.read? with
  | none =>
      simp only [loadSource, found]
      exact inert_refl s
  | some content =>
      simp only [loadSource, found]
      exact outputs_inert (trace_outputs s _ _ _)

theorem open_file_inert (path : Text) (append : Bool) (format : Log.Format) : Inert s (s.openFile path append format).1 := by
  cases found : Disk.resolve path <;> simp only [openFile, found] <;> exact ⟨_, _, _, _, rfl⟩

theorem add_file_sink_inert (path : Text) (append : Bool) (format : Log.Format) :
    Inert s (s.addFileSink path append format).1 :=
  inert_trans (open_file_inert s path append format) ⟨_, _, _, _, rfl⟩

theorem release_inert (dropped : List Log.SinkRef) : Inert s (s.release dropped) :=
  outputs_inert (release_in_outputs _ s dropped)

theorem drop_sink_inert (ref : Log.SinkRef) : Inert s (s.dropSink ref) := by
  have dropped : Inert s { s with heldSinks := s.heldSinks.erase ref } := ⟨_, _, _, _, rfl⟩
  exact inert_trans dropped (release_inert _ [ref])

theorem add_child_inert (parent child : Log.SinkRef) : Inert s (s.addChild parent child) := by
  cases found : s.sink parent <;> simp only [addChild, found] <;> exact ⟨_, _, _, _, rfl⟩

theorem notices_inert (ref : CacheRef) (notices : List SyntheticNotice) : Inert s (notices.foldl (notify ref) s) :=
  outputs_inert (foldl_outputs _ (notify_outputs ref) notices s)

theorem report_entry_told (ref : ReporterRef) (entry : Entry) : Told s (s.reportEntry ref entry) :=
  told_trans (outputs_told (print_outputs s ((s.reporter ref).shown entry))) ⟨_, _, _, _, _, _, _, rfl⟩

theorem report_told (ref : ReporterRef) (kind : ReportKind) (remark : Remark) : Told s (s.report ref kind remark) := by
  cases kind with
  | remark => exact told_trans (outputs_told (print_outputs s _)) ⟨_, _, _, _, _, _, _, rfl⟩
  | _ => exact report_entry_told s ref _

theorem modify_accumulator_told (ref : AccumulatorRef) (f : Accumulator → Accumulator) :
    Told s (s.modifyAccumulator ref f) := by
  cases ref <;> exact ⟨_, _, _, _, _, _, _, rfl⟩

theorem warn_told (ref : AccumulatorRef) (remark : Remark) : Told s (s.warn ref remark) := by
  have announced : Told s (s.emit (.warned ref remark)) := ⟨_, _, _, _, _, _, _, rfl⟩
  by_cases enabled : ((s.emit (.warned ref remark)).accumulator ref).enabled = true
  · simp only [warn, if_pos enabled]
    exact told_trans announced (report_told _ _ .warning remark)
  · simp only [warn, if_neg enabled]
    exact told_trans announced (modify_accumulator_told _ ref _)

theorem summarize_told (ref : AccumulatorRef) : Told s (s.summarize ref) := by
  cases said : (s.accumulator ref).summary? with
  | none =>
      simp only [summarize, said]
      exact told_refl s
  | some message =>
      have announced : Told s (s.emit (.summarized ref (s.accumulator ref).count)) := ⟨_, _, _, _, _, _, _, rfl⟩
      simp only [summarize, said]
      exact told_trans (told_trans announced (modify_accumulator_told _ ref _)) (report_told _ _ .warning _)

theorem summarize_categories_told (context : ContextRef) (categories : List Category) :
    Told s (categories.foldl (fun s category => s.summarize (.category context category)) s) := by
  induction categories generalizing s with
  | nil => exact told_refl s
  | cons category rest ih => exact told_trans (summarize_told s _) (ih _)

theorem summarize_warnings_told (context : ContextRef) : Told s (s.summarizeWarnings context) :=
  summarize_categories_told s context Category.all

theorem emission_told (context : ContextRef) (kind : EmissionKind) (remark : Remark) :
    Told s (s.emission context kind remark) := by
  cases kind with
  | report kind => exact report_told s _ kind remark
  | categorized category => exact warn_told s _ remark

end Operations

structure Apart (s t : State) : Prop where
  logger : t.logger = s.logger
  reporters : t.reporters = s.reporters

theorem apart_refl (s : State) : Apart s s := ⟨rfl, rfl⟩

theorem apart_trans {s t u : State} (first : Apart s t) (second : Apart t u) : Apart s u :=
  ⟨second.logger.trans first.logger, second.reporters.trans first.reporters⟩

theorem inert_apart {s t : State} (inert : Inert s t) : Apart s t := by
  obtain ⟨_, _, _, _, rfl⟩ := inert
  exact ⟨rfl, rfl⟩

theorem outputs_apart {s t : State} (outputs : Outputs s t) : Apart s t := inert_apart (outputs_inert outputs)

theorem told_logger {s t : State} (told : Told s t) : t.logger = s.logger := by
  obtain ⟨_, _, _, _, _, _, _, rfl⟩ := told
  rfl

section Operations

variable (s : State)

theorem body_apart (ref : UnitRef) : Apart s (s.body ref).1 := by
  by_cases sentinel : (s.unit ref).sentinel = true
  · rw [body, if_pos sentinel]
    exact ⟨rfl, rfl⟩
  · rw [body, if_neg sentinel]
    exact apart_refl s

theorem set_body_apart (ref : UnitRef) (tree : Option NodeRef) : Apart s (s.setBody ref tree) := by
  by_cases sentinel : (s.unit ref).sentinel = true
  · simp only [setBody, if_pos sentinel]
    exact apart_refl s
  · cases tree with
    | none =>
        simp only [setBody, if_neg sentinel]
        exact ⟨rfl, rfl⟩
    | some node =>
        simp only [setBody, if_neg sentinel]
        exact ⟨rfl, rfl⟩

theorem take_body_apart (ref : UnitRef) : Apart s (s.takeBody ref).1 := by
  by_cases sentinel : ((s.addNode {}).1.unit ref).sentinel = true
  · simp only [takeBody, if_pos sentinel]
    exact ⟨rfl, rfl⟩
  · simp only [takeBody, if_neg sentinel]
    exact ⟨rfl, rfl⟩

theorem encountered_xml_apart (ref : UnitRef) (position : Position) : Apart s (ending (s.encounteredXml ref position)) := by
  cases result : (s.unit ref).encounteredXml position with
  | error fault =>
      simp only [encounteredXml, result]
      exact apart_refl s
  | ok u =>
      simp only [encounteredXml, result]
      exact ⟨rfl, rfl⟩

theorem add_check_apart (ref : UnitRef) (check : Check) : Apart s (s.addCheck ref check) := by
  cases own : (s.unit ref).sentinel with
  | true =>
      rw [add_check_sentinel s ref check own]
      exact apart_refl s
  | false =>
      rw [add_check_own s ref check own]
      exact ⟨rfl, rfl⟩

theorem add_source_apart (run : RunRef) (source : Option FileRef) : Apart s (ending (s.addSource run source)) := by
  cases source with
  | none => exact apart_refl s
  | some file =>
      cases known : (s.run run).unitOf? (some file) with
      | some unit =>
          rw [add_source_known s run file unit known]
          exact ⟨rfl, rfl⟩
      | none =>
          obtain ⟨message, added⟩ := add_source_new s run file known
          have enrolled : Apart s (s.enrolled run file) := ⟨rfl, rfl⟩
          rw [added]
          exact apart_trans enrolled (outputs_apart (trace_outputs _ _ _ _))

theorem modify_cache_apart (ref : CacheRef) (f : ObservedSynthetics → ObservedSynthetics) : Apart s (s.modifyCache ref f) := by
  cases ref <;> exact ⟨rfl, rfl⟩

theorem put_synthetic_apart (ref : CacheRef) (symbol : Option Symbol) (tree : Option NodeRef) :
    Apart s (s.putSynthetic ref symbol tree) := by
  rw [putSynthetic]
  exact apart_trans (inert_apart (notices_inert s ref _)) (modify_cache_apart _ ref _)

theorem remove_synthetic_apart (ref : CacheRef) (symbol : Option Symbol) : Apart s (s.removeSynthetic ref symbol) := by
  rw [removeSynthetic]
  exact apart_trans (inert_apart (notices_inert s ref _)) (modify_cache_apart _ ref _)

theorem complete_run_apart (run : RunRef) (units : List UnitRef) : Apart s (s.completeRun run units) := by
  obtain ⟨f, modified, _⟩ := complete_run_modifies s run units
  rw [modified]
  exact ⟨rfl, rfl⟩

end Operations

theorem perform_apart (s : State) (request : Request) (reporting : request.isReporting = false)
    (configuring : request.isConfiguring = false) : Apart s (ending (s.perform request)) := by
  cases request with
  | addReporter display => cases reporting
  | setColors ref colors => cases reporting
  | report ref kind remark => cases reporting
  | setHandler ref handler => cases reporting
  | resetReporter ref => cases reporting
  | warn ref remark => cases reporting
  | summarize ref => cases reporting
  | summarizeWarnings context => cases reporting
  | emission context kind remark => cases reporting
  | configureLog config => cases configuring
  | setLogLevel level => cases configuring
  | setLogFilter spec => cases configuring
  | addSink sink => cases configuring
  | writeFile path content => exact inert_apart (write_disk_inert s path content)
  | loadSource path => exact inert_apart (load_source_inert s path)
  | body unit => exact body_apart s unit
  | setBody unit tree => exact set_body_apart s unit tree
  | takeBody unit => exact take_body_apart s unit
  | encounteredXml unit position => exact encountered_xml_apart s unit position
  | addCheck unit check => exact add_check_apart s unit check
  | putSynthetic cache symbol tree => exact put_synthetic_apart s cache symbol tree
  | removeSynthetic cache symbol => exact remove_synthetic_apart s cache symbol
  | getSynthetic cache symbol => exact inert_apart (notices_inert s cache _)
  | clearSynthetics cache =>
      rw [perform, ending_ok, clearSynthetics]
      exact modify_cache_apart s cache _
  | freezeSynthetics cache =>
      rw [perform, ending_ok, freezeSynthetics]
      exact modify_cache_apart s cache _
  | observeSynthetics cache observer =>
      rw [perform, ending_ok, observeSynthetics]
      exact modify_cache_apart s cache _
  | addSource run source => exact add_source_apart s run source
  | flushLogger => exact outputs_apart (flush_logger_outputs s)
  | log level tag message => exact outputs_apart (log_record_outputs s _)
  | logRecord record => exact outputs_apart (log_record_outputs s record)
  | trace level tag message => exact outputs_apart (trace_outputs s level tag message)
  | addFileSink path append format => exact inert_apart (add_file_sink_inert s path append format)
  | writeSink sink record => exact outputs_apart (write_sink_outputs s sink record)
  | flushSink sink => exact outputs_apart (flush_sink_outputs s sink)
  | dropSink sink => exact inert_apart (drop_sink_inert s sink)
  | addChild parent child => exact inert_apart (add_child_inert s parent child)
  | _ => exact ⟨rfl, rfl⟩

structure AddsSinks (s t : State) : Prop where
  logger : ∃ added, t.logger = { s.logger with sinks := s.logger.sinks ++ added }
  reporters : t.reporters = s.reporters

theorem adds_sinks_trans {s t u : State} (first : AddsSinks s t) (second : AddsSinks t u) : AddsSinks s u := by
  obtain ⟨earlier, before⟩ := first.logger
  obtain ⟨later, after⟩ := second.logger
  exact ⟨⟨earlier ++ later, by rw [after, before, List.append_assoc]⟩, second.reporters.trans first.reporters⟩

section Reporters

variable (s : State)

theorem adds_no_sinks {t : State} (apart : Apart s t) : AddsSinks s t :=
  ⟨⟨[], by rw [apart.logger, List.append_nil]⟩, apart.reporters⟩

theorem add_console_adds (config : Log.Config) : AddsSinks s (s.addConsole config) := by
  by_cases console : config.console = true
  · rw [addConsole, if_pos console]
    exact ⟨⟨[s.sinks.size], rfl⟩, rfl⟩
  · rw [addConsole, if_neg console]
    exact adds_no_sinks s (apart_refl s)

theorem add_log_file_adds (config : Log.Config) : AddsSinks s (s.addLogFile config) := by
  have opened := inert_apart (open_file_inert s config.file true config.format)
  by_cases none : config.file = []
  · rw [addLogFile, if_pos none]
    exact adds_no_sinks s (apart_refl s)
  · rw [addLogFile, if_neg none]
    by_cases writable : (s.openFile config.file true config.format).2.isOpen = true
    · simp only [if_pos writable]
      exact ⟨⟨[_], congrArg (Log.Logger.addSink · _) opened.logger⟩, opened.reporters⟩
    · simp only [if_neg writable]
      exact adds_no_sinks s ⟨opened.logger, opened.reporters⟩

theorem configure_log_adds (config : Log.Config) :
    AddsSinks (s.setLogger (.configure config.level config.filter)) (s.configureLog config) := by
  have released := adds_no_sinks _ (inert_apart (release_inert (s.setLogger (.configure config.level config.filter)) s.logger.sinks))
  exact adds_sinks_trans (adds_sinks_trans released (add_console_adds _ config)) (add_log_file_adds _ config)

theorem perform_reporters (request : Request) (reporting : request.isReporting = false) :
    (ending (s.perform request)).reporters = s.reporters := by
  cases configuring : request.isConfiguring with
  | false => exact (perform_apart s request reporting configuring).reporters
  | true =>
      cases request with
      | configureLog config => exact (configure_log_adds s config).reporters
      | setLogLevel level => rfl
      | setLogFilter spec => rfl
      | addSink sink => rfl
      | _ => cases configuring

end Reporters

section Logger

variable (s : State)

theorem perform_logger (request : Request) (configuring : request.isConfiguring = false) :
    (ending (s.perform request)).logger = s.logger := by
  cases reporting : request.isReporting with
  | false => exact (perform_apart s request reporting configuring).logger
  | true =>
      cases request with
      | report ref kind remark => exact told_logger (report_told s ref kind remark)
      | warn ref remark => exact told_logger (warn_told s ref remark)
      | summarize ref => exact told_logger (summarize_told s ref)
      | summarizeWarnings context =>
          rw [perform, ending_ok]
          exact told_logger (summarize_warnings_told s context)
      | emission context kind remark => exact told_logger (emission_told s context kind remark)
      | addReporter display => rfl
      | setColors ref colors => rfl
      | setHandler ref handler => rfl
      | resetReporter ref => rfl
      | _ => cases reporting

end Logger

end State

end UnitRegistry
