import UnitRegistry.State.Runs

set_option autoImplicit false

namespace UnitRegistry

open Log (Sink SinkRef FileSink Record Level)

def Event.isOutput : Event → Bool
  | .console _ _ => true
  | .standardError _ => true
  | .logged _ _ => true
  | .flushed _ => true
  | .observed _ _ _ => true
  | _ => false

namespace State

def Outputs (s t : State) : Prop :=
  ∃ disk sinks, ∃ events : List Event, (∀ event ∈ events, event.isOutput = true) ∧
    t = { s with disk, sinks, journal := s.journal ++ events }

theorem outputs_refl (s : State) : Outputs s s :=
  ⟨s.disk, s.sinks, [], by simp, by simp⟩

theorem outputs_trans {s t u : State} (first : Outputs s t) (second : Outputs t u) : Outputs s u := by
  obtain ⟨_, _, earlier, output, rfl⟩ := first
  obtain ⟨disk, sinks, later, outputLater, rfl⟩ := second
  have joined : s.journal ++ earlier ++ later = s.journal ++ (earlier ++ later) := by
    simp [← Array.toList_inj]
  refine ⟨disk, sinks, earlier ++ later, ?_, by simp [joined]⟩
  intro event member
  rcases List.mem_append.mp member with before | after
  · exact output event before
  · exact outputLater event after

theorem emit_outputs (s : State) (event : Event) (output : event.isOutput = true) : Outputs s (s.emit event) :=
  ⟨s.disk, s.sinks, [event], by simpa using output, by simp [emit]⟩

theorem set_sink_outputs (s : State) (ref : SinkRef) (sink : Sink) : Outputs s (s.setSink ref sink) :=
  ⟨s.disk, s.sinks.set ref sink, [], by simp, by simp [setSink]⟩

theorem foldl_outputs {α : Type} (f : State → α → State) (step : ∀ s a, Outputs s (f s a)) (items : List α)
    (s : State) : Outputs s (items.foldl f s) := by
  induction items generalizing s with
  | nil => exact outputs_refl s
  | cons item rest ih => exact outputs_trans (step s item) (ih (f s item))

theorem flush_file_outputs (s : State) (ref : SinkRef) (file : FileSink) : Outputs s (s.flushFile ref file) := by
  by_cases pending : file.isOpen ∧ file.pending ≠ []
  · rw [flushFile, if_pos pending]
    have flushed (disk : Disk) : Outputs s { s with disk } := ⟨disk, s.sinks, [], by simp, by simp⟩
    exact outputs_trans (flushed _) (set_sink_outputs _ _ _)
  · rw [flushFile, if_neg pending]
    exact outputs_refl s

theorem write_file_outputs (s : State) (ref : SinkRef) (file : FileSink) (record : Record) :
    Outputs s (s.writeFile ref file record) := by
  by_cases writable : file.isOpen = true
  · rw [writeFile, if_pos writable]
    by_cases urgent : Level.error ≤ record.level
    · simp only [if_pos urgent]
      exact outputs_trans (set_sink_outputs _ _ _) (flush_file_outputs _ _ _)
    · simp only [if_neg urgent]
      exact set_sink_outputs _ _ _
  · rw [writeFile, if_neg writable]
    exact outputs_refl s

theorem write_to_outputs (record : Record) (depth : Nat) (s : State) (ref : SinkRef) :
    Outputs s (writeTo record depth s ref) := by
  induction depth generalizing s ref with
  | zero => exact outputs_refl s
  | succ depth ih =>
      cases found : s.sink ref with
      | console colors format =>
          simp only [writeTo, found]
          exact emit_outputs _ _ rfl
      | file file =>
          simp only [writeTo, found]
          exact write_file_outputs s ref file record
      | discard =>
          simp only [writeTo, found]
          exact outputs_refl s
      | fanOut children =>
          simp only [writeTo, found]
          exact foldl_outputs _ ih children s
      | recorder label =>
          simp only [writeTo, found]
          exact emit_outputs _ _ rfl

theorem flush_to_outputs (depth : Nat) (s : State) (ref : SinkRef) : Outputs s (flushTo depth s ref) := by
  induction depth generalizing s ref with
  | zero => exact outputs_refl s
  | succ depth ih =>
      cases found : s.sink ref with
      | file file =>
          simp only [flushTo, found]
          exact flush_file_outputs s ref file
      | fanOut children =>
          simp only [flushTo, found]
          exact foldl_outputs _ ih children s
      | recorder label =>
          simp only [flushTo, found]
          exact emit_outputs _ _ rfl
      | _ =>
          simp only [flushTo, found]
          exact outputs_refl s

theorem write_sink_outputs (s : State) (ref : SinkRef) (record : Record) : Outputs s (s.writeSink ref record) :=
  write_to_outputs record _ s ref

theorem flush_sink_outputs (s : State) (ref : SinkRef) : Outputs s (s.flushSink ref) := flush_to_outputs _ s ref

theorem log_record_outputs (s : State) (record : Record) : Outputs s (s.logRecord record) :=
  foldl_outputs _ (fun s ref => write_sink_outputs s ref record) _ s

theorem trace_outputs (s : State) (level : Level) (tag message : Text) :
    Outputs s (s.trace level tag message) := by
  by_cases accepted : s.logger.accepts (min level .fatal) tag = true
  · simp only [trace, if_pos accepted]
    exact log_record_outputs s _
  · simp only [trace, if_neg accepted]
    exact outputs_refl s

theorem flush_logger_outputs (s : State) : Outputs s s.flushLogger := foldl_outputs _ flush_sink_outputs _ s

theorem close_sink_outputs (s : State) (ref : SinkRef) : Outputs s (s.closeSink ref) := by
  cases found : s.sink ref with
  | file file =>
      simp only [closeSink, found]
      exact outputs_trans (flush_file_outputs s ref file) (set_sink_outputs _ _ _)
  | fanOut children =>
      simp only [closeSink, found]
      exact set_sink_outputs _ _ _
  | _ =>
      simp only [closeSink, found]
      exact outputs_refl s

theorem release_in_outputs (steps : Nat) (s : State) (due : List SinkRef) :
    Outputs s (releaseIn steps s due) := by
  induction steps generalizing s due with
  | zero => exact outputs_refl s
  | succ steps ih =>
      cases due with
      | nil => exact outputs_refl s
      | cons ref due =>
          by_cases held : ref ∈ due ∨ ref ∈ s.sinkHolds
          · rw [releaseIn, if_pos held]
            exact ih s due
          · rw [releaseIn, if_neg held]
            exact outputs_trans (close_sink_outputs s ref) (ih _ _)

theorem print_outputs (s : State) (shown : Option (Stream × List Text)) : Outputs s (s.print shown) := by
  cases shown with
  | none => exact outputs_refl s
  | some lines =>
      refine foldl_outputs _ (fun s line => ?_) _ s
      cases stream : lines.1 with
      | named label => exact emit_outputs _ _ rfl
      | standardError => exact emit_outputs _ _ rfl

theorem notify_outputs (ref : CacheRef) (s : State) (notice : SyntheticNotice) :
    Outputs s (notify ref s notice) := by
  cases seen : (s.cache ref).observer with
  | nobody =>
      simp only [notify, seen]
      exact outputs_refl s
  | log =>
      simp only [notify, seen]
      exact trace_outputs s _ _ _
  | recorder label =>
      simp only [notify, seen]
      exact emit_outputs _ _ rfl

theorem log_checks_outputs (s : State) (unit : UnitRef) (count : Nat) : Outputs s (s.logChecks unit count) := by
  by_cases none : count = 0
  · rw [logChecks, if_pos none]
    exact outputs_refl s
  · rw [logChecks, if_neg none]
    exact trace_outputs s _ _ _

theorem log_stop_outputs (s : State) (run : RunRef) (phase : Phase) : Outputs s (s.logStop run phase) := by
  rw [logStop]
  exact trace_outputs s _ _ _

theorem log_end_outputs (s : State) (run : RunRef) : Outputs s (s.logEnd run) := by
  rw [logEnd]
  exact trace_outputs s _ _ _

end State

end UnitRegistry
