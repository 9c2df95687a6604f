import UnitRegistry.Proofs.Registry

set_option autoImplicit false

namespace UnitRegistry

def Event.isReport : Event → Bool
  | .reported _ _ => true
  | .summarized _ _ => true
  | event => event.isOutput

namespace State

variable {bars : Drive → RunRef → Prop}

def errorCount (s : State) (ref : ReporterRef) : Nat := (s.reporter ref).count .error

def runErrors (s : State) (run : RunRef) : Nat := s.errorCount (s.runReporter run)

def holds (s : State) (context : ContextRef) (category : Category) : Bool :=
  (s.accumulator (.category context category)).count ≠ 0

def heldCategories (s : State) (context : ContextRef) : List Category := Category.all.filter (s.holds context)

theorem run_has_errors_iff (s : State) (run : RunRef) : s.runHasErrors run = true ↔ s.runErrors run ≠ 0 := by
  simp [runHasErrors, hasErrors, Reporter.hasErrors, runErrors, errorCount, Nat.pos_iff_ne_zero]

theorem run_has_no_errors_iff (s : State) (run : RunRef) : s.runHasErrors run = false ↔ s.runErrors run = 0 := by
  rw [Bool.eq_false_iff, ne_eq, run_has_errors_iff, ne_eq, Decidable.not_not]

theorem held_categories_nil_iff (s : State) (context : ContextRef) :
    s.heldCategories context = [] ↔
      ∀ category, (s.accumulator (.category context category)).count = 0 := by
  have complete (category : Category) : category ∈ Category.all := by cases category <;> decide
  simp only [heldCategories, List.filter_eq_nil_iff, holds, decide_eq_true_eq, Decidable.not_not]
  exact ⟨fun none category => none category (complete category), fun none category _ => none category⟩

structure Reports (s t : State) : Prop where
  options : t.options = s.options
  units : t.units = s.units
  runs : t.runs = s.runs
  known : t.reporters.size = s.reporters.size
  reporter : ∀ context, (t.context context).reporter = (s.context context).reporter
  events : ∃ events, t.journal.toList = s.journal.toList ++ events ∧ ∀ event ∈ events, event.isReport = true

theorem reports_refl (s : State) : Reports s s := ⟨rfl, rfl, rfl, rfl, fun _ => rfl, [], by simp, by simp⟩

theorem reports_trans {s t u : State} (first : Reports s t) (second : Reports t u) : Reports s u := by
  obtain ⟨earlier, journal, report⟩ := first.events
  obtain ⟨later, journalLater, reportLater⟩ := second.events
  refine ⟨?_, ?_, ?_, ?_, fun context => ?_, earlier ++ later, ?_, fun event member => ?_⟩
  · rw [second.options, first.options]
  · rw [second.units, first.units]
  · rw [second.runs, first.runs]
  · rw [second.known, first.known]
  · rw [second.reporter, first.reporter]
  · rw [journalLater, journal, List.append_assoc]
  · rcases List.mem_append.mp member with before | after
    · exact report event before
    · exact reportLater event after

theorem output_report (event : Event) (output : event.isOutput = true) : event.isReport = true := by
  cases event <;> first | rfl | cases output

theorem reports_read_nothing {α : Type} {s t : State} (read : Event → Option α)
    (blind : ∀ event : Event, event.isReport = true → read event = none) (reports : Reports s t) :
    (s.since t).filterMap read = [] := by
  obtain ⟨events, journal, report⟩ := reports.events
  rw [since_eq journal]
  exact List.filterMap_eq_nil_iff.mpr fun event member => blind event (report event member)

theorem outputs_reports {s t : State} (outputs : Outputs s t) : Reports s t := by
  obtain ⟨_, _, events, output, rfl⟩ := outputs
  exact ⟨rfl, rfl, rfl, rfl, fun _ => rfl, events, by simp, fun event member => output_report event (output event member)⟩

theorem outputs_reporters {s t : State} (outputs : Outputs s t) : t.reporters = s.reporters := by
  obtain ⟨_, _, _, _, rfl⟩ := outputs
  rfl

theorem outputs_contexts {s t : State} (outputs : Outputs s t) : t.contexts = s.contexts := by
  obtain ⟨_, _, _, _, rfl⟩ := outputs
  rfl

theorem record_reports (s : State) (ref : ReporterRef) (entry : Entry) : Reports s (s.recorded ref entry) :=
  ⟨rfl, rfl, rfl, by simp [recorded, emit, modifyReporter], fun _ => rfl, [.reported ref entry],
    by simp [recorded, emit, modifyReporter], by simp [Event.isReport]⟩

theorem report_entry_reports (s : State) (ref : ReporterRef) (entry : Entry) : Reports s (s.reportEntry ref entry) :=
  reports_trans (outputs_reports (print_outputs s ((s.reporter ref).shown entry))) (record_reports _ ref entry)

theorem report_entry_contexts (s : State) (ref : ReporterRef) (entry : Entry) :
    (s.reportEntry ref entry).contexts = s.contexts := by
  have printed := outputs_contexts (print_outputs s ((s.reporter ref).shown entry))
  exact printed

theorem reporter_modify (s : State) (ref other : ReporterRef) (f : Reporter → Reporter) :
    (s.modifyReporter ref f).reporter other =
      if ref = other ∧ ref < s.reporters.size then f (s.reporter other) else s.reporter other :=
  Store.get_modify_cases s.reporters ref other f

theorem context_modify (s : State) (ref other : ContextRef) (f : RunContext → RunContext) :
    (s.modifyContext ref f).context other =
      if ref = other ∧ ref < s.contexts.size then f (s.context other) else s.context other :=
  Store.get_modify_cases s.contexts ref other f

theorem report_entry_errors (s : State) (ref : ReporterRef) (entry : Entry) (there : ref < s.reporters.size) :
    (s.reportEntry ref entry).errorCount ref =
      s.errorCount ref + if entry.severity = .error then 1 else 0 := by
  have printed := outputs_reporters (print_outputs s ((s.reporter ref).shown entry))
  have same : (s.print ((s.reporter ref).shown entry)).reporter ref = s.reporter ref :=
    congrArg (fun reporters : Store Reporter => reporters.get ref) printed
  have changed : (s.reportEntry ref entry).reporter ref = (s.reporter ref).record entry := by
    change State.reporter (modifyReporter _ ref _) ref = _
    rw [reporter_modify, printed, if_pos ⟨rfl, there⟩, same]
  simp only [errorCount, changed, Reporter.count, Reporter.record]
  cases entry.severity <;> simp [Counts.increment, Counts.get]

theorem report_warning_errors (s : State) (ref : ReporterRef) (remark : Remark) (there : ref < s.reporters.size) :
    (s.report ref .warning remark).errorCount ref =
      s.errorCount ref + if s.options.warningsAsErrors then 1 else 0 := by
  rw [report, report_entry_errors s ref _ there]
  cases switch : s.options.warningsAsErrors <;> simp [warningSeverity, switch]

theorem holds_of_accumulator {s t : State} {context : ContextRef} {category : Category}
    (same : t.accumulator (.category context category) = s.accumulator (.category context category)) :
    t.holds context category = s.holds context category := by
  simp only [holds, same]

theorem report_holds (s : State) (ref : ReporterRef) (remark : Remark) (context : ContextRef) (category : Category) :
    (s.report ref .warning remark).holds context category = s.holds context category := by
  refine holds_of_accumulator ?_
  have kept : (s.report ref .warning remark).contexts = s.contexts := report_entry_contexts s ref _
  simp only [accumulator, State.context, kept]

theorem modify_category_reporter (s : State) (context other : ContextRef) (category : Category)
    (f : Accumulator → Accumulator) :
    ((s.modifyAccumulator (.category context category) f).context other).reporter = (s.context other).reporter := by
  change ((s.modifyContext context (·.modify category f)).context other).reporter = _
  rw [context_modify]
  split
  · cases category <;> rfl
  · rfl

theorem modify_other_category (s : State) (context : ContextRef) (category other : Category)
    (f : Accumulator → Accumulator) (different : category ≠ other) :
    (s.modifyAccumulator (.category context category) f).accumulator (.category context other) =
      s.accumulator (.category context other) := by
  change ((s.modifyContext context (·.modify category f)).context context).get other = _
  rw [context_modify]
  split
  · cases category <;> cases other <;> first | rfl | exact (different rfl).elim
  · rfl

section Summary

variable (s : State) (context : ContextRef) (category : Category)

theorem summarize_none (none : s.holds context category = false) : s.summarize (.category context category) = s := by
  have empty : (s.accumulator (.category context category)).count = 0 := by simpa [holds] using none
  simp [summarize, Accumulator.summary?, empty]

theorem summarize_held (held : s.holds context category = true) :
    ∃ remark, s.summarize (.category context category) =
      (s.emptied (.category context category)).report (s.context context).reporter .warning remark := by
  have some : (s.accumulator (.category context category)).count ≠ 0 := by simpa [holds] using held
  simp only [summarize, Accumulator.summary?, if_neg some]
  exact ⟨_, rfl⟩

theorem emptied_reports : Reports s (s.emptied (.category context category)) :=
  ⟨rfl, rfl, rfl, rfl, fun other => modify_category_reporter _ context other category Accumulator.clear,
    [.summarized (.category context category) (s.accumulator (.category context category)).count],
    by simp [emptied, modifyAccumulator, emit, modifyContext],
    by simp [Event.isReport]⟩

theorem summarize_category_reports : Reports s (s.summarize (.category context category)) := by
  cases held : s.holds context category with
  | false =>
      rw [summarize_none s context category held]
      exact reports_refl s
  | true =>
      obtain ⟨remark, summary⟩ := summarize_held s context category held
      rw [summary]
      exact reports_trans (emptied_reports s context category) (report_entry_reports _ _ _)

theorem summarize_category_errors (there : (s.context context).reporter < s.reporters.size) :
    (s.summarize (.category context category)).errorCount (s.context context).reporter =
      s.errorCount (s.context context).reporter +
        if s.options.warningsAsErrors ∧ s.holds context category then 1 else 0 := by
  cases held : s.holds context category with
  | false =>
      rw [summarize_none s context category held]
      simp
  | true =>
      have same : (s.emptied (.category context category)).errorCount (s.context context).reporter =
          s.errorCount (s.context context).reporter := rfl
      obtain ⟨remark, summary⟩ := summarize_held s context category held
      rw [summary, report_warning_errors (s.emptied (.category context category)) _ remark there, same,
        (emptied_reports s context category).options]
      simp

theorem summarize_category_holds (other : Category) (different : category ≠ other) :
    (s.summarize (.category context category)).holds context other = s.holds context other := by
  cases held : s.holds context category with
  | false => rw [summarize_none s context category held]
  | true =>
      obtain ⟨remark, summary⟩ := summarize_held s context category held
      rw [summary, report_holds]
      exact holds_of_accumulator (modify_other_category _ context category other Accumulator.clear different)

end Summary

-- One summary empties its own category only, so the next ones find what they would have found.
theorem summarize_categories_errors (context : ContextRef) (categories : List Category) (once : categories.Nodup)
    (s : State) (there : (s.context context).reporter < s.reporters.size) :
    (categories.foldl (fun s category => s.summarize (.category context category)) s).errorCount
        (s.context context).reporter =
      s.errorCount (s.context context).reporter +
        if s.options.warningsAsErrors then (categories.filter (s.holds context)).length else 0 := by
  induction categories generalizing s with
  | nil => simp
  | cons category rest ih =>
      obtain ⟨fresh, once⟩ := List.nodup_cons.mp once
      have reports := summarize_category_reports s context category
      have errors := summarize_category_errors s context category there
      have rest_holds : rest.filter ((s.summarize (.category context category)).holds context) =
          rest.filter (s.holds context) :=
        List.filter_congr fun other member => summarize_category_holds s context category other fun same =>
          fresh (same ▸ member)
      have later := ih once (s.summarize (.category context category)) (by rwa [reports.reporter, reports.known])
      rw [reports.reporter, reports.options, rest_holds] at later
      rw [List.foldl_cons, later, errors]
      cases s.options.warningsAsErrors with
      | false => simp
      | true =>
          cases held : s.holds context category with
          | false => simp [held]
          | true =>
              simp [held]
              omega

theorem summarize_categories_reports (context : ContextRef) (categories : List Category) (s : State) :
    Reports s (categories.foldl (fun s category => s.summarize (.category context category)) s) := by
  induction categories generalizing s with
  | nil => exact reports_refl s
  | cons category rest ih => exact reports_trans (summarize_category_reports s context category) (ih _)

theorem summarize_warnings_reports (s : State) (context : ContextRef) : Reports s (s.summarizeWarnings context) :=
  summarize_categories_reports context Category.all s

theorem summarize_warnings_errors (s : State) (context : ContextRef)
    (there : (s.context context).reporter < s.reporters.size) :
    (s.summarizeWarnings context).errorCount (s.context context).reporter =
      s.errorCount (s.context context).reporter +
        if s.options.warningsAsErrors then (s.heldCategories context).length else 0 :=
  summarize_categories_errors context Category.all (by decide) s there

section Links

structure Linked (run : RunRef) (s : State) : Prop where
  known : run < s.runs.size
  context : (s.run run).context < s.contexts.size
  reporter : s.runReporter run < s.reporters.size

structure Widens (s t : State) : Prop where
  runs : s.runs.size ≤ t.runs.size
  contexts : s.contexts.size ≤ t.contexts.size
  reporters : s.reporters.size ≤ t.reporters.size
  context : ∀ run < s.runs.size, (t.run run).context = (s.run run).context
  reporter : ∀ context < s.contexts.size, (t.context context).reporter = (s.context context).reporter

theorem widens_same {s t : State} (runs : t.runs = s.runs) (contexts : t.contexts = s.contexts)
    (reporters : t.reporters.size = s.reporters.size) : Widens s t :=
  ⟨by simp [runs], by simp [contexts], by simp [reporters], fun run _ => by simp only [State.run, runs],
    fun context _ => by simp only [State.context, contexts]⟩

theorem widens_trans {s t u : State} (first : Widens s t) (second : Widens t u) : Widens s u := by
  refine ⟨Nat.le_trans first.runs second.runs, Nat.le_trans first.contexts second.contexts,
    Nat.le_trans first.reporters second.reporters, fun run there => ?_, fun context there => ?_⟩
  · rw [second.context run (Nat.lt_of_lt_of_le there first.runs), first.context run there]
  · rw [second.reporter context (Nat.lt_of_lt_of_le there first.contexts), first.reporter context there]

theorem widens_modify_run (s : State) (run : RunRef) (f : Run → Run) (keeps : ∀ r : Run, (f r).context = r.context) :
    Widens s (s.modifyRun run f) := by
  refine ⟨by simp [modifyRun], Nat.le_refl _, Nat.le_refl _, fun other _ => ?_, fun _ _ => rfl⟩
  rw [run_modify]
  split
  · exact keeps _
  · rfl

theorem widens_modify_accumulator (s : State) (ref : AccumulatorRef) (f : Accumulator → Accumulator) :
    Widens s (s.modifyAccumulator ref f) := by
  cases ref with
  | single index => exact widens_same rfl rfl rfl
  | category context category =>
      refine ⟨Nat.le_refl _, ?_, Nat.le_refl _, fun _ _ => rfl, fun other _ => ?_⟩
      · simp [modifyAccumulator, modifyContext]
      · exact modify_category_reporter s context other category f

theorem move_widens {s t : State} (move : Move bars s t) : Widens s t := by
  have emitted (event : Event) : Widens s (s.emit event) := widens_same rfl rfl rfl
  cases move with
  | outputs outputs =>
      obtain ⟨_, _, _, _, rfl⟩ := outputs
      exact widens_same rfl rfl rfl
  | surroundings around =>
      obtain ⟨_, _, _, _, _, _, _, _, rfl⟩ := around
      exact widens_same rfl rfl rfl
  | addReporter reporter =>
      refine ⟨Nat.le_refl _, Nat.le_refl _, ?_, fun _ _ => rfl, fun _ _ => rfl⟩
      simp [State.addReporter]
  | record ref entry => exact widens_same rfl rfl (by simp [recorded, emit, modifyReporter])
  | resetReporter ref => exact widens_same rfl rfl (by simp [State.resetReporter, emit, modifyReporter])
  | adjustReporter ref f keeps => exact widens_same rfl rfl (by simp [modifyReporter])
  | addContext ref settings =>
      refine ⟨Nat.le_refl _, ?_, Nat.le_refl _, fun _ _ => rfl, fun context there => ?_⟩
      · simp [State.addContext]
      · exact congrArg RunContext.reporter (Store.get_push_of_ne s.contexts _ context (Nat.ne_of_lt there))
  | holdWarning ref remark => exact widens_trans (emitted _) (widens_modify_accumulator _ ref _)
  | passWarning ref remark enabled outputs =>
      obtain ⟨_, _, _, _, rfl⟩ := outputs
      exact widens_same rfl rfl (by simp [recorded, emit, modifyReporter])
  | clearWarnings ref held outputs =>
      have emptying : Widens s (s.emptied ref) := widens_trans (emitted _) (widens_modify_accumulator _ ref _)
      refine widens_trans emptying ?_
      obtain ⟨_, _, _, _, rfl⟩ := outputs
      exact widens_same rfl rfl (by simp [recorded, emit, modifyReporter])
  | addCheck unit check =>
      cases own : (s.unit unit).sentinel with
      | true =>
          rw [add_check_sentinel s unit check own]
          exact widens_same rfl rfl rfl
      | false =>
          rw [add_check_own s unit check own]
          exact widens_same rfl rfl rfl
  | addRun context =>
      refine ⟨?_, Nat.le_refl _, Nat.le_refl _, fun run there => ?_, fun _ _ => rfl⟩
      · simp [State.addRun]
      · rw [run_add, if_neg (Nat.ne_of_lt there)]
  | register run file =>
      have added : Widens s ((s.emit (.submitted run file)).addUnit (some file) (s.run run).context).1 :=
        widens_same rfl rfl rfl
      exact widens_trans added (widens_modify_run _ run _ fun _ => rfl)
  | openRun run => exact widens_modify_run s run _ fun _ => rfl
  | completeRun run units =>
      obtain ⟨f, modified, keeps⟩ := complete_run_modifies s run units
      rw [modified]
      exact widens_modify_run s run f fun r => (keeps r).1
  | _ => exact widens_same rfl rfl rfl

theorem moves_widen {s t : State} (moves : Moves bars s t) : Widens s t := by
  induction moves with
  | refl => exact widens_same rfl rfl rfl
  | tail _ move ih => exact widens_trans ih (move_widens move)

theorem linked_of_widens {run : RunRef} {s t : State} (linked : Linked run s) (widens : Widens s t) :
    Linked run t ∧ t.runReporter run = s.runReporter run := by
  have context := widens.context run linked.known
  have same : t.runReporter run = s.runReporter run := by
    rw [runReporter, runReporter, context, widens.reporter _ linked.context]
  refine ⟨⟨Nat.lt_of_lt_of_le linked.known widens.runs, ?_, ?_⟩, same⟩
  · rw [context]
    exact Nat.lt_of_lt_of_le linked.context widens.contexts
  · rw [same]
    exact Nat.lt_of_lt_of_le linked.reporter widens.reporters

end Links

end State

end UnitRegistry
