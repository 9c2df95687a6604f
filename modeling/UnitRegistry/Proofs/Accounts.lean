import UnitRegistry.Proofs.Ledger

set_option autoImplicit false

namespace UnitRegistry

namespace State

variable {bars : Drive → RunRef → Prop} {ref : AccumulatorRef}

def Has (s : State) : AccumulatorRef → Prop
  | .category context _ => context < s.contexts.size
  | .single index => index < s.accumulators.size

structure Accounts (ref : AccumulatorRef) (s : State) (events : List Event) (t : State) : Prop where
  journal : t.journal.toList = s.journal.toList ++ events
  has : t.Has ref
  settings : (t.accumulator ref).clear = (s.accumulator ref).clear
  reporter : t.accumulatorReporter ref = s.accumulatorReporter ref
  ledger : Ledger ref (s.accumulatorReporter ref) (s.accumulator ref).clear (s.accumulator ref).held.toList events
    (t.accumulator ref).held.toList

theorem accounts_trans {s t u : State} {earlier later : List Event} (first : Accounts ref s earlier t)
    (second : Accounts ref t later u) : Accounts ref s (earlier ++ later) u := by
  have ledger := second.ledger
  rw [first.settings, first.reporter] at ledger
  refine ⟨?_, second.has, ?_, ?_, ledger_append first.ledger ledger⟩
  · rw [second.journal, first.journal, List.append_assoc]
  · rw [second.settings, first.settings]
  · rw [second.reporter, first.reporter]

theorem accounts_asides {s t : State} (events : List Event) (journal : t.journal.toList = s.journal.toList ++ events)
    (asides : ∀ event ∈ events, event.IsAside ref) (has : t.Has ref) (same : t.accumulator ref = s.accumulator ref)
    (reporter : t.accumulatorReporter ref = s.accumulatorReporter ref) : Accounts ref s events t := by
  refine ⟨journal, has, by rw [same], reporter, ?_⟩
  rw [same]
  exact ledger_asides _ events asides

theorem accounts_apart {s t : State} (events : List Event) (journal : t.journal.toList = s.journal.toList ++ events)
    (asides : ∀ event ∈ events, event.IsAside ref) (has : s.Has ref) (contexts : t.contexts = s.contexts)
    (accumulators : t.accumulators = s.accumulators) : Accounts ref s events t := by
  refine accounts_asides events journal asides ?_ ?_ ?_
  · cases ref with
    | category context category => rwa [Has, contexts]
    | single index => rwa [Has, accumulators]
  · cases ref with
    | category context category => simp only [accumulator, State.context, contexts]
    | single index => simp only [accumulator, accumulators]
  · cases ref with
    | category context category => simp only [accumulatorReporter, State.context, contexts]
    | single index => simp only [accumulatorReporter, accumulators]

theorem accounts_still {s t : State} (journal : t.journal = s.journal) (has : s.Has ref) (contexts : t.contexts = s.contexts)
    (accumulators : t.accumulators = s.accumulators) : Accounts ref s [] t :=
  accounts_apart [] (by simp [journal]) (by simp) has contexts accumulators

theorem accounts_emit {s t : State} (event : Event) (journal : t.journal = s.journal.push event) (aside : event.IsAside ref)
    (has : s.Has ref) (contexts : t.contexts = s.contexts) (accumulators : t.accumulators = s.accumulators) :
    Accounts ref s [event] t :=
  accounts_apart [event] (by simp [journal]) (by simpa using aside) has contexts accumulators

theorem has_modify_accumulator (s : State) (other : AccumulatorRef) (f : Accumulator → Accumulator) :
    (s.modifyAccumulator other f).Has ref ↔ s.Has ref := by
  cases other <;> cases ref <;> simp [Has, modifyAccumulator, modifyContext]

theorem reporter_modify_accumulator (s : State) (other : AccumulatorRef) (f : Accumulator → Accumulator) :
    (s.modifyAccumulator other f).accumulatorReporter ref = s.accumulatorReporter ref := by
  cases other with
  | category context category =>
      cases ref with
      | category => exact modify_category_reporter s context _ category f
      | single => rfl
  | single index =>
      cases ref with
      | category => rfl
      | single other =>
          change ((s.accumulators.modify index _).get other).reporter = (s.accumulators.get other).reporter
          rw [Store.get_modify_cases]
          split <;> rfl

theorem accumulator_modify_self (s : State) (f : Accumulator → Accumulator) (has : s.Has ref) :
    (s.modifyAccumulator ref f).accumulator ref = f (s.accumulator ref) := by
  cases ref with
  | category context category =>
      change ((s.modifyContext context (·.modify category f)).context context).get category = _
      rw [context_modify, if_pos ⟨rfl, has⟩]
      cases category <;> rfl
  | single index =>
      change ((s.accumulators.modify index _).get index).accumulator = _
      rw [Store.get_modify_cases, if_pos ⟨rfl, has⟩]
      rfl

theorem accumulator_modify_of_ne (s : State) (other : AccumulatorRef) (f : Accumulator → Accumulator)
    (different : other ≠ ref) : (s.modifyAccumulator other f).accumulator ref = s.accumulator ref := by
  cases other with
  | category context category =>
      cases ref with
      | single => rfl
      | category here mine =>
          by_cases same : context = here
          · subst here
            exact modify_other_category s context category mine f fun equal => different (by rw [equal])
          · change ((s.modifyContext context (·.modify category f)).context here).get mine = _
            rw [context_modify, if_neg fun both => same both.1]
            rfl
  | single index =>
      cases ref with
      | category => rfl
      | single other =>
          change ((s.accumulators.modify index _).get other).accumulator = (s.accumulators.get other).accumulator
          rw [Store.get_modify_cases, if_neg fun both => different (by rw [both.1])]

theorem accounts_outputs {s t : State} (outputs : Outputs s t) (has : s.Has ref) : ∃ events, Accounts ref s events t := by
  obtain ⟨_, _, events, output, rfl⟩ := outputs
  exact ⟨events, accounts_apart events (by simp) (fun event member => output_aside ref event (output event member)) has rfl rfl⟩

theorem announced_journal {s begun printed : State} (event : Event) (begins : begun.journal = s.journal.push event)
    (outputs : Outputs begun printed) (reporter : ReporterRef) (entry : Entry) :
    ∃ shown : List Event, (∀ event ∈ shown, event.isOutput = true) ∧
      (printed.recorded reporter entry).journal.toList = s.journal.toList ++ announced event shown reporter entry := by
  obtain ⟨_, _, shown, output, rfl⟩ := outputs
  exact ⟨shown, output, by simp [recorded, emit, modifyReporter, begins, announced]⟩

theorem warning_serious (s : State) : s.warningSeverity ≠ .info := by
  cases switch : s.options.warningsAsErrors <;> simp [warningSeverity, switch]

theorem emit_keeps (ref : AccumulatorRef) (s : State) (event : Event) :
    ((s.emit event).Has ref ↔ s.Has ref) ∧ (s.emit event).accumulator ref = s.accumulator ref ∧
      (s.emit event).accumulatorReporter ref = s.accumulatorReporter ref := by
  cases ref <;> exact ⟨Iff.rfl, rfl, rfl⟩

theorem recorded_keeps (ref : AccumulatorRef) {begun printed : State} (outputs : Outputs begun printed)
    (reporter : ReporterRef) (entry : Entry) :
    ((printed.recorded reporter entry).Has ref ↔ begun.Has ref) ∧
      (printed.recorded reporter entry).accumulator ref = begun.accumulator ref ∧
      (printed.recorded reporter entry).accumulatorReporter ref = begun.accumulatorReporter ref := by
  obtain ⟨_, _, _, _, rfl⟩ := outputs
  cases ref <;> exact ⟨Iff.rfl, rfl, rfl⟩

theorem announced_asides (event : Event) (shown : List Event) (reporter : ReporterRef) (entry : Entry)
    (output : ∀ event ∈ shown, event.isOutput = true) (aside : event.IsAside ref) :
    ∀ other ∈ announced event shown reporter entry, other.IsAside ref := by
  intro other member
  rcases List.mem_cons.mp member with rfl | rest
  · exact aside
  · exact announced_rest_aside ref shown reporter entry output other rest

theorem pass_accounts {s printed : State} (other : AccumulatorRef) (remark : Remark) (has : s.Has ref)
    (enabled : (s.accumulator other).enabled = true) (outputs : Outputs (s.emit (.warned other remark)) printed) :
    ∃ events, Accounts ref s events (printed.recorded (s.accumulatorReporter other) (s.warned remark)) := by
  obtain ⟨shown, output, journal⟩ :=
    announced_journal (.warned other remark) rfl outputs (s.accumulatorReporter other) (s.warned remark)
  obtain ⟨there, same, kept⟩ := recorded_keeps ref outputs (s.accumulatorReporter other) (s.warned remark)
  obtain ⟨stays, unchanged, sent⟩ := emit_keeps ref s (.warned other remark)
  refine ⟨_, journal, there.mpr (stays.mpr has), by rw [same, unchanged], by rw [kept, sent], ?_⟩
  rw [same, unchanged]
  by_cases mine : other = ref
  · subst mine
    exact ledger_pass _ remark s.warningSeverity shown enabled (warning_serious s) output
  · refine ledger_asides _ _ (announced_asides _ shown _ _ output ?_)
    exact ⟨by simp [Event.warning?, mine], rfl⟩

theorem change_aside (s : State) (event : Event) (other : AccumulatorRef) (f : Accumulator → Accumulator) (has : s.Has ref)
    (aside : event.IsAside ref) (different : other ≠ ref) :
    Accounts ref s [event] ((s.emit event).modifyAccumulator other f) := by
  obtain ⟨stays, unchanged, sent⟩ := emit_keeps ref s event
  have journal := (modify_accumulator_units (s.emit event) other f).2
  refine accounts_asides [event] ?_ (by simpa using aside) ((has_modify_accumulator _ other f).mpr (stays.mpr has)) ?_ ?_
  · rw [journal]
    simp [emit]
  · rw [accumulator_modify_of_ne _ other f different, unchanged]
  · rw [reporter_modify_accumulator, sent]

theorem hold_accounts (s : State) (other : AccumulatorRef) (remark : Remark) (has : s.Has ref)
    (disabled : (s.accumulator other).enabled = false) :
    Accounts ref s [.warned other remark] ((s.emit (.warned other remark)).modifyAccumulator other (·.hold remark)) := by
  by_cases mine : other = ref
  · subst mine
    obtain ⟨stays, unchanged, sent⟩ := emit_keeps other s (.warned other remark)
    have journal := (modify_accumulator_units (s.emit (.warned other remark)) other (·.hold remark)).2
    have changed := accumulator_modify_self (s.emit (.warned other remark)) (·.hold remark) (stays.mpr has)
    rw [unchanged] at changed
    refine ⟨?_, (has_modify_accumulator _ other _).mpr (stays.mpr has), by rw [changed]; rfl, ?_, ?_⟩
    · rw [journal]
      simp [emit]
    · rw [reporter_modify_accumulator, sent]
    · rw [changed, Accumulator.hold, Array.toList_push]
      exact .hold remark disabled (.nil _)
  · exact change_aside s _ other _ has ⟨by simp [Event.warning?, mine], rfl⟩ mine

theorem clear_accounts {s printed : State} (other : AccumulatorRef) (has : s.Has ref)
    (held : (s.accumulator other).count ≠ 0) (outputs : Outputs (s.emptied other) printed) :
    ∃ events, Accounts ref s events (printed.recorded (s.accumulatorReporter other)
      (s.warned ⟨.nowhere, (s.accumulator other).summaryMessage (s.accumulator other).count⟩)) := by
  have emptying := modify_accumulator_units (s.emit (.summarized other (s.accumulator other).count)) other Accumulator.clear
  obtain ⟨shown, output, journal⟩ := announced_journal (.summarized other (s.accumulator other).count) emptying.2 outputs
    (s.accumulatorReporter other) (s.warned ⟨.nowhere, (s.accumulator other).summaryMessage (s.accumulator other).count⟩)
  obtain ⟨there, same, kept⟩ := recorded_keeps ref outputs (s.accumulatorReporter other)
    (s.warned ⟨.nowhere, (s.accumulator other).summaryMessage (s.accumulator other).count⟩)
  obtain ⟨stays, unchanged, sent⟩ := emit_keeps ref s (.summarized other (s.accumulator other).count)
  have stands := (has_modify_accumulator _ other Accumulator.clear).mpr (stays.mpr has)
  have reporter : (s.emptied other).accumulatorReporter ref = s.accumulatorReporter ref := by
    rw [emptied, reporter_modify_accumulator, sent]
  by_cases mine : other = ref
  · subst mine
    have cleared : (s.emptied other).accumulator other = (s.accumulator other).clear := by
      rw [emptied, accumulator_modify_self _ _ (stays.mpr has), unchanged]
    have some : (s.accumulator other).held.toList ≠ [] := by
      intro none
      exact held (by rw [Accumulator.count, ← Array.length_toList, none]; rfl)
    refine ⟨_, journal, there.mpr stands, by rw [same, cleared]; rfl, by rw [kept, reporter], ?_⟩
    rw [same, cleared, Accumulator.count, ← Array.length_toList]
    exact ledger_summarize _ s.warningSeverity shown some (warning_serious s) output
  · refine ⟨_, accounts_asides _ journal (announced_asides _ shown _ _ output ?_) (there.mpr stands) ?_ (by rw [kept, reporter])⟩
    · exact ⟨rfl, by simp [Event.summary?, mine]⟩
    · rw [same, emptied, accumulator_modify_of_ne _ other _ mine, unchanged]

theorem add_accumulator_accounts (s : State) (reporter : ReporterRef) (accumulator : Accumulator) (has : s.Has ref) :
    Accounts ref s [] (s.addAccumulator reporter accumulator).1 := by
  cases ref with
  | category context category => exact accounts_asides [] (by simp [addAccumulator]) (by simp) has rfl rfl
  | single index =>
      have old : (s.addAccumulator reporter accumulator).1.accumulators.get index = s.accumulators.get index :=
        Store.get_push_of_ne _ _ _ (Nat.ne_of_lt has)
      refine accounts_asides [] (by simp [addAccumulator]) (by simp) ?_ ?_ ?_
      · simp only [Has, addAccumulator, Store.size_push]
        exact Nat.lt_succ_of_lt has
      · simp only [State.accumulator, old]
      · simp only [accumulatorReporter, old]

theorem add_context_accounts (s : State) (reporter : ReporterRef) (settings : WarningSettings) (has : s.Has ref) :
    Accounts ref s [] (s.addContext reporter settings).1 := by
  cases ref with
  | single index => exact accounts_asides [] (by simp [addContext]) (by simp) has rfl rfl
  | category context category =>
      have old : (s.addContext reporter settings).1.context context = s.context context :=
        Store.get_push_of_ne _ _ _ (Nat.ne_of_lt has)
      refine accounts_asides [] (by simp [addContext]) (by simp) ?_ ?_ ?_
      · simp only [Has, addContext, Store.size_push]
        exact Nat.lt_succ_of_lt has
      · simp only [State.accumulator, old]
      · simp only [accumulatorReporter, old]

theorem move_accounts {s t : State} (move : Move bars s t) (has : s.Has ref) : ∃ events, Accounts ref s events t := by
  have nothing {event : Event} (aside : event.IsAside ref) : Accounts ref s [event] (s.emit event) :=
    accounts_emit event rfl aside has rfl rfl
  cases move with
  | outputs outputs => exact accounts_outputs outputs has
  | surroundings around =>
      obtain ⟨_, _, _, _, _, _, _, _, rfl⟩ := around
      exact ⟨[], accounts_still rfl has rfl rfl⟩
  | startHandler reporter handler remark => exact ⟨_, nothing ⟨rfl, rfl⟩⟩
  | record reporter entry => exact ⟨_, accounts_emit (.reported reporter entry) rfl ⟨rfl, rfl⟩ has rfl rfl⟩
  | resetReporter reporter => exact ⟨_, accounts_emit (.reset reporter) rfl ⟨rfl, rfl⟩ has rfl rfl⟩
  | addAccumulator reporter accumulator => exact ⟨[], add_accumulator_accounts s reporter accumulator has⟩
  | addContext reporter settings => exact ⟨[], add_context_accounts s reporter settings has⟩
  | passWarning other remark enabled outputs => exact pass_accounts other remark has enabled outputs
  | holdWarning other remark disabled => exact ⟨_, hold_accounts s other remark has disabled⟩
  | clearWarnings other held outputs => exact clear_accounts other has held outputs
  | addCheck unit check =>
      cases own : (s.unit unit).sentinel with
      | true =>
          rw [add_check_sentinel s unit check own]
          exact ⟨[], accounts_still rfl has rfl rfl⟩
      | false =>
          rw [add_check_own s unit check own]
          exact ⟨_, accounts_emit (.checkAdded unit check) rfl ⟨rfl, rfl⟩ has rfl rfl⟩
  | startCheck unit check => exact ⟨_, accounts_emit (.checkStarted unit check) rfl ⟨rfl, rfl⟩ has rfl rfl⟩
  | submit run file => exact ⟨_, nothing ⟨rfl, rfl⟩⟩
  | register run file => exact ⟨_, accounts_emit (.submitted run file) rfl ⟨rfl, rfl⟩ has rfl rfl⟩
  | startPhase run phase unit => exact ⟨_, nothing ⟨rfl, rfl⟩⟩
  | completeRun run units =>
      obtain ⟨f, modified, _⟩ := complete_run_modifies s run units
      rw [modified]
      exact ⟨[], accounts_still rfl has rfl rfl⟩
  | _ => exact ⟨[], accounts_still rfl has rfl rfl⟩

theorem moves_accounts (ref : AccumulatorRef) {s t : State} (moves : Moves bars s t) (has : s.Has ref) :
    Accounts ref s (s.since t) t :=
  moves_since Accounts.journal Accounts.has (fun has => accounts_still rfl has rfl rfl) accounts_trans move_accounts moves has

end State

end UnitRegistry
