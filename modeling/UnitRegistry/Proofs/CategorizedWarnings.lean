import UnitRegistry.Proofs.Completion
import UnitRegistry.Proofs.Deliveries

set_option autoImplicit false

namespace UnitRegistry

def Request.warnings (context : ContextRef) (category : Category) (remark : Remark) : List Request :=
  [.warn (.category context category) remark, .emission context (.categorized category) remark]

namespace State

section Summaries

variable (s : State) (context : ContextRef) (category : Category)

theorem has_of_holds (held : s.holds context category = true) : s.Has (.category context category) := by
  refine Nat.lt_of_not_le fun absent => ?_
  have default : s.context context = default := Store.get_of_size_le _ _ absent
  simp only [holds, accumulator, default] at held
  cases category <;> simp [Accumulator.count] at held <;> exact held rfl

theorem summarize_category_empties : (s.summarize (.category context category)).holds context category = false := by
  cases held : s.holds context category with
  | false => rw [summarize_none s context category held, held]
  | true =>
      have there := has_of_holds s context category held
      obtain ⟨remark, summary⟩ := summarize_held s context category held
      have cleared : (s.emptied (.category context category)).accumulator (.category context category) =
          Accumulator.clear _ := accumulator_modify_self _ Accumulator.clear there
      rw [summary, report_holds, holds, cleared]
      rfl

theorem summarize_keeps_empty (other : Category) (empty : s.holds context category = false) :
    (s.summarize (.category context other)).holds context category = false := by
  by_cases same : other = category
  · subst same
    exact summarize_category_empties s context other
  · rw [summarize_category_holds s context other category same, empty]

end Summaries

theorem summarize_categories_empty (context : ContextRef) (category : Category) (categories : List Category) (s : State)
    (settled : category ∈ categories ∨ s.holds context category = false) :
    (categories.foldl (fun s category => s.summarize (.category context category)) s).holds context category = false := by
  induction categories generalizing s with
  | nil => simpa using settled
  | cons first rest ih =>
      refine ih _ ?_
      rcases settled with member | empty
      · rcases List.mem_cons.mp member with rfl | later
        · exact .inr (summarize_category_empties s context category)
        · exact .inl later
      · exact .inr (summarize_keeps_empty s context category first empty)

theorem summarize_warnings_empty (s : State) (context : ContextRef) (category : Category) :
    ((s.summarizeWarnings context).accumulator (.category context category)).count = 0 := by
  have empty : (s.summarizeWarnings context).holds context category = false :=
    summarize_categories_empty context category Category.all s (.inl (by cases category <;> decide))
  simpa [holds] using empty

structure Accounted (ref : AccumulatorRef) (reporter : ReporterRef) (made : Accumulator) (s t : State) : Prop where
  settings : (t.accumulator ref).clear = made
  ledger : Ledger ref reporter made [] (s.since t) (t.accumulator ref).held.toList
  enabled : made.enabled = true → (t.accumulator ref).count = 0 ∧ summariesStated ref (s.since t) = []
  disabled : made.enabled = false →
    (warningsGiven ref (s.since t)).length = (t.accumulator ref).count + (summariesStated ref (s.since t)).sum ∧
      ∀ number ∈ summariesStated ref (s.since t), 1 ≤ number

theorem accounted_of_accounts {ref : AccumulatorRef} {s t : State} (accounts : Accounts ref s (s.since t) t)
    (empty : (s.accumulator ref).held = #[]) :
    Accounted ref (s.accumulatorReporter ref) (s.accumulator ref).clear s t := by
  have ledger := accounts.ledger
  rw [empty] at ledger
  refine ⟨accounts.settings, ledger, fun enabled => ?_, fun disabled => ?_⟩
  · obtain ⟨none, stated⟩ := ledger_enabled enabled ledger rfl
    exact ⟨by rw [Accumulator.count, ← Array.length_toList, none]; rfl, stated⟩
  · obtain ⟨positive, stated, split, sum⟩ := ledger_disabled disabled ledger
    refine ⟨?_, positive⟩
    have length := congrArg List.length split
    rw [List.length_append, List.length_append, sum] at length
    simpa [Accumulator.count, Nat.add_comm] using length

def summaries (s : State) (context : ContextRef) : List Entry :=
  Category.all.flatMap fun category =>
    let held := s.accumulator (.category context category)
    if held.count = 0 then []
    else [⟨if s.options.warningsAsErrors then .error else .warning, .nowhere, held.summaryMessage held.count⟩]

structure Treats (context : ContextRef) (category : Category) (reporter : ReporterRef) (enabled : Bool) (s : State) : Prop where
  shown : enabled = true → ∀ remark, ∀ request ∈ Request.warnings context category remark,
    let entry : Entry := ⟨if s.options.warningsAsErrors then .error else .warning, remark.position, remark.message⟩
    let t := ending (s.perform request)
    s.Informs reporter [entry] t ∧
      t.accumulator (.category context category) = s.accumulator (.category context category) ∧
      ∃ printed, (∀ event ∈ printed, Event.isOutput event = true) ∧
        s.since t = announced (.warned (.category context category) remark) printed reporter entry
  held : enabled = false → ∀ remark, ∀ request ∈ Request.warnings context category remark,
    let t := ending (s.perform request)
    t.reporters = s.reporters ∧
      t.accumulator (.category context category) = (s.accumulator (.category context category)).hold remark ∧
      s.since t = [.warned (.category context category) remark]
  silent : (s.accumulator (.category context category)).count = 0 →
    ending (s.perform (.summarize (.category context category))) = s
  stated : (s.accumulator (.category context category)).count ≠ 0 →
    let number := (s.accumulator (.category context category)).count
    let entry : Entry := ⟨if s.options.warningsAsErrors then .error else .warning, .nowhere,
      (s.accumulator (.category context category)).summaryMessage number⟩
    let t := ending (s.perform (.summarize (.category context category)))
    s.Informs reporter [entry] t ∧ (t.accumulator (.category context category)).count = 0 ∧
      (∃ rest, entry.message = (if number = 1 then Text.ofString "there was " else Text.ofString "there were ") ++
        Text.ofNat number ++ " " ++ category.what ++ rest) ∧
      ∃ printed, (∀ event ∈ printed, Event.isOutput event = true) ∧
        s.since t = announced (.summarized (.category context category) number) printed reporter entry
  apart : ∀ other, other ≠ .category context category → ∀ remark,
    ∀ request ∈ .summarize (.category context category) :: Request.warnings context category remark,
      (ending (s.perform request)).accumulator other = s.accumulator other
  together : let t := ending (s.perform (.summarizeWarnings context))
    s.Informs reporter (s.summaries context) t ∧ ∀ category, (t.accumulator (.category context category)).count = 0

theorem summary_message_number (a : Accumulator) (number : Nat) :
    ∃ rest, a.summaryMessage number = (if number = 1 then Text.ofString "there was " else Text.ofString "there were ") ++
      Text.ofNat number ++ " " ++ a.what ++ rest := by
  by_cases single : number = 1
  · subst single
    exact ⟨" warning; re-run with " ++ a.option ++ " for details", by simp [Accumulator.summaryMessage]; rfl⟩
  · exact ⟨" warnings; re-run with " ++ a.option ++ " for details", by simp [Accumulator.summaryMessage, single]; rfl⟩

section Treatment

variable (s : State) (ref : AccumulatorRef) (remark : Remark)

theorem perform_warning {context : ContextRef} {category : Category} {request : Request}
    (gives : request ∈ Request.warnings context category remark) :
    ending (s.perform request) = s.warn (.category context category) remark := by
  simp only [Request.warnings, List.mem_cons, List.not_mem_nil, or_false] at gives
  obtain rfl | rfl := gives <;> rfl

theorem warn_shown (there : s.accumulatorReporter ref < s.reporters.size)
    (enabled : (s.accumulator ref).enabled = true) :
    s.Informs (s.accumulatorReporter ref) [s.warned remark] (s.warn ref remark) ∧
      (s.warn ref remark).accumulator ref = s.accumulator ref ∧
      ∃ printed, (∀ event ∈ printed, Event.isOutput event = true) ∧ s.since (s.warn ref remark) =
        announced (.warned ref remark) printed (s.accumulatorReporter ref) (s.warned remark) := by
  obtain ⟨printed, outputs, passed⟩ := warn_passes s ref remark enabled
  obtain ⟨shown, output, journal⟩ :=
    announced_journal (.warned ref remark) rfl outputs (s.accumulatorReporter ref) (s.warned remark)
  obtain ⟨_, kept, _⟩ := recorded_keeps ref outputs (s.accumulatorReporter ref) (s.warned remark)
  have same : (s.emit (.warned ref remark)).reporters = s.reporters := rfl
  rw [passed]
  exact ⟨informs_recorded same outputs _ there, kept.trans (emit_keeps ref s _).2.1, shown, output, since_eq journal⟩

theorem warn_held (has : s.Has ref) (disabled : (s.accumulator ref).enabled = false) :
    (s.warn ref remark).reporters = s.reporters ∧
      (s.warn ref remark).accumulator ref = (s.accumulator ref).hold remark ∧
      s.since (s.warn ref remark) = [.warned ref remark] := by
  obtain ⟨stays, unchanged, _⟩ := emit_keeps ref s (.warned ref remark)
  have changed := accumulator_modify_self (s.emit (.warned ref remark)) (·.hold remark) (stays.mpr has)
  have journal := (modify_accumulator_units (s.emit (.warned ref remark)) ref (·.hold remark)).2
  rw [unchanged] at changed
  rw [warn_holds s ref remark disabled]
  refine ⟨?_, changed, since_eq (by rw [journal]; simp [emit])⟩
  cases ref <;> rfl

theorem summarize_stated (has : s.Has ref) (there : s.accumulatorReporter ref < s.reporters.size)
    (some : (s.accumulator ref).count ≠ 0) :
    let entry := s.warned ⟨.nowhere, (s.accumulator ref).summaryMessage (s.accumulator ref).count⟩
    s.Informs (s.accumulatorReporter ref) [entry] (s.summarize ref) ∧ ((s.summarize ref).accumulator ref).count = 0 ∧
      ∃ printed, (∀ event ∈ printed, Event.isOutput event = true) ∧ s.since (s.summarize ref) =
        announced (.summarized ref (s.accumulator ref).count) printed (s.accumulatorReporter ref) entry := by
  intro entry
  obtain ⟨printed, outputs, stated⟩ := summarize_states s ref some
  have journal := (modify_accumulator_units (s.emit (.summarized ref (s.accumulator ref).count)) ref Accumulator.clear).2
  obtain ⟨shown, output, journal⟩ :=
    announced_journal (.summarized ref (s.accumulator ref).count) journal outputs (s.accumulatorReporter ref) entry
  obtain ⟨_, kept, _⟩ := recorded_keeps ref outputs (s.accumulatorReporter ref) entry
  have stays := (emit_keeps ref s (.summarized ref (s.accumulator ref).count)).1
  have cleared : (s.emptied ref).accumulator ref = Accumulator.clear _ := accumulator_modify_self _ Accumulator.clear (stays.mpr has)
  rw [stated]
  refine ⟨informs_recorded (emptied_reporters s ref) outputs _ there, ?_, shown, output, since_eq journal⟩
  rw [kept, cleared]
  rfl

theorem warn_apart (other : AccumulatorRef) (different : other ≠ ref) :
    (s.warn ref remark).accumulator other = s.accumulator other := by
  cases enabled : (s.accumulator ref).enabled with
  | true =>
      obtain ⟨printed, outputs, passed⟩ := warn_passes s ref remark enabled
      rw [passed, (recorded_keeps other outputs _ _).2.1, (emit_keeps other s _).2.1]
  | false =>
      rw [warn_holds s ref remark enabled, accumulator_modify_of_ne _ ref _ different.symm, (emit_keeps other s _).2.1]

theorem summarize_apart (other : AccumulatorRef) (different : other ≠ ref) :
    (s.summarize ref).accumulator other = s.accumulator other := by
  by_cases none : (s.accumulator ref).count = 0
  · rw [summarize_idle s ref none]
  · obtain ⟨printed, outputs, stated⟩ := summarize_states s ref none
    rw [stated, (recorded_keeps other outputs _ _).2.1, emptied, accumulator_modify_of_ne _ ref _ different.symm,
      (emit_keeps other s _).2.1]

end Treatment

theorem stated_categories (s : State) (context : ContextRef) :
    (Category.all.flatMap fun category => s.stated (.category context category)) =
      (s.summaries context).map ((s.context context).reporter, ·) := by
  rw [summaries, List.map_flatMap]
  congr 1
  funext category
  by_cases none : (s.accumulator (.category context category)).count = 0
  · simp only [stated, Accumulator.summary?, if_pos none]
    rfl
  · simp only [stated, Accumulator.summary?, if_neg none]
    rfl

theorem summarize_warnings_informs (s : State) (context : ContextRef) (there : (s.context context).reporter < s.reporters.size) :
    s.Informs (s.context context).reporter (s.summaries context) (s.summarizeWarnings context) := by
  refine informs_of_delivered _ there ?_
  rw [summarize_warnings_reporters, stated_categories]

theorem treats (s : State) (context : ContextRef) (category : Category) (there : context < s.contexts.size)
    (known : (s.context context).reporter < s.reporters.size)
    (named : (s.accumulator (.category context category)).what = category.what) :
    s.Treats context category (s.context context).reporter (s.accumulator (.category context category)).enabled where
  shown enabled remark request gives := by
    rw [perform_warning s remark gives]
    exact warn_shown s (.category context category) remark known enabled
  held disabled remark request gives := by
    rw [perform_warning s remark gives]
    exact warn_held s (.category context category) remark there disabled
  silent none := summarize_idle s _ none
  stated some := by
    obtain ⟨informs, empty, since⟩ := summarize_stated s (.category context category) there known some
    have states := summary_message_number (s.accumulator (.category context category))
      (s.accumulator (.category context category)).count
    rw [named] at states
    exact ⟨informs, empty, states, since⟩
  apart other different remark request among := by
    obtain rfl | gives := List.mem_cons.mp among
    · exact summarize_apart s _ other different
    · rw [perform_warning s remark gives]
      exact warn_apart s _ remark other different
  together := by
    rw [perform, ending_ok]
    exact ⟨summarize_warnings_informs s context known, summarize_warnings_empty s context⟩

end State

namespace Session

variable {Data : Type}

theorem concluded_empty (run : RunRef) (category : Category) (s : Session Data) :
    ((s.concluded run).state.accumulator (.category ((s.concluded run).state.run run).context category)).count = 0 := by
  have logged := State.outputs_contexts (State.log_end_outputs (s.state.summarizeWarnings (s.state.run run).context) run)
  have same : (s.concluded run).state.accumulator (.category (s.state.run run).context category) =
      (s.state.summarizeWarnings (s.state.run run).context).accumulator (.category (s.state.run run).context category) := by
    simp only [concluded, State.accumulator, State.context, logged]
  rw [concluded_run, same]
  exact State.summarize_warnings_empty s.state (s.state.run run).context category

theorem concluded_informs (run : RunRef) (s : Session Data)
    (known : (s.state.context (s.state.run run).context).reporter < s.state.reporters.size) :
    s.state.Informs (s.state.context (s.state.run run).context).reporter (s.state.summaries (s.state.run run).context)
      (s.concluded run).state := by
  have summary := State.summarize_warnings_reporters s.state (s.state.run run).context
  have logged := State.outputs_reporters (State.log_end_outputs (s.state.summarizeWarnings (s.state.run run).context) run)
  rw [State.stated_categories] at summary
  exact State.informs_of_delivered _ known (logged.trans summary)

-- From a context whose categories are as they were made, whatever is done: by programs, by phases and checks of any run,
-- by what they call back, and also when one of them is stopped. It holds after any moves, so at each moment on the way.
theorem categorized_warnings_accounted (fuel : Nat) (program : Program Data) (s : Session Data) (context : ContextRef)
    (reporter : ReporterRef) (settings : WarningSettings) (category : Category)
    (there : context < s.state.contexts.size) (made : s.state.context context = .create reporter settings)
    (known : reporter < s.state.reporters.size) :
    let ref := AccumulatorRef.category context category
    let new := (RunContext.create reporter settings).get category
    let t := ending (exec fuel program s)
    s.state.Moves State.nobody t.state ∧
      (∀ m, s.state.Moves State.nobody m →
        State.Accounted ref reporter new s.state m ∧ m.Treats context category reporter new.enabled) ∧
      ∀ fuel run phases returned u, runPhases (exec fuel) fuel run phases t = .ok returned u →
        (∀ category, (u.state.accumulator (.category (u.state.run run).context category)).count = 0) ∧
        ∃ settled, runUnits (exec fuel) fuel run phases t = .ok () settled ∧
          ((u.state.run run).context = context →
            settled.state.Informs reporter (settled.state.summaries context) u.state) := by
  intro ref new t
  have here : s.state.accumulator ref = new := congrArg (·.get category) made
  have sender : s.state.accumulatorReporter ref = reporter := congrArg RunContext.reporter made
  have clear : new.clear = new := by cases category <;> rfl
  have moves : s.state.Moves State.nobody t.state :=
    (keeps_exec fuel program program.respects_nobody s (respects_nobody s)).moves
  have reaches (m : State) (moves : s.state.Moves State.nobody m) : context < m.contexts.size ∧
      (m.context context).reporter = reporter ∧ reporter < m.reporters.size := by
    have widens := State.moves_widen moves
    exact ⟨Nat.lt_of_lt_of_le there widens.contexts, (widens.reporter context there).trans sender,
      Nat.lt_of_lt_of_le known widens.reporters⟩
  refine ⟨moves, fun m moves => ?_, fun fuel run phases returned u ran => ?_⟩
  · have accounted := State.accounted_of_accounts (State.moves_accounts ref moves there) (by rw [here]; cases category <;> rfl)
    rw [here, clear, sender] at accounted
    obtain ⟨bound, same, stays⟩ := reaches m moves
    have switch : (m.accumulator ref).clear.enabled = new.enabled := congrArg Accumulator.enabled accounted.settings
    have named : (m.accumulator ref).clear.what = category.what := by
      rw [accounted.settings]
      cases category <;> rfl
    have treated := State.treats m context category bound (by rwa [same]) named
    change m.Treats context category _ (m.accumulator ref).clear.enabled at treated
    rw [switch, same] at treated
    exact ⟨accounted, treated⟩
  · obtain ⟨settled, settling, rfl, _⟩ := (run_phases_ok fuel phases t u returned).mp ran
    refine ⟨fun category => concluded_empty run category settled, settled, settling, fun own => ?_⟩
    have running := moves_of_ok (keeps_run_units (keeps_exec fuel) fuel run (fun _ barred => barred.elim) phases) settling
    obtain ⟨_, same, stays⟩ := reaches settled.state (State.moves_trans moves running)
    rw [concluded_run] at own
    have informs := concluded_informs run settled (by rwa [own, same])
    rwa [own, same] at informs

def storedRun : Session Unit :=
  ready ([.addReporter (.store #[] #[]), .addContext 1 {}, .addRun 1] ++
    [.addSource 0 (some sourceA), .addSource 0 (some sourceB)]) [deprecating]

theorem deprecations_accounted :
    let t := ending (exec 9 (.runPhases 0 [some namer] fun _ => .done) storedRun)
    let u := ending (runPhases (exec 9) 9 0 [some namer] storedRun)
    (summariesStated (.category 1 .deprecation) (storedRun.state.since t.state)).sum = 2 ∧
      (u.state.reporter 1).entries =
        [⟨.warning, .nowhere, "there were 2 deprecation warnings; re-run with -deprecation for details"⟩] ∧
      (u.state.reporter 1).count .warning = 1 := by
  intro t u
  have start := categorized_warnings_accounted 9 (.runPhases 0 [some namer] fun _ => .done) storedRun 1 1 {} .deprecation
    (by decide +kernel) (by decide +kernel) (by decide +kernel)
  have nothing := categorized_warnings_accounted 9 (.done : Program Unit) storedRun 1 1 {} .deprecation
    (by decide +kernel) (by decide +kernel) (by decide +kernel)
  obtain ⟨moves, moments, _⟩ := start
  obtain ⟨_, _, calls⟩ := nothing
  obtain ⟨_, settled, settling, informs⟩ := calls 9 0 [some namer] true u (eq_ok_of_value (by decide +kernel))
  have same : settled = ending (runUnits (exec 9) 9 0 [some namer] storedRun) := (congrArg ending settling).symm
  have takes := (informs (by decide +kernel)).takes
  have given : (warningsGiven (.category 1 .deprecation) (storedRun.state.since t.state)).length = 2 := by decide +kernel
  have empty : (t.state.accumulator (.category 1 .deprecation)).count = 0 := by decide +kernel
  have law := ((moments t.state moves).1.disabled rfl).1
  rw [given, empty, Nat.zero_add] at law
  have silent : (settled.state.reporter 1).display = .store #[] #[] := by
    rw [same]
    decide +kernel
  have summary : settled.state.summaries 1 =
      [⟨.warning, .nowhere, "there were 2 deprecation warnings; re-run with -deprecation for details"⟩] := by
    rw [same]
    decide +kernel
  have counted := takes.count .warning
  have shown := Reporter.takes_entries takes silent
  rw [summary] at counted shown
  refine ⟨law.symm, shown.trans ?_, counted.trans ?_⟩
  · simp [Reporter.entries, silent]
  · rw [same]
    decide +kernel

end Session

end UnitRegistry
