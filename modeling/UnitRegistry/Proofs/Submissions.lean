import UnitRegistry.Proofs.Reporting

set_option autoImplicit false

namespace UnitRegistry

def Event.submission? (run : RunRef) : Event → Option FileRef
  | .submitted of source => if of = run then some source else none
  | _ => none

def submissions (run : RunRef) (events : List Event) : List FileRef := events.filterMap (Event.submission? run)

def newSources (known : List FileRef) : List FileRef → List FileRef
  | [] => []
  | file :: rest => if file ∈ known then newSources known rest else file :: newSources (known ++ [file]) rest

theorem submissions_append (run : RunRef) (earlier later : List Event) :
    submissions run (earlier ++ later) = submissions run earlier ++ submissions run later :=
  List.filterMap_append

theorem new_sources_append (known earlier later : List FileRef) :
    newSources known (earlier ++ later) =
      newSources known earlier ++ newSources (known ++ newSources known earlier) later := by
  induction earlier generalizing known with
  | nil => simp [newSources]
  | cons file rest ih =>
      by_cases old : file ∈ known
      · simp only [List.cons_append, newSources, if_pos old]
        exact ih known
      · simp only [List.cons_append, newSources, if_neg old]
        rw [ih (known ++ [file]), List.append_assoc, List.singleton_append]

theorem output_submits_nothing (run : RunRef) (events : List Event) (output : ∀ event ∈ events, event.isOutput = true) :
    submissions run events = [] := by
  refine List.filterMap_eq_nil_iff.mpr fun event member => ?_
  have leaves := output event member
  cases event <;> first | rfl | cases leaves

theorem Run.unit_of_none_iff (r : Run) (file : FileRef) :
    r.unitOf? (some file) = none ↔ file ∉ r.registry.map Prod.fst := by
  rw [Run.unitOf?, Option.bind_some, List.lookup_eq_none_iff]
  simp only [List.mem_map, not_exists, not_and, bne_iff_ne, ne_eq]
  exact ⟨fun absent entry member same => absent entry member same.symm,
    fun absent entry member same => absent entry member same.symm⟩

namespace State

variable {bars : Drive → RunRef → Prop} {run : RunRef}

def sources (s : State) (run : RunRef) : List FileRef := (s.run run).registry.map Prod.fst

structure Submits (run : RunRef) (s : State) (events : List Event) (t : State) : Prop where
  journal : t.journal.toList = s.journal.toList ++ events
  known : run < t.runs.size
  sources : t.sources run = s.sources run ++ newSources (s.sources run) (submissions run events)

theorem submits_trans {s t u : State} {earlier later : List Event} (first : Submits run s earlier t)
    (second : Submits run t later u) : Submits run s (earlier ++ later) u := by
  refine ⟨?_, second.known, ?_⟩
  · rw [second.journal, first.journal, List.append_assoc]
  · rw [second.sources, first.sources, submissions_append, new_sources_append, List.append_assoc]

theorem submits_nothing {s t : State} (events : List Event) (journal : t.journal.toList = s.journal.toList ++ events)
    (nothing : submissions run events = []) (known : run < t.runs.size) (same : t.sources run = s.sources run) :
    Submits run s events t :=
  ⟨journal, known, by simp [same, nothing, newSources]⟩

theorem submits_still {s t : State} (journal : t.journal = s.journal) (known : run < s.runs.size)
    (runs : t.runs = s.runs) : Submits run s [] t :=
  submits_nothing [] (by simp [journal]) rfl (by rwa [runs]) (by simp only [sources, State.run, runs])

theorem submits_emit {s t : State} (event : Event) (journal : t.journal = s.journal.push event)
    (other : event.submission? run = none) (known : run < s.runs.size) (runs : t.runs = s.runs) : Submits run s [event] t :=
  submits_nothing [event] (by simp [journal]) (List.filterMap_cons_none other) (by rwa [runs])
    (by simp only [sources, State.run, runs])

theorem submits_event (s : State) (event : Event) (other : event.submission? run = none) (known : run < s.runs.size) :
    Submits run s [event] (s.emit event) :=
  submits_emit event rfl other known rfl

theorem submits_outputs {s t : State} (outputs : Outputs s t) (known : run < s.runs.size) :
    ∃ events, Submits run s events t := by
  obtain ⟨_, _, events, output, rfl⟩ := outputs
  exact ⟨events, submits_nothing events (by simp) (output_submits_nothing run events output) known rfl⟩

theorem submits_recorded (s : State) (reporter : ReporterRef) (entry : Entry) (known : run < s.runs.size) :
    Submits run s [.reported reporter entry] (s.recorded reporter entry) :=
  submits_emit (.reported reporter entry) rfl rfl known rfl

theorem submits_announced {s begun printed : State} (event : Event) (begins : Submits run s [event] begun)
    (outputs : Outputs begun printed) (reporter : ReporterRef) (entry : Entry) :
    ∃ events, Submits run s events (printed.recorded reporter entry) := by
  obtain ⟨events, prints⟩ := submits_outputs outputs begins.known
  exact ⟨_, submits_trans (submits_trans begins prints) (submits_recorded printed reporter entry prints.known)⟩

theorem submits_modify_run (s : State) (other : RunRef) (f : Run → Run) (keeps : ∀ r, (f r).registry = r.registry)
    (known : run < s.runs.size) : Submits run s [] (s.modifyRun other f) := by
  refine submits_nothing [] (by simp [modifyRun]) rfl (by simpa [modifyRun] using known) ?_
  rw [sources, sources, run_modify]
  split
  · rw [keeps]
  · rfl

theorem modify_accumulator_runs (s : State) (ref : AccumulatorRef) (f : Accumulator → Accumulator) :
    (s.modifyAccumulator ref f).runs = s.runs := by
  cases ref <;> rfl

theorem submits_known (s : State) (other : RunRef) (file : FileRef) (unit : UnitRef)
    (found : (s.run other).unitOf? (some file) = some unit) (known : run < s.runs.size) :
    Submits run s [.submitted other file] (s.emit (.submitted other file)) := by
  by_cases here : other = run
  · subst other
    have old : file ∈ s.sources run := Decidable.of_not_not fun absent => by
      rw [(Run.unit_of_none_iff _ _).mpr absent] at found
      cases found
    refine ⟨by simp [emit], known, ?_⟩
    simp only [submissions, Event.submission?, List.filterMap_cons, List.filterMap_nil, if_true, newSources, if_pos old,
      List.append_nil]
    rfl
  · exact submits_event s (.submitted other file) (by simp [Event.submission?, here]) known

theorem submits_new (s : State) (other : RunRef) (file : FileRef) (absent : (s.run other).unitOf? (some file) = none)
    (known : run < s.runs.size) :
    Submits run s [.submitted other file] (((s.emit (.submitted other file)).addUnit (some file) (s.run other).context).1.modifyRun
      other (·.register file s.units.size)) := by
  have journal : (((s.emit (.submitted other file)).addUnit (some file) (s.run other).context).1.modifyRun other
      (·.register file s.units.size)).journal.toList = s.journal.toList ++ [.submitted other file] := by
    simp [modifyRun, addUnit, addNode, emit]
  have runs : ((s.emit (.submitted other file)).addUnit (some file) (s.run other).context).1.runs = s.runs := rfl
  refine ⟨journal, by simpa [modifyRun, runs] using known, ?_⟩
  rw [sources, run_modify, runs]
  by_cases here : other = run
  · subst other
    have new : file ∉ s.sources run := (Run.unit_of_none_iff _ _).mp absent
    rw [if_pos ⟨rfl, known⟩]
    simp only [submissions, Event.submission?, List.filterMap_cons, List.filterMap_nil, if_true, newSources, if_neg new,
      Run.register, List.map_append]
    rfl
  · rw [if_neg fun both => here both.1]
    simp only [submissions, Event.submission?, List.filterMap_cons, List.filterMap_nil, here, if_false, newSources,
      List.append_nil]
    rfl

theorem move_submits {s t : State} (move : Move bars s t) (known : run < s.runs.size) : ∃ events, Submits run s events t := by
  cases move with
  | outputs outputs => exact submits_outputs outputs known
  | surroundings around =>
      obtain ⟨_, _, _, _, _, _, _, _, rfl⟩ := around
      exact ⟨[], submits_still rfl known rfl⟩
  | startHandler reporter handler remark =>
      exact ⟨_, submits_event s (.handlerStarted reporter handler remark) rfl known⟩
  | record reporter entry => exact ⟨_, submits_recorded s reporter entry known⟩
  | resetReporter reporter => exact ⟨_, submits_emit (.reset reporter) rfl rfl known rfl⟩
  | passWarning ref remark enabled outputs =>
      exact submits_announced _ (submits_event s (.warned ref remark) rfl known) outputs _ _
  | holdWarning ref remark =>
      have journal := (modify_accumulator_units (s.emit (.warned ref remark)) ref (·.hold remark)).2
      exact ⟨_, submits_emit (.warned ref remark) journal rfl known (modify_accumulator_runs _ ref _)⟩
  | clearWarnings ref held outputs =>
      have journal := (modify_accumulator_units (s.emit (.summarized ref (s.accumulator ref).count)) ref Accumulator.clear).2
      have emptying : Submits run s [.summarized ref (s.accumulator ref).count] (s.emptied ref) :=
        submits_emit (.summarized ref _) journal rfl known (modify_accumulator_runs _ ref _)
      exact submits_announced _ emptying outputs _ _
  | addCheck unit check =>
      cases own : (s.unit unit).sentinel with
      | true =>
          rw [add_check_sentinel s unit check own]
          exact ⟨[], submits_still rfl known rfl⟩
      | false =>
          rw [add_check_own s unit check own]
          exact ⟨_, submits_emit (.checkAdded unit check) rfl rfl known rfl⟩
  | startCheck unit check => exact ⟨_, submits_emit (.checkStarted unit check) rfl rfl known rfl⟩
  | addRun context =>
      refine ⟨[], submits_nothing [] (by simp [State.addRun]) rfl ?_ ?_⟩
      · simp only [State.addRun, Store.size_push]
        exact Nat.lt_succ_of_lt known
      · rw [sources, sources, run_add, if_neg (Nat.ne_of_lt known)]
  | submit other file unit found => exact ⟨_, submits_known s other file unit found known⟩
  | register other file absent => exact ⟨_, submits_new s other file absent known⟩
  | openRun other => exact ⟨[], submits_modify_run s other _ (fun _ => rfl) known⟩
  | startPhase other phase unit => exact ⟨_, submits_event s (.phaseStarted other phase unit) rfl known⟩
  | completeRun other units =>
      obtain ⟨f, modified, keeps⟩ := complete_run_modifies s other units
      rw [modified]
      exact ⟨[], submits_modify_run s other f (fun r => (keeps r).2) known⟩
  | _ => exact ⟨[], submits_still rfl known rfl⟩

theorem moves_submits {s t : State} (moves : Moves bars s t) (known : run < s.runs.size) : Submits run s (s.since t) t :=
  moves_since Submits.journal Submits.known (fun known => submits_still rfl known rfl) submits_trans move_submits moves known

theorem registry_of_moves {s t : State} (moves : Moves bars s t) (known : run < s.runs.size) :
    ∃ added, (t.run run).registry = (s.run run).registry ++ added ∧
      added.map Prod.fst = newSources (s.sources run) (submissions run (s.since t)) ∧
      ∀ entry ∈ added, s.units.size ≤ entry.2 ∧ entry.2 < t.units.size := by
  obtain ⟨added, registry, fresh⟩ := (moves_grows run moves).registry
  have sources := (moves_submits moves known).sources
  rw [State.sources, registry, List.map_append] at sources
  exact ⟨added, registry, List.append_cancel_left sources, fresh⟩

end State

end UnitRegistry
