import UnitRegistry.Proofs.Call

set_option autoImplicit false

namespace UnitRegistry

open State (Drive nobody only)

namespace Session

variable {Data α : Type} {run : RunRef}

-- The phases of `run` that start on the way, by the call itself, since nothing that is called back starts any.
structure Visits (run : RunRef) (visits : List (Phase × UnitRef)) (s t : Session Data) : Prop where
  extended : s.state.Extends t.state
  spares : t.Spares run
  phases : phasesStarted run (s.state.since t.state) = visits

theorem visits_trans {earlier later : List (Phase × UnitRef)} {s t u : Session Data} (first : Visits run earlier s t)
    (second : Visits run later t u) : Visits run (earlier ++ later) s u := by
  refine ⟨State.extends_trans first.extended second.extended, second.spares, ?_⟩
  rw [State.since_append first.extended second.extended, phases_started_append, first.phases, second.phases]

theorem visits_none {s t : Session Data} (leads : s.Leads (only .phase run) t) (spares : t.Spares run) :
    Visits run [] s t :=
  ⟨State.moves_extends leads.moves, spares, (State.moves_records leads.moves).phases run ⟨rfl, rfl⟩⟩

theorem visits_refl (s : Session Data) (spares : s.Spares run) : Visits run [] s s :=
  visits_none (leads_refl s (respects_only .phase run s spares)) spares

theorem spares_of_leads {way : Drive} {s t : Session Data} (leads : s.Leads (only way run) t) : t.Spares run :=
  leads.respects way run ⟨rfl, rfl⟩

theorem visits_exec (fuel : Nat) (program : Program Data) (s : Session Data) (sparing : program.Spares run)
    (spares : s.Spares run) : Visits run [] s (ending (exec fuel program s)) := by
  have respects : program.Respects (only .phase run) := by
    rintro drive driven ⟨_, rfl⟩
    exact sparing
  have leads := keeps_exec fuel program respects s (respects_only .phase run s spares)
  exact visits_none leads (spares_of_leads leads)

def startPhase (run : RunRef) (phase : Phase) (unit : UnitRef) (s : Session Data) : Session Data :=
  { s with state := s.state.emit (.phaseStarted run phase unit) }

theorem visits_start_phase (phase : Phase) (unit : UnitRef) (s : Session Data) (spares : s.Spares run) :
    Visits run [(phase, unit)] s (s.startPhase run phase unit) := by
  have journal : (s.startPhase run phase unit).state.journal.toList =
      s.state.journal.toList ++ [.phaseStarted run phase unit] := by
    simp [startPhase, State.emit]
  refine ⟨State.extends_of_journal journal, spares, ?_⟩
  rw [State.since_eq journal]
  simp [phasesStarted, Event.startedPhase?]

theorem run_phase_on_visits (fuel : Nat) (phase : Phase) (unit : UnitRef) (s t : Session Data) (spares : s.Spares run)
    (ran : runPhaseOn (exec fuel) run phase unit s = .ok () t) : Visits run [(phase, unit)] s t := by
  change exec fuel (s.routines.get phase.routine (.phase unit)) (s.startPhase run phase unit) = _ at ran
  have called := visits_exec fuel (s.routines.get phase.routine (.phase unit)) (s.startPhase run phase unit)
    (spares phase.routine (.phase unit)) spares
  rw [ran, ending_ok] at called
  exact visits_trans (visits_start_phase phase unit s spares) called

theorem for_visits (f : α → Exec Data PUnit) (each : α → List (Phase × UnitRef))
    (step : ∀ item (s t : Session Data), s.Spares run → f item s = .ok () t → Visits run (each item) s t)
    (items : List α) (s t : Session Data) (spares : s.Spares run) (ran : items.forM f s = .ok () t) :
    Visits run (items.flatMap each) s t := by
  induction items generalizing s with
  | nil =>
      cases (for_nil f s t).mp ran
      exact visits_refl _ spares
  | cons item rest ih =>
      obtain ⟨middle, first, later⟩ := (for_cons f item rest s t).mp ran
      have visited := step item s middle spares first
      exact visits_trans visited (ih middle visited.spares later)

theorem logged_visits (phase : Phase) (units : List UnitRef) (s : Session Data) (spares : s.Spares run) :
    Visits run [] s { s with state := s.state.logStart phase units } :=
  visits_none ⟨State.trace_walks _ _ _ _, respects_only .phase run s spares⟩ spares

theorem apply_phase_visits (fuel : Nat) (units : List UnitRef) (phase : Phase) (s t : Session Data)
    (spares : s.Spares run) (ran : applyPhase (exec fuel) run units phase s = .ok () t) :
    Visits run (units.map (phase, ·)) s t := by
  have logged := logged_visits phase units s spares
  have visited := for_visits (runPhaseOn (exec fuel) run phase) (fun unit => [(phase, unit)])
    (run_phase_on_visits fuel phase) units _ t logged.spares ran
  have joined := visits_trans logged visited
  rwa [List.nil_append, ← List.map_eq_flatMap] at joined

inductive Tour (call : Program Data → Exec Data Unit) (run : RunRef) :
    List (Phase × UnitRef) → Session Data → Session Data → Prop where
  | nil (s : Session Data) : Tour call run [] s s
  | log {visits : List (Phase × UnitRef)} {s t : Session Data} (phase : Phase) (units : List UnitRef)
      (later : Tour call run visits { s with state := s.state.logStart phase units } t) : Tour call run visits s t
  | visit {visits : List (Phase × UnitRef)} {s middle t : Session Data} (phase : Phase) (unit : UnitRef)
      (ran : call (s.routines.get phase.routine (.phase unit)) (s.startPhase run phase unit) = .ok () middle)
      (later : Tour call run visits middle t) : Tour call run ((phase, unit) :: visits) s t

theorem tour_append {call : Program Data → Exec Data Unit} {earlier later : List (Phase × UnitRef)}
    {s t u : Session Data} (first : Tour call run earlier s t) (second : Tour call run later t u) :
    Tour call run (earlier ++ later) s u := by
  induction first with
  | nil s => exact second
  | log phase units _ ih => exact .log phase units (ih second)
  | visit phase unit ran _ ih => exact .visit phase unit ran (ih second)

theorem run_phase_on_tours (call : Program Data → Exec Data Unit) (phase : Phase) (units : List UnitRef)
    (s t : Session Data) (ran : units.forM (runPhaseOn call run phase) s = .ok () t) :
    Tour call run (units.map (phase, ·)) s t := by
  induction units generalizing s with
  | nil =>
      cases (for_nil _ s t).mp ran
      exact .nil _
  | cons unit rest ih =>
      obtain ⟨middle, first, later⟩ := (for_cons _ unit rest s t).mp ran
      exact .visit phase unit first (ih middle later)

theorem apply_phase_tours (call : Program Data → Exec Data Unit) (units : List UnitRef) (phases : List Phase)
    (s t : Session Data) (ran : phases.forM (applyPhase call run units) s = .ok () t) :
    Tour call run (phases.flatMap fun phase => units.map (phase, ·)) s t := by
  induction phases generalizing s with
  | nil =>
      cases (for_nil _ s t).mp ran
      exact .nil _
  | cons phase rest ih =>
      obtain ⟨middle, first, later⟩ := (for_cons _ phase rest s t).mp ran
      exact tour_append (.log phase units (run_phase_on_tours call phase units _ middle first)) (ih middle later)

theorem began_visits (fuel : Nat) (units : List UnitRef) (phases : List Phase) (count : Nat) (s reached : Session Data)
    (spares : s.Spares run) (began : Began (exec fuel) run units phases count s reached) :
    Visits run ((phases.take count).flatMap fun phase => units.map (phase, ·)) s reached :=
  for_visits _ _ (apply_phase_visits fuel units) _ s reached spares began.applied

inductive Emptied (call : Program Data → Exec Data Unit) (unit : UnitRef) : Session Data → Session Data → Prop where
  | idle (s : Session Data) (none : (s.state.unit unit).checks = []) : Emptied call unit s s
  | next {s middle t : Session Data} (check : Check) (rest : List Check)
      (queued : (s.state.unit unit).checks = check :: rest)
      (ran : call (s.routines.get check.routine (.check unit)) (s.startCheck unit check) = .ok () middle)
      (later : Emptied call unit middle t) : Emptied call unit s t

structure Turn (call : Program Data → Exec Data Unit) (fuel : Nat) (unit : UnitRef) (s t : Session Data) : Prop where
  ran : runChecks call fuel unit s = .ok () t
  emptied : ∃ last count, Emptied call unit s last ∧ t = { last with state := last.state.logChecks unit count }
  empty : (t.state.unit unit).checks = []
  started : checksStarted unit (s.state.since t.state) =
    (s.state.unit unit).checks ++ checksAdded unit (s.state.since t.state)

structure Drained (call : Program Data → Exec Data Unit) (fuel : Nat) (units : List UnitRef) (s t : Session Data) :
    Prop where
  ran : units.forM (runChecks call fuel) s = .ok () t
  turns : ∀ earlier unit later, units = earlier ++ unit :: later → ∃ before after,
    earlier.forM (runChecks call fuel) s = .ok () before ∧ Turn call fuel unit before after ∧
      later.forM (runChecks call fuel) after = .ok () t

theorem empty_of_emptied {call : Program Data → Exec Data Unit} {unit : UnitRef} {s t : Session Data}
    (emptied : Emptied call unit s t) : (t.state.unit unit).checks = [] := by
  induction emptied with
  | idle s none => exact none
  | next _ _ _ _ _ ih => exact ih

theorem drain_empties (call : Program Data → Exec Data Unit) (unit : UnitRef) (fuel ran count : Nat)
    (s t : Session Data) (drained : drain call unit fuel ran s = .ok count t) : Emptied call unit s t := by
  induction fuel generalizing ran s with
  | zero => cases drained
  | succ fuel ih =>
      cases queue : (s.state.unit unit).checks with
      | nil =>
          rw [drain_nil call unit fuel ran s queue] at drained
          cases drained
          exact .idle _ queue
      | cons check rest =>
          rw [drain_cons call unit fuel ran s check rest queue, bind_ok] at drained
          obtain ⟨_, middle, first, later⟩ := drained
          exact .next check rest queue first (ih (ran + 1) middle later)

theorem run_checks_emptied (call : Program Data → Exec Data Unit) (fuel : Nat) (unit : UnitRef) (s t : Session Data)
    (ran : runChecks call fuel unit s = .ok () t) :
    ∃ last count, Emptied call unit s last ∧ t = { last with state := last.state.logChecks unit count } := by
  obtain ⟨count, last, drained, logged⟩ := (bind_ok _ _ s t ()).mp ran
  cases logged
  exact ⟨last, count, drain_empties call unit fuel 0 count s last drained, rfl⟩

theorem run_checks_empties (call : Program Data → Exec Data Unit) (fuel : Nat) (unit : UnitRef) (s t : Session Data)
    (ran : runChecks call fuel unit s = .ok () t) : (t.state.unit unit).checks = [] := by
  obtain ⟨last, count, emptied, rfl⟩ := run_checks_emptied call fuel unit s t ran
  have kept := (State.outputs_reports (State.log_checks_outputs last.state unit count)).units
  simpa only [State.unit, kept] using empty_of_emptied emptied

theorem run_checks_moves (fuel : Nat) (unit : UnitRef) (s t : Session Data)
    (ran : runChecks (exec fuel) fuel unit s = .ok () t) : s.state.Moves nobody t.state := by
  have keeps : Keeps nobody (runChecks (exec fuel) fuel unit : Exec Data Unit) :=
    keeps_run_checks (keeps_exec fuel) fuel unit
  exact moves_of_ok keeps ran

theorem turn_of_ran (fuel : Nat) (unit : UnitRef) (s t : Session Data)
    (ran : runChecks (exec fuel) fuel unit s = .ok () t) : Turn (exec fuel) fuel unit s t := by
  have empty := run_checks_empties (exec fuel) fuel unit s t ran
  have queue := (State.moves_records (run_checks_moves fuel unit s t ran)).checks unit
  rw [empty, List.append_nil] at queue
  exact ⟨ran, run_checks_emptied (exec fuel) fuel unit s t ran, empty, queue.symm⟩

theorem drained_of_ran (fuel : Nat) (units : List UnitRef) (s t : Session Data)
    (ran : units.forM (runChecks (exec fuel) fuel) s = .ok () t) : Drained (exec fuel) fuel units s t := by
  refine ⟨ran, fun earlier unit later split => ?_⟩
  rw [split] at ran
  obtain ⟨before, first, rest⟩ := (for_append _ earlier (unit :: later) s t).mp ran
  obtain ⟨after, turn, last⟩ := (for_cons _ unit later before t).mp rest
  exact ⟨before, after, first, turn_of_ran fuel unit before after turn, last⟩

theorem keeps_checks (bars : Drive → RunRef → Prop) (fuel : Nat) (units : List UnitRef) :
    Keeps bars (units.forM (runChecks (exec fuel) fuel) : Exec Data Unit) :=
  keeps_for _ units fun unit _ => keeps_run_checks (keeps_exec fuel) fuel unit

theorem reports_start_no_check {s t : State} (reports : s.Reports t) (unit : UnitRef) :
    checksStarted unit (s.since t) = [] :=
  State.reports_read_nothing (Event.startedCheck? unit)
    (fun event report => by cases event <;> first | rfl | cases report) reports

theorem visits_of_keeps {α : Type} (x : Exec Data α) (keeps : Keeps (only .phase run) x) (s t : Session Data) (value : α)
    (spares : s.Spares run) (ran : x s = .ok value t) : Visits run [] s t := by
  have leads := leads_of_ok keeps (respects_only .phase run s spares) ran
  exact visits_none leads (spares_of_leads leads)

theorem opened_visits (s : Session Data) (spares : s.Spares run) : Visits run [] s (s.opened run) :=
  visits_none ⟨State.step_walks s.state (.openRun run) (fun barred => nomatch barred.1), respects_only .phase run s spares⟩
    spares

theorem stopped_visits (phase : Phase) (s : Session Data) (spares : s.Spares run) :
    Visits run [] s (s.stoppedBefore run phase) :=
  visits_none ⟨State.trace_walks _ _ _ _, respects_only .phase run s spares⟩ spares

theorem concluded_visits (s : Session Data) (spares : s.Spares run) : Visits run [] s (s.concluded run) :=
  visits_of_keeps (conclude run) (keeps_conclude run) s _ _ spares (conclude_eq run s)

theorem drained_visits (fuel : Nat) (units : List UnitRef) (s drained : Session Data) (spares : s.Spares run)
    (ran : units.forM (runChecks (exec fuel) fuel) s = .ok () drained) :
    Visits run [] s (drained.completed run units) := by
  have checked := visits_of_keeps _ (keeps_checks (only .phase run) fuel units) s drained () spares ran
  refine visits_trans checked (visits_none ⟨State.step_walks drained.state (.completeRun run units) ?_, ?_⟩ checked.spares)
  · exact fun barred => nomatch barred.1
  · exact respects_only .phase run drained checked.spares

theorem completed_since (run : RunRef) (units : List UnitRef) (s : Session Data) (t : State) :
    (s.completed run units).state.since t = s.state.since t := by
  have journal : (s.completed run units).state.journal = s.state.journal :=
    (State.complete_run_units s.state run units).2
  simp only [State.since, journal]

theorem not_visited {units : List UnitRef} {phases : List Phase} {unit : UnitRef} (absent : unit ∉ units) (phase : Phase) :
    (phase, unit) ∉ phases.flatMap fun phase => units.map (phase, ·) := by
  simp only [List.mem_flatMap, List.mem_map, not_exists, not_and]
  intro _ _ other member same
  cases same
  exact absent member

theorem pending_iff (s : Session Data) (unit : UnitRef) :
    unit ∈ s.state.pendingUnits run ↔ unit ∈ (s.state.run run).units ∧ (s.state.unit unit).isPresent = true ∧
      (s.state.run run).isCompiled unit = false := by
  simp [State.pendingUnits]

structure Ordered (fuel : Nat) (run : RunRef) (units : List UnitRef) (phases : List Phase) (count : Nat)
    (s reached t : Session Data) : Prop where
  began : Began (exec fuel) run units phases count (s.opened run) reached
  tour : Tour (exec fuel) run ((phases.take count).flatMap fun phase => units.map (phase, ·)) (s.opened run) reached
  started : phasesStarted run (s.state.since t.state) = (phases.take count).flatMap fun phase => units.map (phase, ·)
  checked : count = phases.length ∧ reached.state.runErrors run = 0 →
    ∃ drained, Drained (exec fuel) fuel units reached drained ∧
      ∀ unit, checksStarted unit (drained.state.since t.state) = []
  unchecked : ¬ (count = phases.length ∧ reached.state.runErrors run = 0) →
    ∀ unit, checksStarted unit (reached.state.since t.state) = []

theorem settled_visits (fuel : Nat) (units : List UnitRef) (phases : List Phase) (count : Nat)
    (reached settled : Session Data) (spares : reached.Spares run)
    (settles : Settled (exec fuel) fuel run units phases count reached settled) : Visits run [] reached settled := by
  cases settles with
  | drained _ _ drained ran same =>
      rw [same]
      exact drained_visits fuel units reached drained spares ran
  | skipped _ same =>
      obtain rfl | ⟨phase, rfl⟩ := same
      · exact visits_refl _ spares
      · exact stopped_visits phase reached spares

theorem ordered_of_settled (fuel : Nat) (units : List UnitRef) (phases : List Phase) (count : Nat)
    (s reached settled : Session Data) (spares : s.Spares run)
    (began : Began (exec fuel) run units phases count (s.opened run) reached)
    (settles : Settled (exec fuel) fuel run units phases count reached settled) :
    Ordered fuel run units phases count s reached (settled.concluded run) := by
  have opening := opened_visits s spares
  have visiting := began_visits fuel _ _ count (s.opened run) reached opening.spares began
  have settling := settled_visits fuel units phases count reached settled visiting.spares settles
  have visits := visits_trans (visits_trans opening visiting)
    (visits_trans settling (concluded_visits settled settling.spares))
  have started := visits.phases
  rw [List.nil_append, List.append_nil, List.append_nil] at started
  refine ⟨began, apply_phase_tours (exec fuel) _ _ (s.opened run) reached began.applied, started, fun checks => ?_,
    fun skips unit => ?_⟩
  · cases settles with
    | drained _ _ drained ran same =>
        refine ⟨drained, drained_of_ran fuel units reached drained ran, fun unit => ?_⟩
        rw [same, ← completed_since run units drained]
        exact reports_start_no_check (concluded_reports run _) unit
    | skipped skips => exact absurd checks skips
  · cases settles with
    | drained all clear => exact absurd ⟨all, clear⟩ skips
    | skipped _ same =>
        obtain rfl | ⟨phase, rfl⟩ := same
        · exact reports_start_no_check (concluded_reports run _) unit
        · have stopped := stopped_reports run phase reached
          have concluded := concluded_reports run (reached.stoppedBefore run phase)
          exact reports_start_no_check (State.reports_trans stopped concluded) unit

theorem run_phases_order (fuel : Nat) (run : RunRef) (phases : List (Option Phase)) (s t : Session Data) (returned : Bool)
    (spares : s.Spares run) (ran : runPhases (exec fuel) fuel run phases s = .ok returned t) :
    let units := (s.state.run run).units.filter fun unit =>
      (s.state.unit unit).isPresent && !(s.state.run run).isCompiled unit
    (∀ unit, unit ∈ units ↔ unit ∈ (s.state.run run).units ∧
      (∃ source, (s.state.unit unit).source = some source ∧ source.file ≠ .absent) ∧
      unit ∉ (s.state.run run).compiled) ∧
    ∃ count reached, Ordered fuel run units (phases.filterMap id) count s reached t ∧
      ∀ phase unit, unit ∉ units → (phase, unit) ∉ phasesStarted run (s.state.since t.state) := by
  intro units
  obtain ⟨settled, settling, rfl, _⟩ := (run_phases_ok fuel phases s t returned).mp ran
  obtain ⟨count, reached, began, settles⟩ := run_units_parts fuel phases s settled settling
  have ordered := ordered_of_settled fuel units (phases.filterMap id) count s reached settled spares began settles
  refine ⟨fun unit => ?_, count, reached, ordered, fun phase unit absent => ?_⟩
  · simp [units, CompilationUnit.isPresent, Run.isCompiled, Option.any_eq_true]
  · rw [ordered.started]
    exact not_visited absent phase

def namer : Phase := ⟨"namer", 0⟩

def sourceA : FileRef := ⟨1, ⟨"A.scala", [], .disk⟩⟩

def sourceB : FileRef := ⟨2, ⟨"B.scala", [], .disk⟩⟩

def newRun : List Request := [.addReporter .silent, .addContext 1 {}, .addRun 1]

def twoSources : List Request := newRun ++ [.addSource 0 (some sourceA), .addSource 0 (some sourceB)]

def registering : Cause → Program Unit
  | .phase unit => .act (.addCheck unit ⟨"first", 1⟩) fun _ => .act (.addCheck unit ⟨"second", 1⟩) fun _ => .done
  | _ => .done

def complaining : Cause → Program Unit := fun _ => .act (.report 1 .error ⟨.nowhere, "wrong"⟩) fun _ => .done

def faultyChecks : Session Unit := ready twoSources [registering, complaining]

theorem faulty_checks_spare : faultyChecks.Spares 0 := by
  refine ready_spares 0 _ _ fun body member cause => ?_
  simp only [List.mem_cons, List.not_mem_nil, or_false] at member
  rcases member with rfl | rfl
  · cases cause with
    | phase unit => exact fun _ _ => trivial
    | _ => trivial
  · exact fun _ => trivial

theorem order_with_faulty_checks :
    let t := ending (runPhases (exec 9) 9 0 [none, some namer] faultyChecks)
    phasesStarted 0 (faultyChecks.state.since t.state) = [(namer, 1), (namer, 2)] ∧
      (∀ unit ∈ [1, 2], checksStarted unit (faultyChecks.state.since t.state) = [⟨"first", 1⟩, ⟨"second", 1⟩]) ∧
      t.state.runErrors 0 = 4 := by
  intro t
  obtain ⟨_, count, reached, ordered, _⟩ := run_phases_order 9 0 [none, some namer] faultyChecks t false faulty_checks_spare
    (eq_ok_of_value (by decide +kernel))
  have units : ((faultyChecks.state.run 0).units.filter fun unit =>
      (faultyChecks.state.unit unit).isPresent && !(faultyChecks.state.run 0).isCompiled unit) = [1, 2] := by decide +kernel
  have all : count = 1 := by
    refine Nat.le_antisymm ordered.began.bound (Nat.pos_of_ne_zero fun none => ?_)
    subst none
    have same := (for_nil _ _ _).mp ordered.began.applied
    have errors := ordered.began.stopped Nat.zero_lt_one
    rw [same] at errors
    exact errors (by decide +kernel)
  have started := ordered.started
  rw [units, all] at started
  exact ⟨started, by decide +kernel, by decide +kernel⟩

end Session

end UnitRegistry
