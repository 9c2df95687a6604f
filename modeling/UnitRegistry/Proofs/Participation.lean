import UnitRegistry.Proofs.Interruption

set_option autoImplicit false

namespace UnitRegistry

open State (nobody only)

variable {Data : Type} {run : RunRef}

def Call.succeeds (fuel : Nat) (run : RunRef) (s : Session Data) : Call Data → Bool
  | .runPhases phases => value? (Session.runPhases (Session.exec fuel) fuel run phases s) == some true
  | _ => false

namespace Session

def takesPart (fuel : Nat) (run : RunRef) (unit : UnitRef) (s : Session Data) : Call Data → Bool
  | .runPhases phases =>
      let result := runPhases (exec fuel) fuel run phases s
      value? result == some true && (s.state.run run).units.contains unit && (s.state.unit unit).isPresent &&
        !(s.state.run run).isCompiled unit && (phases.filterMap id).all fun phase =>
          (phasesStarted run (s.state.since (ending result).state)).contains (phase, unit)
  | _ => false

def participations (fuel : Nat) (run : RunRef) (unit : UnitRef) (s : Session Data) : List (Call Data) → Nat
  | [] => 0
  | call :: rest =>
      (if takesPart fuel run unit s call then 1 else 0) + participations fuel run unit (call.perform fuel run s) rest

inductive Ended (fuel : Nat) (run : RunRef) (units : List UnitRef) (phases : List Phase) (s : Session Data) :
    EStateM.Result Stop (Session Data) Bool → List Phase → List (Phase × UnitRef) → Prop where
  | returned {count : Nat} {reached t : Session Data} {returned : Bool}
      (began : Began (exec fuel) run units phases count (s.opened run) reached)
      (all : returned = true → count = phases.length) :
      Ended fuel run units phases s (.ok returned t) (phases.take count) []
  | inCheck {reached t : Session Data} {stop : Stop}
      (began : Began (exec fuel) run units phases phases.length (s.opened run) reached)
      (clear : reached.state.runErrors run = 0)
      (stopped : units.forM (runChecks (exec fuel) fuel) reached = .error stop t) :
      Ended fuel run units phases s (.error stop t) phases []
  | inPhase {earlier later : List Phase} {phase : Phase} {cut : List (Phase × UnitRef)} {reached t : Session Data}
      {stop : Stop} (split : phases = earlier ++ phase :: later)
      (began : Began (exec fuel) run units earlier earlier.length (s.opened run) reached)
      (clear : reached.state.runErrors run = 0)
      (stopped : applyPhase (exec fuel) run units phase reached = .error stop t)
      (visits : cut <+: units.map (phase, ·)) (some : cut ≠ []) :
      Ended fuel run units phases s (.error stop t) earlier cut

theorem visits_of_stopped (fuel : Nat) (program : Program Data) (s t : Session Data) (stop : Stop)
    (sparing : program.Spares run) (spares : s.Spares run) (stopped : exec fuel program s = .error stop t) :
    Visits run [] s t := by
  have visits := visits_exec fuel program s sparing spares
  rwa [stopped, ending_error] at visits

theorem apply_phase_cut (fuel : Nat) (units : List UnitRef) (phase : Phase) (s t : Session Data) (stop : Stop)
    (spares : s.Spares run) (stopped : applyPhase (exec fuel) run units phase s = .error stop t) :
    ∃ cut, cut <+: units.map (phase, ·) ∧ cut ≠ [] ∧ Visits run cut s t := by
  obtain ⟨earlier, unit, later, m, split, ran, stops⟩ := apply_phase_error phase s t stop stopped
  have logged := logged_visits phase units s spares
  have visited := for_visits (runPhaseOn (exec fuel) run phase) (fun unit => [(phase, unit)])
    (run_phase_on_visits fuel phase) earlier _ m logged.spares ran
  have starting := visits_start_phase phase unit m visited.spares
  have called := visits_of_stopped fuel _ _ t stop (visited.spares phase.routine (.phase unit)) starting.spares stops
  have whole := visits_trans logged (visits_trans visited (visits_trans starting called))
  refine ⟨earlier.flatMap (fun unit => [(phase, unit)]) ++ [(phase, unit)], ?_, by simp, by simpa using whole⟩
  rw [split, ← List.map_eq_flatMap]
  exact ⟨later.map (phase, ·), by simp⟩

theorem stopped_ended (fuel : Nat) (phases : List (Option Phase)) (s t : Session Data) (stop : Stop)
    (spares : s.Spares run) (stopped : runPhases (exec fuel) fuel run phases s = .error stop t) :
    ∃ ended cut, Ended fuel run (s.state.pendingUnits run) (phases.filterMap id) s (.error stop t) ended cut ∧
      Visits run ((ended.flatMap fun phase => (s.state.pendingUnits run).map (phase, ·)) ++ cut) s t := by
  have opening := opened_visits s spares
  rcases run_phases_error fuel phases s t stop stopped with visits | ⟨visited, visits, clear, checks⟩
  · obtain ⟨earlier, phase, rest, reached, split, begun, clear, stops⟩ := visit_error phases _ t stop visits
    have applied := for_visits _ _ (apply_phase_visits fuel _) earlier _ reached opening.spares (began_all begun)
    obtain ⟨cut, start, some, last⟩ := apply_phase_cut fuel _ phase reached t stop applied.spares stops
    have whole := visits_trans opening (visits_trans applied last)
    exact ⟨earlier, cut, .inPhase split begun clear stops start some, whole⟩
  · obtain ⟨count, reached, begun, ⟨rfl, _, rfl⟩ | ⟨_, impossible, _⟩⟩ := visit_began phases (s.opened run) visited true visits
    · have applied := for_visits _ _ (apply_phase_visits fuel _) _ _ visited opening.spares (began_all begun)
      have leads := leads_of_error (keeps_checks (only .phase run) fuel _) (respects_only .phase run visited applied.spares)
        checks
      have checked := visits_none leads (spares_of_leads leads)
      have whole := visits_trans opening (visits_trans applied checked)
      exact ⟨phases.filterMap id, [], .inCheck begun clear checks, whole⟩
    · cases impossible

theorem returned_ended (fuel : Nat) (phases : List (Option Phase)) (s t : Session Data) (returned : Bool)
    (spares : s.Spares run) (ran : runPhases (exec fuel) fuel run phases s = .ok returned t) :
    ∃ ended, Ended fuel run (s.state.pendingUnits run) (phases.filterMap id) s (.ok returned t) ended [] ∧
      phasesStarted run (s.state.since t.state) = ended.flatMap fun phase => (s.state.pendingUnits run).map (phase, ·) := by
  obtain ⟨settled, settling, rfl, rfl⟩ := (run_phases_ok fuel phases s t returned).mp ran
  obtain ⟨count, reached, began, settles⟩ := run_units_parts fuel phases s settled settling
  have ordered := ordered_of_settled fuel _ _ count s reached settled spares began settles
  exact ⟨_, .returned began fun complete =>
    (drained_of_complete fuel _ _ count s reached settled spares began settles complete).1, ordered.started⟩

theorem run_phases_ended (fuel : Nat) (run : RunRef) (phases : List (Option Phase)) (s : Session Data)
    (spares : s.Spares run) :
    ∃ ended cut, Ended fuel run (s.state.pendingUnits run) (phases.filterMap id) s
        (runPhases (exec fuel) fuel run phases s) ended cut ∧
      phasesStarted run (s.state.since (ending (runPhases (exec fuel) fuel run phases s)).state) =
        (ended.flatMap fun phase => (s.state.pendingUnits run).map (phase, ·)) ++ cut := by
  cases result : runPhases (exec fuel) fuel run phases s with
  | error stop t =>
      obtain ⟨ended, cut, ends, visits⟩ := stopped_ended fuel phases s t stop spares result
      exact ⟨ended, cut, ends, visits.phases⟩
  | ok returned t =>
      obtain ⟨ended, ends, started⟩ := returned_ended fuel phases s t returned spares result
      exact ⟨ended, [], ends, started.trans (List.append_nil _).symm⟩

section Endings

variable {fuel : Nat} {units : List UnitRef} {phases ended : List Phase} {cut : List (Phase × UnitRef)} {s : Session Data}
  {result : EStateM.Result Stop (Session Data) Bool}

theorem ended_of_success (ends : Ended fuel run units phases s result ended cut) (success : value? result = some true) :
    ended = phases ∧ cut = [] := by
  cases ends with
  | returned began all =>
      rw [all (Option.some.inj success), List.take_length]
      exact ⟨rfl, rfl⟩
  | inCheck => cases success
  | inPhase => cases success

theorem cut_units (ends : Ended fuel run units phases s result ended cut) {phase : Phase} {unit : UnitRef}
    (member : (phase, unit) ∈ cut) : unit ∈ units := by
  cases ends with
  | returned => cases member
  | inCheck => cases member
  | inPhase _ _ _ _ visits =>
      obtain ⟨_, there, same⟩ := List.mem_map.mp (visits.subset member)
      cases same
      exact there

theorem ended_visits {phase : Phase} {unit : UnitRef} (finished : phase ∈ ended) (among : unit ∈ units) :
    (phase, unit) ∈ (ended.flatMap fun phase => units.map (phase, ·)) ++ cut :=
  List.mem_append_left _ (List.mem_flatMap.mpr ⟨phase, finished, List.mem_map.mpr ⟨unit, among, rfl⟩⟩)

theorem visited_units (ends : Ended fuel run units phases s result ended cut) {phase : Phase} {unit : UnitRef}
    (visited : (phase, unit) ∈ (ended.flatMap fun phase => units.map (phase, ·)) ++ cut) : unit ∈ units := by
  obtain whole | part := List.mem_append.mp visited
  · obtain ⟨_, _, there⟩ := List.mem_flatMap.mp whole
    obtain ⟨_, among, same⟩ := List.mem_map.mp there
    cases same
    exact among
  · exact cut_units ends part

end Endings

theorem returned_complete (fuel : Nat) (phases : List (Option Phase)) (s t : Session Data) (returned : Bool)
    (ran : runPhases (exec fuel) fuel run phases s = .ok returned t) : (t.state.run run).complete = returned := by
  obtain ⟨settled, _, rfl, rfl⟩ := (run_phases_ok fuel phases s t returned).mp ran
  rw [concluded_run]

theorem run_phases_compiles (fuel : Nat) (run : RunRef) (phases : List (Option Phase)) (s : Session Data)
    (spares : s.Spares run) (unit : UnitRef) :
    unit ∈ ((ending (runPhases (exec fuel) fuel run phases s)).state.run run).compiled ↔
      unit ∈ (s.state.run run).compiled ∨
        value? (runPhases (exec fuel) fuel run phases s) = some true ∧ unit ∈ s.state.pendingUnits run := by
  obtain ⟨m, outcome⟩ := run_phases_outcome fuel run phases s spares
  have compiled := (outcome_grows s m _ outcome).compiled ⟨rfl, rfl⟩
  have incomplete := incomplete_of_leads outcome.leads (opened_complete run s)
  cases result : runPhases (exec fuel) fuel run phases s with
  | error stop t =>
      have same := ((State.moves_grows run (stopped_leads fuel run phases s t stop spares result).moves).compiled ⟨rfl, rfl⟩).trans
        (State.set_complete_compiled s.state run run false)
      simp only [ending_error, value?, same]
      simp
  | ok returned t =>
      have flag := returned_complete fuel phases s t returned result
      rw [result, ending_ok] at outcome
      rcases outcome.run with same | done
      · rw [same, incomplete] at flag
        simp [value?, same, compiled, ← flag]
      · have success : returned = true := by rw [← flag, done]; rfl
        rw [ending_ok, done, Run.mem_mark_compiled, Run.setComplete, compiled]
        simp [value?, success]

theorem perform_compiles (fuel : Nat) (s : Session Data) (call : Call Data) (spares : s.Spares run)
    (sparing : call.Spares run) (unit : UnitRef) :
    ((call.perform fuel run s).state.run run).isCompiled unit = true ↔
      (s.state.run run).isCompiled unit = true ∨ call.succeeds fuel run s = true ∧ unit ∈ s.state.pendingUnits run := by
  rw [Run.is_compiled_iff, Run.is_compiled_iff]
  have other (kind : call.isRunPhases = false) (fails : call.succeeds fuel run s = false) :
      unit ∈ ((call.perform fuel run s).state.run run).compiled ↔
        unit ∈ (s.state.run run).compiled ∨ call.succeeds fuel run s = true ∧ unit ∈ s.state.pendingUnits run := by
    have leads := other_leads fuel run s call spares sparing kind
    rw [(State.moves_grows run leads.moves).compiled rfl, fails]
    simp
  cases call with
  | addSource source => exact other rfl rfl
  | other program => exact other rfl rfl
  | runPhases phases =>
      rw [Call.succeeds, beq_iff_eq]
      exact run_phases_compiles fuel run phases s spares unit

theorem perform_spares (fuel : Nat) (s : Session Data) (call : Call Data) (spares : s.Spares run)
    (sparing : call.Spares run) : (call.perform fuel run s).Spares run := by
  cases kind : call.isRunPhases with
  | false => exact (other_leads fuel run s call spares sparing kind).respects .completion run rfl
  | true =>
      cases call with
      | runPhases phases =>
          obtain ⟨m, outcome⟩ := run_phases_outcome fuel run phases s spares
          exact outcome_spares outcome
      | _ => cases kind

theorem perform_visits_pending (fuel : Nat) (s : Session Data) (call : Call Data) (spares : s.Spares run)
    (sparing : call.Spares run) (phase : Phase) (unit : UnitRef)
    (visited : (phase, unit) ∈ phasesStarted run (s.state.since (call.perform fuel run s).state)) :
    unit ∈ s.state.pendingUnits run := by
  cases kind : call.isRunPhases with
  | false =>
      have leads := other_leads fuel run s call spares sparing kind
      rw [(State.moves_records leads.moves).phases run rfl] at visited
      cases visited
  | true =>
      cases call with
      | runPhases phases =>
          obtain ⟨ended, cut, ends, started⟩ := run_phases_ended fuel run phases s spares
          change (phase, unit) ∈ phasesStarted run (s.state.since (ending (runPhases _ _ _ _ s)).state) at visited
          rw [started] at visited
          exact visited_units ends visited
      | _ => cases kind

theorem after_spares (fuel : Nat) (s : Session Data) (calls : List (Call Data)) (spares : s.Spares run)
    (sparing : ∀ call ∈ calls, call.Spares run) : (s.after fuel run calls).Spares run := by
  induction calls generalizing s with
  | nil => exact spares
  | cons call rest ih =>
      exact ih (call.perform fuel run s) (perform_spares fuel s call spares (sparing call (by simp)))
        fun other member => sparing other (by simp [member])

theorem compiled_not_visited (fuel : Nat) (s : Session Data) (calls : List (Call Data)) (spares : s.Spares run)
    (sparing : ∀ call ∈ calls, call.Spares run) (unit : UnitRef) (compiled : (s.state.run run).isCompiled unit = true)
    (phase : Phase) : (phase, unit) ∉ phasesStarted run (s.state.since (s.after fuel run calls).state) := by
  induction calls generalizing s with
  | nil =>
      have nothing : s.state.since (s.after fuel run []).state = [] := State.since_eq (by simp [after])
      rw [nothing]
      exact List.not_mem_nil
  | cons call rest ih =>
      have here := sparing call (by simp)
      have first := State.moves_extends (after_moves fuel run s [call])
      have second := State.moves_extends (after_moves fuel run (call.perform fuel run s) rest)
      have joined : s.state.since (s.after fuel run (call :: rest)).state =
          s.state.since (call.perform fuel run s).state ++
            (call.perform fuel run s).state.since ((call.perform fuel run s).after fuel run rest).state :=
        State.since_append first second
      rw [joined, phases_started_append, List.mem_append]
      rintro (now | afterwards)
      · have pending := perform_visits_pending fuel s call spares here phase unit now
        rw [((pending_iff s unit).mp pending).2.2] at compiled
        cases compiled
      · have still := (perform_compiles fuel s call spares here unit).mpr (.inl compiled)
        exact ih (call.perform fuel run s) (perform_spares fuel s call spares here)
          (fun other member => sparing other (by simp [member])) still afterwards

theorem takes_part_iff (fuel : Nat) (s : Session Data) (call : Call Data) (spares : s.Spares run) (unit : UnitRef) :
    takesPart fuel run unit s call = true ↔ call.succeeds fuel run s = true ∧ unit ∈ s.state.pendingUnits run := by
  cases call with
  | addSource source => simp [takesPart, Call.succeeds]
  | other program => simp [takesPart, Call.succeeds]
  | runPhases phases =>
      obtain ⟨ended, cut, ends, started⟩ := run_phases_ended fuel run phases s spares
      simp only [takesPart, Call.succeeds, started, pending_iff, Bool.and_eq_true, List.contains_iff_mem, List.all_eq_true,
        Bool.not_eq_true', beq_iff_eq]
      refine ⟨fun ⟨⟨⟨⟨success, registered⟩, present⟩, waiting⟩, _⟩ => ⟨success, registered, present, waiting⟩, ?_⟩
      rintro ⟨success, registered, present, waiting⟩
      refine ⟨⟨⟨⟨success, registered⟩, present⟩, waiting⟩, fun phase given => ?_⟩
      rw [← (ended_of_success ends success).1] at given
      exact ended_visits given ((pending_iff s unit).mpr ⟨registered, present, waiting⟩)

-- Taking part and being compiled before exclude each other, so what is counted is the one call that compiles the unit.
theorem participations_eq (fuel : Nat) (unit : UnitRef) (s : Session Data) (calls : List (Call Data))
    (spares : s.Spares run) (sparing : ∀ call ∈ calls, call.Spares run) :
    (if (s.state.run run).isCompiled unit = true then 1 else 0) + participations fuel run unit s calls =
      if ((s.after fuel run calls).state.run run).isCompiled unit = true then 1 else 0 := by
  induction calls generalizing s with
  | nil => rfl
  | cons call rest ih =>
      have here := sparing call (by simp)
      have compiles := perform_compiles fuel s call spares here unit
      rw [← takes_part_iff fuel s call spares unit] at compiles
      have later := ih (call.perform fuel run s) (perform_spares fuel s call spares here)
        fun other member => sparing other (by simp [member])
      change _ = if (((call.perform fuel run s).after fuel run rest).state.run run).isCompiled unit = true then 1 else 0
      rw [← later, participations, ← Nat.add_assoc]
      congr 1
      by_cases before : (s.state.run run).isCompiled unit = true
      · have absent : ¬ takesPart fuel run unit s call = true := fun takes => by
          have pending := ((takes_part_iff fuel s call spares unit).mp takes).2
          rw [((pending_iff s unit).mp pending).2.2] at before
          cases before
        rw [if_pos before, if_neg absent, if_pos (compiles.mpr (.inl before))]
      · by_cases now : takesPart fuel run unit s call = true
        · rw [if_neg before, if_pos now, if_pos (compiles.mpr (.inr now))]
        · rw [if_neg before, if_neg now, if_neg fun compiled => (compiles.mp compiled).elim before now]

theorem units_take_part_once (fuel : Nat) (run : RunRef) (context : ContextRef) (s : Session Data)
    (calls : List (Call Data)) (new : s.state.run run = { context }) (spares : s.Spares run)
    (sparing : ∀ call ∈ calls, call.Spares run) :
    (∀ earlier call later, calls = earlier ++ call :: later →
      let m := s.after fuel run earlier
      let t := call.perform fuel run m
      let units := (m.state.run run).units.filter fun unit =>
        (m.state.unit unit).isPresent && !(m.state.run run).isCompiled unit
      (∀ unit, (t.state.run run).isCompiled unit = true ↔
        (m.state.run run).isCompiled unit = true ∨ call.succeeds fuel run m = true ∧ unit ∈ units) ∧
      (∀ unit, (m.state.run run).isCompiled unit = true →
        ∀ phase, (phase, unit) ∉ phasesStarted run (m.state.since (s.after fuel run calls).state)) ∧
      ∀ phases, call = .runPhases phases → ∃ ended cut,
        Ended fuel run units (phases.filterMap id) m (runPhases (exec fuel) fuel run phases m) ended cut ∧
        (call.succeeds fuel run m = true → ended = phases.filterMap id ∧ cut = []) ∧
        phasesStarted run (m.state.since t.state) = (ended.flatMap fun phase => units.map (phase, ·)) ++ cut ∧
        ∀ phase ∈ ended, ∀ unit ∈ (m.state.run run).units, (m.state.unit unit).isPresent = true →
          (m.state.run run).isCompiled unit = false → (phase, unit) ∈ phasesStarted run (m.state.since t.state)) ∧
    ∀ unit, participations fuel run unit s calls =
      if ((s.after fuel run calls).state.run run).isCompiled unit = true then 1 else 0 := by
  refine ⟨fun earlier call later split => ?_, fun unit => ?_⟩
  · intro m t units
    have before : m.Spares run := after_spares fuel s earlier spares fun other member => sparing other (by simp [split, member])
    have here : call.Spares run := sparing call (by simp [split])
    have rest : ∀ other ∈ call :: later, other.Spares run := fun other member => sparing other (by
      rw [split]
      exact List.mem_append_right _ member)
    refine ⟨perform_compiles fuel m call before here, fun unit compiled phase => ?_, fun phases given => ?_⟩
    · rw [split, after_append]
      exact compiled_not_visited fuel m (call :: later) before rest unit compiled phase
    · subst given
      obtain ⟨ended, cut, ends, started⟩ := run_phases_ended fuel run phases m before
      refine ⟨ended, cut, ends, fun success => ?_, started, fun phase finished unit registered present waiting => ?_⟩
      · rw [Call.succeeds, beq_iff_eq] at success
        exact ended_of_success ends success
      · change (phase, unit) ∈ phasesStarted run (m.state.since (ending (runPhases _ _ _ _ m)).state)
        rw [started]
        exact ended_visits finished ((pending_iff m unit).mpr ⟨registered, present, waiting⟩)
  · have law := participations_eq fuel unit s calls spares sparing
    have uncompiled : ¬ (s.state.run run).isCompiled unit = true := by simp [new, Run.isCompiled]
    rwa [if_neg uncompiled, Nat.zero_add] at law

def typer : Phase := ⟨"typer", 1⟩

-- The first of these is broken off by a check, the second one succeeds, and there is nothing left for the third.
def threeCalls : List (Call Unit) := [.runPhases [some namer], .runPhases [some typer], .runPhases [some namer]]

def twoSubmissions : List (Call Unit) := [.addSource (some sourceA), .addSource (some sourceB)]

theorem first_source_takes_part_once :
    let s := ready newRun [deferring, refusing]
    let m := s.after 9 0 (twoSubmissions ++ [.runPhases [some namer]])
    phasesStarted 0 (m.state.since (Call.perform 9 0 m (.runPhases [some typer])).state) = [(typer, 1), (typer, 2)] ∧
      participations 9 0 1 s (twoSubmissions ++ threeCalls) = 1 := by
  intro s m
  have spare : ∀ call ∈ twoSubmissions ++ threeCalls, call.Spares 0 := by
    intro call member
    simp only [twoSubmissions, threeCalls, List.cons_append, List.nil_append, List.mem_cons, List.not_mem_nil, or_false]
      at member
    rcases member with rfl | rfl | rfl | rfl | rfl <;> trivial
  obtain ⟨calls, counted⟩ := units_take_part_once 9 0 1 s (twoSubmissions ++ threeCalls) (by decide +kernel)
    (deferring_spares newRun) spare
  obtain ⟨_, _, visits⟩ := calls (twoSubmissions ++ [.runPhases [some namer]]) (.runPhases [some typer])
    [.runPhases [some namer]] rfl
  obtain ⟨ended, cut, _, all, started, _⟩ := visits [some typer] rfl
  obtain ⟨rfl, rfl⟩ := all (by decide +kernel)
  have units : ((m.state.run 0).units.filter fun unit =>
      (m.state.unit unit).isPresent && !(m.state.run 0).isCompiled unit) = [1, 2] := by decide +kernel
  rw [units] at started
  exact ⟨started, (counted 1).trans (if_pos (by decide +kernel))⟩

end Session

end UnitRegistry
