import UnitRegistry.Proofs.Visits

set_option autoImplicit false

namespace UnitRegistry

open State (nobody only)

namespace Session

variable {Data : Type} {run : RunRef}

theorem opened_complete (run : RunRef) (s : Session Data) : ((s.opened run).state.run run).complete = false := by
  change ((s.state.modifyRun run (·.setComplete false)).run run).complete = false
  rw [State.run_modify]
  split
  · rfl
  · rename_i absent
    rw [State.run_absent s.state run (Nat.le_of_not_lt fun there => absent ⟨rfl, there⟩)]
    rfl

theorem began_leads (fuel : Nat) (units : List UnitRef) (phases : List Phase) (count : Nat) (s reached : Session Data)
    (spares : s.Spares run) (began : Began (exec fuel) run units phases count s reached) :
    s.Leads (only .completion run) reached := by
  have free : ¬ only .completion run .phase run := fun barred => nomatch barred.1
  have keeps : Keeps (only .completion run) ((phases.take count).forM (applyPhase (exec fuel) run units) : Exec Data Unit) :=
    keeps_for _ _ fun phase _ => keeps_apply_phase (keeps_exec fuel) run free units phase
  exact leads_of_ok keeps (respects_only .completion run s spares) began.applied

theorem incomplete_of_leads {s t : Session Data} (leads : s.Leads (only .completion run) t)
    (incomplete : (s.state.run run).complete = false) : (t.state.run run).complete = false := by
  cases complete : (t.state.run run).complete with
  | false => rfl
  | true =>
      have before := ((State.moves_grows run leads.moves).complete ⟨rfl, rfl⟩ complete).1
      rw [incomplete] at before
      cases before

theorem completed_clear (units : List UnitRef) (drained : Session Data)
    (complete : ((drained.completed run units).state.run run).complete = true) :
    drained.state.runHasErrors run = false := by
  cases errors : drained.state.runHasErrors run with
  | false => rfl
  | true =>
      have unset : ((drained.completed run units).state.run run) = ((drained.opened run).state.run run) := by
        simp only [completed, State.completeRun, errors, opened, if_true]
      rw [unset, opened_complete] at complete
      cases complete

theorem drained_of_complete (fuel : Nat) (units : List UnitRef) (phases : List Phase) (count : Nat)
    (s reached settled : Session Data) (spares : s.Spares run)
    (began : Began (exec fuel) run units phases count (s.opened run) reached)
    (settles : Settled (exec fuel) fuel run units phases count reached settled)
    (complete : (settled.state.run run).complete = true) :
    count = phases.length ∧ ∃ drained, Drained (exec fuel) fuel units reached drained ∧
      drained.state.runHasErrors run = false ∧ settled = drained.completed run units := by
  have leads := began_leads fuel _ _ count (s.opened run) reached spares began
  have incomplete := incomplete_of_leads leads (opened_complete run s)
  cases settles with
  | drained all clear drained ran same =>
      rw [same] at complete
      exact ⟨all, drained, drained_of_ran fuel units reached drained ran, completed_clear units drained complete, same⟩
  | skipped _ same =>
      obtain rfl | ⟨phase, rfl⟩ := same
      · rw [incomplete] at complete
        cases complete
      · have runs := (stopped_reports run phase reached).runs
        have same : (reached.stoppedBefore run phase).state.run run = reached.state.run run := by
          simp only [State.run, runs]
        rw [same, incomplete] at complete
        cases complete

theorem settled_complete (fuel : Nat) (phases : List (Option Phase)) (s settled : Session Data) (spares : s.Spares run)
    (ran : runUnits (exec fuel) fuel run phases s = .ok () settled)
    (complete : (settled.state.run run).complete = true) :
    ∃ reached drained,
      Began (exec fuel) run (s.state.pendingUnits run) (phases.filterMap id) (phases.filterMap id).length (s.opened run)
        reached ∧
      Drained (exec fuel) fuel (s.state.pendingUnits run) reached drained ∧
      drained.state.runHasErrors run = false ∧ settled = drained.completed run (s.state.pendingUnits run) := by
  obtain ⟨count, reached, began, settles⟩ := run_units_parts fuel phases s settled ran
  obtain ⟨rfl, drained, rest⟩ := drained_of_complete fuel _ _ count s reached settled spares began settles complete
  exact ⟨reached, drained, began, rest⟩

theorem completed_errors (units : List UnitRef) (s : Session Data) :
    (s.completed run units).state.runErrors run = s.state.runErrors run := by
  obtain ⟨f, modified, keeps⟩ := State.complete_run_modifies s.state run units
  have context : ((s.state.modifyRun run f).run run).context = (s.state.run run).context := by
    rw [State.run_modify]
    split
    · exact (keeps _).1
    · rfl
  simp only [completed, modified, State.runErrors, State.errorCount, State.runReporter, context]
  rfl

theorem concluded_errors (s : Session Data) (there : s.state.runReporter run < s.state.reporters.size) :
    (s.concluded run).state.runErrors run = s.state.runErrors run +
      if s.state.options.warningsAsErrors then (s.state.heldCategories (s.state.run run).context).length else 0 := by
  have summary := State.summarize_warnings_errors s.state (s.state.run run).context there
  have logged := State.outputs_reporters
    (State.log_end_outputs (s.state.summarizeWarnings (s.state.run run).context) run)
  have same : (s.concluded run).state.runReporter run = s.state.runReporter run := by
    rw [State.runReporter, concluded_run, (concluded_reports run s).reporter, State.runReporter]
  have counted : (s.concluded run).state.errorCount (s.state.runReporter run) =
      (s.state.summarizeWarnings (s.state.run run).context).errorCount (s.state.runReporter run) := by
    simp only [concluded, State.errorCount, State.reporter, logged]
  rw [State.runErrors, same, counted]
  exact summary

theorem linked_settled (fuel : Nat) (phases : List (Option Phase)) (s settled : Session Data)
    (linked : s.state.Linked run) (ran : runUnits (exec fuel) fuel run phases s = .ok () settled) :
    settled.state.Linked run := by
  have keeps : Keeps nobody (runUnits (exec fuel) fuel run phases : Exec Data Unit) :=
    keeps_run_units (keeps_exec fuel) fuel run (fun _ barred => barred.elim) phases
  exact (State.linked_of_widens linked (State.moves_widen (moves_of_ok keeps ran))).1

-- The flag says nothing of the errors that the summary itself adds, one for each category that holds warnings while
-- warnings count as errors. Unless a callback runs the phases of this very run, there are no other errors.
theorem errors_of_complete_run (fuel : Nat) (run : RunRef) (phases : List (Option Phase)) (s t : Session Data)
    (linked : s.state.Linked run) (ran : runPhases (exec fuel) fuel run phases s = .ok true t) :
    ∃ settled, runUnits (exec fuel) fuel run phases s = .ok () settled ∧
      t.state.runErrors run = settled.state.runErrors run +
        (if settled.state.options.warningsAsErrors then
          (settled.state.heldCategories (settled.state.run run).context).length else 0) ∧
      (t.state.runErrors run = 0 ↔ settled.state.runErrors run = 0 ∧ (settled.state.options.warningsAsErrors = false ∨
        ∀ category, (settled.state.accumulator (.category (settled.state.run run).context category)).count = 0)) ∧
      (s.Spares run → settled.state.runErrors run = 0) := by
  obtain ⟨settled, settling, rfl, complete⟩ := (run_phases_ok fuel phases s t true).mp ran
  have errors := concluded_errors settled (linked_settled fuel phases s settled linked settling).reporter
  refine ⟨settled, settling, errors, ?_, fun spares => ?_⟩
  · rw [errors, Nat.add_eq_zero_iff, ← State.held_categories_nil_iff]
    cases settled.state.options.warningsAsErrors <;> simp
  · obtain ⟨_, drained, _, _, clear, rfl⟩ := settled_complete fuel phases s settled spares settling complete.symm
    rw [completed_errors]
    exact (State.run_has_no_errors_iff drained.state run).mp clear

def deprecating : Cause → Program Unit := fun _ =>
  .act (.emission 1 (.categorized .deprecation) ⟨.nowhere, "object is deprecated"⟩) fun _ => .done

def deprecated (warningsAsErrors : Bool) : Session Unit :=
  ready (.setOptions { warningsAsErrors } :: twoSources) [deprecating]

theorem deprecated_spares (warningsAsErrors : Bool) : (deprecated warningsAsErrors).Spares 0 := by
  refine ready_spares 0 _ _ fun body member cause => ?_
  rw [List.mem_singleton.mp member]
  exact fun _ => trivial

theorem deprecated_linked (warningsAsErrors : Bool) : (deprecated warningsAsErrors).state.Linked 0 := by
  cases warningsAsErrors <;> exact ⟨by decide +kernel, by decide +kernel, by decide +kernel⟩

theorem errors_of_lenient_run :
    (ending (runPhases (exec 9) 9 0 [some namer] (deprecated false))).state.runErrors 0 = 0 := by
  obtain ⟨settled, settling, _, clear, none⟩ := errors_of_complete_run 9 0 [some namer] (deprecated false) _
    (deprecated_linked false) (eq_ok_of_value (by decide +kernel))
  refine clear.mpr ⟨none (deprecated_spares false), .inl ?_⟩
  have same : settled = ending (runUnits (exec 9) 9 0 [some namer] (deprecated false)) := by rw [settling, ending_ok]
  rw [same]
  decide +kernel

theorem complete_run_with_error :
    (deprecated true).Spares 0 ∧ (deprecated true).state.Linked 0 ∧
      ∃ t, runPhases (exec 9) 9 0 [some namer] (deprecated true) = .ok true t ∧ t.state.runErrors 0 = 1 :=
  ⟨deprecated_spares true, deprecated_linked true, _, eq_ok_of_value (by decide +kernel), by decide +kernel⟩

theorem rest_of_drained (fuel : Nat) (run : RunRef) (units later : List UnitRef) (s drained : Session Data)
    (ran : later.forM (runChecks (exec fuel) fuel) s = .ok () drained) :
    s.state.Moves nobody ((drained.completed run units).concluded run).state := by
  have completing : drained.state.Moves nobody (drained.completed run units).state :=
    State.move_moves (.completeRun drained.state run units fun barred => barred.elim)
  have concluding := moves_of_ok (keeps_conclude run) (conclude_eq run (drained.completed run units))
  exact State.moves_trans (moves_of_ok (keeps_checks nobody fuel later) ran) (State.moves_trans completing concluding)

theorem run_phases_moves (fuel : Nat) (run : RunRef) (phases : List (Option Phase)) (s t : Session Data) (returned : Bool)
    (ran : runPhases (exec fuel) fuel run phases s = .ok returned t) : s.state.Moves nobody t.state := by
  have keeps : Keeps nobody (runPhases (exec fuel) fuel run phases : Exec Data Bool) :=
    keeps_run_phases (keeps_exec fuel) fuel run (fun _ barred => barred.elim) phases
  exact moves_of_ok keeps ran

-- A queue is empty when all that was in it or came to it was started. What is left in the queue of a unit that had its
-- turn was registered on it after its turn, and nobody else has run it.
theorem checks_of_complete_run (fuel : Nat) (run : RunRef) (phases : List (Option Phase)) (s t : Session Data)
    (ran : runPhases (exec fuel) fuel run phases s = .ok true t) :
    (∀ unit, (t.state.unit unit).checks = [] ↔ checksStarted unit (s.state.since t.state) =
      (s.state.unit unit).checks ++ checksAdded unit (s.state.since t.state)) ∧
    (s.Spares run →
      let units := (s.state.run run).units.filter fun unit =>
        (s.state.unit unit).isPresent && !(s.state.run run).isCompiled unit
      ∃ reached,
      Began (exec fuel) run units (phases.filterMap id) (phases.filterMap id).length (s.opened run) reached ∧
      ∀ earlier unit later, units = earlier ++ unit :: later → ∃ before after,
        earlier.forM (runChecks (exec fuel) fuel) reached = .ok () before ∧ Turn (exec fuel) fuel unit before after ∧
        checksAdded unit (after.state.since t.state) =
          checksStarted unit (after.state.since t.state) ++ (t.state.unit unit).checks ∧
        ((t.state.unit unit).checks = [] ↔
          checksStarted unit (after.state.since t.state) = checksAdded unit (after.state.since t.state))) := by
  have whole := run_phases_moves fuel run phases s t true ran
  refine ⟨fun unit => ?_, fun spares => ?_⟩
  · rw [(State.moves_records whole).checks unit]
    simp
  · intro units
    obtain ⟨settled, settling, rfl, complete⟩ := (run_phases_ok fuel phases s t true).mp ran
    obtain ⟨reached, drained, began, turns, _, rfl⟩ :=
      settled_complete fuel phases s settled spares settling complete.symm
    refine ⟨reached, began, fun earlier unit later split => ?_⟩
    obtain ⟨before, after, first, turn, rest⟩ := turns.turns earlier unit later split
    have moves := rest_of_drained fuel run (s.state.pendingUnits run) later after drained rest
    have queue := (State.moves_records moves).checks unit
    rw [turn.empty, List.nil_append] at queue
    refine ⟨before, after, first, turn, queue, ?_⟩
    rw [queue]
    simp

def latecomer : Cause → Program Unit := fun _ => .act (.addCheck 1 ⟨"late", 1⟩) fun _ => .done

def lateCheck : Session Unit := ready (twoSources ++ [.addCheck 2 ⟨"first", 0⟩]) [latecomer]

theorem late_check_spares : lateCheck.Spares 0 := by
  refine ready_spares 0 _ _ fun body member cause => ?_
  rw [List.mem_singleton.mp member]
  exact fun _ => trivial

theorem checks_after_second_turn :
    let t := ending (runPhases (exec 9) 9 0 [] lateCheck)
    let before := ending (runChecks (exec 9) 9 1 (lateCheck.opened 0))
    let after := ending (runChecks (exec 9) 9 2 before)
    (checksStarted 2 (lateCheck.state.since t.state) = [⟨"first", 0⟩] ∧ (t.state.unit 2).checks = []) ∧
      Turn (exec 9) 9 2 before after ∧ (after.state.unit 1).checks = [⟨"late", 1⟩] ∧
      checksStarted 1 (lateCheck.state.since t.state) = [] ∧ (t.state.unit 1).checks ≠ [] := by
  intro t before after
  obtain ⟨queues, drained⟩ := checks_of_complete_run 9 0 [] lateCheck t (eq_ok_of_value (by decide +kernel))
  obtain ⟨reached, began, turns⟩ := drained late_check_spares
  obtain ⟨middle, last, first, turn, _⟩ := turns [1] 2 [] (by decide +kernel)
  have none : reached = lateCheck.opened 0 := (for_nil _ _ _).mp began.applied
  have same : middle = before := by
    obtain ⟨turned, ran, rest⟩ := (for_cons _ 1 [] reached middle).mp first
    rw [none] at ran
    exact ((for_nil _ _ _).mp rest).trans (congrArg ending ran).symm
  subst same
  have ended : last = after := (congrArg ending turn.ran).symm
  have started : checksStarted 2 (lateCheck.state.since t.state) = [⟨"first", 0⟩] := by decide +kernel
  have added : checksAdded 2 (lateCheck.state.since t.state) = [] := by decide +kernel
  have given : (lateCheck.state.unit 2).checks = [⟨"first", 0⟩] := by decide +kernel
  refine ⟨⟨started, (queues 2).mpr ?_⟩, ended ▸ turn, by decide +kernel, by decide +kernel, fun empty => ?_⟩
  · rw [started, added, given]
    rfl
  · have balanced := (queues 1).mp empty
    revert balanced
    decide +kernel

theorem complete_run_with_check_left :
    lateCheck.Spares 0 ∧ ∃ t, runPhases (exec 9) 9 0 [] lateCheck = .ok true t ∧ 1 ∈ (t.state.run 0).units ∧
      (t.state.unit 1).isPresent = true ∧ (t.state.unit 1).checks = [⟨"late", 1⟩] :=
  ⟨late_check_spares, _, eq_ok_of_value (by decide +kernel), by decide +kernel, by decide +kernel, by decide +kernel⟩

end Session

end UnitRegistry
