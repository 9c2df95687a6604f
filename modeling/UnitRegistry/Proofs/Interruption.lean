import UnitRegistry.Proofs.CategorizedWarnings
import UnitRegistry.Proofs.History
import UnitRegistry.Proofs.Submissions

set_option autoImplicit false

namespace UnitRegistry

open State (nobody only)

namespace State

def KeepsHeld (ref : AccumulatorRef) (s t : State) : Prop :=
  ∃ stated, (s.accumulator ref).held.toList ++ warningsGiven ref (s.since t) = stated ++ (t.accumulator ref).held.toList ∧
    stated.length = (summariesStated ref (s.since t)).sum

structure Unwound (run : RunRef) (s t : State) : Prop where
  incomplete : (t.run run).complete = false
  compiled : (t.run run).compiled = (s.run run).compiled
  registry : ∃ added, (t.run run).registry = (s.run run).registry ++ added ∧
    added.map Prod.fst = newSources (s.sources run) (submissions run (s.since t)) ∧
    ∀ entry ∈ added, s.units.size ≤ entry.2 ∧ entry.2 < t.units.size
  checks : ∀ unit, (s.unit unit).checks ++ checksAdded unit (s.since t) =
    checksStarted unit (s.since t) ++ (t.unit unit).checks
  context : (t.run run).context = (s.run run).context
  warnings : ∀ category, (s.accumulator (.category (s.run run).context category)).enabled = false →
    KeepsHeld (.category (s.run run).context category) s t

theorem held_of_accounts {ref : AccumulatorRef} {s t : State} (accounts : Accounts ref s (s.since t) t)
    (disabled : (s.accumulator ref).enabled = false) : KeepsHeld ref s t := by
  have switch : (s.accumulator ref).clear.enabled = false := disabled
  exact (ledger_disabled switch accounts.ledger).2

end State

namespace Session

variable {Data α : Type} {run : RunRef}

section Stops

variable {call : Program Data → Exec Data Unit} {units : List UnitRef}

theorem for_error (f : α → Exec Data PUnit) (items : List α) (s t : Session Data) (stop : Stop)
    (stopped : items.forM f s = .error stop t) :
    ∃ earlier item later middle, items = earlier ++ item :: later ∧ earlier.forM f s = .ok () middle ∧
      f item middle = .error stop t := by
  induction items generalizing s with
  | nil => cases stopped
  | cons item rest ih =>
      change (f item >>= fun _ => rest.forM f) s = .error stop t at stopped
      rcases (bind_error _ _ s t stop).mp stopped with here | ⟨_, middle, ran, there⟩
      · exact ⟨[], item, rest, s, rfl, (for_nil f s s).mpr rfl, here⟩
      · obtain ⟨earlier, other, later, last, rfl, before, stops⟩ := ih middle there
        exact ⟨item :: earlier, other, later, last, rfl, (for_cons f item earlier s last).mpr ⟨middle, ran, before⟩, stops⟩

theorem visit_error (phases : List (Option Phase)) (s t : Session Data) (stop : Stop)
    (stopped : visit call run units phases s = .error stop t) :
    ∃ earlier phase later reached, phases.filterMap id = earlier ++ phase :: later ∧
      Began call run units earlier earlier.length s reached ∧ reached.state.runErrors run = 0 ∧
      applyPhase call run units phase reached = .error stop t := by
  induction phases generalizing s with
  | nil => cases stopped
  | cons given rest ih =>
      cases given with
      | none => exact ih s stopped
      | some phase =>
          cases errors : s.state.runHasErrors run with
          | true =>
              rw [visit_stops phase rest s errors] at stopped
              cases stopped
          | false =>
              rw [visit_goes phase rest s errors] at stopped
              have clear := (State.run_has_no_errors_iff s.state run).mp errors
              rcases (bind_error _ _ s t stop).mp stopped with here | ⟨_, middle, ran, there⟩
              · exact ⟨[], phase, rest.filterMap id, s, rfl, began_none [] s (fun more => absurd rfl more), clear, here⟩
              · obtain ⟨earlier, other, later, reached, split, begun, stops⟩ := ih middle there
                refine ⟨phase :: earlier, other, later, reached, congrArg (phase :: ·) split, ?_, stops⟩
                exact began_next phase earlier earlier.length s middle reached clear ran begun

theorem apply_phase_error (phase : Phase) (s t : Session Data) (stop : Stop)
    (stopped : applyPhase call run units phase s = .error stop t) :
    ∃ earlier unit later m, units = earlier ++ unit :: later ∧
      earlier.forM (runPhaseOn call run phase) { s with state := s.state.logStart phase units } = .ok () m ∧
      call (m.routines.get phase.routine (.phase unit)) (m.startPhase run phase unit) = .error stop t :=
  for_error (runPhaseOn call run phase) units { s with state := s.state.logStart phase units } t stop stopped

end Stops

theorem drain_error (call : Program Data → Exec Data Unit) (walking : ∀ program, Walking (call program)) (unit : UnitRef)
    (fuel ran : Nat) (s t : Session Data) (fault : Fault) (stopped : drain call unit fuel ran s = .error (.fault fault) t) :
    ∃ (m : Session Data) (check : Check) (rest : List Check), s.state.Walks nobody m.state ∧
      (m.state.unit unit).checks = check :: rest ∧
      call (m.routines.get check.routine (.check unit)) (m.startCheck unit check) = .error (.fault fault) t := by
  induction fuel generalizing ran s with
  | zero => cases stopped
  | succ fuel ih =>
      cases queue : (s.state.unit unit).checks with
      | nil =>
          rw [drain_nil _ unit fuel ran s queue] at stopped
          cases stopped
      | cons check rest =>
          rw [drain_cons _ unit fuel ran s check rest queue] at stopped
          rcases (bind_error _ _ _ t _).mp stopped with here | ⟨_, middle, called, there⟩
          · exact ⟨s, check, rest, State.walks_refl s.state, queue, here⟩
          · obtain ⟨m, other, others, reached, queued, thrown⟩ := ih (ran + 1) middle there
            have starting : s.state.Walks nobody (s.startCheck unit check).state := start_check_walks s unit check rest queue
            have calling := walks_of_ok (walking _) called
            exact ⟨m, other, others, State.walks_trans starting (State.walks_trans calling reached), queued, thrown⟩

theorem run_checks_error (call : Program Data → Exec Data Unit) (walking : ∀ program, Walking (call program)) (fuel : Nat)
    (unit : UnitRef) (s t : Session Data) (fault : Fault) (stopped : runChecks call fuel unit s = .error (.fault fault) t) :
    ∃ (m : Session Data) (check : Check) (rest : List Check), s.state.Walks nobody m.state ∧
      (m.state.unit unit).checks = check :: rest ∧
      call (m.routines.get check.routine (.check unit)) (m.startCheck unit check) = .error (.fault fault) t := by
  rcases (bind_error _ _ s t _).mp stopped with inside | ⟨_, _, _, logging⟩
  · exact drain_error call walking unit fuel 0 s t fault inside
  · cases logging

-- Where the fault comes from. The check has left its queue, and what was behind it is started by the check itself or
-- still queued.
inductive Thrown (fuel : Nat) (run : RunRef) (phases : List (Option Phase)) (fault : Fault) (s t : Session Data) : Prop where
  | phase (m : Session Data) (phase : Phase) (unit : UnitRef) (given : some phase ∈ phases)
      (pending : unit ∈ s.state.pendingUnits run) (reached : s.state.Moves nobody m.state)
      (thrown : exec fuel (m.routines.get phase.routine (.phase unit)) (m.startPhase run phase unit) = .error (.fault fault) t)
  | check (m : Session Data) (unit : UnitRef) (check : Check) (rest : List Check)
      (pending : unit ∈ s.state.pendingUnits run) (reached : s.state.Moves nobody m.state)
      (queued : (m.state.unit unit).checks = check :: rest)
      (thrown : exec fuel (m.routines.get check.routine (.check unit)) (m.startCheck unit check) = .error (.fault fault) t)
      (left : rest ++ checksAdded unit ((m.startCheck unit check).state.since t.state) =
        checksStarted unit ((m.startCheck unit check).state.since t.state) ++ (t.state.unit unit).checks)

theorem start_check_queue (m : Session Data) (unit : UnitRef) (check : Check) (rest : List Check)
    (queued : (m.state.unit unit).checks = check :: rest) : ((m.startCheck unit check).state.unit unit).checks = rest := by
  have there := State.present_of_queued m.state unit (by simp [queued])
  change ((m.state.modifyUnit unit CompilationUnit.dropCheck).unit unit).checks = rest
  rw [State.unit_modify, if_pos ⟨rfl, there⟩, CompilationUnit.dropCheck, queued]
  rfl

theorem thrown_of_stopped (fuel : Nat) (run : RunRef) (phases : List (Option Phase)) (s t : Session Data) (fault : Fault)
    (stopped : runPhases (exec fuel) fuel run phases s = .error (.fault fault) t) : Thrown fuel run phases fault s t := by
  have free (drive : State.Drive) : ¬ nobody drive run := fun barred => barred.elim
  have opening : s.state.Moves nobody (s.opened run).state := State.move_moves (.openRun s.state run (free _))
  rcases run_phases_error fuel phases s t _ stopped with visits | ⟨visited, visits, _, checks⟩
  · obtain ⟨earlier, phase, later, reached, split, begun, _, stops⟩ := visit_error phases _ t _ visits
    obtain ⟨visitedUnits, unit, others, m, units, ran, thrown⟩ := apply_phase_error phase reached t _ stops
    have given : some phase ∈ phases := by
      have member : phase ∈ phases.filterMap id := by
        rw [split]
        exact List.mem_append_right _ List.mem_cons_self
      obtain ⟨other, there, rfl⟩ := List.mem_filterMap.mp member
      exact there
    have applying := moves_of_ok (keeps_for _ earlier fun phase _ =>
      keeps_apply_phase (keeps_exec fuel) run (free _) (s.state.pendingUnits run) phase) (began_all begun)
    have logging : reached.state.Moves nobody (reached.state.logStart phase (s.state.pendingUnits run)) :=
      State.trace_moves _ _ _ _
    have visiting := moves_of_ok (keeps_for _ visitedUnits fun unit _ =>
      keeps_run_phase_on (keeps_exec fuel) run (free _) phase unit) ran
    refine .phase m phase unit given (by simp [units]) ?_ thrown
    exact State.moves_trans opening (State.moves_trans applying (State.moves_trans logging visiting))
  · obtain ⟨earlier, unit, later, before, units, ran, stops⟩ := for_error _ _ visited t _ checks
    obtain ⟨m, check, rest, draining, queued, thrown⟩ := run_checks_error _ (walking_exec fuel) fuel unit before t fault stops
    have visiting := moves_of_ok (keeps_visit (keeps_exec fuel) run (free _) (s.state.pendingUnits run) phases) visits
    have checking := moves_of_ok (keeps_checks nobody fuel earlier) ran
    have calling := moves_of_error (keeps_exec fuel _ (Program.respects_nobody _)) thrown
    have law := (State.moves_records calling).checks unit
    rw [start_check_queue m unit check rest queued] at law
    refine .check m unit check rest (by simp [units]) ?_ queued thrown law
    have draining := State.moves_of_walks draining
    exact State.moves_trans opening (State.moves_trans visiting (State.moves_trans checking draining))

theorem after_moves (fuel : Nat) (run : RunRef) (s : Session Data) (calls : List (Call Data)) :
    s.state.Moves nobody (s.after fuel run calls).state := by
  induction calls generalizing s with
  | nil => exact State.moves_refl s.state
  | cons call rest ih =>
      have step : s.Leads nobody (call.perform fuel run s) := by
        cases call with
        | addSource source => exact keeps_perform (.addSource run source) s (respects_nobody s)
        | runPhases phases =>
            exact keeps_run_phases (keeps_exec fuel) fuel run (fun _ barred => barred.elim) phases s (respects_nobody s)
        | other program => exact keeps_exec fuel program program.respects_nobody s (respects_nobody s)
      exact State.moves_trans step.moves (ih (call.perform fuel run s))

theorem unwound_of_stopped (fuel : Nat) (run : RunRef) (phases : List (Option Phase)) (s t : Session Data) (stop : Stop)
    (spares : s.Spares run) (linked : s.state.Linked run)
    (stopped : runPhases (exec fuel) fuel run phases s = .error stop t) : s.state.Unwound run t.state := by
  have leads := stopped_leads fuel run phases s t stop spares stopped
  have opening : s.state.Moves (only .completion run) (s.opened run).state :=
    State.move_moves (.openRun s.state run fun barred => nomatch barred.1)
  have moves := State.moves_trans opening leads.moves
  refine ⟨incomplete_of_leads leads (opened_complete run s), (State.moves_grows run moves).compiled ⟨rfl, rfl⟩,
    State.registry_of_moves moves linked.known, (State.moves_records moves).checks,
    (State.moves_widen moves).context run linked.known, fun category disabled => ?_⟩
  exact State.held_of_accounts (State.moves_accounts _ moves linked.context) disabled

-- A summary states all that is held when it begins, since nothing is said to the category in the meantime.
theorem concluded_states (run : RunRef) (category : Category) (s : Session Data)
    (there : (s.state.run run).context < s.state.contexts.size) :
    summariesStated (.category (s.state.run run).context category) (s.state.since (s.concluded run).state) =
        (if (s.state.accumulator (.category (s.state.run run).context category)).count = 0 then []
          else [(s.state.accumulator (.category (s.state.run run).context category)).count]) ∧
      ((s.concluded run).state.accumulator (.category (s.state.run run).context category)).count = 0 := by
  have empty := concluded_empty run category s
  rw [concluded_run] at empty
  have moves := moves_of_ok (keeps_conclude run) (conclude_eq run s)
  have accounts := State.moves_accounts (.category (s.state.run run).context category) moves there
  have silent : warningsGiven (.category (s.state.run run).context category) (s.state.since (s.concluded run).state) = [] :=
    State.reports_read_nothing _ (fun event report => by cases event <;> first | rfl | cases report) (concluded_reports run s)
  refine ⟨?_, empty⟩
  rcases ledger_without_warnings accounts.ledger silent with ⟨same, none⟩ | ⟨some, _, stated⟩
  · have nothing := congrArg List.length same
    rw [Array.length_toList, Array.length_toList] at nothing
    have before : (s.state.accumulator (.category (s.state.run run).context category)).count = 0 := nothing.symm.trans empty
    rw [none, if_pos before]
  · have held : (s.state.accumulator (.category (s.state.run run).context category)).count ≠ 0 := by
      simpa [Accumulator.count] using some
    rw [stated, if_neg held, Array.length_toList]
    rfl

-- After a fault the warnings wait for the next call that returns, whatever happens until then.
theorem state_after_fault (fuel : Nat) (run : RunRef) (phases : List (Option Phase)) (s t : Session Data) (fault : Fault)
    (spares : s.Spares run) (linked : s.state.Linked run)
    (stopped : runPhases (exec fuel) fuel run phases s = .error (.fault fault) t) :
    Thrown fuel run phases fault s t ∧ s.state.Unwound run t.state ∧
      ∀ later calls phases returned u, runPhases (exec later) later run phases (t.after later run calls) = .ok returned u →
        ∃ settled, runUnits (exec later) later run phases (t.after later run calls) = .ok () settled ∧
          ∀ category, let ref := AccumulatorRef.category (s.state.run run).context category
            (s.state.accumulator ref).enabled = false →
              State.KeepsHeld ref t.state settled.state ∧
              summariesStated ref (settled.state.since u.state) =
                (if (settled.state.accumulator ref).count = 0 then [] else [(settled.state.accumulator ref).count]) ∧
              (u.state.accumulator ref).count = 0 := by
  have unwound := unwound_of_stopped fuel run phases s t _ spares linked stopped
  refine ⟨thrown_of_stopped fuel run phases s t fault stopped, unwound, fun later calls phases returned u ran => ?_⟩
  obtain ⟨settled, settling, rfl, _⟩ := (run_phases_ok later phases _ u returned).mp ran
  have breaking := moves_of_error (keeps_run_phases (keeps_exec fuel) fuel run (fun _ barred => barred.elim) _) stopped
  have running := moves_of_ok (keeps_run_units (keeps_exec later) later run (fun _ barred => barred.elim) phases) settling
  have waiting := State.moves_trans (after_moves later run t calls) running
  have linkedThen := (State.linked_of_widens linked (State.moves_widen breaking)).1
  have linkedLater := (State.linked_of_widens linkedThen (State.moves_widen waiting)).1
  have same : (settled.state.run run).context = (s.state.run run).context := by
    rw [(State.moves_widen waiting).context run linkedThen.known, unwound.context]
  refine ⟨settled, settling, fun category => ?_⟩
  intro ref disabled
  have accounts := State.moves_accounts ref breaking linked.context
  have switch : (t.state.accumulator ref).clear.enabled = (s.state.accumulator ref).clear.enabled :=
    congrArg Accumulator.enabled accounts.settings
  have summary := concluded_states run category settled linkedLater.context
  rw [same] at summary
  exact ⟨State.held_of_accounts (State.moves_accounts ref waiting accounts.has) (switch.trans disabled), summary⟩

def deferring : Cause → Program Unit
  | .phase unit =>
      .act (.emission 1 (.categorized .deprecation) ⟨.nowhere, "object is deprecated"⟩) fun _ =>
        .act (.addCheck unit ⟨"first", 1⟩) fun _ => .act (.addCheck unit ⟨"second", 2⟩) fun _ => .done
  | _ => .done

def refusing : Cause → Program Unit
  | .check 1 => .raise (.raised .runtime "refused")
  | _ => .done

theorem deferring_spares (requests : List Request) : (ready requests [deferring, refusing]).Spares 0 := by
  refine ready_spares 0 _ _ fun body member cause => ?_
  simp only [List.mem_cons, List.not_mem_nil, or_false] at member
  rcases member with rfl | rfl
  · cases cause with
    | phase unit => exact fun _ _ _ => trivial
    | _ => trivial
  · unfold refusing
    split <;> trivial

def faultyCheck : Session Unit := ready twoSources [deferring, refusing]

theorem warnings_after_faulty_check :
    let t := ending (runPhases (exec 9) 9 0 [some namer] faultyCheck)
    let settled := ending (runUnits (exec 9) 9 0 [] t)
    let u := ending (runPhases (exec 9) 9 0 [] t)
    (t.state.unit 1).checks = [⟨"second", 2⟩] ∧
      summariesStated (.category 1 .deprecation) (settled.state.since u.state) = [2] := by
  intro t settled u
  obtain ⟨_, unwound, next⟩ := state_after_fault 9 0 [some namer] faultyCheck t (.raised .runtime "refused")
    (deferring_spares twoSources) ⟨by decide +kernel, by decide +kernel, by decide +kernel⟩ (eq_error_of_stop (by decide +kernel))
  have queue := unwound.checks 1
  have registered : (faultyCheck.state.unit 1).checks ++ checksAdded 1 (faultyCheck.state.since t.state) =
      [⟨"first", 1⟩, ⟨"second", 2⟩] := by decide +kernel
  have started : checksStarted 1 (faultyCheck.state.since t.state) = [⟨"first", 1⟩] := by decide +kernel
  rw [registered, started] at queue
  obtain ⟨last, settling, law⟩ := next 9 [] [] true u (eq_ok_of_value (by decide +kernel))
  obtain ⟨_, stated, _⟩ := law .deprecation (by decide +kernel)
  have same : last = settled := (congrArg ending settling).symm
  rw [same] at stated
  exact ⟨(List.cons.inj queue).2.symm, stated.trans (by decide +kernel)⟩

end Session

end UnitRegistry
