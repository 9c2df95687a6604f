import UnitRegistry.Action
import UnitRegistry.Proofs.Effect
import UnitRegistry.Proofs.Interruption

set_option autoImplicit false

namespace UnitRegistry

namespace Step

def registered? (unit : UnitRef) : Step → Option Check
  | .request (.addCheck of check) => if some of = some unit then some check else none
  | _ => none

def started? (unit : UnitRef) : Step → Option Check
  | .startCheck of check => if some of = some unit then some check else none
  | _ => none

theorem registered_none {unit : UnitRef} {step : Step} (other : ∀ check, step ≠ .request (.addCheck unit check)) :
    step.registered? unit = none := by
  cases step with
  | request request =>
      cases request with
      | addCheck of check =>
          refine if_neg fun named => ?_
          cases named
          exact other check rfl
      | _ => rfl
  | _ => rfl

theorem started_none {unit : UnitRef} {step : Step} (other : ∀ check, step ≠ .startCheck unit check) :
    step.started? unit = none := by
  cases step with
  | startCheck of check =>
      refine if_neg fun named => ?_
      cases named
      exact other check rfl
  | _ => rfl

end Step

def registrations (unit : UnitRef) (steps : List Step) : List Check := steps.filterMap (Step.registered? unit)

def starts (unit : UnitRef) (steps : List Step) : List Check := steps.filterMap (Step.started? unit)

namespace CompilationUnit

theorem add_check_own (u : CompilationUnit) (check : Check) (own : u.sentinel = false) :
    u.addCheck check = { u with checks := u.checks ++ [check] } := by
  rw [addCheck, own]
  rfl

structure Passes (unit : UnitRef) (u : CompilationUnit) (steps : List Step) (v : CompilationUnit) : Prop where
  own : v.sentinel = false
  queue : u.checks ++ registrations unit steps = starts unit steps ++ v.checks

theorem passes_refl (unit : UnitRef) (u : CompilationUnit) (own : u.sentinel = false) : Passes unit u [] u :=
  ⟨own, List.append_nil _⟩

theorem passes_trans {unit : UnitRef} {u v w : CompilationUnit} {earlier later : List Step} (first : Passes unit u earlier v)
    (second : Passes unit v later w) : Passes unit u (earlier ++ later) w := by
  refine ⟨second.own, ?_⟩
  calc u.checks ++ registrations unit (earlier ++ later)
      = (u.checks ++ registrations unit earlier) ++ registrations unit later := by
        rw [registrations, List.filterMap_append, List.append_assoc]
        rfl
    _ = starts unit earlier ++ (v.checks ++ registrations unit later) := by rw [first.queue, List.append_assoc]
    _ = starts unit (earlier ++ later) ++ w.checks := by
        rw [second.queue, starts, starts, starts, List.filterMap_append, List.append_assoc]

theorem passes_still {unit : UnitRef} {u v : CompilationUnit} {step : Step} (own : u.sentinel = false) (keeps : u.Keeps v)
    (unregistered : step.registered? unit = none) (unstarted : step.started? unit = none) : Passes unit u [step] v := by
  refine ⟨by rw [keeps.sentinel, own], ?_⟩
  rw [registrations, starts, List.filterMap_cons_none unregistered, List.filterMap_cons_none unstarted, keeps.checks]
  exact List.append_nil _

theorem step_passes (unit : UnitRef) (u : CompilationUnit) (empty : NodeRef) (step : Step) (own : u.sentinel = false)
    (first : ∀ check, step = .startCheck unit check → u.checks.head? = some check) :
    Passes unit u [step] (u.step unit empty step) := by
  obtain ⟨request, rfl, named, changed⟩ | ⟨check, rfl, dropped⟩ | ⟨unnamed, elsewhere, same⟩ :=
    step_cases unit empty u step
  · rw [changed]
    by_cases adds : ∃ of check, request = .addCheck of check
    · obtain ⟨of, check, rfl⟩ := adds
      cases named
      rw [change, add_check_own u check own]
      exact ⟨own, by simp [registrations, starts, Step.registered?, Step.started?]⟩
    · have keeps := changed_keeps (change_changed u empty request) fun of check same => adds ⟨of, check, same⟩
      refine passes_still own keeps (Step.registered_none fun check same => adds ⟨unit, check, ?_⟩) rfl
      exact Step.request.inj same
  · obtain ⟨rest, queued⟩ := List.head?_eq_some_iff.mp (first check rfl)
    rw [dropped]
    exact ⟨own, by simp [registrations, starts, Step.registered?, Step.started?, dropCheck, queued]⟩
  · rw [same]
    have unregistered : step.registered? unit = none := Step.registered_none fun check asked => unnamed _ asked rfl
    exact passes_still own ⟨rfl, rfl, rfl, rfl⟩ unregistered (Step.started_none elsewhere)

end CompilationUnit

namespace State

theorem walk_passes {bars : Drive → RunRef → Prop} {s t : State} {steps : List Step} (unit : UnitRef)
    (own : (s.unit unit).sentinel = false) (walk : s.Walk bars steps t) : (s.unit unit).Passes unit steps (t.unit unit) := by
  have start := CompilationUnit.passes_refl unit (s.unit unit) own
  refine unit_walk ((s.unit unit).Passes unit) (there_of_own s unit own) start ?_ walk
  intro steps u empty step before first
  exact CompilationUnit.passes_trans before (CompilationUnit.step_passes unit u empty step before.own first)

end State

namespace Session

open State (nobody)

variable {Data : Type}

-- What becomes of a queue when its checks are run, over the way `call` to run a routine. The first check is started
-- and the rest is looked at when its routine is over, so what it registers or starts itself is seen. A check that throws
-- has left the queue, and nothing behind it is lost.
structure WorksOff (call : Program Data → Exec Data Unit) (unit : UnitRef) (s : Session Data) : Prop where
  idle : ∀ fuel, (s.state.unit unit).checks = [] → runChecks call (fuel + 1) unit s = .ok () s
  next : ∀ fuel check rest, (s.state.unit unit).checks = check :: rest →
    runChecks call (fuel + 1) unit s =
      (call (s.routines.get check.routine (.check unit)) >>= fun _ => drain call unit fuel 1 >>= fun ran =>
        update (·.logChecks unit ran)) (s.startCheck unit check)
  returns : ∀ fuel t, runChecks call fuel unit s = .ok () t → (t.state.unit unit).checks = []
  throws : ∀ fuel fault t, runChecks call fuel unit s = .error (.fault fault) t → ∃ (m : Session Data) (check : Check)
    (rest : List Check) (later : List Step), s.state.Walks nobody m.state ∧ (m.state.unit unit).checks = check :: rest ∧
      call (m.routines.get check.routine (.check unit)) (m.startCheck unit check) = .error (.fault fault) t ∧
      (m.startCheck unit check).state.Walk nobody later t.state ∧
      rest ++ registrations unit later = starts unit later ++ (t.state.unit unit).checks

theorem run_checks_idle (call : Program Data → Exec Data Unit) (unit : UnitRef) (s : Session Data) (fuel : Nat)
    (queue : (s.state.unit unit).checks = []) : runChecks call (fuel + 1) unit s = .ok () s := by
  have none := drain_nil call unit fuel 0 s queue
  change EStateM.bind _ _ s = _
  unfold EStateM.bind
  rw [none]
  rfl

theorem run_checks_next (call : Program Data → Exec Data Unit) (unit : UnitRef) (s : Session Data) (fuel : Nat)
    (check : Check) (rest : List Check) (queue : (s.state.unit unit).checks = check :: rest) :
    runChecks call (fuel + 1) unit s =
      (call (s.routines.get check.routine (.check unit)) >>= fun _ => drain call unit fuel 1 >>= fun ran =>
        update (·.logChecks unit ran)) (s.startCheck unit check) := by
  have first := drain_cons call unit fuel 0 s check rest queue
  rw [← bind_assoc]
  change EStateM.bind _ _ s = EStateM.bind _ _ (s.startCheck unit check)
  unfold EStateM.bind
  rw [first]

theorem works_off (call : Program Data → Exec Data Unit) (walking : ∀ program, Walking (call program)) (unit : UnitRef)
    (s : Session Data) (own : (s.state.unit unit).sentinel = false) : WorksOff call unit s := by
  refine ⟨run_checks_idle call unit s, run_checks_next call unit s, fun fuel t => run_checks_empties call fuel unit s t,
    fun fuel fault t stopped => ?_⟩
  obtain ⟨m, check, rest, reached, queued, thrown⟩ := run_checks_error call walking fuel unit s t fault stopped
  have started : s.state.Walks nobody (m.startCheck unit check).state :=
    State.walks_trans reached (start_check_walks m unit check rest queued)
  obtain ⟨earlier, before⟩ := started
  obtain ⟨later, after⟩ := walks_of_error (walking _) thrown
  have passed := State.walk_passes unit (State.walk_passes unit own before).own after
  have queue := passed.queue
  rw [start_check_queue m unit check rest queued] at queue
  exact ⟨m, check, rest, later, reached, queued, thrown, after, queue⟩

theorem add_check_appends (unit : UnitRef) (given : Option Check) (fuel : Nat) (s : Session Data)
    (own : (s.state.unit unit).sentinel = false) :
    ∃ t, exec (fuel + 2) (Action.addCheck unit given).toProgram s = .ok () t ∧
      (t.state.unit unit).checks = (s.state.unit unit).checks ++ given.toList := by
  cases given with
  | none => exact ⟨s, rfl, (List.append_nil _).symm⟩
  | some check =>
      refine ⟨{ s with state := s.state.addCheck unit check }, rfl, ?_⟩
      rw [State.unit_add_check (State.there_of_own s.state unit own), if_pos rfl,
        CompilationUnit.add_check_own _ check own]
      rfl

-- The law of the queue holds from the moment when a unit is new, along every walk. Programs only walk, and running checks
-- is written over them, so it holds whatever nests.
theorem checks_run_in_order (Data : Type) (unit : UnitRef) (s : State) (own : (s.unit unit).sentinel = false)
    (new : (s.unit unit).checks = []) :
    (∀ steps m, s.Walk nobody steps m → registrations unit steps = starts unit steps ++ (m.unit unit).checks) ∧
    (∀ limit (program : Program Data), Walking (exec limit program)) ∧
    ∀ x : Session Data, s.Walks nobody x.state →
      (∀ given fuel, ∃ t, exec (fuel + 2) (Action.addCheck unit given).toProgram x = .ok () t ∧
        (t.state.unit unit).checks = (x.state.unit unit).checks ++ given.toList) ∧
      ∀ call : Program Data → Exec Data Unit, (∀ program, Walking (call program)) → WorksOff call unit x := by
  refine ⟨fun steps m walk => ?_, walking_exec, fun x walks => ?_⟩
  · have queue := (State.walk_passes unit own walk).queue
    rwa [new, List.nil_append] at queue
  · obtain ⟨steps, walk⟩ := walks
    have there := (State.walk_passes unit own walk).own
    exact ⟨fun given fuel => add_check_appends unit given fuel x there,
      fun call walking => works_off call walking unit x there⟩

def firstCheck : Check := ⟨"first", 0⟩

def secondCheck : Check := ⟨"second", 1⟩

def thirdCheck : Check := ⟨"third", 1⟩

def failing : Cause → Program Unit
  | .check unit => .act (.addCheck unit thirdCheck) fun _ => .raise (.raised .runtime "failed")
  | _ => .done

def newUnit : Session Unit := ready [.addUnit (some sourceA) 0] [failing, fun _ => .done]

def twoChecks : Session Unit :=
  { newUnit with
    state := (newUnit.state.take (.request (.addCheck 1 firstCheck))).take (.request (.addCheck 1 secondCheck)) }

def firstRun : List Step :=
  [.request (.addCheck 1 firstCheck), .request (.addCheck 1 secondCheck), .startCheck 1 firstCheck,
    .request (.addCheck 1 thirdCheck)]

theorem checks_left_by_failure :
    let failed := ending (runChecks (exec 9) 9 1 twoChecks)
    let resumed := ending (runChecks (exec 9) 9 1 failed)
    newUnit.state.Walk nobody firstRun failed.state ∧ starts 1 firstRun = [firstCheck] ∧
      (failed.state.unit 1).checks = [secondCheck, thirdCheck] ∧
      checksStarted 1 (failed.state.since resumed.state) = [secondCheck, thirdCheck] ∧ (resumed.state.unit 1).checks = [] := by
  intro failed resumed
  obtain ⟨moments, walking, sessions⟩ := checks_run_in_order Unit 1 newUnit.state (by decide +kernel) (by decide +kernel)
  have registered : newUnit.state.Walk nobody [.request (.addCheck 1 firstCheck)] _ :=
    .next .start (.request (.addCheck 1 firstCheck)) trivial
  have queued : newUnit.state.Walk nobody _ twoChecks.state := .next registered (.request (.addCheck 1 secondCheck)) trivial
  have allowed : twoChecks.state.Allows nobody (.startCheck 1 firstCheck) := by
    change (twoChecks.state.unit 1).checks.head? = some firstCheck
    decide +kernel
  have started := State.Walk.next queued (.startCheck 1 firstCheck) allowed
  have reached : newUnit.state.Walk nobody firstRun failed.state :=
    .next started (.request (.addCheck 1 thirdCheck)) trivial
  have queue := moments firstRun failed.state reached
  have all : registrations 1 firstRun = [firstCheck, secondCheck, thirdCheck] := by decide
  have begun : starts 1 firstRun = [firstCheck] := by decide
  rw [all, begun] at queue
  have resuming := (sessions failed ⟨_, reached⟩).2 (exec 9) (walking 9)
  have finished : value? (runChecks (exec 9) 9 1 failed) = some () := by decide +kernel
  exact ⟨reached, begun, (List.cons.inj queue).2.symm, by decide +kernel, resuming.returns 9 _ (eq_ok_of_value finished)⟩

end Session

end UnitRegistry
