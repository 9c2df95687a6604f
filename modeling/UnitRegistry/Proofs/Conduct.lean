import UnitRegistry.Proofs.Walk
import UnitRegistry.Session
/-!
Programs as walks. A program can spare a run, that is never run its phases, neither itself nor in a routine it defines;
then no step it takes, in callbacks of callbacks or otherwise, drives that run.
-/
set_option autoImplicit false

namespace UnitRegistry

open State (Drive)

variable {Data α β : Type} {bars : Drive → RunRef → Prop}

def Program.Spares (run : RunRef) : Program Data → Prop
  | .done => True
  | .raise _ => True
  | .attempt body next => body.Spares run ∧ ∀ caught, (next caught).Spares run
  | .own _ next => ∀ data, (next data).Spares run
  | .look next => ∀ s, (next s).Spares run
  | .act _ next => ∀ reply, (next reply).Spares run
  | .define body next => (∀ cause, (body cause).Spares run) ∧ ∀ ref, (next ref).Spares run
  | .incomplete _ _ next => next.Spares run
  | .runChecks _ next => next.Spares run
  | .runPhases driven _ next => driven ≠ run ∧ ∀ complete, (next complete).Spares run

def Program.Respects (bars : Drive → RunRef → Prop) (program : Program Data) : Prop :=
  ∀ drive run, bars drive run → program.Spares run

theorem Program.respects_nobody (program : Program Data) : program.Respects State.nobody :=
  fun _ _ barred => barred.elim

namespace Session

def Spares (run : RunRef) (s : Session Data) : Prop := ∀ ref cause, (s.routines.get ref cause).Spares run

def Respects (bars : Drive → RunRef → Prop) (s : Session Data) : Prop := ∀ drive run, bars drive run → s.Spares run

theorem spares_push (run : RunRef) (s : Session Data) (body : Cause → Program Data) (spares : s.Spares run)
    (sparing : ∀ cause, (body cause).Spares run) :
    ({ s with routines := s.routines.push body } : Session Data).Spares run := by
  intro ref cause
  by_cases new : ref = s.routines.size
  · subst new
    rw [Store.get_push_self]
    exact sparing cause
  · rw [Store.get_push_of_ne _ _ _ new]
    exact spares ref cause

def ready (requests : List Request) (bodies : List (Cause → Program Unit)) : Session Unit :=
  { state := requests.foldl (fun s request => ending (s.perform request)) .start
    routines := bodies.foldl Store.push {}
    data := () }

theorem spares_pushed (run : RunRef) (routines : Store (Cause → Program Unit)) (bodies : List (Cause → Program Unit))
    (known : ∀ ref cause, (routines.get ref cause).Spares run)
    (sparing : ∀ body ∈ bodies, ∀ cause, (body cause).Spares run) :
    ∀ ref cause, ((bodies.foldl Store.push routines).get ref cause).Spares run := by
  induction bodies generalizing routines with
  | nil => exact known
  | cons body rest ih =>
      refine ih (routines.push body) ?_ fun other member => sparing other (by simp [member])
      exact spares_push run { routines, data := () } body known (sparing body (by simp))

theorem ready_spares (run : RunRef) (requests : List Request) (bodies : List (Cause → Program Unit))
    (sparing : ∀ body ∈ bodies, ∀ cause, (body cause).Spares run) : (ready requests bodies).Spares run :=
  spares_pushed run {} bodies (fun _ _ => trivial) sparing

theorem respects_nobody (s : Session Data) : s.Respects State.nobody := fun _ _ barred => barred.elim

theorem respects_drives (run : RunRef) (s : Session Data) (spares : s.Spares run) : s.Respects (State.drivesOf run) := by
  rintro drive driven rfl
  exact spares

theorem respects_only (way : Drive) (run : RunRef) (s : Session Data) (spares : s.Spares run) :
    s.Respects (State.only way run) := by
  rintro drive driven ⟨_, rfl⟩
  exact spares

structure Leads (bars : Drive → RunRef → Prop) (s t : Session Data) : Prop where
  walks : s.state.Walks bars t.state
  respects : t.Respects bars

theorem Leads.moves {s t : Session Data} (leads : s.Leads bars t) : s.state.Moves bars t.state :=
  State.moves_of_walks leads.walks

theorem leads_refl (s : Session Data) (respects : s.Respects bars) : s.Leads bars s := ⟨State.walks_refl s.state, respects⟩

theorem leads_trans {s t u : Session Data} (first : s.Leads bars t) (second : t.Leads bars u) :
    s.Leads bars u :=
  ⟨State.walks_trans first.walks second.walks, second.respects⟩

def Keeps (bars : Drive → RunRef → Prop) (x : Exec Data α) : Prop :=
  ∀ s : Session Data, s.Respects bars → s.Leads bars (ending (x s))

theorem leads_of_ok {x : Exec Data α} (keeps : Keeps bars x) {s t : Session Data} {value : α} (respects : s.Respects bars)
    (ran : x s = .ok value t) : s.Leads bars t := by
  have leads := keeps s respects
  rwa [ran, ending_ok] at leads

theorem leads_of_error {x : Exec Data α} (keeps : Keeps bars x) {s t : Session Data} {stop : Stop}
    (respects : s.Respects bars) (stopped : x s = .error stop t) : s.Leads bars t := by
  have leads := keeps s respects
  rwa [stopped, ending_error] at leads

def Walking (x : Exec Data α) : Prop := ∀ s : Session Data, s.state.Walks State.nobody (ending (x s)).state

theorem walking_of_keeps {x : Exec Data α} (keeps : Keeps State.nobody x) : Walking x := by
  intro s
  exact (keeps s (respects_nobody s)).walks

theorem walks_of_ok {x : Exec Data α} (walking : Walking x) {s t : Session Data} {value : α} (ran : x s = .ok value t) :
    s.state.Walks State.nobody t.state := by
  have walks := walking s
  rwa [ran, ending_ok] at walks

theorem walks_of_error {x : Exec Data α} (walking : Walking x) {s t : Session Data} {stop : Stop}
    (stopped : x s = .error stop t) : s.state.Walks State.nobody t.state := by
  have walks := walking s
  rwa [stopped, ending_error] at walks

theorem moves_of_ok {x : Exec Data α} (keeps : Keeps State.nobody x) {s t : Session Data} {value : α}
    (ran : x s = .ok value t) : s.state.Moves State.nobody t.state :=
  State.moves_of_walks (walks_of_ok (walking_of_keeps keeps) ran)

theorem moves_of_error {x : Exec Data α} (keeps : Keeps State.nobody x) {s t : Session Data} {stop : Stop}
    (stopped : x s = .error stop t) : s.state.Moves State.nobody t.state :=
  State.moves_of_walks (walks_of_error (walking_of_keeps keeps) stopped)

theorem keeps_pure (value : α) : Keeps bars (pure value : Exec Data α) := leads_refl

theorem keeps_throw (stop : Stop) : Keeps bars (throw stop : Exec Data α) := leads_refl

theorem ending_attempt (x : Exec Data Unit) (s : Session Data) : ending (attempt x s) = ending (x s) := by
  unfold attempt
  cases x s with
  | ok value t => rfl
  | error stop t => cases stop <;> rfl

theorem keeps_attempt (x : Exec Data Unit) (keeps : Keeps bars x) : Keeps bars (attempt x) := by
  intro s respects
  rw [ending_attempt]
  exact keeps s respects

theorem keeps_current : Keeps bars (current : Exec Data State) := leads_refl

theorem keeps_own (change : Data → Data) : Keeps bars (own change) := fun s respects => ⟨State.walks_refl s.state, respects⟩

theorem keeps_update (f : State → State) (step : ∀ s, State.Walks bars s (f s)) :
    Keeps bars (update f : Exec Data Unit) :=
  fun s respects => ⟨step s.state, respects⟩

theorem keeps_bind (x : Exec Data α) (f : α → Exec Data β) (first : Keeps bars x)
    (second : ∀ value, Keeps bars (f value)) : Keeps bars (x >>= f) := by
  intro s respects
  have reached := first s respects
  change s.Leads bars (ending (EStateM.bind x f s))
  unfold EStateM.bind
  cases result : x s with
  | error stop t => simpa [result] using reached
  | ok value t =>
      rw [result] at reached
      exact leads_trans reached (second value t reached.respects)

-- What a routine does is known of the session only, so it is passed on to the rest.
theorem keeps_routine (ref : RoutineRef) (f : (Cause → Program Data) → Exec Data β)
    (rest : ∀ body, (∀ cause, (body cause).Respects bars) → Keeps bars (f body)) :
    Keeps bars (routine ref >>= f) :=
  fun s respects => rest _ (fun cause drive run barred => respects drive run barred ref cause) s respects

theorem keeps_define (body : Cause → Program Data) (sparing : ∀ cause, (body cause).Respects bars) :
    Keeps bars (define body) :=
  fun s respects => ⟨State.walks_refl s.state, fun drive run barred =>
    spares_push run s body (respects drive run barred) fun cause => sparing cause drive run barred⟩

theorem keeps_perform (request : Request) : Keeps bars (perform request : Exec Data request.Reply) := by
  intro s respects
  cases s with
  | mk state routines data =>
      have walks : State.Walks bars state _ := State.step_walks state (.request request) trivial
      simp only [State.take] at walks
      cases result : state.perform request with
      | ok reply after =>
          rw [result, ending_ok] at walks
          simp only [perform, result, ending_ok]
          exact ⟨walks, respects⟩
      | error fault after =>
          rw [result, ending_error] at walks
          simp only [perform, result, ending_error]
          exact ⟨walks, respects⟩

theorem keeps_for (f : α → Exec Data PUnit) (items : List α) (step : ∀ item ∈ items, Keeps bars (f item)) :
    Keeps bars (items.forM f) := by
  induction items with
  | nil => exact keeps_pure ()
  | cons item rest ih =>
      exact keeps_bind _ _ (step item (by simp)) fun _ => ih fun other member => step other (by simp [member])

def startCheck (s : Session Data) (unit : UnitRef) (check : Check) : Session Data :=
  { s with state := (s.state.modifyUnit unit CompilationUnit.dropCheck).emit (.checkStarted unit check) }

theorem start_check_walks (s : Session Data) (unit : UnitRef) (check : Check) (rest : List Check)
    (queue : (s.state.unit unit).checks = check :: rest) : s.state.Walks bars (s.startCheck unit check).state :=
  State.step_walks s.state (.startCheck unit check) (by rw [State.Allows, queue, List.head?_cons])

theorem drain_nil (call : Program Data → Exec Data Unit) (unit : UnitRef) (fuel ran : Nat) (s : Session Data)
    (queue : (s.state.unit unit).checks = []) : drain call unit (fuel + 1) ran s = .ok ran s := by
  simp [drain, bind, EStateM.bind, current, queue, pure, EStateM.pure]

theorem drain_cons (call : Program Data → Exec Data Unit) (unit : UnitRef) (fuel ran : Nat) (s : Session Data)
    (check : Check) (rest : List Check) (queue : (s.state.unit unit).checks = check :: rest) :
    drain call unit (fuel + 1) ran s =
      (call (s.routines.get check.routine (.check unit)) >>= fun _ => drain call unit fuel (ran + 1))
        (s.startCheck unit check) := by
  simp [drain, bind, EStateM.bind, current, queue, routine, update, startCheck]

variable {call : Program Data → Exec Data Unit}
  (keepsCall : ∀ program : Program Data, program.Respects bars → Keeps bars (call program))
include keepsCall

theorem keeps_incomplete (reporter : ReporterRef) (remark : Remark) :
    Keeps bars (incomplete call reporter remark) := by
  refine keeps_bind _ _ keeps_current fun s => ?_
  cases (s.reporter reporter).handler with
  | none => exact keeps_update _ fun s => State.step_walks s (.request (.report reporter .error remark)) trivial
  | some handler =>
      refine keeps_routine _ _ fun body sparing => ?_
      have starting (s : State) : s.Walks bars (s.emit (.handlerStarted reporter handler remark)) :=
        State.step_walks s (.startHandler reporter handler remark) trivial
      refine keeps_bind _ _ (keeps_update _ starting) fun _ => ?_
      exact keepsCall _ (sparing _)

theorem keeps_drain (unit : UnitRef) (fuel ran : Nat) : Keeps bars (drain call unit fuel ran) := by
  induction fuel generalizing ran with
  | zero => exact keeps_throw _
  | succ fuel ih =>
      intro s respects
      cases queue : (s.state.unit unit).checks with
      | nil =>
          rw [drain_nil call unit fuel ran s queue]
          exact leads_refl s respects
      | cons check rest =>
          rw [drain_cons call unit fuel ran s check rest queue]
          have started : s.Leads bars (s.startCheck unit check) := ⟨start_check_walks s unit check rest queue, respects⟩
          have sparing : (s.routines.get check.routine (.check unit)).Respects bars :=
            fun drive run barred => respects drive run barred _ _
          exact leads_trans started (keeps_bind _ _ (keepsCall _ sparing) (fun _ => ih (ran + 1)) _ respects)

theorem keeps_run_checks (fuel : Nat) (unit : UnitRef) : Keeps bars (runChecks call fuel unit) :=
  keeps_bind _ _ (keeps_drain keepsCall unit fuel 0) fun ran =>
    keeps_update _ fun s => State.log_checks_walks s unit ran

theorem keeps_run_phase_on (run : RunRef) (free : ¬ bars .phase run) (phase : Phase) (unit : UnitRef) :
    Keeps bars (runPhaseOn call run phase unit) := by
  refine keeps_routine _ _ fun body sparing => ?_
  refine keeps_bind _ _ (keeps_update _ fun s => State.step_walks s (.startPhase run phase unit) free) fun _ => ?_
  exact keepsCall _ (sparing _)

theorem keeps_apply_phase (run : RunRef) (free : ¬ bars .phase run) (units : List UnitRef) (phase : Phase) :
    Keeps bars (applyPhase call run units phase) :=
  keeps_bind _ _ (keeps_update _ fun s => State.trace_walks s _ _ _) fun _ =>
    keeps_for _ units fun unit _ => keeps_run_phase_on keepsCall run free phase unit

theorem keeps_visit (run : RunRef) (free : ¬ bars .phase run) (units : List UnitRef) (phases : List (Option Phase)) :
    Keeps bars (visit call run units phases) := by
  induction phases with
  | nil => exact keeps_pure true
  | cons given rest ih =>
      cases given with
      | none => exact ih
      | some phase =>
          refine keeps_bind _ _ keeps_current fun s => ?_
          split
          · exact keeps_bind _ _ (keeps_update _ fun s => State.trace_walks s _ _ _) fun _ => keeps_pure false
          · exact keeps_bind _ _ (keeps_apply_phase keepsCall run free units phase) fun _ => ih

theorem keeps_finish (fuel : Nat) (run : RunRef) (free : ¬ bars .completion run) (units : List UnitRef) (visited : Bool) :
    Keeps bars (finish call fuel run units visited) := by
  refine keeps_bind _ _ keeps_current fun s => ?_
  split
  · refine keeps_bind _ _ (keeps_for _ units fun unit _ => keeps_run_checks keepsCall fuel unit) fun _ => ?_
    exact keeps_update _ fun s => State.step_walks s (.completeRun run units) free
  · exact keeps_pure ()

theorem keeps_run_units (fuel : Nat) (run : RunRef) (free : ∀ drive, ¬ bars drive run) (phases : List (Option Phase)) :
    Keeps bars (runUnits call fuel run phases) := by
  refine keeps_bind _ _ (keeps_update _ fun s => State.step_walks s (.openRun run) (free _)) fun _ => ?_
  refine keeps_bind _ _ keeps_current fun s => ?_
  exact keeps_bind _ _ (keeps_visit keepsCall run (free _) _ phases) fun visited =>
    keeps_finish keepsCall fuel run (free _) _ visited

omit keepsCall in
theorem keeps_conclude (run : RunRef) : Keeps bars (conclude run : Exec Data Bool) := by
  refine keeps_bind _ _ (keeps_update _ fun s => State.summarize_warnings_walks s _) fun _ => ?_
  refine keeps_bind _ _ (keeps_update _ fun s => State.trace_walks s _ _ _) fun _ => ?_
  exact keeps_bind _ _ keeps_current fun s => keeps_pure _

theorem keeps_run_phases (fuel : Nat) (run : RunRef) (free : ∀ drive, ¬ bars drive run) (phases : List (Option Phase)) :
    Keeps bars (runPhases call fuel run phases) :=
  keeps_bind _ _ (keeps_run_units keepsCall fuel run free phases) fun _ => keeps_conclude run

omit keepsCall in
-- Each callback gets less fuel than what calls it, so the induction is on the fuel and not on the program.
theorem keeps_exec (fuel : Nat) (program : Program Data) (sparing : program.Respects bars) :
    Keeps bars (exec fuel program) := by
  induction fuel generalizing program with
  | zero => exact keeps_throw _
  | succ fuel ih =>
      cases program with
      | done => exact keeps_pure ()
      | raise fault => exact keeps_throw _
      | attempt body next =>
          have attempted := keeps_attempt _ (ih body fun drive run barred => (sparing drive run barred).1)
          exact keeps_bind _ _ attempted fun caught => ih _ fun drive run barred => (sparing drive run barred).2 caught
      | own change next =>
          exact keeps_bind _ _ (keeps_own change) fun data => ih _ fun drive run barred => sparing drive run barred data
      | look next =>
          exact keeps_bind _ _ keeps_current fun s => ih _ fun drive run barred => sparing drive run barred s
      | act request next =>
          exact keeps_bind _ _ (keeps_perform request) fun reply =>
            ih _ fun drive run barred => sparing drive run barred reply
      | define body next =>
          have sparingBody (cause : Cause) : (body cause).Respects bars :=
            fun drive run barred => (sparing drive run barred).1 cause
          exact keeps_bind _ _ (keeps_define body sparingBody) fun ref =>
            ih _ fun drive run barred => (sparing drive run barred).2 ref
      | incomplete reporter remark next =>
          exact keeps_bind _ _ (keeps_incomplete ih reporter remark) fun _ => ih _ sparing
      | runChecks unit next => exact keeps_bind _ _ (keeps_run_checks ih fuel unit) fun _ => ih _ sparing
      | runPhases driven phases next =>
          have free (drive : Drive) : ¬ bars drive driven := fun barred => (sparing drive driven barred).1 rfl
          exact keeps_bind _ _ (keeps_run_phases ih fuel driven free phases) fun complete =>
            ih _ fun drive run barred => (sparing drive run barred).2 complete

omit keepsCall in
theorem walking_exec (limit : Nat) (program : Program Data) : Walking (exec limit program) :=
  walking_of_keeps (keeps_exec limit program program.respects_nobody)

end Session

end UnitRegistry
