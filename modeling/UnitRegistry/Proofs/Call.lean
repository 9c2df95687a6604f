import UnitRegistry.Proofs.Reporting

set_option autoImplicit false

namespace UnitRegistry

namespace Session

variable {Data α β : Type}

theorem bind_ok (x : Exec Data α) (f : α → Exec Data β) (s t : Session Data) (value : β) :
    (x >>= f) s = .ok value t ↔ ∃ first middle, x s = .ok first middle ∧ f first middle = .ok value t := by
  change EStateM.bind x f s = .ok value t ↔ _
  unfold EStateM.bind
  cases result : x s with
  | error stop middle => simp
  | ok first middle =>
      constructor
      · intro rest
        exact ⟨first, middle, rfl, rest⟩
      · rintro ⟨_, _, same, rest⟩
        cases same
        exact rest

theorem bind_error (x : Exec Data α) (f : α → Exec Data β) (s t : Session Data) (stop : Stop) :
    (x >>= f) s = .error stop t ↔
      x s = .error stop t ∨ ∃ first middle, x s = .ok first middle ∧ f first middle = .error stop t := by
  change EStateM.bind x f s = .error stop t ↔ _
  unfold EStateM.bind
  cases result : x s with
  | error stopped middle => simp
  | ok first middle =>
      constructor
      · intro rest
        exact .inr ⟨first, middle, rfl, rest⟩
      · rintro (none | ⟨_, _, same, rest⟩)
        · cases none
        · cases same
          exact rest

theorem for_nil (f : α → Exec Data PUnit) (s t : Session Data) : ([] : List α).forM f s = .ok () t ↔ t = s := by
  change (EStateM.Result.ok PUnit.unit s = .ok PUnit.unit t) ↔ _
  simp [eq_comm]

theorem for_cons (f : α → Exec Data PUnit) (item : α) (rest : List α) (s t : Session Data) :
    (item :: rest).forM f s = .ok () t ↔ ∃ middle, f item s = .ok () middle ∧ rest.forM f middle = .ok () t := by
  change (f item >>= fun _ => rest.forM f) s = .ok () t ↔ _
  rw [bind_ok]
  exact ⟨fun ⟨_, middle, first, later⟩ => ⟨middle, first, later⟩, fun ⟨middle, first, later⟩ => ⟨_, middle, first, later⟩⟩

theorem for_append (f : α → Exec Data PUnit) (earlier later : List α) (s t : Session Data) :
    (earlier ++ later).forM f s = .ok () t ↔
      ∃ middle, earlier.forM f s = .ok () middle ∧ later.forM f middle = .ok () t := by
  induction earlier generalizing s with
  | nil =>
      constructor
      · intro ran
        exact ⟨s, (for_nil f s s).mpr rfl, ran⟩
      · rintro ⟨middle, none, ran⟩
        cases (for_nil f s middle).mp none
        exact ran
  | cons item rest ih =>
      simp only [List.cons_append, for_cons, ih]
      constructor
      · rintro ⟨first, began, middle, before, after⟩
        exact ⟨middle, ⟨first, began, before⟩, after⟩
      · rintro ⟨middle, ⟨first, began, before⟩, after⟩
        exact ⟨first, began, middle, before, after⟩

def opened (run : RunRef) (s : Session Data) : Session Data :=
  { s with state := s.state.modifyRun run (·.setComplete false) }

def stoppedBefore (run : RunRef) (phase : Phase) (s : Session Data) : Session Data :=
  { s with state := s.state.logStop run phase }

def completed (run : RunRef) (units : List UnitRef) (s : Session Data) : Session Data :=
  { s with state := s.state.completeRun run units }

def concluded (run : RunRef) (s : Session Data) : Session Data :=
  { s with state := (s.state.summarizeWarnings (s.state.run run).context).logEnd run }

theorem pending_units_opened (run : RunRef) (s : Session Data) :
    (s.opened run).state.pendingUnits run = s.state.pendingUnits run := by
  have registry := State.set_complete_registry s.state run run false
  have compiled := State.set_complete_compiled s.state run run false
  simp only [opened, State.pendingUnits, Run.units, Run.isCompiled, registry, compiled]
  rfl

theorem conclude_eq (run : RunRef) (s : Session Data) :
    conclude run s = .ok ((s.concluded run).state.run run).complete (s.concluded run) := by
  simp only [conclude, bind, EStateM.bind, update, current, pure, EStateM.pure, concluded]

theorem concluded_reports (run : RunRef) (s : Session Data) : s.state.Reports (s.concluded run).state := by
  have summary := State.summarize_warnings_reports s.state (s.state.run run).context
  have logged := State.log_end_outputs (s.state.summarizeWarnings (s.state.run run).context) run
  simp only [concluded]
  exact State.reports_trans summary (State.outputs_reports logged)

-- By rewriting, since a comparison by computation would go into what is logged.
theorem concluded_routines (run : RunRef) (s : Session Data) : (s.concluded run).routines = s.routines := by
  simp only [concluded]

theorem stopped_reports (run : RunRef) (phase : Phase) (s : Session Data) :
    s.state.Reports (s.stoppedBefore run phase).state :=
  State.outputs_reports (State.log_stop_outputs s.state run phase)

theorem concluded_run (run other : RunRef) (s : Session Data) : (s.concluded run).state.run other = s.state.run other := by
  have kept := (concluded_reports run s).runs
  simp only [State.run, kept]

section Parts

variable {call : Program Data → Exec Data Unit} {run : RunRef} {units : List UnitRef}

-- The answer of a call is the flag as its checks left it, since the summary does not touch the run.
theorem run_phases_ok (fuel : Nat) (phases : List (Option Phase)) (s t : Session Data) (returned : Bool) :
    runPhases call fuel run phases s = .ok returned t ↔
      ∃ settled, runUnits call fuel run phases s = .ok () settled ∧ t = settled.concluded run ∧
        returned = (settled.state.run run).complete := by
  change (runUnits call fuel run phases >>= fun _ => conclude run) s = _ ↔ _
  rw [bind_ok]
  constructor
  · rintro ⟨_, settled, ran, concludes⟩
    rw [conclude_eq, concluded_run] at concludes
    cases concludes
    exact ⟨settled, ran, rfl, rfl⟩
  · rintro ⟨settled, ran, rfl, rfl⟩
    exact ⟨_, settled, ran, by rw [conclude_eq, concluded_run]⟩

theorem run_units_ok (fuel : Nat) (phases : List (Option Phase)) (s settled : Session Data) :
    runUnits call fuel run phases s = .ok () settled ↔
      ∃ began visited, visit call run (s.state.pendingUnits run) phases (s.opened run) = .ok began visited ∧
        finish call fuel run (s.state.pendingUnits run) began visited = .ok () settled := by
  change (visit call run ((s.opened run).state.pendingUnits run) phases >>=
    finish call fuel run ((s.opened run).state.pendingUnits run)) (s.opened run) = _ ↔ _
  rw [bind_ok, pending_units_opened]

theorem finish_eq_checks (fuel : Nat) (visited : Session Data) (clear : visited.state.runHasErrors run = false) :
    finish call fuel run units true visited =
      (units.forM (runChecks call fuel) >>= fun _ => update (·.completeRun run units)) visited := by
  simp [finish, bind, EStateM.bind, current, clear]

theorem finish_checks (fuel : Nat) (visited settled : Session Data) (clear : visited.state.runHasErrors run = false) :
    finish call fuel run units true visited = .ok () settled ↔
      ∃ drained, units.forM (runChecks call fuel) visited = .ok () drained ∧ settled = drained.completed run units := by
  rw [finish_eq_checks fuel visited clear, bind_ok]
  constructor
  · rintro ⟨_, drained, ran, done⟩
    cases done
    exact ⟨drained, ran, rfl⟩
  · rintro ⟨drained, ran, rfl⟩
    exact ⟨_, drained, ran, rfl⟩

theorem finish_error (fuel : Nat) (began : Bool) (visited t : Session Data) (stop : Stop)
    (stopped : finish call fuel run units began visited = .error stop t) :
    began = true ∧ visited.state.runErrors run = 0 ∧ units.forM (runChecks call fuel) visited = .error stop t := by
  cases began with
  | false => cases stopped
  | true =>
      cases errors : visited.state.runHasErrors run with
      | true => simp [finish, bind, EStateM.bind, current, errors, pure, EStateM.pure] at stopped
      | false =>
          rw [finish_eq_checks fuel visited errors, bind_error] at stopped
          rcases stopped with inside | ⟨_, drained, _, none⟩
          · exact ⟨rfl, (State.run_has_no_errors_iff visited.state run).mp errors, inside⟩
          · cases none

theorem finish_skips (fuel : Nat) (began : Bool) (visited : Session Data)
    (skips : began = false ∨ visited.state.runHasErrors run = true) :
    finish call fuel run units began visited = .ok () visited := by
  rcases skips with rfl | errors
  · rfl
  · cases began with
    | false => rfl
    | true => simp [finish, bind, EStateM.bind, current, errors, pure, EStateM.pure]

theorem run_phases_error (fuel : Nat) (phases : List (Option Phase)) (s t : Session Data) (stop : Stop)
    (stopped : runPhases call fuel run phases s = .error stop t) :
    visit call run (s.state.pendingUnits run) phases (s.opened run) = .error stop t ∨
      ∃ visited, visit call run (s.state.pendingUnits run) phases (s.opened run) = .ok true visited ∧
        visited.state.runErrors run = 0 ∧
        (s.state.pendingUnits run).forM (runChecks call fuel) visited = .error stop t := by
  change (runUnits call fuel run phases >>= fun _ => conclude run) s = _ at stopped
  rcases (bind_error _ _ s t stop).mp stopped with inside | ⟨_, settled, _, concluding⟩
  · change (visit call run ((s.opened run).state.pendingUnits run) phases >>=
      finish call fuel run ((s.opened run).state.pendingUnits run)) (s.opened run) = _ at inside
    rw [pending_units_opened] at inside
    rcases (bind_error _ _ (s.opened run) t stop).mp inside with visits | ⟨began, visited, visits, finishing⟩
    · exact .inl visits
    · obtain ⟨rfl, checks⟩ := finish_error fuel began visited t stop finishing
      exact .inr ⟨visited, visits, checks⟩
  · rw [conclude_eq] at concluding
    cases concluding

structure Began (call : Program Data → Exec Data Unit) (run : RunRef) (units : List UnitRef) (phases : List Phase)
    (count : Nat) (s reached : Session Data) : Prop where
  bound : count ≤ phases.length
  applied : (phases.take count).forM (applyPhase call run units) s = .ok () reached
  clear : ∀ earlier < count, ∃ before,
    (phases.take earlier).forM (applyPhase call run units) s = .ok () before ∧ before.state.runErrors run = 0
  stopped : count < phases.length → reached.state.runErrors run ≠ 0

theorem began_all {phases : List Phase} {s reached : Session Data}
    (began : Began call run units phases phases.length s reached) :
    phases.forM (applyPhase call run units) s = .ok () reached := by
  have applied := began.applied
  rwa [List.take_length] at applied

theorem began_none (phases : List Phase) (s : Session Data)
    (stopped : phases ≠ [] → s.state.runErrors run ≠ 0) : Began call run units phases 0 s s :=
  ⟨Nat.zero_le _, (for_nil _ s s).mpr rfl, fun _ impossible => absurd impossible (Nat.not_lt_zero _), fun more =>
    stopped (List.ne_nil_of_length_pos more)⟩

theorem began_next (phase : Phase) (phases : List Phase) (count : Nat) (s middle reached : Session Data)
    (clear : s.state.runErrors run = 0) (first : applyPhase call run units phase s = .ok () middle)
    (later : Began call run units phases count middle reached) :
    Began call run units (phase :: phases) (count + 1) s reached := by
  refine ⟨Nat.succ_le_succ later.bound, ?_, fun earlier less => ?_, fun more => later.stopped (Nat.lt_of_succ_lt_succ more)⟩
  · rw [List.take_succ_cons, for_cons]
    exact ⟨middle, first, later.applied⟩
  · cases earlier with
    | zero => exact ⟨s, (for_nil _ s s).mpr rfl, clear⟩
    | succ earlier =>
        obtain ⟨before, applied, none⟩ := later.clear earlier (Nat.lt_of_succ_lt_succ less)
        refine ⟨before, ?_, none⟩
        rw [List.take_succ_cons, for_cons]
        exact ⟨middle, first, applied⟩

theorem visit_stops (phase : Phase) (rest : List (Option Phase)) (s : Session Data)
    (errors : s.state.runHasErrors run = true) :
    visit call run units (some phase :: rest) s = .ok false (s.stoppedBefore run phase) := by
  simp [visit, bind, EStateM.bind, current, errors, update, pure, EStateM.pure, stoppedBefore]

theorem visit_goes (phase : Phase) (rest : List (Option Phase)) (s : Session Data)
    (clear : s.state.runHasErrors run = false) : visit call run units (some phase :: rest) s =
      (applyPhase call run units phase >>= fun _ => visit call run units rest) s := by
  simp [visit, bind, EStateM.bind, current, clear]

-- Empty places in the list of phases are passed over without a look at the errors.
theorem visit_began (phases : List (Option Phase)) (s visited : Session Data) (began : Bool)
    (visits : visit call run units phases s = .ok began visited) :
    ∃ count reached, Began call run units (phases.filterMap id) count s reached ∧
      (count = (phases.filterMap id).length ∧ began = true ∧ visited = reached ∨
        count < (phases.filterMap id).length ∧ began = false ∧ ∃ phase, visited = reached.stoppedBefore run phase) := by
  induction phases generalizing s with
  | nil =>
      cases visits
      exact ⟨0, visited, began_none [] visited (fun more => absurd rfl more), .inl ⟨rfl, rfl, rfl⟩⟩
  | cons given rest ih =>
      cases given with
      | none => exact ih s visits
      | some phase =>
          cases errors : s.state.runHasErrors run with
          | true =>
              rw [visit_stops phase rest s errors] at visits
              cases visits
              exact ⟨0, s, began_none _ s (fun _ => (State.run_has_errors_iff s.state run).mp errors), .inr ⟨by simp, rfl, phase, rfl⟩⟩
          | false =>
              rw [visit_goes phase rest s errors, bind_ok] at visits
              obtain ⟨_, middle, first, later⟩ := visits
              obtain ⟨count, reached, begun, ends⟩ := ih middle later
              have clear := (State.run_has_no_errors_iff s.state run).mp errors
              refine ⟨count + 1, reached, began_next phase _ count s middle reached clear first begun, ?_⟩
              rcases ends with ⟨all, ends⟩ | ⟨less, ends⟩
              · exact .inl ⟨by simpa using all, ends⟩
              · exact .inr ⟨by simpa using less, ends⟩

inductive Settled (call : Program Data → Exec Data Unit) (fuel : Nat) (run : RunRef) (units : List UnitRef)
    (phases : List Phase) (count : Nat) (reached settled : Session Data) : Prop where
  | drained (all : count = phases.length) (clear : reached.state.runErrors run = 0) (drained : Session Data)
      (ran : units.forM (runChecks call fuel) reached = .ok () drained) (same : settled = drained.completed run units)
  | skipped (skips : ¬ (count = phases.length ∧ reached.state.runErrors run = 0))
      (same : settled = reached ∨ ∃ phase, settled = reached.stoppedBefore run phase)

theorem run_units_parts (fuel : Nat) (phases : List (Option Phase)) (s settled : Session Data)
    (ran : runUnits call fuel run phases s = .ok () settled) :
    ∃ count reached,
      Began call run (s.state.pendingUnits run) (phases.filterMap id) count (s.opened run) reached ∧
      Settled call fuel run (s.state.pendingUnits run) (phases.filterMap id) count reached settled := by
  obtain ⟨began, visited, visits, finished⟩ := (run_units_ok fuel phases s settled).mp ran
  obtain ⟨count, reached, begun, ends⟩ := visit_began phases (s.opened run) visited began visits
  refine ⟨count, reached, begun, ?_⟩
  rcases ends with ⟨all, rfl, rfl⟩ | ⟨less, rfl, phase, rfl⟩
  · cases errors : visited.state.runHasErrors run with
    | false =>
        obtain ⟨drained, checked, same⟩ := (finish_checks fuel visited settled errors).mp finished
        exact .drained all ((State.run_has_no_errors_iff visited.state run).mp errors) drained checked same
    | true =>
        have some := (State.run_has_errors_iff visited.state run).mp errors
        rw [finish_skips fuel true visited (.inr errors)] at finished
        cases finished
        exact .skipped (fun both => some both.2) (.inl rfl)
  · rw [finish_skips fuel false _ (.inl rfl)] at finished
    cases finished
    exact .skipped (fun both => absurd both.1 (Nat.ne_of_lt less)) (.inr ⟨phase, rfl⟩)

end Parts

end Session

end UnitRegistry
