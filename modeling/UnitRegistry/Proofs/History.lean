import UnitRegistry.Proofs.Completion

set_option autoImplicit false

namespace UnitRegistry

open State (Drive drivesOf only)

variable {Data : Type}

inductive Call (Data : Type) where
  | addSource (source : Option FileRef)
  | runPhases (phases : List (Option Phase))
  | other (program : Program Data)

namespace Call

def Spares (run : RunRef) : Call Data → Prop
  | .other program => program.Spares run
  | _ => True

-- A call that stops leaves behind what it did so far.
def perform (fuel : Nat) (run : RunRef) (s : Session Data) : Call Data → Session Data
  | .addSource source => ending (Session.perform (.addSource run source) s)
  | .runPhases phases => ending (Session.runPhases (Session.exec fuel) fuel run phases s)
  | .other program => ending (Session.exec fuel program s)

def isRunPhases : Call Data → Bool
  | .runPhases _ => true
  | _ => false

end Call

namespace Session

variable {run : RunRef}

def after (fuel : Nat) (run : RunRef) (s : Session Data) (calls : List (Call Data)) : Session Data :=
  calls.foldl (Call.perform fuel run) s

theorem after_append (fuel : Nat) (run : RunRef) (s : Session Data) (earlier later : List (Call Data)) :
    s.after fuel run (earlier ++ later) = (s.after fuel run earlier).after fuel run later :=
  List.foldl_append

theorem other_leads (fuel : Nat) (run : RunRef) (s : Session Data) (call : Call Data) (spares : s.Spares run)
    (sparing : call.Spares run) (other : call.isRunPhases = false) :
    s.Leads (drivesOf run) (call.perform fuel run s) := by
  have respects := respects_drives run s spares
  cases call with
  | addSource source => exact keeps_perform (.addSource run source) s respects
  | runPhases phases => cases other
  | other program =>
      refine keeps_exec fuel program (fun drive driven barred => ?_) s respects
      cases barred
      exact sparing

-- Up to `m` a call that runs phases leaves the flag alone. Then it compiles the units that were pending when it was
-- opened, or nothing at all.
structure Outcome (run : RunRef) (s m t : Session Data) : Prop where
  leads : (s.opened run).Leads (only .completion run) m
  routines : t.routines = m.routines
  units : t.state.units = m.state.units
  run : t.state.run run = m.state.run run ∨
    t.state.run run = ((m.state.run run).setComplete true).markCompiled (s.state.pendingUnits run)

theorem keeps_visiting (fuel : Nat) (run : RunRef) (units : List UnitRef) (phases : List (Option Phase)) :
    Keeps (only .completion run) (visit (exec fuel) run units phases : Exec Data Bool) :=
  keeps_visit (keeps_exec fuel) run (fun barred => nomatch barred.1) units phases

theorem completed_run (units : List UnitRef) (drained : Session Data)
    (incomplete : (drained.state.run run).complete = false) :
    (drained.completed run units).state.run run = drained.state.run run ∨
      (drained.completed run units).state.run run = ((drained.state.run run).setComplete true).markCompiled units := by
  cases errors : drained.state.runHasErrors run with
  | true =>
      left
      simp only [completed, State.completeRun, errors, if_true]
      rw [State.run_modify]
      split
      · rw [Run.setComplete, ← incomplete]
      · rfl
  | false =>
      simp only [completed, State.completeRun, errors, Bool.false_eq_true, if_false]
      rw [State.run_modify]
      split
      · exact .inr rfl
      · exact .inl rfl

theorem outcome_of_drained (fuel : Nat) (s reached drained : Session Data)
    (leads : (s.opened run).Leads (only .completion run) reached)
    (ran : (s.state.pendingUnits run).forM (runChecks (exec fuel) fuel) reached = .ok () drained) :
    Outcome run s drained ((drained.completed run (s.state.pendingUnits run)).concluded run) := by
  have checks := leads_of_ok (keeps_checks _ fuel _) leads.respects ran
  have whole := leads_trans leads checks
  have reports := concluded_reports run (drained.completed run (s.state.pendingUnits run))
  refine ⟨whole, ?_, ?_, ?_⟩
  · rw [concluded_routines]
    rfl
  · rw [reports.units]
    exact (State.complete_run_units drained.state run (s.state.pendingUnits run)).1
  · rw [concluded_run]
    exact completed_run _ drained (incomplete_of_leads whole (opened_complete run s))

theorem outcome_of_reports (s reached settled : Session Data)
    (leads : (s.opened run).Leads (only .completion run) reached) (routines : settled.routines = reached.routines)
    (reports : reached.state.Reports settled.state) : Outcome run s reached (settled.concluded run) := by
  have concluding := State.reports_trans reports (concluded_reports run settled)
  refine ⟨leads, ?_, concluding.units, .inl ?_⟩
  · rw [concluded_routines, routines]
  · simp only [State.run, concluding.runs]

theorem stopped_leads (fuel : Nat) (run : RunRef) (phases : List (Option Phase)) (s t : Session Data) (stop : Stop)
    (spares : s.Spares run) (stopped : runPhases (exec fuel) fuel run phases s = .error stop t) :
    (s.opened run).Leads (only .completion run) t := by
  have keeps : Keeps (only .completion run) (visit (exec fuel) run (s.state.pendingUnits run) phases : Exec Data Bool) :=
    keeps_visiting fuel run (s.state.pendingUnits run) phases
  have respects := respects_only .completion run (s.opened run) spares
  rcases run_phases_error fuel phases s t stop stopped with visits | ⟨visited, visits, _, checks⟩
  · exact leads_of_error keeps respects visits
  · have visiting := leads_of_ok keeps respects visits
    have checking := leads_of_error (keeps_checks _ fuel _) visiting.respects checks
    exact leads_trans visiting checking

theorem run_phases_outcome (fuel : Nat) (run : RunRef) (phases : List (Option Phase)) (s : Session Data)
    (spares : s.Spares run) : ∃ m, Outcome run s m (ending (runPhases (exec fuel) fuel run phases s)) := by
  cases result : runPhases (exec fuel) fuel run phases s with
  | error stop t => exact ⟨t, stopped_leads fuel run phases s t stop spares result, rfl, rfl, .inl rfl⟩
  | ok returned t =>
      obtain ⟨settled, settling, rfl, _⟩ := (run_phases_ok fuel phases s t returned).mp result
      obtain ⟨count, reached, began, settles⟩ := run_units_parts fuel phases s settled settling
      have leads := began_leads fuel _ _ count (s.opened run) reached spares began
      cases settles with
      | drained _ _ drained checked same =>
          rw [same]
          exact ⟨drained, outcome_of_drained fuel s reached drained leads checked⟩
      | skipped _ same =>
          obtain rfl | ⟨phase, rfl⟩ := same
          · exact ⟨_, outcome_of_reports s _ _ leads rfl (State.reports_refl _)⟩
          · exact ⟨reached, outcome_of_reports s reached _ leads rfl (stopped_reports run phase reached)⟩

theorem outcome_spares {s m t : Session Data} (outcome : Outcome run s m t) : t.Spares run := by
  intro ref cause
  rw [outcome.routines]
  exact spares_of_leads outcome.leads ref cause

def CompiledByLast (fuel : Nat) (run : RunRef) (s : Session Data) (calls : List (Call Data)) : Prop :=
  ∃ before phases later, calls = before ++ .runPhases phases :: later ∧ (∀ call ∈ later, call.isRunPhases = false) ∧
    ∀ unit ∈ ((s.after fuel run calls).state.run run).units,
      ((s.after fuel run calls).state.unit unit).isPresent = true →
      (((s.after fuel run calls).state.run run).isCompiled unit = true ↔
        unit ∈ ((s.after fuel run before).state.run run).units)

structure Consistent (fuel : Nat) (run : RunRef) (s : Session Data) (calls : List (Call Data)) : Prop where
  spares : (s.after fuel run calls).Spares run
  known : ∀ unit ∈ ((s.after fuel run calls).state.run run).units, unit < (s.after fuel run calls).state.units.size
  registered : ∀ unit ∈ ((s.after fuel run calls).state.run run).compiled,
    unit ∈ ((s.after fuel run calls).state.run run).units
  last : ((s.after fuel run calls).state.run run).complete = true → CompiledByLast fuel run s calls

theorem units_grow {bars : Drive → RunRef → Prop} {s t : State} (grows : s.RunGrows bars run t) (unit : UnitRef)
    (member : unit ∈ (t.run run).units) :
    unit ∈ (s.run run).units ∨ s.units.size ≤ unit ∧ unit < t.units.size := by
  obtain ⟨added, registry, fresh⟩ := grows.registry
  rw [Run.units, registry, List.map_append, List.mem_append] at member
  rcases member with old | new
  · exact .inl old
  · obtain ⟨entry, there, rfl⟩ := List.mem_map.mp new
    exact .inr (fresh entry there)

theorem units_kept {bars : Drive → RunRef → Prop} {s t : State} (grows : s.RunGrows bars run t) (unit : UnitRef)
    (member : unit ∈ (s.run run).units) : unit ∈ (t.run run).units := by
  obtain ⟨added, registry, _⟩ := grows.registry
  rw [Run.units, registry, List.map_append]
  exact List.mem_append_left _ member

theorem present_of_source {u v : CompilationUnit} (same : v.source = u.source) : v.isPresent = u.isPresent := by
  simp only [CompilationUnit.isPresent, same]

theorem known_grows {bars : Drive → RunRef → Prop} {s t : State} (grows : s.RunGrows bars run t)
    (known : ∀ unit ∈ (s.run run).units, unit < s.units.size) : ∀ unit ∈ (t.run run).units, unit < t.units.size := by
  intro unit member
  rcases units_grow grows unit member with old | ⟨_, new⟩
  · exact Nat.lt_of_lt_of_le (known unit old) grows.size
  · exact new

theorem consistent_other (fuel : Nat) (run : RunRef) (s : Session Data) (calls : List (Call Data)) (call : Call Data)
    (consistent : Consistent fuel run s calls) (sparing : call.Spares run) (other : call.isRunPhases = false) :
    Consistent fuel run s (calls ++ [call]) := by
  have leads := other_leads fuel run (s.after fuel run calls) call consistent.spares sparing other
  have grows := State.moves_grows run leads.moves
  have compiled := grows.compiled rfl
  have here : s.after fuel run (calls ++ [call]) = call.perform fuel run (s.after fuel run calls) := by
    rw [after_append]
    rfl
  refine ⟨?_, ?_, fun unit member => ?_, fun complete => ?_⟩
  · rw [here]
    exact leads.respects .completion run rfl
  · rw [here]
    exact known_grows grows consistent.known
  · rw [here] at member ⊢
    rw [compiled] at member
    exact units_kept grows unit (consistent.registered unit member)
  · rw [here] at complete
    obtain ⟨before, registry⟩ := grows.complete rfl complete
    obtain ⟨earlier, phases, later, split, quiet, law⟩ := consistent.last before
    refine ⟨earlier, phases, later ++ [call], by simp [split], ?_, fun unit member present => ?_⟩
    · intro known there
      rcases List.mem_append.mp there with old | new
      · exact quiet known old
      · rw [List.mem_singleton.mp new]
        exact other
    · rw [here, Run.units, registry] at member
      have source := grows.source unit (consistent.known unit member)
      rw [here, present_of_source source] at present
      rw [here, Run.is_compiled_iff, compiled, ← Run.is_compiled_iff]
      exact law unit member present

theorem outcome_grows (s m t : Session Data) (outcome : Outcome run s m t) :
    s.state.RunGrows (only .completion run) run m.state := by
  have opening : s.state.Moves (only .completion run) (s.opened run).state :=
    State.move_moves (.openRun s.state run fun barred => nomatch barred.1)
  exact State.moves_grows run (State.moves_trans opening outcome.leads.moves)

theorem consistent_run_phases (fuel : Nat) (run : RunRef) (s : Session Data) (calls : List (Call Data))
    (phases : List (Option Phase)) (consistent : Consistent fuel run s calls) :
    Consistent fuel run s (calls ++ [.runPhases phases]) := by
  obtain ⟨m, outcome⟩ := run_phases_outcome fuel run phases (s.after fuel run calls) consistent.spares
  have grows := outcome_grows _ m _ outcome
  have compiled : (m.state.run run).compiled = ((s.after fuel run calls).state.run run).compiled :=
    grows.compiled ⟨rfl, rfl⟩
  have incomplete := incomplete_of_leads outcome.leads (opened_complete run _)
  have here : s.after fuel run (calls ++ [.runPhases phases]) =
      ending (runPhases (exec fuel) fuel run phases (s.after fuel run calls)) := by
    rw [after_append]
    rfl
  rw [← here] at outcome
  have units : ((s.after fuel run (calls ++ [.runPhases phases])).state.run run).units = (m.state.run run).units := by
    rcases outcome.run with same | done
    · rw [same]
    · rw [done]
      rfl
  have pending (unit : UnitRef) (member : unit ∈ (s.after fuel run calls).state.pendingUnits run) :
      unit ∈ ((s.after fuel run calls).state.run run).units := (List.mem_filter.mp member).1
  refine ⟨outcome_spares outcome, ?_, fun unit member => ?_, fun complete => ?_⟩
  · rw [units, outcome.units]
    exact known_grows grows consistent.known
  · rw [units]
    refine units_kept grows unit ?_
    rcases outcome.run with same | done
    · rw [same, compiled] at member
      exact consistent.registered unit member
    · rw [done, Run.mem_mark_compiled, Run.setComplete, compiled] at member
      rcases member with before | visited
      · exact consistent.registered unit before
      · exact pending unit visited
  · rcases outcome.run with same | done
    · rw [same, incomplete] at complete
      cases complete
    · refine ⟨calls, phases, [], rfl, by simp, fun unit _ present => ?_⟩
      rw [done, Run.is_compiled_iff, Run.mem_mark_compiled, Run.setComplete, compiled]
      constructor
      · rintro (before | visited)
        · exact consistent.registered unit before
        · exact pending unit visited
      · intro member
        have source := grows.source unit (consistent.known unit member)
        rw [State.unit, outcome.units] at present
        have there : ((s.after fuel run calls).state.unit unit).isPresent = true := by
          rw [← present_of_source source]
          exact present
        cases before : ((s.after fuel run calls).state.run run).isCompiled unit with
        | true => exact .inl ((Run.is_compiled_iff _ unit).mp before)
        | false => exact .inr (List.mem_filter.mpr ⟨member, by simp [there, before]⟩)

theorem consistent_after (fuel : Nat) (run : RunRef) (s : Session Data) (done calls : List (Call Data))
    (consistent : Consistent fuel run s done) (sparing : ∀ call ∈ calls, call.Spares run) :
    Consistent fuel run s (done ++ calls) := by
  induction calls generalizing done with
  | nil => rwa [List.append_nil]
  | cons call rest ih =>
      have next : Consistent fuel run s (done ++ [call]) := by
        cases kind : call.isRunPhases with
        | false => exact consistent_other fuel run s done call consistent (sparing call (by simp)) kind
        | true =>
            cases call with
            | runPhases phases => exact consistent_run_phases fuel run s done phases consistent
            | _ => cases kind
      have whole := ih (done ++ [call]) next fun other member => sparing other (by simp [member])
      rwa [List.append_assoc, List.singleton_append] at whole

-- A run that is complete went through a call of which it compiled exactly the units it knew before the call. So all
-- existing units are compiled unless a callback of that call has added one of them.
theorem compiled_of_complete_run (fuel : Nat) (run : RunRef) (context : ContextRef) (s : Session Data)
    (calls : List (Call Data)) (new : s.state.run run = { context }) (spares : s.Spares run)
    (sparing : ∀ call ∈ calls, call.Spares run) (complete : ((s.after fuel run calls).state.run run).complete = true) :
    ∃ before phases later, calls = before ++ .runPhases phases :: later ∧ (∀ call ∈ later, call.isRunPhases = false) ∧
      ∀ unit ∈ ((s.after fuel run calls).state.run run).units,
        ((s.after fuel run calls).state.unit unit).isPresent = true →
        (((s.after fuel run calls).state.run run).isCompiled unit = true ↔
          unit ∈ ((s.after fuel run before).state.run run).units) := by
  have start : Consistent fuel run s [] := by
    refine ⟨spares, fun unit member => ?_, fun unit member => ?_, fun complete => ?_⟩
    · rw [after, List.foldl_nil, new] at member
      cases member
    · rw [after, List.foldl_nil, new] at member
      cases member
    · rw [after, List.foldl_nil, new] at complete
      cases complete
  exact (consistent_after fuel run s [] calls start sparing).last complete

def submitting : Session Unit := ready newRun [fun _ => .act (.addSource 0 (some sourceB)) fun _ => .done]

def sourceThenPhase : List (Call Unit) := [.addSource (some sourceA), .runPhases [some namer]]

theorem submitting_spares : submitting.Spares 0 := by
  refine ready_spares 0 _ _ fun body member cause => ?_
  rw [List.mem_singleton.mp member]
  exact fun _ => trivial

theorem source_then_phase_spare : ∀ call ∈ sourceThenPhase, call.Spares 0 := by
  intro call member
  rcases List.mem_cons.mp member with rfl | member
  · trivial
  · rw [List.mem_singleton.mp member]
    trivial

theorem first_source_known :
    ∃ before phases later, sourceThenPhase = before ++ .runPhases phases :: later ∧
      1 ∈ ((submitting.after 9 0 before).state.run 0).units := by
  obtain ⟨before, phases, later, split, _, law⟩ := compiled_of_complete_run 9 0 1 submitting sourceThenPhase
    (by decide +kernel) submitting_spares source_then_phase_spare (by decide +kernel)
  exact ⟨before, phases, later, split, (law 1 (by decide +kernel) (by decide +kernel)).mp (by decide +kernel)⟩

theorem complete_run_with_uncompiled_unit :
    submitting.state.run 0 = { context := 1 } ∧ submitting.Spares 0 ∧
      ((submitting.after 9 0 sourceThenPhase).state.run 0).complete = true ∧
      2 ∈ ((submitting.after 9 0 sourceThenPhase).state.run 0).units ∧
      ((submitting.after 9 0 sourceThenPhase).state.unit 2).isPresent = true ∧
      ((submitting.after 9 0 sourceThenPhase).state.run 0).isCompiled 2 = false :=
  ⟨by decide +kernel, submitting_spares, by decide +kernel, by decide +kernel, by decide +kernel, by decide +kernel⟩

end Session

end UnitRegistry
