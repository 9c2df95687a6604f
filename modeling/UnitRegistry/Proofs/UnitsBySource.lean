import Mathlib.Data.List.Nodup
import UnitRegistry.Proofs.Submissions
import UnitRegistry.Proofs.Visits

set_option autoImplicit false

namespace UnitRegistry

theorem new_sources_eq (known files : List FileRef) : newSources known files = (files.removeAll known).eraseDups := by
  induction files generalizing known with
  | nil => rfl
  | cons file rest ih =>
      by_cases old : file ∈ known
      · have contained : known.contains file = true := by simpa using old
        rw [newSources, if_pos old, ih known, List.cons_removeAll, if_neg (by rw [contained]; decide)]
      · have absent : known.contains file = false := by simpa using old
        have later : (rest.removeAll known).filter (fun other => !other == file) = rest.removeAll (known ++ [file]) := by
          simp only [List.removeAll, List.filter_filter]
          refine List.filter_congr fun other _ => ?_
          by_cases same : other = file <;> simp [same]
        rw [newSources, if_neg old, ih (known ++ [file]), List.cons_removeAll, if_pos absent, List.eraseDups_cons, later]

namespace State

variable {bars : Drive → RunRef → Prop} {s t : State}

inductive Registers (run : RunRef) (s t : State) : Prop where
  | same (registry : (t.run run).registry = (s.run run).registry)
  | new (file : FileRef) (absent : file ∉ s.sources run) (made : s.units.size < t.units.size)
      (source : (t.unit s.units.size).source = some file)
      (registry : (t.run run).registry = (s.run run).registry ++ [(file, s.units.size)])

theorem run_enrolled (s : State) (run other : RunRef) (file : FileRef) :
    (s.enrolled other file).run run =
      if other = run ∧ other < s.runs.size then (s.run run).register file s.units.size else s.run run :=
  run_modify ((s.emit (.submitted other file)).addUnit (some file) (s.run other).context).1 other run _

theorem registers_new (s : State) (run other : RunRef) (file : FileRef)
    (absent : (s.run other).unitOf? (some file) = none) : Registers run s (s.enrolled other file) := by
  by_cases here : other = run ∧ other < s.runs.size
  · have changed := run_enrolled s run other file
    rw [if_pos here] at changed
    obtain ⟨rfl, known⟩ := here
    refine .new file ((Run.unit_of_none_iff _ _).mp absent) ?_ ?_ ?_
    · simp [enrolled, modifyRun, addUnit, addNode, emit]
    · exact congrArg CompilationUnit.source (Store.get_push_self s.units _)
    · rw [changed]
      rfl
  · refine .same ?_
    rw [run_enrolled, if_neg here]

theorem move_registers (run : RunRef) (move : Move bars s t) : Registers run s t := by
  cases move with
  | outputs outputs =>
      obtain ⟨_, _, _, _, rfl⟩ := outputs
      exact .same rfl
  | surroundings around =>
      obtain ⟨_, _, _, _, _, _, _, _, rfl⟩ := around
      exact .same rfl
  | passWarning ref remark enabled outputs =>
      obtain ⟨_, _, _, _, rfl⟩ := outputs
      exact .same rfl
  | holdWarning ref => cases ref <;> exact .same rfl
  | clearWarnings ref held outputs =>
      obtain ⟨_, _, _, _, rfl⟩ := outputs
      cases ref <;> exact .same rfl
  | addCheck unit check =>
      cases own : (s.unit unit).sentinel with
      | true =>
          rw [add_check_sentinel s unit check own]
          exact .same rfl
      | false =>
          rw [add_check_own s unit check own]
          exact .same rfl
  | addRun context =>
      refine .same ?_
      rw [run_add]
      split
      · rename_i new
        rw [run_absent s run (Nat.le_of_eq new.symm)]
        rfl
      · rfl
  | register other file absent => exact registers_new s run other file absent
  | openRun other => exact .same (set_complete_registry s other run false)
  | completeRun other units =>
      obtain ⟨f, modified, keeps⟩ := complete_run_modifies s other units
      refine .same ?_
      rw [modified, run_modify]
      split
      · exact (keeps _).2
      · rfl
  | _ => exact .same rfl

structure Paired (run : RunRef) (s : State) : Prop where
  first : nullUnit < s.units.size
  sources : (s.sources run).Nodup
  units : (s.run run).units.Nodup
  entries : ∀ entry ∈ (s.run run).registry,
    nullUnit < entry.2 ∧ entry.2 < s.units.size ∧ (s.unit entry.2).source = some entry.1

theorem paired_move {run : RunRef} (paired : Paired run s) (move : Move bars s t) : Paired run t := by
  have grows := move_grows run move
  have kept (entry : FileRef × UnitRef) (member : entry ∈ (s.run run).registry) :
      nullUnit < entry.2 ∧ entry.2 < t.units.size ∧ (t.unit entry.2).source = some entry.1 := by
    obtain ⟨own, there, source⟩ := paired.entries entry member
    exact ⟨own, Nat.lt_of_lt_of_le there grows.size, by rw [grows.source entry.2 there, source]⟩
  have first := Nat.lt_of_lt_of_le paired.first grows.size
  cases move_registers run move with
  | same registry =>
      refine ⟨first, ?_, ?_, ?_⟩
      · rw [State.sources, registry]
        exact paired.sources
      · rw [Run.units, registry]
        exact paired.units
      · rw [registry]
        exact kept
  | new file absent made source registry =>
      have unused : s.units.size ∉ (s.run run).units := by
        intro member
        obtain ⟨entry, there, same⟩ := List.mem_map.mp member
        have bound := (paired.entries entry there).2.1
        rw [same] at bound
        exact Nat.lt_irrefl _ bound
      refine ⟨first, ?_, ?_, fun entry member => ?_⟩
      · rw [State.sources, registry, List.map_append]
        exact List.Nodup.append paired.sources (List.nodup_singleton _) (List.disjoint_singleton.mpr absent)
      · rw [Run.units, registry, List.map_append]
        exact List.Nodup.append paired.units (List.nodup_singleton _) (List.disjoint_singleton.mpr unused)
      · rw [registry] at member
        rcases List.mem_append.mp member with old | new
        · exact kept entry old
        · cases List.mem_singleton.mp new
          exact ⟨paired.first, made, source⟩

theorem paired_moves {run : RunRef} (paired : Paired run s) (moves : Moves bars s t) : Paired run t := by
  induction moves with
  | refl => exact paired
  | tail _ move ih => exact paired_move ih move

theorem paired_add_run (s : State) (context : ContextRef) (first : nullUnit < s.units.size) :
    Paired s.runs.size (s.addRun context).1 := by
  have new : (s.addRun context).1.run s.runs.size = { context } := by rw [run_add, if_pos rfl]
  refine ⟨first, ?_, ?_, ?_⟩
  · rw [State.sources, new]
    exact List.nodup_nil
  · rw [new]
    exact List.nodup_nil
  · rw [new]
    simp

section Lookup

variable {run : RunRef}

theorem unit_of_entry (paired : Paired run s) (entry : FileRef × UnitRef) (member : entry ∈ (s.run run).registry) :
    (s.run run).unitOf? (some entry.1) = some entry.2 :=
  (Assoc.lookup_iff_mem entry.1 entry.2 (s.run run).registry paired.sources).mpr member

theorem unit_of_member (paired : Paired run s) (file : FileRef) (unit : UnitRef)
    (member : (file, unit) ∈ (s.run run).registry) : s.unitOf run (some file) = unit := by
  rw [unitOf, unit_of_entry paired (file, unit) member, Option.getD_some]

theorem unit_of_known (paired : Paired run s) (file : FileRef) (known : file ∈ s.sources run) :
    (s.run run).unitOf? (some file) = some (s.unitOf run (some file)) ∧ s.unitOf run (some file) ∈ (s.run run).units ∧
      ∀ unit ∈ (s.run run).units, (s.unit unit).source = some file ↔ unit = s.unitOf run (some file) := by
  obtain ⟨entry, member, rfl⟩ := List.mem_map.mp known
  have found := unit_of_entry paired entry member
  have unit := unit_of_member paired entry.1 entry.2 member
  rw [unit]
  refine ⟨found, List.mem_map_of_mem member, fun other there => ?_⟩
  obtain ⟨candidate, listed, rfl⟩ := List.mem_map.mp there
  have source := (paired.entries candidate listed).2.2
  constructor
  · intro same
    rw [source] at same
    have again := unit_of_entry paired candidate listed
    rw [Option.some.inj same, found] at again
    exact (Option.some.inj again).symm
  · intro same
    rw [same]
    exact (paired.entries entry member).2.2

theorem unit_of_unknown (file : FileRef) (unknown : file ∉ s.sources run) : s.unitOf run (some file) = nullUnit := by
  rw [unitOf, (Run.unit_of_none_iff _ _).mpr unknown, Option.getD_none]

theorem sources_of_units (paired : Paired run s) :
    (s.run run).units.map (fun unit => (s.unit unit).source) = (s.sources run).map some := by
  rw [Run.units, State.sources, List.map_map, List.map_map]
  exact List.map_congr_left fun entry member => (paired.entries entry member).2.2

theorem since_outputs {middle : State} (events : List Event) (journal : middle.journal.toList = s.journal.toList ++ events)
    (outputs : Outputs middle t) : submissions run (s.since t) = submissions run events := by
  obtain ⟨_, _, later, output, rfl⟩ := outputs
  have whole : (middle.journal ++ later).toList = s.journal.toList ++ (events ++ later) := by
    simp [journal]
  rw [since_eq whole, submissions_append, output_submits_nothing run later output, List.append_nil]

theorem enrolled_entry (file : FileRef) (known : run < s.runs.size) :
    (file, s.units.size) ∈ ((s.enrolled run file).run run).registry := by
  rw [run_enrolled, if_pos ⟨rfl, known⟩]
  exact List.mem_append_right _ List.mem_cons_self

theorem add_source_records (paired : Paired run s) (known : run < s.runs.size) (file : FileRef) :
    ∃ t, s.perform (.addSource run (some file)) = .ok (t.unitOf run (some file)) t ∧
      submissions run (s.since t) = [file] := by
  have recorded : submissions run [.submitted run file] = [file] := by simp [submissions, Event.submission?]
  cases found : (s.run run).unitOf? (some file) with
  | some unit =>
      have unchanged : (s.emit (.submitted run file)).unitOf run (some file) = s.unitOf run (some file) := rfl
      refine ⟨s.emit (.submitted run file), ?_, ?_⟩
      · rw [unchanged, unitOf, found, Option.getD_some]
        exact add_source_known s run file unit found
      · rw [since_outputs [.submitted run file] (by simp [emit]) (outputs_refl _), recorded]
  | none =>
      obtain ⟨message, performed⟩ := add_source_new s run file found
      generalize logged : (s.enrolled run file).trace .debug "run" message = t at performed
      have outputs : Outputs (s.enrolled run file) t := logged ▸ trace_outputs _ _ _ _
      have moved : Moves nobody s t := moves_trans (move_moves (.register s run file found)) (outputs_moves outputs)
      have same : t.runs = (s.enrolled run file).runs := (outputs_reports outputs).runs
      have member : (file, s.units.size) ∈ (t.run run).registry := by
        rw [State.run, same]
        exact enrolled_entry file known
      refine ⟨t, ?_, ?_⟩
      · rw [unit_of_member (paired_moves paired moved) file s.units.size member]
        exact performed
      · rw [since_outputs [.submitted run file] (by simp [enrolled, modifyRun, addUnit, addNode, emit]) outputs, recorded]

end Lookup

structure Lists (run : RunRef) (submitted : List FileRef) (s : State) : Prop where
  distinct : (s.run run).units.Nodup
  order : (s.run run).units.map (fun unit => (s.unit unit).source) = submitted.eraseDups.map some
  own : nullUnit ∉ (s.run run).units
  found : ∀ file ∈ submitted, s.unitOf run (some file) ∈ (s.run run).units ∧
    ∀ unit ∈ (s.run run).units, (s.unit unit).source = some file ↔ unit = s.unitOf run (some file)
  unknown : ∀ file, file ∉ submitted → s.unitOf run (some file) = nullUnit
  nothing : s.unitOf run none = nullUnit
  added : ∀ file, ∃ t, s.perform (.addSource run (some file)) = .ok (t.unitOf run (some file)) t ∧
    submissions run (s.since t) = [file]
  again : ∀ file ∈ submitted,
    s.perform (.addSource run (some file)) = .ok (s.unitOf run (some file)) (s.emit (.submitted run file))
  refused : s.perform (.addSource run none) = .error .nullSource s

theorem lists_of_paired {run : RunRef} (paired : Paired run s) (known : run < s.runs.size) (submitted : List FileRef)
    (sources : s.sources run = submitted.eraseDups) : Lists run submitted s := by
  have listed (file : FileRef) : file ∈ s.sources run ↔ file ∈ submitted := by
    rw [sources]
    exact List.mem_eraseDups
  refine ⟨paired.units, ?_, fun member => ?_, fun file member => ?_, fun file unknown => ?_, rfl,
    add_source_records paired known, fun file member => ?_, rfl⟩
  · rw [sources_of_units paired, sources]
  · obtain ⟨entry, there, same⟩ := List.mem_map.mp member
    have own := (paired.entries entry there).1
    rw [same] at own
    exact Nat.lt_irrefl _ own
  · exact (unit_of_known paired file ((listed file).mpr member)).2
  · exact unit_of_unknown file fun member => unknown ((listed file).mp member)
  · exact add_source_known s run file _ (unit_of_known paired file ((listed file).mpr member)).1

theorem lists_since (context : ContextRef) (s m : State) (first : nullUnit < s.units.size)
    (moves : (s.addRun context).1.Moves bars m) :
    Lists s.runs.size (submissions s.runs.size ((s.addRun context).1.since m)) m := by
  have made : s.runs.size < (s.addRun context).1.runs.size := by
    rw [addRun, Store.size_push]
    exact Nat.lt_succ_self _
  have none : (s.addRun context).1.sources s.runs.size = [] := by
    rw [State.sources, run_add, if_pos rfl]
    rfl
  have submits := moves_submits moves made
  have sources := submits.sources
  rw [none, List.nil_append, new_sources_eq] at sources
  refine lists_of_paired (paired_moves (paired_add_run s context first) moves) submits.known _ ?_
  simpa [List.removeAll] using sources

end State

namespace Session

open State (start nullUnit nobody)

theorem units_by_source (Data : Type) (context : ContextRef) (s m : State) (reachable : start.Walks nobody s)
    (later : (s.addRun context).1.Walks nobody m) :
    m.Lists s.runs.size (submissions s.runs.size ((s.addRun context).1.since m)) ∧ Fault.nullSource.kind = .argument ∧
      ∀ limit (program : Program Data), Walking (exec limit program) := by
  have first : nullUnit < s.units.size := (State.moves_grows 0 (State.moves_of_walks reachable)).size
  exact ⟨State.lists_since context s m first (State.moves_of_walks later), rfl, walking_exec⟩

def withContext : State := (ready [.addReporter .silent, .addContext 1 {}] []).state

def resubmitted : State :=
  (ready [.addReporter .silent, .addContext 1 {}, .addRun 1, .addSource 0 (some sourceA), .addSource 0 (some sourceB),
    .addSource 0 none, .addSource 0 (some sourceA)] []).state

theorem resubmitted_source_listed_once :
    (resubmitted.run 0).units.map (fun unit => (resubmitted.unit unit).source) = [some sourceA, some sourceB] ∧
      resubmitted.perform (.addSource 0 (some sourceA)) =
        .ok (resubmitted.unitOf 0 (some sourceA)) (resubmitted.emit (.submitted 0 sourceA)) := by
  obtain ⟨lists, _⟩ := units_by_source Unit 1 withContext resubmitted (State.requests_walks start _)
    (State.requests_walks (withContext.addRun 1).1 [.addSource 0 (some sourceA), .addSource 0 (some sourceB),
      .addSource 0 none, .addSource 0 (some sourceA)])
  have submitted : submissions withContext.runs.size ((withContext.addRun 1).1.since resubmitted) =
      [sourceA, sourceB, sourceA] := by decide +kernel
  rw [submitted] at lists
  exact ⟨lists.order, lists.again sourceA (by decide)⟩

end Session

end UnitRegistry
