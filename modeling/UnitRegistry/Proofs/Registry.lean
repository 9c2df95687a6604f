import UnitRegistry.Proofs.Trace

set_option autoImplicit false

namespace UnitRegistry

def insertAll {α : Type} [BEq α] (set added : List α) : List α := added.foldl (fun set item => set.insert item) set

theorem mem_insert_all {α : Type} [BEq α] [LawfulBEq α] (set added : List α) (item : α) :
    item ∈ insertAll set added ↔ item ∈ set ∨ item ∈ added := by
  induction added generalizing set with
  | nil => simp [insertAll]
  | cons first rest ih =>
      rw [insertAll, List.foldl_cons]
      refine (ih (set.insert first)).trans ?_
      rw [List.mem_insert_iff, List.mem_cons]
      grind

namespace Run

theorem mem_mark_compiled (r : Run) (units : List UnitRef) (unit : UnitRef) :
    unit ∈ (r.markCompiled units).compiled ↔ unit ∈ r.compiled ∨ unit ∈ units :=
  mem_insert_all r.compiled units unit

theorem is_compiled_iff (r : Run) (unit : UnitRef) : r.isCompiled unit = true ↔ unit ∈ r.compiled := by
  simp [Run.isCompiled]

end Run

namespace State

variable {bars : Drive → RunRef → Prop}

theorem run_modify (s : State) (ref other : RunRef) (f : Run → Run) :
    (s.modifyRun ref f).run other = if ref = other ∧ ref < s.runs.size then f (s.run other) else s.run other :=
  Store.get_modify_cases s.runs ref other f

theorem run_add (s : State) (context : ContextRef) (other : RunRef) :
    (s.addRun context).1.run other = if other = s.runs.size then { context } else s.run other := by
  by_cases new : other = s.runs.size
  · rw [if_pos new, new]
    exact Store.get_push_self _ _
  · rw [if_neg new]
    exact Store.get_push_of_ne _ _ _ new

theorem set_complete_registry (s : State) (ref other : RunRef) (complete : Bool) :
    ((s.modifyRun ref (·.setComplete complete)).run other).registry = (s.run other).registry := by
  rw [run_modify]
  split <;> rfl

theorem set_complete_compiled (s : State) (ref other : RunRef) (complete : Bool) :
    ((s.modifyRun ref (·.setComplete complete)).run other).compiled = (s.run other).compiled := by
  rw [run_modify]
  split <;> rfl

theorem run_absent (s : State) (run : RunRef) (absent : s.runs.size ≤ run) : s.run run = default :=
  Store.get_of_size_le _ _ absent

structure RunGrows (bars : Drive → RunRef → Prop) (run : RunRef) (s t : State) : Prop where
  compiled : bars .completion run → (t.run run).compiled = (s.run run).compiled
  complete : bars .completion run → (t.run run).complete = true →
    (s.run run).complete = true ∧ (t.run run).registry = (s.run run).registry
  registry : ∃ added, (t.run run).registry = (s.run run).registry ++ added ∧
    ∀ entry ∈ added, s.units.size ≤ entry.2 ∧ entry.2 < t.units.size
  size : s.units.size ≤ t.units.size
  source : ∀ unit < s.units.size, (t.unit unit).source = (s.unit unit).source

theorem grows_same {run : RunRef} {s t : State} (runs : t.run run = s.run run) (units : t.units = s.units) :
    RunGrows bars run s t :=
  ⟨fun _ => by rw [runs], fun _ done => ⟨by rwa [runs] at done, by rw [runs]⟩, ⟨[], by simp [runs], by simp⟩,
    by simp [units], fun unit _ => by simp [State.unit, units]⟩

theorem grows_trans {run : RunRef} {s t u : State} (first : RunGrows bars run s t) (second : RunGrows bars run t u) :
    RunGrows bars run s u := by
  obtain ⟨earlier, registered, new⟩ := first.registry
  obtain ⟨later, registeredLater, newLater⟩ := second.registry
  refine ⟨fun barred => ?_, fun barred done => ?_, ⟨earlier ++ later, ?_, fun entry member => ?_⟩, ?_, fun unit there => ?_⟩
  · rw [second.compiled barred, first.compiled barred]
  · obtain ⟨before, same⟩ := second.complete barred done
    obtain ⟨start, sameStart⟩ := first.complete barred before
    exact ⟨start, by rw [same, sameStart]⟩
  · rw [registeredLater, registered, List.append_assoc]
  · rcases List.mem_append.mp member with old | recent
    · exact ⟨(new entry old).1, Nat.lt_of_lt_of_le (new entry old).2 second.size⟩
    · exact ⟨Nat.le_trans first.size (newLater entry recent).1, (newLater entry recent).2⟩
  · exact Nat.le_trans first.size second.size
  · rw [second.source unit (Nat.lt_of_lt_of_le there first.size), first.source unit there]

theorem grows_modify_unit (run : RunRef) (s : State) (ref : UnitRef) (f : CompilationUnit → CompilationUnit)
    (keeps : (f (s.unit ref)).source = (s.unit ref).source) : RunGrows bars run s (s.modifyUnit ref f) := by
  refine ⟨fun _ => rfl, fun _ done => ⟨done, rfl⟩, ⟨[], by simp [modifyUnit, State.run], by simp⟩, ?_, fun unit _ => ?_⟩
  · simp [modifyUnit]
  · rw [unit_modify]
    split
    · rename_i same
      rw [← same.1, keeps]
    · rfl

theorem grows_add_unit (run : RunRef) (s : State) (source : Option FileRef) (context : ContextRef) :
    RunGrows bars run s (s.addUnit source context).1 := by
  refine ⟨fun _ => rfl, fun _ done => ⟨done, rfl⟩, ⟨[], by simp [addUnit, addNode, State.run], by simp⟩, ?_,
    fun unit there => ?_⟩
  · simp [addUnit, addNode]
  · rw [unit_add, if_neg (Nat.ne_of_lt there)]

theorem grows_modify_run (run other : RunRef) (s : State) (f : Run → Run)
    (registry : (f (s.run run)).registry = (s.run run).registry)
    (barred : other = run → bars .completion run → (f (s.run run)).compiled = (s.run run).compiled ∧
      ((f (s.run run)).complete = true → (s.run run).complete = true)) :
    RunGrows bars run s (s.modifyRun other f) := by
  by_cases here : other = run ∧ other < s.runs.size
  · have changed : (s.modifyRun other f).run run = f (s.run run) := by rw [run_modify, if_pos here]
    refine ⟨fun bar => ?_, fun bar done => ?_, ⟨[], by simp [changed, registry], by simp⟩, Nat.le_refl _, fun _ _ => rfl⟩
    · rw [changed]
      exact (barred here.1 bar).1
    · rw [changed] at done ⊢
      exact ⟨(barred here.1 bar).2 done, registry⟩
  · exact grows_same (by rw [run_modify, if_neg here]) rfl

theorem grows_register (run other : RunRef) (s : State) (file : FileRef) (context : ContextRef) :
    RunGrows bars run s ((s.addUnit (some file) context).1.modifyRun other (·.register file s.units.size)) := by
  have added : RunGrows bars run s (s.addUnit (some file) context).1 := grows_add_unit run s (some file) context
  have runs : (s.addUnit (some file) context).1.run run = s.run run := rfl
  have size : (s.addUnit (some file) context).1.runs.size = s.runs.size := rfl
  by_cases here : other = run ∧ other < s.runs.size
  · have changed : ((s.addUnit (some file) context).1.modifyRun other (·.register file s.units.size)).run run =
        (s.run run).register file s.units.size := by
      rw [run_modify, size, if_pos here, runs]
    refine ⟨fun _ => by rw [changed]; rfl, fun _ done => ?_, ⟨[(file, s.units.size)], ?_, fun entry member => ?_⟩,
      added.size, added.source⟩
    · rw [changed] at done
      cases done
    · rw [changed]
      rfl
    · rw [List.mem_singleton.mp member]
      simp [modifyRun, addUnit, addNode]
  · refine grows_trans added (grows_same ?_ rfl)
    rw [run_modify, size, if_neg here]

theorem grows_complete_run (run other : RunRef) (s : State) (units : List UnitRef) (free : ¬ bars .completion other) :
    RunGrows bars run s (s.completeRun other units) := by
  have unbarred (same : other = run) (barred : bars .completion run) : False := free (same ▸ barred)
  obtain ⟨f, modified, keeps⟩ := complete_run_modifies s other units
  rw [modified]
  exact grows_modify_run run other s f (keeps _).2 fun same barred => (unbarred same barred).elim

theorem move_grows (run : RunRef) {s t : State} (move : Move bars s t) : RunGrows bars run s t := by
  cases move with
  | outputs outputs =>
      obtain ⟨_, _, _, _, rfl⟩ := outputs
      exact grows_same rfl rfl
  | surroundings around =>
      obtain ⟨_, _, _, _, _, _, _, _, rfl⟩ := around
      exact grows_same rfl rfl
  | passWarning ref remark enabled outputs =>
      obtain ⟨_, _, _, _, rfl⟩ := outputs
      exact grows_same rfl rfl
  | holdWarning ref => cases ref <;> exact grows_same rfl rfl
  | clearWarnings ref held outputs =>
      obtain ⟨_, _, _, _, rfl⟩ := outputs
      cases ref <;> exact grows_same rfl rfl
  | addUnit source context => exact grows_add_unit run s source context
  | adjustUnit ref f keeps => exact grows_modify_unit run s ref f keeps.source
  | addCheck unit check =>
      cases own : (s.unit unit).sentinel with
      | true =>
          rw [add_check_sentinel s unit check own]
          exact grows_same rfl rfl
      | false =>
          rw [add_check_own s unit check own]
          refine grows_trans (grows_modify_unit run s unit (·.addCheck check) ?_) (grows_same rfl rfl)
          simp only [CompilationUnit.addCheck, own]
          rfl
  | startCheck unit check rest queued =>
      exact grows_trans (grows_modify_unit run s unit CompilationUnit.dropCheck rfl) (grows_same rfl rfl)
  | addRun context =>
      by_cases new : run = s.runs.size
      · have absent : s.run run = default := run_absent s run (Nat.le_of_eq new.symm)
        have fresh : (s.addRun context).1.run run = { context } := by rw [run_add, if_pos new]
        exact ⟨fun _ => by rw [fresh, absent]; rfl, fun _ done => (by rw [fresh] at done; cases done),
          ⟨[], by rw [fresh, absent]; rfl, by simp⟩, Nat.le_refl _, fun _ _ => rfl⟩
      · exact grows_same (by rw [run_add, if_neg new]) rfl
  | register other file =>
      have submitted : RunGrows bars run s (s.emit (.submitted other file)) := grows_same rfl rfl
      exact grows_trans submitted (grows_register run other (s.emit (.submitted other file)) file _)
  | openRun other free =>
      exact grows_modify_run run other s _ rfl fun _ _ => ⟨rfl, fun done => by cases done⟩
  | completeRun other units free => exact grows_complete_run run other s units free
  | _ => exact grows_same rfl rfl

theorem moves_grows (run : RunRef) {s t : State} (moves : Moves bars s t) : RunGrows bars run s t := by
  induction moves with
  | refl => exact grows_same rfl rfl
  | tail _ move ih => exact grows_trans ih (move_grows run move)

end State

end UnitRegistry
