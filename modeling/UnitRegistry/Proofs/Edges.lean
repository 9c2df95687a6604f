import Mathlib.Data.List.Nodup
import UnitRegistry.Proofs.CheckQueue

set_option autoImplicit false

namespace UnitRegistry

inductive EdgeCall where
  | dependency (symbol : Option Symbol)
  | definition (symbol : Option Symbol)
deriving DecidableEq

namespace EdgeCall

def request (unit : UnitRef) : EdgeCall → Request
  | .dependency symbol => .addDependency unit symbol
  | .definition symbol => .addDefinition unit symbol

def dependency? : EdgeCall → Option Symbol
  | .dependency symbol => symbol
  | .definition _ => none

def definition? : EdgeCall → Option Symbol
  | .dependency _ => none
  | .definition symbol => symbol

theorem dependency_iff (call : EdgeCall) (symbol : Symbol) :
    call.dependency? = some symbol ↔ call = .dependency (some symbol) := by
  cases call <;> simp [dependency?]

theorem definition_iff (call : EdgeCall) (symbol : Symbol) :
    call.definition? = some symbol ↔ call = .definition (some symbol) := by
  cases call <;> simp [definition?]

end EdgeCall

def trackedSymbols (read : EdgeCall → Option Symbol) (calls : List (Bool × EdgeCall)) : List Symbol :=
  calls.filterMap fun (tracking, call) => if tracking then read call else none

theorem mem_tracked (read : EdgeCall → Option Symbol) (calls : List (Bool × EdgeCall)) (symbol : Symbol) (call : EdgeCall)
    (only : ∀ other, read other = some symbol ↔ other = call) :
    symbol ∈ trackedSymbols read calls ↔ (true, call) ∈ calls := by
  rw [trackedSymbols, List.mem_filterMap]
  constructor
  · rintro ⟨⟨tracking, other⟩, member, found⟩
    cases tracking with
    | false => cases found
    | true =>
        cases (only other).mp found
        exact member
  · intro member
    exact ⟨(true, call), member, (only call).mpr rfl⟩

theorem nodup_insert_all (set added : List Symbol) (nodup : set.Nodup) : (insertAll set added).Nodup := by
  induction added generalizing set with
  | nil => exact nodup
  | cons first rest ih => exact ih (set.insert first) nodup.insert

namespace DependencyTracker

def call (t : DependencyTracker) (tracking : Bool) : EdgeCall → DependencyTracker
  | .dependency symbol => t.addDependency tracking symbol
  | .definition symbol => t.addDefinition tracking symbol

def after (t : DependencyTracker) (calls : List (Bool × EdgeCall)) : DependencyTracker :=
  calls.foldl (fun t (tracking, call) => t.call tracking call) t

theorem after_append (t : DependencyTracker) (earlier later : List (Bool × EdgeCall)) :
    t.after (earlier ++ later) = (t.after earlier).after later := by
  rw [after, after, after, List.foldl_append]

theorem after_sets (t : DependencyTracker) (calls : List (Bool × EdgeCall)) :
    t.after calls =
      { depends := insertAll t.depends (trackedSymbols EdgeCall.dependency? calls)
        defined := insertAll t.defined (trackedSymbols EdgeCall.definition? calls) } := by
  induction calls generalizing t with
  | nil => rfl
  | cons first rest ih =>
      rcases first with ⟨tracking, call⟩
      refine (ih (t.call tracking call)).trans ?_
      cases tracking with
      | false => cases call <;> rename_i symbol <;> cases symbol <;> rfl
      | true => cases call <;> rename_i symbol <;> cases symbol <;> rfl

structure Shows (calls : List (Bool × EdgeCall)) (now : Bool) (t : DependencyTracker) : Prop where
  depends : ∀ symbol, symbol ∈ t.dependencies now ↔ now = true ∧ (true, .dependency (some symbol)) ∈ calls
  defines : ∀ symbol, symbol ∈ t.definitions now ↔ now = true ∧ (true, .definition (some symbol)) ∈ calls
  dependsOnce : (t.dependencies now).Nodup
  definesOnce : (t.definitions now).Nodup

theorem shows_after (calls : List (Bool × EdgeCall)) (now : Bool) :
    Shows calls now (({} : DependencyTracker).after calls) := by
  rw [after_sets]
  cases now with
  | false => exact ⟨by simp [dependencies], by simp [definitions], List.nodup_nil, List.nodup_nil⟩
  | true =>
      refine ⟨fun symbol => ?_, fun symbol => ?_, nodup_insert_all _ _ List.nodup_nil, nodup_insert_all _ _ List.nodup_nil⟩
      · simp only [dependencies, if_pos, mem_insert_all, List.not_mem_nil, false_or, true_and]
        exact mem_tracked _ calls symbol _ (EdgeCall.dependency_iff · symbol)
      · simp only [definitions, if_pos, mem_insert_all, List.not_mem_nil, false_or, true_and]
        exact mem_tracked _ calls symbol _ (EdgeCall.definition_iff · symbol)

end DependencyTracker

def Request.edge? : Request → Option EdgeCall
  | .addDependency _ symbol => some (.dependency symbol)
  | .addDefinition _ symbol => some (.definition symbol)
  | _ => none

def Step.edge? (unit : UnitRef) : Step → Option EdgeCall
  | .request asked => if asked.unit? = some unit then asked.edge? else none
  | _ => none

theorem Step.edge_iff (unit : UnitRef) (step : Step) (call : EdgeCall) :
    step.edge? unit = some call ↔ step = .request (call.request unit) := by
  constructor
  · intro found
    cases step with
    | request asked =>
        by_cases named : asked.unit? = some unit
        · rw [edge?, if_pos named] at found
          cases asked <;> cases found
          · cases named
            rfl
          · cases named
            rfl
        · rw [edge?, if_neg named] at found
          cases found
    | _ => cases found
  · rintro rfl
    cases call with
    | dependency symbol => exact if_pos rfl
    | definition symbol => exact if_pos rfl

theorem Step.edge_none {unit : UnitRef} {step : Step}
    (unnamed : ∀ request, step = .request request → request.unit? ≠ some unit) : step.edge? unit = none := by
  cases step with
  | request request => exact if_neg (unnamed request rfl)
  | _ => rfl

def edges (unit : UnitRef) (steps : List Step) : List EdgeCall := steps.filterMap (Step.edge? unit)

theorem mem_edges (unit : UnitRef) (steps : List Step) (call : EdgeCall) :
    call ∈ edges unit steps ↔ .request (call.request unit) ∈ steps := by
  rw [edges, List.mem_filterMap]
  constructor
  · rintro ⟨step, member, found⟩
    rwa [(Step.edge_iff unit step call).mp found] at member
  · intro member
    exact ⟨_, member, (Step.edge_iff unit _ call).mpr rfl⟩

theorem edges_append (unit : UnitRef) (steps : List Step) (step : Step) :
    edges unit (steps ++ [step]) = edges unit steps ++ (step.edge? unit).toList := by
  rw [edges, List.filterMap_append]
  cases found : step.edge? unit <;> simp [edges, found]

namespace CompilationUnit

-- By value, so a copy of the absent file has no edges either.
theorem tracks_iff (u : CompilationUnit) : u.tracksDependencies = true ↔
    ∃ ref, u.source = some ref ∧ ref.file ≠ SourceFile.absent ∧ ref.file.kind ≠ .generated := by
  cases found : u.source with
  | none => simp [tracksDependencies, isPresent, found]
  | some ref => simp [tracksDependencies, isPresent, found, SourceFile.isGenerated]

theorem tracks_of_source {u v : CompilationUnit} (same : v.source = u.source) :
    v.tracksDependencies = u.tracksDependencies := by
  simp only [tracksDependencies, isPresent, same]

theorem change_dependencies (u : CompilationUnit) (empty : NodeRef) (request : Request) :
    (u.change empty request).dependencies = u.dependencies.after (request.edge?.toList.map (u.tracksDependencies, ·)) := by
  cases request with
  | addDependency of symbol => rfl
  | addDefinition of symbol => rfl
  | _ =>
      have changed := change_changed u empty
      exact changed_dependencies (changed _) (fun _ _ => Request.noConfusion) fun _ _ => Request.noConfusion

theorem step_source (unit : UnitRef) (u : CompilationUnit) (empty : NodeRef) (step : Step) :
    (u.step unit empty step).source = u.source := by
  obtain ⟨request, rfl, named, changed⟩ | ⟨check, rfl, dropped⟩ | ⟨unnamed, elsewhere, same⟩ :=
    step_cases unit empty u step
  · rw [changed]
    exact (changed_source (change_changed u empty request)).1
  · rw [dropped]
    rfl
  · rw [same]

theorem step_dependencies (unit : UnitRef) (u : CompilationUnit) (empty : NodeRef) (step : Step) :
    (u.step unit empty step).dependencies =
      u.dependencies.after ((step.edge? unit).toList.map (u.tracksDependencies, ·)) := by
  obtain ⟨request, rfl, named, changed⟩ | ⟨check, rfl, dropped⟩ | ⟨unnamed, elsewhere, same⟩ :=
    step_cases unit empty u step
  · rw [changed, Step.edge?, if_pos named]
    exact change_dependencies u empty request
  · rw [dropped]
    rfl
  · rw [same, Step.edge_none unnamed]
    rfl

structure Gathers (unit : UnitRef) (source : Option FileRef) (steps : List Step) (u : CompilationUnit) : Prop where
  source : u.source = source
  given : u.dependencies = ({} : DependencyTracker).after ((edges unit steps).map (u.tracksDependencies, ·))

theorem step_gathers {unit : UnitRef} {source : Option FileRef} {steps : List Step} {u : CompilationUnit} (empty : NodeRef)
    (step : Step) (gathers : Gathers unit source steps u) : Gathers unit source (steps ++ [step]) (u.step unit empty step) := by
  have same := step_source unit u empty step
  have given : (u.step unit empty step).dependencies =
      ({} : DependencyTracker).after ((edges unit (steps ++ [step])).map (u.tracksDependencies, ·)) := by
    calc (u.step unit empty step).dependencies
        = u.dependencies.after ((step.edge? unit).toList.map (u.tracksDependencies, ·)) :=
          step_dependencies unit u empty step
      _ = ({} : DependencyTracker).after ((edges unit (steps ++ [step])).map (u.tracksDependencies, ·)) := by
          rw [gathers.given, ← DependencyTracker.after_append, ← List.map_append, ← edges_append]
  rw [← tracks_of_source same] at given
  exact ⟨same.trans gathers.source, given⟩

structure ShowsEdges (unit : UnitRef) (steps : List Step) (u : CompilationUnit) : Prop where
  hidden : (∀ ref, u.source = some ref → ref.file = SourceFile.absent ∨ ref.file.kind = .generated) →
    u.dependencySet = [] ∧ u.definitionSet = []
  shown : ∀ ref, u.source = some ref → ref.file ≠ SourceFile.absent → ref.file.kind ≠ .generated → ∀ symbol,
    (symbol ∈ u.dependencySet ↔ .request (.addDependency unit (some symbol)) ∈ steps) ∧
      (symbol ∈ u.definitionSet ↔ .request (.addDefinition unit (some symbol)) ∈ steps)
  dependsOnce : u.dependencySet.Nodup
  definesOnce : u.definitionSet.Nodup

theorem shows_of_gathers {unit : UnitRef} {source : Option FileRef} {steps : List Step} {u : CompilationUnit}
    (gathers : Gathers unit source steps u) : ShowsEdges unit steps u := by
  have shows := DependencyTracker.shows_after ((edges unit steps).map (u.tracksDependencies, ·)) u.tracksDependencies
  rw [← gathers.given] at shows
  refine ⟨fun untracked => ?_, fun ref source present real symbol => ?_, shows.dependsOnce, shows.definesOnce⟩
  · have off : u.tracksDependencies = false := by
      rw [← Bool.not_eq_true, tracks_iff]
      rintro ⟨ref, source, present, real⟩
      exact (untracked ref source).elim present real
    exact ⟨by rw [dependencySet, off]; rfl, by rw [definitionSet, off]; rfl⟩
  · have on : u.tracksDependencies = true := (tracks_iff u).mpr ⟨ref, source, present, real⟩
    have asked (call : EdgeCall) :
        u.tracksDependencies = true ∧ (true, call) ∈ (edges unit steps).map (u.tracksDependencies, ·) ↔
          .request (call.request unit) ∈ steps := by
      rw [on, ← mem_edges]
      simp
    exact ⟨(shows.depends symbol).trans (asked (.dependency (some symbol))),
      (shows.defines symbol).trans (asked (.definition (some symbol)))⟩

end CompilationUnit

namespace State

theorem walk_edges {bars : Drive → RunRef → Prop} {s t : State} {steps : List Step} (unit : UnitRef)
    (there : unit < s.units.size) (new : (s.unit unit).dependencies = {}) (walk : s.Walk bars steps t) :
    (t.unit unit).source = (s.unit unit).source ∧ (t.unit unit).ShowsEdges unit steps := by
  have start : (s.unit unit).Gathers unit (s.unit unit).source [] := ⟨rfl, new⟩
  have gathers : (t.unit unit).Gathers unit (s.unit unit).source steps := by
    refine unit_walk (CompilationUnit.Gathers unit (s.unit unit).source) there start ?_ walk
    intro steps u empty step before _
    exact CompilationUnit.step_gathers empty step before
  exact ⟨gathers.source, CompilationUnit.shows_of_gathers gathers⟩

end State

namespace Session

open State (nobody)

-- A tracker shows what was added while edges were tracked, and only while they are. A unit asks its source, which stays
-- the same, so from the moment when it is new it shows all that was added or nothing, whatever else happens in the walk.
theorem edges_while_tracked (Data : Type) :
    (∀ calls now, DependencyTracker.Shows calls now (({} : DependencyTracker).after calls)) ∧
    (∀ (s : State) unit steps m, unit < s.units.size → (s.unit unit).dependencies = {} → s.Walk nobody steps m →
      (m.unit unit).source = (s.unit unit).source ∧ (m.unit unit).ShowsEdges unit steps) ∧
    ∀ limit (program : Program Data), Walking (exec limit program) :=
  ⟨DependencyTracker.shows_after, fun _ unit _ _ there new walk => State.walk_edges unit there new walk, walking_exec⟩

def usedClass : Symbol := .top ⟨0, 1, .klass, "Used"⟩

def ownClass : Symbol := .top ⟨0, 2, .klass, "Own"⟩

def diskAndGenerated : State :=
  (ready [.addUnit (some sourceA) 0, .addUnit (some ⟨2, .generated "G.scala" []⟩) 0] []).state

def edgeRequests : List Request :=
  [.addDependency 1 (some usedClass), .addDependency 2 (some usedClass), .addDefinition 1 none,
    .addDefinition 1 (some ownClass), .addDependency 1 (some usedClass)]

def withEdges : State := edgeRequests.foldl (fun s request => ending (s.perform request)) diskAndGenerated

theorem edges_of_disk_unit :
    usedClass ∈ (withEdges.unit 1).dependencySet ∧ ownClass ∉ (withEdges.unit 1).dependencySet ∧
      ownClass ∈ (withEdges.unit 1).definitionSet ∧ (withEdges.unit 2).dependencySet = [] := by
  obtain ⟨_, units, _⟩ := edges_while_tracked Unit
  have walk : diskAndGenerated.Walk nobody (edgeRequests.map .request) withEdges := State.requests_walk _ _
  obtain ⟨ownSource, disk⟩ := units diskAndGenerated 1 _ withEdges (by decide +kernel) (by decide +kernel) walk
  obtain ⟨otherSource, generated⟩ := units diskAndGenerated 2 _ withEdges (by decide +kernel) (by decide +kernel) walk
  have own : (diskAndGenerated.unit 1).source = some sourceA := by decide +kernel
  have other : (diskAndGenerated.unit 2).source = some ⟨2, .generated "G.scala" []⟩ := by decide +kernel
  have shown := disk.shown sourceA (ownSource.trans own) (by decide) (by decide)
  refine ⟨(shown usedClass).1.mpr (by simp [edgeRequests]), fun member => ?_,
    (shown ownClass).2.mpr (by simp [edgeRequests]), (generated.hidden fun ref source => .inr ?_).1⟩
  · have asked := (shown ownClass).1.mp member
    revert asked
    simp [edgeRequests, usedClass, ownClass]
  · rw [otherSource, other] at source
    cases source
    rfl

end Session

end UnitRegistry
