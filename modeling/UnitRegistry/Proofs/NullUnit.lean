import UnitRegistry.Proofs.CheckQueue
import UnitRegistry.Proofs.TreeLinks

set_option autoImplicit false

namespace UnitRegistry

structure UnitView where
  source : Option FileRef
  present : Bool
  java : Bool
  text : Text
  body : Text
  hasXml : Bool
  firstXml : Position
  dependencies : List Symbol
  definitions : List Symbol
  synthetics : Text
  registered : List Symbol
  synthetic : Option Symbol → Option NodeRef
  frozen : Bool
  transformedCount : Nat
  transformed : Option NodeRef → Option (Option NodeRef)
  pendingChecks : Nat
  features : List Symbol
  featureChecked : Option Symbol → Bool
  target : Position
  targeted : Bool
  position : Nat → Position

def State.bodyText (s : State) (ref : UnitRef) : Text :=
  let (after, node) := s.body ref
  (after.tree (some node)).render

def State.view (s : State) (ref : UnitRef) : UnitView :=
  let unit := s.unit ref
  let definitions := unit.synthetics.definitions
  { source := unit.source
    present := unit.isPresent
    java := unit.isJava
    text := unit.render
    body := s.bodyText ref
    hasXml := unit.hasXml
    firstXml := unit.firstXml
    dependencies := unit.dependencySet
    definitions := unit.definitionSet
    synthetics := definitions.render s.heap
    registered := definitions.keys
    synthetic := fun symbol => (s.getSynthetic (.unit ref) symbol).2
    frozen := definitions.frozen
    transformedCount := unit.transformed.length
    transformed := unit.transformed?
    pendingChecks := unit.checks.length
    features := unit.features
    featureChecked := unit.isFeatureChecked
    target := unit.target
    targeted := unit.isTargeted
    position := unit.position }

namespace CompilationUnit

def IsNull (u : CompilationUnit) : Prop :=
  ∃ context body fresh observer,
    u = { null context body with fresh, synthetics := { definitions := { frozen := true }, observer } }

theorem null_is_null (context : ContextRef) (body : NodeRef) : (null context body).IsNull :=
  ⟨context, body, {}, .nobody, rfl⟩

section Null

variable {u : CompilationUnit} (null : u.IsNull)
include null

theorem null_sentinel : u.sentinel = true := by
  obtain ⟨_, _, _, _, rfl⟩ := null
  rfl

theorem null_checks : u.checks = [] := by
  obtain ⟨_, _, _, _, rfl⟩ := null
  rfl

theorem null_absent : u.isPresent = false := by
  obtain ⟨_, _, _, _, rfl⟩ := null
  simp [isPresent, CompilationUnit.null, FileRef.absent]

theorem null_tracks_nothing : u.tracksDependencies = false := by
  rw [tracksDependencies, null_absent null, Bool.false_and]

theorem null_definitions : u.synthetics.definitions = { frozen := true } := by
  obtain ⟨_, _, _, _, rfl⟩ := null
  rfl

-- No guard is missing: the sentinel, the frozen cache, edges that are not tracked, and maps that have nothing to lose.
theorem change_null (empty : NodeRef) (request : Request) : (u.change empty request).IsNull := by
  have untracked := null_tracks_nothing null
  obtain ⟨context, body, fresh, observer, rfl⟩ := null
  cases request with
  | freshName unit kind stem => exact ⟨context, body, _, observer, rfl⟩
  | observeSynthetics cache other => exact ⟨context, body, fresh, other, rfl⟩
  | addDependency unit symbol =>
      exists context, body, fresh, observer
      cases symbol <;> simp [change, addDependency, untracked, DependencyTracker.addDependency]
  | addDefinition unit symbol =>
      exists context, body, fresh, observer
      cases symbol <;> simp [change, addDefinition, untracked, DependencyTracker.addDefinition]
  | cacheTransformed unit tree result => cases tree <;> exact ⟨context, body, fresh, observer, rfl⟩
  | forgetTransformed unit tree => cases tree <;> exact ⟨context, body, fresh, observer, rfl⟩
  | markFeature unit feature => cases feature <;> exact ⟨context, body, fresh, observer, rfl⟩
  | removeSynthetic cache symbol => cases symbol <;> exact ⟨context, body, fresh, observer, rfl⟩
  | _ => exact ⟨context, body, fresh, observer, rfl⟩

end Null

end CompilationUnit

theorem Heap.render_new (heap : Heap) : (Heap.tree (heap.push {}) (some heap.size)).render = TreeKind.empty.name := by
  rw [Heap.tree_new]
  rfl

theorem SyntheticDefinitions.render_none (frozen : Bool) (heap other : Heap) :
    SyntheticDefinitions.render { frozen } heap = SyntheticDefinitions.render { frozen } other := by
  simp [render, ordered]

def Request.Addresses (unit : UnitRef) : Request → Prop
  | .body of => of = unit
  | .getSynthetic cache _ => cache.unit? = some unit
  | .addNode _ => True
  | .setNode _ _ => True
  | request => request.unit? = some unit

-- What a check would do is of no concern here, so any routine may be defined.
def Program.Addresses {Data : Type} (unit : UnitRef) : Program Data → Prop
  | .done => True
  | .raise _ => False
  | .attempt body next => body.Addresses unit ∧ ∀ caught, (next caught).Addresses unit
  | .own _ next => ∀ data, (next data).Addresses unit
  | .look next => ∀ s, (next s).Addresses unit
  | .act request next => request.Addresses unit ∧ ∀ reply, (next reply).Addresses unit
  | .define _ next => ∀ ref, (next ref).Addresses unit
  | .incomplete _ _ _ => False
  | .runChecks of next => of = unit ∧ next.Addresses unit
  | .runPhases _ _ _ => False

namespace State

variable {s : State} {unit : UnitRef}

theorem body_text_null (null : (s.unit unit).IsNull) : s.bodyText unit = TreeKind.empty.name := by
  have given : s.body unit = s.addNode {} := by rw [body, if_pos (CompilationUnit.null_sentinel null)]
  simp only [bodyText, given]
  exact Heap.render_new s.heap

theorem view_null {t : State} (null : (s.unit unit).IsNull) (later : (t.unit unit).IsNull) : t.view unit = s.view unit := by
  have body : t.bodyText unit = s.bodyText unit := by rw [body_text_null null, body_text_null later]
  have synthetics := SyntheticDefinitions.render_none true t.heap s.heap
  obtain ⟨_, _, _, _, old⟩ := null
  obtain ⟨_, _, _, _, new⟩ := later
  simp only [view, body, getSynthetic, cache, old, new, CompilationUnit.null]
  rw [synthetics]
  rfl

theorem body_journal (s : State) (ref : UnitRef) : (s.body ref).1.journal = s.journal := by
  by_cases sentinel : (s.unit ref).sentinel = true
  · rw [body, if_pos sentinel]
    rfl
  · rw [body, if_neg sentinel]

theorem modify_cache_journal (s : State) (ref : CacheRef) (f : ObservedSynthetics → ObservedSynthetics) :
    (s.modifyCache ref f).journal = s.journal := by
  cases ref <;> rfl

theorem perform_answers (null : (s.unit unit).IsNull) (request : Request) (addresses : request.Addresses unit) :
    ∃ reply, s.perform request = .ok reply (ending (s.perform request)) := by
  cases result : s.perform request with
  | ok reply t => exact ⟨reply, rfl⟩
  | error fault t =>
      cases request with
      | encounteredXml of position =>
          cases addresses
          have ignored : (s.unit unit).encounteredXml position = .ok (s.unit unit) := by
            rw [CompilationUnit.encounteredXml, if_pos (CompilationUnit.null_sentinel null)]
          rw [perform, encounteredXml, ignored] at result
          cases result
      | addSource run source => cases addresses
      | _ => simp [perform, answer] at result

theorem perform_quiet (null : (s.unit unit).IsNull) (request : Request) (addresses : request.Addresses unit) :
    (ending (s.perform request)).journal = s.journal := by
  have sentinel := CompilationUnit.null_sentinel null
  have frozen {cache : CacheRef} (named : cache.unit? = some unit) : (s.cache cache).definitions = { frozen := true } := by
    rw [cache_of_unit named, CompilationUnit.null_definitions null]
  cases request with
  | addNode node => rfl
  | setNode ref node => rfl
  | body of => exact body_journal s of
  | setBody of tree =>
      cases addresses
      simp only [perform, ending_ok, setBody, if_pos sentinel]
  | takeBody of =>
      cases addresses
      have allocated : ((s.addNode {}).1.unit unit).sentinel = true := sentinel
      simp only [perform, answer, ending_ok, takeBody, if_pos allocated]
      rfl
  | encounteredXml of position =>
      cases result : (s.unit of).encounteredXml position <;> simp only [perform, encounteredXml, result, ending_ok, ending_error]
      rfl
  | addCheck of check =>
      cases addresses
      rw [perform, ending_ok, add_check_sentinel s unit check sentinel]
  | putSynthetic cache symbol tree =>
      rw [perform, ending_ok, putSynthetic, frozen addresses]
      exact modify_cache_journal s cache _
  | removeSynthetic cache symbol =>
      rw [perform, ending_ok, removeSynthetic, frozen addresses]
      cases symbol <;> exact modify_cache_journal s cache _
  | getSynthetic cache symbol =>
      change (s.getSynthetic cache symbol).1.journal = s.journal
      rw [getSynthetic, frozen addresses]
      cases symbol <;> rfl
  | clearSynthetics cache =>
      rw [perform, ending_ok, clearSynthetics]
      exact modify_cache_journal s cache _
  | freezeSynthetics cache =>
      rw [perform, ending_ok, freezeSynthetics]
      exact modify_cache_journal s cache _
  | observeSynthetics cache observer =>
      rw [perform, ending_ok, observeSynthetics]
      exact modify_cache_journal s cache _
  | _ => cases addresses <;> rfl

theorem perform_null (there : unit < s.units.size) (null : (s.unit unit).IsNull) (request : Request)
    (addresses : request.Addresses unit) :
    ∃ reply t, s.perform request = .ok reply t ∧ t.journal = s.journal ∧ unit < t.units.size ∧ (t.unit unit).IsNull := by
  obtain ⟨reply, performed⟩ := perform_answers null request addresses
  have moves : Moves nobody s (ending (s.perform request)) := perform_moves s request
  have bound : unit < (ending (s.perform request)).units.size := Nat.lt_of_lt_of_le there (moves_grows 0 moves).size
  have changed := CompilationUnit.change_null null s.heap.size request
  have kept : ((ending (s.perform request)).unit unit).IsNull := by
    rw [unit_perform there request]
    split <;> assumption
  exact ⟨reply, _, performed, perform_quiet null request addresses, bound, kept⟩

theorem walk_null {bars : Drive → RunRef → Prop} {t : State} {steps : List Step} (there : unit < s.units.size)
    (null : (s.unit unit).IsNull) (walk : s.Walk bars steps t) :
    (t.unit unit).IsNull ∧ ∀ check, .startCheck unit check ∉ steps := by
  apply unit_walk (fun steps u => u.IsNull ∧ ∀ check, .startCheck unit check ∉ steps) there ⟨null, by simp⟩ ?_ walk
  intro steps u empty step before first
  obtain ⟨request, rfl, _, changed⟩ | ⟨check, rfl, _⟩ | ⟨_, elsewhere, same⟩ := CompilationUnit.step_cases unit empty u step
  · rw [changed]
    exact ⟨CompilationUnit.change_null before.1 empty request, by simp [before.2]⟩
  · have queued := first check rfl
    rw [CompilationUnit.null_checks before.1] at queued
    cases queued
  · have unstarted (check : Check) : .startCheck unit check ∉ steps ++ [step] := by
      intro member
      cases List.mem_append.mp member with
      | inl earlier => exact before.2 check earlier
      | inr last => exact elsewhere check (List.mem_singleton.mp last).symm
    rw [same]
    exact ⟨before.1, unstarted⟩

end State

namespace Session

open State (nobody nullUnit)

variable {Data : Type} {unit : UnitRef}

theorem exec_rest {program rest : Program Data} {s m t : Session Data} {enough : Nat}
    (first : ∀ fuel, exec (fuel + 2) program s = exec (fuel + 1) rest m)
    (ran : ∀ fuel, enough ≤ fuel → exec fuel rest m = .ok () t) (fuel : Nat) (granted : enough + 2 ≤ fuel) :
    exec fuel program s = .ok () t := by
  obtain ⟨left, rfl⟩ : ∃ left, fuel = left + 2 := ⟨fuel - 2, by omega⟩
  rw [first]
  exact ran (left + 1) (by omega)

theorem exec_act (request : Request) (next : request.Reply → Program Data) (s : Session Data) (reply : request.Reply)
    (t : State) (performed : s.state.perform request = .ok reply t) (fuel : Nat) :
    exec (fuel + 1) (.act request next) s = exec fuel (next reply) { s with state := t } := by
  have same : perform request s = .ok reply { s with state := t } := by simp only [perform, performed]
  change EStateM.bind _ _ s = _
  unfold EStateM.bind
  rw [same]

theorem exec_attempt (body : Program Data) (next : Option Fault → Program Data) (s m : Session Data) (fuel : Nat)
    (ran : exec fuel body s = .ok () m) : exec (fuel + 1) (.attempt body next) s = exec fuel (next none) m := by
  change EStateM.bind (attempt (exec fuel body)) _ s = _
  unfold EStateM.bind attempt
  rw [ran]

theorem exec_run_checks (next : Program Data) (s : Session Data) (idle : (s.state.unit unit).checks = []) (fuel : Nat) :
    exec (fuel + 2) (.runChecks unit next) s = exec (fuel + 1) next s := by
  have none := run_checks_idle (exec (fuel + 1)) unit s fuel idle
  change EStateM.bind _ _ s = _
  unfold EStateM.bind
  rw [none]

-- Programs are trees that branch over replies, so the induction is on the program and the fuel follows.
theorem exec_null (program : Program Data) (s : Session Data) (addresses : program.Addresses unit)
    (there : unit < s.state.units.size) (null : (s.state.unit unit).IsNull) :
    ∃ enough t, (∀ fuel, enough ≤ fuel → exec fuel program s = .ok () t) ∧ t.state.journal = s.state.journal ∧
      (t.state.unit unit).IsNull := by
  induction program generalizing s with
  | done =>
      have ran (fuel : Nat) (granted : 1 ≤ fuel) : exec fuel .done s = .ok () s := by
        cases fuel with
        | zero => contradiction
        | succ left => rfl
      exact ⟨1, s, ran, rfl, null⟩
  | raise fault => exact addresses.elim
  | attempt body next ihBody ihNext =>
      obtain ⟨first, m, attempted, silent, still⟩ := ihBody s addresses.1 there null
      have walks := walks_of_ok (walking_exec first body) (attempted first (Nat.le_refl first))
      have bound := Nat.lt_of_lt_of_le there (State.moves_grows 0 (State.moves_of_walks walks)).size
      obtain ⟨second, t, ran, quiet, kept⟩ := ihNext none m (addresses.2 none) bound still
      refine ⟨max first second + 1, t, fun fuel granted => ?_, quiet.trans silent, kept⟩
      obtain ⟨left, rfl⟩ : ∃ left, fuel = left + 1 := ⟨fuel - 1, by omega⟩
      rw [exec_attempt body next s m left (attempted left (by omega))]
      exact ran left (by omega)
  | own change next ih =>
      obtain ⟨enough, t, ran, quiet, kept⟩ := ih (change s.data) { s with data := change s.data } (addresses _) there null
      exact ⟨enough + 2, t, exec_rest (fun _ => rfl) ran, quiet, kept⟩
  | look next ih =>
      obtain ⟨enough, t, ran, quiet, kept⟩ := ih s.state s (addresses _) there null
      exact ⟨enough + 2, t, exec_rest (fun _ => rfl) ran, quiet, kept⟩
  | act request next ih =>
      obtain ⟨reply, after, performed, silent, bound, still⟩ := State.perform_null there null request addresses.1
      obtain ⟨enough, t, ran, quiet, kept⟩ := ih reply { s with state := after } (addresses.2 reply) bound still
      have first (fuel : Nat) := exec_act request next s reply after performed (fuel + 1)
      exact ⟨enough + 2, t, exec_rest first ran, quiet.trans silent, kept⟩
  | define body next _ ih =>
      obtain ⟨enough, t, ran, quiet, kept⟩ :=
        ih s.routines.size { s with routines := s.routines.push body } (addresses _) there null
      exact ⟨enough + 2, t, exec_rest (fun _ => rfl) ran, quiet, kept⟩
  | incomplete reporter remark next => exact addresses.elim
  | runChecks of next ih =>
      obtain ⟨rfl, addresses⟩ := addresses
      obtain ⟨enough, t, ran, quiet, kept⟩ := ih s addresses there null
      have idle := CompilationUnit.null_checks null
      exact ⟨enough + 2, t, exec_rest (exec_run_checks next s idle) ran, quiet, kept⟩
  | runPhases run phases next => exact addresses.elim

theorem null_unit_ignores_changes (Data : Type) :
    (∀ steps m, State.start.Walk nobody steps m →
      m.view nullUnit = State.start.view nullUnit ∧ ∀ check, .startCheck nullUnit check ∉ steps) ∧
    (∀ limit (program : Program Data), Walking (exec limit program)) ∧
    ∀ (x : Session Data) (program : Program Data), State.start.Walks nobody x.state → program.Addresses nullUnit →
      ∃ enough t, (∀ fuel, enough ≤ fuel → exec fuel program x = .ok () t) ∧ t.state.journal = x.state.journal ∧
        t.state.view nullUnit = State.start.view nullUnit := by
  have there : nullUnit < State.start.units.size := Nat.zero_lt_one
  have null : (State.start.unit nullUnit).IsNull := CompilationUnit.null_is_null State.defaultContext 0
  constructor
  · intro steps m walk
    obtain ⟨later, unstarted⟩ := State.walk_null there null walk
    exact ⟨State.view_null null later, unstarted⟩
  constructor
  · exact walking_exec
  · intro x program walks addresses
    obtain ⟨steps, walk⟩ := walks
    have bound := Nat.lt_of_lt_of_le there (State.moves_grows 0 (State.walk_moves walk)).size
    obtain ⟨enough, t, ran, quiet, kept⟩ := exec_null program x addresses bound (State.walk_null there null walk).1
    exact ⟨enough, t, ran, quiet, State.view_null null kept⟩

def someSymbol : Symbol := .top ⟨1, 1, .klass, "C"⟩

def meddle : Action Unit Unit := do
  let given ← .request (.body nullUnit)
  .request (.setNode given { kind := .block })
  let taken ← .request (.takeBody nullUnit)
  .request (.setNode taken { kind := .ident, name := "x" })
  .request (.setBody nullUnit (some taken))
  .request (.encounteredXml nullUnit .nowhere)
  .request (.encounteredXml nullUnit (.point none 1))
  .request (.encounteredXml nullUnit (.point none 1))
  .request (.addDependency nullUnit (some someSymbol))
  .request (.putSynthetic (.unit nullUnit) (some someSymbol) (some taken))
  .request (.cacheTransformed nullUnit (some given) none)
  .request (.addCheck nullUnit ⟨"never", 0⟩)
  .runChecks nullUnit
  .request (.setTarget nullUnit (.point none 1))

theorem null_unit_after_changes :
    meddle.toProgram.Addresses nullUnit ∧ ∃ enough t,
      (∀ fuel, enough ≤ fuel → exec fuel meddle.toProgram (ready [] [fun _ => .raise (.raised .runtime "ran")]) = .ok () t) ∧
        t.state.view nullUnit = State.start.view nullUnit := by
  have addresses : meddle.toProgram.Addresses nullUnit := by
    simp [meddle, Action.toProgram, Action.request, Action.runChecks, bind, Program.Addresses, Request.Addresses,
      Request.unit?, CacheRef.unit?]
  obtain ⟨enough, t, ran, _, same⟩ := (null_unit_ignores_changes Unit).2.2
    (ready [] [fun _ => .raise (.raised .runtime "ran")]) meddle.toProgram (State.walks_refl State.start) addresses
  exact ⟨addresses, enough, t, ran, same⟩

end Session

end UnitRegistry
