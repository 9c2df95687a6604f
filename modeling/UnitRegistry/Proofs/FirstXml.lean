import UnitRegistry.Proofs.NullUnit

set_option autoImplicit false

namespace UnitRegistry

def Step.xml? (unit : UnitRef) : Step → Option Position
  | .request (.encounteredXml of position) => if some of = some unit then some position else none
  | _ => none

def xmlPositions (unit : UnitRef) (steps : List Step) : List Position := steps.filterMap (Step.xml? unit)

theorem Step.xml_none {unit : UnitRef} {step : Step}
    (other : ∀ position, step ≠ .request (.encounteredXml unit position)) : step.xml? unit = none := by
  cases step with
  | request request =>
      cases request with
      | encounteredXml of position =>
          refine if_neg fun named => ?_
          cases named
          exact other position rfl
      | _ => rfl
  | _ => rfl

theorem xml_positions_snoc (unit : UnitRef) (steps : List Step) (step : Step) :
    xmlPositions unit (steps ++ [step]) = xmlPositions unit steps ++ (step.xml? unit).toList := by
  rw [xmlPositions, List.filterMap_append]
  cases found : step.xml? unit <;> simp [xmlPositions, found]

def Rejected (positions : List Position) (position : Position) : Prop :=
  position.isDefined = false ∨ ∃ earlier ∈ positions, earlier.isDefined = true

def firstDefined (positions : List Position) : Position := (positions.find? Position.isDefined).getD .nowhere

theorem first_defined_here {earlier later : List Position} {position : Position}
    (before : ∀ other ∈ earlier, other.isDefined = false) (defined : position.isDefined = true) :
    firstDefined (earlier ++ position :: later) = position := by
  have none : earlier.find? Position.isDefined = Option.none := List.find?_eq_none.mpr fun other member => by
    simp [before other member]
  rw [firstDefined, List.find?_append, none, Option.none_or, List.find?_cons_of_pos defined, Option.getD_some]

theorem first_defined_none {positions : List Position} (before : ∀ other ∈ positions, other.isDefined = false) :
    firstDefined positions = .nowhere := by
  have none : positions.find? Position.isDefined = Option.none := List.find?_eq_none.mpr fun other member => by
    simp [before other member]
  rw [firstDefined, none, Option.getD_none]

theorem first_defined_iff (positions : List Position) :
    (firstDefined positions).isDefined = true ↔ ∃ position ∈ positions, position.isDefined = true := by
  rw [← List.find?_isSome, firstDefined]
  cases found : positions.find? Position.isDefined with
  | none => exact iff_of_false Bool.false_ne_true Bool.false_ne_true
  | some position => exact iff_of_true (List.find?_some found) rfl

theorem first_defined_snoc (positions : List Position) (position : Position) :
    firstDefined (positions ++ [position]) =
      if (firstDefined positions).isDefined ∨ position.isDefined = false then firstDefined positions else position := by
  cases found : positions.find? Position.isDefined with
  | some first =>
      have same : firstDefined positions = first := by rw [firstDefined, found, Option.getD_some]
      have defined : first.isDefined = true := List.find?_some found
      rw [firstDefined, List.find?_append, found, Option.some_or, Option.getD_some, same, if_pos (.inl defined)]
  | none =>
      have none : firstDefined positions = .nowhere := by rw [firstDefined, found, Option.getD_none]
      rw [firstDefined, List.find?_append, found, Option.none_or, none]
      cases defined : position.isDefined with
      | false => simp [defined]
      | true =>
          rw [List.find?_cons_of_pos defined, Option.getD_some]
          exact (if_neg (by simp [Position.isDefined, Position.nowhere])).symm

namespace CompilationUnit

def xmlFault (u : CompilationUnit) (position : Position) : Fault :=
  if position.isDefined then .repeatedXml u.render u.firstXml.render else .undefinedXml u.render

theorem xml_fault_logic (u : CompilationUnit) (position : Position) : (u.xmlFault position).kind = .logic := by
  unfold xmlFault
  split <;> rfl

structure ShowsXml (positions : List Position) (u : CompilationUnit) : Prop where
  before : (∀ position ∈ positions, position.isDefined = false) → u.firstXml = .nowhere ∧ u.hasXml = false
  after : ∀ earlier position later, positions = earlier ++ position :: later → (∀ other ∈ earlier, other.isDefined = false) →
    position.isDefined = true → u.firstXml = position ∧ u.hasXml = true

structure RemembersXml (positions : List Position) (u : CompilationUnit) : Prop where
  own : u.sentinel = false
  first : u.firstXml = firstDefined positions

theorem shows_of_remembers {positions : List Position} {u : CompilationUnit} (remembers : RemembersXml positions u) :
    ShowsXml positions u := by
  constructor
  · intro none
    have nowhere := remembers.first.trans (first_defined_none none)
    exact ⟨nowhere, by rw [hasXml, nowhere]; rfl⟩
  · rintro earlier position later rfl before defined
    have here := remembers.first.trans (first_defined_here before defined)
    exact ⟨here, by rw [hasXml, here, defined]⟩

theorem encountered_xml_own (u : CompilationUnit) (position : Position) (own : u.sentinel = false) :
    u.encounteredXml position =
      if u.hasXml ∨ position.isDefined = false then .error (u.xmlFault position) else .ok { u with firstXml := position } := by
  cases defined : position.isDefined <;> cases known : u.hasXml <;> simp [encounteredXml, xmlFault, own, defined, known]

theorem rejected_iff {positions : List Position} {u : CompilationUnit} (remembers : RemembersXml positions u)
    (position : Position) : u.hasXml = true ∨ position.isDefined = false ↔ Rejected positions position := by
  rw [Rejected, or_comm, hasXml, remembers.first, first_defined_iff]

theorem step_remembers_xml {unit : UnitRef} {steps : List Step} {u : CompilationUnit} (empty : NodeRef) (step : Step)
    (remembers : RemembersXml (xmlPositions unit steps) u) :
    RemembersXml (xmlPositions unit (steps ++ [step])) (u.step unit empty step) := by
  rw [xml_positions_snoc]
  obtain ⟨request, rfl, named, changed⟩ | ⟨check, rfl, dropped⟩ | ⟨unnamed, _, same⟩ := step_cases unit empty u step
  · rw [changed]
    refine ⟨(changed_source (change_changed u empty request)).2.trans remembers.own, ?_⟩
    by_cases calls : ∃ of position, request = .encounteredXml of position
    · obtain ⟨of, position, rfl⟩ := calls
      cases named
      have given : (Step.request (.encounteredXml unit position)).xml? unit = some position := if_pos rfl
      rw [change, encountered_xml_own u position remembers.own, given, Option.toList_some, first_defined_snoc,
        ← remembers.first]
      change _ = if u.hasXml = true ∨ position.isDefined = false then u.firstXml else position
      by_cases refused : u.hasXml = true ∨ position.isDefined = false
      · rw [if_pos refused, if_pos refused]
        rfl
      · rw [if_neg refused, if_neg refused]
        rfl
    · have none : (Step.request request).xml? unit = Option.none :=
        Step.xml_none fun position asked => calls ⟨unit, position, Step.request.inj asked⟩
      rw [none, Option.toList_none, List.append_nil, ← remembers.first]
      exact changed_first_xml (change_changed u empty request) fun of position asked => calls ⟨of, position, asked⟩
  · rw [dropped]
    refine ⟨remembers.own, ?_⟩
    rw [Step.xml_none fun _ => Step.noConfusion, Option.toList_none, List.append_nil]
    exact remembers.first
  · have none : step.xml? unit = Option.none := Step.xml_none fun position asked => unnamed _ asked rfl
    rw [same, none, Option.toList_none, List.append_nil]
    exact remembers

end CompilationUnit

namespace State

variable {s : State} {unit : UnitRef}

theorem modify_unit_congr (s : State) (unit : UnitRef) {f g : CompilationUnit → CompilationUnit}
    (same : f (s.unit unit) = g (s.unit unit)) : s.modifyUnit unit f = s.modifyUnit unit g := by
  rw [modifyUnit, modifyUnit, Store.modify_congr s.units unit same]

structure AnswersXml (unit : UnitRef) (positions : List Position) (s : State) (position : Position) : Prop where
  accepted : ¬ Rejected positions position →
    s.perform (.encounteredXml unit position) = .ok () (s.modifyUnit unit ({ · with firstXml := position }))
  rejected : Rejected positions position →
    s.perform (.encounteredXml unit position) = .error ((s.unit unit).xmlFault position) s

theorem answers_xml {positions : List Position} (remembers : (s.unit unit).RemembersXml positions) (position : Position) :
    s.AnswersXml unit positions position := by
  have answer := CompilationUnit.encountered_xml_own (s.unit unit) position remembers.own
  have late := CompilationUnit.rejected_iff remembers position
  constructor
  · intro fits
    rw [if_neg (fits ∘ late.mp)] at answer
    have same : s.modifyUnit unit (fun _ => { s.unit unit with firstXml := position }) =
        s.modifyUnit unit ({ · with firstXml := position }) :=
      modify_unit_congr s unit rfl
    simp only [perform, encounteredXml, answer, same]
  · intro rejected
    rw [if_pos (late.mpr rejected)] at answer
    simp only [perform, encounteredXml, answer]

theorem walk_remembers_xml {bars : Drive → RunRef → Prop} {t : State} {steps : List Step} (own : (s.unit unit).sentinel = false)
    (new : (s.unit unit).firstXml = .nowhere) (walk : s.Walk bars steps t) :
    (t.unit unit).RemembersXml (xmlPositions unit steps) := by
  have start : (s.unit unit).RemembersXml (xmlPositions unit []) := ⟨own, new⟩
  refine unit_walk (fun steps => CompilationUnit.RemembersXml (xmlPositions unit steps)) (there_of_own s unit own) start ?_ walk
  intro steps u empty step before _
  exact CompilationUnit.step_remembers_xml empty step before

theorem body_text_eq (s : State) (unit : UnitRef) :
    s.bodyText unit =
      if (s.unit unit).sentinel then (Heap.tree (s.heap.push {}) (some s.heap.size)).render
      else (s.heap.tree (some (s.unit unit).body)).render := by
  cases sentinel : (s.unit unit).sentinel <;> simp only [bodyText, body, sentinel] <;> rfl

theorem view_start_check (of : UnitRef) (check : Check) (rest : List Check) (queued : (s.unit of).checks = check :: rest) :
    (s.take (.startCheck of check)).view unit =
      if of = unit then { s.view unit with pendingChecks := rest.length } else s.view unit := by
  have there := present_of_queued s of (by simp [queued])
  have dropped : (s.take (.startCheck of check)).unit unit =
      if of = unit then (s.unit unit).dropCheck else s.unit unit := by
    change (s.modifyUnit of CompilationUnit.dropCheck).unit unit = _
    rw [unit_modify]
    simp only [there, and_true]
  have heap : (s.take (.startCheck of check)).heap = s.heap := rfl
  by_cases same : of = unit
  · subst same
    rw [if_pos rfl] at dropped
    have text : (s.take (.startCheck of check)).bodyText of = s.bodyText of := by
      rw [body_text_eq, body_text_eq, dropped, heap]
      rfl
    have left : (s.unit of).dropCheck.checks.length = rest.length := by rw [CompilationUnit.dropCheck, queued, List.tail_cons]
    rw [if_pos rfl]
    simp only [view, text, getSynthetic, cache, dropped, heap, left]
    rfl
  · rw [if_neg same] at dropped
    have text : (s.take (.startCheck of check)).bodyText unit = s.bodyText unit := by
      rw [body_text_eq, body_text_eq, dropped, heap]
    rw [if_neg same]
    simp only [view, text, getSynthetic, cache, dropped, heap]

end State

namespace Session

open State (nobody)

variable {Data : Type} {unit : UnitRef}

theorem exec_act_error (request : Request) (next : request.Reply → Program Data) (x : Session Data) (fault : Fault)
    (after : State) (faulted : x.state.perform request = .error fault after) (limit : Nat) :
    exec (limit + 1) (.act request next) x = .error (.fault fault) x := by
  rw [State.eq_of_perform_error x.state after request fault faulted] at faulted
  have stopped : perform request x = .error (.fault fault) x := by simp only [perform, faulted]
  exact (bind_error _ _ x x _).mpr (.inl stopped)

theorem run_checks_throws (call : Program Data → Exec Data Unit) (of : UnitRef) (x t : Session Data) (fuel : Nat)
    (check : Check) (rest : List Check) (queued : (x.state.unit of).checks = check :: rest) (fault : Fault)
    (thrown : call (x.routines.get check.routine (.check of)) (x.startCheck of check) = .error (.fault fault) t) :
    runChecks call (fuel + 1) of x = .error (.fault fault) t := by
  rw [run_checks_next call of x fuel check rest queued]
  exact (bind_error _ _ _ t _).mpr (.inl thrown)

structure Consumed (of : UnitRef) (check : Check) (rest : List Check) (x t : Session Data) : Prop where
  queue : ∃ later, (x.startCheck of check).state.Walk nobody later t.state ∧
    rest ++ registrations of later = starts of later ++ (t.state.unit of).checks
  start : ∀ unit, (x.startCheck of check).state.view unit =
    if of = unit then { x.state.view unit with pendingChecks := rest.length } else x.state.view unit

theorem consumed_of_thrown {limit : Nat} {of : UnitRef} {check : Check} {rest : List Check} {x t : Session Data}
    {fault : Fault} (own : (x.state.unit of).sentinel = false) (queued : (x.state.unit of).checks = check :: rest)
    (thrown : exec limit (x.routines.get check.routine (.check of)) (x.startCheck of check) = .error (.fault fault) t) :
    Consumed of check rest x t := by
  have begins : x.state.Walks nobody (x.startCheck of check).state := start_check_walks x of check rest queued
  obtain ⟨_, starting⟩ := begins
  obtain ⟨later, running⟩ := walks_of_error (walking_exec limit _) thrown
  have queue := (State.walk_passes of (State.walk_passes of own starting).own running).queue
  rw [start_check_queue x of check rest queued] at queue
  exact ⟨⟨later, running, queue⟩, fun unit => State.view_start_check of check rest queued⟩

structure RejectsXml (unit : UnitRef) (position : Position) (x : Session Data) : Prop where
  logic : ((x.state.unit unit).xmlFault position).kind = .logic
  stops : ∀ limit next, exec (limit + 1) (.act (.encounteredXml unit position) next) x =
    .error (.fault ((x.state.unit unit).xmlFault position)) x

-- Steps go on after a fault, as they do for an embedding that catches it, so the first part is about all that can happen
-- between two calls, in checks and outside. The last part is about a fault that nobody catches.
theorem first_xml_written_once (Data : Type) (unit : UnitRef) (s : State) (own : (s.unit unit).sentinel = false)
    (new : (s.unit unit).firstXml = .nowhere) :
    (∀ steps m, s.Walk nobody steps m → (m.unit unit).ShowsXml (xmlPositions unit steps) ∧
      ∀ position, m.AnswersXml unit (xmlPositions unit steps) position) ∧
    (∀ limit (program : Program Data), Walking (exec limit program)) ∧
    ∀ (x : Session Data) steps, s.Walk nobody steps x.state →
      (∀ position, Rejected (xmlPositions unit steps) position → RejectsXml unit position x) ∧
      ∀ of check rest limit fuel fault t, (x.state.unit of).sentinel = false → (x.state.unit of).checks = check :: rest →
        exec limit (x.routines.get check.routine (.check of)) (x.startCheck of check) = .error (.fault fault) t →
        runChecks (exec limit) (fuel + 1) of x = .error (.fault fault) t ∧ Consumed of check rest x t := by
  refine ⟨fun steps m walk => ?_, walking_exec, fun x steps walk => ⟨fun position rejected => ?_, ?_⟩⟩
  · have remembers := State.walk_remembers_xml own new walk
    exact ⟨CompilationUnit.shows_of_remembers remembers, State.answers_xml remembers⟩
  · have answers := State.answers_xml (State.walk_remembers_xml own new walk) position
    exact ⟨CompilationUnit.xml_fault_logic _ position,
      fun limit next => exec_act_error _ next x _ _ (answers.rejected rejected) limit⟩
  · intro of check rest limit fuel fault t there queued thrown
    exact ⟨run_checks_throws (exec limit) of x t fuel check rest queued fault thrown,
      consumed_of_thrown there queued thrown⟩

def firstPlace : Position := .point (some sourceA) 0

def laterPlace : Position := .point (some sourceB) 0

def xmlCheck : Check := ⟨"recall", 0⟩

def repeating : Cause → Program Unit
  | .check unit => .act (.encounteredXml unit laterPlace) fun _ => .done
  | _ => .done

def xmlUnit : Session Unit := ready [.addUnit (some sourceA) 0] [repeating]

def xmlRequests : List Request := [.encounteredXml 1 .nowhere, .encounteredXml 1 firstPlace, .addCheck 1 xmlCheck]

def xmlSession : Session Unit :=
  { xmlUnit with state := xmlRequests.foldl (fun s request => ending (s.perform request)) xmlUnit.state }

theorem second_xml_in_check :
    let failed := xmlSession.startCheck 1 xmlCheck
    (∃ fault, runChecks (exec 9) 9 1 xmlSession = .error (.fault fault) failed ∧ fault.kind = .logic) ∧
      failed.state.view 1 = { xmlSession.state.view 1 with pendingChecks := 0 } ∧
      (failed.state.unit 1).firstXml = firstPlace := by
  intro failed
  obtain ⟨moments, _, sessions⟩ :=
    first_xml_written_once Unit 1 xmlUnit.state (by decide +kernel) (by decide +kernel)
  have walk : xmlUnit.state.Walk nobody (xmlRequests.map .request) xmlSession.state := State.requests_walk _ _
  have queued : (xmlSession.state.unit 1).checks = [xmlCheck] := by decide +kernel
  have allowed : xmlSession.state.Allows nobody (.startCheck 1 xmlCheck) := by rw [State.Allows, queued, List.head?_cons]
  have started : xmlUnit.state.Walk nobody _ failed.state := .next walk (.startCheck 1 xmlCheck) allowed
  have calls : xmlPositions 1 (xmlRequests.map .request ++ [.startCheck 1 xmlCheck]) = [.nowhere, firstPlace] := by decide
  have late : Rejected [.nowhere, firstPlace] laterPlace := .inr ⟨firstPlace, by simp, by decide⟩
  rw [← calls] at late
  have rejects := (sessions failed _ started).1 laterPlace late
  obtain ⟨thrown, consumed⟩ := (sessions xmlSession _ walk).2 1 xmlCheck [] 9 8 _ failed (by decide +kernel) queued
    (rejects.stops 8 fun _ => .done)
  refine ⟨⟨_, thrown, rejects.logic⟩, consumed.start 1, ?_⟩
  have shows := (moments _ failed.state started).1
  rw [calls] at shows
  exact (shows.after [.nowhere] firstPlace [] rfl (by decide) (by decide)).1

end Session

end UnitRegistry
