import Mathlib.Data.List.Forall2
import UnitRegistry.Proofs.ColorCodes

set_option autoImplicit false

namespace UnitRegistry

open Text
open Console (Painted Uncolored withoutCodes painted_plain painted_flatten)

inductive Event.Recolored (stream : Stream) : Event → Event → Prop where
  | line {painted plain : Text} (codes : Painted painted plain) : Recolored stream (stream.event painted) (stream.event plain)
  | quiet (event : Event) (silent : event.isOutput = false) : Recolored stream event event

def Event.on? (stream : Stream) : Event → Option Text
  | .console label text => if stream = .named label then some text else none
  | .standardError text => if stream = .standardError then some text else none
  | _ => none

def State.written (s t : State) (stream : Stream) : List Text := (s.since t).filterMap (Event.on? stream)

theorem on_event (stream : Stream) (line : Text) : (stream.event line).on? stream = some (line ++ [lineFeed]) := by
  cases stream <;> simp [Stream.event, Event.on?]

theorem on_quiet (stream : Stream) {event : Event} (silent : event.isOutput = false) : event.on? stream = none := by
  cases event <;> first | rfl | cases silent

theorem written_painted {stream : Stream} {told shown : List Event} (recolored : List.Forall₂ (Event.Recolored stream) told shown) :
    List.Forall₂ Painted (told.filterMap (Event.on? stream)) (shown.filterMap (Event.on? stream)) := by
  induction recolored with
  | nil => exact .nil
  | cons first _ ih =>
      cases first with
      | line codes =>
          have ended : Painted [lineFeed] [lineFeed] := painted_plain (by decide)
          rw [List.filterMap_cons_some (on_event stream _), List.filterMap_cons_some (on_event stream _)]
          exact .cons (codes.append ended) ih
      | quiet event silent =>
          rw [List.filterMap_cons_none (on_quiet stream silent), List.filterMap_cons_none (on_quiet stream silent)]
          exact ih

theorem Store.modify_comm {α : Type} {f g : α → α} (commute : ∀ a, f (g a) = g (f a)) (s : Store α) (ref other : Nat) :
    (s.modify ref f).modify other g = (s.modify other g).modify ref f := by
  have same : ((s.items.modify ref f).modify other g) = ((s.items.modify other g).modify ref f) := by
    apply Array.ext_getElem?
    intro place
    rw [Array.getElem?_modify, Array.getElem?_modify, Array.getElem?_modify, Array.getElem?_modify]
    split
    · split
      · have both : g ∘ f = f ∘ g := funext fun a => (commute a).symm
        rw [Option.map_map, Option.map_map, both]
      · rfl
    · rfl
  exact congrArg Store.mk same

namespace Reporter

structure Colorless (f : Reporter → Reporter) : Prop where
  commutes : ∀ r : Reporter, (f r).setColors false = f (r.setColors false)
  console : ∀ (r : Reporter) stream colors, r.display = .console stream colors → (f r).display = .console stream colors

theorem colorless_record (entry : Entry) : Colorless (·.record entry) := by
  constructor
  · rintro ⟨display, counts, handler⟩
    cases display <;> rfl
  · rintro ⟨display, counts, handler⟩ stream colors rfl
    rfl

theorem colorless_record_remark (remark : Remark) : Colorless (·.recordRemark remark) := by
  constructor
  · rintro ⟨display, counts, handler⟩
    cases display <;> rfl
  · rintro ⟨display, counts, handler⟩ stream colors rfl
    rfl

theorem colorless_handler (handler : Option Handler) : Colorless ({ · with handler }) := by
  constructor
  · rintro ⟨display, counts, _⟩
    cases display <;> rfl
  · exact fun _ _ _ console => console

theorem colorless_reset : Colorless Reporter.reset := by
  constructor
  · rintro ⟨display, counts, handler⟩
    cases display <;> rfl
  · rintro ⟨display, counts, handler⟩ stream colors rfl
    rfl

end Reporter

namespace State

structure Twins (ref : ReporterRef) (stream : Stream) (base painted plain : State) : Prop where
  console : (painted.reporter ref).display = .console stream true
  same : plain = { painted with reporters := painted.reporters.modify ref (·.setColors false), journal := plain.journal }
  events : ∃ told shown, painted.journal.toList = base.journal.toList ++ told ∧
    plain.journal.toList = base.journal.toList ++ shown ∧ List.Forall₂ (Event.Recolored stream) told shown

section Twins

variable {ref : ReporterRef} {stream : Stream} {base s t : State} (twins : Twins ref stream base s t)
include twins

theorem plain_reporter : t.reporter ref = (s.reporter ref).setColors false := by
  have there : ref < s.reporters.size := by
    refine Nat.lt_of_not_le fun absent => ?_
    have console := twins.console
    rw [reporter, Store.get_of_size_le _ _ absent] at console
    cases console
  rw [twins.same, reporter, Store.get_modify_cases, if_pos ⟨rfl, there⟩, reporter]

theorem plain_console : (t.reporter ref).display = .console stream false := by
  rw [plain_reporter twins, Reporter.setColors, twins.console]

theorem plain_handler : (t.reporter ref).handler = (s.reporter ref).handler := by
  rw [plain_reporter twins, Reporter.setColors, twins.console]

theorem plain_options : t.options = s.options := by rw [twins.same]

theorem twins_emit {event event' : Event} (recolored : Event.Recolored stream event event') :
    Twins ref stream base (s.emit event) (t.emit event') := by
  obtain ⟨told, shown, painted, plain, each⟩ := twins.events
  constructor
  case console => exact twins.console
  case same => rw [emit, twins.same]; rfl
  case events =>
    refine ⟨told ++ [event], shown ++ [event'], ?_, ?_, List.rel_append each (.cons recolored .nil)⟩
    · rw [emit, Array.toList_push, painted, List.append_assoc]
    · rw [emit, Array.toList_push, plain, List.append_assoc]

theorem twins_modify (of : ReporterRef) {f : Reporter → Reporter} (colorless : Reporter.Colorless f) :
    Twins ref stream base (s.modifyReporter of f) (t.modifyReporter of f) := by
  constructor
  case console =>
    rw [reporter_modify]
    split
    · exact colorless.console _ stream true twins.console
    · exact twins.console
  case same =>
    rw [modifyReporter, twins.same, modifyReporter, Store.modify_comm fun r => (colorless.commutes r).symm]
  case events => exact twins.events

theorem twins_options (options : Options) : Twins ref stream base (s.setOptions options) (t.setOptions options) := by
  constructor
  case console => exact twins.console
  case same => rw [setOptions, twins.same]; rfl
  case events => exact twins.events

theorem twins_print {lines plain : List Text} (painted : List.Forall₂ Painted lines plain) :
    Twins ref stream base (s.print (some (stream, lines))) (t.print (some (stream, plain))) := by
  simp only [print]
  induction painted generalizing s t with
  | nil => exact twins
  | cons codes _ ih =>
      rw [List.foldl_cons, List.foldl_cons, print_line, print_line]
      exact ih (twins_emit twins (.line codes))

theorem twins_report_entry {entry : Entry} (clean : Uncolored entry.position entry.message) :
    Twins ref stream base (s.reportEntry ref entry) (t.reportEntry ref entry) := by
  have painted : (s.reporter ref).shown entry = some (stream, Console.entryLines true entry) := by
    rw [Reporter.shown, twins.console]
  have plain : (t.reporter ref).shown entry = some (stream, Console.entryLines false entry) := by
    rw [Reporter.shown, plain_console twins]
  rw [reportEntry, reportEntry, painted, plain]
  have printed := twins_print twins (Console.painted_entry clean)
  exact twins_emit (twins_modify printed ref (Reporter.colorless_record entry)) (.quiet _ rfl)

theorem twins_report_remark {remark : Remark} (clean : Uncolored remark.position remark.message) :
    Twins ref stream base (s.reportRemark ref remark) (t.reportRemark ref remark) := by
  have painted (verbose : Bool) : (s.reporter ref).shownRemark verbose remark =
      some (stream, Console.remarkLines verbose true remark) := by rw [Reporter.shownRemark, twins.console]
  have plain (verbose : Bool) : (t.reporter ref).shownRemark verbose remark =
      some (stream, Console.remarkLines verbose false remark) := by rw [Reporter.shownRemark, plain_console twins]
  rw [reportRemark, reportRemark, painted, plain, plain_options twins]
  have printed := twins_print twins (Console.painted_remark clean s.options.verbose)
  exact twins_modify printed ref (Reporter.colorless_record_remark remark)

-- The severity of a warning hangs on the options, which the two have in common.
theorem twins_report (kind : ReportKind) {remark : Remark} (clean : Uncolored remark.position remark.message) :
    Twins ref stream base (s.report ref kind remark) (t.report ref kind remark) := by
  have severity : t.warningSeverity = s.warningSeverity := by rw [warningSeverity, warningSeverity, plain_options twins]
  cases kind with
  | warning =>
      rw [report, report, severity]
      exact twins_report_entry twins clean
  | remark => exact twins_report_remark twins clean
  | _ => exact twins_report_entry twins clean

theorem twins_written : List.Forall₂ Painted (base.written s stream) (base.written t stream) := by
  obtain ⟨told, shown, painted, plain, each⟩ := twins.events
  rw [written, written, since_eq painted, since_eq plain]
  exact written_painted each

end Twins

end State

-- A program that does nothing but tell a reporter, exchange its handler, empty it and turn the switches. What it tells has no
-- escape byte in it, and what it does next may hang on data of its own, but not on how a console looks.
def Request.Tells (ref : ReporterRef) : Request → Prop
  | .report of _ remark => of = ref ∧ Uncolored remark.position remark.message
  | .setHandler _ _ => True
  | .resetReporter _ => True
  | .setOptions _ => True
  | _ => False

def Program.Tells {Data : Type} (ref : ReporterRef) : Program Data → Prop
  | .done => True
  | .raise _ => True
  | .attempt body next => body.Tells ref ∧ ∀ caught, (next caught).Tells ref
  | .own _ next => ∀ data, (next data).Tells ref
  | .act request next => request.Tells ref ∧ ∀ reply, (next reply).Tells ref
  | .incomplete of remark next => of = ref ∧ Uncolored remark.position remark.message ∧ next.Tells ref
  | _ => False

theorem State.twins_perform {ref : ReporterRef} {stream : Stream} {base s t : State} (twins : Twins ref stream base s t)
    {request : Request} (tells : request.Tells ref) :
    ∃ reply after after', s.perform request = .ok reply after ∧ t.perform request = .ok reply after' ∧
      Twins ref stream base after after' := by
  cases request with
  | report of kind remark =>
      obtain ⟨rfl, clean⟩ := tells
      exact ⟨_, _, _, rfl, rfl, twins_report twins kind clean⟩
  | setHandler of handler => exact ⟨_, _, _, rfl, rfl, twins_modify twins of (Reporter.colorless_handler handler)⟩
  | resetReporter of =>
      have emptied := twins_modify twins of Reporter.colorless_reset
      exact ⟨_, _, _, rfl, rfl, twins_emit emptied (.quiet (.reset of) rfl)⟩
  | setOptions options => exact ⟨_, _, _, rfl, rfl, twins_options twins options⟩
  | _ => exact tells.elim

namespace Session

variable {Data α β : Type} {ref : ReporterRef} {stream : Stream} {base : State}

def Tells (ref : ReporterRef) (x : Session Data) : Prop :=
  ∀ routine remark, Uncolored remark.position remark.message → (x.routines.get routine (.incomplete remark)).Tells ref

structure Twins (ref : ReporterRef) (stream : Stream) (base : State) (x y : Session Data) : Prop where
  state : State.Twins ref stream base x.state y.state
  routines : y.routines = x.routines
  data : y.data = x.data
  tells : x.Tells ref

inductive Together (ref : ReporterRef) (stream : Stream) (base : State) :
    EStateM.Result Stop (Session Data) α → EStateM.Result Stop (Session Data) α → Prop where
  | ok (value : α) {x y : Session Data} (twins : Twins ref stream base x y) : Together ref stream base (.ok value x) (.ok value y)
  | error (stop : Stop) {x y : Session Data} (twins : Twins ref stream base x y) :
      Together ref stream base (.error stop x) (.error stop y)

theorem together_written {a b : EStateM.Result Stop (Session Data) α} (together : Together ref stream base a b) :
    List.Forall₂ Painted (base.written (ending a).state stream) (base.written (ending b).state stream) ∧
      value? a = value? b ∧ stop? a = stop? b := by
  cases together with
  | ok value twins => exact ⟨State.twins_written twins.state, rfl, rfl⟩
  | error stop twins => exact ⟨State.twins_written twins.state, rfl, rfl⟩

def Blind (ref : ReporterRef) (stream : Stream) (base : State) (c : Exec Data α) : Prop :=
  ∀ x y, Twins ref stream base x y → Together ref stream base (c x) (c y)

theorem blind_pure (value : α) : Blind ref stream base (pure value : Exec Data α) := fun _ _ twins => .ok value twins

theorem blind_throw (stop : Stop) : Blind ref stream base (throw stop : Exec Data α) := fun _ _ twins => .error stop twins

theorem blind_bind {c : Exec Data α} {f : α → Exec Data β} (first : Blind ref stream base c)
    (second : ∀ value, Blind ref stream base (f value)) : Blind ref stream base (c >>= f) := by
  intro x y twins
  have together := first x y twins
  change Together ref stream base (EStateM.bind c f x) (EStateM.bind c f y)
  unfold EStateM.bind
  generalize c x = reached at together
  generalize c y = reached' at together
  cases together with
  | ok value after => exact second value _ _ after
  | error stop after => exact .error stop after

theorem blind_attempt {c : Exec Data Unit} (blind : Blind ref stream base c) : Blind ref stream base (attempt c) := by
  intro x y twins
  have together := blind x y twins
  unfold attempt
  generalize c x = reached at together
  generalize c y = reached' at together
  cases together with
  | ok value after => exact .ok none after
  | error stop after =>
      cases stop with
      | fault fault => exact .ok (some fault) after
      | exhausted => exact .error .exhausted after

theorem blind_own (change : Data → Data) : Blind ref stream base (own change) := by
  intro x y twins
  rw [own, own, twins.data]
  exact .ok _ ⟨twins.state, twins.routines, rfl, twins.tells⟩

theorem blind_perform {request : Request} (tells : request.Tells ref) :
    Blind ref stream base (perform request : Exec Data request.Reply) := by
  rintro ⟨s, routines, data⟩ ⟨t, routines', data'⟩ twins
  obtain ⟨reply, after, after', painted, plain, state⟩ := State.twins_perform twins.state tells
  simp only [perform, painted, plain]
  exact .ok reply ⟨state, twins.routines, twins.data, twins.tells⟩

-- The handler is the same for both, and what it does is known of the session only.
theorem blind_incomplete {call : Program Data → Exec Data Unit}
    (blindCall : ∀ program : Program Data, program.Tells ref → Blind ref stream base (call program)) {remark : Remark}
    (clean : Uncolored remark.position remark.message) : Blind ref stream base (incomplete call ref remark) := by
  intro x y twins
  have handlers := State.plain_handler twins.state
  cases installed : (x.state.reporter ref).handler with
  | none =>
      rw [incomplete_none call ref remark x installed, incomplete_none call ref remark y (handlers.trans installed)]
      exact .ok () ⟨State.twins_report twins.state .error clean, twins.routines, twins.data, twins.tells⟩
  | some handler =>
      rw [incomplete_some call ref remark x handler installed, incomplete_some call ref remark y handler (handlers.trans installed),
        twins.routines]
      have started := State.twins_emit twins.state (.quiet (.handlerStarted ref handler remark) rfl)
      exact blindCall _ (twins.tells handler.routine remark clean) _ _ ⟨started, rfl, twins.data, twins.tells⟩

-- A handler gets less fuel than the call that it takes, so the induction is on the fuel.
theorem blind_exec (fuel : Nat) (program : Program Data) (tells : program.Tells ref) :
    Blind ref stream base (exec fuel program) := by
  induction fuel generalizing program with
  | zero => exact blind_throw _
  | succ fuel ih =>
      cases program with
      | done => exact blind_pure ()
      | raise fault => exact blind_throw _
      | attempt body next => exact blind_bind (blind_attempt (ih body tells.1)) fun caught => ih _ (tells.2 caught)
      | own change next => exact blind_bind (blind_own change) fun data => ih _ (tells data)
      | act request next => exact blind_bind (blind_perform tells.1) fun reply => ih _ (tells.2 reply)
      | incomplete of remark next =>
          obtain ⟨rfl, clean, later⟩ := tells
          exact blind_bind (blind_incomplete ih clean) fun _ => ih next later
      | _ => exact tells.elim

def withoutColors (x : Session Data) (ref : ReporterRef) : Session Data :=
  { x with state := x.state.modifyReporter ref (·.setColors false) }

theorem colors_add_codes (x : Session Data) (console : (x.state.reporter ref).display = .console stream true)
    (handlers : x.Tells ref) (program : Program Data) (tells : program.Tells ref) (limit : Nat) :
    let painted := exec limit program x
    let plain := exec limit program (x.withoutColors ref)
    withoutCodes (x.state.written (ending painted).state stream).flatten = (x.state.written (ending plain).state stream).flatten ∧
      (x.state.written (ending painted).state stream).map withoutCodes = x.state.written (ending plain).state stream ∧
      value? painted = value? plain ∧ stop? painted = stop? plain := by
  intro painted plain
  have start : Twins ref stream x.state x (x.withoutColors ref) :=
    ⟨⟨console, rfl, [], [], (List.append_nil _).symm, (List.append_nil _).symm, .nil⟩, rfl, rfl, handlers⟩
  obtain ⟨written, values, stops⟩ := together_written (blind_exec limit program tells x _ start)
  refine ⟨(painted_flatten written).without_codes, ?_, values, stops⟩
  have pieces := written.imp fun _ _ codes => codes.without_codes
  rwa [← List.forall₂_map_left_iff, List.forall₂_eq_eq_eq] at pieces

def prompt : Cause → Program Unit
  | .incomplete remark => .act (.report 1 .remark remark) fun _ => .done
  | _ => .done

def paintingConsole : Session Unit :=
  ready [.addReporter (.console (.named "out") true), .setHandler 1 (some ⟨"prompt", 0⟩), .setOptions { verbose := true }] [prompt]

def lastByte : Position := .range (some ⟨7, .ofText "val x = 1\nval y = \x7b" "A.scala"⟩) 18 19

def unfinished : Program Unit :=
  .act (.report 1 .echo ⟨.nowhere, "2 lines"⟩) fun _ => .act (.report 1 .warning ⟨lastByte, "unused value"⟩) fun _ =>
    .incomplete 1 ⟨lastByte, "unclosed block"⟩ .done

theorem prompt_tells : paintingConsole.Tells 1 := by
  intro routine remark clean
  cases routine with
  | zero => exact ⟨⟨rfl, clean⟩, fun _ => trivial⟩
  | succ later =>
      have absent : paintingConsole.routines.size ≤ later + 1 := Nat.succ_le_succ (Nat.zero_le later)
      rw [Store.get_of_size_le _ _ absent]
      trivial

theorem colors_of_prompted_console :
    let plain := ending (exec 9 unfinished (paintingConsole.withoutColors 1))
    let painted := ending (exec 9 unfinished paintingConsole)
    let seen : List Text := ["2 lines", "warning: unused value", "  --> A.scala:2:9", "   |", " 2 | val y = \x7b", "   |         ^", "   |",
      "[comment] A.scala:2:9: unclosed block"]
    ((paintingConsole.state.reporter 1).display = .console (.named "out") true ∧ paintingConsole.Tells 1 ∧ unfinished.Tells 1) ∧
      paintingConsole.state.written plain.state (.named "out") = seen.map (· ++ [lineFeed]) ∧
      (paintingConsole.state.written painted.state (.named "out")).map withoutCodes = seen.map (· ++ [lineFeed]) ∧
      withoutCodes (paintingConsole.state.written painted.state (.named "out")).flatten =
        (paintingConsole.state.written plain.state (.named "out")).flatten := by
  intro plain painted seen
  have console : (paintingConsole.state.reporter 1).display = .console (.named "out") true := by decide +kernel
  have clean (message : Text) (free : escape ∉ message) : Uncolored lastByte message := by
    refine ⟨free, fun ref source => ?_⟩
    cases source
    exact ⟨by decide, by decide⟩
  have bare : Uncolored .nowhere "2 lines" := ⟨by decide, fun _ source => by cases source⟩
  have tells : unfinished.Tells 1 :=
    ⟨⟨rfl, bare⟩, fun _ => ⟨⟨rfl, clean _ (by decide)⟩, fun _ => ⟨rfl, clean _ (by decide), trivial⟩⟩⟩
  have shown : paintingConsole.state.written plain.state (.named "out") = seen.map (· ++ [lineFeed]) := by decide +kernel
  obtain ⟨whole, pieces, -⟩ := colors_add_codes paintingConsole console prompt_tells unfinished tells 9
  exact ⟨⟨console, prompt_tells, tells⟩, shown, pieces.trans shown, whole⟩

end Session

end UnitRegistry
