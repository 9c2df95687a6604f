import UnitRegistry.Proofs.Apart
import UnitRegistry.Proofs.Deliveries

set_option autoImplicit false

namespace UnitRegistry

def State.entry? (s : State) (remark : Remark) : ReportKind → Option Entry
  | .echo => some ⟨.info, remark.position, remark.message⟩
  | .warning => some (s.warned remark)
  | .error => some ⟨.error, remark.position, remark.message⟩
  | .remark => none

def State.sent (s : State) : Request → List (ReporterRef × Entry)
  | .report receiver kind remark => (s.entry? remark kind).toList.map (receiver, ·)
  | .warn ref remark => s.passed ref remark
  | .summarize ref => s.stated ref
  | .summarizeWarnings context => Category.all.flatMap fun category => s.stated (.category context category)
  | .emission context (.report kind) remark => (s.entry? remark kind).toList.map ((s.context context).reporter, ·)
  | .emission context (.categorized category) remark => s.passed (.category context category) remark
  | _ => []

def Step.resets (ref : ReporterRef) : Step → Bool
  | .request (.resetReporter of) => of == ref
  | _ => false

def State.heard (s : State) (ref : ReporterRef) : Step → List Entry
  | .request request => received ref (s.sent request)
  | _ => []

def State.hear (s : State) (ref : ReporterRef) (told : List Entry) (step : Step) : List Entry :=
  if step.resets ref then [] else told ++ s.heard ref step

-- The steps are taken again, and what each of them says depends on the moment at which it is taken.
def State.tellStep (ref : ReporterRef) (m : State × List Entry) (step : Step) : State × List Entry :=
  (m.1.take step, m.1.hear ref m.2 step)

def State.told (s : State) (ref : ReporterRef) (before : List Entry) (steps : List Step) : List Entry :=
  (steps.foldl (State.tellStep ref) (s, before)).2

namespace Reporter

structure Stores (told : List Entry) (r : Reporter) : Prop where
  display : ∃ remarks, r.display = .store told.toArray remarks
  count : ∀ severity, r.count severity = (told.filter (·.severity == severity)).length

variable {told : List Entry} {r : Reporter}

theorem stores_new : ({ display := .store #[] #[] } : Reporter).Stores [] :=
  ⟨⟨#[], rfl⟩, fun severity => by cases severity <;> rfl⟩

theorem stores_of_takes {entries : List Entry} {q : Reporter} (stores : r.Stores told) (takes : r.Takes entries q) :
    q.Stores (told ++ entries) := by
  obtain ⟨remarks, display⟩ := stores.display
  constructor
  · exact ⟨remarks, by simp [takes.kept _ remarks display]⟩
  · intro severity
    rw [takes.count, stores.count, List.filter_append, List.length_append]

theorem stores_record_remark (stores : r.Stores told) (remark : Remark) : (r.recordRemark remark).Stores told := by
  obtain ⟨remarks, display⟩ := stores.display
  have same : r.recordRemark remark = { r with display := .store told.toArray (remarks.push remark) } := by
    rw [recordRemark, display]
  rw [same]
  exact ⟨⟨_, rfl⟩, stores.count⟩

theorem stores_set_colors (stores : r.Stores told) (colors : Bool) : (r.setColors colors).Stores told := by
  obtain ⟨remarks, display⟩ := stores.display
  have same : r.setColors colors = r := by rw [setColors, display]
  rwa [same]

theorem stores_handler (stores : r.Stores told) (handler : Option Handler) : ({ r with handler } : Reporter).Stores told :=
  ⟨stores.display, stores.count⟩

theorem stores_reset (stores : r.Stores told) : r.reset.Stores [] := by
  obtain ⟨remarks, display⟩ := stores.display
  exact ⟨⟨#[], by simp [reset, display]⟩, fun severity => by cases severity <;> rfl⟩

theorem stores_entries (stores : r.Stores told) : r.entries = told := by
  obtain ⟨remarks, display⟩ := stores.display
  simp [entries, display]

end Reporter

structure Store.Remembers (ref : ReporterRef) (told : List Entry) (reporters : Store Reporter) : Prop where
  there : ref < reporters.size
  stores : (reporters.get ref).Stores told

namespace Store

variable {ref : ReporterRef} {told : List Entry} {reporters : Store Reporter}

theorem remembers_push (remembers : reporters.Remembers ref told) (other : Reporter) : (reporters.push other).Remembers ref told := by
  constructor
  · simpa using Nat.lt_succ_of_lt remembers.there
  rw [get_push_of_ne reporters other ref (Nat.ne_of_lt remembers.there)]
  exact remembers.stores

theorem remembers_modify (remembers : reporters.Remembers ref told) (of : ReporterRef) (f : Reporter → Reporter)
    (keeps : ∀ r : Reporter, r.Stores told → (f r).Stores told) : (reporters.modify of f).Remembers ref told := by
  constructor
  · simpa using remembers.there
  rw [get_modify_cases]
  split
  · exact keeps _ remembers.stores
  · exact remembers.stores

theorem remembers_reset (remembers : reporters.Remembers ref told) (of : ReporterRef) :
    (reporters.modify of Reporter.reset).Remembers ref (if of == ref then [] else told) := by
  constructor
  · simpa using remembers.there
  rw [get_modify_cases]
  by_cases same : of = ref
  · subst same
    rw [beq_self_eq_true, if_pos rfl, if_pos ⟨rfl, remembers.there⟩]
    exact Reporter.stores_reset remembers.stores
  · rw [beq_false_of_ne same, if_neg Bool.false_ne_true, if_neg fun both => same both.1]
    exact remembers.stores

theorem remembers_delivered (sent : List (ReporterRef × Entry)) (remembers : reporters.Remembers ref told) :
    (sent.foldl deliver reporters).Remembers ref (told ++ received ref sent) := by
  constructor
  · rw [size_delivered]
    exact remembers.there
  · exact Reporter.stores_of_takes remembers.stores (takes_delivered ref sent reporters remembers.there)

end Store

namespace State

section Reports

variable (s : State)

theorem report_remark_reporters (ref : ReporterRef) (remark : Remark) :
    (s.reportRemark ref remark).reporters = s.reporters.modify ref (·.recordRemark remark) := by
  have printed := outputs_reporters (print_outputs s ((s.reporter ref).shownRemark s.options.verbose remark))
  change (State.reporters (print s _)).modify ref _ = _
  rw [printed]

theorem report_reporters (receiver : ReporterRef) (kind : ReportKind) (remark : Remark) (entry : Entry)
    (comes : s.entry? remark kind = some entry) :
    (s.report receiver kind remark).reporters = s.reporters.deliver (receiver, entry) := by
  cases kind with
  | remark => cases comes
  | _ =>
      cases comes
      exact report_entry_reporters s receiver _

end Reports

section Hearing

variable {s : State} {ref : ReporterRef} {told : List Entry} (remembers : s.reporters.Remembers ref told)
include remembers

theorem remembers_report (receiver : ReporterRef) (kind : ReportKind) (remark : Remark) :
    (s.report receiver kind remark).reporters.Remembers ref
      (told ++ received ref ((s.entry? remark kind).toList.map (receiver, ·))) := by
  cases comes : s.entry? remark kind with
  | none =>
      have noted : kind = .remark := by cases kind <;> first | rfl | cases comes
      subst noted
      rw [report, report_remark_reporters]
      simpa [received] using Store.remembers_modify remembers receiver _ fun r stores => Reporter.stores_record_remark stores remark
  | some entry =>
      rw [report_reporters s receiver kind remark entry comes]
      exact Store.remembers_delivered [(receiver, entry)] remembers

theorem remembers_sent (request : Request) (clears : ∀ of, request ≠ .resetReporter of) :
    (ending (s.perform request)).reporters.Remembers ref (told ++ received ref (s.sent request)) := by
  have adjusted (of : ReporterRef) (f : Reporter → Reporter) (keeps : ∀ r : Reporter, r.Stores told → (f r).Stores told) :
      (s.reporters.modify of f).Remembers ref (told ++ received ref []) := by
    rw [received, List.filterMap_nil, List.append_nil]
    exact Store.remembers_modify remembers of f keeps
  have delivered {t : State} {sent : List (ReporterRef × Entry)} (same : t.reporters = sent.foldl Store.deliver s.reporters) :
      t.reporters.Remembers ref (told ++ received ref sent) := by
    rw [same]
    exact Store.remembers_delivered sent remembers
  cases request with
  | resetReporter of => exact absurd rfl (clears of)
  | addReporter display =>
      change (s.reporters.push _).Remembers ref (told ++ [])
      rw [List.append_nil]
      exact Store.remembers_push remembers _
  | setColors of colors => exact adjusted of _ fun r stores => Reporter.stores_set_colors stores colors
  | setHandler of handler => exact adjusted of _ fun r stores => Reporter.stores_handler stores handler
  | report receiver kind remark => exact remembers_report remembers receiver kind remark
  | warn acc remark => exact delivered (warn_reporters s acc remark)
  | summarize acc => exact delivered (summarize_reporters s acc)
  | summarizeWarnings context =>
      rw [perform, ending_ok]
      exact delivered (summarize_warnings_reporters s context)
  | emission context kind remark =>
      cases kind with
      | report kind => exact remembers_report remembers _ kind remark
      | categorized category => exact delivered (warn_reporters s _ remark)
  | _ => exact delivered (perform_reporters s _ rfl)

theorem remembers_hear (step : Step) : (s.take step).reporters.Remembers ref (s.hear ref told step) := by
  have quiet {t : State} (same : t.reporters = s.reporters) : t.reporters.Remembers ref (told ++ []) := by
    rw [same, List.append_nil]
    exact remembers
  cases step with
  | request request =>
      by_cases clears : ∃ of, request = .resetReporter of
      · obtain ⟨of, rfl⟩ := clears
        have reset := Store.remembers_reset remembers of
        change (s.reporters.modify of Reporter.reset).Remembers ref _
        simpa [hear, Step.resets, heard, sent, received] using reset
      · have keeps : (Step.request request).resets ref = false := by
          cases request with
          | resetReporter of => exact absurd ⟨of, rfl⟩ clears
          | _ => rfl
        rw [hear, keeps, if_neg Bool.false_ne_true]
        exact remembers_sent remembers request fun of same => clears ⟨of, same⟩
  | completeRun run units => exact quiet (complete_run_apart s run units).reporters
  | _ => exact quiet rfl

end Hearing

theorem tell_walk {bars : Drive → RunRef → Prop} {s t : State} {steps : List Step} (ref : ReporterRef) (before : List Entry)
    (walk : s.Walk bars steps t) : steps.foldl (tellStep ref) (s, before) = (t, s.told ref before steps) := by
  induction walk with
  | start => rfl
  | next _ step _ ih => rw [told, List.foldl_append, ih, List.foldl_cons, List.foldl_nil, tellStep]

theorem walk_remembers {bars : Drive → RunRef → Prop} {s t : State} {steps : List Step} {ref : ReporterRef} {before : List Entry}
    (remembers : s.reporters.Remembers ref before) (walk : s.Walk bars steps t) :
    t.reporters.Remembers ref (s.told ref before steps) := by
  induction walk with
  | start => exact remembers
  | next walk step _ ih =>
      rw [told, List.foldl_append, tell_walk ref before walk]
      exact remembers_hear ih step

structure Stored (ref : ReporterRef) (told : List Entry) (s : State) : Prop where
  entries : (s.reporter ref).entries = told
  selected : ∀ severity, (s.reporter ref).entriesOf severity = told.filter (·.severity == severity)
  counted : ∀ severity, (s.reporter ref).count severity = ((s.reporter ref).entriesOf severity).length

theorem stored_of_remembers {s : State} {ref : ReporterRef} {told : List Entry} (remembers : s.reporters.Remembers ref told) :
    s.Stored ref told := by
  have entries : (s.reporter ref).entries = told := Reporter.stores_entries remembers.stores
  have selected (severity : Severity) : (s.reporter ref).entriesOf severity = told.filter (·.severity == severity) := by
    rw [Reporter.entriesOf, entries]
  exact ⟨entries, selected, fun severity => by rw [selected]; exact remembers.stores.count severity⟩

def after (s : State) (ref : ReporterRef) (request : Request) : Reporter := (ending (s.perform request)).reporter ref

end State

namespace Session

open State (nobody)

variable {Data : Type}

structure Answers (call : Program Data → Exec Data Unit) (ref : ReporterRef) (x : Session Data) : Prop where
  echo : ∀ remark, (x.state.after ref (.report ref .echo remark)).entries =
    (x.state.reporter ref).entries ++ [⟨.info, remark.position, remark.message⟩]
  warning : ∀ remark, (x.state.after ref (.report ref .warning remark)).entries =
    (x.state.reporter ref).entries ++
      [⟨if x.state.options.warningsAsErrors then .error else .warning, remark.position, remark.message⟩]
  error : ∀ remark, (x.state.after ref (.report ref .error remark)).entries =
    (x.state.reporter ref).entries ++ [⟨.error, remark.position, remark.message⟩]
  remark : ∀ remark, (x.state.after ref (.report ref .remark remark)).entries = (x.state.reporter ref).entries ∧
    ∀ severity, (x.state.after ref (.report ref .remark remark)).count severity = (x.state.reporter ref).count severity
  handler : ∀ handler, (x.state.after ref (.setHandler ref handler)).entries = (x.state.reporter ref).entries ∧
    (x.state.after ref (.setHandler ref handler)).handler = handler
  reset : (x.state.after ref (.resetReporter ref)).entries = [] ∧
    (x.state.after ref (.resetReporter ref)).handler = (x.state.reporter ref).handler
  unhandled : ∀ remark, (x.state.reporter ref).handler = none → ∃ t : Session Data,
    incomplete call ref remark x = .ok () t ∧
      (t.state.reporter ref).entries = (x.state.reporter ref).entries ++ [⟨.error, remark.position, remark.message⟩]
  handled : ∀ remark handler, (x.state.reporter ref).handler = some handler → ∃ (t : Session Data) (steps : List Step),
    incomplete call ref remark x = call (x.routines.get handler.routine (.incomplete remark)) t ∧
      t.state.reporter ref = x.state.reporter ref ∧
      t.state.Walk nobody steps (ending (incomplete call ref remark x)).state ∧
      ((ending (incomplete call ref remark x)).state.reporter ref).entries =
        t.state.told ref (x.state.reporter ref).entries steps

theorem incomplete_none (call : Program Data → Exec Data Unit) (ref : ReporterRef) (remark : Remark) (x : Session Data)
    (none : (x.state.reporter ref).handler = none) :
    incomplete call ref remark x = .ok () { x with state := x.state.report ref .error remark } := by
  simp [incomplete, bind, EStateM.bind, current, none, update]

theorem incomplete_some (call : Program Data → Exec Data Unit) (ref : ReporterRef) (remark : Remark) (x : Session Data)
    (handler : Handler) (installed : (x.state.reporter ref).handler = some handler) :
    incomplete call ref remark x = call (x.routines.get handler.routine (.incomplete remark))
      { x with state := x.state.emit (.handlerStarted ref handler remark) } := by
  simp [incomplete, bind, EStateM.bind, current, installed, update, routine]

theorem answers (call : Program Data → Exec Data Unit) (walking : ∀ program, Walking (call program)) (ref : ReporterRef)
    (x : Session Data) {told : List Entry} (remembers : x.state.reporters.Remembers ref told) : Answers call ref x := by
  have stores : (x.state.reporter ref).Stores told := remembers.stores
  have entries := Reporter.stores_entries stores
  have heard (request : Request) : (x.state.after ref request).Stores (x.state.hear ref told (.request request)) :=
    (State.remembers_hear remembers (.request request)).stores
  have adds (kind : ReportKind) (remark : Remark) : (x.state.after ref (.report ref kind remark)).entries =
      (x.state.reporter ref).entries ++ (x.state.entry? remark kind).toList := by
    rw [Reporter.stores_entries (heard _), entries, State.hear, State.heard, State.sent]
    cases kind <;> simp [Step.resets, State.entry?, received]
  have modified (f : Reporter → Reporter) : (x.state.modifyReporter ref f).reporter ref = f (x.state.reporter ref) := by
    rw [State.reporter_modify, if_pos ⟨rfl, remembers.there⟩]
  have noted (remark : Remark) : (x.state.after ref (.report ref .remark remark)).Stores told := by
    have same := heard (.report ref .remark remark)
    simpa [State.hear, Step.resets, State.heard, State.sent, State.entry?, received] using same
  have exchanged (handler : Option Handler) : (x.state.after ref (.setHandler ref handler)).Stores told := by
    have same := heard (.setHandler ref handler)
    simpa [State.hear, Step.resets, State.heard, State.sent, received] using same
  have emptied : (x.state.after ref (.resetReporter ref)).Stores [] := by
    have same := heard (.resetReporter ref)
    simpa [State.hear, Step.resets] using same
  constructor
  case echo => exact adds .echo
  case warning => exact adds .warning
  case error => exact adds .error
  case remark =>
    intro remark
    have same (severity : Severity) := ((noted remark).count severity).trans (stores.count severity).symm
    exact ⟨(Reporter.stores_entries (noted remark)).trans entries.symm, same⟩
  case handler =>
    intro handler
    exact ⟨(Reporter.stores_entries (exchanged handler)).trans entries.symm, congrArg Reporter.handler (modified _)⟩
  case reset =>
    have kept := congrArg Reporter.handler (modified Reporter.reset)
    exact ⟨Reporter.stores_entries emptied, kept⟩
  case unhandled =>
    intro remark none
    exact ⟨_, incomplete_none call ref remark x none, adds .error remark⟩
  case handled =>
    intro remark handler installed
    have taken := incomplete_some call ref remark x handler installed
    have walks := walking (x.routines.get handler.routine (.incomplete remark))
      { x with state := x.state.emit (.handlerStarted ref handler remark) }
    rw [← taken] at walks
    obtain ⟨steps, walk⟩ := walks
    have after : (x.state.emit (.handlerStarted ref handler remark)).reporters.Remembers ref told := remembers
    have shown := (State.stored_of_remembers (State.walk_remembers after walk)).entries
    rw [← entries] at shown
    exact ⟨_, steps, taken, rfl, walk, shown⟩

theorem store_shows_what_is_told (Data : Type) (ref : ReporterRef) (s : State) (there : ref < s.reporters.size)
    (new : s.reporter ref = { display := .store #[] #[] }) :
    (∀ steps m, s.Walk nobody steps m → m.Stored ref (s.told ref [] steps)) ∧
    (∀ limit (program : Program Data), Walking (exec limit program)) ∧
    ∀ x : Session Data, s.Walks nobody x.state →
      ∀ call : Program Data → Exec Data Unit, (∀ program, Walking (call program)) → Answers call ref x := by
  have stores : (s.reporter ref).Stores [] := by
    rw [new]
    exact Reporter.stores_new
  have start : s.reporters.Remembers ref [] := ⟨there, stores⟩
  constructor
  · intro steps m walk
    exact State.stored_of_remembers (State.walk_remembers start walk)
  constructor
  · exact walking_exec
  · intro x walks call walking
    obtain ⟨steps, walk⟩ := walks
    exact answers call walking ref x (State.walk_remembers start walk)

def handOver : Cause → Program Unit
  | .incomplete remark => .act (.report 1 .warning remark) fun _ => .act (.setHandler 1 none) fun _ => .done
  | _ => .done

def newStore : Session Unit := ready [.addReporter (.store #[] #[])] [handOver]

def install : List Step := [.request (.setHandler 1 (some ⟨"hand over", 0⟩)), .request (.setOptions { warningsAsErrors := true })]

def installed : Session Unit := { newStore with state := install.foldl State.take newStore.state }

def openBlock : Remark := ⟨.nowhere, "unclosed block"⟩

theorem store_shows_handled_input :
    let first := ending (incomplete (exec 9) 1 openBlock installed)
    let second := ending (incomplete (exec 9) 1 openBlock first)
    (first.state.reporter 1).entries = [⟨.error, .nowhere, "unclosed block"⟩] ∧
      (second.state.reporter 1).entries = (first.state.reporter 1).entries ++ [⟨.error, .nowhere, "unclosed block"⟩] ∧
      second.state.Stored 1 [⟨.error, .nowhere, "unclosed block"⟩, ⟨.error, .nowhere, "unclosed block"⟩] := by
  intro first second
  obtain ⟨moments, walking, sessions⟩ := store_shows_what_is_told Unit 1 newStore.state (by decide +kernel) (by decide +kernel)
  have before : newStore.state.Walks nobody installed.state := State.requests_walks newStore.state
    [.setHandler 1 (some ⟨"hand over", 0⟩), .setOptions { warningsAsErrors := true }]
  have walks : Walking (incomplete (exec 9) 1 openBlock : Exec Unit Unit) :=
    walking_of_keeps (keeps_incomplete (keeps_exec 9) 1 openBlock)
  have reached := State.walks_trans before (walks installed)
  obtain ⟨t, ran, added⟩ := (sessions first reached (exec 9) (walking 9)).unhandled openBlock (by decide +kernel)
  obtain ⟨steps, walk⟩ := State.walks_trans reached (walks first)
  have ended : second = t := congrArg ending ran
  have stored := moments steps second.state walk
  have both : (second.state.reporter 1).entries =
      [⟨.error, .nowhere, "unclosed block"⟩, ⟨.error, .nowhere, "unclosed block"⟩] := by decide +kernel
  rw [← stored.entries, both] at stored
  exact ⟨by decide +kernel, by rw [ended]; exact added, stored⟩

end Session

end UnitRegistry
