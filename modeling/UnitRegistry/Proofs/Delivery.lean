import UnitRegistry.Proofs.Handover
import UnitRegistry.Proofs.Walk

set_option autoImplicit false

namespace UnitRegistry

open Log (SinkRef Record Config)
open Relation (ReflTransGen)

def Request.isMessage : Request → Bool
  | .log _ _ _ => true
  | .logRecord _ => true
  | .trace _ _ _ => true
  | _ => false

def Request.written? (ref : SinkRef) : Request → Option Record
  | .writeSink sink record => if sink = ref then some record else none
  | _ => none

namespace State

def record? (s : State) : Request → Option Record
  | .log level tag message => some ⟨level, tag, message, s.environment.now⟩
  | .logRecord record => some record
  | .trace level tag message =>
      let level := min level .fatal
      if s.logger.accepts level tag then some ⟨level, tag, message, s.environment.now⟩ else none
  | _ => none

def performed (s : State) (requests : List Request) : State := requests.foldl (fun s request => s.take (.request request)) s

-- The same calls, with single writes to the sinks reached in place of each record, and single flushes.
def spelled (reach : State → List SinkRef) (s : State) (call : Request) : List Request :=
  match call with
  | .flushLogger => (reach s).map .flushSink
  | call =>
      if call.isMessage then (s.record? call).toList.flatMap fun record => (reach s).map (.writeSink · record)
      else [call]

def spelledOut (reach : State → List SinkRef) : State → List Request → List Request
  | _, [] => []
  | s, call :: rest => s.spelled reach call ++ spelledOut reach (s.take (.request call)) rest

def roots (s : State) : List SinkRef := s.logger.sinks

def writtenTo (ref : SinkRef) (requests : List Request) : List Record := requests.filterMap (Request.written? ref)

def own (s : State) : Request → List SinkRef
  | .configureLog config => (s.configureLog config).logger.sinks
  | _ => []

def made : State → List Request → List SinkRef
  | _, [] => []
  | s, call :: rest => s.own call ++ made (s.take (.request call)) rest

def give (given : List SinkRef) : Request → List SinkRef
  | .addSink ref => given ++ [ref]
  | .configureLog _ => []
  | _ => given

def due (ref : SinkRef) : List SinkRef → State → List Request → List Record
  | _, _, [] => []
  | given, s, call :: rest =>
      (if ref ∈ given then (s.record? call).toList else []) ++ due ref (give given call) (s.take (.request call)) rest

def heardBy (reach : State → List SinkRef) (ref : SinkRef) : State → List Request → List Record
  | _, [] => []
  | s, call :: rest =>
      (if ref ∈ reach s then (s.record? call).toList else []) ++ heardBy reach ref (s.take (.request call)) rest

def signals (s : State) : Request → List Event
  | .flushLogger => s.audience.filterMap fun leaf => (s.sink leaf).label?.map .flushed
  | call => (s.record? call).toList.flatMap fun record => s.audience.filterMap fun leaf =>
      (s.sink leaf).label?.map (.logged · record)

def signalled : State → List Request → List Event
  | _, [] => []
  | s, call :: rest => s.signals call ++ signalled (s.take (.request call)) rest

-- The calls of the logger, and what makes its sinks. A sink that is handed over has no owner yet, and is not above its new
-- one.
def Permits (s : State) : Request → Prop
  | .setEnvironment _ => True
  | .configureLog _ => True
  | .setLogLevel _ => True
  | .setLogFilter _ => True
  | .flushLogger => True
  | .log _ _ _ => True
  | .logRecord _ => True
  | .trace _ _ _ => True
  | .addRecorder _ => True
  | .addDiscard => True
  | .addFanOut => True
  | .addConsoleSink _ _ => True
  | .addFileSink _ _ _ => True
  | .dropSink _ => True
  | .addChild parent child => child < s.sinks.size ∧ child ∉ s.owned ∧ ¬ ReflTransGen s.Holds child parent
  | .addSink ref => ref < s.sinks.size ∧ ref ∉ s.owned
  | _ => False

def Permitted : State → List Request → Prop
  | _, [] => True
  | s, call :: rest => s.Permits call ∧ Permitted (s.take (.request call)) rest

section Calls

variable {s t : State} {call : Request}

theorem take_message (message : call.isMessage = true) : s.take (.request call) = (s.record? call).elim s s.logRecord := by
  cases call with
  | log level tag text => rfl
  | logRecord record => rfl
  | trace level tag text =>
      by_cases accepted : s.logger.accepts (min level .fatal) tag = true
      · simp only [take, perform, ending_ok, trace, record?, if_pos accepted]
        rfl
      · simp only [take, perform, ending_ok, trace, record?, if_neg accepted]
        rfl
  | _ => cases message

theorem no_record_of_other (other : call.isMessage = false) : s.record? call = none := by
  cases call <;> first | rfl | cases other

theorem log_record_tells (s : State) (record : Record) :
    Tells s (s.logRecord record) (s.audience.filterMap fun leaf => (s.sink leaf).label?.map (.logged · record)) :=
  (write_spreads record).told s s.logger.sinks

theorem flush_logger_tells (s : State) :
    Tells s s.flushLogger (s.audience.filterMap fun leaf => (s.sink leaf).label?.map .flushed) :=
  flush_spreads.told s s.logger.sinks

theorem signals_message (message : call.isMessage = true) :
    s.signals call = (s.record? call).toList.flatMap fun record =>
      s.audience.filterMap fun leaf => (s.sink leaf).label?.map (.logged · record) := by
  cases call <;> first | rfl | cases message

theorem message_tells (message : call.isMessage = true) : Tells s (s.take (.request call)) (s.signals call) := by
  rw [take_message message, signals_message message]
  cases s.record? call with
  | none => exact tells_refl s
  | some record =>
      rw [Option.toList_some, List.flatMap_singleton]
      exact log_record_tells s record

end Calls

structure Answers (s : State) (call : Request) (t : State) : Prop where
  size : s.sinks.size ≤ t.sinks.size
  sinks : t.logger.sinks = s.own call ++ give s.logger.sinks call
  fresh : ∀ ref ∈ s.own call, s.sinks.size ≤ ref
  forest : s.Forest → t.Forest
  recordings : t.recordings = s.recordings ++ s.signals call

section Answers

variable {s t : State} {call : Request}

theorem settles_answers (settles : Settles s t (s.signals call)) (roots : t.logger.sinks = s.logger.sinks)
    (same : s.own call = [] ∧ give s.logger.sinks call = s.logger.sinks) : Answers s call t := by
  refine ⟨settles.size, ?_, fun ref among => ?_, fun forest => forest_of_same_roots forest settles roots, settles.recordings⟩
  · rw [roots, same.1, same.2, List.nil_append]
  · rw [same.1] at among
    cases among

theorem message_answers (message : call.isMessage = true) : Answers s call (s.take (.request call)) := by
  have other : call.isConfiguring = false := by cases call <;> first | rfl | cases message
  have same : s.own call = [] ∧ give s.logger.sinks call = s.logger.sinks := by
    cases call <;> first | exact ⟨rfl, rfl⟩ | cases message
  have roots := congrArg Log.Logger.sinks (perform_logger s call other)
  exact settles_answers (tells_settles (message_tells message)) roots same

theorem configure_log_answers (s : State) (config : Config) : Answers s (.configureLog config) (s.configureLog config) := by
  have equips := configure_log_equips s config
  obtain ⟨made, sinks, _, bounds⟩ := equips.made
  have none : (s.setLogger (.configure config.level config.filter)).logger.sinks = [] := by
    by_cases filter : config.filter = [] <;> simp [setLogger, Log.Logger.configure, filter]
  rw [none, List.nil_append] at sinks
  have cleared (forest : s.Forest) : (s.setLogger (.configure config.level config.filter)).Forest := by
    refine forest_of_settles forest (settles_of_same rfl rfl) ?_ fun ref among => ?_
    · rw [none]
      exact List.nodup_nil
    · rw [none] at among
      cases among
  refine ⟨equips.size, (List.append_nil _).symm, fun ref among => ?_, fun forest => equips_forest (cleared forest) equips,
    equips.recordings⟩
  rw [own, sinks] at among
  exact (bounds ref among).1

theorem take_answers (permits : s.Permits call) : Answers s call (s.take (.request call)) := by
  cases call with
  | setEnvironment environment => exact settles_answers (settles_of_same rfl rfl) rfl ⟨rfl, rfl⟩
  | configureLog config => exact configure_log_answers s config
  | setLogLevel level => exact settles_answers (settles_of_same rfl rfl) rfl ⟨rfl, rfl⟩
  | setLogFilter spec => exact settles_answers (settles_of_same rfl rfl) rfl ⟨rfl, rfl⟩
  | flushLogger =>
      exact settles_answers (tells_settles (flush_logger_tells s)) (congrArg Log.Logger.sinks (perform_logger s _ rfl)) ⟨rfl, rfl⟩
  | log level tag text => exact message_answers rfl
  | logRecord record => exact message_answers rfl
  | trace level tag text => exact message_answers rfl
  | addRecorder label => exact settles_answers (hold_sink_settles s rfl) rfl ⟨rfl, rfl⟩
  | addDiscard => exact settles_answers (hold_sink_settles s rfl) rfl ⟨rfl, rfl⟩
  | addFanOut => exact settles_answers (hold_sink_settles s rfl) rfl ⟨rfl, rfl⟩
  | addConsoleSink colors format => exact settles_answers (hold_sink_settles s rfl) rfl ⟨rfl, rfl⟩
  | addFileSink path append format =>
      exact settles_answers (settles_trans (open_file_settles s path append format) (hold_sink_settles _ rfl))
        (congrArg Log.Logger.sinks (perform_logger s (.addFileSink path append format) rfl)) ⟨rfl, rfl⟩
  | dropSink ref =>
      have dropped : Settles s { s with heldSinks := s.heldSinks.erase ref } [] := settles_of_same rfl rfl
      exact settles_answers (settles_trans dropped (release_in_settles _ _ _))
        (congrArg Log.Logger.sinks (perform_logger s (.dropSink ref) rfl)) ⟨rfl, rfl⟩
  | addChild parent child =>
      obtain ⟨known, free, apart⟩ := permits
      exact ⟨Nat.le_of_eq (add_child_size s parent child).symm, add_child_roots s parent child,
        fun _ none => absurd none List.not_mem_nil, fun forest => add_child_forest forest known free apart,
        (add_child_recordings s parent child).trans (List.append_nil _).symm⟩
  | addSink ref =>
      exact ⟨Nat.le_refl _, rfl, fun _ none => absurd none List.not_mem_nil,
        fun forest => add_sink_forest forest permits.1 permits.2, (List.append_nil _).symm⟩
  | _ => cases permits

end Answers

section Histories

variable {s : State} {calls : List Request}

structure Serves (reach : State → List SinkRef) : Prop where
  writes : ∀ s record, (reach s).foldl (fun s ref => s.writeSink ref record) s = s.logRecord record
  flushes : ∀ s, (reach s).foldl flushSink s = s.flushLogger

theorem roots_serve : Serves roots := ⟨fun _ _ => rfl, fun _ => rfl⟩

theorem audience_serves : Serves audience :=
  ⟨fun s record => ((write_spreads record).all_leaves s s.logger.sinks).symm,
    fun s => (flush_spreads.all_leaves s s.logger.sinks).symm⟩

theorem performed_append (s : State) (earlier later : List Request) :
    s.performed (earlier ++ later) = (s.performed earlier).performed later := List.foldl_append

theorem spelled_message {call : Request} (reach : State → List SinkRef) (message : call.isMessage = true) :
    s.spelled reach call = (s.record? call).toList.flatMap fun record => (reach s).map (.writeSink · record) := by
  cases call <;> first | rfl | cases message

theorem spelled_other {call : Request} (reach : State → List SinkRef) (other : call.isMessage = false)
    (noFlush : call ≠ .flushLogger) : s.spelled reach call = [call] := by
  cases call <;> first | rfl | exact absurd rfl noFlush | cases other

theorem performed_spelled {reach : State → List SinkRef} (serves : Serves reach) (s : State) (call : Request) :
    s.performed (s.spelled reach call) = s.take (.request call) := by
  cases message : call.isMessage with
  | true =>
      rw [spelled_message reach message, take_message message]
      cases s.record? call with
      | none => rfl
      | some record =>
          rw [Option.toList_some, List.flatMap_singleton, performed, List.foldl_map]
          exact serves.writes s record
  | false =>
      by_cases flush : call = .flushLogger
      · subst flush
        rw [spelled, performed, List.foldl_map]
        exact serves.flushes s
      · rw [spelled_other reach message flush, performed, List.foldl_cons, List.foldl_nil]

theorem performed_spelled_out {reach : State → List SinkRef} (serves : Serves reach) (s : State) (calls : List Request) :
    s.performed (s.spelledOut reach calls) = s.performed calls := by
  induction calls generalizing s with
  | nil => rfl
  | cons call rest ih =>
      rw [spelledOut, performed_append, performed_spelled serves, ih, performed, performed, List.foldl_cons]

theorem performed_forest (forest : s.Forest) (permitted : s.Permitted calls) : (s.performed calls).Forest := by
  induction calls generalizing s with
  | nil => exact forest
  | cons call rest ih => exact ih ((take_answers permitted.1).forest forest) permitted.2

theorem performed_recordings (permitted : s.Permitted calls) :
    (s.performed calls).recordings = s.recordings ++ s.signalled calls := by
  induction calls generalizing s with
  | nil => exact (List.append_nil _).symm
  | cons call rest ih =>
      have later : (s.performed (call :: rest)).recordings = _ := ih permitted.2
      rw [later, (take_answers permitted.1).recordings, signalled, List.append_assoc]

theorem written_to_append (ref : SinkRef) (earlier later : List Request) :
    writtenTo ref (earlier ++ later) = writtenTo ref earlier ++ writtenTo ref later := List.filterMap_append

theorem written_to_writes {sinks : List SinkRef} (once : sinks.Nodup) (ref : SinkRef) (record : Record) :
    writtenTo ref (sinks.map (.writeSink · record)) = if ref ∈ sinks then [record] else [] := by
  induction sinks with
  | nil => rfl
  | cons sink sinks ih =>
      obtain ⟨fresh, once⟩ := List.nodup_cons.mp once
      have rest := ih once
      by_cases here : sink = ref
      · subst here
        have first : Request.written? sink (.writeSink sink record) = some record := if_pos rfl
        rw [if_neg fresh] at rest
        rw [if_pos List.mem_cons_self, List.map_cons, writtenTo, List.filterMap_cons_some first]
        exact congrArg (record :: ·) rest
      · have same : ref ∈ sink :: sinks ↔ ref ∈ sinks := by simp [Ne.symm here]
        have first : Request.written? ref (.writeSink sink record) = none := if_neg here
        rw [if_congr same rfl rfl, List.map_cons, writtenTo, List.filterMap_cons_none first]
        exact rest

theorem written_to_flushes (ref : SinkRef) (sinks : List SinkRef) : writtenTo ref (sinks.map .flushSink) = [] := by
  rw [writtenTo, List.filterMap_map]
  exact List.filterMap_eq_nil_iff.mpr fun _ _ => rfl

theorem written_to_spelled {reach : State → List SinkRef} (once : (reach s).Nodup) {call : Request} (permits : s.Permits call)
    (ref : SinkRef) : writtenTo ref (s.spelled reach call) = if ref ∈ reach s then (s.record? call).toList else [] := by
  cases message : call.isMessage with
  | true =>
      rw [spelled_message reach message]
      cases s.record? call with
      | none => exact (ite_self _).symm
      | some record =>
          rw [Option.toList_some, List.flatMap_singleton]
          exact written_to_writes once ref record
  | false =>
      rw [no_record_of_other message, Option.toList_none, ite_self]
      by_cases flush : call = .flushLogger
      · subst flush
        exact written_to_flushes ref (reach s)
      · rw [spelled_other reach message flush]
        cases call <;> first | rfl | cases permits

theorem written_to_spelled_out {reach : State → List SinkRef} (once : ∀ t : State, t.Forest → (reach t).Nodup)
    (forest : s.Forest) (permitted : s.Permitted calls) (ref : SinkRef) :
    writtenTo ref (s.spelledOut reach calls) = heardBy reach ref s calls := by
  induction calls generalizing s with
  | nil => rfl
  | cons call rest ih =>
      have later := ih ((take_answers permitted.1).forest forest) permitted.2
      rw [spelledOut, written_to_append, written_to_spelled (once s forest) permitted.1, later, heardBy]

theorem mem_give_congr {ref : SinkRef} {sinks given : List SinkRef} (same : ref ∈ sinks ↔ ref ∈ given) (call : Request) :
    ref ∈ give sinks call ↔ ref ∈ give given call := by
  cases call with
  | addSink sink => simp only [give, List.mem_append, same]
  | configureLog config => rfl
  | _ => exact same

theorem heard_by_roots {ref : SinkRef} (other : ref ∉ s.made calls) (permitted : s.Permitted calls) {given : List SinkRef}
    (same : ref ∈ s.logger.sinks ↔ ref ∈ given) : heardBy roots ref s calls = due ref given s calls := by
  induction calls generalizing s given with
  | nil => rfl
  | cons call rest ih =>
      rw [made, List.mem_append, not_or] at other
      have kept : ref ∈ (s.take (.request call)).logger.sinks ↔ ref ∈ give given call := by
        rw [(take_answers permitted.1).sinks, List.mem_append, or_iff_right other.1]
        exact mem_give_congr same call
      rw [heardBy, due, ih other.2 permitted.2 kept, roots, if_congr same rfl rfl]

theorem made_fresh (permitted : s.Permitted calls) : ∀ ref ∈ s.made calls, s.sinks.size ≤ ref := by
  induction calls generalizing s with
  | nil => exact fun _ none => absurd none List.not_mem_nil
  | cons call rest ih =>
      have answers := take_answers permitted.1
      intro ref among
      obtain among | among := List.mem_append.mp among
      · exact answers.fresh ref among
      · exact Nat.le_trans answers.size (ih permitted.2 ref among)

theorem give_append (made given : List SinkRef) (call : Request) :
    ∃ kept ⊆ made, give (made ++ given) call = kept ++ give given call := by
  cases call with
  | addSink sink => exact ⟨made, List.Subset.refl made, List.append_assoc made given [sink]⟩
  | configureLog config => exact ⟨[], List.nil_subset made, rfl⟩
  | _ => exact ⟨made, List.Subset.refl made, rfl⟩

theorem given_append (made given : List SinkRef) (calls : List Request) :
    ∃ kept ⊆ made, calls.foldl give (made ++ given) = kept ++ calls.foldl give given := by
  induction calls generalizing made given with
  | nil => exact ⟨made, List.Subset.refl made, rfl⟩
  | cons call rest ih =>
      obtain ⟨kept, among, first⟩ := give_append made given call
      obtain ⟨last, within, later⟩ := ih kept (give given call)
      exact ⟨last, List.Subset.trans within among, by rw [List.foldl_cons, first, later, List.foldl_cons]⟩

theorem performed_roots (permitted : s.Permitted calls) :
    ∃ kept ⊆ s.made calls, (s.performed calls).logger.sinks = kept ++ calls.foldl give s.logger.sinks := by
  induction calls generalizing s with
  | nil => exact ⟨[], List.nil_subset _, rfl⟩
  | cons call rest ih =>
      obtain ⟨later, within, all⟩ := ih permitted.2
      obtain ⟨kept, among, given⟩ := given_append (s.own call) (give s.logger.sinks call) rest
      rw [(take_answers permitted.1).sinks, given, ← List.append_assoc] at all
      refine ⟨later ++ kept, List.append_subset.mpr ⟨?_, ?_⟩, all⟩
      · exact List.Subset.trans within (List.subset_append_right _ _)
      · exact List.Subset.trans among (List.subset_append_left _ _)

end Histories

structure Passes (s : State) : Prop where
  write : ∀ ref record, s.writeSink ref record = (s.leaves ref).foldl (fun s leaf => s.writeSink leaf record) s
  flush : ∀ ref, s.flushSink ref = (s.leaves ref).foldl flushSink s
  below : ∀ ref < s.sinks.size, ∀ leaf, leaf ∈ s.leaves ref ↔ ReflTransGen s.Holds ref leaf ∧ (s.sink leaf).targets? = none
  once : ∀ ref, (s.leaves ref).Nodup
  leaf : ∀ ref < s.sinks.size, (s.sink ref).targets? = none → s.leaves ref = [ref]
  leftToRight : ∀ ref children, s.sink ref = .fanOut children → s.leaves ref = children.flatMap s.leaves

theorem forest_passes {s : State} (forest : s.Forest) : s.Passes where
  write := s.write_sink_leaves
  flush := s.flush_sink_leaves
  below _ known _ := forest.mem_leaves_iff known
  once _ := forest.leaves_to_once
  leaf _ known ends := leaves_of_leaf known ends
  leftToRight _ _ found := forest.leaves_of_fan found

-- The account of a history. The calls come to single writes and flushes, of the sinks of the logger or of the leaves below
-- them, and a sink gets once, in order, every record that is brought while it is reached. A sink is reached from its addition
-- to the next configuration, unless it is one of the new sinks that a configuration makes; the logger has its sinks in the
-- order of addition.
structure Delivers (s : State) (calls : List Request) : Prop where
  byRoots : s.performed (s.spelledOut roots calls) = s.performed calls
  byLeaves : s.performed (s.spelledOut audience calls) = s.performed calls
  toRoots : ∀ ref, writtenTo ref (s.spelledOut roots calls) = heardBy roots ref s calls
  toLeaves : ∀ ref, writtenTo ref (s.spelledOut audience calls) = heardBy audience ref s calls
  whileAdded : ∀ ref ∉ s.made calls, heardBy roots ref s calls = due ref s.logger.sinks s calls
  fresh : ∀ ref ∈ s.made calls, s.sinks.size ≤ ref
  inOrder : ∃ kept ⊆ s.made calls, (s.performed calls).logger.sinks = kept ++ calls.foldl give s.logger.sinks
  recordings : (s.performed calls).recordings = s.recordings ++ s.signalled calls
  forest : (s.performed calls).Forest
  passes : (s.performed calls).Passes

theorem records_delivered {s : State} (forest : s.Forest) {calls : List Request} (permitted : s.Permitted calls) :
    s.Delivers calls where
  byRoots := performed_spelled_out roots_serve s calls
  byLeaves := performed_spelled_out audience_serves s calls
  toRoots ref := written_to_spelled_out (fun _ forest => forest.roots_once) forest permitted ref
  toLeaves ref := written_to_spelled_out (fun _ forest => forest.audience_once) forest permitted ref
  whileAdded _ other := heard_by_roots other permitted Iff.rfl
  fresh := made_fresh permitted
  inOrder := performed_roots permitted
  recordings := performed_recordings permitted
  forest := performed_forest forest permitted
  passes := forest_passes (performed_forest forest permitted)

theorem records_through_fan_outs :
    let calls : List Request := [.addFanOut, .addFanOut, .addRecorder "inner", .addRecorder "outer", .addRecorder "late",
      .addChild 0 1, .addChild 1 2, .addChild 0 3, .addSink 0, .setLogLevel .warn, .trace .info "run" "quiet",
      .trace .error "run" "loud", .addSink 4, .log .debug "run" "direct", .flushLogger,
      .configureLog { console := false }, .log .error "run" "unheard"]
    start.Forest ∧ start.Permitted calls ∧ start.Delivers calls ∧
      start.signalled calls = [.logged "inner" ⟨.error, "run", "loud", 0⟩, .logged "outer" ⟨.error, "run", "loud", 0⟩,
        .logged "inner" ⟨.debug, "run", "direct", 0⟩, .logged "outer" ⟨.debug, "run", "direct", 0⟩,
        .logged "late" ⟨.debug, "run", "direct", 0⟩, .flushed "inner", .flushed "outer", .flushed "late"] := by
  intro calls
  have permitted : start.Permitted calls := by
    refine ⟨trivial, trivial, trivial, trivial, trivial, ⟨?_, ?_, ?_⟩, ⟨?_, ?_, ?_⟩, ⟨?_, ?_, ?_⟩, ⟨?_, ?_⟩, trivial, trivial,
      trivial, ⟨?_, ?_⟩, trivial, trivial, trivial, trivial, trivial⟩
    case refine_3 => exact not_below_childless (by decide +kernel) (by decide +kernel)
    case refine_6 => exact not_below_childless (by decide +kernel) (by decide +kernel)
    case refine_9 => exact not_below_childless (by decide +kernel) (by decide +kernel)
    all_goals decide +kernel
  exact ⟨start_forest, permitted, records_delivered start_forest permitted, by decide +kernel⟩

end State

end UnitRegistry
