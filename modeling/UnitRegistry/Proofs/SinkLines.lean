import UnitRegistry.Proofs.Delivery
import UnitRegistry.Proofs.RecordLines
import UnitRegistry.Proofs.TextLines

set_option autoImplicit false

namespace UnitRegistry

open Text

namespace Log

namespace Record

theorem no_feed_in_number (n : Int) : lineFeed ∉ Text.ofInt n := not_in_number (by decide) (by decide) n

theorem no_feed_in_time (now : Int) : lineFeed ∉ Clock.timeOfDay now := by
  have padded (width : Nat) (value : Int) : lineFeed ∉ Clock.padded width value := by
    intro member
    rw [Clock.padded, List.leftpad] at member
    obtain fill | digits := List.mem_append.mp member
    · exact absurd (List.eq_of_mem_replicate fill) (by decide)
    · exact no_feed_in_number value digits
  have colon : lineFeed ∉ Text.ofString ":" := by decide
  have dot : lineFeed ∉ Text.ofString "." := by decide
  simp only [Clock.timeOfDay, List.mem_append, padded, colon, dot, or_self, not_false_eq_true]

theorem no_feed_in_column (level : Level) : lineFeed ∉ levelColumn level ∧ lineFeed ∉ levelColor level := by
  cases level <;> decide

theorem no_feed_in_escaped (t : Text) : lineFeed ∉ escaped t := by
  intro member
  obtain ⟨byte, _, member⟩ := List.mem_flatMap.mp member
  obtain ⟨mark, among, written⟩ | ⟨plain, written⟩ := escape_cases byte
  · have none : lineFeed ∉ marks.map Prod.snd := by decide
    rw [written] at member
    obtain slash | rest := List.mem_cons.mp member
    · exact absurd slash (by decide)
    · exact none (List.mem_singleton.mp rest ▸ List.mem_map_of_mem among)
  · rw [written, List.mem_singleton] at member
    exact plain (lineFeed, 110) (by decide) member.symm

def lineFeeds (r : Record) : Format → Nat
  | .text => r.tag.count lineFeed + r.message.count lineFeed
  | .json => 0

theorem line_feeds_zero_iff (r : Record) (format : Format) :
    r.lineFeeds format = 0 ↔ format = .json ∨ lineFeed ∉ r.tag ∧ lineFeed ∉ r.message := by
  cases format with
  | text => simp [lineFeeds, List.count_eq_zero]
  | json => simp [lineFeeds]

theorem count_bracketed (r : Record) : r.bracketed.count lineFeed = r.lineFeeds .text := by
  have opening : (Text.ofString " [").count lineFeed = 0 := by decide
  have closing : (Text.ofString "] ").count lineFeed = 0 := by decide
  simp only [bracketed, List.count_append, opening, closing, lineFeeds, Nat.zero_add, Nat.add_zero]

theorem count_format (now : Int) (r : Record) (format : Format) :
    (r.format now format).count lineFeed = r.lineFeeds format := by
  have time := List.count_eq_zero.mpr (no_feed_in_time now)
  have column := List.count_eq_zero.mpr (no_feed_in_column r.level).1
  have space : (Text.ofString " ").count lineFeed = 0 := by decide
  cases format with
  | text => simp only [Record.format, text, List.count_append, time, space, column, count_bracketed, Nat.zero_add]
  | json =>
      refine List.count_eq_zero.mpr ?_
      have brace : lineFeed ∉ Text.ofString "\x7b\"ts\":" := by decide
      have level : lineFeed ∉ Text.ofString ",\"level\":\"" := by decide
      have name : lineFeed ∉ r.level.name := by cases r.level <;> decide
      have middle : lineFeed ∉ Text.ofString "\",\"module\":\"" := by decide
      have msg : lineFeed ∉ Text.ofString "\",\"msg\":\"" := by decide
      have last : lineFeed ∉ Text.ofString "\"\x7d" := by decide
      simp only [Record.format, json, List.mem_append, brace, no_feed_in_number, level, name, middle, no_feed_in_escaped, msg,
        last, or_self, not_false_eq_true]

theorem count_colored (now : Int) (r : Record) : (r.coloredText now).count lineFeed = r.lineFeeds .text := by
  have time := List.count_eq_zero.mpr (no_feed_in_time now)
  have column := List.count_eq_zero.mpr (no_feed_in_column r.level).1
  have color := List.count_eq_zero.mpr (no_feed_in_column r.level).2
  have space : (Text.ofString " ").count lineFeed = 0 := by decide
  have reset : (Text.escape :: Text.ofString "[0m").count lineFeed = 0 := by decide
  have split : r.coloredText now = Clock.timeOfDay now ++ " " ++ levelColor r.level ++ levelColumn r.level ++
      (Text.escape :: Text.ofString "[0m") ++ r.bracketed := by
    simp only [coloredText, List.append_assoc, List.cons_append]
  rw [split]
  simp only [List.count_append, time, space, color, column, reset, count_bracketed, Nat.zero_add]

end Record

namespace Sink

def rendering (sink : Sink) (now : Int) (record : Record) : Text :=
  match sink with
  | .console colors format => if format = .text ∧ colors then record.coloredText now else record.format now format
  | .file opened => record.format now opened.format
  | _ => []

def format : Sink → Format
  | .console _ format => format
  | .file opened => opened.format
  | _ => .text

def emptied : Sink → Sink
  | .file opened => .file { opened with pending := [], offset := 0 }
  | sink => sink

@[simp] theorem rendering_emptied (sink : Sink) : sink.emptied.rendering = sink.rendering := by cases sink <;> rfl

end Sink

def FileSink.AtEnd (file : FileSink) (held : Text) : Prop :=
  file.isOpen = true ∧ (file.append = true ∨ file.offset = held.length)

end Log

open Log (Sink SinkRef FileSink Record Level Format)

def Event.onStandardError : Event → Text
  | .standardError text => text
  | _ => []

namespace Request

def isFor (ref : SinkRef) : Request → Bool
  | .setEnvironment _ => true
  | .writeSink sink _ => sink = ref
  | .flushSink sink => sink = ref
  | _ => false

def clock (now : Int) : Request → Int
  | .setEnvironment environment => environment.now
  | _ => now

end Request

namespace Disk

theorem read_write (d : Disk) (name content : Text) : (d.write name content).read? name = some content :=
  Assoc.lookup_put_self name content d.files

theorem read_append (d : Disk) (name content : Text) :
    (d.append name content).read? name = some ((d.read? name).getD [] ++ content) := d.read_write name _

theorem read_overwrite_end (d : Disk) (name content : Text) :
    (d.overwrite name ((d.read? name).getD []).length content).read? name = some ((d.read? name).getD [] ++ content) := by
  rw [overwrite, read_write, List.take_length, List.drop_of_length_le (Nat.le_add_right _ _), List.append_nil, List.rightpad]
  simp

end Disk

namespace State

def held (s : State) (name : Text) : Text := (s.disk.read? name).getD []

def shown (s : State) (ref : SinkRef) : Text :=
  match s.sink ref with
  | .console _ _ => s.journal.toList.flatMap Event.onStandardError
  | .file file => s.held file.name ++ file.pending
  | _ => []

def Ready (s : State) (ref : SinkRef) : Prop :=
  match s.sink ref with
  | .console _ _ => True
  | .file file => file.AtEnd (s.held file.name)
  | _ => False

structure Puts (s t : State) (ref : SinkRef) (text : Text) : Prop where
  ready : t.Ready ref
  same : (t.sink ref).emptied = (s.sink ref).emptied
  shown : t.shown ref = s.shown ref ++ text

theorem puts_trans {s t u : State} {ref : SinkRef} {earlier later : Text} (first : Puts s t ref earlier)
    (second : Puts t u ref later) : Puts s u ref (earlier ++ later) :=
  ⟨second.ready, second.same.trans first.same, by rw [second.shown, first.shown, List.append_assoc]⟩

section Files

variable {s : State} {ref : SinkRef} {file : FileSink}

theorem file_set (found : s.sink ref = .file file) (next : FileSink) : (s.setSink ref (.file next)).sink ref = .file next := by
  have known : ref < s.sinks.size := sink_known (by simp [found])
  rw [sink_of_set, if_pos ⟨rfl, known⟩]

theorem flush_file_puts (found : s.sink ref = .file file) (ready : file.AtEnd (s.held file.name)) :
    ∃ offset, (s.flushFile ref file).sink ref = .file { file with pending := [], offset } ∧
      (s.flushFile ref file).held file.name = s.held file.name ++ file.pending ∧
      FileSink.AtEnd { file with pending := [], offset } (s.held file.name ++ file.pending) := by
  obtain ⟨opened, place⟩ := ready
  by_cases none : file.pending = []
  · have kept : s.flushFile ref file = s := by simp [flushFile, none]
    have same : { file with pending := [] } = file := by rw [← none]
    rw [kept, none, List.append_nil]
    exact ⟨file.offset, by rw [found, same], rfl, opened, place⟩
  · refine ⟨file.offset + file.pending.length, ?_, ?_, opened, ?_⟩
    · rw [flushFile, if_pos ⟨opened, none⟩]
      exact file_set (s := { s with disk := _ }) found _
    · rw [flushFile, if_pos ⟨opened, none⟩]
      by_cases append : file.append = true
      · simp only [held, setSink, if_pos append, Disk.read_append, Option.getD_some]
      · have offset := place.resolve_left append
        simp only [held, setSink, if_neg append, offset, Disk.read_overwrite_end, Option.getD_some]
    · obtain append | offset := place
      · exact .inl append
      · right
        rw [offset, List.length_append]

theorem ready_of_file (found : s.sink ref = .file file) (ready : file.AtEnd (s.held file.name)) : s.Ready ref := by
  rw [Ready, found]
  exact ready

theorem shown_of_file (found : s.sink ref = .file file) : s.shown ref = s.held file.name ++ file.pending := by
  rw [shown, found]

theorem flush_puts (found : s.sink ref = .file file) (ready : file.AtEnd (s.held file.name)) :
    Puts s (s.flushFile ref file) ref [] := by
  obtain ⟨offset, after, held, ends⟩ := flush_file_puts found ready
  refine ⟨?_, by rw [after, found]; rfl, ?_⟩
  · rw [Ready, after]
    change FileSink.AtEnd _ ((s.flushFile ref file).held file.name)
    rwa [held]
  · rw [shown_of_file found, shown_of_file after]
    change (s.flushFile ref file).held file.name ++ [] = _
    rw [held, List.append_nil]

theorem write_puts (found : s.sink ref = .file file) (ready : file.AtEnd (s.held file.name)) (record : Record) :
    Puts s (s.writeFile ref file record) ref (record.format s.environment.now file.format ++ [lineFeed]) := by
  obtain ⟨opened, place⟩ := ready
  let next : FileSink := { file with pending := file.pending ++ (record.format s.environment.now file.format ++ [lineFeed]) }
  have set : (s.setSink ref (.file next)).sink ref = .file next := file_set found next
  have ends : next.AtEnd ((s.setSink ref (.file next)).held next.name) := ⟨opened, place⟩
  have added : Puts s (s.setSink ref (.file next)) ref (record.format s.environment.now file.format ++ [lineFeed]) := by
    refine ⟨ready_of_file set ends, by rw [set, found]; rfl, ?_⟩
    rw [shown_of_file set, shown_of_file found, List.append_assoc]
    rfl
  rw [writeFile, if_pos opened]
  by_cases urgent : Level.error ≤ record.level
  · simp only [if_pos urgent]
    have both := puts_trans added (flush_puts set ends)
    rwa [List.append_nil] at both
  · simp only [if_neg urgent]
    exact added

end Files

def timed (ref : SinkRef) : Int → List Request → List (Int × Record)
  | _, [] => []
  | now, call :: rest => (call.written? ref).toList.map (now, ·) ++ timed ref (call.clock now) rest

def renderings (sink : Sink) (moments : List (Int × Record)) : List Text :=
  moments.map fun moment => sink.rendering moment.1 moment.2

section Calls

variable {s : State} {ref : SinkRef}

theorem leaf_of_ready (ready : s.Ready ref) : (s.sink ref).targets? = none := by
  cases found : s.sink ref with
  | console colors format => rfl
  | file file => rfl
  | _ =>
      rw [Ready, found] at ready
      exact ready.elim

theorem write_sink_puts (ready : s.Ready ref) (record : Record) :
    Puts s (s.writeSink ref record) ref ((s.sink ref).rendering s.environment.now record ++ [lineFeed]) := by
  rw [write_sink_leaf record (leaf_of_ready ready)]
  cases found : s.sink ref with
  | console colors format =>
      simp only [writeTo, found]
      have kept (event : Event) : (s.emit event).sink ref = .console colors format := found
      refine ⟨?_, by rw [kept, found], ?_⟩
      · rw [Ready, kept]
        trivial
      · rw [shown, kept, shown, found]
        simp only [emit, Array.toList_push, List.flatMap_append, List.flatMap_singleton]
        rfl
  | file file =>
      simp only [writeTo, found]
      rw [Ready, found] at ready
      exact write_puts found ready record
  | _ =>
      rw [Ready, found] at ready
      exact ready.elim

theorem flush_sink_puts (ready : s.Ready ref) : Puts s (s.flushSink ref) ref [] := by
  rw [flush_sink_leaf (leaf_of_ready ready)]
  cases found : s.sink ref with
  | console colors format =>
      simp only [flushTo, found]
      exact ⟨ready, rfl, (List.append_nil _).symm⟩
  | file file =>
      simp only [flushTo, found]
      rw [Ready, found] at ready
      exact flush_puts found ready
  | _ =>
      rw [Ready, found] at ready
      exact ready.elim

theorem take_puts (ready : s.Ready ref) {call : Request} (own : call.isFor ref = true) :
    Puts s (s.take (.request call)) ref
      ((renderings (s.sink ref) (timed ref s.environment.now [call])).flatMap (· ++ [lineFeed])) := by
  cases call with
  | setEnvironment environment => exact ⟨ready, rfl, (List.append_nil _).symm⟩
  | writeSink sink record =>
      obtain rfl : sink = ref := of_decide_eq_true own
      have moments : timed sink s.environment.now [.writeSink sink record] = [(s.environment.now, record)] := by
        rw [timed, Request.written?, if_pos rfl]
        rfl
      rw [moments, renderings, List.map_singleton, List.flatMap_singleton]
      exact write_sink_puts ready record
  | flushSink sink =>
      obtain rfl : sink = ref := of_decide_eq_true own
      exact flush_sink_puts ready
  | _ => cases own

theorem take_clock {call : Request} (own : call.isFor ref = true) :
    (s.take (.request call)).environment.now = call.clock s.environment.now := by
  cases call with
  | setEnvironment environment => rfl
  | writeSink sink record =>
      obtain ⟨_, _, _, _, after⟩ := write_sink_outputs s sink record
      exact congrArg (·.environment.now) after
  | flushSink sink =>
      obtain ⟨_, _, _, _, after⟩ := flush_sink_outputs s sink
      exact congrArg (·.environment.now) after
  | _ => cases own

theorem performed_puts (ready : s.Ready ref) {calls : List Request} (own : ∀ call ∈ calls, call.isFor ref = true) :
    Puts s (s.performed calls) ref
      ((renderings (s.sink ref) (timed ref s.environment.now calls)).flatMap (· ++ [lineFeed])) := by
  induction calls generalizing s with
  | nil => exact ⟨ready, rfl, (List.append_nil _).symm⟩
  | cons call rest ih =>
      obtain ⟨here, later⟩ := List.forall_mem_cons.mp own
      have first := take_puts ready here
      have others := ih first.ready later
      have same : renderings ((s.take (.request call)).sink ref) = renderings (s.sink ref) := by
        funext moments
        rw [renderings, ← Sink.rendering_emptied, first.same, Sink.rendering_emptied, renderings]
      rw [same, take_clock here] at others
      have both := puts_trans first others
      have moments : timed ref s.environment.now (call :: rest) =
          timed ref s.environment.now [call] ++ timed ref (call.clock s.environment.now) rest := by
        rw [timed, timed, timed, List.append_nil]
      rwa [← List.flatMap_append, renderings, renderings, ← List.map_append, ← moments] at both

theorem records_of_timed (ref : SinkRef) (now : Int) (calls : List Request) :
    (timed ref now calls).map Prod.snd = writtenTo ref calls := by
  induction calls generalizing now with
  | nil => rfl
  | cons call rest ih =>
      rw [timed, List.map_append, ih, writtenTo, writtenTo]
      cases written : call.written? ref with
      | none =>
          rw [List.filterMap_cons_none written]
          rfl
      | some record =>
          rw [List.filterMap_cons_some written]
          rfl

theorem count_rendering (ready : s.Ready ref) (now : Int) (record : Record) :
    ((s.sink ref).rendering now record).count lineFeed = record.lineFeeds (s.sink ref).format := by
  cases found : s.sink ref with
  | console colors format =>
      rw [Sink.rendering, Sink.format]
      split
      · next colored =>
          rw [Record.count_colored, colored.1]
      · exact Record.count_format now record format
  | file file => exact Record.count_format now record file.format
  | _ =>
      rw [Ready, found] at ready
      exact ready.elim

theorem ready_of_new_file (s : State) {path name : Text} (resolves : Disk.resolve path = some name) (append : Bool)
    (format : Format) : (s.take (.request (.addFileSink path append format))).Ready s.sinks.size := by
  have found : (s.take (.request (.addFileSink path append format))).sink s.sinks.size =
      .file { name, isOpen := true, append, format } := by
    simp only [take, perform, addFileSink, openFile, resolves, answer, ending_ok, holdSink, pushSink]
    exact Store.get_push_self s.sinks _
  refine ready_of_file found ⟨rfl, ?_⟩
  cases append with
  | true => exact .inl rfl
  | false =>
      right
      simp only [take, perform, addFileSink, openFile, resolves, answer, ending_ok, holdSink, pushSink, held]
      rw [if_neg Bool.false_ne_true, Disk.read_write]
      rfl

theorem flushed_to_file (ready : s.Ready ref) {calls : List Request} (own : ∀ call ∈ calls, call.isFor ref = true)
    {file : FileSink} (found : s.sink ref = .file file) :
    (s.performed (calls ++ [.flushSink ref])).held file.name = (s.performed calls).shown ref := by
  have puts := performed_puts ready own
  have ends := puts.ready
  have same := puts.same
  rw [performed_append]
  cases after : (s.performed calls).sink ref with
  | file last =>
      rw [Ready, after] at ends
      rw [after, found] at same
      have alike := congrArg FileSink.name (Sink.file.inj same).symm
      have name : file.name = last.name := alike
      obtain ⟨_, _, held, _⟩ := flush_file_puts after ends
      have flushed : (s.performed calls).performed [.flushSink ref] = (s.performed calls).flushFile ref last := by
        change (s.performed calls).flushSink ref = _
        rw [flush_sink_leaf (leaf_of_ready puts.ready), flushTo, after]
      rw [flushed, name, held, shown_of_file after]
  | _ =>
      rw [after, found] at same
      cases same

end Calls

-- What comes of writing to one sink. It puts out the renderings of the records, in order and each closed by a line feed, and
-- a flush brings all of it into a file. The lines are as many as the records and their line feeds, and they are the renderings
-- just when every record is on one line.
structure PutsLines (s : State) (ref : SinkRef) (calls : List Request) (moments : List (Int × Record)) : Prop where
  records : moments.map Prod.snd = writtenTo ref calls
  shown : (s.performed calls).shown ref = s.shown ref ++ (renderings (s.sink ref) moments).flatMap (· ++ [lineFeed])
  flushed : ∀ file, s.sink ref = .file file → (s.performed (calls ++ [.flushSink ref])).held file.name =
    s.shown ref ++ (renderings (s.sink ref) moments).flatMap (· ++ [lineFeed])
  count : (closedLines ((renderings (s.sink ref) moments).flatMap (· ++ [lineFeed]))).length =
    (writtenTo ref calls).length + ((writtenTo ref calls).map (·.lineFeeds (s.sink ref).format)).sum
  lines : closedLines ((renderings (s.sink ref) moments).flatMap (· ++ [lineFeed])) = renderings (s.sink ref) moments ↔
    ∀ record ∈ writtenTo ref calls, (s.sink ref).format = .json ∨ lineFeed ∉ record.tag ∧ lineFeed ∉ record.message

theorem records_on_lines {s : State} {ref : SinkRef} (ready : s.Ready ref) {calls : List Request}
    (own : ∀ call ∈ calls, call.isFor ref = true) :
    (∀ (now : Int) (r : Record) (format : Format),
      lineFeed ∉ r.format now format ↔ format = .json ∨ lineFeed ∉ r.tag ∧ lineFeed ∉ r.message) ∧
    s.PutsLines ref calls (timed ref s.environment.now calls) := by
  have puts := performed_puts ready own
  have records := records_of_timed ref s.environment.now calls
  refine ⟨fun now r format => ?_, records, puts.shown, fun file found => ?_, ?_, ?_⟩
  · rw [← List.count_eq_zero, Record.count_format, Record.line_feeds_zero_iff]
  · rw [flushed_to_file ready own found, puts.shown]
  · rw [length_closed_lines, ← records, renderings, List.length_map, List.length_map, List.map_map, List.map_map]
    congr 2
    exact List.map_congr_left fun moment _ => count_rendering ready moment.1 moment.2
  · rw [closed_lines_iff, ← records, renderings, List.forall_mem_map, List.forall_mem_map]
    refine forall_congr' fun moment => imp_congr_right fun _ => ?_
    rw [← List.count_eq_zero, count_rendering ready, Record.line_feeds_zero_iff]

theorem json_records_on_lines :
    let s := start.performed [.addFileSink "run.log" false .json]
    let calls : List Request := [.writeSink 0 ⟨.info, "run", "first\nsecond", 7⟩, .setEnvironment { now := 1000 },
      .writeSink 0 ⟨.error, "unit", "third", 8⟩]
    (s.Ready 0 ∧ ∀ call ∈ calls, call.isFor 0 = true) ∧ s.PutsLines 0 calls (timed 0 s.environment.now calls) ∧
      (closedLines ((s.performed (calls ++ [.flushSink 0])).held "run.log")).length = 2 := by
  intro s calls
  have resolves : Disk.resolve "run.log" = some "run.log" := by decide +kernel
  have ready : s.Ready 0 := ready_of_new_file start resolves false .json
  have own : ∀ call ∈ calls, call.isFor 0 = true := by decide
  exact ⟨⟨ready, own⟩, (records_on_lines ready own).2, by decide +kernel⟩

theorem message_on_two_lines :
    let record : Record := ⟨.info, "run", "first\nsecond", 7⟩
    let s := start.performed [.addFileSink "run.log" false .text, .writeSink 0 record, .flushSink 0]
    lineFeed ∈ record.format 0 .text ∧
      closedLines (s.held "run.log") = [Text.ofString "00:00:00.000 INFO  [run] first", Text.ofString "second"] := by
  decide +kernel

end State

end UnitRegistry
