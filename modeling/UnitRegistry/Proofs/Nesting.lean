import Mathlib.Data.List.Basic
import UnitRegistry.Proofs.Output

set_option autoImplicit false

namespace UnitRegistry

open Log (Sink SinkRef FileSink Record Level)

namespace Log.Sink

def targets? : Sink → Option (List SinkRef)
  | .fanOut children => some children
  | _ => none

def label? : Sink → Option Text
  | .recorder label => some label
  | _ => none

def shape : Sink → Sink
  | .file _ => .file default
  | sink => sink

@[simp] theorem shape_targets (sink : Sink) : sink.shape.targets? = sink.targets? := by cases sink <;> rfl

@[simp] theorem shape_label (sink : Sink) : sink.shape.label? = sink.label? := by cases sink <;> rfl

theorem children_of_targets (sink : Sink) : sink.children = sink.targets?.getD [] := by cases sink <;> rfl

end Log.Sink

def Event.isRecorded : Event → Bool
  | .logged _ _ => true
  | .flushed _ => true
  | _ => false

namespace State

structure Alike (s t : State) : Prop where
  size : t.sinks.size = s.sinks.size
  shape : ∀ ref, (t.sink ref).shape = (s.sink ref).shape

theorem alike_refl (s : State) : Alike s s := ⟨rfl, fun _ => rfl⟩

theorem alike_trans {s t u : State} (first : Alike s t) (second : Alike t u) : Alike s u :=
  ⟨second.size.trans first.size, fun ref => (second.shape ref).trans (first.shape ref)⟩

theorem alike_targets {s t : State} (alike : Alike s t) (ref : SinkRef) : (t.sink ref).targets? = (s.sink ref).targets? := by
  rw [← Sink.shape_targets, alike.shape ref, Sink.shape_targets]

theorem alike_label {s t : State} (alike : Alike s t) (ref : SinkRef) : (t.sink ref).label? = (s.sink ref).label? := by
  rw [← Sink.shape_label, alike.shape ref, Sink.shape_label]

def recordings (s : State) : List Event := s.journal.toList.filter Event.isRecorded

structure Tells (s t : State) (events : List Event) : Prop extends Alike s t where
  recordings : t.recordings = s.recordings ++ events

theorem tells_refl (s : State) : Tells s s [] := ⟨alike_refl s, (List.append_nil _).symm⟩

theorem tells_trans {s t u : State} {earlier later : List Event} (first : Tells s t earlier) (second : Tells t u later) :
    Tells s u (earlier ++ later) :=
  ⟨alike_trans first.toAlike second.toAlike, by rw [second.recordings, first.recordings, List.append_assoc]⟩

theorem emit_tells (s : State) (event : Event) : Tells s (s.emit event) ([event].filter Event.isRecorded) := by
  refine ⟨⟨rfl, fun _ => rfl⟩, ?_⟩
  rw [recordings, emit, Array.toList_push, List.filter_append]
  rfl

theorem unknown_sink {s : State} {ref : SinkRef} (unknown : s.sinks.size ≤ ref) : s.sink ref = .discard :=
  Store.get_of_size_le s.sinks ref unknown

theorem sink_known {s : State} {ref : SinkRef} (found : s.sink ref ≠ .discard) : ref < s.sinks.size :=
  Nat.lt_of_not_le fun unknown => found (unknown_sink unknown)

theorem sink_of_set (s : State) (ref other : SinkRef) (sink : Sink) :
    (s.setSink ref sink).sink other = if ref = other ∧ ref < s.sinks.size then sink else s.sink other :=
  Store.get_modify_cases s.sinks ref other fun _ => sink

section Files

variable {s : State} {ref : SinkRef} {old : FileSink}

theorem set_file_tells (found : s.sink ref = .file old) (file : FileSink) : Tells s (s.setSink ref (.file file)) [] := by
  refine ⟨⟨Store.size_modify _ _ _, fun other => ?_⟩, (List.append_nil _).symm⟩
  rw [sink_of_set]
  by_cases here : ref = other ∧ ref < s.sinks.size
  · rw [if_pos here, ← here.1, found]
    rfl
  · rw [if_neg here]

theorem flush_file_tells (found : s.sink ref = .file old) (file : FileSink) : Tells s (s.flushFile ref file) [] := by
  by_cases pending : file.isOpen ∧ file.pending ≠ []
  · rw [flushFile, if_pos pending]
    have written (disk : Disk) : Tells s { s with disk } [] := ⟨⟨rfl, fun _ => rfl⟩, (List.append_nil _).symm⟩
    have kept (disk : Disk) : ({ s with disk } : State).sink ref = .file old := found
    exact tells_trans (written _) (set_file_tells (kept _) _)
  · rw [flushFile, if_neg pending]
    exact tells_refl s

theorem write_file_tells (found : s.sink ref = .file old) (file : FileSink) (record : Record) :
    Tells s (s.writeFile ref file record) [] := by
  have known : ref < s.sinks.size := sink_known (by simp [found])
  have kept (next : FileSink) : (s.setSink ref (.file next)).sink ref = .file next := by
    rw [sink_of_set, if_pos ⟨rfl, known⟩]
  by_cases writable : file.isOpen = true
  · rw [writeFile, if_pos writable]
    by_cases urgent : Level.error ≤ record.level
    · simp only [if_pos urgent]
      exact tells_trans (set_file_tells found _) (flush_file_tells (kept _) _)
    · simp only [if_neg urgent]
      exact set_file_tells found _
  · rw [writeFile, if_neg writable]
    exact tells_refl s

end Files

def leavesTo (s : State) : Nat → SinkRef → List SinkRef
  | 0, _ => []
  | depth + 1, ref =>
      match (s.sink ref).targets? with
      | some children => children.flatMap (s.leavesTo depth)
      | none => [ref]

def leaves (s : State) (ref : SinkRef) : List SinkRef := s.leavesTo s.sinks.size ref

def audience (s : State) : List SinkRef := s.logger.sinks.flatMap s.leaves

section Leaves

variable {s t : State} {depth : Nat} {ref leaf : SinkRef}

theorem leaves_to_fan {children : List SinkRef} (found : (s.sink ref).targets? = some children) :
    s.leavesTo (depth + 1) ref = children.flatMap (s.leavesTo depth) := by
  rw [leavesTo, found]

theorem leaves_to_leaf (found : (s.sink ref).targets? = none) : s.leavesTo (depth + 1) ref = [ref] := by
  rw [leavesTo, found]

theorem targets_of_mem_leaves_to (among : leaf ∈ s.leavesTo depth ref) : (s.sink leaf).targets? = none := by
  induction depth generalizing ref with
  | zero => cases among
  | succ depth ih =>
      cases found : (s.sink ref).targets? with
      | none =>
          rw [leaves_to_leaf found, List.mem_singleton] at among
          rwa [among]
      | some children =>
          rw [leaves_to_fan found, List.mem_flatMap] at among
          obtain ⟨_, _, below⟩ := among
          exact ih below

theorem leaves_to_alike (alike : Alike s t) : t.leavesTo depth = s.leavesTo depth := by
  induction depth with
  | zero => rfl
  | succ depth ih =>
      funext ref
      rw [leavesTo, leavesTo, alike_targets alike, ih]

end Leaves

structure Spreads (go : Nat → State → SinkRef → State) (pass : State → SinkRef → State) (say : Text → Event) : Prop where
  stop : ∀ s ref, go 0 s ref = s
  fan : ∀ s ref depth children, s.sink ref = .fanOut children → go (depth + 1) s ref = children.foldl (go depth) s
  leaf : ∀ s ref depth, (s.sink ref).targets? = none → go (depth + 1) s ref = pass s ref
  tells : ∀ s ref, (s.sink ref).targets? = none → Tells s (pass s ref) ((s.sink ref).label?.map say).toList

namespace Spreads

variable {go : Nat → State → SinkRef → State} {pass : State → SinkRef → State} {say : Text → Event}

theorem passed (spreads : Spreads go pass say) {s : State} {leaves : List SinkRef}
    (ends : ∀ leaf ∈ leaves, (s.sink leaf).targets? = none) :
    Tells s (leaves.foldl pass s) (leaves.filterMap fun leaf => (s.sink leaf).label?.map say) := by
  induction leaves generalizing s with
  | nil => exact tells_refl s
  | cons leaf leaves ih =>
      have first := spreads.tells s leaf (ends leaf List.mem_cons_self)
      have rest := ih (s := pass s leaf) fun other among => by
        rw [alike_targets first.toAlike]
        exact ends other (List.mem_cons_of_mem _ among)
      simp only [alike_label first.toAlike] at rest
      have both := tells_trans first rest
      rw [List.filterMap_cons]
      cases heard : (s.sink leaf).label?.map say <;> rwa [heard] at both

-- What is done with one sink after the other is done with the leaves of all, since the nesting stays as it is.
theorem foldl_leaves (spreads : Spreads go pass say) {s : State} {depth : Nat} {each : State → SinkRef → State}
    (single : ∀ t ref, Alike s t → each t ref = (t.leavesTo depth ref).foldl pass t) (refs : List SinkRef) :
    refs.foldl each s = (refs.flatMap (s.leavesTo depth)).foldl pass s := by
  induction refs generalizing s with
  | nil => rfl
  | cons ref refs ih =>
      have first := single s ref (alike_refl s)
      have alike : Alike s (each s ref) := by
        rw [first]
        exact (spreads.passed fun _ => targets_of_mem_leaves_to).toAlike
      have rest := ih fun t other after => single t other (alike_trans alike after)
      rw [List.foldl_cons, rest, leaves_to_alike alike, List.flatMap_cons, List.foldl_append, first]

theorem go_leaves (spreads : Spreads go pass say) (depth : Nat) (s : State) (ref : SinkRef) :
    go depth s ref = (s.leavesTo depth ref).foldl pass s := by
  induction depth generalizing s ref with
  | zero => exact spreads.stop s ref
  | succ depth ih =>
      cases found : s.sink ref with
      | fanOut children =>
          rw [spreads.fan s ref depth children found, leaves_to_fan (by rw [found]; rfl)]
          exact spreads.foldl_leaves (fun t other _ => ih t other) children
      | _ =>
          have ends : (s.sink ref).targets? = none := by
            rw [found]
            rfl
          rw [spreads.leaf s ref depth ends, leaves_to_leaf ends]
          rfl

theorem all_leaves (spreads : Spreads go pass say) (s : State) (refs : List SinkRef) :
    refs.foldl (fun s ref => go s.sinks.size s ref) s = (refs.flatMap s.leaves).foldl pass s := by
  refine spreads.foldl_leaves (fun t ref alike => ?_) refs
  rw [← alike.size]
  exact spreads.go_leaves _ t ref

theorem told (spreads : Spreads go pass say) (s : State) (refs : List SinkRef) :
    Tells s (refs.foldl (fun s ref => go s.sinks.size s ref) s)
      ((refs.flatMap s.leaves).filterMap fun leaf => (s.sink leaf).label?.map say) := by
  rw [spreads.all_leaves]
  refine spreads.passed fun leaf among => ?_
  obtain ⟨_, _, below⟩ := List.mem_flatMap.mp among
  exact targets_of_mem_leaves_to below

end Spreads

section Single

variable {s : State} {ref : SinkRef}

theorem write_to_leaf (record : Record) (ends : (s.sink ref).targets? = none) (depth : Nat) :
    writeTo record (depth + 1) s ref = writeTo record 1 s ref := by
  cases found : s.sink ref with
  | fanOut children =>
      rw [found] at ends
      cases ends
  | _ => simp only [writeTo, found]

theorem flush_to_leaf (ends : (s.sink ref).targets? = none) (depth : Nat) : flushTo (depth + 1) s ref = flushTo 1 s ref := by
  cases found : s.sink ref with
  | fanOut children =>
      rw [found] at ends
      cases ends
  | _ => simp only [flushTo, found]

theorem write_sink_leaf (record : Record) (ends : (s.sink ref).targets? = none) :
    s.writeSink ref record = writeTo record 1 s ref := by
  rw [writeSink]
  cases count : s.sinks.size with
  | zero =>
      have unknown : s.sink ref = .discard := unknown_sink (count ▸ Nat.zero_le ref)
      simp only [writeTo, unknown]
  | succ more => exact write_to_leaf record ends more

theorem flush_sink_leaf (ends : (s.sink ref).targets? = none) : s.flushSink ref = flushTo 1 s ref := by
  rw [flushSink]
  cases count : s.sinks.size with
  | zero =>
      have unknown : s.sink ref = .discard := unknown_sink (count ▸ Nat.zero_le ref)
      simp only [flushTo, unknown]
  | succ more => exact flush_to_leaf ends more

end Single

theorem write_spreads (record : Record) :
    Spreads (writeTo record) (fun s ref => s.writeSink ref record) (.logged · record) where
  stop _ _ := rfl
  fan s ref depth children found := by rw [writeTo, found]
  leaf s ref depth ends := (write_to_leaf record ends depth).trans (write_sink_leaf record ends).symm
  tells s ref ends := by
    rw [write_sink_leaf record ends]
    cases found : s.sink ref with
    | console colors format =>
        simp only [writeTo, found]
        exact emit_tells s _
    | file file =>
        simp only [writeTo, found]
        exact write_file_tells found file record
    | discard =>
        simp only [writeTo, found]
        exact tells_refl s
    | fanOut children =>
        rw [found] at ends
        cases ends
    | recorder label =>
        simp only [writeTo, found]
        exact emit_tells s _

theorem flush_spreads : Spreads flushTo flushSink .flushed where
  stop _ _ := rfl
  fan s ref depth children found := by simp only [flushTo, found]
  leaf s ref depth ends := (flush_to_leaf ends depth).trans (flush_sink_leaf ends).symm
  tells s ref ends := by
    rw [flush_sink_leaf ends]
    cases found : s.sink ref with
    | file file =>
        simp only [flushTo, found]
        exact flush_file_tells found file
    | fanOut children =>
        rw [found] at ends
        cases ends
    | recorder label =>
        simp only [flushTo, found]
        exact emit_tells s _
    | _ =>
        simp only [flushTo, found]
        exact tells_refl s

theorem write_sink_leaves (s : State) (ref : SinkRef) (record : Record) :
    s.writeSink ref record = (s.leaves ref).foldl (fun s leaf => s.writeSink leaf record) s :=
  (write_spreads record).go_leaves _ s ref

theorem flush_sink_leaves (s : State) (ref : SinkRef) : s.flushSink ref = (s.leaves ref).foldl flushSink s :=
  flush_spreads.go_leaves _ s ref

end State

end UnitRegistry
