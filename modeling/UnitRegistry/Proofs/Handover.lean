import UnitRegistry.Proofs.Apart
import UnitRegistry.Proofs.Ownership

set_option autoImplicit false

namespace UnitRegistry

open Log (Sink SinkRef Config)
open Relation (TransGen ReflTransGen)

namespace State

structure Settles (s t : State) (events : List Event) : Prop where
  size : s.sinks.size ≤ t.sinks.size
  fewer : ∀ ref, (t.sink ref).children.Sublist (s.sink ref).children
  recordings : t.recordings = s.recordings ++ events

theorem settles_of_same {s t : State} (sinks : t.sinks = s.sinks) (journal : t.journal = s.journal) : Settles s t [] := by
  refine ⟨Nat.le_of_eq (by rw [sinks]), fun ref => ?_, ?_⟩
  · rw [sink, sinks]
    exact .refl _
  · rw [recordings, journal]
    exact (List.append_nil _).symm

theorem settles_refl (s : State) : Settles s s [] := settles_of_same rfl rfl

theorem settles_trans {s t u : State} {earlier later : List Event} (first : Settles s t earlier)
    (second : Settles t u later) : Settles s u (earlier ++ later) :=
  ⟨Nat.le_trans first.size second.size, fun ref => (second.fewer ref).trans (first.fewer ref),
    by rw [second.recordings, first.recordings, List.append_assoc]⟩

theorem tells_settles {s t : State} {events : List Event} (tells : Tells s t events) : Settles s t events := by
  refine ⟨Nat.le_of_eq tells.size.symm, fun ref => ?_, tells.recordings⟩
  rw [Sink.children_of_targets, Sink.children_of_targets, alike_targets tells.toAlike]

section Settling

variable (s : State) {sink : Sink} (childless : sink.children = [])
include childless

theorem set_sink_settles (ref : SinkRef) : Settles s (s.setSink ref sink) [] := by
  refine ⟨Nat.le_of_eq (Store.size_modify _ _ _).symm, fun other => ?_, (List.append_nil _).symm⟩
  rw [sink_of_set]
  split
  · rw [childless]
    exact List.nil_sublist _
  · exact .refl _

theorem push_sink_settles : Settles s (s.pushSink sink).1 [] := by
  have size : (s.pushSink sink).1.sinks.size = s.sinks.size + 1 := Store.size_push s.sinks sink
  refine ⟨by omega, fun other => ?_, (List.append_nil _).symm⟩
  by_cases last : other = s.sinks.size
  · subst last
    have pushed : (s.pushSink sink).1.sink s.sinks.size = sink := Store.get_push_self s.sinks sink
    rw [pushed, childless]
    exact List.nil_sublist _
  · have kept : (s.pushSink sink).1.sink other = s.sink other := Store.get_push_of_ne s.sinks sink other last
    rw [kept]

end Settling

theorem close_sink_settles (s : State) (ref : SinkRef) : Settles s (s.closeSink ref) [] := by
  cases found : s.sink ref with
  | file file =>
      simp only [closeSink, found]
      exact settles_trans (tells_settles (flush_file_tells found file)) (set_sink_settles _ rfl ref)
  | fanOut children =>
      simp only [closeSink, found]
      exact set_sink_settles s rfl ref
  | _ =>
      simp only [closeSink, found]
      exact settles_refl s

theorem release_in_settles (steps : Nat) (s : State) (due : List SinkRef) : Settles s (releaseIn steps s due) [] := by
  induction steps generalizing s due with
  | zero => exact settles_refl s
  | succ steps ih =>
      cases due with
      | nil => exact settles_refl s
      | cons ref due =>
          by_cases held : ref ∈ due ∨ ref ∈ s.sinkHolds
          · rw [releaseIn, if_pos held]
            exact ih s due
          · rw [releaseIn, if_neg held]
            exact settles_trans (close_sink_settles s ref) (ih _ _)

theorem open_file_settles (s : State) (path : Text) (append : Bool) (format : Log.Format) :
    Settles s (s.openFile path append format).1 [] := by
  cases found : Disk.resolve path with
  | none =>
      simp only [openFile, found]
      exact settles_refl s
  | some name =>
      simp only [openFile, found]
      exact settles_of_same rfl rfl

theorem hold_sink_settles (s : State) {sink : Sink} (childless : sink.children = []) : Settles s (s.holdSink sink).1 [] := by
  have pushed := push_sink_settles s childless
  exact ⟨pushed.size, pushed.fewer, pushed.recordings⟩

section Changes

variable {s t : State}

theorem forest_of_settles (forest : s.Forest) {events : List Event} (settles : Settles s t events)
    (once : t.logger.sinks.Nodup)
    (roots : ∀ ref ∈ t.logger.sinks, ref < t.sinks.size ∧ ∀ parent, ¬ s.Holds parent ref) : t.Forest := by
  have earlier (parent child : SinkRef) (holds : t.Holds parent child) : s.Holds parent child :=
    (settles.fewer parent).subset holds
  refine ⟨fun ref among => ?_, nodup_owned_iff.mpr ⟨once, ?_, ?_, fun ref root parent holds => ?_⟩, fun ref cycle => ?_⟩
  · obtain root | ⟨parent, holds⟩ := (mem_owned_iff ref).mp among
    · exact (roots ref root).1
    · exact Nat.lt_of_lt_of_le (forest.child_known (earlier parent ref holds)) settles.size
  · exact fun parent => forest.children_once.sublist (settles.fewer parent)
  · exact fun first second child left right => forest.one_parent (earlier first child left) (earlier second child right)
  · exact (roots ref root).2 parent (earlier parent ref holds)
  · exact forest.acyclic ref (TransGen.mono earlier _ _ cycle)

theorem forest_of_same_roots (forest : s.Forest) {events : List Event} (settles : Settles s t events)
    (roots : t.logger.sinks = s.logger.sinks) : t.Forest := by
  refine forest_of_settles forest settles ?_ fun ref root => ?_
  · rw [roots]
    exact forest.roots_once
  · rw [roots] at root
    exact ⟨Nat.lt_of_lt_of_le (forest.root_known root) settles.size, fun _ => forest.no_parent root⟩

theorem add_sink_forest (forest : s.Forest) {ref : SinkRef} (known : ref < s.sinks.size) (free : ref ∉ s.owned) :
    (s.addSink ref).Forest := by
  rw [mem_owned_iff, not_or, not_exists] at free
  refine forest_of_settles forest (settles_of_same rfl rfl) ?_ fun other among => ?_
  · refine List.nodup_append.mpr ⟨forest.roots_once, List.nodup_singleton ref, ?_⟩
    rintro earlier among _ last rfl
    exact free.1 (List.mem_singleton.mp last ▸ among)
  · obtain root | last := List.mem_append.mp among
    · exact ⟨forest.root_known root, fun _ => forest.no_parent root⟩
    · rw [List.mem_singleton.mp last]
      exact ⟨known, free.2⟩

theorem below_of_added {parent child above below : SinkRef}
    (added : ∀ first second, t.Holds first second → s.Holds first second ∨ first = parent ∧ second = child)
    (chain : TransGen t.Holds above below) :
    TransGen s.Holds above below ∨ ReflTransGen s.Holds above parent ∧ ReflTransGen s.Holds child below := by
  induction chain with
  | single holds =>
      obtain holds | ⟨rfl, rfl⟩ := added _ _ holds
      · exact .inl (.single holds)
      · exact .inr ⟨.refl, .refl⟩
  | tail _ holds ih =>
      obtain holds | ⟨rfl, rfl⟩ := added _ _ holds
      · obtain chain | ⟨before, behind⟩ := ih
        · exact .inl (.tail chain holds)
        · exact .inr ⟨before, .tail behind holds⟩
      · obtain chain | ⟨before, _⟩ := ih
        · exact .inr ⟨chain.to_reflTransGen, .refl⟩
        · exact .inr ⟨before, .refl⟩

end Changes

section Child

variable {s : State} {parent child : SinkRef}

theorem add_child_size (s : State) (parent child : SinkRef) : (s.addChild parent child).sinks.size = s.sinks.size := by
  cases found : s.sink parent with
  | fanOut children =>
      simp only [addChild, found]
      exact Store.size_modify _ _ _
  | _ => simp only [addChild, found]

theorem add_child_roots (s : State) (parent child : SinkRef) :
    (s.addChild parent child).logger.sinks = s.logger.sinks := by
  cases found : s.sink parent <;> simp only [addChild, found, setSink]

theorem add_child_recordings (s : State) (parent child : SinkRef) : (s.addChild parent child).recordings = s.recordings := by
  cases found : s.sink parent <;> simp only [addChild, found, setSink, recordings]

variable {children : List SinkRef} (found : s.sink parent = .fanOut children)
include found

theorem children_of_add_child (child ref : SinkRef) :
    ((s.addChild parent child).sink ref).children = (s.sink ref).children ++ if ref = parent then [child] else [] := by
  have known : parent < s.sinks.size := sink_known (by simp [found])
  simp only [addChild, found, sink_of_set]
  by_cases here : parent = ref
  · rw [if_pos ⟨here, known⟩, if_pos here.symm, ← here, found]
    rfl
  · rw [if_neg fun both => here both.1, if_neg fun same => here same.symm, List.append_nil]

theorem holds_of_add_child (child first second : SinkRef) (holds : (s.addChild parent child).Holds first second) :
    s.Holds first second ∨ first = parent ∧ second = child := by
  rw [Holds, children_of_add_child found child] at holds
  by_cases here : first = parent <;> simpa [here, Holds] using holds

theorem add_child_once (forest : s.Forest) (free : child ∉ s.owned) : (s.addChild parent child).owned.Nodup := by
  have added := holds_of_add_child found child
  rw [mem_owned_iff, not_or, not_exists] at free
  rw [nodup_owned_iff, add_child_roots]
  refine ⟨forest.roots_once, fun ref => ?_, fun first second other left right => ?_, fun ref root above holds => ?_⟩
  · rw [children_of_add_child found child]
    refine List.nodup_append.mpr ⟨forest.children_once, by split <;> simp, ?_⟩
    rintro other among _ last rfl
    have new : other = child := by
      split at last
      · exact List.mem_singleton.mp last
      · cases last
    exact free.2 ref (new ▸ among)
  · obtain before | ⟨rfl, rfl⟩ := added first other left
    · obtain later | ⟨rfl, rfl⟩ := added second other right
      · exact forest.one_parent before later
      · exact absurd before (free.2 first)
    · obtain later | ⟨rfl, _⟩ := added second other right
      · exact absurd later (free.2 second)
      · rfl
  · obtain before | ⟨_, rfl⟩ := added above ref holds
    · exact forest.no_parent root before
    · exact free.1 root

end Child

theorem add_child_forest {s : State} (forest : s.Forest) {parent child : SinkRef} (known : child < s.sinks.size)
    (free : child ∉ s.owned) (apart : ¬ ReflTransGen s.Holds child parent) : (s.addChild parent child).Forest := by
  cases found : s.sink parent with
  | fanOut children =>
      have added := holds_of_add_child found child
      refine ⟨fun ref among => ?_, add_child_once found forest free, fun ref cycle => ?_⟩
      · rw [mem_owned_iff, add_child_roots] at among
        rw [add_child_size]
        obtain root | ⟨above, holds⟩ := among
        · exact forest.root_known root
        · obtain before | ⟨_, rfl⟩ := added above ref holds
          · exact forest.child_known before
          · exact known
      · obtain before | ⟨above, behind⟩ := below_of_added added cycle
        · exact forest.acyclic ref before
        · exact apart (behind.trans above)
  | _ =>
      simp only [addChild, found]
      exact forest

structure Equips (s t : State) : Prop extends Settles s t [] where
  made : ∃ made, t.logger.sinks = s.logger.sinks ++ made ∧ made.Nodup ∧ ∀ ref ∈ made, s.sinks.size ≤ ref ∧ ref < t.sinks.size

theorem settles_equips {s t : State} (settles : Settles s t []) (roots : t.logger.sinks = s.logger.sinks) : Equips s t :=
  ⟨settles, [], by rw [roots, List.append_nil], List.nodup_nil, fun _ among => by cases among⟩

theorem equips_trans {s t u : State} (first : Equips s t) (second : Equips t u) : Equips s u := by
  obtain ⟨earlier, before, once, bounds⟩ := first.made
  obtain ⟨later, after, onceLater, boundsLater⟩ := second.made
  refine ⟨settles_trans first.toSettles second.toSettles, earlier ++ later, ?_, ?_, fun ref among => ?_⟩
  · rw [after, before, List.append_assoc]
  · refine List.nodup_append.mpr ⟨once, onceLater, fun ref among other amongLater same => ?_⟩
    have under := (bounds ref among).2
    have least := (boundsLater other amongLater).1
    rw [same] at under
    exact Nat.not_lt_of_le least under
  · obtain among | among := List.mem_append.mp among
    · exact ⟨(bounds ref among).1, Nat.lt_of_lt_of_le (bounds ref among).2 second.size⟩
    · exact ⟨Nat.le_trans first.size (boundsLater ref among).1, (boundsLater ref among).2⟩

theorem push_to_logger_equips (s : State) {sink : Sink} (childless : sink.children = []) :
    Equips s ((s.pushSink sink).1.addSink (s.pushSink sink).2) := by
  have pushed := push_sink_settles s childless
  refine ⟨⟨pushed.size, pushed.fewer, pushed.recordings⟩, [s.sinks.size], rfl, List.nodup_singleton _, fun ref among => ?_⟩
  rw [List.mem_singleton.mp among]
  exact ⟨Nat.le_refl _, Nat.lt_of_lt_of_eq (Nat.lt_succ_self _) (Store.size_push _ _).symm⟩

theorem add_console_equips (s : State) (config : Config) : Equips s (s.addConsole config) := by
  by_cases console : config.console = true
  · rw [addConsole, if_pos console]
    exact push_to_logger_equips s rfl
  · rw [addConsole, if_neg console]
    exact settles_equips (settles_refl s) rfl

theorem add_log_file_equips (s : State) (config : Config) : Equips s (s.addLogFile config) := by
  have opened : Equips s (s.openFile config.file true config.format).1 :=
    settles_equips (open_file_settles s _ _ _) (congrArg Log.Logger.sinks (inert_apart (open_file_inert s _ _ _)).logger)
  by_cases none : config.file = []
  · rw [addLogFile, if_pos none]
    exact settles_equips (settles_refl s) rfl
  · rw [addLogFile, if_neg none]
    by_cases writable : (s.openFile config.file true config.format).2.isOpen = true
    · simp only [if_pos writable]
      exact equips_trans opened (push_to_logger_equips _ rfl)
    · simp only [if_neg writable]
      exact equips_trans opened (settles_equips (tells_settles (emit_tells _ _)) rfl)

theorem configure_log_equips (s : State) (config : Config) :
    Equips (s.setLogger (.configure config.level config.filter)) (s.configureLog config) := by
  have released := settles_equips (release_in_settles _ _ _)
    (congrArg Log.Logger.sinks (inert_apart (release_inert (s.setLogger (.configure config.level config.filter)) s.logger.sinks)).logger)
  exact equips_trans (equips_trans released (add_console_equips _ config)) (add_log_file_equips _ config)

theorem equips_forest {s t : State} (forest : s.Forest) (equips : Equips s t) : t.Forest := by
  obtain ⟨made, sinks, once, bounds⟩ := equips.made
  have fresh {ref parent : SinkRef} (holds : s.Holds parent ref) (among : ref ∈ made) : False :=
    Nat.not_lt_of_le (bounds ref among).1 (forest.child_known holds)
  refine forest_of_settles forest equips.toSettles ?_ fun ref among => ?_
  · rw [sinks]
    refine List.nodup_append.mpr ⟨forest.roots_once, once, ?_⟩
    rintro ref root _ among rfl
    exact Nat.not_lt_of_le (bounds ref among).1 (forest.root_known root)
  · rw [sinks] at among
    obtain root | among := List.mem_append.mp among
    · exact ⟨Nat.lt_of_lt_of_le (forest.root_known root) equips.size, fun _ => forest.no_parent root⟩
    · exact ⟨(bounds ref among).2, fun parent holds => fresh holds among⟩

end State

end UnitRegistry
