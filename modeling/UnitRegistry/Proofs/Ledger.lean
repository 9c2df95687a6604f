import Mathlib.Algebra.Ring.Nat
import UnitRegistry.Proofs.Reporting

set_option autoImplicit false

namespace UnitRegistry

namespace Event

def warning? (ref : AccumulatorRef) : Event → Option Remark
  | .warned of remark => if of = ref then some remark else none
  | _ => none

def summary? (ref : AccumulatorRef) : Event → Option Nat
  | .summarized of count => if of = ref then some count else none
  | _ => none

def IsAside (ref : AccumulatorRef) (event : Event) : Prop := event.warning? ref = none ∧ event.summary? ref = none

end Event

def warningsGiven (ref : AccumulatorRef) (events : List Event) : List Remark := events.filterMap (Event.warning? ref)

def summariesStated (ref : AccumulatorRef) (events : List Event) : List Nat := events.filterMap (Event.summary? ref)

theorem warnings_given_append (ref : AccumulatorRef) (earlier later : List Event) :
    warningsGiven ref (earlier ++ later) = warningsGiven ref earlier ++ warningsGiven ref later :=
  List.filterMap_append

theorem summaries_stated_append (ref : AccumulatorRef) (earlier later : List Event) :
    summariesStated ref (earlier ++ later) = summariesStated ref earlier ++ summariesStated ref later :=
  List.filterMap_append

theorem output_aside (ref : AccumulatorRef) (event : Event) (output : event.isOutput = true) : event.IsAside ref := by
  cases event <;> first | exact ⟨rfl, rfl⟩ | cases output

theorem asides_read_nothing (ref : AccumulatorRef) (events : List Event) (asides : ∀ event ∈ events, event.IsAside ref) :
    warningsGiven ref events = [] ∧ summariesStated ref events = [] :=
  ⟨List.filterMap_eq_nil_iff.mpr fun event member => (asides event member).1,
    List.filterMap_eq_nil_iff.mpr fun event member => (asides event member).2⟩

def announced (event : Event) (printed : List Event) (reporter : ReporterRef) (entry : Entry) : List Event :=
  event :: (printed ++ [.reported reporter entry])

theorem announced_rest_aside (ref : AccumulatorRef) (printed : List Event) (reporter : ReporterRef) (entry : Entry)
    (output : ∀ event ∈ printed, event.isOutput = true) : ∀ event ∈ printed ++ [.reported reporter entry], event.IsAside ref := by
  intro event member
  rcases List.mem_append.mp member with shown | last
  · exact output_aside ref event (output event shown)
  · rw [List.mem_singleton.mp last]
    exact ⟨rfl, rfl⟩

-- What is held at first, what happens, and what is held in the end. Of the accumulator itself only its settings count.
inductive Ledger (ref : AccumulatorRef) (reporter : ReporterRef) (settings : Accumulator) :
    List Remark → List Event → List Remark → Prop where
  | nil (held : List Remark) : Ledger ref reporter settings held [] held
  | aside {held last : List Remark} {rest : List Event} (event : Event) (aside : event.IsAside ref)
      (later : Ledger ref reporter settings held rest last) : Ledger ref reporter settings held (event :: rest) last
  | pass {held last : List Remark} {rest : List Event} (remark : Remark) (severity : Severity) (printed : List Event)
      (enabled : settings.enabled = true) (serious : severity ≠ .info)
      (output : ∀ event ∈ printed, event.isOutput = true) (later : Ledger ref reporter settings held rest last) :
      Ledger ref reporter settings held
        (announced (.warned ref remark) printed reporter ⟨severity, remark.position, remark.message⟩ ++ rest) last
  | hold {held last : List Remark} {rest : List Event} (remark : Remark) (disabled : settings.enabled = false)
      (later : Ledger ref reporter settings (held ++ [remark]) rest last) :
      Ledger ref reporter settings held (.warned ref remark :: rest) last
  | summarize {held last : List Remark} {rest : List Event} (severity : Severity) (printed : List Event)
      (some : held ≠ []) (serious : severity ≠ .info) (output : ∀ event ∈ printed, event.isOutput = true)
      (later : Ledger ref reporter settings [] rest last) :
      Ledger ref reporter settings held
        (announced (.summarized ref held.length) printed reporter
          ⟨severity, .nowhere, settings.summaryMessage held.length⟩ ++ rest) last

section Reading

variable {ref : AccumulatorRef} {reporter : ReporterRef} {settings : Accumulator} {held middle last : List Remark}
  {events earlier later : List Event}

theorem ledger_append (first : Ledger ref reporter settings held earlier middle)
    (second : Ledger ref reporter settings middle later last) :
    Ledger ref reporter settings held (earlier ++ later) last := by
  induction first with
  | nil held => exact second
  | aside event aside _ ih => exact .aside event aside (ih second)
  | pass remark severity printed enabled serious output _ ih =>
      rw [List.append_assoc]
      exact .pass remark severity printed enabled serious output (ih second)
  | hold remark disabled _ ih => exact .hold remark disabled (ih second)
  | summarize severity printed some serious output _ ih =>
      rw [List.append_assoc]
      exact .summarize severity printed some serious output (ih second)

theorem ledger_asides (held : List Remark) (events : List Event) (asides : ∀ event ∈ events, event.IsAside ref) :
    Ledger ref reporter settings held events held := by
  induction events with
  | nil => exact .nil held
  | cons event rest ih =>
      exact .aside event (asides event (by simp)) (ih fun other member => asides other (by simp [member]))

theorem ledger_pass (held : List Remark) (remark : Remark) (severity : Severity) (printed : List Event)
    (enabled : settings.enabled = true) (serious : severity ≠ .info) (output : ∀ event ∈ printed, event.isOutput = true) :
    Ledger ref reporter settings held
      (announced (.warned ref remark) printed reporter ⟨severity, remark.position, remark.message⟩) held := by
  have passed : Ledger ref reporter settings held _ held :=
    .pass remark severity printed enabled serious output (.nil held)
  rwa [List.append_nil] at passed

theorem ledger_summarize (held : List Remark) (severity : Severity) (printed : List Event) (some : held ≠ [])
    (serious : severity ≠ .info) (output : ∀ event ∈ printed, event.isOutput = true) :
    Ledger ref reporter settings held
      (announced (.summarized ref held.length) printed reporter
        ⟨severity, .nowhere, settings.summaryMessage held.length⟩) [] := by
  have summarized : Ledger ref reporter settings held _ [] :=
    .summarize severity printed some serious output (.nil [])
  rwa [List.append_nil] at summarized

theorem read_announced (event : Event) (printed : List Event) (entry : Entry) (rest : List Event)
    (output : ∀ event ∈ printed, event.isOutput = true) :
    warningsGiven ref (announced event printed reporter entry ++ rest) = warningsGiven ref (event :: rest) ∧
      summariesStated ref (announced event printed reporter entry ++ rest) = summariesStated ref (event :: rest) := by
  obtain ⟨given, stated⟩ := asides_read_nothing ref _ (announced_rest_aside ref printed reporter entry output)
  have remarks : warningsGiven ref (printed ++ [.reported reporter entry] ++ rest) = warningsGiven ref rest := by
    rw [warnings_given_append, given, List.nil_append]
  have numbers : summariesStated ref (printed ++ [.reported reporter entry] ++ rest) = summariesStated ref rest := by
    rw [summaries_stated_append, stated, List.nil_append]
  rw [announced, List.cons_append, ← List.singleton_append, warnings_given_append, summaries_stated_append, remarks, numbers,
    ← warnings_given_append, ← summaries_stated_append]
  exact ⟨rfl, rfl⟩

theorem read_aside (event : Event) (rest : List Event) (aside : event.IsAside ref) :
    warningsGiven ref (event :: rest) = warningsGiven ref rest ∧
      summariesStated ref (event :: rest) = summariesStated ref rest :=
  ⟨List.filterMap_cons_none aside.1, List.filterMap_cons_none aside.2⟩

theorem read_warned (remark : Remark) (rest : List Event) :
    warningsGiven ref (.warned ref remark :: rest) = remark :: warningsGiven ref rest ∧
      summariesStated ref (.warned ref remark :: rest) = summariesStated ref rest :=
  ⟨List.filterMap_cons_some (by simp [Event.warning?]), List.filterMap_cons_none rfl⟩

theorem read_summarized (number : Nat) (rest : List Event) :
    warningsGiven ref (.summarized ref number :: rest) = warningsGiven ref rest ∧
      summariesStated ref (.summarized ref number :: rest) = number :: summariesStated ref rest :=
  ⟨List.filterMap_cons_none rfl, List.filterMap_cons_some (by simp [Event.summary?])⟩

theorem ledger_enabled (enabled : settings.enabled = true) (ledger : Ledger ref reporter settings held events last)
    (none : held = []) : last = [] ∧ summariesStated ref events = [] := by
  induction ledger with
  | nil held => exact ⟨none, rfl⟩
  | aside event aside _ ih =>
      rw [(read_aside event _ aside).2]
      exact ih none
  | pass remark severity printed _ serious output _ ih =>
      rw [(read_announced _ _ _ _ output).2, (read_warned remark _).2]
      exact ih none
  | hold remark disabled =>
      rw [enabled] at disabled
      cases disabled
  | summarize severity printed some => exact absurd none some

theorem ledger_disabled (disabled : settings.enabled = false) (ledger : Ledger ref reporter settings held events last) :
    (∀ number ∈ summariesStated ref events, 1 ≤ number) ∧
      ∃ stated, held ++ warningsGiven ref events = stated ++ last ∧ stated.length = (summariesStated ref events).sum := by
  induction ledger with
  | nil held => exact ⟨by simp [summariesStated], [], by simp [warningsGiven], by simp [summariesStated]⟩
  | aside event aside _ ih =>
      obtain ⟨given, stated⟩ := read_aside event _ aside
      rw [given, stated]
      exact ih
  | pass remark severity printed enabled =>
      rw [disabled] at enabled
      cases enabled
  | hold remark _ _ ih =>
      obtain ⟨positive, stated, split, sum⟩ := ih
      rw [(read_warned remark _).1, (read_warned remark _).2]
      exact ⟨positive, stated, by simpa using split, sum⟩
  | @summarize held _ rest severity printed some _ output _ ih =>
      obtain ⟨positive, stated, split, sum⟩ := ih
      rw [(read_announced _ _ _ _ output).1, (read_announced _ _ _ _ output).2, (read_summarized _ rest).1,
        (read_summarized _ rest).2]
      refine ⟨fun number member => ?_, held ++ stated, ?_, ?_⟩
      · rcases List.mem_cons.mp member with rfl | later
        · exact List.length_pos_iff.mpr some
        · exact positive number later
      · rw [List.append_assoc, ← split, List.nil_append]
      · rw [List.length_append, List.sum_cons, sum]

theorem ledger_without_warnings (ledger : Ledger ref reporter settings held events last)
    (none : warningsGiven ref events = []) :
    last = held ∧ summariesStated ref events = [] ∨
      held ≠ [] ∧ last = [] ∧ summariesStated ref events = [held.length] := by
  induction ledger with
  | nil held => exact .inl ⟨rfl, rfl⟩
  | aside event aside _ ih =>
      obtain ⟨given, stated⟩ := read_aside event _ aside
      rw [given] at none
      rw [stated]
      exact ih none
  | pass remark severity printed _ _ output =>
      rw [(read_announced _ _ _ _ output).1, (read_warned remark _).1] at none
      cases none
  | hold remark =>
      rw [(read_warned remark _).1] at none
      cases none
  | @summarize held last rest severity printed some _ output _ ih =>
      rw [(read_announced _ _ _ _ output).1, (read_summarized _ rest).1] at none
      rw [(read_announced _ _ _ _ output).2, (read_summarized _ rest).2]
      rcases ih none with ⟨same, nothing⟩ | ⟨impossible, _⟩
      · exact .inr ⟨some, same, by rw [nothing]⟩
      · exact absurd rfl impossible

end Reading

end UnitRegistry
