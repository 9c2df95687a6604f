import UnitRegistry.Proofs.Accounts

set_option autoImplicit false

namespace UnitRegistry

namespace Reporter

structure Takes (entries : List Entry) (r q : Reporter) : Prop where
  count : ∀ severity, q.count severity = r.count severity + (entries.filter (·.severity == severity)).length
  kept : ∀ before remarks, r.display = .store before remarks → q.display = .store (before ++ entries.toArray) remarks

theorem takes_nil (r : Reporter) : r.Takes [] r := ⟨fun _ => rfl, fun before remarks display => by simp [display]⟩

theorem takes_append {earlier later : List Entry} {r q p : Reporter} (first : r.Takes earlier q)
    (second : q.Takes later p) : r.Takes (earlier ++ later) p := by
  constructor
  · intro severity
    rw [second.count, first.count, List.filter_append, List.length_append, Nat.add_assoc]
  · intro before remarks display
    rw [second.kept _ remarks (first.kept before remarks display)]
    simp

theorem takes_record (r : Reporter) (entry : Entry) : r.Takes [entry] (r.record entry) := by
  constructor
  · intro severity
    cases kind : entry.severity <;> cases severity <;> simp [record, count, Counts.increment, Counts.get, kind]
  · intro before remarks display
    simp [record, display]

theorem takes_entries {entries : List Entry} {r q : Reporter} (takes : r.Takes entries q) {before : Array Entry}
    {remarks : Array Remark} (display : r.display = .store before remarks) : q.entries = r.entries ++ entries := by
  simp [Reporter.entries, display, takes.kept before remarks display]

end Reporter

def received (ref : ReporterRef) (sent : List (ReporterRef × Entry)) : List Entry :=
  sent.filterMap fun message => if message.1 = ref then some message.2 else none

namespace Store

variable {reporters : Store Reporter}

def deliver (reporters : Store Reporter) (message : ReporterRef × Entry) : Store Reporter :=
  reporters.modify message.1 (·.record message.2)

theorem size_delivered (sent : List (ReporterRef × Entry)) (reporters : Store Reporter) :
    (sent.foldl deliver reporters).size = reporters.size := by
  induction sent generalizing reporters with
  | nil => rfl
  | cons message rest ih => rw [List.foldl_cons, ih, deliver, size_modify]

theorem takes_delivered (ref : ReporterRef) (sent : List (ReporterRef × Entry)) (reporters : Store Reporter)
    (there : ref < reporters.size) :
    (reporters.get ref).Takes (received ref sent) ((sent.foldl deliver reporters).get ref) := by
  induction sent generalizing reporters with
  | nil => exact Reporter.takes_nil _
  | cons message rest ih =>
      have later := ih (reporters.deliver message) (by simpa [deliver] using there)
      have got := get_modify_cases reporters message.1 ref (·.record message.2)
      by_cases own : message.1 = ref
      · rw [if_pos ⟨own, own ▸ there⟩] at got
        rw [deliver, got] at later
        have first := Reporter.takes_append (Reporter.takes_record (reporters.get ref) message.2) later
        simpa [received, own, deliver] using first
      · rw [if_neg fun both => own both.1] at got
        rw [deliver, got] at later
        simpa [received, own, deliver] using later

theorem get_delivered_of_ne (other : ReporterRef) (sent : List (ReporterRef × Entry)) (reporters : Store Reporter)
    (elsewhere : ∀ message ∈ sent, message.1 ≠ other) : (sent.foldl deliver reporters).get other = reporters.get other := by
  induction sent generalizing reporters with
  | nil => rfl
  | cons message rest ih =>
      rw [List.foldl_cons, ih _ fun next member => elsewhere next (by simp [member]), deliver]
      exact get_modify_of_ne reporters message.1 other _ (elsewhere message (by simp))

end Store

def State.passed (s : State) (ref : AccumulatorRef) (remark : Remark) : List (ReporterRef × Entry) :=
  if (s.accumulator ref).enabled then [(s.accumulatorReporter ref, s.warned remark)] else []

def State.stated (s : State) (ref : AccumulatorRef) : List (ReporterRef × Entry) :=
  (s.accumulator ref).summary?.toList.map fun message => (s.accumulatorReporter ref, s.warned ⟨.nowhere, message⟩)

structure State.Informs (ref : ReporterRef) (entries : List Entry) (s t : State) : Prop where
  takes : (s.reporter ref).Takes entries (t.reporter ref)
  others : ∀ other, other ≠ ref → t.reporter other = s.reporter other

namespace State

theorem informs_of_delivered {s t : State} {ref : ReporterRef} (entries : List Entry) (there : ref < s.reporters.size)
    (same : t.reporters = (entries.map (ref, ·)).foldl Store.deliver s.reporters) : s.Informs ref entries t := by
  have own : received ref (entries.map (ref, ·)) = entries := by
    simp only [received, List.filterMap_map, Function.comp_def, if_true, List.filterMap_some]
  constructor
  · have takes := Store.takes_delivered ref (entries.map (ref, ·)) s.reporters there
    rwa [own, ← same] at takes
  · intro other different
    rw [reporter, same]
    refine Store.get_delivered_of_ne other _ s.reporters fun message member => ?_
    obtain ⟨_, _, rfl⟩ := List.mem_map.mp member
    exact different.symm

section Recorded

variable {s begun printed : State} {ref : ReporterRef} (same : begun.reporters = s.reporters) (outputs : Outputs begun printed)
include same outputs

theorem recorded_reporters (ref : ReporterRef) (entry : Entry) :
    (printed.recorded ref entry).reporters = s.reporters.deliver (ref, entry) := by
  change printed.reporters.modify ref (·.record entry) = _
  rw [outputs_reporters outputs, same]
  rfl

theorem informs_recorded (entry : Entry) (there : ref < s.reporters.size) :
    s.Informs ref [entry] (printed.recorded ref entry) :=
  informs_of_delivered [entry] there (recorded_reporters same outputs ref entry)

end Recorded

theorem emptied_reporters (s : State) (ref : AccumulatorRef) : (s.emptied ref).reporters = s.reporters := by cases ref <;> rfl

section Deliveries

variable (s : State)

theorem report_entry_reporters (ref : ReporterRef) (entry : Entry) :
    (s.reportEntry ref entry).reporters = s.reporters.modify ref (·.record entry) :=
  recorded_reporters rfl (print_outputs s ((s.reporter ref).shown entry)) ref entry

theorem warn_reporters (ref : AccumulatorRef) (remark : Remark) :
    (s.warn ref remark).reporters = (s.passed ref remark).foldl Store.deliver s.reporters := by
  cases enabled : (s.accumulator ref).enabled with
  | false =>
      rw [passed, enabled, warn_holds s ref remark enabled]
      cases ref <;> rfl
  | true =>
      obtain ⟨printed, outputs, shown⟩ := warn_passes s ref remark enabled
      rw [passed, enabled, shown]
      exact recorded_reporters rfl outputs _ _

theorem summarize_reporters (ref : AccumulatorRef) :
    (s.summarize ref).reporters = (s.stated ref).foldl Store.deliver s.reporters := by
  by_cases none : (s.accumulator ref).count = 0
  · rw [summarize_idle s ref none, stated, Accumulator.summary?, if_pos none]
    rfl
  · obtain ⟨printed, outputs, said⟩ := summarize_states s ref none
    rw [said, stated, Accumulator.summary?, if_neg none]
    exact recorded_reporters (emptied_reporters s ref) outputs _ _

theorem summarize_other_category (context : ContextRef) (category other : Category) (different : category ≠ other) :
    (s.summarize (.category context category)).accumulator (.category context other) =
      s.accumulator (.category context other) := by
  cases held : s.holds context category with
  | false => rw [summarize_none s context category held]
  | true =>
      obtain ⟨remark, summary⟩ := summarize_held s context category held
      have kept : ((s.emptied (.category context category)).report (s.context context).reporter .warning remark).contexts =
          (s.emptied (.category context category)).contexts := report_entry_contexts _ _ _
      rw [summary, accumulator, State.context, kept]
      exact modify_other_category _ context category other Accumulator.clear different

-- A summary leaves the other categories as they are, so each of them states what it would have stated at first.
theorem stated_summarize (context : ContextRef) (category other : Category) (different : category ≠ other) :
    (s.summarize (.category context category)).stated (.category context other) = s.stated (.category context other) := by
  have reports := summarize_category_reports s context category
  have sender := reports.reporter context
  simp only [stated, summarize_other_category s context category other different, accumulatorReporter, sender, warned,
    warningSeverity, reports.options]

theorem summarize_categories_reporters (context : ContextRef) (categories : List Category) (once : categories.Nodup) :
    (categories.foldl (fun s category => s.summarize (.category context category)) s).reporters =
      (categories.flatMap fun category => s.stated (.category context category)).foldl Store.deliver s.reporters := by
  induction categories generalizing s with
  | nil => rfl
  | cons category rest ih =>
      obtain ⟨fresh, once⟩ := List.nodup_cons.mp once
      have later : (rest.flatMap fun other => (s.summarize (.category context category)).stated (.category context other)) =
          rest.flatMap fun other => s.stated (.category context other) := by
        rw [List.flatMap_def, List.flatMap_def]
        apply congrArg List.flatten
        apply List.map_congr_left
        intro other member
        exact stated_summarize s context category other fun same => fresh (same ▸ member)
      rw [List.foldl_cons, ih _ once, later, summarize_reporters, List.flatMap_cons, List.foldl_append]

theorem summarize_warnings_reporters (context : ContextRef) :
    (s.summarizeWarnings context).reporters =
      (Category.all.flatMap fun category => s.stated (.category context category)).foldl Store.deliver s.reporters :=
  summarize_categories_reporters s context Category.all (by decide)

end Deliveries

end State

end UnitRegistry
