import UnitRegistry.Proofs.LoggerGate

set_option autoImplicit false

namespace UnitRegistry.Log

namespace Filter

inductive Change where
  | parse (spec : Text)
  | setDefault (level : Level)

def change (f : Filter) : Change → Filter
  | .parse spec => f.parse spec
  | .setDefault level => f.setDefault level

def Distinct (f : Filter) : Prop := (f.overrides.map Prod.fst).Nodup

theorem override_distinct {f : Filter} (distinct : f.Distinct) (tag : Text) (level : Level) : (f.override tag level).Distinct :=
  Assoc.keys_put_nodup tag level f.overrides distinct

theorem apply_distinct {f : Filter} (distinct : f.Distinct) (item : Text) : (f.applyItem item).Distinct := by
  rw [applyItem]
  cases splitItem item with
  | mk name value =>
      cases value with
      | none =>
          by_cases empty : name = []
          · simpa only [if_pos empty] using distinct
          · simpa only [if_neg empty] using override_distinct distinct name .trace
      | some value =>
          by_cases general : name = wildcard
          · simp only [if_pos general]
            exact distinct
          · simpa only [if_neg general] using override_distinct distinct name _

theorem items_distinct {f : Filter} (distinct : f.Distinct) (items : List Text) : (items.foldl applyItem f).Distinct := by
  induction items generalizing f with
  | nil => exact distinct
  | cons item rest ih => exact ih (apply_distinct distinct item)

theorem change_distinct {f : Filter} (distinct : f.Distinct) (change : Change) : (f.change change).Distinct := by
  cases change with
  | parse spec => exact items_distinct (f := { f with overrides := [] }) List.nodup_nil (items spec)
  | setDefault level => exact distinct

theorem changes_distinct (changes : List Change) : (changes.foldl change {}).Distinct := by
  induction changes using List.reverseRecOn with
  | nil => exact List.nodup_nil
  | append_singleton earlier last ih =>
      rw [List.foldl_append]
      exact change_distinct ih last

theorem least_of_mem (lowest : Level) (entries : List (Text × Level)) :
    leastOf lowest entries = lowest ∨ ∃ entry ∈ entries, leastOf lowest entries = entry.2 := by
  induction entries generalizing lowest with
  | nil => exact .inl rfl
  | cons entry rest ih =>
      rw [leastOf, List.foldl_cons, ← leastOf]
      obtain first | ⟨other, member, same⟩ := ih (min lowest entry.2)
      · rw [first]
        by_cases less : entry.2 < lowest
        · exact .inr ⟨entry, List.mem_cons_self, if_pos less⟩
        · exact .inl (if_neg less)
      · exact .inr ⟨other, List.mem_cons_of_mem entry member, same⟩

-- Some module is held to the least level: one that is not named, if that level is the default.
theorem least_attained {f : Filter} (distinct : f.Distinct) : ∃ tag, f.threshold tag = f.least := by
  obtain general | ⟨⟨tag, own⟩, member, same⟩ := least_of_mem f.default f.overrides
  · obtain ⟨tag, unnamed⟩ := f.exists_unnamed
    refine ⟨tag, ?_⟩
    rw [threshold, unnamed]
    exact general.symm
  · have found := (Assoc.lookup_iff_mem tag own f.overrides distinct).mpr member
    refine ⟨tag, ?_⟩
    rw [threshold, found]
    exact same.symm

theorem least_le_iff {f : Filter} (distinct : f.Distinct) (level : Level) :
    f.least ≤ level ↔ ∃ tag, f.accepts level tag = true := by
  constructor
  · intro reached
    obtain ⟨tag, same⟩ := least_attained distinct
    exact ⟨tag, (f.accepts_iff level tag).mpr (same ▸ reached)⟩
  · rintro ⟨tag, accepted⟩
    exact Level.le_trans (f.least_le_threshold tag) ((f.accepts_iff level tag).mp accepted)

end Filter

namespace Logger

theorem configure_changes (gate : Level) (spec : Text) :
    ∃ changes : List Filter.Change, (configure gate spec).filter = changes.foldl Filter.change {} := by
  by_cases none : spec = []
  · exact ⟨[.setDefault gate], by rw [configure, if_pos none]; rfl⟩
  · rw [configure, if_neg none]
    by_cases lower : gate < (({} : Filter).parse spec).default
    · exact ⟨[.parse spec, .setDefault gate], if_pos lower⟩
    · exact ⟨[.parse spec], if_neg lower⟩

theorem configure_level (gate : Level) (spec : Text) : (configure gate spec).level = (configure gate spec).filter.least := by
  by_cases none : spec = []
  · rw [configure, if_pos none]
    rfl
  · rw [configure, if_neg none]

end Logger

theorem least_exact (changes : List Filter.Change) (level : Level) :
    let f := changes.foldl Filter.change {}
    (f.least ≤ level ↔ ∃ tag, f.accepts level tag = true) ∧
    ∀ gate spec, let l := Logger.configure gate spec
      (l.level ≤ level ↔ ∃ tag, l.filter.accepts level tag = true) ∧ ∀ tag, l.accepts level tag = l.filter.accepts level tag := by
  intro f
  refine ⟨Filter.least_le_iff (Filter.changes_distinct changes) level, fun gate spec => ?_⟩
  obtain ⟨made, filter⟩ := Logger.configure_changes gate spec
  have distinct : (Logger.configure gate spec).filter.Distinct := filter ▸ Filter.changes_distinct made
  refine ⟨?_, fun tag => ?_⟩
  · rw [Logger.configure_level]
    exact Filter.least_le_iff distinct level
  · rw [Bool.eq_iff_iff, Filter.accepts_iff]
    exact Logger.accepts_open _ (Logger.configure_gated gate spec) level tag

end UnitRegistry.Log
