import Mathlib.Data.Fintype.EquivFin
import UnitRegistry.Log.Logger

set_option autoImplicit false

namespace UnitRegistry.Log

namespace Level

theorem le_refl (a : Level) : a ≤ a := Nat.le_refl a.rank

theorem le_trans {a b c : Level} (first : a ≤ b) (second : b ≤ c) : a ≤ c := Nat.le_trans first second

theorem le_antisymm {a b : Level} (first : a ≤ b) (second : b ≤ a) : a = b := by
  have same : a.rank = b.rank := Nat.le_antisymm first second
  cases a <;> cases b <;> first | rfl | cases same

theorem le_min_iff (a b c : Level) : c ≤ min a b ↔ c ≤ a ∧ c ≤ b := by
  by_cases less : b < a
  · have chosen : min a b = b := if_pos less
    have below : b ≤ a := Nat.le_of_lt less
    rw [chosen]
    exact ⟨fun lower => ⟨le_trans lower below, lower⟩, And.right⟩
  · have chosen : min a b = a := if_neg less
    have above : a ≤ b := Nat.le_of_not_lt less
    rw [chosen]
    exact ⟨fun lower => ⟨lower, le_trans lower above⟩, And.left⟩

theorem min_eq_left_iff (a b : Level) : min a b = a ↔ a ≤ b := by
  constructor
  · intro chosen
    have least : a ≤ min a b := by
      rw [chosen]
      exact le_refl a
    exact ((le_min_iff a b a).mp least).2
  · intro below
    exact le_antisymm ((le_min_iff a b _).mp (le_refl _)).1 ((le_min_iff a b a).mpr ⟨le_refl a, below⟩)

theorem min_eq_right_iff (a b : Level) : min a b = b ↔ b ≤ a := by
  constructor
  · intro chosen
    have least : b ≤ min a b := by
      rw [chosen]
      exact le_refl b
    exact ((le_min_iff a b b).mp least).1
  · intro below
    exact le_antisymm ((le_min_iff a b _).mp (le_refl _)).2 ((le_min_iff a b b).mpr ⟨below, le_refl b⟩)

theorem eq_of_same_above {a b : Level} (same : ∀ level, a ≤ level ↔ b ≤ level) : a = b :=
  le_antisymm ((same b).mpr (le_refl b)) ((same a).mp (le_refl a))

def Spelled (t : Text) (level : Level) : Prop := t = level.lowerName ∨ t = level.name

inductive Denotes (t : Text) : Level → Prop where
  | spelled (level : Level) (same : Spelled t level) : Denotes t level
  | unknown (none : ∀ level, ¬ Spelled t level) : Denotes t .info

theorem of_spelled_text {t : Text} {level : Level} (same : Spelled t level) : ofText t = level := by
  obtain rfl | rfl := same
  · cases level <;> rfl
  · cases level <;> rfl

theorem denotes_text (t : Text) : Denotes t (ofText t) := by
  rw [ofText]
  cases found : all.find? fun level => t == level.lowerName || t == level.name with
  | some level =>
      have same := List.find?_some found
      rw [Bool.or_eq_true, beq_iff_eq, beq_iff_eq] at same
      exact .spelled level same
  | none =>
      refine .unknown fun level same => ?_
      have differs := List.find?_eq_none.mp found level (by cases level <;> decide)
      rw [Bool.or_eq_true, beq_iff_eq, beq_iff_eq] at differs
      exact differs same

theorem of_text_iff (t : Text) (level : Level) : ofText t = level ↔ Denotes t level := by
  constructor
  · rintro rfl
    exact denotes_text t
  · rintro (⟨level, same⟩ | none)
    · exact of_spelled_text same
    · have denotes := denotes_text t
      generalize ofText t = level at denotes
      cases denotes with
      | spelled level same => exact absurd same (none level)
      | unknown _ => rfl

end Level

section LastWord

variable {ι α : Type} {states : ι → α → Prop} {read : ι → Option α} {entries : List ι}

inductive LastWord (states : ι → α → Prop) (default : α) (entries : List ι) : α → Prop where
  | stated (earlier : List ι) (entry : ι) (later : List ι) (value : α) (split : entries = earlier ++ entry :: later)
      (word : states entry value) (silent : ∀ other ∈ later, ∀ value, ¬ states other value) :
      LastWord states default entries value
  | unstated (silent : ∀ entry ∈ entries, ∀ value, ¬ states entry value) : LastWord states default entries default

def lastRead (read : ι → Option α) (entries : List ι) : Option α := (entries.filterMap read).getLast?

theorem last_read_cons (read : ι → Option α) (entry : ι) (later : List ι) :
    lastRead read (entry :: later) = (lastRead read later).or (read entry) := by
  cases word : read entry with
  | none => rw [lastRead, lastRead, List.filterMap_cons_none word, Option.or_none]
  | some value =>
      rw [lastRead, lastRead, List.filterMap_cons_some word, List.getLast?_cons]
      cases (later.filterMap read).getLast? <;> rfl

theorem last_read_around (read : ι → Option α) (earlier later : List ι) (entry : ι) :
    lastRead read (earlier ++ entry :: later) = (lastRead read later).or ((read entry).or (lastRead read earlier)) := by
  rw [lastRead, List.filterMap_append, List.getLast?_append, ← lastRead, last_read_cons, Option.or_assoc]
  rfl

theorem foldl_last {σ : Type} (f : σ → ι → σ) (field : σ → Option α) (word : ι → Option α)
    (step : ∀ s entry, field (f s entry) = (word entry).or (field s)) (entries : List ι) (s : σ) :
    field (entries.foldl f s) = (lastRead word entries).or (field s) := by
  induction entries generalizing s with
  | nil => rfl
  | cons entry rest ih => rw [List.foldl_cons, ih, step, last_read_cons, Option.or_assoc]

theorem nothing_read_iff (reads : ∀ entry ∈ entries, ∀ value, read entry = some value ↔ states entry value) :
    entries.filterMap read = [] ↔ ∀ entry ∈ entries, ∀ value, ¬ states entry value := by
  rw [List.filterMap_eq_nil_iff]
  refine forall₂_congr fun entry member => ?_
  rw [Option.eq_none_iff_forall_ne_some]
  exact forall_congr' fun value => not_congr (reads entry member value)

theorem last_word_iff (reads : ∀ entry ∈ entries, ∀ value, read entry = some value ↔ states entry value)
    (default value : α) : LastWord states default entries value ↔ (lastRead read entries).getD default = value := by
  constructor
  · rintro (⟨earlier, entry, later, _, rfl, word, silent⟩ | silent)
    · have last : read entry = some value := (reads entry (by simp) value).mpr word
      have after : later.filterMap read = [] :=
        (nothing_read_iff fun other member => reads other (by simp [member])).mpr silent
      rw [last_read_around, lastRead, after, last]
      rfl
    · rw [lastRead, (nothing_read_iff reads).mpr silent]
      rfl
  · rintro rfl
    obtain none | ⟨before, value, split⟩ := List.eq_nil_or_concat (entries.filterMap read)
    · rw [lastRead, none]
      exact .unstated ((nothing_read_iff reads).mp none)
    · rw [List.concat_eq_append] at split
      rw [lastRead, split, List.getLast?_concat]
      obtain ⟨earlier, rest, rfl, _, ends⟩ := List.filterMap_eq_append_iff.mp split
      obtain ⟨passed, entry, later, rfl, _, last, after⟩ := List.filterMap_eq_cons_iff.mp ends
      refine .stated (earlier ++ passed) entry later value (by simp) ?_ ?_
      · exact (reads entry (by simp) value).mp last
      · exact (nothing_read_iff fun other member => reads other (by simp [member])).mp after

end LastWord

namespace Filter

theorem accepts_iff (f : Filter) (level : Level) (tag : Text) : f.accepts level tag = true ↔ f.threshold tag ≤ level :=
  decide_eq_true_iff

def leastOf (lowest : Level) (entries : List (Text × Level)) : Level :=
  entries.foldl (fun lowest entry => min lowest entry.2) lowest

theorem le_least_of_iff (level lowest : Level) (entries : List (Text × Level)) :
    level ≤ leastOf lowest entries ↔ level ≤ lowest ∧ ∀ entry ∈ entries, level ≤ entry.2 := by
  induction entries generalizing lowest with
  | nil => simp [leastOf]
  | cons entry rest ih => rw [leastOf, List.foldl_cons, ← leastOf, ih, Level.le_min_iff, List.forall_mem_cons, and_assoc]

theorem le_least_iff (f : Filter) (level : Level) :
    level ≤ f.least ↔ level ≤ f.default ∧ ∀ entry ∈ f.overrides, level ≤ entry.2 :=
  le_least_of_iff level f.default f.overrides

theorem threshold_of_lookup (f : Filter) (tag : Text) :
    f.threshold tag = f.default ∨ ∃ entry ∈ f.overrides, f.threshold tag = entry.2 := by
  cases found : f.overrides.lookup tag with
  | none => exact .inl (by rw [threshold, found]; rfl)
  | some own =>
      obtain ⟨earlier, later, split, _⟩ := List.lookup_eq_some_iff.mp found
      exact .inr ⟨(tag, own), by simp [split], by rw [threshold, found]; rfl⟩

theorem least_le_threshold (f : Filter) (tag : Text) : f.least ≤ f.threshold tag := by
  obtain ⟨general, named⟩ := (f.le_least_iff f.least).mp (Level.le_refl _)
  obtain same | ⟨entry, member, same⟩ := f.threshold_of_lookup tag
  · rwa [same]
  · rw [same]
    exact named entry member

theorem exists_unnamed (f : Filter) : ∃ tag, f.overrides.lookup tag = none := by
  obtain ⟨tag, fresh⟩ := Infinite.exists_notMem_finset (f.overrides.map Prod.fst).toFinset
  exists tag
  apply List.lookup_eq_none_iff.mpr
  intro entry member
  have key : entry.1 ∈ f.overrides.map Prod.fst := List.mem_map_of_mem member
  exact bne_iff_ne.mpr fun same => fresh (by simpa [same] using key)

def named? (tag item : Text) : Option Level :=
  match splitItem item with
  | (name, some level) => if name = tag ∧ name ≠ wildcard then some (Level.ofText level) else none
  | (name, none) => if name = tag ∧ name ≠ [] then some .trace else none

def general? (item : Text) : Option Level :=
  match splitItem item with
  | (name, some level) => if name = wildcard then some (Level.ofText level) else none
  | (_, none) => none

def moduleLevel? (spec tag : Text) : Option Level := ((items spec).filterMap (named? tag)).getLast?

def wildcardLevel? (spec : Text) : Option Level := ((items spec).filterMap general?).getLast?

theorem lookup_override (f : Filter) (name tag : Text) (level : Level) :
    (f.override name level).overrides.lookup tag = (if name = tag then some level else none).or (f.overrides.lookup tag) := by
  by_cases own : name = tag
  · subst own
    rw [if_pos rfl]
    exact Assoc.lookup_put_self name level f.overrides
  · rw [if_neg own, Option.none_or]
    exact Assoc.lookup_put_of_ne name tag level f.overrides (Ne.symm own)

theorem default_apply (f : Filter) (item : Text) : some (f.applyItem item).default = (general? item).or (some f.default) := by
  cases split : splitItem item with
  | mk name level =>
      cases level with
      | none =>
          by_cases empty : name = [] <;> simp [applyItem, general?, split, empty, override]
      | some level =>
          by_cases general : name = wildcard <;> simp [applyItem, general?, split, general, override]

theorem lookup_apply (f : Filter) (tag item : Text) :
    (f.applyItem item).overrides.lookup tag = (named? tag item).or (f.overrides.lookup tag) := by
  cases split : splitItem item with
  | mk name level =>
      cases level with
      | none =>
          by_cases empty : name = []
          · simp [applyItem, named?, split, empty]
          · simp [applyItem, named?, split, empty, lookup_override]
      | some level =>
          by_cases general : name = wildcard
          · simp [applyItem, named?, split, general]
          · simp [applyItem, named?, split, general, lookup_override]

theorem default_parse (f : Filter) (spec : Text) : (f.parse spec).default = (wildcardLevel? spec).getD f.default := by
  have last := foldl_last applyItem (fun f => some f.default) general? default_apply (items spec) { f with overrides := [] }
  rw [Option.or_some] at last
  exact Option.some.inj last

theorem lookup_parse (f : Filter) (spec tag : Text) : (f.parse spec).overrides.lookup tag = moduleLevel? spec tag := by
  have last := foldl_last applyItem (fun f => f.overrides.lookup tag) (named? tag) (fun f item => lookup_apply f tag item)
    (items spec) { f with overrides := [] }
  rwa [List.lookup_nil, Option.or_none] at last

theorem exists_without_item (spec : Text) : ∃ tag, moduleLevel? spec tag = none := by
  obtain ⟨tag, unnamed⟩ := (({} : Filter).parse spec).exists_unnamed
  exact ⟨tag, by rw [← lookup_parse {} spec tag, unnamed]⟩

theorem threshold_parse (f : Filter) (spec tag : Text) :
    (f.parse spec).threshold tag = (moduleLevel? spec tag).getD ((wildcardLevel? spec).getD f.default) := by
  rw [threshold, lookup_parse, default_parse]

-- Two levels for the modules without an item of their own are told apart, since there always is such a module.
theorem same_general_iff (spec : Text) (a b : Level) :
    (∀ level tag, (moduleLevel? spec tag).getD a ≤ level ↔ (moduleLevel? spec tag).getD b ≤ level) ↔ a = b := by
  constructor
  · intro same
    obtain ⟨tag, unnamed⟩ := exists_without_item spec
    apply Level.eq_of_same_above
    intro level
    simpa only [unnamed, Option.getD_none] using same level tag
  · rintro rfl level tag
    exact Iff.rfl

end Filter

end UnitRegistry.Log
