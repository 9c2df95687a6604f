import UnitRegistry.Proofs.TextLines
import UnitRegistry.Proofs.Thresholds

set_option autoImplicit false

namespace UnitRegistry.Log.Filter

open Text (comma equalsSign)

section Items

variable {item name value : Text} {level : Level}

theorem bytes_pass {separator : UInt8} {t : Text} (absent : separator ∉ t) :
    ∀ byte ∈ t, decide (byte ≠ separator) = true :=
  fun _ member => decide_eq_true fun same => absent (same ▸ member)

theorem split_item_sign (first : equalsSign ∉ name) (value : Text) :
    splitItem (name ++ equalsSign :: value) = (name, some value) := by
  rw [splitItem, List.takeWhile_append_of_pos (bytes_pass first), List.dropWhile_append_of_pos (bytes_pass first),
    List.takeWhile_cons_of_neg (by simp), List.dropWhile_cons_of_neg (by simp), List.append_nil]
  rfl

theorem split_item_bare (plain : equalsSign ∉ item) : splitItem item = (item, none) := by
  have first : item.takeWhile (· ≠ equalsSign) = item := List.takeWhile_eq_self_iff.mpr (bytes_pass plain)
  have rest : item.dropWhile (· ≠ equalsSign) = [] := List.dropWhile_eq_nil_iff.mpr (bytes_pass plain)
  rw [splitItem, first, rest]
  rfl

theorem item_split (item : Text) :
    (∃ name value, item = name ++ equalsSign :: value ∧ equalsSign ∉ name ∧ splitItem item = (name, some value)) ∨
      equalsSign ∉ item ∧ splitItem item = (item, none) := by
  by_cases sign : equalsSign ∈ item
  · obtain ⟨name, value, rfl, first⟩ := List.eq_append_cons_of_mem sign
    exact .inl ⟨name, value, rfl, first, split_item_sign first value⟩
  · exact .inr ⟨sign, split_item_bare sign⟩

theorem split_item_some_iff :
    splitItem item = (name, some value) ↔ item = name ++ equalsSign :: value ∧ equalsSign ∉ name := by
  constructor
  · intro split
    obtain ⟨before, behind, whole, first, found⟩ | ⟨_, found⟩ := item_split item
    · cases split.symm.trans found
      exact ⟨whole, first⟩
    · cases split.symm.trans found
  · rintro ⟨rfl, first⟩
    exact split_item_sign first value

theorem split_item_none_iff : splitItem item = (name, none) ↔ item = name ∧ equalsSign ∉ name := by
  constructor
  · intro split
    obtain ⟨_, _, _, _, found⟩ | ⟨plain, found⟩ := item_split item
    · cases split.symm.trans found
    · cases split.symm.trans found
      exact ⟨rfl, plain⟩
  · rintro ⟨rfl, plain⟩
    exact split_item_bare plain

inductive Gives (item name : Text) : Level → Prop where
  | level (value : Text) (level : Level) (split : item = name ++ equalsSign :: value) (first : equalsSign ∉ name)
      (denotes : Level.Denotes value level) : Gives item name level
  | bare (same : item = name) (plain : equalsSign ∉ name) (given : name ≠ []) : Gives item name .trace

theorem gives_iff : Gives item name level ↔
    (∃ value, splitItem item = (name, some value) ∧ Level.ofText value = level) ∨
      splitItem item = (name, none) ∧ name ≠ [] ∧ level = .trace := by
  constructor
  · rintro (⟨value, level, split, first, denotes⟩ | ⟨same, plain, given⟩)
    · exact .inl ⟨value, split_item_some_iff.mpr ⟨split, first⟩, (Level.of_text_iff value level).mpr denotes⟩
    · exact .inr ⟨split_item_none_iff.mpr ⟨same, plain⟩, given, rfl⟩
  · rintro (⟨value, split, denotes⟩ | ⟨split, given, rfl⟩)
    · obtain ⟨whole, first⟩ := split_item_some_iff.mp split
      exact .level value level whole first ((Level.of_text_iff value level).mp denotes)
    · obtain ⟨same, plain⟩ := split_item_none_iff.mp split
      exact .bare same plain given

theorem named_iff {tag : Text} (module : tag ≠ wildcard) : named? tag item = some level ↔ Gives item tag level := by
  rw [gives_iff]
  cases split : splitItem item with
  | mk name found =>
      by_cases own : name = tag
      · subst own
        cases found with
        | none => simp [named?, split, eq_comm]
        | some value => simp [named?, split, module]
      · cases found <;> simp [named?, split, own]

theorem general_iff (spelled : item ≠ wildcard) : general? item = some level ↔ Gives item wildcard level := by
  rw [gives_iff]
  cases split : splitItem item with
  | mk name found =>
      cases found with
      | none =>
          obtain ⟨same, _⟩ := split_item_none_iff.mp split
          have other : name ≠ wildcard := same ▸ spelled
          simp [general?, split, other]
      | some value => simp [general?, split]

end Items

def Leaves (items : List Text) (default : Level) (tag : Text) (least : Level) : Prop :=
  ∃ general, LastWord (fun item => Gives item wildcard) default items general ∧
    LastWord (fun item => Gives item tag) general items least

theorem leaves_iff {spec tag : Text} (plain : wildcard ∉ items spec) (module : tag ≠ wildcard) (default least : Level) :
    Leaves (items spec) default tag least ↔ (moduleLevel? spec tag).getD ((wildcardLevel? spec).getD default) = least := by
  have general (level : Level) : LastWord (fun item => Gives item wildcard) default (items spec) level ↔
      (wildcardLevel? spec).getD default = level :=
    last_word_iff (fun item member _ => general_iff fun same => plain (same ▸ member)) default level
  have own (general level : Level) : LastWord (fun item => Gives item tag) general (items spec) level ↔
      (moduleLevel? spec tag).getD general = level :=
    last_word_iff (fun _ _ _ => named_iff module) general level
  simp only [Leaves, general, own]
  exact exists_eq_left'

section Scan

structure Scan where
  place : Nat
  filter : Filter

def Scan.next (spec : Text) (s : Scan) : Scan :=
  let item := (spec.drop s.place).takeWhile (· ≠ comma)
  ⟨s.place + item.length + 1, s.filter.applyItem item⟩

inductive Scan.Rounds (spec : Text) : Scan → Nat → Scan → Prop where
  | ended (s : Scan) (past : spec.length ≤ s.place) : Scan.Rounds spec s 0 s
  | again (s last : Scan) (rounds : Nat) (inside : s.place < spec.length)
      (later : Scan.Rounds spec (s.next spec) rounds last) : Scan.Rounds spec s (rounds + 1) last

theorem scan_next {item : Text} (whole : comma ∉ item) (rest : Text) (stop : rest.takeWhile (· ≠ comma) = [])
    (opening : Text) (f : Filter) :
    Scan.next (opening ++ (item ++ rest)) ⟨opening.length, f⟩ = ⟨opening.length + item.length + 1, f.applyItem item⟩ := by
  rw [Scan.next, List.drop_left, List.takeWhile_append_of_pos (bytes_pass whole), stop, List.append_nil]

-- Induction on the items, the first of which is moved over to the opening.
theorem scan_items (opening first : Text) (later : List Text) (whole : ∀ item ∈ first :: later, comma ∉ item) (f : Filter) :
    ∃ rounds last, Scan.Rounds (opening ++ [comma].intercalate (first :: later)) ⟨opening.length, f⟩ rounds last ∧
      rounds ≤ (first :: later).length ∧ last.filter = (first :: later).foldl applyItem f := by
  have unbroken := whole first List.mem_cons_self
  induction later generalizing opening first f with
  | nil =>
      have text : opening ++ [comma].intercalate [first] = opening ++ (first ++ []) := by simp [List.intercalate]
      have next := scan_next unbroken [] rfl opening f
      rw [text]
      cases first with
      | nil => exact ⟨0, _, .ended _ (by simp), Nat.zero_le 1, rfl⟩
      | cons byte bytes =>
          refine ⟨1, _, .again _ _ 0 (by simp) (.ended _ ?_), Nat.le_refl 1, ?_⟩
          · rw [next]
            simp [Nat.add_assoc]
          · rw [next]
            rfl
  | cons second rest ih =>
      have text : opening ++ [comma].intercalate (first :: second :: rest) =
          opening ++ (first ++ comma :: [comma].intercalate (second :: rest)) := by simp [List.intercalate]
      have moved : opening ++ (first ++ comma :: [comma].intercalate (second :: rest)) =
          (opening ++ first ++ [comma]) ++ [comma].intercalate (second :: rest) := by simp
      have next := scan_next unbroken (comma :: [comma].intercalate (second :: rest)) (by simp) opening f
      have wholeLater : ∀ item ∈ second :: rest, comma ∉ item := fun item member =>
        whole item (List.mem_cons_of_mem first member)
      obtain ⟨rounds, last, runs, few, result⟩ :=
        ih (opening ++ first ++ [comma]) second wholeLater (f.applyItem first) (wholeLater second List.mem_cons_self)
      rw [text]
      refine ⟨rounds + 1, last, .again _ last rounds ?_ ?_, Nat.succ_le_succ few, result⟩
      · change opening.length < _
        rw [List.length_append, List.length_append, List.length_cons]
        omega
      · rw [next, moved]
        simpa [Nat.add_assoc] using runs

theorem scan_ends (f : Filter) (spec : Text) :
    ∃ rounds last, Scan.Rounds spec ⟨0, { f with overrides := [] }⟩ rounds last ∧ rounds ≤ (items spec).length ∧
      last.filter = f.parse spec := by
  obtain ⟨first, later, list⟩ := List.exists_cons_of_ne_nil (List.splitOn_ne_nil comma spec)
  have whole : ∀ item ∈ first :: later, comma ∉ item := fun item member => Text.separator_not_in_piece (list ▸ member)
  have scanned := scan_items [] first later whole { f with overrides := [] }
  rwa [← list, List.nil_append, List.intercalate_splitOn] at scanned

end Scan

theorem parse_given (f : Filter) (spec : Text) :
    f.parse spec = ((items spec).filter (· ≠ [])).foldl applyItem { f with overrides := [] } := by
  have step (f : Filter) (item : Text) :
      f.applyItem item = if decide (item ≠ []) = true then f.applyItem item else f := by
    by_cases empty : item = []
    · subst empty
      rfl
    · rw [if_pos (decide_eq_true empty)]
  rw [parse, List.foldl_filter]
  exact congrArg (List.foldl · _ _) (funext₂ step)

theorem levels_of_items (f : Filter) (spec : Text) :
    let items := spec.splitOn comma
    let parsed := f.parse spec
    (wildcard ∉ items → ∀ tag, tag ≠ wildcard → ∃ least, (∀ level, Leaves items f.default tag level ↔ level = least) ∧
      ∀ level, parsed.accepts level tag = true ↔ least ≤ level) ∧
    (∀ other : Text, (other.splitOn comma).filter (· ≠ []) = items.filter (· ≠ []) → f.parse other = parsed) ∧
    (∀ earlier : Filter, earlier.default = f.default → earlier.parse spec = parsed) ∧
    ∃ rounds last, Scan.Rounds spec ⟨0, { f with overrides := [] }⟩ rounds last ∧ rounds ≤ items.length ∧
      last.filter = parsed := by
  intro items parsed
  refine ⟨fun plain tag module => ?_, fun other same => ?_, fun earlier same => ?_, scan_ends f spec⟩
  · refine ⟨parsed.threshold tag, fun level => ?_, fun level => parsed.accepts_iff level tag⟩
    have threshold : parsed.threshold tag = (moduleLevel? spec tag).getD ((wildcardLevel? spec).getD f.default) :=
      threshold_parse f spec tag
    rw [threshold]
    exact (leaves_iff plain module f.default level).trans eq_comm
  · have given : f.parse other = ((other.splitOn comma).filter (· ≠ [])).foldl applyItem { f with overrides := [] } :=
      parse_given f other
    rw [given, same]
    exact (parse_given f spec).symm
  · rw [parse, same]
    rfl

def unevenItems : Text := "unit,,run=off,*=warn,=fatal,unit=a=b,*=ERROR,"

theorem levels_of_uneven_items :
    let f : Filter := { default := .fatal, overrides := [("source", .trace)] }
    wildcard ∉ unevenItems.splitOn comma ∧ Text.ofString "unit" ≠ wildcard ∧ Text.ofString "source" ≠ wildcard ∧
      Leaves (unevenItems.splitOn comma) .fatal "unit" .info ∧ Leaves (unevenItems.splitOn comma) .fatal "source" .error ∧
      (∀ level, (f.parse unevenItems).accepts level "unit" = true ↔ .info ≤ level) ∧
      ∀ level, (f.parse unevenItems).accepts level "source" = true ↔ .error ≤ level := by
  intro f
  have plain : wildcard ∉ unevenItems.splitOn comma := by decide +kernel
  have levels := (levels_of_items f unevenItems).1 plain
  have here : Text.ofString "unit" ≠ wildcard := by decide
  have there : Text.ofString "source" ≠ wildcard := by decide
  obtain ⟨unit, unitLeft, unitLevels⟩ := levels "unit" here
  obtain ⟨source, sourceLeft, sourceLevels⟩ := levels "source" there
  have unitLeast : (f.parse unevenItems).threshold "unit" = .info := by decide +kernel
  have sourceLeast : (f.parse unevenItems).threshold "source" = .error := by decide +kernel
  obtain rfl : unit = .info := Level.eq_of_same_above fun level => by rw [← unitLevels, accepts_iff, unitLeast]
  obtain rfl : source = .error := Level.eq_of_same_above fun level => by rw [← sourceLevels, accepts_iff, sourceLeast]
  exact ⟨plain, here, there, (unitLeft .info).mpr rfl, (sourceLeft .error).mpr rfl, unitLevels, sourceLevels⟩

section Bare

structure Alike (f g : Filter) : Prop where
  accepts : ∀ level tag, f.accepts level tag = g.accepts level tag
  least : f.least = g.least
  default : f.default = g.default

theorem alike_iff (f g : Filter) :
    Alike f g ↔ (∀ tag, f.threshold tag = g.threshold tag) ∧ f.least = g.least ∧ f.default = g.default := by
  constructor
  · rintro ⟨accepts, least, default⟩
    refine ⟨fun tag => Level.eq_of_same_above fun level => ?_, least, default⟩
    rw [← accepts_iff, ← accepts_iff, accepts]
  · rintro ⟨thresholds, least, default⟩
    refine ⟨fun level tag => ?_, least, default⟩
    rw [accepts, accepts, thresholds]

theorem least_eq_trace {f : Filter} {tag : Text} (traced : f.threshold tag = .trace) : f.least = .trace :=
  Level.le_antisymm (traced ▸ f.least_le_threshold tag) (Nat.zero_le _)

section Around

variable {spec item : Text} {earlier later : List Text}

theorem default_around (f : Filter) (list : items spec = earlier ++ item :: later) :
    (f.parse spec).default = ((lastRead general? later).or ((general? item).or (lastRead general? earlier))).getD f.default := by
  rw [default_parse, wildcardLevel?, list, ← last_read_around]
  rfl

theorem lookup_around (f : Filter) (tag : Text) (list : items spec = earlier ++ item :: later) :
    (f.parse spec).overrides.lookup tag =
      (lastRead (named? tag) later).or ((named? tag item).or (lastRead (named? tag) earlier)) := by
  rw [lookup_parse, moduleLevel?, list, ← last_read_around]
  rfl

theorem threshold_congr {f g : Filter} {tag : Text} (lookup : f.overrides.lookup tag = g.overrides.lookup tag)
    (default : f.default = g.default) : f.threshold tag = g.threshold tag := by
  rw [threshold, threshold, lookup, default]

end Around

section Voices

variable {item : Text}

theorem named_bare (plain : equalsSign ∉ item) (given : item ≠ []) (tag : Text) :
    named? tag item = if item = tag then some .trace else none := by
  rw [named?, split_item_bare plain]
  simp [given]

theorem general_bare (plain : equalsSign ∉ item) : general? item = none := by
  rw [general?, split_item_bare plain]

theorem split_spelled (plain : equalsSign ∉ item) : splitItem (item ++ "=trace") = (item, some (Text.ofString "trace")) :=
  split_item_sign plain "trace"

theorem named_spelled (plain : equalsSign ∉ item) (tag : Text) :
    named? tag (item ++ "=trace") = if item = tag ∧ item ≠ wildcard then some .trace else none := by
  rw [named?, split_spelled plain]
  rfl

theorem general_spelled (plain : equalsSign ∉ item) :
    general? (item ++ "=trace") = if item = wildcard then some .trace else none := by
  rw [general?, split_spelled plain]
  rfl

theorem named_wildcard (item : Text) : named? wildcard item = if item = wildcard then some .trace else none := by
  obtain ⟨name, value, whole, _, split⟩ | ⟨plain, _⟩ := item_split item
  · have other : item ≠ wildcard := by
      rintro rfl
      cases split
    rw [named?, split, if_neg other]
    exact if_neg fun both => both.2 both.1
  · by_cases empty : item = []
    · subst empty
      rfl
    · exact named_bare plain empty wildcard

theorem last_wildcard (items : List Text) :
    lastRead (named? wildcard) items = if wildcard ∈ items then some .trace else none := by
  induction items with
  | nil => rfl
  | cons item rest ih =>
      rw [last_read_cons, ih, named_wildcard]
      by_cases own : item = wildcard
      · by_cases later : wildcard ∈ rest <;> simp [own, later]
      · simp [own, Ne.symm own]

theorem general_some_iff : (general? item).isSome ↔ ∃ value, item = wildcard ++ equalsSign :: value := by
  constructor
  · intro found
    obtain ⟨name, value, whole, _, split⟩ | ⟨plain, _⟩ := item_split item
    · by_cases general : name = wildcard
      · exact ⟨value, general ▸ whole⟩
      · simp [general?, split, general] at found
    · simp [general_bare plain] at found
  · rintro ⟨value, rfl⟩
    rw [general?, split_item_sign (by decide)]
    rfl

theorem last_general_iff (items : List Text) :
    (lastRead general? items).isSome ↔ ∃ value, wildcard ++ equalsSign :: value ∈ items := by
  rw [lastRead, List.getLast?_isSome, ne_eq, List.filterMap_eq_nil_iff]
  simp only [not_forall, ← ne_eq, ← Option.isSome_iff_ne_none, general_some_iff]
  constructor
  · rintro ⟨item, member, value, rfl⟩
    exact ⟨value, member⟩
  · rintro ⟨value, member⟩
    exact ⟨_, member, value, rfl⟩

end Voices

section Wildcard

variable {spec spelled : Text} {earlier later : List Text}

theorem alike_wildcard_iff (f : Filter) (bare : items spec = earlier ++ wildcard :: later)
    (full : items spelled = earlier ++ (wildcard ++ "=trace") :: later) :
    Alike (f.parse spelled) (f.parse spec) ↔ (f.parse spec).default = .trace ∨
      (lastRead general? later).isSome ∧ wildcard ∈ earlier ++ later := by
  have plain : equalsSign ∉ wildcard := by decide
  have bareDefault := f.default_around bare
  have fullDefault := f.default_around full
  rw [general_bare plain, Option.none_or] at bareDefault
  rw [general_spelled plain, if_pos rfl, Option.some_or] at fullDefault
  have elsewhere (tag : Text) (module : tag ≠ wildcard) :
      (f.parse spelled).overrides.lookup tag = (f.parse spec).overrides.lookup tag := by
    rw [f.lookup_around tag full, f.lookup_around tag bare, named_spelled plain, named_bare plain (by decide),
      if_neg (Ne.symm module), if_neg fun both => module both.1.symm]
  have bareThreshold : (f.parse spec).threshold wildcard = .trace := by
    rw [threshold, f.lookup_around wildcard bare, last_wildcard, named_wildcard, if_pos rfl]
    split <;> rfl
  have fullThreshold : (f.parse spelled).threshold wildcard =
      if wildcard ∈ earlier ++ later then .trace else (f.parse spelled).default := by
    have silent : named? wildcard (wildcard ++ "=trace") = none := by
      rw [named_spelled plain]
      exact if_neg fun both => both.2 rfl
    rw [threshold, f.lookup_around wildcard full, silent, Option.none_or, last_wildcard, last_wildcard]
    by_cases first : wildcard ∈ later <;> by_cases second : wildcard ∈ earlier <;> simp [first, second]
  constructor
  · intro alike
    obtain ⟨thresholds, _, default⟩ := (alike_iff _ _).mp alike
    have traced := thresholds wildcard
    rw [fullThreshold, bareThreshold] at traced
    by_cases other : wildcard ∈ earlier ++ later
    · cases after : lastRead general? later with
      | some level => exact .inr ⟨rfl, other⟩
      | none =>
          rw [after] at fullDefault
          exact .inl (default.symm.trans fullDefault)
    · rw [if_neg other] at traced
      exact .inl (default.symm.trans traced)
  · intro condition
    have same : (f.parse spelled).default = (f.parse spec).default := by
      cases after : lastRead general? later with
      | some level =>
          rw [fullDefault, bareDefault, after]
          rfl
      | none =>
          rw [after] at fullDefault condition
          obtain traced | ⟨none, _⟩ := condition
          · exact fullDefault.trans traced.symm
          · cases none
    have traced : (f.parse spelled).threshold wildcard = .trace := by
      rw [fullThreshold]
      obtain traced | ⟨_, other⟩ := condition
      · rw [same, traced]
        exact ite_self _
      · exact if_pos other
    refine (alike_iff _ _).mpr ⟨fun tag => ?_, ?_, same⟩
    · by_cases module : tag = wildcard
      · rw [module, traced, bareThreshold]
      · exact threshold_congr (elsewhere tag module) same
    · rw [least_eq_trace traced, least_eq_trace bareThreshold]

end Wildcard

theorem items_spelled {spec item : Text} {earlier later : List Text} (list : items spec = earlier ++ item :: later) :
    items ([comma].intercalate (earlier ++ (item ++ "=trace") :: later)) = earlier ++ (item ++ "=trace") :: later := by
  have whole (part : Text) (member : part ∈ earlier ++ item :: later) : comma ∉ part :=
    Text.separator_not_in_piece (list ▸ member)
  refine List.splitOn_intercalate comma (fun part member => ?_) (by simp)
  obtain before | rfl | behind := by simpa using member
  · exact whole part (by simp [before])
  · have spelled : comma ∉ Text.ofString "=trace" := by decide
    simpa [whole item (by simp)] using spelled
  · exact whole part (by simp [behind])

theorem apply_spelled {item : Text} (plain : equalsSign ∉ item) (given : item ≠ []) (module : item ≠ wildcard) (f : Filter) :
    f.applyItem (item ++ "=trace") = f.applyItem item := by
  rw [applyItem, applyItem, split_spelled plain, split_item_bare plain]
  simp [given, module]
  rfl

-- A bare item means what it means with its level, unless it is the wildcard. That one does only where all modules are traced
-- anyway, or where a later item sets the default and another bare wildcard stands in the text.
theorem bare_item_iff (f : Filter) (spec item : Text) (earlier later : List Text)
    (list : spec.splitOn comma = earlier ++ item :: later) (plain : equalsSign ∉ item) (given : item ≠ []) :
    Alike (f.parse ([comma].intercalate (earlier ++ (item ++ "=trace") :: later))) (f.parse spec) ↔
      (item = wildcard → (f.parse spec).default = .trace ∨
        (∃ value, wildcard ++ equalsSign :: value ∈ later) ∧ wildcard ∈ earlier ++ later) := by
  have full := items_spelled list
  by_cases general : item = wildcard
  · subst general
    rw [← last_general_iff, forall_prop_of_true rfl]
    exact f.alike_wildcard_iff list full
  · have same : f.parse ([comma].intercalate (earlier ++ (item ++ "=trace") :: later)) = f.parse spec := by
      rw [parse, parse, full, items, list, List.foldl_append, List.foldl_append, List.foldl_cons, List.foldl_cons,
        apply_spelled plain given general]
    rw [same]
    exact ⟨fun _ named => absurd named general, fun _ => ⟨fun _ _ => rfl, rfl, rfl⟩⟩

theorem bare_module_alike :
    let f : Filter := { default := .warn, overrides := [("source", .off)] }
    let spec : Text := "run=off,unit,*,unit=info"
    let item : Text := "unit"
    let earlier : List Text := ["run=off"]
    let later : List Text := ["*", "unit=info"]
    spec.splitOn comma = earlier ++ item :: later ∧ equalsSign ∉ item ∧ item ≠ [] ∧ item ≠ wildcard ∧
      Alike (f.parse "run=off,unit=trace,*,unit=info") (f.parse spec) := by
  intro f spec item earlier later
  have list : spec.splitOn comma = earlier ++ item :: later := by decide +kernel
  have plain : equalsSign ∉ item := by decide
  have given : item ≠ [] := by decide
  have module : item ≠ wildcard := by decide
  have spelled : [comma].intercalate (earlier ++ (item ++ "=trace") :: later) = "run=off,unit=trace,*,unit=info" := by
    decide +kernel
  have alike := (bare_item_iff f spec item earlier later list plain given).mpr fun general => absurd general module
  rw [spelled] at alike
  exact ⟨list, plain, given, module, alike⟩

theorem bare_wildcard_unheard :
    (({} : Filter).parse "*=trace").accepts .trace "unit" = true ∧ (({} : Filter).parse "*").accepts .trace "unit" = false ∧
      ¬ Alike (({} : Filter).parse "*=trace") (({} : Filter).parse "*") := by
  have heard : (({} : Filter).parse "*=trace").accepts .trace "unit" = true := by decide +kernel
  have unheard : (({} : Filter).parse "*").accepts .trace "unit" = false := by decide +kernel
  refine ⟨heard, unheard, fun alike => ?_⟩
  rw [alike.accepts, unheard] at heard
  cases heard

end Bare

end UnitRegistry.Log.Filter
