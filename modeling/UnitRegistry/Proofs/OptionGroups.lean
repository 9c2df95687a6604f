import Mathlib.Algebra.Ring.Nat
import Mathlib.Order.Bounds.Basic
import UnitRegistry.Log.Options
import UnitRegistry.Proofs.Thresholds

set_option autoImplicit false

namespace UnitRegistry.Log

open Text (comma equalsSign hyphen letterV)

inductive OptionGroup where
  | level
  | filter
  | file
  | format
  | verbosity
  | other
deriving DecidableEq

namespace Argument

inductive Form : Text → Argument → Prop where
  | level (value : Text) (level : Level) (denotes : Level.Denotes value level) : Form ("--log-level=" ++ value) (.level level)
  | quiet : Form "-q" (.level .error)
  | quietWord : Form "--quiet" (.level .error)
  | filter (spec : Text) : Form ("--log-filter=" ++ spec) (.filter spec)
  | file (path : Text) : Form ("--log-file=" ++ path) (.file path)
  | json (value : Text) (named : value = "json" ∨ value = "JSON") : Form ("--log-format=" ++ value) (.format .json)
  | text (value : Text) (other : ¬ (value = "json" ∨ value = "JSON")) : Form ("--log-format=" ++ value) (.format .text)
  | verbose : Form "--verbose" (.verbosity 1)
  | letters (more : Nat) : Form (hyphen :: List.replicate (more + 1) letterV) (.verbosity (more + 1))

def group : Argument → OptionGroup
  | .level _ => .level
  | .filter _ => .filter
  | .file _ => .file
  | .format _ => .format
  | .verbosity _ => .verbosity
  | .other => .other

inductive Belongs (arg : Text) : OptionGroup → Prop where
  | formed (given : Argument) (form : Form arg given) : Belongs arg given.group
  | other (formless : ∀ given, ¬ Form arg given) : Belongs arg .other

theorem arg_of_value {flag arg value : Text} (found : value? flag arg = some value) : arg = flag ++ value := by
  rw [value?, Text.startsWith] at found
  split at found
  · next begins =>
      obtain ⟨rest, rfl⟩ := List.isPrefixOf_iff_prefix.mp begins
      rw [List.drop_left, Option.some.injEq] at found
      rw [found]
  · cases found

-- The second byte tells letters v from all other words.
theorem letters_ne {word : Text} (second : word[1]? ≠ some letterV) (more : Nat) :
    hyphen :: List.replicate (more + 1) letterV ≠ word := by
  rintro rfl
  exact second rfl

theorem verbosity_of_letters (more : Nat) : verbosityOf (hyphen :: List.replicate (more + 1) letterV) = more + 1 := by
  have word := letters_ne (by decide : (Text.ofString "--verbose")[1]? ≠ some letterV) more
  have all : hyphen = hyphen ∧ (List.replicate (more + 1) letterV).all (· == letterV) := ⟨rfl, by simp⟩
  rw [verbosityOf, if_neg word]
  exact (if_pos all).trans List.length_replicate

theorem read_letters (more : Nat) : read (hyphen :: List.replicate (more + 1) letterV) = .verbosity (more + 1) := by
  have level : value? "--log-level=" (hyphen :: List.replicate (more + 1) letterV) = none := rfl
  have filter : value? "--log-filter=" (hyphen :: List.replicate (more + 1) letterV) = none := rfl
  have file : value? "--log-file=" (hyphen :: List.replicate (more + 1) letterV) = none := rfl
  have format : value? "--log-format=" (hyphen :: List.replicate (more + 1) letterV) = none := rfl
  have letter := letters_ne (by decide : (Text.ofString "-q")[1]? ≠ some letterV) more
  have word := letters_ne (by decide : (Text.ofString "--quiet")[1]? ≠ some letterV) more
  simp only [read, level, filter, file, format, if_neg (not_or.mpr ⟨letter, word⟩), verbosity_of_letters]

theorem form_of_verbosity {arg : Text} {degree : Nat} (found : verbosityOf arg = degree + 1) :
    Form arg (.verbosity (degree + 1)) := by
  unfold verbosityOf at found
  by_cases word : arg = "--verbose"
  · rw [if_pos word] at found
    rw [← found, word]
    exact .verbose
  · rw [if_neg word] at found
    cases arg with
    | nil => cases found
    | cons byte rest =>
        by_cases letters : byte = hyphen ∧ rest.all (· == letterV)
        · have long : rest.length = degree + 1 := (if_pos letters).symm.trans found
          have same : rest = List.replicate (degree + 1) letterV := by
            rw [List.eq_replicate_iff]
            exact ⟨long, fun byte member => beq_iff_eq.mp (List.all_eq_true.mp letters.2 byte member)⟩
          rw [letters.1, same]
          exact .letters degree
        · exact absurd ((if_neg letters).symm.trans found) (Nat.succ_ne_zero degree).symm

theorem read_of_form {arg : Text} {given : Argument} (form : Form arg given) : read arg = given := by
  cases form with
  | level value level denotes => exact congrArg Argument.level ((Level.of_text_iff value level).mpr denotes)
  | quiet => rfl
  | quietWord => rfl
  | filter spec => rfl
  | file path => rfl
  | json value named => exact congrArg Argument.format (if_pos named)
  | text value other => exact congrArg Argument.format (if_neg other)
  | verbose => rfl
  | letters more => exact read_letters more

theorem form_of_read (arg : Text) : read arg = .other ∨ Form arg (read arg) := by
  unfold read
  cases level : value? "--log-level=" arg with
  | some value => exact .inr (arg_of_value level ▸ .level value _ (Level.denotes_text value))
  | none =>
  cases filter : value? "--log-filter=" arg with
  | some spec => exact .inr (arg_of_value filter ▸ .filter spec)
  | none =>
  cases file : value? "--log-file=" arg with
  | some path => exact .inr (arg_of_value file ▸ .file path)
  | none =>
  cases format : value? "--log-format=" arg with
  | some value =>
      right
      by_cases json : value = "json" ∨ value = "JSON"
      · simp only [formatOf, if_pos json]
        exact arg_of_value format ▸ .json value json
      · simp only [formatOf, if_neg json]
        exact arg_of_value format ▸ .text value json
  | none =>
      by_cases quiet : arg = "-q" ∨ arg = "--quiet"
      · right
        simp only [if_pos quiet]
        obtain rfl | rfl := quiet
        · exact .quiet
        · exact .quietWord
      · simp only [if_neg quiet]
        cases degree : verbosityOf arg with
        | zero => exact .inl rfl
        | succ degree => exact .inr (form_of_verbosity degree)

theorem form_iff {arg : Text} {given : Argument} (formed : given ≠ .other) : read arg = given ↔ Form arg given := by
  constructor
  · rintro rfl
    exact (form_of_read arg).resolve_left formed
  · exact read_of_form

theorem belongs_iff (arg : Text) (group : OptionGroup) : Belongs arg group ↔ (read arg).group = group := by
  constructor
  · rintro (⟨given, form⟩ | formless)
    · rw [read_of_form form]
    · rw [(form_of_read arg).resolve_right (formless _)]
      rfl
  · rintro rfl
    obtain other | form := form_of_read arg
    · rw [other]
      refine .other fun given form => ?_
      rw [← read_of_form form, other] at form
      cases form
    · exact .formed _ form

def level? : Argument → Option Level
  | .level given => some given
  | _ => none

def filter? : Argument → Option Text
  | .filter given => some given
  | _ => none

def file? : Argument → Option Text
  | .file given => some given
  | _ => none

def format? : Argument → Option Format
  | .format given => some given
  | _ => none

def degree : Argument → Nat
  | .verbosity given => given
  | _ => 0

theorem degree_of_form {arg : Text} {degree : Nat} (form : Form arg (.verbosity degree)) :
    0 < degree ∧ degree ≤ arg.length := by
  cases form with
  | verbose => decide
  | letters more =>
      rw [List.length_cons, List.length_replicate]
      omega

theorem degree_pos_iff (arg : Text) : 0 < (read arg).degree ↔ Belongs arg .verbosity := by
  rw [belongs_iff]
  constructor
  · intro positive
    cases given : read arg <;> simp_all [degree, group]
  · intro same
    cases given : read arg with
    | verbosity degree => exact (degree_of_form ((form_iff (by simp)).mp given)).1
    | _ => rw [given] at same; cases same

end Argument

open Argument (Form Belongs)

def Without (group : OptionGroup) (args : List Text) : Prop := ∀ arg ∈ args, ¬ Belongs arg group

namespace Flags

theorem last_given {α : Type} (field : Flags → Option α) (word : Argument → Option α)
    (step : ∀ f given, field (f.add given) = (word given).or (field f)) (args : List Text) :
    field (read args) = (lastRead (fun arg => word (.read arg)) args).or (field {}) := by
  rw [read, foldl_last add field word step, lastRead, List.filterMap_map]
  rfl

theorem read_level (args : List Text) : (read args).level = lastRead (fun arg => (Argument.read arg).level?) args := by
  rw [last_given level Argument.level? (fun f given => by cases given <;> rfl), Option.or_none]

theorem read_filter (args : List Text) : (read args).filter = lastRead (fun arg => (Argument.read arg).filter?) args := by
  rw [last_given filter Argument.filter? (fun f given => by cases given <;> rfl), Option.or_none]

theorem read_file (args : List Text) :
    (read args).file = (lastRead (fun arg => (Argument.read arg).file?) args).getD [] := by
  have last := last_given (fun f => some f.file) Argument.file? (fun f given => by cases given <;> rfl) args
  rw [Option.or_some] at last
  exact Option.some.inj last

theorem read_format (args : List Text) :
    (read args).format = (lastRead (fun arg => (Argument.read arg).format?) args).getD .text := by
  have last := last_given (fun f => some f.format) Argument.format? (fun f given => by cases given <;> rfl) args
  rw [Option.or_some] at last
  exact Option.some.inj last

theorem verbosity_le_iff (args : List Text) (bound : Nat) :
    (read args).verbosity ≤ bound ↔ ∀ arg ∈ args, (Argument.read arg).degree ≤ bound := by
  induction args using List.reverseRecOn with
  | nil => simp [read]
  | append_singleton earlier arg ih =>
      have step : (read (earlier ++ [arg])).verbosity = max (read earlier).verbosity (Argument.read arg).degree := by
        rw [read, List.map_append, List.foldl_append]
        change ((read earlier).add (Argument.read arg)).verbosity = _
        cases Argument.read arg <;> simp [add, Argument.degree]
      rw [step, Nat.max_le, ih]
      simp [or_imp, forall_and]

theorem add_comm (f : Flags) (first second : Argument)
    (apart : first.group ≠ second.group ∨ first.group = .verbosity ∧ second.group = .verbosity) :
    (f.add first).add second = (f.add second).add first := by
  obtain apart | ⟨one, two⟩ := apart
  · cases first <;> cases second <;> first | rfl | exact absurd rfl apart
  · cases first with
    | verbosity degree =>
        cases second with
        | verbosity other => simp only [add, Nat.max_right_comm]
        | _ => cases two
    | _ => cases one

theorem verbosity_zero_iff (args : List Text) : (read args).verbosity = 0 ↔ Without .verbosity args := by
  rw [← Nat.le_zero, verbosity_le_iff]
  refine forall₂_congr fun arg _ => ?_
  rw [← Argument.degree_pos_iff]
  omega

theorem greatest_verbosity {args : List Text} (given : (read args).verbosity ≠ 0) :
    IsGreatest {degree | ∃ arg ∈ args, Form arg (.verbosity degree)} (read args).verbosity := by
  have bound := (verbosity_le_iff args _).mp (Nat.le_refl _)
  constructor
  · by_contra missing
    have below : ∀ arg ∈ args, (Argument.read arg).degree ≤ (read args).verbosity - 1 := by
      intro arg member
      have most := bound arg member
      have other : (Argument.read arg).degree ≠ (read args).verbosity := by
        intro same
        cases found : Argument.read arg with
        | verbosity degree =>
            rw [found] at same
            rw [Argument.form_iff (by simp)] at found
            exact missing ⟨arg, member, same ▸ found⟩
        | _ => exact given (by rw [← same, found]; rfl)
      omega
    have less := (verbosity_le_iff args _).mpr below
    omega
  · rintro degree ⟨arg, member, form⟩
    have most := bound arg member
    rwa [Argument.read_of_form form] at most

theorem verbosity_fits {args : List Text} {bound : Nat} (short : ∀ arg ∈ args, arg.length ≤ bound) :
    (read args).verbosity ≤ bound := by
  refine (verbosity_le_iff args bound).mpr fun arg member => ?_
  cases found : Argument.read arg with
  | verbosity degree =>
      rw [Argument.form_iff (by simp)] at found
      exact (Argument.degree_of_form found).2.trans (short arg member)
  | _ => exact Nat.zero_le bound

end Flags

section LastArgument

variable {α : Type}

theorem last_argument_iff (kind : α → Argument) (word : Argument → Option α)
    (words : ∀ given value, word given = some value ↔ given = kind value) (formed : ∀ value, kind value ≠ .other)
    (args : List Text) (default value : α) :
    LastWord (fun arg value => Form arg (kind value)) default args value ↔
      (lastRead (fun arg => word (.read arg)) args).getD default = value :=
  last_word_iff (fun _ _ value => (words _ value).trans (Argument.form_iff (formed value))) default value

theorem without_iff {word : Argument → Option α} {group : OptionGroup}
    (words : ∀ given, word given = none ↔ given.group ≠ group) (args : List Text) :
    lastRead (fun arg => word (.read arg)) args = none ↔ Without group args := by
  rw [lastRead, List.getLast?_eq_none_iff, List.filterMap_eq_nil_iff]
  refine forall₂_congr fun arg _ => ?_
  rw [words, Argument.belongs_iff]

end LastArgument

namespace Config

inductive Unstated (args : List Text) (value : Text) : Level → Prop where
  | verbose (degree : Nat) (largest : IsGreatest {degree | ∃ arg ∈ args, Form arg (.verbosity degree)} degree) :
      Unstated args value (if 3 ≤ degree then .trace else if degree = 2 then .debug else .info)
  | variable (level : Level) (quiet : Without .verbosity args) (unfiltered : Without .filter args) (given : value ≠ [])
      (plain : equalsSign ∉ value ∧ comma ∉ value) (denotes : Level.Denotes value level) : Unstated args value level
  | default (quiet : Without .verbosity args)
      (silent : ¬ (Without .filter args ∧ value ≠ [] ∧ equalsSign ∉ value ∧ comma ∉ value)) : Unstated args value .warn

inductive Supplied (args : List Text) (value : Text) : Text → Prop where
  | variable (unleveled : Without .level args) (quiet : Without .verbosity args)
      (marked : equalsSign ∈ value ∨ comma ∈ value) : Supplied args value value
  | nothing (otherwise : ¬ (Without .level args ∧ Without .verbosity args ∧ (equalsSign ∈ value ∨ comma ∈ value))) :
      Supplied args value []

structure Settled (args : List Text) (value : Text) (config : Config) : Prop where
  level : ∃ unstated, Unstated args value unstated ∧
    LastWord (fun arg level => Form arg (.level level)) unstated args config.level
  filter : ∃ supplied, Supplied args value supplied ∧
    LastWord (fun arg spec => Form arg (.filter spec)) supplied args config.filter
  file : LastWord (fun arg path => Form arg (.file path)) [] args config.file
  format : LastWord (fun arg format => Form arg (.format format)) .text args config.format
  console : config.console = true
  colors : config.colors = true

theorem filter_text_iff (value : Text) : isFilterText value = true ↔ equalsSign ∈ value ∨ comma ∈ value := by
  rw [isFilterText, Bool.or_eq_true, List.contains_iff_mem, List.contains_iff_mem]

def unstated (flags : Flags) (value : Text) : Level :=
  flags.verbosityLevel?.getD
    (if flags.filter = none ∧ value ≠ [] ∧ ¬ isFilterText value then Level.ofText value else .warn)

def supplied (flags : Flags) (value : Text) : Text :=
  if flags.level = none ∧ flags.verbosityLevel? = none ∧ isFilterText value then value else []

def fields (flags : Flags) (value : Text) : Config :=
  { level := flags.level.getD (unstated flags value)
    format := flags.format
    filter := flags.filter.getD (supplied flags value)
    file := flags.file }

theorem of_arguments_eq (args : List Text) (fallback : Option Text) :
    ofArguments args fallback = fields (Flags.read args) (fallback.getD []) := by
  rw [ofArguments, fields, unstated, supplied]
  generalize Flags.read args = flags
  generalize fallback.getD [] = value
  cases level : flags.level with
  | some given => simp [Flags.level?, level]
  | none =>
      cases verbosity : flags.verbosityLevel? with
      | some given => simp [Flags.level?, level, verbosity]
      | none =>
          cases filter : flags.filter with
          | some given => simp [Flags.level?, level, verbosity]
          | none =>
              by_cases marked : isFilterText value = true
              · simp [Flags.level?, level, verbosity, marked]
              · by_cases empty : value = [] <;> simp [Flags.level?, level, verbosity, marked, empty]

theorem verbosity_level_none_iff (flags : Flags) : flags.verbosityLevel? = none ↔ flags.verbosity = 0 := by
  rw [Flags.verbosityLevel?]
  obtain _ | _ | _ | degree := flags.verbosity <;> simp

theorem verbosity_level_of_ne_zero {flags : Flags} (given : flags.verbosity ≠ 0) :
    flags.verbosityLevel? =
      some (if 3 ≤ flags.verbosity then .trace else if flags.verbosity = 2 then .debug else .info) := by
  rw [Flags.verbosityLevel?]
  generalize flags.verbosity = degree at given ⊢
  obtain _ | _ | _ | degree := degree
  · exact absurd rfl given
  · rfl
  · rfl
  · rw [if_pos (Nat.le_add_left 3 degree)]
    rfl

theorem without_level_iff (args : List Text) : (Flags.read args).level = none ↔ Without .level args := by
  rw [Flags.read_level]
  exact without_iff (fun given => by cases given <;> simp [Argument.level?, Argument.group]) args

theorem without_filter_iff (args : List Text) : (Flags.read args).filter = none ↔ Without .filter args := by
  rw [Flags.read_filter]
  exact without_iff (fun given => by cases given <;> simp [Argument.filter?, Argument.group]) args

theorem without_verbosity_iff (args : List Text) : (Flags.read args).verbosityLevel? = none ↔ Without .verbosity args :=
  (verbosity_level_none_iff _).trans (Flags.verbosity_zero_iff args)

theorem unstated_iff (args : List Text) (value : Text) (level : Level) :
    Unstated args value level ↔ unstated (Flags.read args) value = level := by
  by_cases quiet : Without .verbosity args
  · have silent : ¬ ∃ degree, IsGreatest {degree | ∃ arg ∈ args, Form arg (.verbosity degree)} degree := by
      rintro ⟨degree, ⟨arg, member, form⟩, _⟩
      exact quiet arg member (.formed _ form)
    have same : ((Flags.read args).filter = none ∧ value ≠ [] ∧ ¬ isFilterText value = true) ↔
        Without .filter args ∧ value ≠ [] ∧ equalsSign ∉ value ∧ comma ∉ value := by
      rw [without_filter_iff, filter_text_iff, not_or]
    rw [unstated, (without_verbosity_iff args).mpr quiet, Option.getD_none]
    by_cases named : Without .filter args ∧ value ≠ [] ∧ equalsSign ∉ value ∧ comma ∉ value
    · rw [if_pos (same.mpr named)]
      constructor
      · rintro (⟨degree, largest⟩ | ⟨level, _, _, _, _, denotes⟩ | ⟨_, otherwise⟩)
        · exact absurd ⟨degree, largest⟩ silent
        · exact (Level.of_text_iff value level).mpr denotes
        · exact absurd named otherwise
      · rintro rfl
        exact .variable _ quiet named.1 named.2.1 named.2.2 (Level.denotes_text value)
    · rw [if_neg (mt same.mp named)]
      constructor
      · rintro (⟨degree, largest⟩ | ⟨level, _, unfiltered, given, plain, _⟩ | _)
        · exact absurd ⟨degree, largest⟩ silent
        · exact absurd ⟨unfiltered, given, plain⟩ named
        · rfl
      · rintro rfl
        exact .default quiet named
  · have loud : (Flags.read args).verbosity ≠ 0 := mt (Flags.verbosity_zero_iff args).mp quiet
    have greatest := Flags.greatest_verbosity loud
    rw [unstated, verbosity_level_of_ne_zero loud, Option.getD_some]
    constructor
    · rintro (⟨degree, largest⟩ | ⟨level, silent, _⟩ | ⟨silent, _⟩)
      · rw [greatest.unique largest]
      · exact absurd silent quiet
      · exact absurd silent quiet
    · rintro rfl
      exact .verbose _ greatest

theorem supplied_iff (args : List Text) (value filter : Text) :
    Supplied args value filter ↔ supplied (Flags.read args) value = filter := by
  have same : ((Flags.read args).level = none ∧ (Flags.read args).verbosityLevel? = none ∧ isFilterText value = true) ↔
      Without .level args ∧ Without .verbosity args ∧ (equalsSign ∈ value ∨ comma ∈ value) := by
    rw [without_level_iff, without_verbosity_iff, filter_text_iff]
  rw [supplied]
  by_cases met : Without .level args ∧ Without .verbosity args ∧ (equalsSign ∈ value ∨ comma ∈ value)
  · rw [if_pos (same.mpr met)]
    constructor
    · rintro (_ | otherwise)
      · rfl
      · exact absurd met otherwise
    · rintro rfl
      exact .variable met.1 met.2.1 met.2.2
  · rw [if_neg (mt same.mp met)]
    constructor
    · rintro (⟨unleveled, quiet, marked⟩ | _)
      · exact absurd ⟨unleveled, quiet, marked⟩ met
      · rfl
    · rintro rfl
      exact .nothing met

theorem settled_iff (args : List Text) (value : Text) (config : Config) :
    Settled args value config ↔ config = fields (Flags.read args) value := by
  have level (default level : Level) := last_argument_iff .level Argument.level?
    (fun given value => by cases given <;> simp [Argument.level?]) (by simp) args default level
  have filter (default filter : Text) := last_argument_iff .filter Argument.filter?
    (fun given value => by cases given <;> simp [Argument.filter?]) (by simp) args default filter
  have file (default file : Text) := last_argument_iff .file Argument.file?
    (fun given value => by cases given <;> simp [Argument.file?]) (by simp) args default file
  have format (default format : Format) := last_argument_iff .format Argument.format?
    (fun given value => by cases given <;> simp [Argument.format?]) (by simp) args default format
  constructor
  · rintro ⟨⟨unstated, isUnstated, lastLevel⟩, ⟨supplied, isSupplied, lastFilter⟩, lastFile, lastFormat, console, colors⟩
    rw [unstated_iff] at isUnstated
    rw [supplied_iff] at isSupplied
    rw [level, ← Flags.read_level, ← isUnstated] at lastLevel
    rw [filter, ← Flags.read_filter, ← isSupplied] at lastFilter
    rw [file, ← Flags.read_file] at lastFile
    rw [format, ← Flags.read_format] at lastFormat
    rw [fields, lastLevel, lastFilter, lastFile, lastFormat]
    cases config
    cases console
    cases colors
    rfl
  · rintro rfl
    refine ⟨⟨_, (unstated_iff args value _).mpr rfl, (level _ _).mpr ?_⟩,
      ⟨_, (supplied_iff args value _).mpr rfl, (filter _ _).mpr ?_⟩, (file _ _).mpr ?_, (format _ _).mpr ?_, rfl, rfl⟩
    · rw [← Flags.read_level]
      rfl
    · rw [← Flags.read_filter]
      rfl
    · exact (Flags.read_file args).symm
    · exact (Flags.read_format args).symm

theorem options_by_group (args : List Text) (fallback : Option Text) :
    (∀ config, Settled args (fallback.getD []) config ↔ config = ofArguments args fallback) ∧
    (∀ earlier first second later here there, args = earlier ++ first :: second :: later →
      Belongs first here → Belongs second there → here ≠ there ∨ here = .verbosity ∧ there = .verbosity →
      ofArguments (earlier ++ second :: first :: later) fallback = ofArguments args fallback) ∧
    ((∀ arg ∈ args, arg.length < 2 ^ 31) → (Flags.read args).verbosity < 2 ^ 31) := by
  refine ⟨fun config => ?_, ?_, fun short => ?_⟩
  · rw [of_arguments_eq]
    exact settled_iff args _ config
  · rintro earlier first second later here there rfl isHere isThere apart
    rw [Argument.belongs_iff] at isHere isThere
    have same : Flags.read (earlier ++ second :: first :: later) = Flags.read (earlier ++ first :: second :: later) := by
      simp only [Flags.read, List.map_append, List.map_cons, List.foldl_append, List.foldl_cons]
      rw [Flags.add_comm _ (Argument.read first) (Argument.read second) (by rwa [isHere, isThere])]
    rw [of_arguments_eq, of_arguments_eq, same]
  · have fits : (Flags.read args).verbosity ≤ 2 ^ 31 - 1 := Flags.verbosity_fits fun arg member => by
      have := short arg member
      omega
    omega

def mixedArguments : List Text :=
  ["-v", "--log-file=a.log", "--log-level=loud", "-q", "--log-format=JSON", "-vvv", "--log-filter=", "Main.scala"]

theorem mixed_arguments_settled :
    let config : Config := { level := .error, format := .json, file := "a.log" }
    let swapped : List Text :=
      ["-v", "--log-file=a.log", "--log-level=loud", "--log-format=JSON", "-q", "-vvv", "--log-filter=", "Main.scala"]
    Settled mixedArguments "unit=trace" config ∧ Belongs "-q" .level ∧ Belongs "--log-format=JSON" .format ∧
      ofArguments swapped (some "unit=trace") = config ∧ (∀ arg ∈ mixedArguments, arg.length < 2 ^ 31) ∧
      (Flags.read mixedArguments).verbosity < 2 ^ 31 := by
  intro config swapped
  have same : config = ofArguments mixedArguments (some "unit=trace") := by decide +kernel
  have quiet : Belongs "-q" .level := (Argument.belongs_iff _ _).mpr rfl
  have format : Belongs "--log-format=JSON" .format := (Argument.belongs_iff _ _).mpr rfl
  have short : ∀ arg ∈ mixedArguments, arg.length < 2 ^ 31 := by decide
  obtain ⟨settled, apart, fits⟩ := options_by_group mixedArguments (some "unit=trace")
  have moved : ofArguments swapped (some "unit=trace") = ofArguments mixedArguments (some "unit=trace") :=
    apart ["-v", "--log-file=a.log", "--log-level=loud"] "-q" "--log-format=JSON" ["-vvv", "--log-filter=", "Main.scala"]
      .level .format rfl quiet format (.inl (by decide))
  exact ⟨(settled config).mpr same, quiet, format, moved.trans same.symm, short, fits short⟩

end Config

end UnitRegistry.Log
