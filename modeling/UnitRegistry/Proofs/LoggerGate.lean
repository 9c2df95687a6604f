import UnitRegistry.Proofs.Apart
import UnitRegistry.Proofs.Thresholds

set_option autoImplicit false

namespace UnitRegistry

namespace Log

inductive Call where
  | configure (config : Config)
  | setLevel (level : Level)
  | setFilter (spec : Text)

namespace Logger

-- The sinks do not decide what is accepted.
def bare (l : Logger) : Logger := { l with sinks := [] }

def call (l : Logger) : Call → Logger
  | .configure config => .configure config.level config.filter
  | .setLevel level => l.setLevel level
  | .setFilter spec => l.setFilter spec

def Gated (last : Option Call) (l : Logger) : Prop :=
  match last with
  | some (.setLevel gate) => l.level = gate ∧ l.filter.default = gate
  | _ => l.level ≤ l.filter.least

theorem configure_gated (level : Level) (spec : Text) :
    (configure level spec).level ≤ (configure level spec).filter.least := by
  by_cases none : spec = []
  · rw [configure, if_pos none]
    exact Level.le_refl level
  · rw [configure, if_neg none]
    exact Level.le_refl _

theorem set_filter_open (l : Logger) (spec : Text) : (l.setFilter spec).level ≤ (l.setFilter spec).filter.least :=
  ((Level.le_min_iff _ _ _).mp (Level.le_refl _)).2

theorem call_gated (l : Logger) (call : Call) : (l.call call).Gated (some call) := by
  cases call with
  | configure config => exact configure_gated config.level config.filter
  | setLevel level => exact ⟨rfl, rfl⟩
  | setFilter spec => exact set_filter_open l spec

theorem calls_gated (l : Logger) (calls : List Call) (start : l.level ≤ l.filter.least) :
    (calls.foldl call l).Gated calls.getLast? := by
  obtain rfl | ⟨earlier, last, rfl⟩ := List.eq_nil_or_concat calls
  · exact start
  · rw [List.concat_eq_append, List.foldl_append, List.getLast?_concat]
    exact call_gated _ last

theorem accepts_iff (l : Logger) (level : Level) (tag : Text) :
    l.accepts level tag = true ↔ l.level ≤ level ∧ l.filter.threshold tag ≤ level := by
  rw [accepts, Bool.and_eq_true, Filter.accepts_iff, decide_eq_true_iff]

theorem accepts_open (l : Logger) (isOpen : l.level ≤ l.filter.least) (level : Level) (tag : Text) :
    l.accepts level tag = true ↔ l.filter.threshold tag ≤ level := by
  rw [accepts_iff]
  constructor
  · exact And.right
  · intro accepted
    have least := Level.le_trans (l.filter.least_le_threshold tag) accepted
    exact ⟨Level.le_trans isOpen least, accepted⟩

theorem accepts_gated {last : Option Call} {l : Logger} (gated : l.Gated last) (level : Level) (tag : Text) :
    l.accepts level tag = true ↔
      l.filter.threshold tag ≤ level ∧ ∀ gate, last = some (.setLevel gate) → gate ≤ level := by
  cases last with
  | none => simpa using accepts_open l gated level tag
  | some call =>
      cases call with
      | setLevel gate =>
          rw [accepts_iff, gated.1, and_comm]
          simp
      | configure config => simpa using accepts_open l gated level tag
      | setFilter spec => simpa using accepts_open l gated level tag

theorem filter_decides_iff {last : Option Call} {l : Logger} (gated : l.Gated last) :
    (∀ level tag, l.accepts level tag = l.filter.accepts level tag) ↔
      ∀ gate, last = some (.setLevel gate) → ∀ tag own, l.filter.overrides.lookup tag = some own → gate ≤ own := by
  constructor
  · intro same gate called tag own found
    have threshold : l.filter.threshold tag = own := by rw [Filter.threshold, found, Option.getD_some]
    have accepted : l.accepts own tag = true := by
      rw [same, Filter.accepts_iff, threshold]
      exact Level.le_refl own
    exact ((accepts_gated gated own tag).mp accepted).2 gate called
  · intro above level tag
    have higher (gate : Level) (called : last = some (.setLevel gate)) : gate ≤ l.filter.threshold tag := by
      subst called
      cases found : l.filter.overrides.lookup tag with
      | none =>
          rw [Filter.threshold, found, Option.getD_none, gated.2]
          exact Level.le_refl gate
      | some own =>
          rw [Filter.threshold, found, Option.getD_some]
          exact above gate rfl tag own found
    rw [Bool.eq_iff_iff, accepts_gated gated, Filter.accepts_iff]
    constructor
    · exact And.left
    · intro accepted
      exact ⟨accepted, fun gate called => Level.le_trans (higher gate called) accepted⟩

theorem threshold_configure (level : Level) (spec tag : Text) (given : spec ≠ []) :
    (configure level spec).filter.threshold tag =
      (Filter.moduleLevel? spec tag).getD (min ((Filter.wildcardLevel? spec).getD .info) level) := by
  have named := Filter.lookup_parse {} spec tag
  have general : (({} : Filter).parse spec).default = (Filter.wildcardLevel? spec).getD .info := Filter.default_parse {} spec
  rw [configure, if_neg given, ← general]
  by_cases lower : level < (({} : Filter).parse spec).default
  · have chosen : min (({} : Filter).parse spec).default level = level := if_pos lower
    simp only [if_pos lower, Filter.threshold, Filter.setDefault, named, chosen]
  · have chosen : min (({} : Filter).parse spec).default level = (({} : Filter).parse spec).default := if_neg lower
    simp only [if_neg lower, Filter.threshold, named, chosen]

theorem accepts_configure (gate : Level) (spec : Text) (given : spec ≠ []) (level : Level) (tag : Text) :
    (configure gate spec).accepts level tag = true ↔
      (Filter.moduleLevel? spec tag).getD (min ((Filter.wildcardLevel? spec).getD .info) gate) ≤ level := by
  rw [accepts_open _ (configure_gated gate spec), threshold_configure gate spec tag given]

-- Of the logger before, only the default of its filter is left, and only for want of an item for all modules.
theorem accepts_filtered (l : Logger) (spec : Text) (level : Level) (tag : Text) :
    (l.setFilter spec).accepts level tag = true ↔
      (Filter.moduleLevel? spec tag).getD ((Filter.wildcardLevel? spec).getD l.filter.default) ≤ level := by
  have threshold : (l.setFilter spec).filter.threshold tag =
      (Filter.moduleLevel? spec tag).getD ((Filter.wildcardLevel? spec).getD l.filter.default) :=
    Filter.threshold_parse l.filter spec tag
  rw [accepts_open _ (set_filter_open l spec), threshold]

theorem accepts_set_filter (gate : Level) (spec : Text) (level : Level) (tag : Text) :
    ((configure gate []).setFilter spec).accepts level tag = true ↔
      (Filter.moduleLevel? spec tag).getD ((Filter.wildcardLevel? spec).getD gate) ≤ level :=
  accepts_filtered (configure gate []) spec level tag

end Logger

end Log

open Log (Logger Filter)

def Request.logCall? : Request → Option Log.Call
  | .configureLog config => some (.configure config)
  | .setLogLevel level => some (.setLevel level)
  | .setLogFilter spec => some (.setFilter spec)
  | _ => none

def Step.logCall? : Step → Option Log.Call
  | .request asked => asked.logCall?
  | _ => none

def logCalls (steps : List Step) : List Log.Call := steps.filterMap Step.logCall?

namespace State

section Configuration

variable (s : State)

theorem configure_log_bare (config : Log.Config) :
    (s.configureLog config).logger.bare = .configure config.level config.filter := by
  obtain ⟨added, logger⟩ := (configure_log_adds s config).logger
  rw [logger]
  by_cases none : config.filter = [] <;> simp [setLogger, Logger.configure, Logger.bare, none]

theorem perform_bare (request : Request) :
    (ending (s.perform request)).logger.bare = request.logCall?.toList.foldl Logger.call s.logger.bare := by
  cases configuring : request.isConfiguring with
  | false =>
      have none : request.logCall? = none := by cases request <;> first | rfl | cases configuring
      rw [perform_logger s request configuring, none]
      rfl
  | true =>
      cases request with
      | configureLog config => exact configure_log_bare s config
      | setLogLevel level => rfl
      | setLogFilter spec => rfl
      | addSink sink => rfl
      | _ => cases configuring

theorem take_bare (step : Step) :
    (s.take step).logger.bare = step.logCall?.toList.foldl Logger.call s.logger.bare := by
  cases step with
  | request request => exact perform_bare s request
  | completeRun run units => exact congrArg Logger.bare (complete_run_apart s run units).logger
  | _ => rfl

end Configuration

theorem walk_bare {bars : Drive → RunRef → Prop} {s t : State} {steps : List Step} (walk : s.Walk bars steps t) :
    t.logger.bare = (logCalls steps).foldl Logger.call s.logger.bare := by
  induction walk with
  | start => rfl
  | next _ step _ ih =>
      rw [take_bare, ih, logCalls, logCalls, List.filterMap_append, List.foldl_append]
      cases said : step.logCall? <;> simp [said]

theorem walk_gated {bars : Drive → RunRef → Prop} {s t : State} {steps : List Step}
    (start : s.logger.level ≤ s.logger.filter.least) (walk : s.Walk bars steps t) :
    t.logger.Gated (logCalls steps).getLast? := by
  have gated := Logger.calls_gated s.logger.bare (logCalls steps) start
  rwa [← walk_bare walk] at gated

theorem gate_of_last_call (steps : List Step) (m : State) (walk : State.start.Walk nobody steps m) :
    (∀ level tag, m.logger.accepts level tag = true ↔
      (m.logger.filter.overrides.lookup tag).getD m.logger.filter.default ≤ level ∧
        ∀ gate, (logCalls steps).getLast? = some (.setLevel gate) → gate ≤ level) ∧
    ((∀ level tag, m.logger.accepts level tag = m.logger.filter.accepts level tag) ↔
      ∀ gate, (logCalls steps).getLast? = some (.setLevel gate) →
        ∀ tag own, m.logger.filter.overrides.lookup tag = some own → gate ≤ own) := by
  have gated := walk_gated (by decide) walk
  exact ⟨Logger.accepts_gated gated, Logger.filter_decides_iff gated⟩

def levelThenFilter : List Request := [.configureLog { level := .warn, console := false }, .setLogFilter "unit=trace"]

theorem gate_opened_by_filter :
    let m := levelThenFilter.foldl (fun s request => ending (s.perform request)) start
    ∀ level tag, m.logger.accepts level tag = m.logger.filter.accepts level tag := by
  intro m
  have last : (logCalls (levelThenFilter.map .request)).getLast? = some (.setFilter "unit=trace") := rfl
  apply (gate_of_last_call _ m (requests_walk start levelThenFilter)).2.mpr
  intro gate called
  rw [last] at called
  cases called

theorem override_behind_gate :
    let m := ((start.configureLog { level := .warn, console := false }).setLogFilter "unit=trace").setLogLevel .warn
    m.logger.filter.accepts .trace "unit" = true ∧ m.logger.accepts .trace "unit" = false := by
  decide +kernel

-- The level that a module must reach when level and filter are given at once, or the filter after the level. Modules
-- without an item of their own start from a level of the filter in the first case, and from the given one in the second.
theorem level_and_filter (s : State) (config : Log.Config) (given : config.filter ≠ []) :
    let together := s.configureLog config
    let apart := (s.configureLog { config with filter := [] }).setLogFilter config.filter
    let own := Filter.moduleLevel? config.filter
    let general := Filter.wildcardLevel? config.filter
    (∀ level tag, together.logger.accepts level tag = true ↔
      (own tag).getD (min (general.getD .info) config.level) ≤ level) ∧
    (∀ level tag, apart.logger.accepts level tag = true ↔ (own tag).getD (general.getD config.level) ≤ level) ∧
    ((∀ level tag, together.logger.accepts level tag = apart.logger.accepts level tag) ↔
      (∀ level, general = some level → level ≤ config.level) ∧ (general = none → config.level ≤ .info)) := by
  intro together apart own general
  have first (level : Log.Level) (tag : Text) : together.logger.accepts level tag = true ↔
      (own tag).getD (min (general.getD .info) config.level) ≤ level := by
    have bare := congrArg (Logger.accepts · level tag) (configure_log_bare s config)
    exact (Bool.eq_iff_iff.mp bare).trans (Logger.accepts_configure config.level config.filter given level tag)
  have second (level : Log.Level) (tag : Text) : apart.logger.accepts level tag = true ↔
      (own tag).getD (general.getD config.level) ≤ level := by
    have bare := congrArg (fun l : Logger => (l.setFilter config.filter).accepts level tag)
      (configure_log_bare s { config with filter := [] })
    exact (Bool.eq_iff_iff.mp bare).trans (Logger.accepts_set_filter config.level config.filter level tag)
  have ordered : min (general.getD .info) config.level = general.getD config.level ↔
      (∀ level, general = some level → level ≤ config.level) ∧ (general = none → config.level ≤ .info) := by
    cases found : general with
    | none => simpa using Log.Level.min_eq_right_iff .info config.level
    | some level => simpa using Log.Level.min_eq_left_iff level config.level
  have agree := Filter.same_general_iff config.filter (min (general.getD .info) config.level) (general.getD config.level)
  have same : (∀ level tag, together.logger.accepts level tag = apart.logger.accepts level tag) ↔
      (∀ level, general = some level → level ≤ config.level) ∧ (general = none → config.level ≤ .info) := by
    simp only [Bool.eq_iff_iff, first, second]
    exact agree.trans ordered
  exact ⟨first, second, same⟩

def quietWithFilter (spec : Text) : Log.Config := .ofArguments ["-q", "--log-filter=" ++ spec] none

theorem level_and_general_item :
    let config := quietWithFilter "unit=debug,*=warn"
    ∀ level tag, (start.configureLog config).logger.accepts level tag =
      ((start.configureLog { config with filter := [] }).setLogFilter config.filter).logger.accepts level tag := by
  intro config
  have general : Filter.wildcardLevel? config.filter = some .warn := by decide +kernel
  have quiet : config.level = .error := by decide +kernel
  apply (level_and_filter start config (by decide +kernel)).2.2.mpr
  rw [general, quiet]
  constructor
  · intro level found
    cases found
    decide
  · intro none
    cases none

theorem level_without_general_item :
    let config := quietWithFilter "unit=debug"
    config.level = .error ∧ (start.configureLog config).logger.accepts .info "run" = true ∧
      ((start.configureLog { config with filter := [] }).setLogFilter config.filter).logger.accepts .info "run" = false := by
  decide +kernel

-- A filter text takes the place of the one before it, but for the level of its items for all modules: that is the default of
-- the filter from then on, until an item for all modules or a level is set.
theorem filter_after_filter (s : State) (first second : Text) :
    let both := (s.setLogFilter first).setLogFilter second
    let default := s.logger.filter.default
    let own := Filter.moduleLevel? second
    let general := Filter.wildcardLevel? second
    (∀ level tag, both.logger.accepts level tag = true ↔
      (own tag).getD (general.getD ((Filter.wildcardLevel? first).getD default)) ≤ level) ∧
    ((∀ level tag, both.logger.accepts level tag = (s.setLogFilter second).logger.accepts level tag) ↔
      (general = none → ∀ level, Filter.wildcardLevel? first = some level → level = default)) := by
  intro both default own general
  have kept : (s.logger.setFilter first).filter.default = (Filter.wildcardLevel? first).getD default :=
    Filter.default_parse s.logger.filter first
  have after (level : Log.Level) (tag : Text) : both.logger.accepts level tag = true ↔
      (own tag).getD (general.getD ((Filter.wildcardLevel? first).getD default)) ≤ level := by
    rw [← kept]
    exact Logger.accepts_filtered (s.logger.setFilter first) second level tag
  have alone (level : Log.Level) (tag : Text) : (s.setLogFilter second).logger.accepts level tag = true ↔
      (own tag).getD (general.getD default) ≤ level := Logger.accepts_filtered s.logger second level tag
  have settled : general.getD ((Filter.wildcardLevel? first).getD default) = general.getD default ↔
      (general = none → ∀ level, Filter.wildcardLevel? first = some level → level = default) := by
    cases general with
    | some level => simp
    | none => cases said : Filter.wildcardLevel? first <;> simp
  have agree := Filter.same_general_iff second (general.getD ((Filter.wildcardLevel? first).getD default)) (general.getD default)
  refine ⟨after, ?_⟩
  simp only [Bool.eq_iff_iff, after, alone]
  exact agree.trans settled

theorem default_of_earlier_filter :
    let s := start.configureLog { level := .warn, console := false }
    ((s.setLogFilter "*=trace").setLogFilter "unit=debug").logger.accepts .trace "run" = true ∧
      (s.setLogFilter "unit=debug").logger.accepts .trace "run" = false := by
  decide +kernel

end State

end UnitRegistry
