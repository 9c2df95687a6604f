import UnitRegistry.Proofs.Apart
/-!
What a request makes of the units that are there. It changes at most the unit that it names, and what becomes of that
unit depends on nothing but the unit and the number of the next node.
-/
set_option autoImplicit false

namespace UnitRegistry

def CacheRef.unit? : CacheRef → Option UnitRef
  | .unit of => some of
  | .single _ => none

namespace CompilationUnit

def modifySynthetics (u : CompilationUnit) (f : ObservedSynthetics → ObservedSynthetics) : CompilationUnit :=
  { u with synthetics := f u.synthetics }

def nextFresh (u : CompilationUnit) (kind : NameKind) (stem : Text) : CompilationUnit :=
  { u with fresh := (u.fresh.fresh kind stem).1 }

end CompilationUnit

def Request.unit? : Request → Option UnitRef
  | .setBody unit _ => some unit
  | .takeBody unit => some unit
  | .encounteredXml unit _ => some unit
  | .addDependency unit _ => some unit
  | .addDefinition unit _ => some unit
  | .cacheTransformed unit _ _ => some unit
  | .forgetTransformed unit _ => some unit
  | .markFeature unit _ => some unit
  | .setTarget unit _ => some unit
  | .freshName unit _ _ => some unit
  | .addCheck unit _ => some unit
  | .putSynthetic cache _ _ => cache.unit?
  | .removeSynthetic cache _ => cache.unit?
  | .clearSynthetics cache => cache.unit?
  | .freezeSynthetics cache => cache.unit?
  | .observeSynthetics cache _ => cache.unit?
  | _ => none

def Request.isCaching : Request → Bool
  | .putSynthetic _ _ _ => true
  | .removeSynthetic _ _ => true
  | .clearSynthetics _ => true
  | .freezeSynthetics _ => true
  | .observeSynthetics _ _ => true
  | _ => false

def Request.isAside : Request → Bool
  | .addNode _ => false
  | .setNode _ _ => false
  | .addUnit _ _ => false
  | .body _ => false
  | .addSource _ _ => false
  | .addCache => false
  | .putSynthetic _ _ _ => false
  | .removeSynthetic _ _ => false
  | .clearSynthetics _ => false
  | .freezeSynthetics _ => false
  | .observeSynthetics _ _ => false
  | request => request.unit?.isNone

def CompilationUnit.change (empty : NodeRef) (u : CompilationUnit) : Request → CompilationUnit
  | .setBody _ tree => u.setBody (tree.getD empty)
  | .takeBody _ => u.setBody empty
  | .encounteredXml _ position => (u.encounteredXml position).toOption.getD u
  | .addDependency _ symbol => u.addDependency symbol
  | .addDefinition _ symbol => u.addDefinition symbol
  | .cacheTransformed _ tree result => u.cacheTransformed tree result
  | .forgetTransformed _ tree => u.forgetTransformed tree
  | .markFeature _ feature => u.markFeature feature
  | .setTarget _ position => u.setTarget position
  | .freshName _ kind stem => u.nextFresh kind stem
  | .addCheck _ check => u.addCheck check
  | .putSynthetic _ symbol tree =>
      u.modifySynthetics fun c => { c with definitions := (c.definitions.put symbol tree).1 }
  | .removeSynthetic _ symbol =>
      u.modifySynthetics fun c => { c with definitions := (c.definitions.remove symbol).1 }
  | .clearSynthetics _ => u.modifySynthetics fun c => { c with definitions := c.definitions.clear }
  | .freezeSynthetics _ => u.modifySynthetics fun c => { c with definitions := c.definitions.freeze }
  | .observeSynthetics _ observer => u.modifySynthetics ({ · with observer })
  | _ => u

namespace CompilationUnit

inductive Changed (u : CompilationUnit) : Request → CompilationUnit → Prop where
  | setBody (of : UnitRef) (tree : Option NodeRef) (body : NodeRef) : Changed u (.setBody of tree) { u with body }
  | takeBody (of : UnitRef) (body : NodeRef) : Changed u (.takeBody of) { u with body }
  | encounteredXml (of : UnitRef) (position firstXml : Position) :
      Changed u (.encounteredXml of position) { u with firstXml }
  | addDependency (of : UnitRef) (symbol : Option Symbol) (dependencies : DependencyTracker) :
      Changed u (.addDependency of symbol) { u with dependencies }
  | addDefinition (of : UnitRef) (symbol : Option Symbol) (dependencies : DependencyTracker) :
      Changed u (.addDefinition of symbol) { u with dependencies }
  | addCheck (of : UnitRef) (check : Check) (checks : List Check) : Changed u (.addCheck of check) { u with checks }
  | cached (request : Request) (synthetics : ObservedSynthetics) (caching : request.isCaching = true) :
      Changed u request { u with synthetics }
  | other (request : Request) (transformed : List (NodeRef × Option NodeRef)) (features : List Symbol) (target : Position)
      (fresh : FreshNames) : Changed u request { u with transformed, features, target, fresh }

theorem change_changed (u : CompilationUnit) (empty : NodeRef) (request : Request) :
    u.Changed request (u.change empty request) := by
  cases request with
  | setBody of tree =>
      simp only [change, CompilationUnit.setBody]
      split
      · exact .setBody of tree u.body
      · exact .setBody of tree _
  | takeBody of =>
      simp only [change, CompilationUnit.setBody]
      split
      · exact .takeBody of u.body
      · exact .takeBody of _
  | encounteredXml of position =>
      simp only [change, CompilationUnit.encounteredXml]
      repeat' split
      · exact .encounteredXml of position u.firstXml
      · exact .encounteredXml of position u.firstXml
      · exact .encounteredXml of position u.firstXml
      · exact .encounteredXml of position position
  | addDependency of symbol => exact .addDependency of symbol _
  | addDefinition of symbol => exact .addDefinition of symbol _
  | addCheck of check =>
      simp only [change, CompilationUnit.addCheck]
      split
      · exact .addCheck of check u.checks
      · exact .addCheck of check _
  | putSynthetic cache symbol tree => exact .cached _ _ rfl
  | removeSynthetic cache symbol => exact .cached _ _ rfl
  | clearSynthetics cache => exact .cached _ _ rfl
  | freezeSynthetics cache => exact .cached _ _ rfl
  | observeSynthetics cache observer => exact .cached _ _ rfl
  | cacheTransformed of tree result =>
      cases tree with
      | none => exact .other _ _ _ _ _
      | some tree =>
          simp only [change, cacheTransformed]
          split <;> exact .other _ _ _ _ _
  | forgetTransformed of tree => cases tree <;> exact .other _ _ _ _ _
  | markFeature of feature =>
      cases feature with
      | none => exact .other _ _ _ _ _
      | some feature =>
          simp only [change, markFeature]
          split <;> exact .other _ _ _ _ _
  | setTarget of position =>
      simp only [change, setTarget]
      split <;> exact .other _ _ _ _ _
  | _ => exact .other _ _ _ _ _

section Changes

variable {u v : CompilationUnit} {request : Request} (changed : u.Changed request v)
include changed

theorem changed_source : v.source = u.source ∧ v.sentinel = u.sentinel := by
  cases changed <;> exact ⟨rfl, rfl⟩

theorem changed_first_xml (other : ∀ of position, request ≠ .encounteredXml of position) : v.firstXml = u.firstXml := by
  cases changed with
  | encounteredXml of position => exact absurd rfl (other of position)
  | _ => rfl

theorem changed_dependencies (noDependency : ∀ of symbol, request ≠ .addDependency of symbol)
    (noDefinition : ∀ of symbol, request ≠ .addDefinition of symbol) : v.dependencies = u.dependencies := by
  cases changed with
  | addDependency of symbol => exact absurd rfl (noDependency of symbol)
  | addDefinition of symbol => exact absurd rfl (noDefinition of symbol)
  | _ => rfl

theorem changed_synthetics (quiet : request.isCaching = false) : v.synthetics = u.synthetics := by
  cases changed with
  | cached _ _ caching => exact absurd (caching.symm.trans quiet) Bool.false_ne_true.symm
  | _ => rfl

theorem changed_keeps (other : ∀ of check, request ≠ .addCheck of check) : u.Keeps v := by
  cases changed with
  | addCheck of check => exact absurd rfl (other of check)
  | _ => exact ⟨rfl, rfl, rfl, rfl⟩

end Changes

end CompilationUnit

def CompilationUnit.step (unit : UnitRef) (empty : NodeRef) (u : CompilationUnit) : Step → CompilationUnit
  | .request request => if request.unit? = some unit then u.change empty request else u
  | .startCheck of _ => if some of = some unit then u.dropCheck else u
  | _ => u

theorem CompilationUnit.step_cases (unit : UnitRef) (empty : NodeRef) (u : CompilationUnit) (step : Step) :
    (∃ request, step = .request request ∧ request.unit? = some unit ∧ u.step unit empty step = u.change empty request) ∨
      (∃ check, step = .startCheck unit check ∧ u.step unit empty step = u.dropCheck) ∨
      ((∀ request, step = .request request → request.unit? ≠ some unit) ∧ (∀ check, step ≠ .startCheck unit check) ∧
        u.step unit empty step = u) := by
  cases step with
  | request request =>
      by_cases named : request.unit? = some unit
      · exact .inl ⟨request, rfl, named, if_pos named⟩
      · refine .inr (.inr ⟨?_, ?_, if_neg named⟩)
        · rintro _ ⟨⟩
          exact named
        · rintro check ⟨⟩
  | startCheck of check =>
      by_cases named : of = unit
      · subst named
        exact .inr (.inl ⟨check, rfl, if_pos rfl⟩)
      · refine .inr (.inr ⟨?_, ?_, if_neg fun same => named (Option.some.inj same)⟩)
        · rintro _ ⟨⟩
        · rintro _ ⟨⟩
          exact named rfl
  | _ =>
      refine .inr (.inr ⟨?_, ?_, rfl⟩)
      · rintro _ ⟨⟩
      · rintro _ ⟨⟩

namespace State

structure Aside (s t : State) : Prop where
  units : t.units = s.units
  heap : t.heap = s.heap
  caches : t.caches = s.caches

theorem aside_refl (s : State) : Aside s s := ⟨rfl, rfl, rfl⟩

theorem aside_trans {s t u : State} (first : Aside s t) (second : Aside t u) : Aside s u :=
  ⟨second.units.trans first.units, second.heap.trans first.heap, second.caches.trans first.caches⟩

theorem inert_aside {s t : State} (inert : Inert s t) : Aside s t := by
  obtain ⟨_, _, _, _, rfl⟩ := inert
  exact ⟨rfl, rfl, rfl⟩

theorem outputs_aside {s t : State} (outputs : Outputs s t) : Aside s t := inert_aside (outputs_inert outputs)

theorem told_aside {s t : State} (told : Told s t) : Aside s t := by
  obtain ⟨_, _, _, _, _, _, _, rfl⟩ := told
  exact ⟨rfl, rfl, rfl⟩

section Apart

variable (s : State)

theorem add_console_aside (config : Log.Config) : Aside s (s.addConsole config) := by
  by_cases console : config.console = true
  · rw [addConsole, if_pos console]
    exact ⟨rfl, rfl, rfl⟩
  · rw [addConsole, if_neg console]
    exact aside_refl s

theorem add_log_file_aside (config : Log.Config) : Aside s (s.addLogFile config) := by
  have opened := inert_aside (open_file_inert s config.file true config.format)
  by_cases none : config.file = []
  · rw [addLogFile, if_pos none]
    exact aside_refl s
  · rw [addLogFile, if_neg none]
    by_cases writable : (s.openFile config.file true config.format).2.isOpen = true
    · simp only [if_pos writable]
      exact aside_trans opened ⟨rfl, rfl, rfl⟩
    · simp only [if_neg writable]
      exact aside_trans opened ⟨rfl, rfl, rfl⟩

theorem configure_log_aside (config : Log.Config) : Aside s (s.configureLog config) := by
  have set : Aside s (s.setLogger (.configure config.level config.filter)) := ⟨rfl, rfl, rfl⟩
  have released := inert_aside (release_inert (s.setLogger (.configure config.level config.filter)) s.logger.sinks)
  exact aside_trans (aside_trans (aside_trans set released) (add_console_aside _ config)) (add_log_file_aside _ config)

theorem perform_aside (request : Request) (aside : request.isAside = true) : Aside s (ending (s.perform request)) := by
  cases request with
  | writeFile path content => exact inert_aside (write_disk_inert s path content)
  | loadSource path => exact inert_aside (load_source_inert s path)
  | report ref kind remark => exact told_aside (report_told s ref kind remark)
  | warn ref remark => exact told_aside (warn_told s ref remark)
  | summarize ref => exact told_aside (summarize_told s ref)
  | summarizeWarnings context =>
      rw [perform, ending_ok]
      exact told_aside (summarize_warnings_told s context)
  | emission context kind remark => exact told_aside (emission_told s context kind remark)
  | getSynthetic cache symbol => exact inert_aside (notices_inert s cache _)
  | configureLog config => exact configure_log_aside s config
  | flushLogger => exact outputs_aside (flush_logger_outputs s)
  | log level tag message => exact outputs_aside (log_record_outputs s _)
  | logRecord record => exact outputs_aside (log_record_outputs s record)
  | trace level tag message => exact outputs_aside (trace_outputs s level tag message)
  | addFileSink path append format => exact inert_aside (add_file_sink_inert s path append format)
  | writeSink sink record => exact outputs_aside (write_sink_outputs s sink record)
  | flushSink sink => exact outputs_aside (flush_sink_outputs s sink)
  | dropSink sink => exact inert_aside (drop_sink_inert s sink)
  | addChild parent child => exact inert_aside (add_child_inert s parent child)
  | _ => first | exact ⟨rfl, rfl, rfl⟩ | cases aside

theorem body_units (ref : UnitRef) : (s.body ref).1.units = s.units := by
  by_cases sentinel : (s.unit ref).sentinel = true
  · rw [body, if_pos sentinel]
    rfl
  · rw [body, if_neg sentinel]

end Apart

variable {s : State} {unit : UnitRef}

theorem unit_of_units {t : State} (same : t.units = s.units) (unit : UnitRef) : t.unit unit = s.unit unit := by
  rw [State.unit, State.unit, same]

theorem unit_modify_there (there : unit < s.units.size) (of : UnitRef) (f : CompilationUnit → CompilationUnit) :
    (s.modifyUnit of f).unit unit = if some of = some unit then f (s.unit unit) else s.unit unit := by
  rw [unit_modify]
  by_cases named : some of = some unit
  · cases named
    rw [if_pos ⟨rfl, there⟩, if_pos rfl]
  · rw [if_neg (fun both => named (congrArg some both.1)), if_neg named]

theorem unit_add_there (there : unit < s.units.size) (source : Option FileRef) (context : ContextRef) :
    (s.addUnit source context).1.unit unit = s.unit unit := by
  rw [unit_add, if_neg (Nat.ne_of_lt there)]

theorem unit_add_source (there : unit < s.units.size) (run : RunRef) (source : Option FileRef) :
    (ending (s.addSource run source)).unit unit = s.unit unit := by
  cases source with
  | none => rfl
  | some file =>
      cases known : (s.run run).unitOf? (some file) with
      | some found =>
          rw [add_source_known s run file found known]
          rfl
      | none =>
          obtain ⟨message, added⟩ := add_source_new s run file known
          have same : (s.emit (.submitted run file)).unit unit = s.unit unit := rfl
          rw [added, ending_ok, unit_of_units (outputs_aside (trace_outputs _ _ _ _)).units, ← same]
          exact unit_add_there there (some file) (s.run run).context

section Modified

variable (s : State) (of : UnitRef)

theorem units_set_body (tree : Option NodeRef) :
    (s.setBody of tree).units = s.units.modify of (·.setBody (tree.getD s.heap.size)) := by
  by_cases sentinel : (s.unit of).sentinel = true
  · have kept : (s.unit of).setBody (tree.getD s.heap.size) = s.unit of := by rw [CompilationUnit.setBody, if_pos sentinel]
    simp only [State.setBody, if_pos sentinel]
    exact (Store.modify_of_eq s.units of kept).symm
  · cases tree with
    | none =>
        simp only [State.setBody, if_neg sentinel]
        rfl
    | some node =>
        simp only [State.setBody, if_neg sentinel]
        rfl

theorem units_take_body : (s.takeBody of).1.units = s.units.modify of (·.setBody s.heap.size) := by
  by_cases sentinel : ((s.addNode {}).1.unit of).sentinel = true
  · have own : (s.unit of).sentinel = true := sentinel
    have kept : (s.unit of).setBody s.heap.size = s.unit of := by rw [CompilationUnit.setBody, if_pos own]
    simp only [takeBody, if_pos sentinel]
    exact (Store.modify_of_eq s.units of kept).symm
  · simp only [takeBody, if_neg sentinel]
    rfl

theorem units_encountered_xml (position : Position) :
    (ending (s.encounteredXml of position)).units =
      s.units.modify of fun u => (u.encounteredXml position).toOption.getD u := by
  cases result : (s.unit of).encounteredXml position with
  | error fault =>
      simp only [State.encounteredXml, result, ending_error]
      refine (Store.modify_of_eq s.units of ?_).symm
      change ((s.unit of).encounteredXml position).toOption.getD (s.unit of) = s.unit of
      rw [result]
      rfl
  | ok u =>
      simp only [State.encounteredXml, result, ending_ok]
      refine Store.modify_congr s.units of ?_
      change u = ((s.unit of).encounteredXml position).toOption.getD (s.unit of)
      rw [result]
      rfl

theorem units_add_check (check : Check) : (s.addCheck of check).units = s.units.modify of (·.addCheck check) := by
  cases own : (s.unit of).sentinel with
  | true =>
      have kept : (s.unit of).addCheck check = s.unit of := by rw [CompilationUnit.addCheck, if_pos own]
      rw [add_check_sentinel s of check own]
      exact (Store.modify_of_eq s.units of kept).symm
  | false =>
      rw [add_check_own s of check own]
      rfl

theorem units_fresh_name (kind : NameKind) (stem : Text) :
    (s.freshName of kind stem).1.units = s.units.modify of (·.nextFresh kind stem) := by
  rw [freshName]
  exact Store.modify_congr s.units of rfl

end Modified

theorem units_modify_cache {cache : CacheRef} {of : UnitRef} (named : cache.unit? = some of)
    (f : ObservedSynthetics → ObservedSynthetics) : (s.modifyCache cache f).units = s.units.modify of (·.modifySynthetics f) := by
  cases cache with
  | unit other =>
      cases named
      rfl
  | single index => cases named

theorem cache_of_unit {cache : CacheRef} (named : cache.unit? = some unit) : s.cache cache = (s.unit unit).synthetics := by
  cases cache with
  | unit of =>
      cases named
      rfl
  | single index => cases named

-- What is seen of a cache comes before its change, and leaves the units as they are.
theorem units_noticed {cache : CacheRef} {of : UnitRef} (named : cache.unit? = some of)
    (change : SyntheticDefinitions → SyntheticDefinitions × List SyntheticNotice) :
    (((change (s.cache cache).definitions).2.foldl (notify cache) s).modifyCache cache
        fun c => { c with definitions := (change (s.cache cache).definitions).1 }).units =
      s.units.modify of (·.modifySynthetics fun c => { c with definitions := (change c.definitions).1 }) := by
  rw [units_modify_cache named, (inert_aside (notices_inert s cache _)).units, cache_of_unit named]
  exact Store.modify_congr s.units of rfl

theorem units_perform (s : State) (request : Request) (of : UnitRef) (named : request.unit? = some of) :
    (ending (s.perform request)).units = s.units.modify of (·.change s.heap.size request) := by
  cases request with
  | putSynthetic cache symbol tree =>
      rw [perform, ending_ok, putSynthetic]
      exact units_noticed named (·.put symbol tree)
  | removeSynthetic cache symbol =>
      rw [perform, ending_ok, removeSynthetic]
      exact units_noticed named (·.remove symbol)
  | clearSynthetics cache =>
      rw [perform, ending_ok, clearSynthetics]
      exact units_modify_cache named _
  | freezeSynthetics cache =>
      rw [perform, ending_ok, freezeSynthetics]
      exact units_modify_cache named _
  | observeSynthetics cache observer =>
      rw [perform, ending_ok, observeSynthetics]
      exact units_modify_cache named _
  | setBody unit tree =>
      cases named
      exact units_set_body s of tree
  | takeBody unit =>
      cases named
      exact units_take_body s of
  | encounteredXml unit position =>
      cases named
      exact units_encountered_xml s of position
  | addCheck unit check =>
      cases named
      exact units_add_check s of check
  | freshName unit kind stem =>
      cases named
      exact units_fresh_name s of kind stem
  | _ => cases named <;> rfl

theorem units_modify_single {cache : CacheRef} (unnamed : cache.unit? = none) (f : ObservedSynthetics → ObservedSynthetics) :
    (s.modifyCache cache f).units = s.units := by
  cases cache with
  | unit of => cases unnamed
  | single index => rfl

theorem units_kept (s : State) (request : Request) (unnamed : request.unit? = none)
    (noUnit : ∀ source context, request ≠ .addUnit source context) (noSource : ∀ run source, request ≠ .addSource run source) :
    (ending (s.perform request)).units = s.units := by
  cases request with
  | addUnit source context => exact absurd rfl (noUnit source context)
  | addSource run source => exact absurd rfl (noSource run source)
  | addNode node => rfl
  | setNode ref node => rfl
  | addCache => rfl
  | body of => exact body_units s of
  | putSynthetic cache symbol tree =>
      rw [perform, ending_ok, putSynthetic, units_modify_single unnamed, (inert_aside (notices_inert s cache _)).units]
  | removeSynthetic cache symbol =>
      rw [perform, ending_ok, removeSynthetic, units_modify_single unnamed, (inert_aside (notices_inert s cache _)).units]
  | clearSynthetics cache => rw [perform, ending_ok, clearSynthetics, units_modify_single unnamed]
  | freezeSynthetics cache => rw [perform, ending_ok, freezeSynthetics, units_modify_single unnamed]
  | observeSynthetics cache observer => rw [perform, ending_ok, observeSynthetics, units_modify_single unnamed]
  | _ => exact (perform_aside s _ (by exact congrArg Option.isNone unnamed)).units

theorem unit_perform (there : unit < s.units.size) (request : Request) :
    (ending (s.perform request)).unit unit =
      if request.unit? = some unit then (s.unit unit).change s.heap.size request else s.unit unit := by
  cases named : request.unit? with
  | some of =>
      rw [State.unit, units_perform s request of named, Store.get_modify_cases]
      by_cases same : of = unit
      · subst same
        rw [if_pos ⟨rfl, there⟩, if_pos rfl]
        rfl
      · rw [if_neg fun both => same both.1, if_neg fun both => same (Option.some.inj both)]
        rfl
  | none =>
      refine Eq.trans ?_ (if_neg (Option.some_ne_none unit).symm).symm
      cases request with
      | addUnit source context => exact unit_add_there there source context
      | addSource run source => exact unit_add_source there run source
      | _ => exact unit_of_units (units_kept s _ named (fun _ _ => Request.noConfusion) fun _ _ => Request.noConfusion) unit

theorem unit_add_check (there : unit < s.units.size) (of : UnitRef) (check : Check) :
    (s.addCheck of check).unit unit = if some of = some unit then (s.unit unit).addCheck check else s.unit unit :=
  unit_perform there (.addCheck of check)

theorem unit_take (there : unit < s.units.size) (step : Step) :
    (s.take step).unit unit = (s.unit unit).step unit s.heap.size step := by
  cases step with
  | request request => exact unit_perform there request
  | startCheck of check => exact unit_modify_there there of CompilationUnit.dropCheck
  | completeRun run units => exact unit_of_units (complete_run_units s run units).1 unit
  | _ => rfl

theorem unit_walk {bars : Drive → RunRef → Prop} (law : List Step → CompilationUnit → Prop) {steps : List Step} {t : State}
    (there : unit < s.units.size) (start : law [] (s.unit unit))
    (next : ∀ steps u empty step, law steps u → (∀ check, step = .startCheck unit check → u.checks.head? = some check) →
      law (steps ++ [step]) (u.step unit empty step))
    (walk : Walk bars s steps t) : law steps (t.unit unit) := by
  induction walk with
  | start => exact start
  | @next steps t walk step allowed ih =>
      have bound : unit < t.units.size := Nat.lt_of_lt_of_le there (moves_grows 0 (walk_moves walk)).size
      rw [unit_take bound]
      refine next steps (t.unit unit) t.heap.size step ih fun check same => ?_
      subst same
      exact allowed

end State

end UnitRegistry
