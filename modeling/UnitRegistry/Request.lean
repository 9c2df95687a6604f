import UnitRegistry.State.Runs
/-!
Requests: the operations of the library that call nothing back, with the reply of each. A request that faults
changes nothing.
-/
set_option autoImplicit false

namespace UnitRegistry

inductive Request where
  | setOptions (options : Options)
  | setEnvironment (environment : Environment)
  | writeFile (path content : Text)
  | loadSource (path : Text)
  | addNode (node : Node)
  | setNode (ref : NodeRef) (node : Node)
  | addReporter (display : Display)
  | setColors (reporter : ReporterRef) (colors : Bool)
  | report (reporter : ReporterRef) (kind : ReportKind) (remark : Remark)
  | setHandler (reporter : ReporterRef) (handler : Option Handler)
  | resetReporter (reporter : ReporterRef)
  | addAccumulator (reporter : ReporterRef) (what option : Text) (enabled : Bool)
  | warn (accumulator : AccumulatorRef) (remark : Remark)
  | summarize (accumulator : AccumulatorRef)
  | addContext (reporter : ReporterRef) (settings : WarningSettings)
  | summarizeWarnings (context : ContextRef)
  | emission (context : ContextRef) (kind : EmissionKind) (remark : Remark)
  | addUnit (source : Option FileRef) (context : ContextRef)
  | body (unit : UnitRef)
  | setBody (unit : UnitRef) (tree : Option NodeRef)
  | takeBody (unit : UnitRef)
  | encounteredXml (unit : UnitRef) (position : Position)
  | addDependency (unit : UnitRef) (symbol : Option Symbol)
  | addDefinition (unit : UnitRef) (symbol : Option Symbol)
  | cacheTransformed (unit : UnitRef) (tree result : Option NodeRef)
  | forgetTransformed (unit : UnitRef) (tree : Option NodeRef)
  | markFeature (unit : UnitRef) (feature : Option Symbol)
  | setTarget (unit : UnitRef) (position : Position)
  | freshName (unit : UnitRef) (kind : NameKind) (stem : Text)
  | addCheck (unit : UnitRef) (check : Check)
  | addCache
  | putSynthetic (cache : CacheRef) (symbol : Option Symbol) (tree : Option NodeRef)
  | removeSynthetic (cache : CacheRef) (symbol : Option Symbol)
  | getSynthetic (cache : CacheRef) (symbol : Option Symbol)
  | clearSynthetics (cache : CacheRef)
  | freezeSynthetics (cache : CacheRef)
  | observeSynthetics (cache : CacheRef) (observer : Observer)
  | addRun (context : ContextRef)
  | addSource (run : RunRef) (source : Option FileRef)
  | configureLog (config : Log.Config)
  | setLogLevel (level : Log.Level)
  | setLogFilter (spec : Text)
  | flushLogger
  | log (level : Log.Level) (tag message : Text)
  | logRecord (record : Log.Record)
  | trace (level : Log.Level) (tag message : Text)
  | addRecorder (label : Text)
  | addDiscard
  | addFanOut
  | addConsoleSink (colors : Bool) (format : Log.Format)
  | addFileSink (path : Text) (append : Bool) (format : Log.Format)
  | writeSink (sink : Log.SinkRef) (record : Log.Record)
  | flushSink (sink : Log.SinkRef)
  | dropSink (sink : Log.SinkRef)
  | addChild (parent child : Log.SinkRef)
  | addSink (sink : Log.SinkRef)

namespace Request

abbrev Reply : Request → Type
  | .loadSource _ => Except Text SourceFile
  | .addNode _ => NodeRef
  | .addReporter _ => ReporterRef
  | .addAccumulator _ _ _ _ => AccumulatorRef
  | .addContext _ _ => ContextRef
  | .addUnit _ _ => UnitRef
  | .body _ => NodeRef
  | .takeBody _ => NodeRef
  | .freshName _ _ _ => FreshName
  | .addCache => CacheRef
  | .getSynthetic _ _ => Option NodeRef
  | .addRun _ => RunRef
  | .addSource _ _ => UnitRef
  | .addRecorder _ => Log.SinkRef
  | .addDiscard => Log.SinkRef
  | .addFanOut => Log.SinkRef
  | .addConsoleSink _ _ => Log.SinkRef
  | .addFileSink _ _ _ => Log.SinkRef
  | _ => Unit

end Request

namespace State

def writeDisk (s : State) (path content : Text) : State :=
  match Disk.resolve path with
  | none => s
  | some name => { s with disk := s.disk.write name content }

def addFileSink (s : State) (path : Text) (append : Bool) (format : Log.Format) : State × Log.SinkRef :=
  let (s, file) := s.openFile path append format
  s.holdSink (.file file)

def answer {α : Type} : State × α → EStateM.Result Fault State α
  | (s, value) => .ok value s

def perform (s : State) : (request : Request) → EStateM.Result Fault State request.Reply
  | .setOptions options => .ok () (s.setOptions options)
  | .setEnvironment environment => .ok () (s.setEnvironment environment)
  | .writeFile path content => .ok () (s.writeDisk path content)
  | .loadSource path => answer (s.loadSource path)
  | .addNode node => answer (s.addNode node)
  | .setNode ref node => .ok () (s.setNode ref node)
  | .addReporter display => answer (s.addReporter { display })
  | .setColors reporter colors => .ok () (s.modifyReporter reporter (·.setColors colors))
  | .report reporter kind remark => .ok () (s.report reporter kind remark)
  | .setHandler reporter handler => .ok () (s.setHandler reporter handler)
  | .resetReporter reporter => .ok () (s.resetReporter reporter)
  | .addAccumulator reporter what option enabled =>
      answer (s.addAccumulator reporter { what, option, enabled })
  | .warn accumulator remark => .ok () (s.warn accumulator remark)
  | .summarize accumulator => .ok () (s.summarize accumulator)
  | .addContext reporter settings => answer (s.addContext reporter settings)
  | .summarizeWarnings context => .ok () (s.summarizeWarnings context)
  | .emission context kind remark => .ok () (s.emission context kind remark)
  | .addUnit source context => answer (s.addUnit source context)
  | .body unit => answer (s.body unit)
  | .setBody unit tree => .ok () (s.setBody unit tree)
  | .takeBody unit => answer (s.takeBody unit)
  | .encounteredXml unit position => s.encounteredXml unit position
  | .addDependency unit symbol => .ok () (s.modifyUnit unit (·.addDependency symbol))
  | .addDefinition unit symbol => .ok () (s.modifyUnit unit (·.addDefinition symbol))
  | .cacheTransformed unit tree result => .ok () (s.modifyUnit unit (·.cacheTransformed tree result))
  | .forgetTransformed unit tree => .ok () (s.modifyUnit unit (·.forgetTransformed tree))
  | .markFeature unit feature => .ok () (s.modifyUnit unit (·.markFeature feature))
  | .setTarget unit position => .ok () (s.modifyUnit unit (·.setTarget position))
  | .freshName unit kind stem => answer (s.freshName unit kind stem)
  | .addCheck unit check => .ok () (s.addCheck unit check)
  | .addCache => answer s.addCache
  | .putSynthetic cache symbol tree => .ok () (s.putSynthetic cache symbol tree)
  | .removeSynthetic cache symbol => .ok () (s.removeSynthetic cache symbol)
  | .getSynthetic cache symbol => answer (s.getSynthetic cache symbol)
  | .clearSynthetics cache => .ok () (s.clearSynthetics cache)
  | .freezeSynthetics cache => .ok () (s.freezeSynthetics cache)
  | .observeSynthetics cache observer => .ok () (s.observeSynthetics cache observer)
  | .addRun context => answer (s.addRun context)
  | .addSource run source => s.addSource run source
  | .configureLog config => .ok () (s.configureLog config)
  | .setLogLevel level => .ok () (s.setLogLevel level)
  | .setLogFilter spec => .ok () (s.setLogFilter spec)
  | .flushLogger => .ok () s.flushLogger
  | .log level tag message => .ok () (s.log level tag message)
  | .logRecord record => .ok () (s.logRecord record)
  | .trace level tag message => .ok () (s.trace level tag message)
  | .addRecorder label => answer (s.holdSink (.recorder label))
  | .addDiscard => answer (s.holdSink .discard)
  | .addFanOut => answer (s.holdSink (.fanOut []))
  | .addConsoleSink colors format => answer (s.holdSink (s.consoleSink colors format))
  | .addFileSink path append format => answer (s.addFileSink path append format)
  | .writeSink sink record => .ok () (s.writeSink sink record)
  | .flushSink sink => .ok () (s.flushSink sink)
  | .dropSink sink => .ok () (s.dropSink sink)
  | .addChild parent child => .ok () (s.addChild parent child)
  | .addSink sink => .ok () (s.addSink sink)

theorem eq_of_perform_error (s after : State) (request : Request) (fault : Fault)
    (faulted : s.perform request = .error fault after) : after = s := by
  cases request with
  | encounteredXml unit position =>
      simp only [perform, encounteredXml] at faulted
      split at faulted <;> simp_all
  | addSource run source =>
      simp only [perform, addSource] at faulted
      split at faulted
      · simp_all
      · split at faulted <;> simp at faulted
  | _ => simp [perform, answer] at faulted

end State

end UnitRegistry
