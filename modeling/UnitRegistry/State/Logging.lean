import UnitRegistry.State.Basic

set_option autoImplicit false

namespace UnitRegistry

open Log (Sink SinkRef FileSink Record Level Format Config Logger)

namespace State

def sink (s : State) (ref : SinkRef) : Sink := s.sinks.get ref

def setSink (s : State) (ref : SinkRef) (sink : Sink) : State := { s with sinks := s.sinks.set ref sink }

def flushFile (s : State) (ref : SinkRef) (file : FileSink) : State :=
  if file.isOpen ∧ file.pending ≠ [] then
    let disk :=
      if file.append then s.disk.append file.name file.pending
      else s.disk.overwrite file.name file.offset file.pending
    { s with disk }.setSink ref
      (.file { file with pending := [], offset := file.offset + file.pending.length })
  else s

def writeFile (s : State) (ref : SinkRef) (file : FileSink) (record : Record) : State :=
  if file.isOpen then
    let line := record.format s.environment.now file.format ++ [Text.lineFeed]
    let file := { file with pending := file.pending ++ line }
    let s := s.setSink ref (.file file)
    if Level.error ≤ record.level then s.flushFile ref file else s
  else s

def writeTo (record : Record) : Nat → State → SinkRef → State
  | 0, s, _ => s
  | depth + 1, s, ref =>
      match s.sink ref with
      | .console colors format =>
          s.emit (.standardError (Sink.consoleLine colors format s.environment.now record))
      | .file file => s.writeFile ref file record
      | .discard => s
      | .fanOut children => children.foldl (writeTo record depth) s
      | .recorder label => s.emit (.logged label record)

def flushTo : Nat → State → SinkRef → State
  | 0, s, _ => s
  | depth + 1, s, ref =>
      match s.sink ref with
      | .file file => s.flushFile ref file
      | .fanOut children => children.foldl (flushTo depth) s
      | .recorder label => s.emit (.flushed label)
      | _ => s

-- Sinks that do not contain themselves nest no deeper than there are sinks.
def writeSink (s : State) (ref : SinkRef) (record : Record) : State := writeTo record s.sinks.size s ref

def flushSink (s : State) (ref : SinkRef) : State := flushTo s.sinks.size s ref

def logRecord (s : State) (record : Record) : State := s.logger.sinks.foldl (fun s ref => s.writeSink ref record) s

def log (s : State) (level : Level) (tag message : Text) : State :=
  s.logRecord ⟨level, tag, message, s.environment.now⟩

-- A record is traced at `fatal` at most, since `off` is a threshold only.
def trace (s : State) (level : Level) (tag message : Text) : State :=
  let level := min level .fatal
  if s.logger.accepts level tag then s.log level tag message else s

def flushLogger (s : State) : State := s.logger.sinks.foldl flushSink s

-- A sink is in it once for each hold on it, by a handle, the logger or a fan-out.
def sinkHolds (s : State) : List SinkRef :=
  s.heldSinks ++ s.logger.sinks ++ s.sinks.items.toList.flatMap Sink.children

def closeSink (s : State) (ref : SinkRef) : State :=
  match s.sink ref with
  | .file file => (s.flushFile ref file).setSink ref (.file { file with isOpen := false, pending := [] })
  | .fanOut _ => s.setSink ref (.fanOut [])
  | _ => s

-- Lets go of the sinks that are due, the first one first. A sink that nothing else holds and that is not due once
-- more is closed, and what it held is due next.
def releaseIn : Nat → State → List SinkRef → State
  | steps + 1, s, ref :: due =>
      if ref ∈ due ∨ ref ∈ s.sinkHolds then releaseIn steps s due
      else releaseIn steps (s.closeSink ref) ((s.sink ref).children ++ due)
  | _, s, _ => s

-- Closing only moves holds to those due, so every step lets go of one more.
def release (s : State) (dropped : List SinkRef) : State :=
  releaseIn (dropped.length + s.sinkHolds.length) s dropped

def pushSink (s : State) (sink : Sink) : State × SinkRef := ({ s with sinks := s.sinks.push sink }, s.sinks.size)

def holdSink (s : State) (sink : Sink) : State × SinkRef :=
  let (s, ref) := s.pushSink sink
  ({ s with heldSinks := s.heldSinks ++ [ref] }, ref)

def dropSink (s : State) (ref : SinkRef) : State :=
  { s with heldSinks := s.heldSinks.erase ref }.release [ref]

def consoleSink (s : State) (colors : Bool) (format : Format) : Sink :=
  .console (colors && s.environment.supportsColors) format

def openFile (s : State) (path : Text) (append : Bool) (format : Format) : State × FileSink :=
  match Disk.resolve path with
  | none => (s, { name := path, isOpen := false, append, format })
  | some name =>
      let disk := if append then s.disk.touch name else s.disk.write name []
      ({ s with disk }, { name, isOpen := true, append, format })

def addChild (s : State) (parent child : SinkRef) : State :=
  match s.sink parent with
  | .fanOut children => s.setSink parent (.fanOut (children ++ [child]))
  | _ => s

def setLogger (s : State) (logger : Logger) : State := { s with logger }

def addSink (s : State) (ref : SinkRef) : State := s.setLogger (s.logger.addSink ref)

def setLogLevel (s : State) (level : Level) : State := s.setLogger (s.logger.setLevel level)

def setLogFilter (s : State) (spec : Text) : State := s.setLogger (s.logger.setFilter spec)

def addConsole (s : State) (config : Config) : State :=
  if config.console then
    let (s, ref) := s.pushSink (s.consoleSink config.colors config.format)
    s.addSink ref
  else s

def addLogFile (s : State) (config : Config) : State :=
  if config.file = [] then s
  else
    let (s, file) := s.openFile config.file true config.format
    if file.isOpen then
      let (s, ref) := s.pushSink (.file file)
      s.addSink ref
    else s.emit (.standardError ("warning: could not open log file: " ++ config.file ++ [Text.lineFeed]))

def configureLog (s : State) (config : Config) : State :=
  let dropped := s.logger.sinks
  (((s.setLogger (.configure config.level config.filter)).release dropped).addConsole config).addLogFile config

end State

end UnitRegistry
