import UnitRegistry.Log.Filter
import UnitRegistry.Log.Options

set_option autoImplicit false

namespace UnitRegistry.Log

abbrev SinkRef := Nat

structure Logger where
  level : Level := .info
  filter : Filter := {}
  sinks : List SinkRef := []
deriving DecidableEq

instance : Inhabited Logger := ⟨{}⟩

namespace Logger

def accepts (l : Logger) (level : Level) (tag : Text) : Bool := l.level ≤ level && l.filter.accepts level tag

-- Level and filter from the start. With a filter text, the level is the most that unnamed modules are held to,
-- and the gate opens as far as some module needs.
def configure (level : Level) (spec : Text) : Logger :=
  if spec = [] then { level, filter := { default := level } }
  else
    let filter := ({} : Filter).parse spec
    let filter := if level < filter.default then filter.setDefault level else filter
    { level := filter.least, filter }

def setLevel (l : Logger) (level : Level) : Logger := { l with level, filter := l.filter.setDefault level }

def setFilter (l : Logger) (spec : Text) : Logger :=
  let filter := l.filter.parse spec
  { l with level := min l.level filter.least, filter }

def addSink (l : Logger) (sink : SinkRef) : Logger := { l with sinks := l.sinks ++ [sink] }

end Logger

end UnitRegistry.Log
