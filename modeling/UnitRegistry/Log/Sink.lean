import UnitRegistry.Log.Logger

set_option autoImplicit false

namespace UnitRegistry.Log

structure FileSink where
  name : Text
  isOpen : Bool
  append : Bool
  format : Format
  pending : Text := []
  offset : Nat := 0
deriving DecidableEq, Inhabited

inductive Sink where
  | console (colors : Bool) (format : Format)
  | file (file : FileSink)
  | discard
  | fanOut (children : List SinkRef)
  | recorder (label : Text)
deriving DecidableEq

instance : Inhabited Sink := ⟨.discard⟩

namespace Sink

def children : Sink → List SinkRef
  | .fanOut children => children
  | _ => []

def consoleLine (colors : Bool) (format : Format) (now : Int) (record : Record) : Text :=
  (if format = .text ∧ colors then record.coloredText now else record.format now format) ++ [Text.lineFeed]

end Sink

end UnitRegistry.Log
