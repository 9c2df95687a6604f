import UnitRegistry.Diagnostics.Console

set_option autoImplicit false

namespace UnitRegistry

-- The number of a routine: what a check, a phase or a handler runs when it is called.
abbrev RoutineRef := Nat

structure Handler where
  label : Text
  routine : RoutineRef
deriving DecidableEq, Inhabited

inductive Stream where
  | named (label : Text)
  | standardError
deriving DecidableEq, Inhabited

inductive Display where
  | store (entries : Array Entry) (remarks : Array Remark)
  | console (stream : Stream) (colors : Bool)
  | silent
deriving DecidableEq

instance : Inhabited Display := ⟨.silent⟩

structure Counts where
  info : Nat := 0
  warning : Nat := 0
  error : Nat := 0
deriving DecidableEq, Inhabited

namespace Counts

def get (c : Counts) : Severity → Nat
  | .info => c.info
  | .warning => c.warning
  | .error => c.error

def increment (c : Counts) : Severity → Counts
  | .info => { c with info := c.info + 1 }
  | .warning => { c with warning := c.warning + 1 }
  | .error => { c with error := c.error + 1 }

end Counts

structure Reporter where
  display : Display
  counts : Counts := {}
  handler : Option Handler := none
deriving DecidableEq, Inhabited

namespace Reporter

def count (r : Reporter) (severity : Severity) : Nat := r.counts.get severity

def hasErrors (r : Reporter) : Bool := r.count .error > 0

def hasWarnings (r : Reporter) : Bool := r.count .warning > 0

def record (r : Reporter) (entry : Entry) : Reporter :=
  { r with
    counts := r.counts.increment entry.severity
    display :=
      match r.display with
      | .store entries remarks => .store (entries.push entry) remarks
      | display => display }

def recordRemark (r : Reporter) (remark : Remark) : Reporter :=
  match r.display with
  | .store entries remarks => { r with display := .store entries (remarks.push remark) }
  | _ => r

def reset (r : Reporter) : Reporter :=
  { r with
    counts := {}
    display :=
      match r.display with
      | .store _ _ => .store #[] #[]
      | display => display }

def setColors (r : Reporter) (colors : Bool) : Reporter :=
  match r.display with
  | .console stream _ => { r with display := .console stream colors }
  | _ => r

def entries (r : Reporter) : List Entry :=
  match r.display with
  | .store entries _ => entries.toList
  | _ => []

def entriesOf (r : Reporter) (severity : Severity) : List Entry := r.entries.filter (·.severity == severity)

def remarks (r : Reporter) : List Remark :=
  match r.display with
  | .store _ remarks => remarks.toList
  | _ => []

def shown (r : Reporter) (entry : Entry) : Option (Stream × List Text) :=
  match r.display with
  | .console stream colors => some (stream, Console.entryLines colors entry)
  | _ => none

def shownRemark (r : Reporter) (verbose : Bool) (remark : Remark) : Option (Stream × List Text) :=
  match r.display with
  | .console stream colors => some (stream, Console.remarkLines verbose colors remark)
  | _ => none

end Reporter

end UnitRegistry
