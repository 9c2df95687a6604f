import UnitRegistry.Log.Record
/-!
Logging flags of a command line. The last argument of a group counts; a level argument outweighs verbosity
flags; the variable is asked when there is neither of them nor a filter argument.
-/
set_option autoImplicit false

namespace UnitRegistry.Log

structure Config where
  level : Level := .info
  format : Format := .text
  filter : Text := []
  file : Text := []
  console : Bool := true
  colors : Bool := true
deriving DecidableEq

instance : Inhabited Config := ⟨{}⟩

inductive Argument where
  | level (level : Level)
  | filter (spec : Text)
  | file (path : Text)
  | format (format : Format)
  | verbosity (degree : Nat)
  | other
deriving DecidableEq, Inhabited

namespace Argument

def verbosityOf (arg : Text) : Nat :=
  if arg = "--verbose" then 1
  else
    match arg with
    | byte :: rest => if byte = Text.hyphen ∧ rest.all (· == Text.letterV) then rest.length else 0
    | [] => 0

def formatOf (value : Text) : Format := if value = "json" ∨ value = "JSON" then .json else .text

def value? (flag arg : Text) : Option Text := if arg.startsWith flag then some (arg.drop flag.length) else none

def read (arg : Text) : Argument :=
  match value? "--log-level=" arg with
  | some value => .level (Level.ofText value)
  | none =>
  match value? "--log-filter=" arg with
  | some value => .filter value
  | none =>
  match value? "--log-file=" arg with
  | some value => .file value
  | none =>
  match value? "--log-format=" arg with
  | some value => .format (formatOf value)
  | none =>
      if arg = "-q" ∨ arg = "--quiet" then .level .error
      else
        match verbosityOf arg with
        | 0 => .other
        | degree + 1 => .verbosity (degree + 1)

end Argument

structure Flags where
  level : Option Level := none
  filter : Option Text := none
  file : Text := []
  format : Format := .text
  verbosity : Nat := 0
deriving DecidableEq

instance : Inhabited Flags := ⟨{}⟩

namespace Flags

def add (f : Flags) : Argument → Flags
  | .level level => { f with level := some level }
  | .filter spec => { f with filter := some spec }
  | .file path => { f with file := path }
  | .format format => { f with format }
  | .verbosity degree => { f with verbosity := max f.verbosity degree }
  | .other => f

def read (args : List Text) : Flags := (args.map Argument.read).foldl add {}

def verbosityLevel? (f : Flags) : Option Level :=
  match f.verbosity with
  | 0 => none
  | 1 => some .info
  | 2 => some .debug
  | _ => some .trace

def level? (f : Flags) : Option Level := f.level.orElse fun _ => f.verbosityLevel?

end Flags

namespace Config

def isFilterText (value : Text) : Bool :=
  value.contains Text.equalsSign || value.contains Text.comma

def ofArguments (args : List Text) (fallback : Option Text) : Config :=
  let flags := Flags.read args
  let config : Config :=
    { level := flags.level?.getD .warn
      format := flags.format
      filter := flags.filter.getD []
      file := flags.file }
  if flags.level?.isSome || flags.filter.isSome then config
  else
    let value := fallback.getD []
    if isFilterText value then { config with filter := value }
    else if value = [] then config
    else { config with level := Level.ofText value }

end Config

end UnitRegistry.Log
