import UnitRegistry.Diagnostics.Message

set_option autoImplicit false

namespace UnitRegistry

namespace Console

def code (parameter : Text) : Text := Text.escape :: ("[" ++ parameter ++ "m")

def reset : Text := code "0"
def bold : Text := code "1"
def dim : Text := code "2"
def brightRed : Text := code "91"
def brightYellow : Text := code "93"
def brightBlue : Text := code "94"
def brightCyan : Text := code "96"

def severityColor : Severity → Text
  | .error => brightRed
  | .warning => brightYellow
  | .info => brightCyan

def paint (colors : Bool) (color : Text) : Text := if colors then color else []

def located (position : Position) (message : Text) : Text :=
  if position.isDefined then position.render ++ ": " ++ message else message

def blank (width : Nat) : Text := List.replicate width Text.space

def carets (count : Nat) : Text := List.replicate count Text.caret

def header (colors : Bool) (entry : Entry) : Text :=
  paint colors bold ++ paint colors (severityColor entry.severity) ++ entry.severity.name ++ paint colors reset ++
    paint colors bold ++ ": " ++ entry.message ++ paint colors reset

def arrow (colors : Bool) (place : Location) : Text :=
  paint colors brightBlue ++ "  --> " ++ paint colors reset ++ place.file ++ ":" ++ Text.ofNat place.line.toNat ++
    ":" ++ Text.ofNat place.column.toNat

def gutterWidth (line : UInt32) : Nat := max (Text.ofNat line.toNat).length 2

def gutter (colors : Bool) (width : Nat) : Text :=
  paint colors brightBlue ++ blank width ++ " |" ++ paint colors reset

def sourceLine (colors : Bool) (width : Nat) (line : UInt32) (text : Text) : Text :=
  paint colors brightBlue ++ List.leftpad width Text.space (Text.ofNat line.toNat) ++ " | " ++
    paint colors reset ++ text

-- As many carets as the range is long, one at least, and none past the text but a single one.
def caretCount (start stop : UInt32) (column textLength : Nat) : Nat :=
  min (if stop > start then (stop - start).toNat else 1) (if textLength > column then textLength - column else 1)

def underline (colors : Bool) (width column count : Nat) : Text :=
  paint colors brightBlue ++ blank width ++ " | " ++ paint colors reset ++ blank column ++
    paint colors brightRed ++ carets count ++ paint colors reset

def snippet (colors : Bool) (position : Position) : List Text :=
  match position.location? with
  | none => []
  | some place =>
      let text := position.line
      if text = [] then [arrow colors place]
      else
        let width := gutterWidth place.line
        let column := (place.column - 1).toNat
        let count := caretCount position.start position.stop column text.length
        [arrow colors place, gutter colors width, sourceLine colors width place.line text,
          underline colors width column count, gutter colors width]

def entryLines (colors : Bool) (entry : Entry) : List Text :=
  match entry.severity with
  | .info => [located entry.position entry.message]
  | _ => header colors entry :: snippet colors entry.position

def remarkLines (verbose colors : Bool) (remark : Remark) : List Text :=
  if verbose then
    [paint colors dim ++ "[comment] " ++ located remark.position remark.message ++ paint colors reset]
  else []

end Console

end UnitRegistry
