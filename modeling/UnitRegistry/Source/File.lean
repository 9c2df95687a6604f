import UnitRegistry.Text
/-!
Source files and their line index. A line starts at offset 0 and after every line feed; a location is found
by counting the starts at or before an offset. Offsets are stored in 32 bits and saturate.
-/
set_option autoImplicit false

namespace UnitRegistry

open Text

inductive SourceKind where
  | disk
  | generated
  | none
deriving DecidableEq, Inhabited

def maxOffset : Nat := 4294967295

def clampOffset (offset : Nat) : UInt32 := UInt32.ofNat (min offset maxOffset)

structure SourceFile where
  name : Text
  content : Text
  kind : SourceKind := .disk
deriving DecidableEq, Inhabited

structure Location where
  file : Text
  line : UInt32
  column : UInt32
  offset : UInt32
deriving DecidableEq, Inhabited

def lineStartsFrom (offset : Nat) : Text → List Nat
  | [] => []
  | byte :: rest =>
      if byte = lineFeed then (offset + 1) :: lineStartsFrom (offset + 1) rest
      else lineStartsFrom (offset + 1) rest

def lineStarts (content : Text) : List Nat := 0 :: lineStartsFrom 0 content

def dropFinal (byte : UInt8) (line : Text) : Text :=
  if line.getLast? = some byte then line.dropLast else line

namespace SourceFile

def absent : SourceFile := ⟨"<no file>", [], .none⟩

def ofText (content : Text) (name : Text := "<input>") : SourceFile := ⟨name, content, .disk⟩

def generated (name content : Text) : SourceFile := ⟨name, content, .generated⟩

def isGenerated (f : SourceFile) : Bool := f.kind == .generated

def length (f : SourceFile) : Nat := f.content.length

def lineStarts (f : SourceFile) : List Nat := UnitRegistry.lineStarts f.content

def lineCount (f : SourceFile) : UInt32 := UInt32.ofNat f.lineStarts.length

def location (f : SourceFile) (offset : Nat) : Location :=
  let offset := min offset f.length
  let starts := f.lineStarts.takeWhile (· ≤ offset)
  { file := f.name
    line := UInt32.ofNat starts.length
    column := clampOffset (offset - starts.getLastD 0) + 1
    offset := clampOffset offset }

def line (f : SourceFile) (number : UInt32) : Text :=
  if number = 0 then []
  else
    match f.lineStarts.drop (number.toNat - 1) with
    | [] => []
    | [start] => dropFinal carriageReturn (dropFinal lineFeed (f.content.drop start))
    | start :: next :: _ =>
        dropFinal carriageReturn (dropFinal lineFeed ((f.content.drop start).take (next - start)))

end SourceFile

-- A shared file. The number tells files with equal text apart: the same number is the same file.
structure FileRef where
  id : Nat
  file : SourceFile
deriving DecidableEq, Inhabited

def FileRef.absent : FileRef := ⟨0, SourceFile.absent⟩

end UnitRegistry
