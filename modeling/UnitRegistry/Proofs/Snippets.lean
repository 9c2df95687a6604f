import UnitRegistry.Proofs.Positions
import UnitRegistry.Proofs.StoredEntries

set_option autoImplicit false

namespace UnitRegistry

open Text

section Printing

def Stream.event (stream : Stream) (line : Text) : Event :=
  match stream with
  | .named label => .console label (line ++ [lineFeed])
  | .standardError => .standardError (line ++ [lineFeed])

namespace State

theorem print_line (s : State) (stream : Stream) (line : Text) : printLine stream s line = s.emit (stream.event line) := by
  cases stream <;> rfl

theorem print_lines (s : State) (stream : Stream) (lines : List Text) :
    s.print (some (stream, lines)) = { s with journal := s.journal ++ lines.map stream.event } := by
  simp only [print]
  induction lines generalizing s with
  | nil => simp
  | cons line rest ih =>
      rw [List.foldl_cons, print_line, ih]
      simp [emit]

theorem report_entry_console {s : State} {ref : ReporterRef} {stream : Stream} {colors : Bool}
    (console : (s.reporter ref).display = .console stream colors) (entry : Entry) :
    s.reportEntry ref entry =
      { s with reporters := s.reporters.modify ref (·.record entry)
               journal := s.journal ++ ((Console.entryLines colors entry).map stream.event ++ [.reported ref entry]) } := by
  have shown : (s.reporter ref).shown entry = some (stream, Console.entryLines colors entry) := by rw [Reporter.shown, console]
  rw [reportEntry, shown, print_lines]
  simp [modifyReporter, emit, ← Array.toList_inj]

end State

end Printing

-- How many bytes a position marks. One that is empty, or ends before it starts, marks the byte of its start.
def Position.span (p : Position) : Nat := if p.start < p.stop then p.stop.toNat - p.start.toNat else 1

namespace Console

def bar : UInt8 := 124

theorem length_blank (width : Nat) : (blank width).length = width := List.length_replicate

theorem blank_succ (width : Nat) : blank (width + 1) = blank width ++ [space] := List.replicate_succ'

theorem not_in_blank {byte : UInt8} (visible : byte ≠ space) (width : Nat) : byte ∉ blank width := by
  intro member
  exact visible (List.eq_of_mem_replicate member)

theorem index_behind {byte : UInt8} {front : Text} (absent : byte ∉ front) (rest : Text) :
    (front ++ byte :: rest).idxOf byte = front.length := by
  rw [List.idxOf_append_of_notMem absent, List.idxOf_cons_self, Nat.add_zero]

theorem caret_count (p : Position) (index length : Nat) :
    caretCount p.start p.stop index length = max 1 (min p.span (length - index)) := by
  rw [caretCount, Position.span]
  by_cases spans : p.start < p.stop
  · have less : p.start.toNat < p.stop.toNat := UInt32.lt_iff_toNat_lt.mp spans
    have wide : (p.stop - p.start).toNat = p.stop.toNat - p.start.toNat := UInt32.toNat_sub_of_le _ _ (UInt32.le_of_lt spans)
    rw [if_pos spans, if_pos spans, wide]
    split <;> omega
  · rw [if_neg spans, if_neg spans]
    split <;> omega

-- A source line under a gutter, and an underline under both. The bars are the first in their lines and stand below each other,
-- behind as many bytes. The carets begin below the byte of the text that has this index, or where the text would have it.
structure Underlines (line : UInt32) (text : Text) (index wide place count : Nat) (gutter source underline : Text) : Prop where
  edge : gutter = blank place ++ [bar]
  shown : ∃ padding, padding + (ofNat line.toNat).length + 1 = place ∧
    source = blank padding ++ ofNat line.toNat ++ [space, bar, space] ++ text
  marked : underline = blank place ++ [bar, space] ++ blank index ++ carets count
  bars : gutter.idxOf bar = place ∧ source.idxOf bar = place ∧ underline.idxOf bar = place
  below : underline.idxOf caret = place + 2 + index ∧ source[underline.idxOf caret]? = text[index]?
  number : count = max 1 (min wide (text.length - index))
  within : index + count ≤ text.length ∨ text.length ≤ index ∧ count = 1

section Layout

variable (line : UInt32) (text : Text) (index wide width count : Nat)

theorem gutter_line : gutter false width = blank (width + 1) ++ [bar] := by
  rw [blank_succ, List.append_assoc]
  exact List.append_nil _

theorem underline_line :
    underline false width index count = blank (width + 1) ++ [bar, space] ++ blank index ++ carets count := by
  rw [blank_succ]
  simp [underline, paint]
  rfl

theorem source_line : ∃ padding, padding + (ofNat line.toNat).length = gutterWidth line ∧
    sourceLine false (gutterWidth line) line text = blank padding ++ ofNat line.toNat ++ [space, bar, space] ++ text := by
  refine ⟨gutterWidth line - (ofNat line.toNat).length, ?_, ?_⟩
  · rw [gutterWidth]
    omega
  · simp [sourceLine, paint, List.leftpad]
    rfl

theorem bar_of_gutter : (gutter false width).idxOf bar = width + 1 := by
  have absent : bar ∉ blank (width + 1) := not_in_blank (by decide) (width + 1)
  rw [gutter_line, index_behind absent, length_blank]

theorem bar_of_underline : (underline false width index count).idxOf bar = width + 1 := by
  have absent : bar ∉ blank (width + 1) := not_in_blank (by decide) (width + 1)
  rw [underline_line, List.append_assoc, List.append_assoc, List.cons_append, index_behind absent, length_blank]

theorem bar_of_source : (sourceLine false (gutterWidth line) line text).idxOf bar = gutterWidth line + 1 := by
  obtain ⟨padding, width, shown⟩ := source_line line text
  have padded : bar ∉ blank padding := not_in_blank (by decide) padding
  have digits : bar ∉ ofNat line.toNat := fun member => absurd (digit_of_nat member) (by decide)
  have apart : bar ≠ space := by decide
  have label : bar ∉ blank padding ++ ofNat line.toNat ++ [space] := by simp [padded, digits, apart]
  have split : blank padding ++ ofNat line.toNat ++ [space, bar, space] ++ text =
      blank padding ++ ofNat line.toNat ++ [space] ++ bar :: space :: text := by simp
  rw [shown, split, index_behind label, List.length_append, List.length_append, length_blank, width]
  rfl

theorem caret_of_underline (marked : 0 < count) : (underline false width index count).idxOf caret = width + 1 + 2 + index := by
  obtain ⟨more, rfl⟩ : ∃ more, count = more + 1 := ⟨count - 1, by omega⟩
  have blanks (n : Nat) : caret ∉ blank n := not_in_blank (by decide) n
  have apart : caret ≠ bar ∧ caret ≠ space := by decide
  have front : caret ∉ blank (width + 1) ++ [bar, space] ++ blank index := by simp [blanks, apart]
  rw [underline_line, carets, List.replicate_succ, index_behind front, List.length_append, List.length_append, length_blank,
    length_blank]
  rfl

theorem source_below : (sourceLine false (gutterWidth line) line text)[gutterWidth line + 1 + 2 + index]? = text[index]? := by
  obtain ⟨padding, width, shown⟩ := source_line line text
  have front : (blank padding ++ ofNat line.toNat ++ [space, bar, space]).length = gutterWidth line + 1 + 2 := by
    rw [List.length_append, List.length_append, length_blank, width]
    rfl
  rw [shown, ← front, List.getElem?_append_right (Nat.le_add_right _ _), Nat.add_sub_cancel_left]

theorem underlines_shown (number : count = max 1 (min wide (text.length - index))) :
    Underlines line text index wide (gutterWidth line + 1) count (gutter false (gutterWidth line))
      (sourceLine false (gutterWidth line) line text) (underline false (gutterWidth line) index count) := by
  obtain ⟨padding, width, shown⟩ := source_line line text
  have mark := caret_of_underline index (gutterWidth line) count (by omega)
  constructor
  case edge => exact gutter_line (gutterWidth line)
  case shown => exact ⟨padding, congrArg Nat.succ width, shown⟩
  case marked => exact underline_line index (gutterWidth line) count
  case bars =>
    exact ⟨bar_of_gutter (gutterWidth line), bar_of_source line text, bar_of_underline index (gutterWidth line) count⟩
  case below =>
    refine ⟨mark, ?_⟩
    rw [mark]
    exact source_below line text index
  case number => exact number
  case within => omega

end Layout

structure Presents (entry : Entry) (place : Location) (text : Text) (lines : List Text) : Prop where
  header : lines[0]? = some (entry.severity.name ++ ": " ++ entry.message)
  arrow : lines[1]? = some ("  --> " ++ place.file ++ ":" ++ ofNat place.line.toNat ++ ":" ++ ofNat place.column.toNat)
  bare : lines.length = 2 ↔ text = []
  marks : text ≠ [] → ∃ index column count gutter source underline, place.column.toNat = index + 1 ∧
    lines.drop 2 = [gutter, source, underline, gutter] ∧
    Underlines place.line text index entry.position.span column count gutter source underline

theorem header_line (entry : Entry) : header false entry = entry.severity.name ++ ": " ++ entry.message := by
  simp [header, paint]

theorem arrow_line (place : Location) : arrow false place =
    "  --> " ++ place.file ++ ":" ++ ofNat place.line.toNat ++ ":" ++ ofNat place.column.toNat := by
  simp [arrow, paint]

theorem entry_lines_serious {entry : Entry} (serious : entry.severity ≠ .info) :
    entryLines false entry = header false entry :: snippet false entry.position := by
  cases kind : entry.severity with
  | info => exact absurd kind serious
  | _ => simp only [entryLines, kind]

-- The column that is printed and the one that is indented to come from the same distance.
theorem indentation {f : SourceFile} (fits : f.length < maxOffset) (offset : Nat) :
    (f.location offset).column.toNat = ((f.location offset).column - 1).toNat + 1 := by
  have near := f.distance_le offset
  rw [SourceFile.column_pred, clamp_offset_value, SourceFile.fitting_column fits]
  omega

theorem entry_presented {f : SourceFile} (fits : f.length < maxOffset) {entry : Entry} (serious : entry.severity ≠ .info) {id : Nat}
    (inFile : entry.position.source = some ⟨id, f⟩) :
    Presents entry (f.location entry.position.start.toNat) (f.line (f.location entry.position.start.toNat).line)
      (entryLines false entry) := by
  have located : entry.position.location? = some (f.location entry.position.start.toNat) := by
    rw [Position.location?, inFile, Option.map_some]
  have line : entry.position.line = f.line (f.location entry.position.start.toNat).line := by rw [Position.line, inFile]
  have column := indentation fits entry.position.start.toNat
  have lines := entry_lines_serious serious
  rw [snippet, located] at lines
  simp only [line] at lines
  generalize f.location entry.position.start.toNat = place at *
  generalize f.line place.line = text at *
  by_cases empty : text = []
  · rw [if_pos empty] at lines
    rw [lines, header_line, arrow_line]
    exact ⟨rfl, rfl, by simp [empty], fun shown => absurd empty shown⟩
  · rw [if_neg empty] at lines
    have marks := underlines_shown place.line text (place.column - 1).toNat entry.position.span _
      (caret_count entry.position (place.column - 1).toNat text.length)
    rw [lines, header_line, arrow_line]
    exact ⟨rfl, rfl, by simp [empty], fun _ => ⟨_, _, _, _, _, _, column, rfl, marks⟩⟩

end Console

namespace State

theorem message_presented {f : SourceFile} (fits : f.length < maxOffset) {s : State} {ref : ReporterRef} {stream : Stream}
    (console : (s.reporter ref).display = .console stream false) {kind : ReportKind} {remark : Remark} {entry : Entry}
    (comes : s.entry? remark kind = some entry) (serious : entry.severity ≠ .info) {id : Nat}
    (inFile : remark.position.source = some ⟨id, f⟩) :
    ∃ lines, (s.report ref kind remark).journal.toList = s.journal.toList ++ lines.map stream.event ++ [.reported ref entry] ∧
      Console.Presents entry (f.location remark.position.start.toNat) (f.line (f.location remark.position.start.toNat).line)
        lines := by
  obtain ⟨told, same⟩ : s.report ref kind remark = s.reportEntry ref entry ∧ entry.position = remark.position := by
    cases kind with
    | remark => cases comes
    | _ =>
        cases comes
        exact ⟨rfl, rfl⟩
  rw [← same] at inFile ⊢
  refine ⟨Console.entryLines false entry, ?_, Console.entry_presented fits serious inFile⟩
  rw [told, report_entry_console console]
  simp

def plainConsole : State := (start.addReporter { display := .console (.named "out") false }).1

def longRange : Position := ⟨some ⟨7, .ofText "val x = 1\n  val y = ?\r\n" "A.scala"⟩, 16, 4294967295⟩

theorem long_range_presented :
    let f : SourceFile := .ofText "val x = 1\n  val y = ?\r\n" "A.scala"
    let after := plainConsole.report 1 .error ⟨longRange, "not found: ?"⟩
    let seen : List Text := ["error: not found: ?", "  --> A.scala:2:7", "   |", " 2 |   val y = ?", "   |       ^^^^^", "   |"]
    (f.length < maxOffset ∧ (plainConsole.reporter 1).display = .console (.named "out") false ∧
      plainConsole.entry? ⟨longRange, "not found: ?"⟩ .error = some ⟨.error, longRange, "not found: ?"⟩ ∧
      longRange.source = some ⟨7, f⟩) ∧
      after.journal.toList = seen.map (Stream.event (.named "out")) ++ [.reported 1 ⟨.error, longRange, "not found: ?"⟩] ∧
      ∃ lines, after.journal.toList = plainConsole.journal.toList ++ lines.map (Stream.event (.named "out")) ++
          [.reported 1 ⟨.error, longRange, "not found: ?"⟩] ∧
        Console.Presents ⟨.error, longRange, "not found: ?"⟩ (f.location 16) (f.line (f.location 16).line) lines := by
  intro f after seen
  have fits : f.length < maxOffset := by decide
  have console : (plainConsole.reporter 1).display = .console (.named "out") false := by decide +kernel
  have comes : plainConsole.entry? ⟨longRange, "not found: ?"⟩ .error = some ⟨.error, longRange, "not found: ?"⟩ := rfl
  have inFile : longRange.source = some ⟨7, f⟩ := rfl
  have serious : Severity.error ≠ .info := by decide
  exact ⟨⟨fits, console, comes, inFile⟩, by decide +kernel, message_presented fits console comes serious inFile⟩

end State

end UnitRegistry
