import UnitRegistry.Proofs.Snippets

set_option autoImplicit false

namespace UnitRegistry

open Text

namespace Console

def openingBracket : UInt8 := 91
def letterM : UInt8 := 109
def semicolon : UInt8 := 59

def isParameter (byte : UInt8) : Bool := 48 ≤ byte && byte ≤ 57 || byte == semicolon

-- The length of the color code that a text begins with, and zero without one: an escape and a bracket, parameters, and an m.
def codeLength : Text → Nat
  | first :: second :: rest =>
      if first = escape ∧ second = openingBracket ∧ (rest.dropWhile isParameter).head? = some letterM then
        (rest.takeWhile isParameter).length + 3
      else 0
  | _ => 0

-- A text without its color codes, of the first of which some bytes may be left.
def withoutCodesFrom : Nat → Text → Text
  | _, [] => []
  | left + 1, _ :: rest => withoutCodesFrom left rest
  | 0, byte :: rest =>
      match codeLength (byte :: rest) with
      | 0 => byte :: withoutCodesFrom 0 rest
      | left + 1 => withoutCodesFrom left rest

def withoutCodes (t : Text) : Text := withoutCodesFrom 0 t

def Painted (painted plain : Text) : Prop := ∀ rest, withoutCodes (painted ++ rest) = plain ++ withoutCodes rest

theorem without_codes_left (passed rest : Text) : withoutCodesFrom passed.length (passed ++ rest) = withoutCodes rest := by
  induction passed with
  | nil => rfl
  | cons byte passed ih => exact ih

theorem code_length_other {byte : UInt8} (other : byte ≠ escape) (rest : Text) : codeLength (byte :: rest) = 0 := by
  cases rest with
  | nil => rfl
  | cons second rest => exact if_neg fun opens => other opens.1

theorem code_length_code {parameter : Text} (digits : ∀ byte ∈ parameter, isParameter byte = true) (rest : Text) :
    codeLength (code parameter ++ rest) = parameter.length + 3 := by
  have spelled : code parameter ++ rest = escape :: openingBracket :: (parameter ++ letterM :: rest) := by
    simp [code]
    rfl
  have stops : isParameter letterM = false := by decide
  have taken : (parameter ++ letterM :: rest).takeWhile isParameter = parameter := by
    rw [List.takeWhile_append_of_pos digits, List.takeWhile_cons_of_neg (by simp [stops]), List.append_nil]
  have left : (parameter ++ letterM :: rest).dropWhile isParameter = letterM :: rest := by
    rw [List.dropWhile_append_of_pos digits, List.dropWhile_cons_of_neg (by simp [stops])]
  rw [spelled, codeLength, taken, left, if_pos ⟨rfl, rfl, rfl⟩]

theorem painted_code {parameter : Text} (digits : ∀ byte ∈ parameter, isParameter byte = true) : Painted (code parameter) [] := by
  intro rest
  have length := code_length_code digits rest
  have long : (("[" : Text) ++ parameter ++ ("m" : Text)).length = parameter.length + 2 := by
    have single : ("[" : Text).length = 1 ∧ ("m" : Text).length = 1 := ⟨rfl, rfl⟩
    rw [List.length_append, List.length_append, single.1, single.2]
    omega
  rw [code, List.cons_append] at length ⊢
  rw [withoutCodes, withoutCodesFrom, length]
  change withoutCodesFrom (parameter.length + 2) _ = _
  rw [← long, without_codes_left]
  rfl

theorem painted_plain {t : Text} (clean : escape ∉ t) : Painted t t := by
  intro rest
  induction t with
  | nil => rfl
  | cons byte t ih =>
      have other : byte ≠ escape := fun same => clean (same ▸ List.mem_cons_self)
      rw [List.cons_append, withoutCodes, withoutCodesFrom, code_length_other other]
      exact congrArg (byte :: ·) (ih fun member => clean (List.mem_cons_of_mem byte member))

theorem Painted.append {a b c d : Text} (front : Painted a b) (back : Painted c d) : Painted (a ++ c) (b ++ d) := by
  intro rest
  rw [List.append_assoc, front, back, List.append_assoc]

theorem Painted.without_codes {a b : Text} (painted : Painted a b) : withoutCodes a = b := by
  have bare := painted []
  rwa [List.append_nil, withoutCodes.eq_def [], withoutCodesFrom, List.append_nil] at bare

-- A code that breaks off is text like any other.
example : withoutCodes (code "1;91" ++ "a[0m" ++ escape :: "[0") = "a[0m" ++ escape :: "[0" := by decide

theorem painted_flatten {texts plain : List Text} (painted : List.Forall₂ Painted texts plain) :
    Painted texts.flatten plain.flatten := by
  induction painted with
  | nil => exact painted_plain List.not_mem_nil
  | cons first _ ih => exact first.append ih

def palette : List Text := ["0", "1", "2", "91", "93", "94", "96"]

theorem painted_paint {color : Text} (used : color ∈ palette.map code) : Painted (paint true color) (paint false color) := by
  obtain ⟨parameter, among, rfl⟩ := List.mem_map.mp used
  have digits : palette.all (·.all isParameter) = true := by decide
  exact painted_code (List.all_eq_true.mp (List.all_eq_true.mp digits parameter among))

section Lines

theorem painted_reset : Painted (paint true reset) (paint false reset) := painted_paint (by decide)

theorem painted_blue : Painted (paint true brightBlue) (paint false brightBlue) := painted_paint (by decide)

theorem no_escape_in_number (n : Nat) : escape ∉ ofNat n := fun member => absurd (digit_of_nat member) (by decide)

theorem no_escape_in_blank (width : Nat) : escape ∉ blank width := not_in_blank (by decide) width

theorem severity_colors (severity : Severity) : severityColor severity ∈ palette.map code ∧ escape ∉ severity.name := by
  cases severity <;> decide

theorem painted_header {entry : Entry} (clean : escape ∉ entry.message) : Painted (header true entry) (header false entry) := by
  obtain ⟨used, spelled⟩ := severity_colors entry.severity
  have bold : Painted (paint true bold) (paint false bold) := painted_paint (by decide)
  have colon : Painted ": " ": " := painted_plain (by decide)
  have severity := (bold.append (painted_paint used)).append (painted_plain spelled)
  exact ((((severity.append painted_reset).append bold).append colon).append (painted_plain clean)).append painted_reset

theorem painted_arrow {place : Location} (clean : escape ∉ place.file) : Painted (arrow true place) (arrow false place) := by
  have tip : Painted "  --> " "  --> " := painted_plain (by decide)
  have colon : Painted ":" ":" := painted_plain (by decide)
  have line := painted_plain (no_escape_in_number place.line.toNat)
  have column := painted_plain (no_escape_in_number place.column.toNat)
  have file := ((painted_blue.append tip).append painted_reset).append (painted_plain clean)
  exact (((file.append colon).append line).append colon).append column

theorem painted_gutter (width : Nat) : Painted (gutter true width) (gutter false width) := by
  have bar : Painted " |" " |" := painted_plain (by decide)
  exact ((painted_blue.append (painted_plain (no_escape_in_blank width))).append bar).append painted_reset

theorem painted_source_line (width : Nat) (line : UInt32) {text : Text} (clean : escape ∉ text) :
    Painted (sourceLine true width line text) (sourceLine false width line text) := by
  have bar : Painted " | " " | " := painted_plain (by decide)
  have padding : Painted _ _ := painted_plain (no_escape_in_blank (width - (ofNat line.toNat).length))
  have number := padding.append (painted_plain (no_escape_in_number line.toNat))
  exact (((painted_blue.append number).append bar).append painted_reset).append (painted_plain clean)

theorem painted_underline (width column count : Nat) :
    Painted (underline true width column count) (underline false width column count) := by
  have red : Painted (paint true brightRed) (paint false brightRed) := painted_paint (by decide)
  have bar : Painted " | " " | " := painted_plain (by decide)
  have clean : escape ∉ carets count := fun member => absurd (List.eq_of_mem_replicate member) (by decide)
  have edge := ((painted_blue.append (painted_plain (no_escape_in_blank width))).append bar).append painted_reset
  exact (((edge.append (painted_plain (no_escape_in_blank column))).append red).append (painted_plain clean)).append painted_reset

structure Uncolored (position : Position) (message : Text) : Prop where
  message : escape ∉ message
  file : ∀ ref, position.source = some ref → escape ∉ ref.file.name ∧ escape ∉ ref.file.content

variable {position : Position} {message : Text}

theorem mem_of_mem_line {f : SourceFile} {number : UInt32} {byte : UInt8} (member : byte ∈ f.line number) : byte ∈ f.content := by
  rw [SourceFile.line_cut] at member
  have dropped (final : UInt8) (line : Text) : (dropFinal final line).Sublist line := by
    rw [dropFinal]
    split
    · exact List.dropLast_sublist line
    · exact List.Sublist.refl line
  have cut (starts : List Nat) : (cutLine f.content starts).Sublist f.content := by
    obtain _ | ⟨start, _ | ⟨next, later⟩⟩ := starts
    · exact List.nil_sublist f.content
    · exact List.drop_sublist start f.content
    · exact (List.take_sublist _ _).trans (List.drop_sublist start f.content)
  split at member
  · cases member
  · exact (cut _).subset ((dropped _ _).subset ((dropped _ _).subset member))

theorem no_escape_in_located (clean : Uncolored position message) : escape ∉ located position message := by
  have colon : escape ∉ (":" : Text) := by decide
  have gap : escape ∉ (": " : Text) := by decide
  cases found : position.source with
  | none => simpa [located, Position.isDefined, found] using clean.message
  | some ref =>
      have name := (clean.file ref found).1
      simp [located, Position.isDefined, Position.render, found, clean.message, name, colon, gap, no_escape_in_number]

theorem painted_snippet (clean : Uncolored position message) :
    List.Forall₂ Painted (snippet true position) (snippet false position) := by
  cases found : position.source with
  | none => simp [snippet, Position.location?, found]
  | some ref =>
      obtain ⟨name, content⟩ := clean.file ref found
      have place : position.location? = some (ref.file.location position.start.toNat) := by
        rw [Position.location?, found, Option.map_some]
      have text : escape ∉ position.line := by
        rw [Position.line, found]
        exact fun member => content (mem_of_mem_line member)
      have arrow : Painted (arrow true (ref.file.location position.start.toNat)) _ := painted_arrow name
      simp only [snippet, place]
      split
      · exact .cons arrow .nil
      · exact .cons arrow (.cons (painted_gutter _) (.cons (painted_source_line _ _ text) (.cons (painted_underline _ _ _)
          (.cons (painted_gutter _) .nil))))

theorem painted_entry {entry : Entry} (clean : Uncolored entry.position entry.message) :
    List.Forall₂ Painted (entryLines true entry) (entryLines false entry) := by
  cases kind : entry.severity with
  | info =>
      simp only [entryLines, kind]
      exact .cons (painted_plain (no_escape_in_located clean)) .nil
  | _ =>
      simp only [entryLines, kind]
      exact .cons (painted_header clean.message) (painted_snippet clean)

theorem painted_remark {remark : Remark} (clean : Uncolored remark.position remark.message) (verbose : Bool) :
    List.Forall₂ Painted (remarkLines verbose true remark) (remarkLines verbose false remark) := by
  cases verbose with
  | false => exact .nil
  | true =>
      have dim : Painted (paint true dim) (paint false dim) := painted_paint (by decide)
      have opening : Painted "[comment] " "[comment] " := painted_plain (by decide)
      exact .cons (((dim.append opening).append (painted_plain (no_escape_in_located clean))).append painted_reset) .nil

end Lines

end Console

end UnitRegistry
