import UnitRegistry.Proofs.LineIndex

set_option autoImplicit false

namespace UnitRegistry

open Text

theorem clamp_offset_value (n : Nat) : (clampOffset n).toNat = min n maxOffset := by
  have fits : min n maxOffset < 2 ^ 32 := Nat.lt_of_le_of_lt (Nat.min_le_right n maxOffset) (by decide)
  exact UInt32.toNat_ofNat_of_lt' fits

def Location.Precedes (a b : Location) : Prop := a.line < b.line ∨ a.line = b.line ∧ a.column < b.column

theorem precedes_apart {a b : Location} (precedes : a.Precedes b) : ¬ (a.line = b.line ∧ a.column = b.column) := by
  rintro ⟨line, column⟩
  obtain less | ⟨_, less⟩ := precedes
  · exact UInt32.lt_irrefl _ (line ▸ less)
  · exact UInt32.lt_irrefl _ (column ▸ less)

namespace SourceFile

def before (f : SourceFile) (offset : Nat) : Text := f.content.take offset

def distance (f : SourceFile) (offset : Nat) : Nat := (lastLine (f.before offset)).length

theorem distance_add_start (f : SourceFile) (offset : Nat) :
    (UnitRegistry.lineStarts (f.before offset)).getLastD 0 + f.distance offset = min offset f.length := by
  have last := last_start 0 (f.before offset)
  have long : (f.before offset).length = min offset f.length := List.length_take
  rw [distance, UnitRegistry.lineStarts]
  omega

theorem distance_le (f : SourceFile) (offset : Nat) : f.distance offset ≤ min offset f.length := by
  have sum := f.distance_add_start offset
  omega

theorem location_eq (f : SourceFile) (offset : Nat) :
    f.location offset = { file := f.name
                          line := UInt32.ofNat (1 + (f.before offset).count lineFeed)
                          column := clampOffset (f.distance offset) + 1
                          offset := clampOffset (min offset f.length) } := by
  have cut : f.content.take (min offset f.length) = f.before offset := by
    rw [before, SourceFile.length, ← List.take_eq_take_min]
  have scanned : f.lineStarts.takeWhile (· ≤ min offset f.length) = UnitRegistry.lineStarts (f.before offset) := by
    rw [lineStarts, line_starts_scanned, cut]
  have count : (UnitRegistry.lineStarts (f.before offset)).length = 1 + (f.before offset).count lineFeed := by
    rw [UnitRegistry.lineStarts, List.length_cons, length_line_starts, Nat.add_comm]
  have column : min offset f.length - (UnitRegistry.lineStarts (f.before offset)).getLastD 0 = f.distance offset := by
    have sum := f.distance_add_start offset
    omega
  simp only [location, scanned, count, column]

theorem column_value (f : SourceFile) (offset : Nat) :
    (f.location offset).column.toNat = if f.distance offset < maxOffset then f.distance offset + 1 else 0 := by
  have one : (1 : UInt32).toNat = 1 := rfl
  rw [location_eq, UInt32.toNat_add, clamp_offset_value, one, maxOffset]
  by_cases near : f.distance offset < 4294967295
  · rw [if_pos near]
    omega
  · rw [if_neg near]
    omega

theorem before_append (f : SourceFile) {a b : Nat} (le : a ≤ b) :
    f.before b = f.before a ++ (f.content.drop a).take (b - a) := by
  have sum : b = a + (b - a) := by omega
  rw [before, before]
  conv => lhs; rw [sum, List.take_add]

theorem count_before_le (f : SourceFile) (offset : Nat) : (f.before offset).count lineFeed ≤ f.length :=
  Nat.le_trans List.count_le_length (List.length_take_le' offset f.content)

theorem distance_on_line (f : SourceFile) {a b : Nat} (le : a ≤ b)
    (same : (f.before a).count lineFeed = (f.before b).count lineFeed) :
    f.distance b = f.distance a + (min b f.length - min a f.length) := by
  have parts := f.before_append le
  have noFeed : lineFeed ∉ (f.content.drop a).take (b - a) := by
    rw [← List.count_eq_zero]
    rw [parts, List.count_append] at same
    omega
  have long : ((f.content.drop a).take (b - a)).length = min b f.length - min a f.length := by
    rw [List.length_take, List.length_drop, length]
    omega
  rw [distance, parts, last_line_append, if_neg noFeed, List.length_append, long, distance]

theorem line_opening (f : SourceFile) (offset : Nat) :
    ∃ start, start + f.distance offset = min offset f.length ∧ f.distance start = 0 ∧
      (f.before start).count lineFeed = (f.before offset).count lineFeed := by
  obtain ⟨closed, split, ends, count⟩ := last_line_split (f.before offset)
  have cut : f.before closed.length = closed := by
    have whole : f.content = closed ++ (lastLine (f.before offset) ++ f.content.drop offset) := by
      rw [← List.append_assoc, ← split, before, List.take_append_drop]
    rw [before, whole, List.take_left]
  refine ⟨closed.length, ?_, by rw [distance, cut, ends]; rfl, by rw [cut, count]⟩
  have whole := congrArg List.length split
  rw [List.length_append, before, List.length_take] at whole
  exact whole.symm

theorem line_start (f : SourceFile) (offset : Nat) :
    f.lineStarts[(f.before offset).count lineFeed]? = some ((UnitRegistry.lineStarts (f.before offset)).getLastD 0) := by
  have place : (UnitRegistry.lineStarts (f.before offset)).length = (f.before offset).count lineFeed + 1 := by
    rw [UnitRegistry.lineStarts, List.length_cons, length_line_starts]
  have inside : (f.before offset).count lineFeed < (UnitRegistry.lineStarts (f.before offset)).length := by omega
  have early : UnitRegistry.lineStarts (f.before offset) <+: f.lineStarts := by
    rw [before, ← line_starts_scanned]
    exact List.takeWhile_prefix _
  obtain ⟨later, whole⟩ := early
  rw [← whole, List.getElem?_append_left inside, List.getLastD_eq_getLast?, List.getLast?_eq_getElem?, place,
    Nat.add_sub_cancel, List.getElem?_eq_getElem inside]
  rfl

section Fitting

variable {f : SourceFile}

theorem line_value (fits : f.length < maxOffset) (offset : Nat) :
    (f.location offset).line.toNat = 1 + (f.before offset).count lineFeed := by
  have few := f.count_before_le offset
  have small : 1 + (f.before offset).count lineFeed < 2 ^ 32 := by
    rw [maxOffset] at fits
    omega
  rw [location_eq]
  exact UInt32.toNat_ofNat_of_lt' small

theorem line_count_value (fits : f.length < maxOffset) : f.lineCount.toNat = 1 + f.content.count lineFeed := by
  have few : f.content.count lineFeed ≤ f.length := List.count_le_length
  have small : 1 + f.content.count lineFeed < 2 ^ 32 := by
    rw [maxOffset] at fits
    omega
  rw [lineCount, lineStarts, UnitRegistry.lineStarts, List.length_cons, length_line_starts, Nat.add_comm]
  exact UInt32.toNat_ofNat_of_lt' small

theorem fitting_column (fits : f.length < maxOffset) (offset : Nat) :
    (f.location offset).column.toNat = 1 + f.distance offset := by
  have le := f.distance_le offset
  rw [column_value, if_pos (by omega), Nat.add_comm]

theorem fitting_offset (fits : f.length < maxOffset) (offset : Nat) :
    (f.location offset).offset.toNat = min offset f.length := by
  rw [location_eq, clamp_offset_value]
  omega

theorem location_past (f : SourceFile) {offset : Nat} (past : f.length ≤ offset) :
    f.location offset = f.location f.length := by
  rw [location, location, Nat.min_eq_right past, Nat.min_self]

theorem location_increases (fits : f.length < maxOffset) {a b : Nat} (less : a < b) (inside : b ≤ f.length) :
    (f.location a).Precedes (f.location b) := by
  have parts := f.before_append (Nat.le_of_lt less)
  have counts := congrArg (List.count lineFeed) parts
  rw [List.count_append] at counts
  by_cases same : (f.before a).count lineFeed = (f.before b).count lineFeed
  · right
    have longer := f.distance_on_line (Nat.le_of_lt less) same
    refine ⟨UInt32.toNat_inj.mp ?_, UInt32.lt_iff_toNat_lt.mpr ?_⟩
    · rw [line_value fits, line_value fits, same]
    · rw [fitting_column fits, fitting_column fits]
      omega
  · left
    rw [UInt32.lt_iff_toNat_lt, line_value fits, line_value fits]
    omega

end Fitting

structure Locates (f : SourceFile) : Prop where
  file : ∀ offset, (f.location offset).file = f.name
  line : ∀ offset, (f.location offset).line.toNat = 1 + (f.before offset).count lineFeed
  column : ∀ offset, (f.location offset).column.toNat = 1 + (lastLine (f.before offset)).length
  offset : ∀ offset, (f.location offset).offset.toNat = min offset f.length
  found : ∀ offset, (f.location offset).line.toNat = firstPast (min offset f.length) f.lineStarts
  increasing : ∀ a b, a < b → b ≤ f.length → (f.location a).Precedes (f.location b)
  injective : ∀ a ≤ f.length, ∀ b ≤ f.length, (f.location a).line = (f.location b).line →
    (f.location a).column = (f.location b).column → a = b
  constant : ∀ offset, f.length ≤ offset → f.location offset = f.location f.length
  recovered : ∀ offset, ∃ start, f.lineStarts[(f.location offset).line.toNat - 1]? = some start ∧
    start + (f.location offset).column.toNat - 1 = min offset f.length ∧
    (f.location start).line = (f.location offset).line ∧ (f.location start).column = 1
  lineCount : f.lineCount.toNat = 1 + f.content.count lineFeed
  within : ∀ offset, (f.location offset).line ≤ f.lineCount

theorem location_counts {f : SourceFile} (fits : f.length < maxOffset) : f.Locates where
  file offset := by rw [location_eq]
  line := line_value fits
  column := fitting_column fits
  offset := fitting_offset fits
  found offset := by
    have ascending : f.lineStarts.Pairwise (· < ·) := line_starts_increase 0 f.content
    rw [first_past ascending, line_value fits, lineStarts, line_starts_scanned, UnitRegistry.lineStarts, List.length_cons,
      length_line_starts, before, length, ← List.take_eq_take_min, Nat.add_comm]
  increasing _ _ less inside := location_increases fits less inside
  injective a insideA b insideB sameLine sameColumn := by
    obtain less | same | more := Nat.lt_trichotomy a b
    · exact absurd ⟨sameLine, sameColumn⟩ (precedes_apart (location_increases fits less insideB))
    · exact same
    · exact absurd ⟨sameLine.symm, sameColumn.symm⟩ (precedes_apart (location_increases fits more insideA))
  constant _ past := f.location_past past
  recovered offset := by
    obtain ⟨start, sum, first, count⟩ := f.line_opening offset
    have last := f.distance_add_start offset
    have opening : (UnitRegistry.lineStarts (f.before offset)).getLastD 0 = start := by omega
    refine ⟨start, ?_, ?_, UInt32.toNat_inj.mp ?_, UInt32.toNat_inj.mp ?_⟩
    · rw [line_value fits, Nat.add_sub_cancel_left, line_start, opening]
    · rw [fitting_column fits]
      omega
    · rw [line_value fits, line_value fits, count]
    · rw [fitting_column fits, first]
      rfl
  lineCount := line_count_value fits
  within offset := by
    have fewer : (f.before offset).count lineFeed ≤ f.content.count lineFeed :=
      (List.take_sublist offset f.content).count_le _
    rw [UInt32.le_iff_toNat_le, line_value fits, line_count_value fits]
    omega

theorem small_file_located :
    let f : SourceFile := .ofText "object A \x7b\n  val x = 1\n\x7d\n" "A.scala"
    f.length < maxOffset ∧ f.Locates ∧ (f.location 13).line = 2 ∧ (f.location 13).column = 3 ∧
      f.location 10000 = ⟨"A.scala", 4, 1, 25⟩ ∧ f.lineCount = 4 := by
  intro f
  have fits : f.length < maxOffset := by decide
  exact ⟨fits, location_counts fits, by decide, by decide, by decide, by decide⟩

section Columns

variable (f : SourceFile)

theorem column_positive_iff (offset : Nat) : 1 ≤ (f.location offset).column ↔ f.distance offset < maxOffset := by
  have one : (1 : UInt32).toNat = 1 := rfl
  rw [UInt32.le_iff_toNat_le, column_value, one]
  split <;> omega

theorem column_pred (offset : Nat) : (f.location offset).column - 1 = clampOffset (f.distance offset) := by
  rw [location_eq]
  exact UInt32.add_sub_cancel _ _

theorem column_le_iff {a b : Nat} (le : a ≤ b) (same : (f.before a).count lineFeed = (f.before b).count lineFeed) :
    (f.location a).column ≤ (f.location b).column ↔ f.distance b < maxOffset ∨ maxOffset ≤ f.distance a := by
  have grown := f.distance_on_line le same
  rw [UInt32.le_iff_toNat_le, column_value, column_value]
  split <;> split <;> omega

end Columns

-- The column of an offset, however long its line: one more than the distance while 32 bits hold that, and zero from there
-- on. Columns keep the order of the offsets of a line up to there. Where one is taken off a column, the distance comes out,
-- saturated, in either case.
theorem column_of_distance (f : SourceFile) :
    (∀ offset, (f.location offset).column.toNat = if f.distance offset < maxOffset then f.distance offset + 1 else 0) ∧
    (∀ offset, 1 ≤ (f.location offset).column ↔ f.distance offset < maxOffset) ∧
    (∀ offset, (f.location offset).column - 1 = clampOffset (f.distance offset)) ∧
    ∀ a b, a ≤ b → (f.before a).count lineFeed = (f.before b).count lineFeed →
      ((f.location a).column ≤ (f.location b).column ↔ f.distance b < maxOffset ∨ maxOffset ≤ f.distance a) :=
  ⟨f.column_value, f.column_positive_iff, f.column_pred, fun _ _ le same => f.column_le_iff le same⟩

theorem columns_on_second_line :
    let f : SourceFile := .ofText "object A \x7b\n  val x = 1\n\x7d\n" "A.scala"
    (13 ≤ 19 ∧ (f.before 13).count lineFeed = (f.before 19).count lineFeed) ∧
      (f.location 13).column ≤ (f.location 19).column := by
  intro f
  have same : (f.before 13).count lineFeed = (f.before 19).count lineFeed := by decide
  exact ⟨⟨by decide, same⟩, (f.column_of_distance.2.2.2 13 19 (by decide) same).mpr (.inl (by decide))⟩

theorem location_without_feeds (name : Text) {n offset : Nat} (inside : offset ≤ n) :
    location ⟨name, List.replicate n 97, .disk⟩ offset = ⟨name, 1, clampOffset offset + 1, clampOffset offset⟩ := by
  have cut : before ⟨name, List.replicate n 97, .disk⟩ offset = List.replicate offset 97 := by
    rw [before, List.take_replicate, Nat.min_eq_left inside]
  have noFeed : lineFeed ∉ List.replicate offset (97 : UInt8) := by
    intro member
    exact absurd (List.eq_of_mem_replicate member) (by decide)
  have all : lastLine (List.replicate offset 97) = List.replicate offset 97 := by
    have behind := last_line_append [] (List.replicate offset 97)
    rwa [if_neg noFeed] at behind
  have long : min offset (length ⟨name, List.replicate n 97, .disk⟩) = offset := by
    rw [length, List.length_replicate, Nat.min_eq_left inside]
  rw [location_eq, distance, cut, all, List.length_replicate, List.count_eq_zero.mpr noFeed, long]
  rfl

theorem column_zero_of_long_line :
    let f : SourceFile := ⟨"A.scala", List.replicate 4294967295 97, .disk⟩
    (f.location 4294967294).column = 4294967295 ∧ (f.location 4294967295).column = 0 ∧
      (f.location 4294967294).line = (f.location 4294967295).line := by
  intro f
  have last : f.location 4294967294 = _ := location_without_feeds "A.scala" (by decide)
  have past : f.location 4294967295 = _ := location_without_feeds "A.scala" (by decide)
  rw [last, past]
  exact ⟨by decide, by decide, rfl⟩

end SourceFile

end UnitRegistry
