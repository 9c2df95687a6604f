import Mathlib.Algebra.Ring.Nat
import Mathlib.Data.List.DropRight
import UnitRegistry.Text

set_option autoImplicit false

namespace UnitRegistry.Text

def lastLine (t : Text) : Text := t.rtakeWhile fun byte => byte ≠ lineFeed

theorem last_line_append (t u : Text) :
    lastLine (t ++ u) = if lineFeed ∈ u then lastLine u else lastLine t ++ u := by
  induction u using List.reverseRecOn with
  | nil => simp
  | append_singleton u byte ih =>
      rw [← List.append_assoc]
      by_cases feed : byte = lineFeed
      · have none (v : Text) : lastLine (v ++ [byte]) = [] := List.rtakeWhile_concat_neg _ _ _ (by simp [feed])
        rw [none, none, if_pos (by simp [feed])]
      · have more (v : Text) : lastLine (v ++ [byte]) = lastLine v ++ [byte] :=
          List.rtakeWhile_concat_pos _ _ _ (by simp [feed])
        rw [more, more, ih]
        have same : lineFeed ∈ u ++ [byte] ↔ lineFeed ∈ u := by simp [Ne.symm feed]
        simp only [same]
        split
        · rfl
        · rw [List.append_assoc]

theorem no_feed_in_last_line (t : Text) : lineFeed ∉ lastLine t := by
  intro member
  simpa using List.mem_rtakeWhile_imp member

theorem last_line_split (t : Text) :
    ∃ closed, t = closed ++ lastLine t ∧ lastLine closed = [] ∧ closed.count lineFeed = t.count lineFeed := by
  have split : t.rdropWhile (· ≠ lineFeed) ++ lastLine t = t := List.rdropWhile_append_rtakeWhile
  refine ⟨t.rdropWhile (· ≠ lineFeed), split.symm, List.rtakeWhile_eq_nil_iff.mpr (List.rdropWhile_last_not _ t), ?_⟩
  conv => rhs; rw [← split]
  rw [List.count_append, List.count_eq_zero.mpr (no_feed_in_last_line t), Nat.add_zero]

theorem feed_before_nothing {t : Text} (ends : lastLine t = []) : t = [] ∨ ∃ earlier, t = earlier ++ [lineFeed] := by
  obtain rfl | ⟨earlier, byte, rfl⟩ := List.eq_nil_or_concat t
  · exact .inl rfl
  · have feed := List.rtakeWhile_eq_nil_iff.mp ends (by simp)
    simp only [List.concat_eq_append, List.getLast_append_singleton, decide_eq_true_eq, not_not] at feed
    exact .inr ⟨earlier, by rw [List.concat_eq_append, feed]⟩

def pieces (t : Text) : List Text := t.splitOn lineFeed

theorem pieces_feed (rest : Text) : pieces (lineFeed :: rest) = [] :: pieces rest := by
  rw [pieces, List.splitOn_cons_eq_if_modifyHead, if_pos (beq_self_eq_true lineFeed), pieces]

theorem pieces_other {byte : UInt8} (other : byte ≠ lineFeed) (rest : Text) :
    pieces (byte :: rest) = (pieces rest).modifyHead (byte :: ·) := by
  rw [pieces, List.splitOn_cons_eq_if_modifyHead, if_neg (by simpa using other), pieces]

theorem pieces_ne_nil (t : Text) : pieces t ≠ [] := List.splitOn_ne_nil lineFeed t

theorem pieces_append (t u : Text) : pieces (t ++ lineFeed :: u) = pieces t ++ pieces u :=
  List.splitOn_append_cons_self t u

theorem length_pieces (t : Text) : (pieces t).length = t.count lineFeed + 1 := by
  induction t with
  | nil => rfl
  | cons byte rest ih =>
      by_cases feed : byte = lineFeed
      · rw [feed, pieces_feed, List.length_cons, ih, List.count_cons_self]
      · rw [pieces_other feed, List.length_modifyHead, ih, List.count_cons_of_ne feed]

theorem separator_not_in_piece {separator : UInt8} {t piece : Text} (member : piece ∈ t.splitOn separator) :
    separator ∉ piece := by
  induction t generalizing piece with
  | nil =>
      rw [List.mem_singleton.mp member]
      exact List.not_mem_nil
  | cons byte rest ih =>
      rw [List.splitOn_cons_eq_if_modifyHead] at member
      by_cases same : byte = separator
      · rw [if_pos (by simpa using same)] at member
        obtain rfl | later := List.mem_cons.mp member
        · exact List.not_mem_nil
        · exact ih later
      · obtain ⟨first, others, found⟩ := List.exists_cons_of_ne_nil (List.splitOn_ne_nil separator rest)
        rw [if_neg (by simpa using same), found, List.modifyHead_cons] at member
        rw [found] at ih
        obtain rfl | later := List.mem_cons.mp member
        · exact List.not_mem_cons_of_ne_of_not_mem (Ne.symm same) (ih List.mem_cons_self)
        · exact ih (List.mem_cons_of_mem first later)

theorem no_feed_in_piece {t piece : Text} (member : piece ∈ pieces t) : lineFeed ∉ piece := separator_not_in_piece member

theorem no_feed_at (t : Text) (place : Nat) : lineFeed ∉ (pieces t).getD place [] := by
  by_cases inside : place < (pieces t).length
  · have entry : (pieces t).getD place [] = (pieces t)[place] := by simp [inside]
    rw [entry]
    exact no_feed_in_piece (List.getElem_mem inside)
  · have past : (pieces t).getD place [] = [] := by simp [Nat.le_of_not_lt inside]
    rw [past]
    exact List.not_mem_nil

theorem last_piece (t : Text) : (pieces t).getLast? = some (lastLine t) := by
  obtain ⟨closed, split, ends, -⟩ := last_line_split t
  have single : pieces (lastLine t) = [lastLine t] := List.splitOn_eq_singleton (no_feed_in_last_line t)
  obtain rfl | ⟨earlier, rfl⟩ := feed_before_nothing ends
  · rw [List.nil_append] at split
    conv => lhs; rw [split, single]
    rfl
  · have whole : t = earlier ++ lineFeed :: lastLine t := by rwa [List.append_assoc] at split
    conv => lhs; rw [whole, pieces_append, single]
    exact List.getLast?_concat

def closedLines (t : Text) : List Text := (pieces t).dropLast

theorem closed_lines_flat (texts : List Text) :
    closedLines (texts.flatMap (· ++ [lineFeed])) = texts.flatMap pieces := by
  induction texts with
  | nil => rfl
  | cons t rest ih =>
      have joined : (t :: rest).flatMap (· ++ [lineFeed]) = t ++ lineFeed :: rest.flatMap (· ++ [lineFeed]) := by
        rw [List.flatMap_cons, List.append_assoc]
        rfl
      rw [joined, closedLines, pieces_append, List.dropLast_append_of_ne_nil (pieces_ne_nil _), ← closedLines, ih,
        List.flatMap_cons]

theorem length_closed_lines (texts : List Text) :
    (closedLines (texts.flatMap (· ++ [lineFeed]))).length = texts.length + (texts.map (·.count lineFeed)).sum := by
  rw [closed_lines_flat]
  induction texts with
  | nil => rfl
  | cons t rest ih =>
      rw [List.flatMap_cons, List.length_append, ih, length_pieces, List.length_cons, List.map_cons, List.sum_cons]
      omega

theorem closed_lines_iff (texts : List Text) :
    closedLines (texts.flatMap (· ++ [lineFeed])) = texts ↔ ∀ t ∈ texts, lineFeed ∉ t := by
  constructor
  · intro same t member
    rw [← same] at member
    exact no_feed_in_piece ((List.dropLast_sublist _).subset member)
  · intro free
    have single : ∀ t ∈ texts, pieces t = [t] := fun t member => List.splitOn_eq_singleton (free t member)
    rw [closed_lines_flat, List.flatMap_congr single, List.flatMap_singleton']

end UnitRegistry.Text
