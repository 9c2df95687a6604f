import UnitRegistry.Proofs.TextLines
import UnitRegistry.Source.File

set_option autoImplicit false

namespace UnitRegistry

open Text

section Index

theorem length_line_starts (base : Nat) (t : Text) : (lineStartsFrom base t).length = t.count lineFeed := by
  induction t generalizing base with
  | nil => rfl
  | cons byte rest ih =>
      by_cases feed : byte = lineFeed
      · rw [lineStartsFrom, if_pos feed, List.length_cons, ih, feed, List.count_cons_self]
      · rw [lineStartsFrom, if_neg feed, ih, List.count_cons_of_ne feed]

theorem line_starts_append (base : Nat) (t u : Text) :
    lineStartsFrom base (t ++ u) = lineStartsFrom base t ++ lineStartsFrom (base + t.length) u := by
  induction t generalizing base with
  | nil => rfl
  | cons byte rest ih =>
      have next : base + (byte :: rest).length = base + 1 + rest.length := by
        rw [List.length_cons]
        omega
      rw [List.cons_append, lineStartsFrom, lineStartsFrom, ih, next]
      split <;> rfl

theorem base_lt_start {base start : Nat} {t : Text} (member : start ∈ lineStartsFrom base t) : base < start := by
  induction t generalizing base with
  | nil => cases member
  | cons byte rest ih =>
      rw [lineStartsFrom] at member
      split at member
      · obtain rfl | later := List.mem_cons.mp member
        · exact Nat.lt_succ_self base
        · exact Nat.lt_of_succ_lt (ih later)
      · exact Nat.lt_of_succ_lt (ih member)

theorem line_starts_increase (base : Nat) (t : Text) : (base :: lineStartsFrom base t).Pairwise (· < ·) := by
  induction t generalizing base with
  | nil => exact List.pairwise_singleton _ _
  | cons byte rest ih =>
      refine List.pairwise_cons.mpr ⟨fun start member => base_lt_start member, ?_⟩
      rw [lineStartsFrom]
      split
      · exact ih (base + 1)
      · exact (List.pairwise_cons.mp (ih (base + 1))).2

theorem line_starts_until (base n : Nat) (t : Text) :
    (lineStartsFrom base t).takeWhile (· ≤ base + n) = lineStartsFrom base (t.take n) := by
  induction t generalizing base n with
  | nil => rw [List.take_nil]; rfl
  | cons byte rest ih =>
      cases n with
      | zero =>
          have past : ∀ start ∈ lineStartsFrom base (byte :: rest), ¬ start ≤ base + 0 :=
            fun start member => Nat.not_le.mpr (base_lt_start member)
          cases found : lineStartsFrom base (byte :: rest) with
          | nil => rfl
          | cons start starts =>
              rw [found] at past
              exact List.takeWhile_cons_of_neg (by simpa using past start List.mem_cons_self)
      | succ n =>
          have next : base + (n + 1) = base + 1 + n := by omega
          rw [List.take_succ_cons, lineStartsFrom, lineStartsFrom, next]
          split
          · rw [List.takeWhile_cons_of_pos (by simp), ih]
          · exact ih (base + 1) n

theorem last_start (base : Nat) (t : Text) :
    (base :: lineStartsFrom base t).getLastD 0 + (lastLine t).length = base + t.length := by
  induction t using List.reverseRecOn with
  | nil => rfl
  | append_singleton t byte ih =>
      rw [line_starts_append, last_line_append]
      by_cases feed : byte = lineFeed
      · have starts : lineStartsFrom (base + t.length) [byte] = [base + t.length + 1] := by
          rw [lineStartsFrom, if_pos feed]
          rfl
        have none : lastLine [byte] = [] := List.rtakeWhile_concat_neg _ [] byte (by simp [feed])
        rw [starts, if_pos (by simp [feed]), none, ← List.cons_append, List.getLastD_concat, List.length_append]
        rfl
      · have starts : lineStartsFrom (base + t.length) [byte] = [] := by
          rw [lineStartsFrom, if_neg feed]
          rfl
        rw [starts, List.append_nil, if_neg (by simp [Ne.symm feed]), List.length_append, List.length_append, ← Nat.add_assoc, ih,
          Nat.add_assoc]

theorem line_starts_scanned (n : Nat) (t : Text) : (lineStarts t).takeWhile (· ≤ n) = lineStarts (t.take n) := by
  have rest := line_starts_until 0 n t
  rw [Nat.zero_add] at rest
  rw [lineStarts, lineStarts, List.takeWhile_cons_of_pos (by simp), rest]

end Index

section Halving

variable {bound : Nat} {entries : List Nat}

def firstPastFrom (bound : Nat) (entries : List Nat) (low count : Nat) : Nat :=
  if count = 0 then low
  else
    let half := count / 2
    if entries.getD (low + half) 0 ≤ bound then firstPastFrom bound entries (low + half + 1) (count - half - 1)
    else firstPastFrom bound entries low half
termination_by count

def firstPast (bound : Nat) (entries : List Nat) : Nat := firstPastFrom bound entries 0 entries.length

theorem entry_le_iff (ascending : entries.Pairwise (· < ·)) {place : Nat} (inside : place < entries.length) :
    entries.getD place 0 ≤ bound ↔ place < (entries.takeWhile (· ≤ bound)).length := by
  induction entries generalizing place with
  | nil => cases inside
  | cons first rest ih =>
      obtain ⟨above, ascending⟩ := List.pairwise_cons.mp ascending
      by_cases reached : first ≤ bound
      · rw [List.takeWhile_cons_of_pos (by simpa using reached)]
        cases place with
        | zero => simpa using reached
        | succ place => simpa using ih ascending (Nat.lt_of_succ_lt_succ inside)
      · rw [List.takeWhile_cons_of_neg (by simpa using reached)]
        cases place with
        | zero => simpa using reached
        | succ place =>
            have later : place < rest.length := Nat.lt_of_succ_lt_succ inside
            have past := above rest[place] (List.getElem_mem later)
            have entry : (first :: rest).getD (place + 1) 0 = rest[place] := by simp [later]
            rw [entry, List.length_nil]
            omega

-- The place that is searched stays between the two ends.
theorem first_past_from (ascending : entries.Pairwise (· < ·)) (low count : Nat) (inside : low + count ≤ entries.length)
    (reached : low ≤ (entries.takeWhile (· ≤ bound)).length)
    (within : (entries.takeWhile (· ≤ bound)).length ≤ low + count) :
    firstPastFrom bound entries low count = (entries.takeWhile (· ≤ bound)).length := by
  induction low, count using firstPastFrom.induct bound entries with
  | case1 low =>
      rw [firstPastFrom, if_pos rfl]
      omega
  | case2 low count more half entry ih =>
      have middle := (entry_le_iff ascending (by omega)).mp entry
      rw [firstPastFrom, if_neg more]
      refine (if_pos entry).trans ?_
      exact ih (by omega) (by omega) (by omega)
  | case3 low count more half entry ih =>
      have middle := mt (entry_le_iff ascending (by omega)).mpr entry
      rw [firstPastFrom, if_neg more]
      refine (if_neg entry).trans ?_
      exact ih (by omega) reached (by omega)

theorem first_past (ascending : entries.Pairwise (· < ·)) :
    firstPast bound entries = (entries.takeWhile (· ≤ bound)).length :=
  first_past_from ascending 0 entries.length (by omega) (Nat.zero_le _)
    (by simpa using (List.takeWhile_prefix (fun entry => entry ≤ bound)).length_le)

end Halving

end UnitRegistry
