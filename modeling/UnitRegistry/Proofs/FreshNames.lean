import Mathlib.Algebra.Ring.Nat
import Mathlib.Data.List.Induction
import Mathlib.Data.List.Nodup
import Mathlib.Data.List.Perm.Subperm
import UnitRegistry.FreshNames
/-!
The search for a fresh name. As many candidates in a row have different texts, so one more than there are issued names
cannot all be issued, and every number up to the counter of a stem is.
-/
set_option autoImplicit false

namespace UnitRegistry.FreshNames

theorem candidate_injective (stem : Text) {m n : UInt64} (same : candidate stem m = candidate stem n) : m = n :=
  UInt64.toNat_inj.mp (Text.of_nat_injective (List.append_cancel_left same))

def candidateAfter (stem : Text) (count : UInt64) (tried : Nat) : Text := candidate stem (count + UInt64.ofNat (tried + 1))

theorem count_succ (count : UInt64) (tried : Nat) :
    count + 1 + UInt64.ofNat (tried + 1) = count + UInt64.ofNat (tried + 1 + 1) := by
  rw [UInt64.add_assoc, UInt64.add_comm 1, UInt64.ofNat_add (tried + 1) 1]
  rfl

theorem candidate_after_succ (stem : Text) (count : UInt64) (tried : Nat) :
    candidateAfter stem (count + 1) tried = candidateAfter stem count (tried + 1) :=
  congrArg (candidate stem) (count_succ count tried)

theorem count_to_nat (count : UInt64) (tried : Nat) (small : count.toNat + tried + 1 < 2 ^ 64) :
    (count + UInt64.ofNat (tried + 1)).toNat = count.toNat + tried + 1 := by
  rw [UInt64.toNat_add, UInt64.toNat_ofNat']
  omega

theorem candidate_after_injective (stem : Text) (count : UInt64) {m n : Nat} (small : m < 2 ^ 64) (smaller : n < 2 ^ 64)
    (same : candidateAfter stem count m = candidateAfter stem count n) : m = n := by
  have sums := congrArg UInt64.toNat (candidate_injective stem same)
  simp only [UInt64.toNat_add, UInt64.toNat_ofNat'] at sums
  omega

theorem taken_le (issued : Std.TreeSet Text) (stem : Text) (count : UInt64) (tried : Nat) (small : tried ≤ 2 ^ 64)
    (taken : ∀ earlier < tried, candidateAfter stem count earlier ∈ issued) : tried ≤ issued.size := by
  have different : ((List.range tried).map (candidateAfter stem count)).Nodup := by
    refine List.Nodup.map_on ?_ List.nodup_range
    intro m first n second same
    rw [List.mem_range] at first second
    exact candidate_after_injective stem count (by omega) (by omega) same
  have among : (List.range tried).map (candidateAfter stem count) ⊆ issued.toList := by
    intro text member
    obtain ⟨earlier, less, rfl⟩ := List.mem_map.mp member
    exact Std.TreeSet.mem_toList.mpr (taken earlier (List.mem_range.mp less))
  have bound := (different.subperm among).length_le
  rwa [List.length_map, List.length_range, Std.TreeSet.length_toList] at bound

structure FreeAfter (issued : Std.TreeSet Text) (stem : Text) (count : UInt64) (tried : Nat) : Prop where
  taken : ∀ earlier < tried, candidateAfter stem count earlier ∈ issued
  free : candidateAfter stem count tried ∉ issued

theorem taken_or_free (issued : Std.TreeSet Text) (stem : Text) (count : UInt64) (bound : Nat) :
    (∀ earlier < bound, candidateAfter stem count earlier ∈ issued) ∨ ∃ tried < bound, FreeAfter issued stem count tried := by
  induction bound with
  | zero => exact .inl fun _ impossible => absurd impossible (Nat.not_lt_zero _)
  | succ bound ih =>
      rcases ih with taken | ⟨tried, less, free⟩
      · by_cases last : candidateAfter stem count bound ∈ issued
        · refine .inl fun earlier less => ?_
          rcases Nat.lt_succ_iff_lt_or_eq.mp less with before | rfl
          · exact taken earlier before
          · exact last
        · exact .inr ⟨bound, Nat.lt_succ_self bound, taken, last⟩
      · exact .inr ⟨tried, Nat.lt_succ_of_lt less, free⟩

-- Counts go round, so from any of them each number is reached.
theorem candidate_reached (stem : Text) (count number : UInt64) :
    candidateAfter stem count (number - count - 1).toNat = candidate stem number := by
  have sum : count + UInt64.ofNat ((number - count - 1).toNat + 1) = number := by
    rw [UInt64.ofNat_add, UInt64.ofNat_toNat]
    change count + (number - count - 1 + 1) = number
    rw [UInt64.sub_add_cancel, UInt64.add_comm, UInt64.sub_add_cancel]
  rw [candidateAfter, sum]

theorem free_of_few (issued : Std.TreeSet Text) (stem : Text) (count : UInt64) (few : issued.size < 2 ^ 64) :
    ∃ tried ≤ issued.size, FreeAfter issued stem count tried := by
  rcases taken_or_free issued stem count (issued.size + 1) with taken | ⟨tried, less, free⟩
  · have impossible := taken_le issued stem count (issued.size + 1) few taken
    omega
  · exact ⟨tried, Nat.le_of_lt_succ less, free⟩

theorem free_of_unused (issued : Std.TreeSet Text) (stem : Text) (count number : UInt64)
    (unused : candidate stem number ∉ issued) : ∃ tried ≤ issued.size, FreeAfter issued stem count tried := by
  by_cases few : issued.size < 2 ^ 64
  · exact free_of_few issued stem count few
  · rcases taken_or_free issued stem count (2 ^ 64) with taken | ⟨tried, less, free⟩
    · have used := taken (number - count - 1).toNat (UInt64.toNat_lt _)
      rw [candidate_reached] at used
      exact absurd used unused
    · exact ⟨tried, by omega, free⟩

theorem search_eq (issued : Std.TreeSet Text) (stem : Text) (count : UInt64) (tried tries : Nat) (granted : tried < tries)
    (free : FreeAfter issued stem count tried) :
    search issued stem tries count = count + UInt64.ofNat (tried + 1) := by
  induction tried generalizing count tries with
  | zero =>
      obtain ⟨tries, rfl⟩ := Nat.exists_eq_add_of_lt granted
      have unused : candidate stem (count + 1) ∉ issued := free.free
      rw [Nat.zero_add, search, if_neg unused]
      rfl
  | succ tried ih =>
      obtain ⟨tries, rfl⟩ := Nat.exists_eq_add_of_lt granted
      have used : candidate stem (count + 1) ∈ issued := free.taken 0 (Nat.succ_pos tried)
      have later : FreeAfter issued stem (count + 1) tried := by
        refine ⟨fun earlier less => ?_, ?_⟩
        · rw [candidate_after_succ]
          exact free.taken (earlier + 1) (Nat.succ_lt_succ less)
        · rw [candidate_after_succ]
          exact free.free
      rw [search, if_pos used, ih (count + 1) _ (by omega) later, count_succ]

structure Ends (f : FreshNames) (stem : Text) (tried : Nat) : Prop where
  within : tried ≤ f.issuedCount
  free : FreeAfter f.issued stem (f.counter stem) tried
  found : ∀ tries, tried < tries → search f.issued stem tries (f.counter stem) = f.next stem
  next : f.next stem = f.counter stem + UInt64.ofNat (tried + 1)

theorem ends_of_free (f : FreshNames) (stem : Text) (tried : Nat) (within : tried ≤ f.issuedCount)
    (free : FreeAfter f.issued stem (f.counter stem) tried) : f.Ends stem tried := by
  have next : f.next stem = f.counter stem + UInt64.ofNat (tried + 1) :=
    search_eq f.issued stem (f.counter stem) tried _ (Nat.lt_succ_of_le within) free
  refine ⟨within, free, fun tries granted => ?_, next⟩
  rw [next]
  exact search_eq f.issued stem (f.counter stem) tried tries granted free

theorem next_free (f : FreshNames) (stem : Text) (tried : Nat) (ends : f.Ends stem tried) :
    candidate stem (f.next stem) ∉ f.issued := by
  rw [ends.next]
  exact ends.free.free

-- Every number up to the counter of its stem is used up, by this stem or by another.
def Counted (f : FreshNames) : Prop :=
  ∀ stem number, 0 < number → number ≤ (f.counter stem).toNat → stem ++ Text.ofNat number ∈ f.issued

theorem numbers_le (issued : Std.TreeSet Text) (stem : Text) (bound : Nat) (small : bound < 2 ^ 64)
    (used : ∀ number, 0 < number → number ≤ bound → stem ++ Text.ofNat number ∈ issued) : bound ≤ issued.size := by
  refine taken_le issued stem 0 bound (by omega) fun earlier less => ?_
  have plain : (0 + UInt64.ofNat (earlier + 1)).toNat = earlier + 1 := by
    have whole := count_to_nat 0 earlier (by change 0 + earlier + 1 < _; omega)
    rw [whole]
    exact congrArg (· + 1) (Nat.zero_add earlier)
  rw [candidateAfter, candidate, plain]
  exact used (earlier + 1) (Nat.succ_pos earlier) less

theorem numbers_passed (f : FreshNames) (counted : f.Counted) (stem : Text) (tried passed : Nat) (some : passed ≤ tried)
    (small : (f.counter stem).toNat + passed < 2 ^ 64) (free : FreeAfter f.issued stem (f.counter stem) tried)
    (number : Nat) (positive : 0 < number) (bound : number ≤ (f.counter stem).toNat + passed) :
    stem ++ Text.ofNat number ∈ f.issued := by
  by_cases old : number ≤ (f.counter stem).toNat
  · exact counted stem number positive old
  · obtain ⟨earlier, rfl⟩ := Nat.exists_eq_add_of_lt (Nat.lt_of_not_le old)
    have taken := free.taken earlier (by omega)
    rwa [candidateAfter, candidate, count_to_nat _ _ (by omega)] at taken

theorem next_to_nat (f : FreshNames) (counted : f.Counted) (few : f.issuedCount < 2 ^ 64 - 1) (stem : Text) (tried : Nat)
    (ends : f.Ends stem tried) :
    (f.next stem).toNat = (f.counter stem).toNat + tried + 1 ∧ (f.next stem).toNat ≤ f.issuedCount + 1 := by
  have count := UInt64.toNat_lt (f.counter stem)
  have passed := numbers_le f.issued stem ((f.counter stem).toNat + min tried (2 ^ 64 - 1 - (f.counter stem).toNat)) (by omega)
    (numbers_passed f counted stem tried _ (Nat.min_le_left _ _) (by omega) ends.free)
  have bound : (f.counter stem).toNat + tried ≤ f.issuedCount := by
    rw [issuedCount] at few ⊢
    omega
  have sum := count_to_nat (f.counter stem) tried (by omega)
  rw [ends.next, sum]
  exact ⟨rfl, by omega⟩

theorem counter_put (f : FreshNames) (kind : NameKind) (stem other : Text) :
    (f.fresh kind stem).1.counter other = if other = stem then f.next stem else f.counter other := by
  change ((Assoc.put stem (f.next stem) f.counters).lookup other).getD 0 = _
  by_cases same : other = stem
  · subst other
    rw [if_pos rfl, Assoc.lookup_put_self]
    rfl
  · rw [if_neg same, Assoc.lookup_put_of_ne _ _ _ _ same]
    rfl

theorem mem_issued_fresh (f : FreshNames) (kind : NameKind) (stem text : Text) :
    text ∈ (f.fresh kind stem).1.issued ↔ (f.fresh kind stem).2.text = text ∨ text ∈ f.issued := by
  rw [fresh, Std.TreeSet.mem_insert, Std.LawfulEqCmp.compare_eq_iff_eq]

theorem issued_count_fresh (f : FreshNames) (kind : NameKind) (stem : Text) (tried : Nat) (ends : f.Ends stem tried) :
    (f.fresh kind stem).1.issuedCount = f.issuedCount + 1 := by
  have unused := next_free f stem tried ends
  simp [fresh, issuedCount, Std.TreeSet.size_insert, unused]

theorem counted_next (f : FreshNames) (counted : f.Counted) (stem : Text) (tried : Nat) (ends : f.Ends stem tried) (number : Nat)
    (positive : 0 < number) (bound : number ≤ (f.next stem).toNat) :
    candidate stem (f.next stem) = stem ++ Text.ofNat number ∨ stem ++ Text.ofNat number ∈ f.issued := by
  by_cases old : number ≤ (f.counter stem).toNat
  · exact .inr (counted stem number positive old)
  · have small := UInt64.toNat_lt (f.next stem)
    obtain ⟨passed, rfl⟩ := Nat.exists_eq_add_of_lt (Nat.lt_of_not_le old)
    have reached : candidateAfter stem (f.counter stem) passed = stem ++ Text.ofNat ((f.counter stem).toNat + passed + 1) := by
      rw [candidateAfter, candidate, count_to_nat _ _ (by omega)]
    rcases Nat.lt_trichotomy passed tried with before | rfl | after
    · exact .inr (reached ▸ ends.free.taken passed before)
    · exact .inl (by rw [ends.next]; exact reached)
    · have sum := count_to_nat (f.counter stem) tried (by omega)
      rw [ends.next, sum] at bound
      omega

theorem counted_fresh (f : FreshNames) (counted : f.Counted) (kind : NameKind) (stem : Text) (tried : Nat)
    (ends : f.Ends stem tried) : (f.fresh kind stem).1.Counted := by
  intro other number positive within
  rw [mem_issued_fresh]
  rw [counter_put] at within
  split at within
  · subst other
    exact counted_next f counted stem tried ends number positive within
  · exact .inr (counted other number positive within)

def freshAll : FreshNames → List (NameKind × Text) → FreshNames × List FreshName
  | f, [] => (f, [])
  | f, (kind, stem) :: rest =>
      let (f, name) := f.fresh kind stem
      let (f, names) := freshAll f rest
      (f, name :: names)

def after (calls : List (NameKind × Text)) : FreshNames := (freshAll {} calls).1

def Return (calls : List (NameKind × Text)) : Prop :=
  ∀ earlier kind stem later, calls = earlier ++ (kind, stem) :: later →
    ∃ number, candidate stem number ∉ (after earlier).issued

theorem fresh_all_append (f : FreshNames) (earlier later : List (NameKind × Text)) :
    freshAll f (earlier ++ later) =
      ((freshAll (freshAll f earlier).1 later).1, (freshAll f earlier).2 ++ (freshAll (freshAll f earlier).1 later).2) := by
  induction earlier generalizing f with
  | nil => rfl
  | cons call rest ih => simp only [List.cons_append, freshAll, ih]

theorem after_append (earlier : List (NameKind × Text)) (kind : NameKind) (stem : Text) :
    after (earlier ++ [(kind, stem)]) = ((after earlier).fresh kind stem).1 := by
  rw [after, fresh_all_append]
  rfl

theorem names_append (earlier : List (NameKind × Text)) (kind : NameKind) (stem : Text) :
    (freshAll {} (earlier ++ [(kind, stem)])).2 = (freshAll {} earlier).2 ++ [((after earlier).fresh kind stem).2] := by
  rw [fresh_all_append]
  rfl

theorem return_of_append (calls more : List (NameKind × Text)) (returns : Return (calls ++ more)) : Return calls := by
  rintro earlier kind stem later rfl
  exact returns earlier kind stem (later ++ more) (by simp)

structure Issues (calls : List (NameKind × Text)) : Prop where
  distinct : ((freshAll {} calls).2.map FreshName.text).Nodup
  issued : ∀ text, text ∈ (after calls).issued ↔ text ∈ (freshAll {} calls).2.map FreshName.text
  count : (after calls).issuedCount = calls.length

theorem ends_of_return (earlier later : List (NameKind × Text)) (kind : NameKind) (stem : Text)
    (returns : Return (earlier ++ (kind, stem) :: later)) : ∃ tried, (after earlier).Ends stem tried := by
  obtain ⟨number, unused⟩ := returns earlier kind stem later rfl
  obtain ⟨tried, within, free⟩ := free_of_unused _ stem ((after earlier).counter stem) number unused
  exact ⟨tried, ends_of_free (after earlier) stem tried within free⟩

theorem issues_of_return (calls : List (NameKind × Text)) (returns : Return calls) : Issues calls := by
  induction calls using List.reverseRecOn with
  | nil => exact ⟨List.nodup_nil, fun text => by simp [after, freshAll], rfl⟩
  | append_singleton earlier call ih =>
      obtain ⟨kind, stem⟩ := call
      obtain ⟨distinct, issued, count⟩ := ih (return_of_append earlier _ returns)
      obtain ⟨tried, ends⟩ := ends_of_return earlier [] kind stem returns
      refine ⟨?_, fun text => ?_, ?_⟩
      · have new : ((after earlier).fresh kind stem).2.text ∉ (freshAll {} earlier).2.map FreshName.text :=
          fun old => next_free _ stem tried ends ((issued _).mpr old)
        rw [names_append, List.map_append, List.nodup_append]
        refine ⟨distinct, List.nodup_singleton _, fun text old other last same => ?_⟩
        rw [same, List.mem_singleton.mp last] at old
        exact new old
      · rw [after_append, mem_issued_fresh, issued, names_append, List.map_append, List.mem_append]
        simp [or_comm, eq_comm]
      · rw [after_append, issued_count_fresh _ kind stem tried ends, count, List.length_append]
        rfl

theorem split_last {calls earlier later : List (NameKind × Text)} {last call : NameKind × Text}
    (split : calls ++ [last] = earlier ++ call :: later) :
    earlier = calls ∧ call = last ∨ ∃ rest, calls = earlier ++ call :: rest := by
  rcases List.eq_nil_or_concat later with rfl | ⟨rest, other, rfl⟩
  · obtain ⟨same, ends⟩ := List.append_inj' split rfl
    cases ends
    exact .inl ⟨same.symm, rfl⟩
  · rw [List.concat_eq_append, ← List.cons_append, ← List.append_assoc] at split
    exact .inr ⟨rest, (List.append_inj' split rfl).1⟩

theorem counted_after (calls : List (NameKind × Text)) (few : calls.length ≤ 2 ^ 64 - 1) :
    Return calls ∧ (after calls).Counted := by
  induction calls using List.reverseRecOn with
  | nil =>
      refine ⟨fun earlier kind stem later split => by simp at split, fun stem number positive bound => ?_⟩
      change number ≤ 0 at bound
      omega
  | append_singleton earlier call ih =>
      obtain ⟨kind, stem⟩ := call
      rw [List.length_append, List.length_singleton] at few
      obtain ⟨returns, counted⟩ := ih (by omega)
      have count := (issues_of_return earlier returns).count
      have room : (after earlier).issuedCount < 2 ^ 64 - 1 := by omega
      obtain ⟨tried, within, free⟩ := free_of_few (after earlier).issued stem ((after earlier).counter stem) (by
        rw [issuedCount] at room
        omega)
      refine ⟨fun first other name later split => ?_, ?_⟩
      · rcases split_last split with ⟨rfl, last⟩ | ⟨rest, before⟩
        · cases last
          exact ⟨_, free.free⟩
        · exact returns first other name rest before
      · rw [after_append]
        exact counted_fresh _ counted kind stem tried (ends_of_free _ stem tried within free)

theorem counter_le (f : FreshNames) (counted : f.Counted) (stem : Text) : (f.counter stem).toNat ≤ f.issuedCount :=
  numbers_le f.issued stem _ (UInt64.toNat_lt _) (counted stem)

-- A call that returns has tried one candidate more than those it passed over, and they are as many as there were names at
-- most. As long as there are fewer names than numbers, every call returns, and its counter grows without going round.
theorem fresh_names_distinct (calls : List (NameKind × Text)) :
    (calls.length ≤ 2 ^ 64 - 1 →
      Return calls ∧ ∀ stem, ((after calls).counter stem).toNat ≤ (after calls).issuedCount) ∧
    (Return calls →
      ((freshAll {} calls).2.map FreshName.text).Nodup ∧ (after calls).issuedCount = calls.length ∧
      ∀ earlier kind stem later, calls = earlier ++ (kind, stem) :: later → ∃ tried, (after earlier).Ends stem tried ∧
        (earlier.length < 2 ^ 64 - 1 →
          ((after earlier).next stem).toNat = ((after earlier).counter stem).toNat + tried + 1 ∧
          ((after earlier).next stem).toNat ≤ (after earlier).issuedCount + 1)) := by
  refine ⟨fun few => ?_, fun returns => ?_⟩
  · obtain ⟨returns, counted⟩ := counted_after calls few
    exact ⟨returns, counter_le (after calls) counted⟩
  · obtain ⟨distinct, _, count⟩ := issues_of_return calls returns
    refine ⟨distinct, count, ?_⟩
    rintro earlier kind stem later rfl
    obtain ⟨tried, ends⟩ := ends_of_return earlier later kind stem returns
    refine ⟨tried, ends, fun few => ?_⟩
    obtain ⟨before, counted⟩ := counted_after earlier (Nat.le_of_lt few)
    have issued := (issues_of_return earlier before).count
    exact next_to_nat (after earlier) counted (by omega) stem tried ends

-- The eleventh name for the stem `a` would be the first one for the stem `a1`.
def collidingCalls : List (NameKind × Text) := (.term, "a1") :: List.replicate 11 (.type, "a")

theorem colliding_names_distinct :
    collidingCalls.length ≤ 2 ^ 64 - 1 ∧ ((freshAll {} collidingCalls).2.map FreshName.text).Nodup ∧
      (after collidingCalls).issuedCount = 12 := by
  have few : collidingCalls.length ≤ 2 ^ 64 - 1 := by decide
  have returns := ((fresh_names_distinct collidingCalls).1 few).1
  obtain ⟨distinct, count, _⟩ := (fresh_names_distinct collidingCalls).2 returns
  exact ⟨few, distinct, count⟩

example : (freshAll {} collidingCalls).2.getLast? = some ⟨"a12", .type⟩ := by decide +kernel

end UnitRegistry.FreshNames
