import Mathlib.Data.List.Induction
import Mathlib.Order.Bounds.Basic
import UnitRegistry.Proofs.FreshNames

set_option autoImplicit false

namespace UnitRegistry.FreshNames

def unusedNumbers (names : List Text) (stem : Text) : Set Nat := {number | 0 < number ∧ stem ++ Text.ofNat number ∉ names}

def forgetful (f : FreshNames) : FreshNames := { f with counters := [] }

def plainAll : FreshNames → List (NameKind × Text) → FreshNames × List FreshName
  | f, [] => (f, [])
  | f, (kind, stem) :: rest =>
      let (f, name) := f.forgetful.fresh kind stem
      let (f, names) := plainAll f rest
      (f, name :: names)

theorem candidate_from_one (stem : Text) (tried : Nat) (small : tried + 1 < 2 ^ 64) :
    candidateAfter stem 0 tried = stem ++ Text.ofNat (tried + 1) := by
  have plain : (0 + UInt64.ofNat (tried + 1)).toNat = tried + 1 := by
    rw [UInt64.zero_add, UInt64.toNat_ofNat', Nat.mod_eq_of_lt small]
  rw [candidateAfter, candidate, plain]

theorem free_unique {issued : Std.TreeSet Text} {stem : Text} {count : UInt64} {m n : Nat}
    (first : FreeAfter issued stem count m) (second : FreeAfter issued stem count n) : m = n := by
  rcases Nat.lt_trichotomy m n with less | same | greater
  · exact absurd (second.taken m less) first.free
  · exact same
  · exact absurd (first.taken n greater) second.free

theorem least_iff_free (names : List Text) (issued : Std.TreeSet Text) (known : ∀ text, text ∈ issued ↔ text ∈ names)
    (stem : Text) (tried : Nat) (small : tried + 1 < 2 ^ 64) :
    IsLeast (unusedNumbers names stem) (tried + 1) ↔ FreeAfter issued stem 0 tried := by
  constructor
  · rintro ⟨⟨_, unused⟩, least⟩
    refine ⟨fun earlier less => ?_, ?_⟩
    · rw [candidate_from_one stem earlier (by omega), known]
      refine Decidable.of_not_not fun absent => ?_
      have bound : tried + 1 ≤ earlier + 1 := least ⟨Nat.succ_pos earlier, absent⟩
      omega
    · rwa [candidate_from_one stem tried small, known]
  · rintro ⟨taken, free⟩
    rw [candidate_from_one stem tried small, known] at free
    refine ⟨⟨Nat.succ_pos tried, free⟩, ?_⟩
    rintro number ⟨positive, unused⟩
    obtain ⟨earlier, rfl⟩ := Nat.exists_eq_succ_of_ne_zero (Nat.ne_of_gt positive)
    refine Nat.le_of_not_lt fun less => unused ?_
    have used := taken earlier (Nat.lt_of_succ_lt_succ less)
    rwa [candidate_from_one stem earlier (by omega), known] at used

theorem count_from_one (count : UInt64) (passed : Nat) :
    0 + UInt64.ofNat (count.toNat + passed + 1) = count + UInt64.ofNat (passed + 1) := by
  rw [Nat.add_assoc, UInt64.ofNat_add, UInt64.ofNat_toNat, UInt64.zero_add]

-- What a counter passes over is used up, so a search from 1 on passes over it too.
theorem free_from_one (f : FreshNames) (counted : f.Counted) (stem : Text) (tried : Nat)
    (free : FreeAfter f.issued stem (f.counter stem) tried) :
    FreeAfter f.issued stem 0 ((f.counter stem).toNat + tried) := by
  have count := UInt64.toNat_lt (f.counter stem)
  have shifted (passed : Nat) :
      candidateAfter stem 0 ((f.counter stem).toNat + passed) = candidateAfter stem (f.counter stem) passed :=
    congrArg (candidate stem) (count_from_one (f.counter stem) passed)
  refine ⟨fun earlier less => ?_, ?_⟩
  · by_cases old : earlier < (f.counter stem).toNat
    · rw [candidate_from_one stem earlier (by omega)]
      exact counted stem (earlier + 1) (Nat.succ_pos earlier) old
    · obtain ⟨passed, rfl⟩ := Nat.exists_eq_add_of_le (Nat.le_of_not_lt old)
      rw [shifted]
      exact free.taken passed (by omega)
  · rw [shifted]
    exact free.free

theorem search_from_one (f : FreshNames) (counted : f.Counted) (stem : Text) (tried : Nat) (ends : f.Ends stem tried) :
    search f.issued stem (f.issued.size + 1) 0 = f.next stem := by
  obtain ⟨passed, within, free⟩ := free_of_unused f.issued stem 0 (f.next stem) (next_free f stem tried ends)
  have same : passed = (f.counter stem).toNat + tried := free_unique free (free_from_one f counted stem tried ends.free)
  rw [search_eq f.issued stem 0 passed _ (Nat.lt_succ_of_le within) free, ends.next, same]
  exact count_from_one (f.counter stem) tried

theorem counted_of_return (calls : List (NameKind × Text)) (returns : Return calls) : (after calls).Counted := by
  induction calls using List.reverseRecOn with
  | nil =>
      intro stem number positive bound
      change number ≤ 0 at bound
      omega
  | append_singleton earlier call ih =>
      obtain ⟨kind, stem⟩ := call
      obtain ⟨tried, ends⟩ := ends_of_return earlier [] kind stem returns
      rw [after_append]
      exact counted_fresh _ (ih (return_of_append earlier _ returns)) kind stem tried ends

theorem forgetful_fresh (f : FreshNames) (counted : f.Counted) (kind : NameKind) (stem : Text) (tried : Nat)
    (ends : f.Ends stem tried) :
    (f.forgetful.fresh kind stem).2 = (f.fresh kind stem).2 ∧
      (f.forgetful.fresh kind stem).1.forgetful = (f.fresh kind stem).1.forgetful := by
  have same : f.forgetful.next stem = f.next stem := search_from_one f counted stem tried ends
  rw [fresh, fresh, same]
  exact ⟨rfl, rfl⟩

theorem plain_all_forgetful (f : FreshNames) (calls : List (NameKind × Text)) :
    (plainAll f.forgetful calls).2 = (plainAll f calls).2 := by
  cases calls with
  | nil => rfl
  | cons call rest => rfl

theorem plain_all_eq (earlier later : List (NameKind × Text)) (returns : Return (earlier ++ later)) :
    (plainAll (after earlier) later).2 = (freshAll (after earlier) later).2 := by
  induction later generalizing earlier with
  | nil => rfl
  | cons call rest ih =>
      obtain ⟨kind, stem⟩ := call
      obtain ⟨tried, ends⟩ := ends_of_return earlier rest kind stem returns
      have counted := counted_of_return earlier (return_of_append earlier _ returns)
      obtain ⟨name, issued⟩ := forgetful_fresh (after earlier) counted kind stem tried ends
      have next := ih (earlier ++ [(kind, stem)]) (by simpa using returns)
      rw [after_append] at next
      simp only [plainAll, freshAll]
      rw [← next, name, ← plain_all_forgetful, issued, plain_all_forgetful]

theorem least_name_issued (calls : List (NameKind × Text)) :
    (calls.length ≤ 2 ^ 64 - 1 → Return calls) ∧
    (Return calls →
      (freshAll {} calls).2 = (plainAll {} calls).2 ∧
      ∀ kind stem, let unused := unusedNumbers ((freshAll {} calls).2.map FreshName.text) stem
        (∀ number < 2 ^ 64, IsLeast unused number →
          ((after calls).fresh kind stem).2 = ⟨stem ++ Text.ofNat number, kind⟩) ∧
        (calls.length < 2 ^ 64 - 1 → ∃ number ≤ calls.length + 1, IsLeast unused number)) := by
  refine ⟨fun few => (counted_after calls few).1, fun returns => ?_⟩
  have counted := counted_of_return calls returns
  obtain ⟨_, known, count⟩ := issues_of_return calls returns
  refine ⟨(plain_all_eq [] calls returns).symm, fun kind stem => ⟨fun number small least => ?_, fun few => ?_⟩⟩
  · obtain ⟨tried, rfl⟩ := Nat.exists_eq_succ_of_ne_zero (Nat.ne_of_gt least.1.1)
    have free := (least_iff_free _ _ known stem tried small).mp least
    have unused : candidate stem (0 + UInt64.ofNat (tried + 1)) ∉ (after calls).issued := free.free
    obtain ⟨passed, within, found⟩ := free_of_unused _ stem ((after calls).counter stem) _ unused
    have same : tried = ((after calls).counter stem).toNat + passed :=
      free_unique free (free_from_one _ counted stem passed found)
    have next : (after calls).next stem = 0 + UInt64.ofNat (tried + 1) := by
      rw [(ends_of_free _ stem passed within found).next, same]
      exact (count_from_one _ passed).symm
    have text : candidate stem ((after calls).next stem) = stem ++ Text.ofNat (tried + 1) := by
      rw [next]
      exact candidate_from_one stem tried small
    exact congrArg (FreshName.mk · kind) text
  · rw [issuedCount] at count
    obtain ⟨tried, within, free⟩ := free_of_few (after calls).issued stem 0 (by omega)
    exact ⟨tried + 1, by omega, (least_iff_free _ _ known stem tried (by omega)).mpr free⟩

def tenNames : List (NameKind × Text) := (.term, "a1") :: List.replicate 10 (.type, "a")

theorem eleventh_number_passed :
    tenNames.length ≤ 2 ^ 64 - 1 ∧ ((after tenNames).fresh .type "a").2 = ⟨"a12", .type⟩ := by
  have few : tenNames.length ≤ 2 ^ 64 - 1 := by decide
  obtain ⟨_, names⟩ := (least_name_issued tenNames).2 ((least_name_issued tenNames).1 few)
  have least : IsLeast (unusedNumbers ((freshAll {} tenNames).2.map FreshName.text) "a") 12 := by
    have used : ∀ number < 12, 0 < number →
        ("a" : Text) ++ Text.ofNat number ∈ (freshAll {} tenNames).2.map FreshName.text := by decide +kernel
    refine ⟨⟨by decide, by decide +kernel⟩, ?_⟩
    rintro number ⟨positive, unused⟩
    exact Nat.le_of_not_lt fun less => unused (used number less positive)
  exact ⟨few, (names .type "a").1 12 (by decide) least⟩

end UnitRegistry.FreshNames
