set_option autoImplicit false

namespace UnitRegistry.Assoc

variable {α β : Type} [DecidableEq α]

def erase (key : α) (entries : List (α × β)) : List (α × β) := entries.filter fun entry => entry.1 ≠ key

def put (key : α) (value : β) (entries : List (α × β)) : List (α × β) := (key, value) :: erase key entries

section Lookup

-- Texts compare by their bytes, so the comparison of a lookup may be another than the one that erases.
variable [BEq α] [LawfulBEq α]

theorem lookup_erase_self (key : α) (entries : List (α × β)) : (erase key entries).lookup key = none := by
  induction entries with
  | nil => rfl
  | cons entry tail ih =>
      rcases entry with ⟨first, value⟩
      by_cases same : first = key
      · simpa [erase, same] using ih
      · have unequal : (key == first) = false := beq_false_of_ne (Ne.symm same)
        simpa [erase, same, List.lookup_cons, unequal] using ih

theorem lookup_erase_of_ne (key other : α) (entries : List (α × β)) (different : other ≠ key) :
    (erase key entries).lookup other = entries.lookup other := by
  induction entries with
  | nil => rfl
  | cons entry tail ih =>
      rcases entry with ⟨first, value⟩
      have unfolded : (erase key tail).lookup other = tail.lookup other := ih
      by_cases same : first = key
      · have unequal : (other == first) = false := beq_false_of_ne (same ▸ different)
        simp only [erase, List.filter_cons, same, ne_eq, not_true_eq_false, decide_false, Bool.false_eq_true,
          if_false, List.lookup_cons] at unfolded ⊢
        rw [same] at unequal
        simpa [unequal] using unfolded
      · cases found : other == first <;> simp_all [erase, List.lookup_cons]

theorem lookup_put_self (key : α) (value : β) (entries : List (α × β)) :
    (put key value entries).lookup key = some value := by
  simp [put]

theorem lookup_put_of_ne (key other : α) (value : β) (entries : List (α × β)) (different : other ≠ key) :
    (put key value entries).lookup other = entries.lookup other := by
  have unequal : (other == key) = false := beq_false_of_ne different
  simp only [put, List.lookup_cons, unequal]
  exact lookup_erase_of_ne key other entries different

omit [DecidableEq α] in
theorem lookup_iff_mem (key : α) (value : β) (entries : List (α × β)) (nodup : (entries.map Prod.fst).Nodup) :
    entries.lookup key = some value ↔ (key, value) ∈ entries := by
  constructor
  · intro found
    obtain ⟨earlier, later, rfl, _⟩ := List.lookup_eq_some_iff.mp found
    exact List.mem_append_right _ List.mem_cons_self
  · intro member
    obtain ⟨earlier, later, rfl⟩ := List.append_of_mem member
    rw [List.map_append, List.map_cons] at nodup
    refine List.lookup_eq_some_iff.mpr ⟨earlier, later, rfl, fun entry before => ?_⟩
    have distinct := (List.nodup_append.mp nodup).2.2 entry.1 (List.mem_map_of_mem before) key List.mem_cons_self
    simpa [bne_iff_ne] using Ne.symm distinct

end Lookup

theorem keys_erase (key : α) (entries : List (α × β)) :
    (erase key entries).map Prod.fst = (entries.map Prod.fst).filter fun other => other ≠ key := by
  simp [erase, List.filter_map, Function.comp_def]

theorem keys_put_nodup (key : α) (value : β) (entries : List (α × β)) (nodup : (entries.map Prod.fst).Nodup) :
    ((put key value entries).map Prod.fst).Nodup := by
  rw [put, List.map_cons, keys_erase]
  exact List.nodup_cons.mpr ⟨by simp, nodup.filter _⟩

end UnitRegistry.Assoc
