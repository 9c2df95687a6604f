/-!
A store hands out the numbers 0, 1, … for the values put into it. Reading a number that was never handed out
gives the default value, and writing to one changes nothing.
-/
set_option autoImplicit false

namespace UnitRegistry

structure Store (α : Type) where
  items : Array α := #[]

namespace Store

variable {α : Type}

instance : Inhabited (Store α) := ⟨{}⟩

def size (s : Store α) : Nat := s.items.size

def get [Inhabited α] (s : Store α) (ref : Nat) : α := s.items.getD ref default

def push (s : Store α) (value : α) : Store α := ⟨s.items.push value⟩

def modify (s : Store α) (ref : Nat) (f : α → α) : Store α := ⟨s.items.modify ref f⟩

def set (s : Store α) (ref : Nat) (value : α) : Store α := s.modify ref fun _ => value

@[simp] theorem size_push (s : Store α) (value : α) : (s.push value).size = s.size + 1 := by
  simp [push, size]

@[simp] theorem size_modify (s : Store α) (ref : Nat) (f : α → α) : (s.modify ref f).size = s.size := by
  simp [modify, size]

@[simp] theorem get_push_self [Inhabited α] (s : Store α) (value : α) : (s.push value).get s.size = value := by
  simp [push, get, size, Array.getD_eq_getD_getElem?]

theorem get_push_of_ne [Inhabited α] (s : Store α) (value : α) (ref : Nat) (other : ref ≠ s.size) :
    (s.push value).get ref = s.get ref := by
  simp only [push, get, Array.getD_eq_getD_getElem?, Array.getElem?_push]
  rw [if_neg (by simpa [size] using other)]

theorem get_modify [Inhabited α] (s : Store α) (ref other : Nat) (f : α → α) (present : ref < s.size) :
    (s.modify ref f).get other = if ref = other then f (s.get other) else s.get other := by
  simp only [modify, get, Array.getD_eq_getD_getElem?, Array.getElem?_modify]
  split
  · subst other
    have found : s.items[ref]? = some s.items[ref] := Array.getElem?_eq_getElem present
    simp [found]
  · rfl

theorem get_modify_of_ne [Inhabited α] (s : Store α) (ref other : Nat) (f : α → α) (different : ref ≠ other) :
    (s.modify ref f).get other = s.get other := by
  simp [modify, get, Array.getD_eq_getD_getElem?, Array.getElem?_modify, different]

theorem get_of_size_le [Inhabited α] (s : Store α) (ref : Nat) (absent : s.size ≤ ref) : s.get ref = default := by
  simp [get, Array.getD_eq_getD_getElem?, Array.getElem?_eq_none_iff.mpr absent]

theorem modify_of_size_le (s : Store α) (ref : Nat) (f : α → α) (absent : s.size ≤ ref) : s.modify ref f = s := by
  have bound : ¬ ref < s.items.size := Nat.not_lt.mpr absent
  simp [modify, Array.modify, Array.modifyM, bound]

theorem get_modify_cases [Inhabited α] (s : Store α) (ref other : Nat) (f : α → α) :
    (s.modify ref f).get other = if ref = other ∧ ref < s.size then f (s.get other) else s.get other := by
  by_cases present : ref < s.size
  · simp [get_modify s ref other f present, present]
  · rw [modify_of_size_le s ref f (Nat.le_of_not_lt present), if_neg (by simp [present])]

theorem modify_congr [Inhabited α] (s : Store α) (ref : Nat) {f g : α → α} (same : f (s.get ref) = g (s.get ref)) :
    s.modify ref f = s.modify ref g := by
  refine congrArg Store.mk (Array.ext_getElem? fun other => ?_)
  rw [Array.getElem?_modify, Array.getElem?_modify]
  by_cases here : ref = other
  · subst here
    rw [if_pos rfl, if_pos rfl]
    cases found : s.items[ref]? with
    | none => rfl
    | some value =>
        have got : s.get ref = value := by rw [get, Array.getD_eq_getD_getElem?, found, Option.getD_some]
        rw [got] at same
        exact congrArg some same
  · rw [if_neg here, if_neg here]

theorem modify_of_eq [Inhabited α] (s : Store α) (ref : Nat) {f : α → α} (same : f (s.get ref) = s.get ref) :
    s.modify ref f = s := by
  rw [modify_congr s ref (g := id) same]
  exact congrArg Store.mk (Array.ext_getElem? fun other => by simp [Array.getElem?_modify])

end Store

end UnitRegistry
