import Mathlib.Data.List.Nodup
import Mathlib.Data.List.Perm.Subperm
import Mathlib.Logic.Relation
import UnitRegistry.Proofs.Nesting
/-!
Who owns a sink: the logger, or a fan-out. As long as a sink has one owner at most and none is below itself, the sinks are
a forest under the logger, and every leaf is below one sink of the logger, once.
-/
set_option autoImplicit false

namespace UnitRegistry

open Log (Sink SinkRef)
open Relation (TransGen ReflTransGen)

namespace State

def Holds (s : State) (parent child : SinkRef) : Prop := child ∈ (s.sink parent).children

def owned (s : State) : List SinkRef := s.logger.sinks ++ s.sinks.items.toList.flatMap Sink.children

structure Forest (s : State) : Prop where
  known : ∀ ref ∈ s.owned, ref < s.sinks.size
  once : s.owned.Nodup
  acyclic : ∀ ref, ¬ TransGen s.Holds ref ref

section Lists

variable {s : State}

theorem item_eq_sink (s : State) (ref : Nat) (bound : ref < s.sinks.items.toList.length) :
    s.sinks.items.toList[ref] = s.sink ref := by
  have inside : ref < s.sinks.items.size := bound
  simp [sink, Store.get, Array.getD, inside]

theorem parent_known {parent child : SinkRef} (holds : s.Holds parent child) : parent < s.sinks.items.toList.length := by
  refine sink_known fun discards => ?_
  rw [Holds, discards] at holds
  cases holds

theorem mem_children_iff (child : SinkRef) :
    child ∈ s.sinks.items.toList.flatMap Sink.children ↔ ∃ parent, s.Holds parent child := by
  rw [List.mem_flatMap]
  constructor
  · rintro ⟨_, among, held⟩
    obtain ⟨parent, bound, rfl⟩ := List.getElem_of_mem among
    rw [item_eq_sink] at held
    exact ⟨parent, held⟩
  · rintro ⟨parent, holds⟩
    have bound := parent_known holds
    refine ⟨_, List.getElem_mem bound, ?_⟩
    rwa [item_eq_sink]

theorem nodup_children_iff :
    (s.sinks.items.toList.flatMap Sink.children).Nodup ↔
      (∀ parent, (s.sink parent).children.Nodup) ∧
        ∀ first second child, s.Holds first child → s.Holds second child → first = second := by
  rw [List.nodup_flatMap, List.pairwise_iff_getElem]
  constructor
  · rintro ⟨once, apart⟩
    have separate {first second child : SinkRef} (left : s.Holds first child) (right : s.Holds second child) :
        ¬ first < second := by
      intro before
      have disjoint := apart first second (parent_known left) (parent_known right) before
      simp only [Function.onFun, item_eq_sink] at disjoint
      exact disjoint left right
    refine ⟨fun parent => ?_, fun first second child left right => ?_⟩
    · by_cases bound : parent < s.sinks.items.toList.length
      · rw [← item_eq_sink s parent bound]
        exact once _ (List.getElem_mem bound)
      · rw [unknown_sink (Nat.le_of_not_lt bound)]
        exact List.nodup_nil
    · exact Nat.le_antisymm (Nat.le_of_not_lt (separate right left)) (Nat.le_of_not_lt (separate left right))
  · rintro ⟨once, single⟩
    refine ⟨fun sink among => ?_, fun first second left right before => ?_⟩
    · obtain ⟨parent, bound, rfl⟩ := List.getElem_of_mem among
      rw [item_eq_sink]
      exact once parent
    · simp only [Function.onFun, item_eq_sink]
      intro child earlier later
      exact absurd (single first second child earlier later) (Nat.ne_of_lt before)

theorem mem_owned_iff (child : SinkRef) : child ∈ s.owned ↔ child ∈ s.logger.sinks ∨ ∃ parent, s.Holds parent child := by
  rw [owned, List.mem_append, mem_children_iff]

theorem nodup_owned_iff :
    s.owned.Nodup ↔ s.logger.sinks.Nodup ∧ (∀ parent, (s.sink parent).children.Nodup) ∧
      (∀ first second child, s.Holds first child → s.Holds second child → first = second) ∧
      ∀ ref ∈ s.logger.sinks, ∀ parent, ¬ s.Holds parent ref := by
  have apart : (s.logger.sinks.Disjoint (s.sinks.items.toList.flatMap Sink.children)) ↔
      ∀ ref ∈ s.logger.sinks, ∀ parent, ¬ s.Holds parent ref := by
    simp only [List.Disjoint, mem_children_iff, not_exists, imp_false]
  rw [owned, List.nodup_append', nodup_children_iff, apart, and_assoc]

end Lists

namespace Forest

variable {s : State} {parent child other ref leaf : SinkRef}

theorem child_known (forest : s.Forest) (holds : s.Holds parent child) : child < s.sinks.size :=
  forest.known child ((mem_owned_iff child).mpr (.inr ⟨parent, holds⟩))

theorem root_known (forest : s.Forest) (root : ref ∈ s.logger.sinks) : ref < s.sinks.size :=
  forest.known ref ((mem_owned_iff ref).mpr (.inl root))

theorem roots_once (forest : s.Forest) : s.logger.sinks.Nodup := (nodup_owned_iff.mp forest.once).1

theorem children_once (forest : s.Forest) : (s.sink parent).children.Nodup := (nodup_owned_iff.mp forest.once).2.1 parent

theorem one_parent (forest : s.Forest) (left : s.Holds parent child) (right : s.Holds other child) : parent = other :=
  (nodup_owned_iff.mp forest.once).2.2.1 parent other child left right

theorem no_parent (forest : s.Forest) (root : ref ∈ s.logger.sinks) : ¬ s.Holds parent ref :=
  (nodup_owned_iff.mp forest.once).2.2.2 ref root parent

theorem above_total (forest : s.Forest) (left : ReflTransGen s.Holds parent leaf) (right : ReflTransGen s.Holds other leaf) :
    ReflTransGen s.Holds parent other ∨ ReflTransGen s.Holds other parent := by
  have unique : Relator.RightUnique (Function.swap s.Holds) := fun _ _ _ first second => forest.one_parent first second
  have total := ReflTransGen.total_of_right_unique unique (Relation.reflTransGen_swap.mpr left)
    (Relation.reflTransGen_swap.mpr right)
  simpa only [Relation.reflTransGen_swap, or_comm] using total

theorem not_below_sibling (forest : s.Forest) (left : s.Holds parent child) (right : s.Holds parent other)
    (different : child ≠ other) : ¬ ReflTransGen s.Holds child other := by
  intro below
  cases below with
  | refl => exact different rfl
  | tail above holds =>
      rw [forest.one_parent holds right] at above
      exact forest.acyclic parent (.head' left above)

theorem not_below_root (forest : s.Forest) (root : ref ∈ s.logger.sinks) (different : other ≠ ref) :
    ¬ ReflTransGen s.Holds other ref := by
  intro below
  cases below with
  | refl => exact different rfl
  | tail _ holds => exact forest.no_parent root holds

end Forest

section Depth

variable {s : State} {depth : Nat} {ref child leaf : SinkRef}

theorem holds_iff {children : List SinkRef} (found : (s.sink ref).targets? = some children) :
    s.Holds ref child ↔ child ∈ children := by
  rw [Holds, Sink.children_of_targets, found, Option.getD_some]

theorem below_of_mem_leaves_to (among : leaf ∈ s.leavesTo depth ref) : ReflTransGen s.Holds ref leaf := by
  induction depth generalizing ref with
  | zero => cases among
  | succ depth ih =>
      cases found : (s.sink ref).targets? with
      | none =>
          rw [leaves_to_leaf found, List.mem_singleton] at among
          rw [among]
      | some children =>
          rw [leaves_to_fan found, List.mem_flatMap] at among
          obtain ⟨child, held, below⟩ := among
          exact .head ((holds_iff found).mpr held) (ih below)

def Within (s : State) : Nat → SinkRef → Prop
  | 0, _ => False
  | depth + 1, ref => ∀ child, s.Holds ref child → s.Within depth child

theorem leaves_to_within (within : s.Within depth ref) (more : Nat) :
    s.leavesTo (depth + more) ref = s.leavesTo depth ref := by
  induction depth generalizing ref with
  | zero => cases within
  | succ depth ih =>
      rw [Nat.add_right_comm]
      cases found : (s.sink ref).targets? with
      | none => rw [leaves_to_leaf found, leaves_to_leaf found]
      | some children =>
          rw [leaves_to_fan found, leaves_to_fan found]
          exact List.flatMap_congr fun child held => ih (within child ((holds_iff found).mpr held))

theorem mem_leaves_to_of_below (within : s.Within depth ref) (below : ReflTransGen s.Holds ref leaf)
    (ends : (s.sink leaf).targets? = none) : leaf ∈ s.leavesTo depth ref := by
  induction depth generalizing ref with
  | zero => cases within
  | succ depth ih =>
      cases found : (s.sink ref).targets? with
      | none =>
          rw [leaves_to_leaf found, List.mem_singleton]
          obtain rfl | ⟨child, holds, _⟩ := below.cases_head
          · rfl
          · rw [Holds, Sink.children_of_targets, found] at holds
            cases holds
      | some children =>
          rw [leaves_to_fan found, List.mem_flatMap]
          obtain rfl | ⟨child, holds, rest⟩ := below.cases_head
          · rw [ends] at found
            cases found
          · exact ⟨child, (holds_iff found).mp holds, ih (within child holds) rest⟩

theorem leaves_of_leaf (known : ref < s.sinks.size) (ends : (s.sink ref).targets? = none) : s.leaves ref = [ref] := by
  obtain ⟨more, size⟩ := Nat.exists_eq_add_of_lt known
  rw [leaves, size, leaves_to_leaf ends]

theorem not_below_childless {parent : SinkRef} (childless : (s.sink child).children = []) (other : parent ≠ child) :
    ¬ ReflTransGen s.Holds child parent := by
  intro below
  obtain rfl | ⟨next, holds, _⟩ := below.cases_head
  · exact other rfl
  · rw [Holds, childless] at holds
    cases holds

theorem start_forest : start.Forest := by
  have none : start.owned = [] := rfl
  refine ⟨fun ref among => ?_, ?_, fun ref cycle => ?_⟩
  · rw [none] at among
    cases among
  · rw [none]
    exact List.nodup_nil
  · obtain ⟨child, holds, _⟩ := TransGen.head'_iff.mp cycle
    rw [Holds, unknown_sink (Nat.zero_le ref)] at holds
    cases holds

end Depth

namespace Forest

variable {s : State} {depth : Nat} {parent child ref leaf : SinkRef}

-- The sinks above one are all different, so that there are no more of them than sinks.
theorem within_below (forest : s.Forest) (known : ref < s.sinks.size) {above : List SinkRef} (different : above.Nodup)
    (higher : ∀ ancestor ∈ above, ancestor < s.sinks.size ∧ TransGen s.Holds ancestor ref)
    (all : above.length + depth = s.sinks.size) : s.Within depth ref := by
  have fresh : ref ∉ above := fun among => forest.acyclic ref (higher ref among).2
  induction depth generalizing ref above with
  | zero =>
      have inside : ref :: above ⊆ List.range s.sinks.size := by
        intro other among
        rw [List.mem_range]
        obtain rfl | among := List.mem_cons.mp among
        · exact known
        · exact (higher other among).1
      have bound := ((List.nodup_cons.mpr ⟨fresh, different⟩).subperm inside).length_le
      rw [List.length_cons, List.length_range] at bound
      omega
  | succ depth ih =>
      intro child holds
      have higherChild : ∀ ancestor ∈ ref :: above, ancestor < s.sinks.size ∧ TransGen s.Holds ancestor child := by
        intro ancestor among
        obtain rfl | among := List.mem_cons.mp among
        · exact ⟨known, .single holds⟩
        · exact ⟨(higher ancestor among).1, .tail (higher ancestor among).2 holds⟩
      refine ih (forest.child_known holds) (List.nodup_cons.mpr ⟨fresh, different⟩) higherChild ?_ ?_
      · rw [List.length_cons]
        omega
      · exact fun among => forest.acyclic child (higherChild child among).2

theorem within_size (forest : s.Forest) (known : ref < s.sinks.size) : s.Within s.sinks.size ref :=
  forest.within_below known List.nodup_nil (fun _ among => by cases among) (Nat.zero_add _)

theorem leaves_of_fan (forest : s.Forest) {children : List SinkRef} (found : s.sink ref = .fanOut children) :
    s.leaves ref = children.flatMap s.leaves := by
  have known : ref < s.sinks.size := sink_known (by simp [found])
  have targets : (s.sink ref).targets? = some children := by
    rw [found]
    rfl
  obtain ⟨more, size⟩ := Nat.exists_eq_add_of_lt known
  have within := forest.within_size known
  rw [size] at within
  unfold leaves
  rw [size, leaves_to_fan targets]
  exact List.flatMap_congr fun child held => (leaves_to_within (within child ((holds_iff targets).mpr held)) 1).symm

theorem mem_leaves_iff (forest : s.Forest) (known : ref < s.sinks.size) :
    leaf ∈ s.leaves ref ↔ ReflTransGen s.Holds ref leaf ∧ (s.sink leaf).targets? = none := by
  constructor
  · exact fun among => ⟨below_of_mem_leaves_to among, targets_of_mem_leaves_to among⟩
  · exact fun ⟨below, ends⟩ => mem_leaves_to_of_below (forest.within_size known) below ends

theorem disjoint_leaves_to (forest : s.Forest) (left : ¬ ReflTransGen s.Holds parent child)
    (right : ¬ ReflTransGen s.Holds child parent) : (s.leavesTo depth parent).Disjoint (s.leavesTo depth child) := by
  intro leaf first second
  obtain below | below := forest.above_total (below_of_mem_leaves_to first) (below_of_mem_leaves_to second)
  · exact left below
  · exact right below

theorem leaves_to_once (forest : s.Forest) : (s.leavesTo depth ref).Nodup := by
  induction depth generalizing ref with
  | zero => exact List.nodup_nil
  | succ depth ih =>
      cases found : (s.sink ref).targets? with
      | none =>
          rw [leaves_to_leaf found]
          exact List.nodup_singleton ref
      | some children =>
          have once : (s.sink ref).children.Nodup := forest.children_once
          rw [Sink.children_of_targets, found, Option.getD_some] at once
          rw [leaves_to_fan found, List.nodup_flatMap]
          refine ⟨fun _ _ => ih, once.pairwise_of_forall_ne fun left first right second different => ?_⟩
          have holdsLeft := (holds_iff found).mpr first
          have holdsRight := (holds_iff found).mpr second
          exact forest.disjoint_leaves_to (forest.not_below_sibling holdsLeft holdsRight different)
            (forest.not_below_sibling holdsRight holdsLeft different.symm)

theorem audience_once (forest : s.Forest) : s.audience.Nodup := by
  have once := forest.roots_once
  rw [audience, List.nodup_flatMap]
  refine ⟨fun _ _ => forest.leaves_to_once, once.pairwise_of_forall_ne fun left first right second different => ?_⟩
  exact forest.disjoint_leaves_to (forest.not_below_root second different) (forest.not_below_root first different.symm)

end Forest

end State

end UnitRegistry
