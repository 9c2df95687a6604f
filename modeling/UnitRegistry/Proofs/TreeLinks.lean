import Mathlib.Data.Set.Insert
import Mathlib.Logic.Relation
import UnitRegistry.Tree.Heap

set_option autoImplicit false

namespace UnitRegistry

namespace Heap

def Child (heap : Heap) (parent child : NodeRef) : Prop := some child ∈ (heap.get parent).children

def Reaches (heap : Heap) : NodeRef → NodeRef → Prop := Relation.ReflTransGen heap.Child

def graph (heap : Heap) (root : NodeRef) : Set (NodeRef × Node) :=
  {place | heap.Reaches root place.1 ∧ heap.get place.1 = place.2}

section Write

variable {heap : Heap} {root ref : NodeRef} (node : Node) (away : ¬ heap.Reaches root ref)
include away

theorem get_set_reached {place : NodeRef} (reached : heap.Reaches root place) :
    Store.get (heap.set ref node) place = heap.get place := by
  refine heap.get_modify_of_ne ref place _ ?_
  rintro rfl
  exact away reached

theorem reaches_of_set {place : NodeRef} (reached : Reaches (heap.set ref node) root place) : heap.Reaches root place := by
  induction reached with
  | refl => exact .refl
  | tail _ child ih =>
      rw [Child, get_set_reached node away ih] at child
      exact ih.tail child

theorem set_reaches {place : NodeRef} (reached : heap.Reaches root place) : Reaches (heap.set ref node) root place := by
  induction reached with
  | refl => exact .refl
  | tail before child ih =>
      refine ih.tail ?_
      rwa [Child, get_set_reached node away before]

theorem reaches_set (place : NodeRef) : Reaches (heap.set ref node) root place ↔ heap.Reaches root place :=
  ⟨reaches_of_set node away, set_reaches node away⟩

theorem graph_set : graph (heap.set ref node) root = heap.graph root := by
  ext ⟨place, content⟩
  change _ ∧ _ ↔ _ ∧ _
  rw [reaches_set node away]
  refine and_congr_right fun reached => ?_
  rw [get_set_reached node away reached]

-- The induction is on the depth, since the nodes may lead round in a circle.
theorem tree_to_set (depth : Nat) : treeTo (heap.set ref node) depth (some root) = heap.treeTo depth (some root) := by
  induction depth generalizing root with
  | zero => rfl
  | succ depth ih =>
      have here := get_set_reached node away .refl
      have below (child : Option NodeRef) (member : child ∈ (heap.get root).children) :
          treeTo (heap.set ref node) depth child = heap.treeTo depth child := by
        cases child with
        | none => cases depth <;> rfl
        | some child => exact ih fun reached => away (.head member reached)
      simp only [treeTo, here]
      congr 1
      refine List.map_congr_left fun child shown => below child ?_
      split at shown
      · cases shown
      · exact shown

theorem tree_set : tree (heap.set ref node) (some root) = heap.tree (some root) := by
  rw [tree, Store.set, Store.size_modify]
  exact tree_to_set node away heap.size

end Write

theorem reaches_new {heap : Heap} {place : NodeRef} (reached : Reaches (heap.push {}) heap.size place) :
    place = heap.size := by
  induction reached with
  | refl => rfl
  | tail _ child ih =>
      rw [ih, Child, Store.get_push_self] at child
      cases child

theorem graph_new (heap : Heap) : graph (heap.push {}) heap.size = {(heap.size, {})} := by
  ext ⟨place, content⟩
  change _ ∧ _ ↔ _
  rw [Set.mem_singleton_iff, Prod.mk.injEq]
  constructor
  · rintro ⟨reached, read⟩
    cases reaches_new reached
    exact ⟨rfl, read.symm.trans (Store.get_push_self heap {})⟩
  · rintro ⟨rfl, rfl⟩
    exact ⟨.refl, Store.get_push_self heap {}⟩

theorem tree_new (heap : Heap) : tree (heap.push {}) (some heap.size) = .node .empty [] [] := by
  rw [tree, Store.size_push, treeTo, Store.get_push_self]
  rfl

theorem child_push {heap : Heap} {node : Node} {parent child : NodeRef} (linked : Child (heap.push node) parent child) :
    heap.Child parent child ∨ parent = heap.size ∧ some child ∈ node.children := by
  by_cases new : parent = heap.size
  · rw [Child, new, Store.get_push_self] at linked
    exact .inr ⟨new, linked⟩
  · rw [Child, heap.get_push_of_ne node parent new] at linked
    exact .inl linked

theorem child_set {heap : Heap} {node : Node} {ref parent child : NodeRef} (linked : Child (heap.set ref node) parent child) :
    heap.Child parent child ∨ parent = ref ∧ some child ∈ node.children := by
  rw [Child, Store.set, Store.get_modify_cases] at linked
  split at linked
  · rename_i here
    exact .inr ⟨here.1.symm, linked⟩
  · exact .inl linked

end Heap

end UnitRegistry
