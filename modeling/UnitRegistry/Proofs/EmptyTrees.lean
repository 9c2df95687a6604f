import Mathlib.Data.List.Nodup
import UnitRegistry.Proofs.Effect
import UnitRegistry.Proofs.TreeLinks
import UnitRegistry.Proofs.Visits

set_option autoImplicit false

namespace UnitRegistry

def CompilationUnit.ownBody? (u : CompilationUnit) : Option NodeRef := if u.sentinel then none else some u.body

structure BodyView where
  root : NodeRef
  graph : Set (NodeRef × Node)
  tree : Tree

namespace Node

def links (node : Node) (ref : NodeRef) : List (NodeRef × NodeRef) := (node.children.filterMap id).map (ref, ·)

theorem mem_links (node : Node) (ref parent child : NodeRef) :
    (parent, child) ∈ node.links ref ↔ parent = ref ∧ some child ∈ node.children := by
  simp [links, and_comm, eq_comm]

end Node

def Request.isTree : Request → Bool
  | .addNode _ => true
  | .setNode _ _ => true
  | .addUnit _ _ => true
  | .body _ => true
  | .setBody _ _ => true
  | .takeBody _ => true
  | .addSource _ _ => true
  | _ => false

namespace State

def ownBody? (s : State) (unit : UnitRef) : Option NodeRef := (s.unit unit).ownBody?

def bodyView (s : State) (unit : UnitRef) : BodyView :=
  let (after, root) := s.body unit
  { root, graph := after.heap.graph root, tree := after.tree (some root) }

def Sees (s : State) (unit : UnitRef) (ref : NodeRef) : Prop :=
  ∃ root, s.ownBody? unit = some root ∧ s.heap.Reaches root ref

theorem body_of_own {s : State} {unit : UnitRef} {root : NodeRef} (own : s.ownBody? unit = some root) :
    s.body unit = (s, root) := by
  rw [ownBody?, CompilationUnit.ownBody?] at own
  rw [body]
  split at own
  · cases own
  · rename_i sentinel
    cases own
    rw [if_neg sentinel]

theorem sentinel_of_none {s : State} {unit : UnitRef} (none : s.ownBody? unit = none) : (s.unit unit).sentinel = true := by
  rw [ownBody?, CompilationUnit.ownBody?] at none
  by_contra own
  rw [if_neg own] at none
  cases none

theorem body_of_none {s : State} {unit : UnitRef} (none : s.ownBody? unit = none) : s.body unit = s.addNode {} := by
  rw [body, if_pos (sentinel_of_none none)]

theorem own_body_of_units {s t : State} (same : t.units = s.units) (unit : UnitRef) : t.ownBody? unit = s.ownBody? unit := by
  rw [ownBody?, ownBody?, State.unit, State.unit, same]

theorem own_body_modify {s t : State} {of : UnitRef} {f : CompilationUnit → CompilationUnit}
    (modified : t.units = s.units.modify of f) (keeps : (f (s.unit of)).ownBody? = (s.unit of).ownBody?) (unit : UnitRef) :
    t.ownBody? unit = s.ownBody? unit := by
  rw [ownBody?, ownBody?, State.unit, modified, Store.get_modify_cases]
  split
  · rename_i here
    cases here.1
    exact keeps
  · rfl

theorem write_seen (s : State) (ref : NodeRef) (node : Node) (unit : UnitRef)
    (changed : (s.setNode ref node).bodyView unit ≠ s.bodyView unit) : s.Sees unit ref := by
  have same : (s.setNode ref node).ownBody? unit = s.ownBody? unit := own_body_of_units rfl unit
  cases own : s.ownBody? unit with
  | none =>
      have size : Store.size (s.heap.set ref node) = s.heap.size := s.heap.size_modify ref _
      have graphs := Heap.graph_new (s.heap.set ref node)
      have trees := Heap.tree_new (s.heap.set ref node)
      rw [size] at graphs trees
      refine absurd ?_ changed
      rw [bodyView, bodyView, body_of_none own, body_of_none (same.trans own)]
      simp only [addNode, setNode, State.tree, size, graphs, trees, Heap.graph_new, Heap.tree_new]
  | some root =>
      refine ⟨root, own, by_contra fun away => changed ?_⟩
      have graphs := Heap.graph_set node away
      have trees := Heap.tree_set node away
      rw [bodyView, bodyView, body_of_own own, body_of_own (same.trans own)]
      simp only [setNode, State.tree, graphs, trees]

def bodyOf (s : State) (unit : UnitRef) : List (UnitRef × NodeRef) := (s.ownBody? unit).toList.map (unit, ·)

def installed (s : State) : Step → List (UnitRef × NodeRef)
  | .request (.addUnit source context) =>
      let (t, unit) := s.addUnit source context
      t.bodyOf unit
  | .request (.addSource run source) =>
      match s.addSource run source with
      | .ok unit t => if unit < s.units.size then [] else t.bodyOf unit
      | .error _ _ => []
  | .request (.setBody unit none) => (s.setBody unit none).bodyOf unit
  | .request (.takeBody unit) =>
      let (t, taken) := s.takeBody unit
      if (s.unit unit).sentinel then [(unit, taken)] else t.bodyOf unit
  | .request (.body unit) => if (s.unit unit).sentinel then [(unit, (s.body unit).2)] else []
  | _ => []

def linked (s : State) : Step → List (NodeRef × NodeRef)
  | .request (.addNode node) => node.links (s.addNode node).2
  | .request (.setNode ref node) => node.links ref
  | _ => []

inductive TreeStep (s : State) (step : Step) (t : State) : Prop where
  | quiet (installs : s.installed step = []) (links : s.linked step = []) (heap : t.heap = s.heap)
      (bodies : ∀ unit, t.ownBody? unit = s.ownBody? unit)
  | install (of : UnitRef) (installs : s.installed step = [(of, s.heap.size)]) (links : s.linked step = [])
      (heap : t.heap = s.heap.push {})
      (bodies : ∀ unit root, t.ownBody? unit = some root → s.ownBody? unit = some root ∨ unit = of ∧ root = s.heap.size)
  | give (of : UnitRef) (node : NodeRef) (asked : step = .request (.setBody of (some node))) (heap : t.heap = s.heap)
      (bodies : ∀ unit root, t.ownBody? unit = some root → s.ownBody? unit = some root ∨ unit = of ∧ root = node)
  | make (node : Node) (asked : step = .request (.addNode node)) (heap : t.heap = s.heap.push node)
      (bodies : ∀ unit, t.ownBody? unit = s.ownBody? unit)
  | write (ref : NodeRef) (node : Node) (asked : step = .request (.setNode ref node)) (heap : t.heap = s.heap.set ref node)
      (bodies : ∀ unit, t.ownBody? unit = s.ownBody? unit)

section Steps

variable (s : State)

theorem request_quiet (request : Request) (quiet : request.isTree = false) :
    s.installed (.request request) = [] ∧ s.linked (.request request) = [] := by
  cases request <;> first | exact ⟨rfl, rfl⟩ | cases quiet

theorem changed_own_body {u v : CompilationUnit} {request : Request} (changed : u.Changed request v)
    (quiet : request.isTree = false) : v.ownBody? = u.ownBody? := by
  cases changed with
  | setBody of tree body => cases quiet
  | takeBody of body => cases quiet
  | _ => rfl

theorem modify_cache_heap (cache : CacheRef) (f : ObservedSynthetics → ObservedSynthetics) :
    (s.modifyCache cache f).heap = s.heap := by
  cases cache <;> rfl

theorem perform_heap (request : Request) (quiet : request.isTree = false) :
    (ending (s.perform request)).heap = s.heap := by
  cases aside : request.isAside with
  | true => exact (perform_aside s request aside).heap
  | false =>
      cases request with
      | encounteredXml unit position =>
          simp only [perform, encounteredXml]
          split <;> rfl
      | addCheck unit check =>
          simp only [perform, addCheck]
          split <;> rfl
      | putSynthetic cache symbol tree =>
          rw [perform, ending_ok, putSynthetic, modify_cache_heap, (inert_aside (notices_inert s cache _)).heap]
      | removeSynthetic cache symbol =>
          rw [perform, ending_ok, removeSynthetic, modify_cache_heap, (inert_aside (notices_inert s cache _)).heap]
      | clearSynthetics cache => rw [perform, ending_ok, clearSynthetics, modify_cache_heap]
      | freezeSynthetics cache => rw [perform, ending_ok, freezeSynthetics, modify_cache_heap]
      | observeSynthetics cache observer => rw [perform, ending_ok, observeSynthetics, modify_cache_heap]
      | addNode node => cases quiet
      | setNode ref node => cases quiet
      | addUnit source context => cases quiet
      | body unit => cases quiet
      | setBody unit tree => cases quiet
      | takeBody unit => cases quiet
      | addSource run source => cases quiet
      | _ => cases aside <;> rfl

theorem perform_bodies (request : Request) (quiet : request.isTree = false) (unit : UnitRef) :
    (ending (s.perform request)).ownBody? unit = s.ownBody? unit := by
  cases named : request.unit? with
  | none =>
      refine own_body_of_units (units_kept s request named ?_ ?_) unit
      · rintro source context rfl
        cases quiet
      · rintro run source rfl
        cases quiet
  | some of =>
      have changed := CompilationUnit.change_changed (s.unit of) s.heap.size request
      exact own_body_modify (units_perform s request of named) (changed_own_body changed quiet) unit

theorem body_of_new (source : Option FileRef) (context : ContextRef) :
    (s.addUnit source context).1.bodyOf s.units.size = [(s.units.size, s.heap.size)] := by
  rw [bodyOf, ownBody?, unit_add, if_pos rfl]
  rfl

theorem add_unit_bodies (source : Option FileRef) (context : ContextRef) (unit : UnitRef) (root : NodeRef)
    (own : (s.addUnit source context).1.ownBody? unit = some root) :
    s.ownBody? unit = some root ∨ unit = s.units.size ∧ root = s.heap.size := by
  rw [ownBody?, unit_add] at own
  split at own
  · rename_i new
    cases own
    exact .inr ⟨new, rfl⟩
  · exact .inl own

theorem add_unit_step (source : Option FileRef) (context : ContextRef) :
    TreeStep s (.request (.addUnit source context)) (s.addUnit source context).1 :=
  .install s.units.size (body_of_new s source context) rfl rfl (add_unit_bodies s source context)

theorem body_step (of : UnitRef) : TreeStep s (.request (.body of)) (s.body of).1 := by
  by_cases sentinel : (s.unit of).sentinel = true
  · have made : s.body of = s.addNode {} := by rw [body, if_pos sentinel]
    have installs : s.installed (.request (.body of)) = [(of, s.heap.size)] := by
      rw [installed, if_pos sentinel, made]
      rfl
    rw [made]
    exact .install of installs rfl rfl fun unit root own => .inl own
  · have same : s.body of = (s, (s.unit of).body) := by rw [body, if_neg sentinel]
    rw [same]
    exact .quiet (by rw [installed, if_neg sentinel]) rfl rfl fun _ => rfl

theorem set_body_bodies {t : State} {of : UnitRef} {node : NodeRef} (set : t.units = s.units.modify of (·.setBody node))
    (unit : UnitRef) (root : NodeRef) (own : t.ownBody? unit = some root) :
    s.ownBody? unit = some root ∨ unit = of ∧ root = node := by
  rw [ownBody?, State.unit, set, Store.get_modify_cases] at own
  split at own
  · rename_i here
    rw [CompilationUnit.setBody] at own
    split at own
    · exact .inl own
    · rename_i sentinel
      rw [CompilationUnit.ownBody?, if_neg sentinel] at own
      exact .inr ⟨here.1.symm, (Option.some.inj own).symm⟩
  · exact .inl own

theorem body_of_set {t : State} {of : UnitRef} {node : NodeRef} (own : (s.unit of).sentinel = false)
    (set : t.units = s.units.modify of (·.setBody node)) : t.bodyOf of = [(of, node)] := by
  have changed : t.unit of = (s.unit of).setBody node := by
    rw [State.unit, set, Store.get_modify_cases, if_pos ⟨rfl, there_of_own s of own⟩]
    rfl
  simp [bodyOf, ownBody?, changed, CompilationUnit.setBody, CompilationUnit.ownBody?, own]

theorem set_body_step (of : UnitRef) (tree : Option NodeRef) :
    TreeStep s (.request (.setBody of tree)) (s.setBody of tree) := by
  have set := units_set_body s of tree
  cases own : (s.unit of).sentinel with
  | true =>
      have same : s.setBody of tree = s := by simp only [setBody, if_pos own]
      rw [same]
      refine .quiet ?_ rfl rfl fun _ => rfl
      cases tree with
      | none =>
          rw [installed, same, bodyOf, ownBody?, CompilationUnit.ownBody?, if_pos own]
          rfl
      | some node => rfl
  | false =>
      cases tree with
      | none =>
          refine .install of (body_of_set s own set) rfl ?_ (set_body_bodies s set)
          simp only [setBody, own]
          rfl
      | some node =>
          refine .give of node rfl ?_ (set_body_bodies s set)
          simp only [setBody, own]
          rfl

theorem take_body_step (of : UnitRef) : TreeStep s (.request (.takeBody of)) (s.takeBody of).1 := by
  have set := units_take_body s of
  have heap : (s.takeBody of).1.heap = s.heap.push {} := by
    simp only [takeBody]
    split <;> rfl
  refine .install of ?_ rfl heap (set_body_bodies s set)
  simp only [installed]
  cases own : (s.unit of).sentinel with
  | true =>
      have given : (s.addNode {}).1.unit of = s.unit of := rfl
      simp only [takeBody, given, own]
      rfl
  | false =>
      rw [if_neg Bool.false_ne_true]
      exact body_of_set s own set

theorem body_of_absent {s : State} {unit : UnitRef} (absent : s.units.size ≤ unit) : s.bodyOf unit = [] := by
  rw [bodyOf, ownBody?, State.unit, Store.get_of_size_le s.units unit absent]
  rfl

theorem add_source_step (run : RunRef) (source : Option FileRef) :
    TreeStep s (.request (.addSource run source)) (ending (s.addSource run source)) := by
  cases source with
  | none => exact .quiet rfl rfl rfl fun _ => rfl
  | some file =>
      cases known : (s.run run).unitOf? (some file) with
      | some unit =>
          have added := add_source_known s run file unit known
          rw [added]
          refine .quiet ?_ rfl rfl fun _ => rfl
          simp only [installed, added]
          split
          · rfl
          · rename_i absent
            exact body_of_absent (Nat.le_of_not_lt absent)
      | none =>
          obtain ⟨message, added⟩ := add_source_new s run file known
          have traced := outputs_aside (trace_outputs (s.enrolled run file) .debug "run" message)
          have bodies (unit : UnitRef) : ((s.enrolled run file).trace .debug "run" message).ownBody? unit =
              (s.addUnit (some file) (s.run run).context).1.ownBody? unit := own_body_of_units traced.units unit
          rw [added]
          refine .install s.units.size ?_ rfl traced.heap fun unit root own => ?_
          · simp only [installed, added, Nat.lt_irrefl, if_false, bodyOf, bodies]
            exact body_of_new s (some file) (s.run run).context
          · rw [ending_ok, bodies] at own
            exact add_unit_bodies s (some file) (s.run run).context unit root own

theorem take_tree_step (step : Step) : TreeStep s step (s.take step) := by
  cases step with
  | request request =>
      cases tree : request.isTree with
      | false =>
          obtain ⟨installs, links⟩ := request_quiet s request tree
          exact .quiet installs links (perform_heap s request tree) (perform_bodies s request tree)
      | true =>
          cases request with
          | addNode node => exact .make node rfl rfl fun _ => rfl
          | setNode ref node => exact .write ref node rfl rfl fun _ => rfl
          | addUnit source context => exact add_unit_step s source context
          | body of => exact body_step s of
          | setBody of node => exact set_body_step s of node
          | takeBody of => exact take_body_step s of
          | addSource run source => exact add_source_step s run source
          | _ => cases tree
  | startCheck of check => exact .quiet rfl rfl rfl (own_body_modify (f := CompilationUnit.dropCheck) rfl rfl)
  | completeRun run units =>
      obtain ⟨f, modified, _⟩ := complete_run_modifies s run units
      rw [take, modified]
      exact .quiet rfl rfl rfl fun _ => rfl
  | _ => exact .quiet rfl rfl rfl fun _ => rfl

end Steps

section Origins

variable {s t : State} {step : Step} (did : TreeStep s step t)
include did

theorem installed_cases : (s.installed step = [] ∧ s.heap.size ≤ t.heap.size) ∨
    ∃ of, s.installed step = [(of, s.heap.size)] ∧ t.heap = s.heap.push {} := by
  cases did with
  | quiet installs links heap bodies => exact .inl ⟨installs, by rw [heap]⟩
  | install of installs links heap bodies => exact .inr ⟨of, installs, heap⟩
  | give of node asked heap bodies =>
      subst asked
      exact .inl ⟨rfl, by rw [heap]⟩
  | make node asked heap bodies =>
      subst asked
      exact .inl ⟨rfl, by rw [heap, Store.size_push]; exact Nat.le_succ _⟩
  | write ref node asked heap bodies =>
      subst asked
      exact .inl ⟨rfl, by rw [heap, Store.set, Store.size_modify]⟩

theorem link_origin {parent child : NodeRef} (link : t.heap.Child parent child) :
    s.heap.Child parent child ∨ (parent, child) ∈ s.linked step := by
  cases did with
  | quiet installs links heap bodies => exact .inl (heap ▸ link)
  | give of node asked heap bodies => exact .inl (heap ▸ link)
  | install of installs links heap bodies =>
      rw [heap] at link
      exact (Heap.child_push link).imp_right fun new => absurd new.2 List.not_mem_nil
  | make node asked heap bodies =>
      subst asked
      rw [heap] at link
      exact (Heap.child_push link).imp_right (node.mem_links _ parent child).mpr
  | write ref node asked heap bodies =>
      subst asked
      rw [heap] at link
      exact (Heap.child_set link).imp_right (node.mem_links _ parent child).mpr

theorem body_origin {unit : UnitRef} {root : NodeRef} (own : t.ownBody? unit = some root) :
    s.ownBody? unit = some root ∨ (unit, root) ∈ s.installed step ∨ step = .request (.setBody unit (some root)) := by
  cases did with
  | quiet installs links heap bodies => exact .inl (bodies unit ▸ own)
  | make node asked heap bodies => exact .inl (bodies unit ▸ own)
  | write ref node asked heap bodies => exact .inl (bodies unit ▸ own)
  | install of installs links heap bodies =>
      refine (bodies unit root own).imp_right fun new => .inl ?_
      rw [installs, new.1, new.2]
      exact List.mem_singleton_self _
  | give of node asked heap bodies =>
      refine (bodies unit root own).imp_right fun given => .inr ?_
      rw [asked, given.1, given.2]

end Origins

def along {α : Type} (read : State → Step → List α) (s : State) : List Step → List α
  | [] => []
  | step :: rest => read s step ++ along read (s.take step) rest

theorem along_append {α : Type} (read : State → Step → List α) (s : State) (steps : List Step) (step : Step) :
    s.along read (steps ++ [step]) = s.along read steps ++ read (steps.foldl take s) step := by
  induction steps generalizing s with
  | nil => exact List.append_nil _
  | cons first rest ih =>
      rw [List.cons_append, along, along, ih, List.append_assoc]
      rfl

theorem along_snoc {α : Type} {bars : Drive → RunRef → Prop} (read : State → Step → List α) {s t : State} {steps : List Step}
    (walk : s.Walk bars steps t) (step : Step) : s.along read (steps ++ [step]) = s.along read steps ++ read t step := by
  rw [along_append, walk_end walk]

end State

open State (nobody)

-- The empty trees that the library has made, each with the unit that it was for. The first is that of the null unit.
def emptyTrees (steps : List Step) : List (UnitRef × NodeRef) :=
  (State.nullUnit, (State.start.unit State.nullUnit).body) :: State.start.along State.installed steps

def writtenLinks (steps : List Step) : List (NodeRef × NodeRef) := State.start.along State.linked steps

namespace State

structure Traced (steps : List Step) (m : State) : Prop where
  apart : ((emptyTrees steps).map Prod.snd).Nodup
  there : ∀ entry ∈ emptyTrees steps, entry.2 < m.heap.size
  links : ∀ parent child, m.heap.Child parent child → (parent, child) ∈ writtenLinks steps
  bodies : ∀ unit root, m.ownBody? unit = some root →
    (unit, root) ∈ emptyTrees steps ∨ .request (.setBody unit (some root)) ∈ steps

theorem start_traced : Traced [] start where
  apart := List.pairwise_singleton _ _
  there entry member := by
    cases List.mem_singleton.mp member
    exact Nat.zero_lt_one
  links parent child link := by
    have none : (start.heap.get parent).children = [] := by cases parent <;> rfl
    rw [Heap.Child, none] at link
    cases link
  bodies unit root own := by cases unit <;> cases own

theorem empty_trees_snoc {steps : List Step} {m : State} (walk : start.Walk nobody steps m) (step : Step) :
    emptyTrees (steps ++ [step]) = emptyTrees steps ++ m.installed step := by
  rw [emptyTrees, along_snoc installed walk step]
  rfl

theorem step_traced {steps : List Step} {m : State} (walk : start.Walk nobody steps m) (traced : Traced steps m)
    (step : Step) : Traced (steps ++ [step]) (m.take step) := by
  have did := take_tree_step m step
  have empties := empty_trees_snoc walk step
  have written : writtenLinks (steps ++ [step]) = writtenLinks steps ++ m.linked step := along_snoc linked walk step
  refine ⟨?_, fun entry member => ?_, fun parent child link => ?_, fun unit root own => ?_⟩
  · rw [empties]
    rcases installed_cases did with ⟨none, _⟩ | ⟨of, made, _⟩
    · rw [none, List.append_nil]
      exact traced.apart
    · rw [made, List.map_append, List.nodup_append]
      refine ⟨traced.apart, List.pairwise_singleton _ _, fun node member last final same => ?_⟩
      obtain ⟨entry, known, rfl⟩ := List.mem_map.mp member
      exact Nat.ne_of_lt (traced.there entry known) (same.trans (List.mem_singleton.mp final))
  · rw [empties, List.mem_append] at member
    rcases installed_cases did with ⟨none, grows⟩ | ⟨of, made, heap⟩
    · rw [none] at member
      exact Nat.lt_of_lt_of_le (traced.there entry (member.resolve_right List.not_mem_nil)) grows
    · rw [heap, Store.size_push]
      rw [made] at member
      rcases member with earlier | new
      · exact Nat.lt_succ_of_lt (traced.there entry earlier)
      · rw [List.mem_singleton.mp new]
        exact Nat.lt_succ_self m.heap.size
  · rw [written, List.mem_append]
    exact (link_origin did link).imp_left (traced.links parent child)
  · rw [empties]
    simp only [List.mem_append, List.mem_singleton]
    rcases body_origin did own with before | made | asked
    · exact (traced.bodies unit root before).imp .inl .inl
    · exact .inl (.inr made)
    · exact .inr (.inr asked.symm)

theorem walk_traced {steps : List Step} {m : State} (walk : start.Walk nobody steps m) : Traced steps m := by
  induction walk with
  | start => exact start_traced
  | next walk step _ ih => exact step_traced walk ih step

def Written (steps : List Step) (m : State) (parent child : NodeRef) : Prop :=
  m.heap.Child parent child ∧ (parent, child) ∈ writtenLinks steps

-- How the caller led from the body of a unit to a node: over a tree that it gave to the unit, or over links that it wrote
-- below the empty tree of the unit.
inductive Led (steps : List Step) (m : State) (unit : UnitRef) (ref : NodeRef) : Prop where
  | given (root : NodeRef) (own : m.ownBody? unit = some root) (asked : .request (.setBody unit (some root)) ∈ steps)
      (path : Relation.ReflTransGen (Written steps m) root ref)
  | below (root : NodeRef) (own : m.ownBody? unit = some root) (path : Relation.TransGen (Written steps m) root ref)

structure EmptiesApart (steps : List Step) (m : State) : Prop where
  new : ∀ step unit node, (unit, node) ∈ m.installed step → node = m.heap.size ∧ (m.take step).heap = m.heap.push {}
  apart : ((emptyTrees steps).map Prod.snd).Nodup
  there : ∀ entry ∈ emptyTrees steps, entry.2 < m.heap.size

structure BodiesThere (steps : List Step) (m : State) : Prop where
  origin : ∀ unit, (unit, (m.body unit).2) ∈ emptyTrees (steps ++ [.request (.body unit)]) ∨
    .request (.setBody unit (some (m.body unit).2)) ∈ steps
  there : ∀ unit, (∀ node, .request (.setBody unit (some node)) ∈ steps → node < m.heap.size) →
    (m.body unit).2 < (m.body unit).1.heap.size

-- A write shows in a body only when the body leads to the node, and it leads there by the caller's doing, unless the node is
-- the empty tree of that very unit. So what two units share they share by the caller's doing.
structure WritesSeen (steps : List Step) (m : State) : Prop where
  seen : ∀ unit ref node, (m.setNode ref node).bodyView unit ≠ m.bodyView unit →
    m.Sees unit ref ∧ ((unit, ref) ∈ emptyTrees steps ∨ Led steps m unit ref)
  elsewhere : ∀ unit other ref node, other ≠ unit → (other, ref) ∈ emptyTrees steps →
    (m.setNode ref node).bodyView unit ≠ m.bodyView unit → Led steps m unit ref
  shared : ∀ unit other ref, other ≠ unit → m.Sees unit ref → m.Sees other ref → Led steps m unit ref ∨ Led steps m other ref

section Conclusions

variable {steps : List Step} {m : State}

theorem empties_apart (traced : Traced steps m) : EmptiesApart steps m where
  new step unit node member := by
    rcases installed_cases (take_tree_step m step) with ⟨none, _⟩ | ⟨of, made, heap⟩
    · rw [none] at member
      cases member
    · rw [made] at member
      cases List.mem_singleton.mp member
      exact ⟨rfl, heap⟩
  apart := traced.apart
  there := traced.there

theorem bodies_there (walk : start.Walk nobody steps m) (traced : Traced steps m) : BodiesThere steps m := by
  have origin (unit : UnitRef) : (unit, (m.body unit).2) ∈ emptyTrees (steps ++ [.request (.body unit)]) ∨
      .request (.setBody unit (some (m.body unit).2)) ∈ steps := by
    rw [empty_trees_snoc walk, List.mem_append]
    cases own : m.ownBody? unit with
    | none =>
        refine .inl (.inr ?_)
        rw [installed, if_pos (sentinel_of_none own)]
        exact List.mem_singleton_self _
    | some root =>
        rw [body_of_own own]
        exact (traced.bodies unit root own).imp_left .inl
  refine ⟨origin, fun unit given => ?_⟩
  have later := step_traced walk traced (.request (.body unit))
  rcases origin unit with empty | asked
  · exact later.there _ empty
  · have grows : m.heap.size ≤ (m.body unit).1.heap.size := by
      rcases installed_cases (body_step m unit) with ⟨_, grows⟩ | ⟨_, _, heap⟩
      · exact grows
      · rw [heap, Store.size_push]
        exact Nat.le_succ _
    exact Nat.lt_of_lt_of_le (given _ asked) grows

theorem led_of_sees (traced : Traced steps m) {unit : UnitRef} {ref : NodeRef} (sees : m.Sees unit ref) :
    (unit, ref) ∈ emptyTrees steps ∨ Led steps m unit ref := by
  obtain ⟨root, own, reached⟩ := sees
  have written : m.heap.Child ≤ Written steps m := fun parent child link => ⟨link, traced.links parent child link⟩
  have path : Relation.ReflTransGen (Written steps m) root ref := Relation.ReflTransGen.mono written root ref reached
  rcases traced.bodies unit root own with empty | asked
  · rcases Relation.reflTransGen_iff_eq_or_transGen.mp path with rfl | below
    · exact .inl empty
    · exact .inr (.below root own below)
  · exact .inr (.given root own asked path)

theorem one_unit (traced : Traced steps m) {unit other : UnitRef} {ref : NodeRef} (own : (unit, ref) ∈ emptyTrees steps)
    (also : (other, ref) ∈ emptyTrees steps) : other = unit :=
  congrArg Prod.fst (List.inj_on_of_nodup_map traced.apart also own rfl)

theorem writes_seen (traced : Traced steps m) : WritesSeen steps m where
  seen unit ref node changed := by
    have sees := write_seen m ref node unit changed
    exact ⟨sees, led_of_sees traced sees⟩
  elsewhere unit other ref node different empty changed := by
    rcases led_of_sees traced (write_seen m ref node unit changed) with own | led
    · exact absurd (one_unit traced own empty) different
    · exact led
  shared unit other ref different sees also := by
    rcases led_of_sees traced sees with own | led
    · rcases led_of_sees traced also with empty | led
      · exact absurd (one_unit traced own empty) different
      · exact .inr led
    · exact .inl led

end Conclusions

end State

namespace Session

-- At every moment the empty trees of two units are apart, since programs only walk.
theorem empty_trees_not_shared (Data : Type) :
    (∀ steps m, State.start.Walk nobody steps m → m.EmptiesApart steps ∧ m.BodiesThere steps ∧ m.WritesSeen steps) ∧
    ∀ limit (program : Program Data), Walking (exec limit program) := by
  refine ⟨fun steps m walk => ?_, walking_exec⟩
  have traced := State.walk_traced walk
  exact ⟨State.empties_apart traced, State.bodies_there walk traced, State.writes_seen traced⟩

def renewals : List Request :=
  [.addUnit (some sourceA) 0, .addUnit (some sourceB) 0, .setBody 1 none, .setBody 2 none]

def renewedUnits : State := renewals.foldl (fun s request => ending (s.perform request)) .start

theorem block_in_other_body :
    let written := renewedUnits.setNode (renewedUnits.body 1).2 { kind := .block }
    (written.bodyView 1).tree.render ≠ (renewedUnits.bodyView 1).tree.render ∧
      written.bodyView 2 = renewedUnits.bodyView 2 := by
  intro written
  have walk : State.start.Walk nobody (renewals.map .request) renewedUnits := State.requests_walk _ _
  obtain ⟨_, _, seen⟩ := (empty_trees_not_shared Unit).1 _ renewedUnits walk
  have unlinked : writtenLinks (renewals.map .request) = [] := by decide +kernel
  refine ⟨by decide +kernel, by_contra fun changed => ?_⟩
  have led := seen.elsewhere 2 1 (renewedUnits.body 1).2 { kind := .block } (by decide) (by decide +kernel) changed
  cases led with
  | given root own asked path => simp [renewals] at asked
  | below root own path =>
      obtain ⟨parent, _, link⟩ := Relation.TransGen.tail'_iff.mp path
      have among := link.2
      rw [unlinked] at among
      cases among

end Session

end UnitRegistry
