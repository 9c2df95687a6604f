import Mathlib.Data.List.Nodup
import Mathlib.Data.List.Perm.Subperm
import UnitRegistry.Tree.Heap
/-!
Reading a tree back from its text. What the text does not show is what hangs below an empty node, so trees are compared
by what they show. A name that has no separator in it and is not the text of the empty leaf can be told apart from a child.
-/
set_option autoImplicit false

namespace UnitRegistry

namespace Tree

mutual
def shown : Tree → Tree
  | .missing => .missing
  | .node kind name children => if kind = .empty then .missing else .node kind name (shownAll children)
def shownAll : List Tree → List Tree
  | [] => []
  | child :: more => child.shown :: shownAll more
end

theorem before_empty {kind : TreeKind} {name : Text} {children : List Tree} {rest : Text} (empty : kind = .empty) :
    (node kind name children).renderBefore rest = TreeKind.empty.name ++ rest := by
  rw [renderBefore, if_pos empty]

theorem before_node {kind : TreeKind} {name : Text} {children : List Tree} {rest : Text} (inner : kind ≠ .empty) :
    (node kind name children).renderBefore rest =
      "(" ++ (kind.name ++ (spaced name ++ renderForestBefore children (")" ++ rest))) := by
  rw [renderBefore, if_neg inner]

mutual
theorem shown_shown : ∀ t : Tree, t.shown.shown = t.shown
  | .missing => rfl
  | .node kind name children => by
      by_cases leaf : kind = .empty
      · simp [shown, leaf]
      · simp [shown, leaf, shown_all_idem children]
theorem shown_all_idem : ∀ trees : List Tree, shownAll (shownAll trees) = shownAll trees
  | [] => rfl
  | child :: more => by simp [shownAll, shown_shown child, shown_all_idem more]
end

mutual
theorem render_before_shown : ∀ (t : Tree) (rest : Text), t.shown.renderBefore rest = t.renderBefore rest
  | .missing, rest => rfl
  | .node kind name children, rest => by
      by_cases leaf : kind = .empty
      · simp [shown, leaf, renderBefore]
      · simp [shown, leaf, renderBefore, render_forest_before_shown children]
theorem render_forest_before_shown : ∀ (trees : List Tree) (rest : Text),
    renderForestBefore (shownAll trees) rest = renderForestBefore trees rest
  | [], rest => rfl
  | child :: more, rest => by
      simp [shownAll, renderForestBefore, render_before_shown child, render_forest_before_shown more]
end

theorem render_shown (t : Tree) : t.shown.render = t.render := render_before_shown t []

def separators : Text := [32, 40, 41]

def Word (text : Text) : Prop := ∀ byte ∈ text, byte ∉ separators

instance (text : Text) : Decidable (Word text) := List.decidableBAll (· ∉ separators) text

structure PlainName (name : Text) : Prop where
  word : Word name
  visible : name ≠ TreeKind.empty.name

mutual
def Plain : Tree → Prop
  | .missing => True
  | .node kind name children => kind ≠ .empty → PlainName name ∧ PlainAll children
def PlainAll : List Tree → Prop
  | [] => True
  | child :: more => child.Plain ∧ PlainAll more
end

theorem word_of_kind (kind : TreeKind) : Word kind.name := by
  cases kind <;> decide +kernel

theorem kind_eq_of_name (kind other : TreeKind) (same : kind.name = other.name) : kind = other := by
  have distinct : (TreeKind.all.map TreeKind.name).Nodup := by decide +kernel
  have listed (kind : TreeKind) : kind ∈ TreeKind.all := by cases kind <;> decide
  exact List.inj_on_of_nodup_map distinct (listed kind) (listed other) same

def Stops (text : Text) : Prop := ∃ byte ∈ separators, ∃ rest, text = byte :: rest

theorem stops_closing (rest : Text) : Stops (")" ++ rest) := ⟨41, by decide, rest, rfl⟩

theorem stops_forest : ∀ (trees : List Tree) (rest : Text), Stops rest → Stops (renderForestBefore trees rest)
  | [], _, stops => stops
  | child :: more, rest, _ => ⟨32, by decide, child.renderBefore (renderForestBefore more rest), rfl⟩

theorem stops_spaced (name rest : Text) (stops : Stops rest) : Stops (spaced name ++ rest) := by
  by_cases absent : name = []
  · simpa [spaced, absent] using stops
  · rw [spaced, if_neg absent]
    exact ⟨32, by decide, name ++ rest, rfl⟩

theorem eq_of_shorter_word {word other rest more : Text} (same : word ++ rest = other ++ more) (plain : Word other)
    (stops : Stops rest) (shorter : word.length ≤ other.length) : word = other := by
  have starts : other <+: word ++ rest := same ▸ List.prefix_append other more
  obtain ⟨tail, rfl⟩ := List.prefix_of_prefix_length_le (List.prefix_append word rest) starts shorter
  obtain ⟨byte, separator, after, rfl⟩ := stops
  cases tail with
  | nil => simp
  | cons first others =>
      have both : byte = first := by
        rw [List.append_assoc, List.append_cancel_left_eq] at same
        exact (List.cons.inj same).1
      exact absurd separator (plain byte (by simp [both]))

theorem word_split {word other rest more : Text} (same : word ++ rest = other ++ more) (plain : Word word)
    (plainOther : Word other) (stops : Stops rest) (stopsOther : Stops more) : word = other ∧ rest = more := by
  have words : word = other := by
    rcases Nat.le_total word.length other.length with shorter | longer
    · exact eq_of_shorter_word same plainOther stops shorter
    · exact (eq_of_shorter_word same.symm plain stopsOther longer).symm
  subst words
  exact ⟨rfl, List.append_cancel_left same⟩

theorem child_not_name (t : Tree) {name rest more : Text} (plain : PlainName name) (given : name ≠ [])
    (stops : Stops rest) (stopsOther : Stops more) : t.renderBefore rest ≠ name ++ more := by
  have leaf : TreeKind.empty.name ++ rest ≠ name ++ more := fun same =>
    plain.visible (word_split same (word_of_kind .empty) plain.word stops stopsOther).1.symm
  cases t with
  | missing => exact leaf
  | node kind label children =>
      by_cases empty : kind = .empty
      · rw [before_empty empty]
        exact leaf
      · rw [before_node empty]
        intro same
        obtain ⟨first, others, rfl⟩ := List.exists_cons_of_ne_nil given
        have opening : 40 = first := (List.cons.inj same).1
        exact plain.word first (by simp) (opening ▸ by decide)

theorem forest_not_name (trees : List Tree) {name rest more : Text} (plain : PlainName name) (given : name ≠ [])
    (stops : Stops more) : renderForestBefore trees (")" ++ rest) ≠ " " ++ (name ++ more) := by
  intro same
  cases trees with
  | nil => exact absurd (List.cons.inj same).1 (by decide)
  | cons child others =>
      exact child_not_name child plain given (stops_forest others _ (stops_closing rest)) stops
        (List.append_cancel_left same)

theorem spaced_split {name other : Text} {trees others : List Tree} {rest more : Text}
    (same : spaced name ++ renderForestBefore trees (")" ++ rest) = spaced other ++ renderForestBefore others (")" ++ more))
    (plain : PlainName name) (plainOther : PlainName other) :
    name = other ∧ renderForestBefore trees (")" ++ rest) = renderForestBefore others (")" ++ more) := by
  have stops := stops_forest trees _ (stops_closing rest)
  have stopsOther := stops_forest others _ (stops_closing more)
  by_cases absent : name = [] <;> by_cases absentOther : other = []
  · subst absent absentOther
    exact ⟨rfl, same⟩
  · rw [spaced, if_pos absent, spaced, if_neg absentOther, List.append_assoc] at same
    exact absurd same (forest_not_name trees plainOther absentOther stopsOther)
  · rw [spaced, if_neg absent, spaced, if_pos absentOther, List.append_assoc] at same
    exact absurd same.symm (forest_not_name others plain absent stops)
  · rw [spaced, if_neg absent, spaced, if_neg absentOther, List.append_assoc, List.append_assoc] at same
    exact word_split (List.append_cancel_left same) plain.word plainOther.word stops stopsOther

theorem read_leaf (t : Tree) {rest more : Text} (same : TreeKind.empty.name ++ rest = t.renderBefore more) :
    t.shown = .missing ∧ rest = more := by
  cases t with
  | missing => exact ⟨rfl, List.append_cancel_left same⟩
  | node kind name children =>
      by_cases empty : kind = .empty
      · rw [before_empty empty] at same
        exact ⟨by rw [shown, if_pos empty], List.append_cancel_left same⟩
      · rw [before_node empty] at same
        exact absurd (List.cons.inj same).1 (by decide)

mutual
-- By induction on the first tree: the text says where the tree ends, whatever follows it.
theorem read_once : ∀ (t u : Tree) (rest more : Text), t.Plain → u.Plain → t.renderBefore rest = u.renderBefore more →
    t.shown = u.shown ∧ rest = more
  | .missing, u, _, _, _, _, same => by
      obtain ⟨leaf, closed⟩ := read_leaf u same
      exact ⟨leaf.symm, closed⟩
  | .node kind name children, .missing, _, _, _, _, same => by
      obtain ⟨leaf, closed⟩ := read_leaf (.node kind name children) same.symm
      exact ⟨leaf, closed.symm⟩
  | .node kind name children, .node otherKind otherName others, rest, more, plain, plainOther, same => by
      by_cases empty : kind = .empty
      · rw [before_empty empty] at same
        obtain ⟨leaf, closed⟩ := read_leaf _ same
        exact ⟨by rw [leaf, shown, if_pos empty], closed⟩
      by_cases emptyOther : otherKind = .empty
      · rw [before_empty emptyOther] at same
        obtain ⟨leaf, closed⟩ := read_leaf _ same.symm
        exact ⟨by rw [leaf, shown, if_pos emptyOther], closed.symm⟩
      rw [before_node empty, before_node emptyOther] at same
      obtain ⟨named, below⟩ := plain empty
      obtain ⟨namedOther, belowOther⟩ := plainOther emptyOther
      obtain ⟨kinds, after⟩ := word_split (List.append_cancel_left same) (word_of_kind kind) (word_of_kind otherKind)
        (stops_spaced name _ (stops_forest children _ (stops_closing rest)))
        (stops_spaced otherName _ (stops_forest others _ (stops_closing more)))
      obtain ⟨names, forests⟩ := spaced_split after named namedOther
      obtain ⟨inside, closed⟩ := read_all_once children others rest more below belowOther forests
      exact ⟨by rw [shown, if_neg empty, shown, if_neg emptyOther, kind_eq_of_name _ _ kinds, names, inside], closed⟩
theorem read_all_once : ∀ (trees others : List Tree) (rest more : Text), PlainAll trees → PlainAll others →
    renderForestBefore trees (")" ++ rest) = renderForestBefore others (")" ++ more) →
    shownAll trees = shownAll others ∧ rest = more
  | [], [], _, _, _, _, same => ⟨rfl, List.append_cancel_left same⟩
  | [], child :: others, rest, more, _, _, same => absurd (List.cons.inj same).1 (by decide)
  | child :: trees, [], rest, more, _, _, same => absurd (List.cons.inj same).1 (by decide)
  | child :: trees, other :: others, rest, more, plain, plainOther, same => by
      obtain ⟨first, after⟩ := read_once child other _ _ plain.1 plainOther.1 (List.append_cancel_left same)
      obtain ⟨later, closed⟩ := read_all_once trees others rest more plain.2 plainOther.2 after
      exact ⟨by rw [shownAll, shownAll, first, later], closed⟩
end

theorem render_eq_iff {t u : Tree} (plain : t.Plain) (plainOther : u.Plain) : t.render = u.render ↔ t.shown = u.shown := by
  constructor
  · intro same
    exact (read_once t u [] [] plain plainOther same).1
  · intro same
    rw [← render_shown t, same, render_shown u]

end Tree

namespace Heap

variable {heap : Heap}

mutual
def Shows (heap : Heap) (ref : Option NodeRef) : Tree → Prop
  | .missing => ∀ place, ref = some place → (heap.get place).kind = .empty
  | .node kind name children => kind ≠ .empty ∧ ∃ place, ref = some place ∧ (heap.get place).kind = kind ∧
      (heap.get place).name = name ∧ ShowsAll heap (heap.get place).children children
def ShowsAll (heap : Heap) (refs : List (Option NodeRef)) : List Tree → Prop
  | [] => refs = []
  | child :: more => ∃ ref others, refs = ref :: others ∧ Shows heap ref child ∧ ShowsAll heap others more
end

mutual
theorem shows_unique : ∀ (t u : Tree) (ref : Option NodeRef), heap.Shows ref t → heap.Shows ref u → t = u
  | .missing, .missing, _, _, _ => rfl
  | .missing, .node _ _ _, _, leaf, ⟨inner, place, here, kinds, _, _⟩ => absurd (kinds ▸ leaf place here) inner
  | .node _ _ _, .missing, _, ⟨inner, place, here, kinds, _, _⟩, leaf => absurd (kinds ▸ leaf place here) inner
  | .node _ _ children, .node _ _ others, _, ⟨_, place, here, kinds, names, below⟩,
      ⟨_, _, there, kindsOther, namesOther, belowOther⟩ => by
      cases here.symm.trans there
      rw [← kinds, ← kindsOther, ← names, ← namesOther, shows_all_unique children others _ below belowOther]
theorem shows_all_unique : ∀ (trees others : List Tree) (refs : List (Option NodeRef)), heap.ShowsAll refs trees →
    heap.ShowsAll refs others → trees = others
  | [], [], _, _, _ => rfl
  | [], _ :: _, _, ends, ⟨_, _, refs, _, _⟩ => absurd (ends.symm.trans refs) (by simp)
  | _ :: _, [], _, ⟨_, _, refs, _, _⟩, ends => absurd (refs.symm.trans ends) (by simp)
  | child :: trees, other :: others, _, ⟨_, _, refs, first, later⟩, ⟨_, _, same, firstOther, laterOther⟩ => by
      cases refs.symm.trans same
      rw [shows_unique child other _ first firstOther, shows_all_unique trees others _ later laterOther]
end

theorem inner_in_heap {place : NodeRef} (inner : (heap.get place).kind ≠ .empty) : place < heap.size := by
  by_contra outside
  rw [heap.get_of_size_le place (Nat.le_of_not_lt outside)] at inner
  exact inner rfl

-- The nodes passed on the way down to a tree: each stands for a larger one, so none is passed twice.
structure Passed (heap : Heap) (t : Tree) (path : List NodeRef) : Prop where
  once : path.Nodup
  within : ∀ place ∈ path, place < heap.size
  larger : ∀ place ∈ path, ∃ u, heap.Shows (some place) u ∧ sizeOf t < sizeOf u

theorem passed_fresh {t : Tree} {path : List NodeRef} {place : NodeRef} (passed : Passed heap t path)
    (shows : heap.Shows (some place) t) : place ∉ path := by
  intro inside
  obtain ⟨u, same, bigger⟩ := passed.larger place inside
  rw [shows_unique t u _ shows same] at bigger
  exact Nat.lt_irrefl _ bigger

theorem passed_room {t : Tree} {path : List NodeRef} {place : NodeRef} (passed : Passed heap t path)
    (shows : heap.Shows (some place) t) (within : place < heap.size) : path.length < heap.size := by
  have once : (place :: path).Nodup := List.nodup_cons.mpr ⟨passed_fresh passed shows, passed.once⟩
  have inside : place :: path ⊆ List.range heap.size := by
    simpa [List.subset_def] using ⟨within, passed.within⟩
  have covered := (List.subperm_of_subset once inside).length_le
  rwa [List.length_cons, List.length_range] at covered

theorem passed_child {t child : Tree} {path : List NodeRef} {place : NodeRef} (passed : Passed heap t path)
    (shows : heap.Shows (some place) t) (within : place < heap.size) (smaller : sizeOf child < sizeOf t) :
    Passed heap child (place :: path) := by
  refine ⟨List.nodup_cons.mpr ⟨passed_fresh passed shows, passed.once⟩,
    List.forall_mem_cons.mpr ⟨within, passed.within⟩, ?_⟩
  refine List.forall_mem_cons.mpr ⟨⟨t, shows, smaller⟩, fun other inside => ?_⟩
  obtain ⟨u, same, bigger⟩ := passed.larger other inside
  exact ⟨u, same, Nat.lt_trans smaller bigger⟩

theorem tree_to_missing (depth : Nat) {ref : Option NodeRef} (shows : heap.Shows ref .missing) :
    (heap.treeTo depth ref).shown = .missing := by
  cases depth with
  | zero => rfl
  | succ depth =>
      cases ref with
      | none => rfl
      | some place => simp [treeTo, Tree.shown, shows place rfl]

mutual
-- With the nodes already passed, the depth left is enough for the nodes not yet passed.
theorem tree_to_shown : ∀ (t : Tree) (ref : Option NodeRef) (depth : Nat) (path : List NodeRef), heap.Shows ref t →
    Passed heap t path → heap.size ≤ depth + path.length → (heap.treeTo depth ref).shown = t
  | .missing, _, depth, _, shows, _, _ => tree_to_missing depth shows
  | .node kind name children, ref, depth, path, shows, passed, enough => by
      obtain ⟨inner, place, rfl, rfl, rfl, below⟩ := id shows
      have within := inner_in_heap inner
      have room := passed_room passed shows within
      cases depth with
      | zero => omega
      | succ depth =>
          have below_passed (child : Tree) (member : child ∈ children) : Passed heap child (place :: path) := by
            have smaller := List.sizeOf_lt_of_mem member
            exact passed_child passed shows within (by simp only [Tree.node.sizeOf_spec]; omega)
          have forest := tree_to_shown_all children (heap.get place).children depth (place :: path) below below_passed
            (by rw [List.length_cons]; omega)
          simp [treeTo, Node.isEmpty, inner, Tree.shown, forest]
theorem tree_to_shown_all : ∀ (trees : List Tree) (refs : List (Option NodeRef)) (depth : Nat) (path : List NodeRef),
    heap.ShowsAll refs trees → (∀ t ∈ trees, Passed heap t path) → heap.size ≤ depth + path.length →
    Tree.shownAll (refs.map (heap.treeTo depth)) = trees
  | [], _, _, _, ends, _, _ => by rw [show _ = [] from ends, List.map_nil, Tree.shownAll]
  | child :: more, _, depth, path, ⟨ref, others, refs, first, later⟩, passed, enough => by
      rw [refs, List.map_cons, Tree.shownAll, tree_to_shown child ref depth path first (passed child (by simp)) enough,
        tree_to_shown_all more others depth path later (fun t member => passed t (by simp [member])) enough]
end

theorem tree_shown {ref : Option NodeRef} {t : Tree} (shows : heap.Shows ref t) : (heap.tree ref).shown = t :=
  tree_to_shown t ref heap.size [] shows ⟨List.nodup_nil, by simp, by simp⟩ (Nat.le_refl _)

theorem text_tells_tree :
    (∀ t u : Tree, t.Plain → u.Plain → (t.render = u.render ↔ t.shown = u.shown)) ∧
    ∀ (heap other : Heap) (ref refOther : Option NodeRef) (t u : Tree), heap.Shows ref t → other.Shows refOther u →
      t.Plain → u.Plain → ((heap.tree ref).render = (other.tree refOther).render ↔ t = u) := by
  refine ⟨fun t u => Tree.render_eq_iff, fun heap other ref refOther t u shows showsOther plain plainOther => ?_⟩
  have first := tree_shown shows
  have second := tree_shown showsOther
  rw [← Tree.render_shown, first, ← Tree.render_shown (other.tree refOther), second, Tree.render_eq_iff plain plainOther]
  rw [← first, ← second, Tree.shown_shown, Tree.shown_shown]

def identBlock : Tree := .node .block [] [.node .ident "x" [], .missing]

def cutBlock : Tree := .node .block [] [.node .ident "x" [], .node .empty "y" [.node .literal "1" []]]

def namedBlock : Tree := .node .block "Ident" []
def parentBlock : Tree := .node .block [] [.node .ident [] []]

-- The block at 2 has an empty node that leads back to the block for its last child, the one at 3 has none.
def blocks : Heap :=
  ((({} : Heap).push { name := "y", children := [some 2] }).push { kind := .ident, name := "x" }).push
    { kind := .block, children := [some 1, some 0] } |>.push { kind := .block, children := [some 1, none] }

theorem text_of_blocks :
    identBlock.render = cutBlock.render ∧ namedBlock.render ≠ parentBlock.render ∧
      (blocks.tree (some 2)).render = (blocks.tree (some 3)).render := by
  obtain ⟨trees, onHeaps⟩ := text_tells_tree
  have unnamed : Tree.PlainName [] := ⟨by decide, by decide⟩
  have x : Tree.PlainName "x" := ⟨by decide, by decide⟩
  have plain : identBlock.Plain := fun _ => ⟨unnamed, fun _ => ⟨x, trivial⟩, trivial, trivial⟩
  refine ⟨?_, ?_, ?_⟩
  · have plainCut : cutBlock.Plain := fun _ => ⟨unnamed, fun _ => ⟨x, trivial⟩, fun inner => absurd rfl inner, trivial⟩
    exact (trees _ _ plain plainCut).mpr (by simp [identBlock, cutBlock, Tree.shown, Tree.shownAll])
  · have plainNamed : namedBlock.Plain := fun _ => ⟨⟨by decide, by decide⟩, trivial⟩
    have plainParent : parentBlock.Plain := fun _ => ⟨unnamed, fun _ => ⟨unnamed, trivial⟩, trivial⟩
    rw [Ne, trees _ _ plainNamed plainParent]
    simp [namedBlock, parentBlock, Tree.shown, Tree.shownAll]
  · have ident : blocks.Shows (some 1) (.node .ident "x" []) := ⟨by decide, 1, rfl, rfl, rfl, rfl⟩
    have empty : blocks.Shows (some 0) .missing := by
      rintro place ⟨⟩
      rfl
    have absent : blocks.Shows none .missing := by
      rintro place ⟨⟩
    have looping : blocks.Shows (some 2) identBlock :=
      ⟨by decide, 2, rfl, rfl, rfl, _, _, rfl, ident, _, _, rfl, empty, rfl⟩
    have ending : blocks.Shows (some 3) identBlock :=
      ⟨by decide, 3, rfl, rfl, rfl, _, _, rfl, ident, _, _, rfl, absent, rfl⟩
    exact (onHeaps blocks blocks _ _ _ _ looping ending plain plain).mpr rfl

-- A name that is the text of the empty leaf reads as a child.
example : (Tree.node .block "EmptyTree" []).render = (Tree.node .block [] [.missing]).render := by cbv

end Heap

end UnitRegistry
