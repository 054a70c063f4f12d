/- # Proviso.Proofs.Grammar.Nodes -- the phrases in a tree

A tree holds phrases within phrases, each before its parts and before those that stand behind it
(`Tree.nodes`).  Two things hold of every phrase in the trees of a derivation.  It is derived itself,
from its own form and at its own place in the text (`Grammar.Derived`), so that what is shown of one
phrase and its parts holds at any depth.  And words come in the order in which they stand in the text
(`Grammar.Derives.ascends`).

Which phrases can be the parts of which is read off the forms (`Grammar.PartNames`). -/
import Proviso.Proofs.Grammar.Finding

namespace Proviso

set_option autoImplicit false

variable {Name : Type}

theorem Cursor.Reaches.offset_le {start stop : Cursor} (reaches : start.Reaches stop) :
    start.offset ≤ stop.offset := by
  rw [reaches.offset_eq]
  exact Nat.le_add_right _ _

theorem Cursor.Reaches.offset_lt {start stop : Cursor} (reaches : start.Reaches stop)
    (takes : stop.rest.length < start.rest.length) : start.offset < stop.offset := by
  obtain ⟨chars, rest, offset⟩ := reaches
  rw [rest, List.length_append] at takes
  omega

/-! ## Trees -/

namespace Tree

mutual

def nodes : Tree Name → List (Tree Name)
  | .node name offset text parts => .node name offset text parts :: nodesOf parts

def nodesOf : List (Tree Name) → List (Tree Name)
  | [] => []
  | tree :: rest => tree.nodes ++ nodesOf rest

end

theorem nodesOf_append (first second : List (Tree Name)) :
    nodesOf (first ++ second) = nodesOf first ++ nodesOf second := by
  induction first with
  | nil => rfl
  | cons tree rest ih => rw [List.cons_append, nodesOf, ih, nodesOf, List.append_assoc]

theorem nodesOf_singleton (name : Name) (offset : Nat) (text : List Char)
    (parts : List (Tree Name)) :
    nodesOf [.node name offset text parts] = .node name offset text parts :: nodesOf parts :=
  List.append_nil _

mutual

/-- A phrase in a tree is the whole tree, or a part of a phrase in the tree. -/
theorem parent_of_mem_nodes {node : Tree Name} : ∀ {tree : Tree Name}, node ∈ tree.nodes →
    node = tree ∨ ∃ parent ∈ tree.nodes, node ∈ parent.children
  | .node name offset text parts, listed => by
    rcases List.mem_cons.mp listed with whole | within
    · exact .inl whole
    · rcases parent_of_mem_nodesOf within with part | ⟨parent, inner, part⟩
      · exact .inr ⟨_, List.mem_cons_self, part⟩
      · exact .inr ⟨parent, List.mem_cons_of_mem _ inner, part⟩

theorem parent_of_mem_nodesOf {node : Tree Name} : ∀ {trees : List (Tree Name)},
    node ∈ nodesOf trees → node ∈ trees ∨ ∃ parent ∈ nodesOf trees, node ∈ parent.children
  | tree :: rest, listed => by
    rcases List.mem_append.mp listed with first | later
    · rcases parent_of_mem_nodes first with whole | ⟨parent, inner, part⟩
      · exact .inl (whole ▸ List.mem_cons_self)
      · exact .inr ⟨parent, List.mem_append_left _ inner, part⟩
    · rcases parent_of_mem_nodesOf later with whole | ⟨parent, inner, part⟩
      · exact .inl (List.mem_cons_of_mem _ whole)
      · exact .inr ⟨parent, List.mem_append_right _ inner, part⟩

end

mutual

/-- The phrases within the parts of a phrase come in the order in which the tree has them. -/
theorem sublist_of_mem_nodes {node : Tree Name} : ∀ {tree : Tree Name}, node ∈ tree.nodes →
    (nodesOf node.children).Sublist tree.nodes
  | .node name offset text parts, listed => by
    rcases List.mem_cons.mp listed with rfl | within
    · exact List.sublist_cons_self _ _
    · exact (sublist_of_mem_nodesOf within).cons _

theorem sublist_of_mem_nodesOf {node : Tree Name} : ∀ {trees : List (Tree Name)},
    node ∈ nodesOf trees → (nodesOf node.children).Sublist (nodesOf trees)
  | tree :: rest, listed => by
    rcases List.mem_append.mp listed with first | later
    · exact (sublist_of_mem_nodes first).trans (List.sublist_append_left _ _)
    · exact (sublist_of_mem_nodesOf later).trans (List.sublist_append_right _ _)

end

end Tree

open Proviso.Tree

/-! ## The names of parts -/

/-- The phrases that a form may find, given those that each phrase may be found as. -/
def Form.partNames (found : Name → List Name) : Form Name → List Name
  | .text _ | .textAnyCase _ | .char _ | .startOfInput | .endOfInput | .notAhead _ => []
  | .phrase name => found name
  | .seq first second | .choice first second => first.partNames found ++ second.partNames found
  | .optional form | .many form => form.partNames found

/-- What each phrase may be found as: itself if it is a node of the tree, and otherwise what is found
in its place.  Nothing is found within words. -/
structure Grammar.PartNames (grammar : Grammar Name) where
  found : Name → List Name
  of_named : ∀ name, grammar.mode name ≠ .silent → name ∈ found name
  of_silent : ∀ name, grammar.mode name = .silent →
    (grammar.form name).partNames found ⊆ found name
  of_atomic : ∀ name, grammar.mode name = .atomic → (grammar.form name).partNames found = []

namespace Grammar

variable {grammar : Grammar Name} {ahead : Form Name → Context → Cursor → Prop}
  {context : Context} {cursor start : Cursor} {found : Found Name}

/-- A phrase is found as what its form found, or as a node over it. -/
theorem present_cases (name : Name) (context : Context) (cursor : Cursor) (found : Found Name) :
    grammar.present name context cursor found = found ∧
        (grammar.mode name = .silent ∨ isNode context = false) ∨
      (grammar.present name context cursor found).trees =
          [.node name cursor.offset (cursor.textTo found.cursor) found.trees] ∧
        grammar.mode name ≠ .silent ∧
        (grammar.mode name = .atomic ∨ isNode (grammar.inside name context) = true) := by
  unfold present inside
  cases mode_eq : grammar.mode name with
  | silent => exact .inl ⟨rfl, .inl rfl⟩
  | plain =>
    cases node : isNode context with
    | false => exact .inl ⟨rfl, .inr rfl⟩
    | true => exact .inr ⟨rfl, by decide, .inr rfl⟩
  | atomic =>
    cases node : isNode context with
    | false => exact .inl ⟨rfl, .inr rfl⟩
    | true => exact .inr ⟨rfl, by decide, .inl rfl⟩
  | compound =>
    cases node : isNode { context with spacing := .compound } with
    | false =>
      refine .inl ⟨rfl, .inr ?_⟩
      simp only [isNode] at node ⊢
      simp_all
    | true => exact .inr ⟨rfl, by decide, .inr rfl⟩

/-- A phrase that is a node is found as one tree. -/
theorem tree_of_derives {name : Name} (named : grammar.mode name ≠ .silent)
    (node : isNode context = true)
    (derives : Derives grammar ahead (.phrase name) context cursor found) :
    ∃ parts, found.trees = [.node name cursor.offset (cursor.textTo found.cursor) parts] := by
  obtain ⟨inner, -, rfl⟩ := derives_phrase.mp derives
  rw [present_cursor]
  rcases present_cases name context cursor inner with ⟨-, silent | no_node⟩ | ⟨tree, -⟩
  · exact absurd silent named
  · rw [node] at no_node
    cases no_node
  · exact ⟨inner.trees, tree⟩

theorem or_nil_of_append {visible : Prop} {first second : List Name}
    (either : visible ∨ first ++ second = []) :
    (visible ∨ first = []) ∧ (visible ∨ second = []) := by
  rcases either with seen | none_found
  · exact ⟨.inl seen, .inl seen⟩
  · obtain ⟨none_first, none_second⟩ := List.append_eq_nil_iff.mp none_found
    exact ⟨.inr none_first, .inr none_second⟩

mutual

/-- What a form finds bears the names that are read off the form. -/
theorem Derives.partNames (names : grammar.PartNames) {form : Form Name} {context : Context}
    {cursor : Cursor} {found : Found Name} : Derives grammar ahead form context cursor found →
      isNode context = true ∨ form.partNames names.found = [] →
      ∀ tree ∈ found.trees, tree.name ∈ form.partNames names.found
  | .text _, _ | .textAnyCase _ _, _ | .char _ _, _ | .startOfInput _, _ | .endOfInput _, _
  | .omitted, _ | .noRound, _ | .notAhead _, _ => fun _ listed => absurd listed List.not_mem_nil
  | @Derives.phrase _ _ _ name context cursor found inner, visible => by
    have inner_names := inner.partNames names
    intro tree listed
    rcases present_cases name context cursor found with ⟨same, kind⟩ | ⟨node, named, -⟩
    · rw [same] at listed
      have silent : grammar.mode name = .silent := by
        by_contra named
        rcases visible with node | none_found
        · rw [kind.resolve_left named] at node
          cases node
        · exact List.ne_nil_of_mem (names.of_named name named) none_found
      rw [grammar.inside_silent silent] at inner_names
      have within := names.of_silent name silent
      have inner_visible := visible.imp_right fun none_found : names.found name = [] =>
        List.eq_nil_of_subset_nil (none_found ▸ within)
      exact within (inner_names inner_visible tree listed)
    · rw [node] at listed
      cases List.mem_singleton.mp listed
      exact names.of_named name named
  | .seq front _ back, visible => by
    obtain ⟨front_visible, back_visible⟩ := or_nil_of_append visible
    intro tree listed
    rcases List.mem_append.mp listed with first | later
    · exact List.mem_append_left _ (front.partNames names front_visible tree first)
    · exact List.mem_append_right _ (back.partNames names back_visible tree later)
  | .first inner, visible => fun tree listed =>
    List.mem_append_left _ (inner.partNames names (or_nil_of_append visible).1 tree listed)
  | .second inner, visible => fun tree listed =>
    List.mem_append_right _ (inner.partNames names (or_nil_of_append visible).2 tree listed)
  | .given inner, visible => inner.partNames names visible
  | .rounds inner, visible => inner.partNames names visible

theorem Rounds.partNames (names : grammar.PartNames) {form : Form Name} {context : Context}
    {cursor : Cursor} {found : Found Name} : Rounds grammar ahead form context cursor found →
      isNode context = true ∨ form.partNames names.found = [] →
      ∀ tree ∈ found.trees, tree.name ∈ form.partNames names.found
  | .last inner, visible => inner.partNames names visible
  | .more front _ back, visible => by
    intro tree listed
    rcases List.mem_append.mp listed with first | later
    · exact front.partNames names visible tree first
    · exact back.partNames names visible tree later

end

/-- A form that names no parts finds none. -/
theorem Derives.no_parts (names : grammar.PartNames) {form : Form Name}
    (none_named : form.partNames names.found = [])
    (derives : Derives grammar ahead form context cursor found) : found.trees = [] :=
  List.eq_nil_iff_forall_not_mem.mpr fun part listed =>
    List.ne_nil_of_mem (derives.partNames names (.inr none_named) part listed) none_named

/-! ## Every phrase in a tree -/

/-- A node of a text that starts at a place: its phrase is derived from its form, at its place. -/
inductive Derived (grammar : Grammar Name) (ahead : Form Name → Context → Cursor → Prop)
    (start : Cursor) : Tree Name → Prop where
  | of {name : Name} {context : Context} {cursor : Cursor} {inner : Found Name}
      (derives : Derives grammar ahead (grammar.form name) (grammar.inside name context) cursor
        inner)
      (named : grammar.mode name ≠ .silent)
      (visible : grammar.mode name = .atomic ∨ isNode (grammar.inside name context) = true)
      (reaches : start.Reaches cursor) :
      Derived grammar ahead start
        (.node name cursor.offset (cursor.textTo inner.cursor) inner.trees)

/-- The parts of a node bear the names that are read off its form. -/
theorem Derived.partNames (names : grammar.PartNames) {node : Tree Name}
    (derived : Derived grammar ahead start node) :
    ∀ part ∈ node.children, part.name ∈ (grammar.form node.name).partNames names.found := by
  cases derived with
  | of derives _ visible _ =>
    have visible_parts := visible.symm.imp_right (names.of_atomic _)
    exact derives.partNames names visible_parts

mutual

theorem Derives.nodes_derived (ranking : grammar.Ranking) {form : Form Name} {context : Context}
    {cursor : Cursor} {found : Found Name} : Derives grammar ahead form context cursor found →
      start.Reaches cursor → ∀ node ∈ nodesOf found.trees, Derived grammar ahead start node
  | .text _, _ | .textAnyCase _ _, _ | .char _ _, _ | .startOfInput _, _ | .endOfInput _, _
  | .omitted, _ | .noRound, _ | .notAhead _, _ => fun _ listed => absurd listed List.not_mem_nil
  | @Derives.phrase _ _ _ name context cursor found inner, reaches => by
    have within := inner.nodes_derived ranking reaches
    rcases present_cases name context cursor found with ⟨same, -⟩ | ⟨node, named, visible⟩
    · rwa [same]
    · rw [node, nodesOf_singleton]
      exact List.forall_mem_cons.mpr ⟨.of inner named visible reaches, within⟩
  | .seq front blanks back, reaches => by
    have onward := (reaches.trans (front.advances ranking).1).trans blanks.reaches
    rw [nodesOf_append]
    exact List.forall_mem_append.mpr
      ⟨front.nodes_derived ranking reaches, back.nodes_derived ranking onward⟩
  | .first inner, reaches | .second inner, reaches | .given inner, reaches =>
    inner.nodes_derived ranking reaches
  | .rounds inner, reaches => inner.nodes_derived ranking reaches

/-- Every phrase in the trees of a derivation is derived. -/
theorem Rounds.nodes_derived (ranking : grammar.Ranking) {form : Form Name} {context : Context}
    {cursor : Cursor} {found : Found Name} : Rounds grammar ahead form context cursor found →
      start.Reaches cursor → ∀ node ∈ nodesOf found.trees, Derived grammar ahead start node
  | .last inner, reaches => inner.nodes_derived ranking reaches
  | .more front blanks back, reaches => by
    have onward := (reaches.trans (front.advances ranking).1).trans blanks.reaches
    rw [nodesOf_append]
    exact List.forall_mem_append.mpr
      ⟨front.nodes_derived ranking reaches, back.nodes_derived ranking onward⟩

end

/-! ## The order of words -/

/-- The nodes stand between two places, in the order of the text. -/
structure Ascend (start stop : Nat) (nodes : List (Tree Name)) : Prop where
  sorted : nodes.Pairwise fun earlier later => earlier.offset < later.offset
  within : ∀ node ∈ nodes, start ≤ node.offset ∧ node.offset < stop

namespace Ascend

theorem nil (start stop : Nat) : Ascend start stop ([] : List (Tree Name)) :=
  ⟨.nil, fun _ listed => absurd listed List.not_mem_nil⟩

theorem append {start middle place stop : Nat} {first second : List (Tree Name)}
    (before : Ascend start middle first) (between : middle ≤ place)
    (onward : start ≤ middle ∧ place ≤ stop) (behind : Ascend place stop second) :
    Ascend start stop (first ++ second) := by
  refine ⟨List.pairwise_append.mpr ⟨before.sorted, behind.sorted, ?_⟩,
    List.forall_mem_append.mpr ⟨?_, ?_⟩⟩
  · intro earlier listed later listed'
    have earlier_within := before.within earlier listed
    have later_within := behind.within later listed'
    omega
  · intro node listed
    have node_within := before.within node listed
    omega
  · intro node listed
    have node_within := behind.within node listed
    omega

end Ascend

/-- Phrases that have no parts and take a character. -/
def Words (names : grammar.PartNames) (ranking : grammar.Ranking) (chosen : Name → Bool) : Prop :=
  ∀ name, chosen name = true → (grammar.form name).partNames names.found = [] ∧
    (grammar.form name).mayBeEmpty ranking.empty = false

mutual

theorem Derives.ascends (names : grammar.PartNames) (ranking : grammar.Ranking)
    {chosen : Name → Bool} (words : Words names ranking chosen) {form : Form Name}
    {context : Context} {cursor : Cursor} {found : Found Name} :
    Derives grammar ahead form context cursor found →
      Ascend cursor.offset found.cursor.offset
        ((nodesOf found.trees).filter fun node => chosen node.name)
  | .text _ | .textAnyCase _ _ | .char _ _ | .startOfInput _ | .endOfInput _ | .omitted | .noRound
  | .notAhead _ => .nil _ _
  | @Derives.phrase _ _ _ name context cursor found inner => by
    have within := inner.ascends names ranking words
    rw [present_cursor]
    rcases present_cases name context cursor found with ⟨same, -⟩ | ⟨node, -, -⟩
    · rwa [same]
    · rw [node, nodesOf_singleton]
      cases is_chosen : chosen name with
      | false =>
        rw [List.filter_cons_of_neg (by simp [Tree.name, is_chosen])]
        exact within
      | true =>
        obtain ⟨no_names, some_char⟩ := words name is_chosen
        obtain ⟨reaches, takes⟩ := inner.advances ranking
        rw [List.filter_cons_of_pos (by simp [Tree.name, is_chosen]), inner.no_parts names no_names]
        refine ⟨List.pairwise_singleton _ _, fun _ listed => ?_⟩
        cases List.mem_singleton.mp listed
        exact ⟨Nat.le_refl _, reaches.offset_lt (takes some_char)⟩
  | .seq front blanks back => by
    rw [nodesOf_append, List.filter_append]
    exact (front.ascends names ranking words).append blanks.reaches.offset_le
      ⟨(front.advances ranking).1.offset_le, (back.advances ranking).1.offset_le⟩
      (back.ascends names ranking words)
  | .first inner | .second inner | .given inner => inner.ascends names ranking words
  | .rounds inner => inner.ascends names ranking words

/-- Words come in the trees of a derivation as they come in the text. -/
theorem Rounds.ascends (names : grammar.PartNames) (ranking : grammar.Ranking)
    {chosen : Name → Bool} (words : Words names ranking chosen) {form : Form Name}
    {context : Context} {cursor : Cursor} {found : Found Name} :
    Rounds grammar ahead form context cursor found →
      Ascend cursor.offset found.cursor.offset
        ((nodesOf found.trees).filter fun node => chosen node.name)
  | .last inner => inner.ascends names ranking words
  | .more front blanks back => by
    rw [nodesOf_append, List.filter_append]
    exact (front.ascends names ranking words).append blanks.reaches.offset_le
      ⟨(front.advances ranking).1.offset_le, (back.advances ranking).1.offset_le⟩
      (back.ascends names ranking words)

end

end Grammar

end Proviso
