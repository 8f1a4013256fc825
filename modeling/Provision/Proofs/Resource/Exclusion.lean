import Mathlib.Logic.Relation
import Provision.Proofs.Resource.Insertion
import Provision.Proofs.Resource.Walk

/-!
# What is left out of a dependency

A registration leaves its own resource out of what it depends on. The walk never visits that
resource, so it does not come from there to anything below it either: in an arena that grew by
insertions every child has one parent, and so the only way down to the child leads through it.
But a walk may also start below the resource that is left out, and then it finds what is there
(`below_excluded_iff`).
-/

namespace Provision.Arena

open Relation

variable {arena : Arena} {excluded : Key}

/-- Insertions lead to the arena, with any parents. URNs are indexed in between. -/
inductive Grown : Arena → Prop where
  | empty : Grown .empty
  | insert {arena : Arena} (before : Grown arena) (inheritance : Inheritance)
      (identity : Key → Identity) : Grown (arena.insert inheritance identity).2
  | recordUrn {arena : Arena} (before : Grown arena) (key : Key) (urn : String) :
      Grown (arena.recordUrn key urn)

/-- The second resource stands below the first: parent links lead up to it. -/
def Below (arena : Arena) (above below : Key) : Prop :=
  TransGen (fun child parent => arena.parentOf child = some parent) below above

theorem parentOf_eq_some {child parent : Key} :
    arena.parentOf child = some parent ↔
      (∃ node, arena.node? child = some node ∧ node.inheritance.parent = some parent) ∧
        (arena.node? parent).isSome = true := by
  unfold parentOf
  simp only [bind, Option.bind_eq_some_iff, Option.some.injEq, Option.isSome_iff_exists]
  constructor
  · rintro ⟨node, here, other, up, above, there, rfl⟩
    exact ⟨⟨node, here, up⟩, above, there⟩
  · rintro ⟨⟨node, here, up⟩, above, there⟩
    exact ⟨node, here, parent, up, above, there, rfl⟩

/-- A child stays below its parent when more is inserted. -/
theorem parentOf_insert {child parent : Key} (inheritance : Inheritance)
    (identity : Key → Identity) (above : arena.parentOf child = some parent) :
    (arena.insert inheritance identity).2.parentOf child = some parent := by
  have kept {key : Key} {node : Node} (here : arena.node? key = some node) :
      ∃ node', (arena.insert inheritance identity).2.node? key = some node' ∧
        node'.inheritance = node.inheritance := by
    have less : key ≠ arena.size :=
      Nat.ne_of_lt (List.getElem?_eq_some_iff.mp here).1
    rw [node?_insert, if_neg less, here]
    split
    · exact ⟨_, rfl, rfl⟩
    · exact ⟨_, rfl, rfl⟩
  obtain ⟨⟨node, here, up⟩, there⟩ := parentOf_eq_some.mp above
  obtain ⟨node', here', same⟩ := kept here
  obtain ⟨above, there⟩ := Option.isSome_iff_exists.mp there
  obtain ⟨above', there', -⟩ := kept there
  exact parentOf_eq_some.mpr ⟨⟨node', here', same ▸ up⟩, by simp [there']⟩

/-- Every child that a node has is one whose parent it is. -/
theorem Grown.parentOf_child (grown : Grown arena) {key child : Key} {node : Node}
    (here : arena.node? key = some node) (member : child ∈ node.children) :
    arena.parentOf child = some key := by
  induction grown generalizing key child node with
  | empty => cases here
  | recordUrn _ _ _ ih => exact ih here member
  | @insert arena before inheritance identity ih =>
    rw [node?_insert] at here
    split at here
    · cases here
      cases member
    · rename_i old
      split at here
      · rename_i parent
        obtain ⟨node, there, rfl⟩ := Option.map_eq_some_iff.mp here
        rcases List.mem_append.mp member with member | new
        · exact parentOf_insert inheritance identity (ih there member)
        · obtain rfl := List.mem_singleton.mp new
          refine parentOf_eq_some.mpr ⟨⟨_, by rw [node?_insert, if_pos rfl], parent⟩, ?_⟩
          simp [node?_insert, old, parent, there]
      · exact parentOf_insert inheritance identity (ih here member)

theorem Grown.parentOf_expansion (grown : Grown arena) {key child : Key}
    (member : child ∈ arena.expansion key) : arena.parentOf child = some key := by
  unfold expansion at member
  split at member
  · rename_i node here
    split at member
    · exact grown.parentOf_child here member
    · cases member
  · cases member

/-- The only way up from a child is its parent. -/
theorem Below.up {child parent : Key} (below : arena.Below excluded child)
    (above : arena.parentOf child = some parent) :
    parent = excluded ∨ arena.Below excluded parent := by
  obtain ⟨next, up, rest⟩ := TransGen.head'_iff.mp below
  obtain rfl : parent = next := Option.some.inj (above.symm.trans up)
  exact (reflTransGen_iff_eq_or_transGen.mp rest).imp Eq.symm id

/-- What is reached below the excluded resource is reached from below it. -/
theorem Grown.below_of_reaches (grown : Grown arena) {root key : Key}
    (path : Reaches arena (some excluded) root key) :
    arena.Below excluded key ↔ arena.Below excluded root := by
  induction path with
  | here => rfl
  | child present member _ ih =>
    have above := grown.parentOf_expansion member
    refine ih.trans ⟨fun below => ?_, fun below => .head above below⟩
    exact (below.up above).resolve_left fun same => present (congrArg some same)

/-- The excluded resource is never among the dependencies, and a resource below it is found exactly
if it is found from a root that is below the excluded resource itself. -/
theorem below_excluded_iff (grown : Grown arena) (roots : List Key) (excluded : Key) :
    excluded ∉ arena.transitiveDependencies roots (some excluded) ∧
    ∀ key, (key ∈ arena.transitiveDependencies roots (some excluded) ∧ arena.Below excluded key) ↔
      ∃ root ∈ roots, arena.Below excluded root ∧
        key ∈ arena.transitiveDependencies [root] (some excluded) := by
  refine ⟨fun found => ?_, fun key => ?_⟩
  · obtain ⟨-, root, -, path⟩ := mem_transitiveDependencies.mp found
    exact path.last_ne rfl
  · simp only [mem_transitiveDependencies, List.mem_singleton, exists_eq_left]
    constructor
    · rintro ⟨⟨dependable, root, member, path⟩, below⟩
      exact ⟨root, member, (grown.below_of_reaches path).mp below, dependable, path⟩
    · rintro ⟨root, member, below, dependable, path⟩
      exact ⟨⟨dependable, root, member, path⟩, (grown.below_of_reaches path).mpr below⟩

/-- A group with a group in it, which has a member, and a member of the outer group. -/
def grove : Arena :=
  let add (kind : ResourceKind) (parent : Option Key) (arena : Arena) : Arena :=
    (arena.insert { parent } fun _ =>
      { type := "pkg:index:Thing", name := "thing", kind, urn := .create "urn:thing" }).2
  .empty |> add .component none |> add .component (some 0) |> add .custom (some 1)
    |> add .custom (some 0)

theorem grove_grown : Grown grove :=
  (((Grown.empty.insert _ _).insert _ _).insert _ _).insert _ _

/-- The member of the inner group is found although that group is left out, since the walk starts
from the member too. -/
theorem below_excluded_iff_grove :
    Grown grove ∧ grove.transitiveDependencies [0] (some 1) = [3] ∧
      grove.transitiveDependencies [0, 2] (some 1) = [2, 3] ∧
      ∃ root ∈ [0, 2], grove.Below 1 root ∧ 2 ∈ grove.transitiveDependencies [root] (some 1) := by
  have below : grove.Below 1 2 := .single rfl
  have found : 2 ∈ grove.transitiveDependencies [0, 2] (some 1) := by decide
  exact ⟨grove_grown, by decide, by decide,
    ((below_excluded_iff grove_grown [0, 2] 1).2 2).mp ⟨found, below⟩⟩

/-- Leaving a resource out does not leave out all that is below it. -/
theorem found_below_excluded :
    ¬ ∀ (arena : Arena) (roots : List Key) (excluded : Key), Grown arena →
      ∀ key ∈ arena.transitiveDependencies roots (some excluded),
        key ≠ excluded ∧ ¬ arena.Below excluded key := by
  intro apart
  exact (apart grove [2] 1 grove_grown 2 (by decide)).2 (.single rfl)

end Provision.Arena
