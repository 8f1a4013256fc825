import Provision.Resource.Arena

/-!
# What an insertion changes

A new node takes the next key and becomes the last child of its parent, and nothing else changes
(`node?_insert`). So every resource keeps its identity, its parent and what its children inherit.
-/

namespace Provision.Arena

variable {arena : Arena} {key : Key} {identity : Identity}

theorem lt_of_identity? (here : arena.identity? key = some identity) : key < arena.size := by
  obtain ⟨node, found, -⟩ := Option.map_eq_some_iff.mp here
  exact (List.getElem?_eq_some_iff.mp found).1

/-- The new node takes the next key and becomes a child of its parent, and nothing else changes. -/
theorem node?_insert (arena : Arena) (inheritance : Inheritance) (new : Key → Identity)
    (key : Key) :
    (arena.insert inheritance new).2.node? key =
      if key = arena.size then some ⟨new arena.size, inheritance, []⟩
      else if inheritance.parent = some key then (arena.node? key).map (Node.adopt arena.size)
      else arena.node? key := by
  have last (nodes : List Node) (length : nodes.length = arena.size) (node : Node) :
      (nodes ++ [node])[key]? = if key = arena.size then some node else nodes[key]? := by
    rcases Nat.lt_trichotomy key arena.size with less | rfl | more
    · rw [List.getElem?_append_left (by omega), if_neg (Nat.ne_of_lt less)]
    · simp [← length]
    · rw [List.getElem?_eq_none (by simp; omega), if_neg (Nat.ne_of_gt more),
        List.getElem?_eq_none (by omega)]
  unfold insert
  cases inheritance.parent with
  | none => exact last arena.nodes rfl _
  | some parent =>
    refine (last _ (List.length_modify ..) _).trans ?_
    rw [List.getElem?_modify]
    by_cases same : parent = key <;> simp [same, node?, size]

/-- A node that adopts a child keeps what does not concern its children. -/
theorem map_node?_insert {α : Type} (f : Node → α)
    (keeps : ∀ child node, f (Node.adopt child node) = f node) (inheritance : Inheritance)
    (new : Key → Identity) :
    ((arena.insert inheritance new).2.node? key).map f =
      if key = arena.size then some (f ⟨new arena.size, inheritance, []⟩)
      else (arena.node? key).map f := by
  rw [node?_insert]
  split
  · rfl
  · split
    · rw [Option.map_map]
      exact congrArg (Option.map · _) (funext fun node => keeps arena.size node)
    · rfl

/-- Inserting a resource leaves the identities of the others. -/
theorem identity?_insert (inheritance : Inheritance) (new : Key → Identity)
    (here : arena.identity? key = some identity) :
    (arena.insert inheritance new).2.identity? key = some identity := by
  unfold identity?
  rw [map_node?_insert _ fun _ _ => rfl, if_neg (Nat.ne_of_lt (lt_of_identity? here))]
  exact here

/-- The new resource takes the next key. -/
theorem identity?_insert_self (arena : Arena) (inheritance : Inheritance)
    (new : Key → Identity) :
    (arena.insert inheritance new).2.identity? arena.nodes.length =
      some (new arena.nodes.length) :=
  (map_node?_insert Node.identity (fun _ _ => rfl) inheritance new).trans (if_pos rfl)

/-- Apart from it, only the old resources are there. -/
theorem identity?_of_insert {inheritance : Inheritance} {new : Key → Identity}
    (here : (arena.insert inheritance new).2.identity? key = some identity) :
    key = arena.size ∧ identity = new arena.size ∨ arena.identity? key = some identity := by
  unfold identity? at here
  rw [map_node?_insert _ fun _ _ => rfl] at here
  split at here
  · rename_i newest
    exact .inl ⟨newest, (Option.some.inj here).symm⟩
  · exact .inr here

@[simp] theorem identity?_recordUrn (arena : Arena) (key other : Key) (urn : String) :
    (arena.recordUrn key urn).identity? other = arena.identity? other := rfl

/-- A new resource hands down what it is inserted with, and the others what they did before. -/
theorem inheritance_insert (arena : Arena) (inheritance : Inheritance) (new : Key → Identity)
    (key : Key) :
    (arena.insert inheritance new).2.inheritance key =
      if key = arena.size then inheritance else arena.inheritance key := by
  unfold Arena.inheritance
  rw [map_node?_insert _ fun _ _ => rfl]
  split <;> rfl

@[simp] theorem inheritance_recordUrn (arena : Arena) (key other : Key) (urn : String) :
    (arena.recordUrn key urn).inheritance other = arena.inheritance other := rfl

end Provision.Arena
