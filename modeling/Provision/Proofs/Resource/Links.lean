import Provision.Proofs.Fields
import Provision.Proofs.Resource.Exclusion

/-!
# Parents and children

A node says which parent it was inserted below, and the parent lists it among its children. Both are
written by the same insertion, and no other operation writes either, so they say the same. Every
node can be read off the insertions that led to the arena: it is the one at the position of its key,
and its children are the keys of the insertions below it, in their order (`LeadsTo.node?_eq`). All
that the links have to fulfil follows from this (`LeadsTo.linked`, `links_in_step`). URNs are
recorded without a look at the nodes: the index leads to nodes if the keys are those of nodes, and
a key of another arena is recorded just as well (`foreign_key_leads_nowhere`).
-/

namespace Provision.Arena

/-- What a node is inserted with. -/
structure Insertion where
  inheritance : Inheritance
  identity : Key → Identity

def Insertion.parent (insertion : Insertion) : Option Key := insertion.inheritance.parent

/-- One more node, with its key. -/
def add (arena : Arena) (next : Insertion) : Key × Arena :=
  arena.insert next.inheritance next.identity

/-- The insertions, in their order, and the records of URNs, the latest first, lead to the arena.
Every parent was inserted before. For which keys a URN may be recorded in the arena as it then is,
is told by `mayRecord`. -/
inductive LeadsTo (mayRecord : Arena → Key → Prop) :
    List Insertion → List (String × Key) → Arena → Prop where
  | empty : LeadsTo mayRecord [] [] .empty
  | add {insertions : List Insertion} {records : List (String × Key)} {arena : Arena}
      (before : LeadsTo mayRecord insertions records arena) (next : Insertion)
      (earlier : ∀ parent ∈ next.parent, parent < arena.size) :
      LeadsTo mayRecord (insertions ++ [next]) records (arena.add next).2
  | recordUrn {insertions : List Insertion} {records : List (String × Key)} {arena : Arena}
      (before : LeadsTo mayRecord insertions records arena) {key : Key}
      (may : mayRecord arena key) (urn : String) :
      LeadsTo mayRecord insertions ((urn, key) :: records) (arena.recordUrn key urn)

/-- Any key, also one that the arena has not given out. -/
def AnyKey (_ : Arena) (_ : Key) : Prop := True

/-- A key of a node that is there. -/
def OwnKey (arena : Arena) (key : Key) : Prop := key < arena.size

instance (arena : Arena) (key : Key) : Decidable (OwnKey arena key) :=
  inferInstanceAs (Decidable (key < arena.size))

/-- The keys of the insertions below a node, in their order. -/
def childKeys (insertions : List Insertion) (parent : Key) : List Key :=
  (List.range insertions.length).filter fun key =>
    insertions[key]?.bind Insertion.parent = some parent

variable {arena : Arena} {insertions : List Insertion} {records : List (String × Key)}
  {mayRecord : Arena → Key → Prop}

theorem mem_childKeys {parent child : Key} :
    child ∈ childKeys insertions parent ↔
      insertions[child]?.bind Insertion.parent = some parent := by
  unfold childKeys
  rw [List.mem_filter, decide_eq_true_iff, List.mem_range, and_iff_right_iff_imp]
  intro below
  obtain ⟨made, found, -⟩ := Option.bind_eq_some_iff.mp below
  exact (List.getElem?_eq_some_iff.mp found).1

theorem childKeys_ascend (insertions : List Insertion) (parent : Key) :
    (childKeys insertions parent).Pairwise (· < ·) :=
  List.pairwise_lt_range.filter _

/-- One more insertion adds its key to the children of its parent. -/
theorem childKeys_append (insertions : List Insertion) (next : Insertion) (parent : Key) :
    childKeys (insertions ++ [next]) parent = childKeys insertions parent ++
      if next.parent = some parent then [insertions.length] else [] := by
  have old : ∀ key ∈ List.range insertions.length,
      (insertions ++ [next])[key]? = insertions[key]? := fun key member =>
    List.getElem?_append_left (List.mem_range.mp member)
  unfold childKeys
  rw [List.length_append, List.length_singleton, List.range_succ, List.filter_append]
  congr 1
  · exact List.filter_congr fun key member => by rw [old key member]
  · simp [List.filter_singleton]

/-! ### The nodes of an arena -/

theorem size_add (arena : Arena) (next : Insertion) : (arena.add next).2.size = arena.size + 1 := by
  unfold add insert size
  cases next.inheritance.parent <;> simp

/-- An insertion appends its key to the children of the parent and leaves the other nodes alone. -/
theorem node?_add (arena : Arena) (next : Insertion) (key : Key) :
    (arena.add next).2.node? key =
      if key = arena.size then some ⟨next.identity arena.size, next.inheritance, []⟩
      else (arena.node? key).map fun node =>
        { node with
          children := node.children ++ if next.parent = some key then [arena.size] else [] } := by
  refine (node?_insert arena next.inheritance next.identity key).trans ?_
  refine if_congr Iff.rfl rfl ?_
  by_cases below : next.parent = some key
  · rw [if_pos below]
    exact if_pos below
  · simp only [if_neg below, List.append_nil]
    exact (if_neg below).trans Option.map_id'.symm

theorem LeadsTo.size_eq (leads : LeadsTo mayRecord insertions records arena) :
    arena.size = insertions.length := by
  induction leads with
  | empty => rfl
  | add before next earlier ih => rw [size_add, ih, List.length_append, List.length_singleton]
  | recordUrn before may urn ih => exact ih

/-- The parent of a node has a smaller key. -/
theorem LeadsTo.parent_lt (leads : LeadsTo mayRecord insertions records arena) {child parent : Key}
    (below : insertions[child]?.bind Insertion.parent = some parent) : parent < child := by
  induction leads with
  | empty => cases below
  | recordUrn before may urn ih => exact ih below
  | @add insertions records arena before next earlier ih =>
    rcases Nat.lt_trichotomy child insertions.length with less | rfl | more
    · rw [List.getElem?_append_left less] at below
      exact ih below
    · rw [List.getElem?_concat_length] at below
      exact before.size_eq ▸ earlier parent below
    · rw [List.getElem?_eq_none (by simp; omega)] at below
      cases below

/-- A node that is still to come has no children. -/
theorem LeadsTo.childKeys_eq_nil (leads : LeadsTo mayRecord insertions records arena) {key : Key}
    (beyond : insertions.length ≤ key) : childKeys insertions key = [] := by
  refine List.eq_nil_iff_forall_not_mem.mpr fun child member => ?_
  have less := leads.parent_lt (mem_childKeys.mp member)
  have bound := List.mem_range.mp (List.mem_filter.mp member).1
  exact absurd (less.trans bound) (Nat.not_lt.mpr beyond)

/-- What was inserted stands at the position of its key, with the keys of what was inserted below
it. -/
theorem LeadsTo.node?_eq (leads : LeadsTo mayRecord insertions records arena) (key : Key) :
    arena.node? key = insertions[key]?.map fun made =>
      ⟨made.identity key, made.inheritance, childKeys insertions key⟩ := by
  induction leads with
  | empty => rfl
  | recordUrn before may urn ih => exact ih
  | @add insertions records arena before next earlier ih =>
    rw [node?_add, before.size_eq, ih, childKeys_append]
    rcases Nat.lt_trichotomy key insertions.length with less | rfl | more
    · rw [if_neg (Nat.ne_of_lt less), List.getElem?_append_left less, Option.map_map]
      rfl
    · -- Nothing was inserted below the new node yet, nor was it inserted below itself.
      have above : next.parent ≠ some insertions.length := fun own =>
        absurd (earlier _ own) (Nat.not_lt.mpr (Nat.le_of_eq before.size_eq))
      rw [if_pos rfl, if_neg above, before.childKeys_eq_nil (Nat.le_refl _),
        List.getElem?_concat_length]
      rfl
    · have beyond : (insertions ++ [next])[key]? = none := List.getElem?_eq_none (by simp; omega)
      rw [if_neg (Nat.ne_of_gt more), List.getElem?_eq_none (Nat.le_of_lt more), beyond]
      rfl

theorem LeadsTo.isSome_node? (leads : LeadsTo mayRecord insertions records arena) {key : Key} :
    (arena.node? key).isSome = true ↔ key < insertions.length := by
  rw [leads.node?_eq, Option.isSome_map]
  simp

/-- The parent of a node is the one that it was inserted below. -/
theorem LeadsTo.parentOf_eq (leads : LeadsTo mayRecord insertions records arena) (child : Key) :
    arena.parentOf child = insertions[child]?.bind Insertion.parent := by
  refine Option.ext fun parent => parentOf_eq_some.trans ?_
  rw [leads.isSome_node?, leads.node?_eq]
  constructor
  · rintro ⟨⟨node, here, up⟩, -⟩
    obtain ⟨made, found, rfl⟩ := Option.map_eq_some_iff.mp here
    rw [found]
    exact up
  · intro below
    obtain ⟨made, found, up⟩ := Option.bind_eq_some_iff.mp below
    have bound := (List.getElem?_eq_some_iff.mp found).1
    exact ⟨⟨_, by rw [found]; rfl, up⟩, (leads.parent_lt below).trans bound⟩

/-! ### The links -/

/-- Keys are the positions of the insertions, and parents and children say the same. -/
structure Linked (insertions : List Insertion) (arena : Arena) : Prop where
  /-- What was inserted stands at the position of its key. -/
  inserted : ∀ key, (arena.node? key).map (fun node => (node.identity, node.inheritance)) =
    insertions[key]?.map fun made => (made.identity key, made.inheritance)
  /-- The parent is the one that the node was inserted below. -/
  parent : ∀ child, arena.parentOf child = insertions[child]?.bind Insertion.parent
  parent_lt : ∀ child parent, arena.parentOf child = some parent → parent < child
  /-- Every chain of parents ends. -/
  wellFounded : WellFounded fun parent child => arena.parentOf child = some parent
  /-- The children of a node are the nodes whose parent it is. -/
  child_iff : ∀ key node, arena.node? key = some node →
    ∀ child, child ∈ node.children ↔ arena.parentOf child = some key
  /-- They are listed in the order of their insertion, each of them once. -/
  ascend : ∀ key node, arena.node? key = some node → node.children.Pairwise (· < ·)
  /-- All that are listed are found. -/
  childrenOf : ∀ key node, arena.node? key = some node → arena.childrenOf key = node.children

theorem LeadsTo.linked (leads : LeadsTo mayRecord insertions records arena) :
    Linked insertions arena := by
  have less (child parent : Key) (above : arena.parentOf child = some parent) : parent < child :=
    leads.parent_lt (leads.parentOf_eq child ▸ above)
  have children {key : Key} {node : Node} (here : arena.node? key = some node) :
      node.children = childKeys insertions key := by
    rw [leads.node?_eq] at here
    obtain ⟨made, -, rfl⟩ := Option.map_eq_some_iff.mp here
    rfl
  refine ⟨fun key => ?_, leads.parentOf_eq, less, ?_, fun key node here child => ?_,
    fun key node here => ?_, fun key node here => ?_⟩
  · rw [leads.node?_eq, Option.map_map]
    rfl
  · exact Subrelation.wf (fun above => less _ _ above) Nat.lt_wfRel.wf
  · rw [children here, mem_childKeys, leads.parentOf_eq]
  · rw [children here]
    exact childKeys_ascend insertions key
  · unfold childrenOf
    rw [here, List.filter_eq_self, children here]
    intro child member
    exact leads.isSome_node?.mpr (List.mem_range.mp (List.mem_filter.mp member).1)

/-- The index leads from each URN to the key that it was recorded for last. -/
theorem LeadsTo.mem_urns (leads : LeadsTo mayRecord insertions records arena) (urn : String)
    (key : Key) : (urn, key) ∈ arena.urns ↔ records.lookup urn = some key := by
  have indexed : Fields.Ordered arena.urns ∧ ∀ urn, arena.urns.lookup urn = records.lookup urn := by
    induction leads with
    | empty => exact ⟨.nil, fun _ => rfl⟩
    | add before next earlier ih => exact ih
    | recordUrn before may urn ih =>
      refine ⟨ih.1.set urn _, fun other => ?_⟩
      rw [Fields.lookup_cons, ← ih.2 other]
      exact Fields.lookup_set urn other _ _
  rw [← indexed.2 urn]
  exact ⟨indexed.1.lookup, Fields.mem_of_lookup⟩

/-- The key of a node that was there is that of a node that is there. -/
theorem LeadsTo.record_lt (leads : LeadsTo OwnKey insertions records arena)
    {record : String × Key} (member : record ∈ records) : record.2 < arena.size := by
  induction leads with
  | empty => cases member
  | add before next earlier ih =>
    rw [size_add]
    exact Nat.lt_succ_of_lt (ih member)
  | recordUrn before own urn ih =>
    rcases List.mem_cons.mp member with rfl | member
    · exact own
    · exact ih member

/-- Whatever is inserted below nodes that are there, and whatever is recorded in between: keys are
positions, and parents and children say the same. The index has the last record of each URN and
nothing else. And an insertion takes the next key, appends it to the children of the parent, and
changes nothing else. If URNs are recorded for keys of the arena only, the index leads to nodes that
are there. -/
theorem links_in_step :
    (∀ {mayRecord : Arena → Key → Prop} {insertions : List Insertion}
        {records : List (String × Key)} {arena : Arena},
      LeadsTo mayRecord insertions records arena →
        Linked insertions arena ∧
        (∀ urn key, (urn, key) ∈ arena.urns ↔ records.lookup urn = some key) ∧
        ∀ next : Insertion, (arena.add next).1 = insertions.length ∧
          (arena.add next).2.urns = arena.urns ∧
          ∀ key node, arena.node? key = some node → (arena.add next).2.node? key =
            some { node with
              children := node.children ++
                if next.parent = some key then [insertions.length] else [] }) ∧
    ∀ {insertions : List Insertion} {records : List (String × Key)} {arena : Arena},
      LeadsTo OwnKey insertions records arena →
        ∀ entry ∈ arena.urns, ∃ node, arena.node? entry.2 = some node := by
  constructor
  · intro mayRecord insertions records arena leads
    refine ⟨leads.linked, leads.mem_urns, fun next => ⟨leads.size_eq, rfl, ?_⟩⟩
    intro key node here
    have bound : key < arena.size := (List.getElem?_eq_some_iff.mp here).1
    rw [node?_add, if_neg (Nat.ne_of_lt bound), here, leads.size_eq]
    rfl
  · intro insertions records arena leads entry member
    have recorded := Fields.mem_of_lookup ((leads.mem_urns entry.1 entry.2).mp member)
    exact Option.isSome_iff_exists.mp
      (leads.isSome_node?.mpr (leads.size_eq ▸ leads.record_lt recorded))

def thing (kind : ResourceKind) (parent : Option Key) : Insertion :=
  ⟨{ parent }, fun _ =>
    { type := "pkg:index:Thing", name := "thing", kind, urn := .create "urn:thing" }⟩

/-- A group with a member and a group that has a member, too. -/
def plotInsertions : List Insertion :=
  [thing .component none, thing .custom (some 0), thing .component (some 0),
    thing .custom (some 2)]

/-- The custom members have the same URN, which is recorded for each of them as soon as it is
there. -/
def plot : Arena :=
  let group := (Arena.empty.add (thing .component none)).2
  let member := (group.add (thing .custom (some 0))).2.recordUrn 1 "urn:thing"
  let inner := (member.add (thing .component (some 0))).2
  (inner.add (thing .custom (some 2))).2.recordUrn 3 "urn:thing"

theorem leadsTo_plot : LeadsTo OwnKey plotInsertions [("urn:thing", 3), ("urn:thing", 1)] plot := by
  have group : LeadsTo OwnKey _ _ _ := LeadsTo.empty.add (thing .component none) nofun
  have member := (group.add (thing .custom (some 0)) (by decide)).recordUrn
    (show OwnKey _ 1 from by decide) "urn:thing"
  have inner := member.add (thing .component (some 0)) (by decide)
  exact (inner.add (thing .custom (some 2)) (by decide)).recordUrn
    (show OwnKey _ 3 from by decide) "urn:thing"

/-- The nodes that the group lists are the ones below it, and the index leads to nodes. -/
theorem links_in_step_plot :
    LeadsTo OwnKey plotInsertions [("urn:thing", 3), ("urn:thing", 1)] plot ∧
      (∀ child, child ∈ [1, 2] ↔ plot.parentOf child = some 0) ∧
      ∀ entry ∈ plot.urns, ∃ node, plot.node? entry.2 = some node := by
  obtain ⟨linked, -⟩ := links_in_step.1 leadsTo_plot
  obtain ⟨node, here, children⟩ : ∃ node, plot.node? 0 = some node ∧ node.children = [1, 2] :=
    ⟨_, rfl, rfl⟩
  exact ⟨leadsTo_plot, fun child => children ▸ linked.child_iff 0 node here child,
    links_in_step.2 leadsTo_plot⟩

/-- An arena without nodes, in which a URN is recorded for the key that another arena has given
out. -/
def misled : Arena := Arena.empty.recordUrn (Arena.empty.add (thing .custom none)).1 "urn:thing"

/-- Such a record leads to no node. -/
theorem foreign_key_leads_nowhere :
    LeadsTo AnyKey [] [("urn:thing", 0)] misled ∧
      ¬ ∀ entry ∈ misled.urns, ∃ node, misled.node? entry.2 = some node := by
  refine ⟨LeadsTo.empty.recordUrn trivial "urn:thing", fun leads => ?_⟩
  obtain ⟨node, here⟩ := leads ("urn:thing", 0) List.mem_cons_self
  cases here

end Provision.Arena
