import Mathlib.Algebra.BigOperators.Fin
import Mathlib.Algebra.Order.BigOperators.Group.Finset
import Provision.Proofs.Fields
import Provision.Resource.Arena

/-!
# What a dependency stands for

A walk over the resource graph takes one waiting key after the other, visits the resource, and
lets the children of a component wait in turn. In whatever order the keys are taken, every pass
uses up a key or the links of a resource, so the walk comes to an end, and then it has visited
exactly what the roots reach through components without passing the excluded resource
(`Underway.visited_iff`). The walk of the arena is one of these tours (`walk_passes`).
-/

namespace Provision.Arena

variable {arena : Arena} {exclude : Option Key} {roots : List Key}

/-- There is a path from the first resource to the second that leads from components to their
children and does not meet the excluded resource. -/
inductive Reaches (arena : Arena) (exclude : Option Key) : Key → Key → Prop where
  | here {key : Key} (present : some key ≠ exclude) : Reaches arena exclude key key
  | child {key next last : Key} (present : some key ≠ exclude)
      (child : next ∈ arena.expansion key) (rest : Reaches arena exclude next last) :
      Reaches arena exclude key last

/-- Neither end of a path is the excluded resource. -/
theorem Reaches.first_ne {first last : Key} (path : Reaches arena exclude first last) :
    some first ≠ exclude := by
  cases path <;> assumption

theorem Reaches.last_ne {first last : Key} (path : Reaches arena exclude first last) :
    some last ≠ exclude := by
  induction path with
  | here present => exact present
  | child _ _ _ ih => exact ih

/-- A path goes on to the children of a component. -/
theorem Reaches.step {first last next : Key} (path : Reaches arena exclude first last)
    (child : next ∈ arena.expansion last) (present : some next ≠ exclude) :
    Reaches arena exclude first next := by
  induction path with
  | here first => exact .child first child (.here present)
  | child first below _ ih => exact .child first below (ih child)

/-! ### Tours -/

/-- The resources that were visited, and the keys that wait. -/
structure Tour where
  visited : Finset Key
  waiting : Multiset Key

/-- Nothing was visited, and the roots wait. -/
def Tour.start (roots : List Key) : Tour := ⟨∅, roots⟩

/-- A waiting key is taken, whichever it is. The excluded resource and one that was visited are
passed over; any other is visited, and the children of a component wait from then on. -/
inductive Pass (arena : Arena) (exclude : Option Key) : Tour → Tour → Prop where
  | skip {visited : Finset Key} {waiting : Multiset Key} {key : Key}
      (known : some key = exclude ∨ key ∈ visited) :
      Pass arena exclude ⟨visited, key ::ₘ waiting⟩ ⟨visited, waiting⟩
  | visit {visited : Finset Key} {waiting : Multiset Key} {key : Key}
      (present : some key ≠ exclude) (fresh : key ∉ visited) :
      Pass arena exclude ⟨visited, key ::ₘ waiting⟩
        ⟨{key} ∪ visited, arena.expansion key + waiting⟩

/-- A number of passes, one after the other. -/
inductive Passes (arena : Arena) (exclude : Option Key) : Nat → Tour → Tour → Prop where
  | none (tour : Tour) : Passes arena exclude 0 tour tour
  | next {count : Nat} {first second last : Tour} (pass : Pass arena exclude first second)
      (rest : Passes arena exclude count second last) : Passes arena exclude (count + 1) first last

variable {tour next : Tour} {count : Nat}

/-- As long as a key waits there is another pass. -/
theorem exists_pass (arena : Arena) (exclude : Option Key) (waits : tour.waiting ≠ 0) :
    ∃ next, Pass arena exclude tour next := by
  obtain ⟨visited, waiting⟩ := tour
  obtain ⟨key, member⟩ := Multiset.exists_mem_of_ne_zero waits
  obtain ⟨rest, rfl⟩ := Multiset.exists_cons_of_mem member
  by_cases known : some key = exclude ∨ key ∈ visited
  · exact ⟨_, .skip known⟩
  · obtain ⟨present, fresh⟩ := not_or.mp known
    exact ⟨_, .visit present fresh⟩

/-! ### Tours end -/

/-- How many passes are left at most: one for each key that waits, and one for each child of a
resource that was not visited. -/
def Tour.remaining (arena : Arena) (tour : Tour) : Nat :=
  tour.waiting.card +
    ∑ key ∈ Finset.range arena.size \ tour.visited, (arena.expansion key).length

theorem expansion_eq_nil {key : Key} (absent : key ∉ Finset.range arena.size) :
    arena.expansion key = [] := by
  have beyond : arena.nodes.length ≤ key := by simpa [size] using absent
  simp [expansion, node?, List.getElem?_eq_none beyond]

/-- A visit uses up the links of the resource. -/
theorem links_visit (arena : Arena) {visited : Finset Key} {key : Key} (fresh : key ∉ visited) :
    (arena.expansion key).length +
        ∑ other ∈ Finset.range arena.size \ ({key} ∪ visited), (arena.expansion other).length =
      ∑ other ∈ Finset.range arena.size \ visited, (arena.expansion other).length := by
  rw [← Finset.insert_eq, Finset.sdiff_insert]
  by_cases there : key ∈ Finset.range arena.size
  · exact Finset.add_sum_erase _ (fun other => (arena.expansion other).length)
      (Finset.mem_sdiff.mpr ⟨there, fresh⟩)
  · rw [expansion_eq_nil there, Finset.erase_eq_of_notMem (by simp [there])]
    simp

/-- Every pass is counted. -/
theorem Pass.remaining (pass : Pass arena exclude tour next) :
    next.remaining arena + 1 = tour.remaining arena := by
  cases pass with
  | skip known =>
    simp only [Tour.remaining, Multiset.card_cons]
    omega
  | visit present fresh =>
    have links := links_visit arena fresh
    simp only [Tour.remaining, Multiset.card_cons, Multiset.card_add, Multiset.coe_card]
    omega

theorem Passes.remaining (passes : Passes arena exclude count tour next) :
    next.remaining arena + count = tour.remaining arena := by
  induction passes with
  | none => rfl
  | next pass _ ih =>
    have one := pass.remaining
    omega

/-- All links together are enough, whatever resources they start from. -/
theorem remaining_start (arena : Arena) (roots : List Key) :
    (Tour.start roots).remaining arena ≤ roots.length + arena.linkCount := by
  have each (i : Fin arena.nodes.length) :
      (arena.expansion i).length ≤ arena.nodes[i].children.length := by
    have found : arena.node? i = some arena.nodes[i] := by simp [node?]
    unfold expansion
    rw [found]
    dsimp only
    split <;> simp
  have all : arena.linkCount = (arena.nodes.map fun node => node.children.length).sum := by
    unfold linkCount
    induction arena.nodes <;> simp_all
  have links : ∑ key ∈ Finset.range arena.size, (arena.expansion key).length ≤ arena.linkCount := by
    calc ∑ key ∈ Finset.range arena.size, (arena.expansion key).length
        = ∑ i : Fin arena.nodes.length, (arena.expansion i).length :=
          Finset.sum_range fun key => (arena.expansion key).length
      _ ≤ ∑ i : Fin arena.nodes.length, arena.nodes[i].children.length :=
          Finset.sum_le_sum fun i _ => each i
      _ = arena.linkCount :=
          (Fin.sum_univ_fun_getElem arena.nodes fun node => node.children.length).trans all.symm
  simp only [Tour.remaining, Tour.start, Multiset.coe_card, Finset.sdiff_empty]
  omega

/-! ### What a tour visits -/

/-- What was visited or waits is reached from the roots, the roots were visited or wait, and so
were the children of the components that were visited, or they wait. -/
structure Underway (arena : Arena) (exclude : Option Key) (roots : List Key) (tour : Tour) :
    Prop where
  visited : ∀ key ∈ tour.visited, ∃ root ∈ roots, Reaches arena exclude root key
  waiting : ∀ key ∈ tour.waiting, some key ≠ exclude →
    ∃ root ∈ roots, Reaches arena exclude root key
  started : ∀ root ∈ roots, some root ≠ exclude → root ∈ tour.visited ∨ root ∈ tour.waiting
  closed : ∀ key ∈ tour.visited, ∀ child ∈ arena.expansion key, some child ≠ exclude →
    child ∈ tour.visited ∨ child ∈ tour.waiting

theorem Underway.start (arena : Arena) (exclude : Option Key) (roots : List Key) :
    Underway arena exclude roots (Tour.start roots) where
  visited := by simp [Tour.start]
  waiting := fun key member present => ⟨key, member, .here present⟩
  started := fun root member _ => .inr member
  closed := by simp [Tour.start]

theorem Pass.keeps (pass : Pass arena exclude tour next) (h : Underway arena exclude roots tour) :
    Underway arena exclude roots next := by
  cases pass with
  | skip known =>
    rename_i visited waiting key
    have still {other : Key} (there : other ∈ visited ∨ other ∈ key ::ₘ waiting)
        (present : some other ≠ exclude) : other ∈ visited ∨ other ∈ waiting := by
      rcases there with old | there
      · exact .inl old
      · rcases Multiset.mem_cons.mp there with rfl | there
        · exact .inl (known.resolve_left present)
        · exact .inr there
    exact {
      visited := h.visited
      waiting := fun other member => h.waiting other (Multiset.mem_cons_of_mem member)
      started := fun root member present => still (h.started root member present) present
      closed := fun other member child below present =>
        still (h.closed other member child below present) present }
  | visit present fresh =>
    rename_i visited waiting key
    obtain ⟨root, member, path⟩ := h.waiting key (Multiset.mem_cons_self key waiting) present
    have still {other : Key} (there : other ∈ visited ∨ other ∈ key ::ₘ waiting) :
        other ∈ {key} ∪ visited ∨ other ∈ (arena.expansion key + waiting : Multiset Key) := by
      simp only [Multiset.mem_cons] at there
      simp only [Finset.mem_union, Finset.mem_singleton, Multiset.mem_add]
      tauto
    refine ⟨?_, ?_, fun root member present => still (h.started root member present), ?_⟩
    · intro other there
      rcases Finset.mem_union.mp there with here | old
      · exact ⟨root, member, Finset.mem_singleton.mp here ▸ path⟩
      · exact h.visited other old
    · intro other there present
      rcases Multiset.mem_add.mp there with below | old
      · exact ⟨root, member, path.step below present⟩
      · exact h.waiting other (Multiset.mem_cons_of_mem old) present
    · intro other there child below present
      rcases Finset.mem_union.mp there with here | old
      · obtain rfl := Finset.mem_singleton.mp here
        exact .inr (Multiset.mem_add.mpr (.inl below))
      · exact still (h.closed other old child below present)

theorem Passes.keeps (passes : Passes arena exclude count tour next)
    (h : Underway arena exclude roots tour) : Underway arena exclude roots next := by
  induction passes with
  | none => exact h
  | next pass _ ih => exact ih (pass.keeps h)

/-- When nothing waits any more, exactly what the roots reach was visited. -/
theorem Underway.visited_iff (h : Underway arena exclude roots tour) (ended : tour.waiting = 0)
    (key : Key) : key ∈ tour.visited ↔ ∃ root ∈ roots, Reaches arena exclude root key := by
  constructor
  · exact h.visited key
  · rintro ⟨root, member, path⟩
    have ended {key : Key} (there : key ∈ tour.visited ∨ key ∈ tour.waiting) :
        key ∈ tour.visited := by simpa [ended] using there
    have first : root ∈ tour.visited := ended (h.started root member path.first_ne)
    clear member
    induction path with
    | here => exact first
    | child _ below rest ih => exact ih (ended (h.closed _ first _ below rest.first_ne))

/-! ### The walk of the arena -/

variable (exclude) in
/-- With enough fuel the walk is a tour, in which the last key that was let wait is taken first. -/
theorem walk_passes (fuel : Nat) (seen stack : List Key)
    (enough : Tour.remaining arena ⟨seen.toFinset, stack⟩ < fuel) :
    ∃ count, Passes arena exclude count ⟨seen.toFinset, stack⟩
      ⟨(arena.walk exclude fuel seen stack).toFinset, 0⟩ := by
  induction fuel generalizing seen stack with
  | zero => omega
  | succ fuel ih =>
    cases stack with
    | nil => exact ⟨0, .none _⟩
    | cons key rest =>
      unfold walk
      split
      · rename_i known
        have pass : Pass arena exclude ⟨seen.toFinset, key ::ₘ ↑rest⟩ ⟨seen.toFinset, ↑rest⟩ :=
          .skip (by simpa using known)
        rw [Multiset.cons_coe] at pass
        have less := pass.remaining
        obtain ⟨count, later⟩ := ih seen rest (by omega)
        exact ⟨count + 1, .next pass later⟩
      · rename_i fresh
        obtain ⟨present, fresh⟩ := not_or.mp fresh
        have pass : Pass arena exclude ⟨seen.toFinset, key ::ₘ ↑rest⟩
            ⟨{key} ∪ seen.toFinset, ↑(arena.expansion key) + ↑rest⟩ :=
          .visit present (by simpa using fresh)
        rw [Multiset.cons_coe, Multiset.coe_add, ← Finset.insert_eq, ← List.toFinset_cons] at pass
        have less := pass.remaining
        obtain ⟨count, later⟩ := ih (key :: seen) (arena.expansion key ++ rest) (by omega)
        exact ⟨count + 1, .next pass later⟩

/-- The walk from the roots visits exactly what they reach. -/
theorem mem_walk (roots : List Key) (key : Key) :
    key ∈ arena.walk exclude (roots.length + arena.linkCount + 1) [] roots ↔
      ∃ root ∈ roots, Reaches arena exclude root key := by
  have enough := remaining_start arena roots
  obtain ⟨count, passes⟩ := walk_passes exclude (roots.length + arena.linkCount + 1) [] roots
    (Nat.lt_succ_of_le enough)
  have visited := (passes.keeps (Underway.start arena exclude roots)).visited_iff rfl key
  simpa using visited

/-- What depending on `roots` means: all that is dependable and that they reach. -/
theorem mem_transitiveDependencies {roots : List Key} {key : Key} :
    key ∈ arena.transitiveDependencies roots exclude ↔
      arena.isDependable key = true ∧ ∃ root ∈ roots, Reaches arena exclude root key := by
  rw [transitiveDependencies, List.mem_filter, Ascending.mem_ofList, mem_walk, and_comm]

/-! ### Dependencies -/

/-- The first resource is a component, and the second one of its children. -/
def Contains (arena : Arena) (component child : Key) : Prop :=
  (∃ identity, arena.identity? component = some identity ∧ identity.kind.isComponent = true) ∧
    child ∈ arena.childrenOf component

/-- A path from one of the roots to a resource that leads from components to their children and
does not meet the excluded resource. -/
structure PathTo (arena : Arena) (exclude : Option Key) (roots : List Key) (key : Key)
    (path : List Key) : Prop where
  first : ∃ root ∈ roots, path.head? = some root
  last : path.getLast? = some key
  steps : path.IsChain arena.Contains
  avoids : ∀ other ∈ path, some other ≠ exclude

theorem contains_iff {component child : Key} :
    arena.Contains component child ↔
      child ∈ arena.expansion component ∧ (arena.node? child).isSome = true := by
  unfold Contains expansion childrenOf identity?
  cases arena.node? component with
  | none => simp
  | some node => simp [and_assoc]

/-- On the way to a resource of the arena there are resources of the arena only. -/
theorem Reaches.first_isSome {first last : Key} (path : Reaches arena exclude first last)
    (present : (arena.node? last).isSome = true) : (arena.node? first).isSome = true := by
  cases path with
  | here => exact present
  | child _ below _ =>
    unfold expansion at below
    cases node : arena.node? first with
    | none => simp [node] at below
    | some node => rfl

theorem Reaches.exists_path {first last : Key} (path : Reaches arena exclude first last)
    (present : (arena.node? last).isSome = true) :
    ∃ rest, (first :: rest).getLast? = some last ∧ (first :: rest).IsChain arena.Contains ∧
      ∀ other ∈ first :: rest, some other ≠ exclude := by
  induction path with
  | here allowed => exact ⟨[], by simp, by simp, by simpa using allowed⟩
  | child allowed below tail ih =>
    rename_i key next last
    obtain ⟨rest, ends, chain, avoids⟩ := ih present
    have step : arena.Contains key next := contains_iff.mpr ⟨below, tail.first_isSome present⟩
    refine ⟨next :: rest, by simpa using ends, List.isChain_cons_cons.mpr ⟨step, chain⟩, ?_⟩
    simpa [allowed] using avoids

theorem Reaches.of_path {first last : Key} {rest : List Key}
    (ends : (first :: rest).getLast? = some last) (chain : (first :: rest).IsChain arena.Contains)
    (avoids : ∀ other ∈ first :: rest, some other ≠ exclude) :
    Reaches arena exclude first last := by
  induction rest generalizing first with
  | nil =>
    obtain rfl : first = last := by simpa using ends
    exact .here (avoids first (by simp))
  | cons next rest ih =>
    obtain ⟨step, chain⟩ := List.isChain_cons_cons.mp chain
    have later := ih (by simpa using ends) chain fun other member =>
      avoids other (List.mem_cons_of_mem _ member)
    exact .child (avoids first (by simp)) (contains_iff.mp step).1 later

/-- A resource of the arena is reached exactly if there is a path to it. -/
theorem reached_iff_path {key : Key} (present : (arena.node? key).isSome = true) :
    (∃ root ∈ roots, Reaches arena exclude root key) ↔
      ∃ path, PathTo arena exclude roots key path := by
  constructor
  · rintro ⟨root, member, path⟩
    obtain ⟨rest, ends, chain, avoids⟩ := path.exists_path present
    exact ⟨root :: rest, ⟨root, member, rfl⟩, ends, chain, avoids⟩
  · rintro ⟨path, ⟨root, member, first⟩, ends, chain, avoids⟩
    obtain ⟨rest, rfl⟩ := List.head?_eq_some_iff.mp first
    exact ⟨root, member, .of_path ends chain avoids⟩

theorem isDependable_iff {key : Key} :
    arena.isDependable key = true ↔
      ∃ identity, arena.identity? key = some identity ∧
        (identity.kind.isCustomLike = true ∨ identity.kind = .remoteComponent) := by
  unfold isDependable identity?
  cases arena.node? key <;> simp

/-- In whatever order it takes the keys, the walk for the dependencies makes no more passes than
there are roots and links, and goes on until it has visited exactly the dependencies among the
dependable resources. These are, each once and in ascending order, the dependable resources to
which a path leads from one of the roots. -/
theorem dependencies_found (arena : Arena) (roots : List Key) (exclude : Option Key) :
    (∀ passes tour, Passes arena exclude passes (Tour.start roots) tour →
      passes ≤ roots.length + arena.linkCount ∧
        ((∃ next, Pass arena exclude tour next) ∨
          ∀ key, key ∈ arena.transitiveDependencies roots exclude ↔
            key ∈ tour.visited ∧ arena.isDependable key = true)) ∧
      (arena.transitiveDependencies roots exclude).Pairwise (· < ·) ∧
      ∀ key, key ∈ arena.transitiveDependencies roots exclude ↔
        (∃ identity, arena.identity? key = some identity ∧
          (identity.kind.isCustomLike = true ∨ identity.kind = .remoteComponent)) ∧
        ∃ path, PathTo arena exclude roots key path := by
  refine ⟨?_, ?_, ?_⟩
  · intro passes tour tours
    have bound := remaining_start arena roots
    have counted := tours.remaining
    refine ⟨by omega, ?_⟩
    by_cases waits : tour.waiting = 0
    · right
      intro key
      have visited := (tours.keeps (Underway.start arena exclude roots)).visited_iff waits key
      rw [mem_transitiveDependencies, visited, and_comm]
    · exact .inl (exists_pass arena exclude waits)
  · exact (Ascending.pairwise_ofList _).filter _
  · intro key
    rw [mem_transitiveDependencies, isDependable_iff]
    refine and_congr_right fun ⟨identity, found, _⟩ => reached_iff_path ?_
    unfold identity? at found
    cases node : arena.node? key with
    | none => simp [node] at found
    | some node => rfl

end Provision.Arena
