import Provision.Proofs.Output.Outcome

/-!
# What an output is made of

Resolving an output evaluates the nodes of its expression, and goes into a function only with a
known value. The result is the sum of what the evaluated nodes contribute: it fails with one of the
failures of evaluated leaves if there are any, else it is known if all evaluated leaves are, secret
if one of them is or a node marks it so, and depends on what they and the nodes on the way depend
on (`resolves_by_evaluated`).
-/

namespace Provision

namespace Data

variable {α β ν : Type}

/-- `sum` is known, secret and dependent as two data are together. -/
structure Joins (first : Data α) (second : Data β) (sum : Data ν) : Prop where
  known : sum.value.isSome = (first.value.isSome && second.value.isSome)
  secret : sum.secret = (first.secret || second.secret)
  dependencies : ∀ key, key ∈ sum.dependencies ↔
    key ∈ first.dependencies ∨ key ∈ second.dependencies

/-- Known, no secret, and without dependencies: what adds nothing. -/
def nothing : Data Unit := known ()

theorem joins_nothing (data : Data α) : Joins nothing data data where
  known := by simp [nothing, Data.known]
  secret := by simp [nothing, Data.known]
  dependencies := by simp [nothing, Data.known]

theorem joins_map (f : α → β) (data : Data α) : Joins nothing data (data.map f) where
  known := by simp [nothing, Data.known, map]
  secret := rfl
  dependencies := by simp [nothing, Data.known, map]

theorem joins_after (outer : Data α) (isKnown : outer.value.isSome = true) (data : Data β) :
    Joins outer data (data.after outer.secret outer.dependencies) where
  known := by simp [after, isKnown]
  secret := rfl
  dependencies := by simp [after]

theorem joins_asSecret (data : Data α) : Joins nothing.asSecret data data.asSecret where
  known := by simp [nothing, Data.known, asSecret]
  secret := by simp [asSecret]
  dependencies := by simp [nothing, Data.known, asSecret]

theorem joins_dependingOn (keys : List Key) (data : Data α) :
    Joins (nothing.dependingOn keys) data (data.dependingOn keys) where
  known := by simp [nothing, Data.known, dependingOn]
  secret := by simp [nothing, Data.known, dependingOn]
  dependencies := by simp [nothing, Data.known, dependingOn, or_comm]

theorem joins_pair (left : Data α) (right : Data β) (f : α × β → ν) :
    Joins left right ((pair left right).map f) where
  known := by
    obtain ⟨_ | a, _⟩ := left
    · rfl
    · obtain ⟨_ | b, _⟩ := right <;> rfl
  secret := rfl
  dependencies := by simp [pair, map]

theorem mem_combine (all : List (Data α)) (key : Key) :
    key ∈ (combine all).dependencies ↔ ∃ data ∈ all, key ∈ data.dependencies := by
  have general : ∀ start : List Key,
      key ∈ all.foldl (fun acc d => Ascending.union acc d.dependencies) start ↔
        key ∈ start ∨ ∃ data ∈ all, key ∈ data.dependencies := by
    induction all with
    | nil => simp
    | cons data rest ih =>
      intro start
      rw [List.foldl_cons, ih, Ascending.mem_union]
      simp [or_assoc]
  simpa [combine] using general []

theorem joins_combine (data : Data α) (rest : List (Data α)) :
    Joins data (combine rest) (combine (data :: rest)) where
  known := by
    unfold combine
    rw [List.mapM_cons]
    cases data.value with
    | none => rfl
    | some v => cases rest.mapM Data.value <;> rfl
  secret := rfl
  dependencies := by simp [mem_combine]

end Data

namespace Output

variable {V γ : Type} {resolved : Source → Settled V}

/-! ### Evaluated nodes -/

/-- `Below output part`: resolving the output resolves the part. A function's output is below only
if the function has a known input. -/
inductive Below (resolved : Source → Settled V) : Output V → Output V → Prop where
  | map (f : V → V) (outer : Output V) : Below resolved (.map f outer) outer
  | applied (f : V → Output V) (outer : Output V) : Below resolved (.apply f outer) outer
  | entered {f : V → Output V} {outer : Output V} {v : V} {secret : Bool}
      {dependencies : List Key}
      (known : outcome resolved outer = .ok ⟨some v, secret, dependencies⟩) :
      Below resolved (.apply f outer) (f v)
  | after (secret : Bool) (dependencies : List Key) (inner : Output V) :
      Below resolved (.after secret dependencies inner) inner
  | part (collect : List V → V) {parts : List (Output V)} {part : Output V}
      (member : part ∈ parts) : Below resolved (.combine collect parts) part
  | left (pair : V → V → V) (left right : Output V) : Below resolved (.tuple pair left right) left
  | right (pair : V → V → V) (left right : Output V) :
      Below resolved (.tuple pair left right) right
  | asSecret (inner : Output V) : Below resolved (.asSecret inner) inner
  | withResources (dependencies : List Key) (inner : Output V) :
      Below resolved (.withResources dependencies inner) inner

/-- The node is reached from the output without entering a function whose input failed or is not
known. -/
inductive Evaluated (resolved : Source → Settled V) : Output V → Output V → Prop where
  | here (output : Output V) : Evaluated resolved output output
  | inside {output part node : Output V} (step : Below resolved output part)
      (path : Evaluated resolved part node) : Evaluated resolved output node

/-- The result of a leaf: of a settled output, a source or a computation. -/
def leaf? (resolved : Source → Settled V) : Output V → Option (Settled V)
  | .settled result => some result
  | .source origin => some (resolved origin)
  | .async result dependencies =>
    some (result.map fun v => (Data.known v).dependingOn dependencies)
  | _ => none

/-- The output is built of leaves by the combinators. What an observation leaves of a function that
has run is not among them. -/
inductive Built : Output V → Prop where
  | settled (result : Settled V) : Built (.settled result)
  | source (origin : Source) : Built (.source origin)
  | async (result : Except Failure V) (dependencies : List Key) : Built (.async result dependencies)
  | map (f : V → V) {outer : Output V} (built : Built outer) : Built (.map f outer)
  | apply {f : V → Output V} (functions : ∀ v, Built (f v)) {outer : Output V}
      (built : Built outer) : Built (.apply f outer)
  | combine (collect : List V → V) {parts : List (Output V)} (each : ∀ part ∈ parts, Built part) :
      Built (.combine collect parts)
  | tuple (pair : V → V → V) {left right : Output V} (builtLeft : Built left)
      (builtRight : Built right) : Built (.tuple pair left right)
  | asSecret {inner : Output V} (built : Built inner) : Built (.asSecret inner)
  | withResources (dependencies : List Key) {inner : Output V} (built : Built inner) :
      Built (.withResources dependencies inner)

theorem Built.part {output part : Output V} (built : output.Built)
    (step : Below resolved output part) : part.Built := by
  cases step with
  | map => cases built with | map _ built => exact built
  | applied => cases built with | apply _ built => exact built
  | entered => cases built with | apply functions _ => exact functions _
  | after => cases built
  | part _ member => cases built with | combine _ each => exact each _ member
  | left => cases built with | tuple _ left _ => exact left
  | right => cases built with | tuple _ _ right => exact right
  | asSecret => cases built with | asSecret built => exact built
  | withResources => cases built with | withResources _ built => exact built

theorem Built.evaluated {output node : Output V} (built : output.Built)
    (path : Evaluated resolved output node) : node.Built := by
  induction path with
  | here => exact built
  | inside step _ ih => exact ih (built.part step)

/-! ### Contributions -/

/-- What a node adds to the result, apart from the nodes below it. -/
def contribution (resolved : Source → Settled V) : Output V → Settled Unit
  | .settled result => result.map (Data.map fun _ => ())
  | .source origin => (resolved origin).map (Data.map fun _ => ())
  | .async result dependencies => result.map fun _ => Data.nothing.dependingOn dependencies
  | .after secret dependencies _ => .ok ⟨some (), secret, dependencies⟩
  | .asSecret _ => .ok Data.nothing.asSecret
  | .withResources dependencies _ => .ok (Data.nothing.dependingOn dependencies)
  | .map .. | .apply .. | .combine .. | .tuple .. => .ok Data.nothing

/-- An evaluated node of the output adds `c`. -/
def Contributes (resolved : Source → Settled V) (output : Output V) (c : Settled Unit) : Prop :=
  ∃ node, Evaluated resolved output node ∧ contribution resolved node = c

/-- The data is the sum of all that is contributed. -/
structure Sums {α : Type} (contributed : Settled Unit → Prop) (data : Data α) : Prop where
  succeeds : ∀ cause, ¬ contributed (.error cause)
  known : data.value.isSome = true ↔ ∀ d, contributed (.ok d) → d.value.isSome = true
  secret : data.secret = true ↔ ∃ d, contributed (.ok d) ∧ d.secret = true
  dependencies : ∀ key, key ∈ data.dependencies ↔ ∃ d, contributed (.ok d) ∧ key ∈ d.dependencies

/-- The result is a contributed failure, or the sum of all that is contributed. -/
def Accounts {α : Type} (contributed : Settled Unit → Prop) : Settled α → Prop
  | .error cause => contributed (.error cause)
  | .ok data => Sums contributed data

section Sums

variable {α β ν : Type} {first second : Settled Unit → Prop}

theorem Sums.single {own : Data Unit} {data : Data α} (known : own.value.isSome = data.value.isSome)
    (secret : own.secret = data.secret) (dependencies : own.dependencies = data.dependencies) :
    Sums (· = .ok own) data where
  succeeds := by simp
  known := by simp [known]
  secret := by simp [secret]
  dependencies := by simp [dependencies]

theorem Sums.join {a : Data α} {b : Data β} {sum : Data ν} (sumsFirst : Sums first a)
    (sumsSecond : Sums second b) (joins : Data.Joins a b sum) :
    Sums (fun c => first c ∨ second c) sum where
  succeeds := by
    rintro cause (h | h)
    · exact sumsFirst.succeeds cause h
    · exact sumsSecond.succeeds cause h
  known := by
    rw [joins.known, Bool.and_eq_true, sumsFirst.known, sumsSecond.known]
    constructor
    · rintro ⟨all, all'⟩ d (h | h)
      · exact all d h
      · exact all' d h
    · intro all
      exact ⟨fun d h => all d (.inl h), fun d h => all d (.inr h)⟩
  secret := by
    rw [joins.secret, Bool.or_eq_true, sumsFirst.secret, sumsSecond.secret]
    simp only [or_and_right, exists_or]
  dependencies := by
    intro key
    rw [joins.dependencies, sumsFirst.dependencies, sumsSecond.dependencies]
    simp only [or_and_right, exists_or]

/-- A node adds its own to what is contributed below it. -/
theorem Accounts.beside {own : Data Unit} {change : Data α → Data β}
    (joins : ∀ data, Data.Joins own data (change data)) {result : Settled α}
    (below : Accounts second result) :
    Accounts (fun c => c = .ok own ∨ second c) (result.map change) := by
  cases result with
  | error cause => exact .inr below
  | ok data => exact Sums.join (Sums.single rfl rfl rfl) below (joins data)

theorem Accounts.beside_nothing {result : Settled α} (below : Accounts second result) :
    Accounts (fun c => c = .ok Data.nothing ∨ second c) result := by
  cases result with
  | error cause => exact .inr below
  | ok data => exact Sums.join (Sums.single rfl rfl rfl) below (Data.joins_nothing data)

theorem Accounts.congr {result : Settled α} (same : ∀ c, first c ↔ second c)
    (accounts : Accounts first result) : Accounts second result := by
  obtain rfl : first = second := funext fun c => propext (same c)
  exact accounts

end Sums

/-! ### The sum over an expression -/

theorem contributes_iff {output : Output V} {c : Settled Unit} :
    Contributes resolved output c ↔
      c = contribution resolved output ∨
        ∃ part, Below resolved output part ∧ Contributes resolved part c := by
  constructor
  · rintro ⟨node, path, rfl⟩
    cases path with
    | here => exact .inl rfl
    | inside step path => exact .inr ⟨_, step, node, path, rfl⟩
  · rintro (rfl | ⟨part, step, node, path, rfl⟩)
    · exact ⟨output, .here _, rfl⟩
    · exact ⟨node, .inside step path, rfl⟩

/-- A leaf contributes its result. -/
theorem contributes_leaf {output : Output V} (leaf : ∀ part, ¬ Below resolved output part)
    (c : Settled Unit) : Contributes resolved output c ↔ c = contribution resolved output := by
  rw [contributes_iff]
  simp [leaf]

theorem contributes_one {output part : Output V}
    (only : ∀ other, Below resolved output other ↔ other = part) (c : Settled Unit) :
    Contributes resolved output c ↔
      c = contribution resolved output ∨ Contributes resolved part c := by
  rw [contributes_iff]
  simp [only]

theorem contributes_two {output first second : Output V}
    (only : ∀ other, Below resolved output other ↔ other = first ∨ other = second)
    (c : Settled Unit) :
    Contributes resolved output c ↔ c = contribution resolved output ∨
      Contributes resolved first c ∨ Contributes resolved second c := by
  rw [contributes_iff]
  simp [only, or_and_right, exists_or]

theorem below_map {f : V → V} {outer other : Output V} :
    Below resolved (.map f outer) other ↔ other = outer :=
  ⟨by rintro ⟨⟩; rfl, by rintro rfl; exact .map f _⟩

theorem below_apply_known {f : V → Output V} {outer : Output V} {v : V} {secret : Bool}
    {dependencies : List Key}
    (known : outcome resolved outer = .ok ⟨some v, secret, dependencies⟩) (other : Output V) :
    Below resolved (.apply f outer) other ↔ other = outer ∨ other = f v := by
  constructor
  · intro step
    cases step with
    | applied => exact .inl rfl
    | entered known' =>
      rw [known] at known'
      cases known'
      exact .inr rfl
  · rintro (rfl | rfl)
    · exact .applied f _
    · exact .entered known

theorem below_apply_unknown {f : V → Output V} {outer : Output V}
    (unknown : ∀ v secret dependencies,
      outcome resolved outer ≠ .ok ⟨some v, secret, dependencies⟩) (other : Output V) :
    Below resolved (.apply f outer) other ↔ other = outer := by
  constructor
  · intro step
    cases step with
    | applied => rfl
    | entered known => exact absurd known (unknown _ _ _)
  · rintro rfl
    exact .applied f _

theorem below_after {secret : Bool} {dependencies : List Key} {inner other : Output V} :
    Below resolved (.after secret dependencies inner) other ↔ other = inner :=
  ⟨by rintro ⟨⟩; rfl, by rintro rfl; exact .after _ _ _⟩

theorem below_combine {collect : List V → V} {parts : List (Output V)} {other : Output V} :
    Below resolved (.combine collect parts) other ↔ other ∈ parts :=
  ⟨by rintro ⟨⟩; assumption, fun member => .part collect member⟩

theorem below_tuple {pair : V → V → V} {left right other : Output V} :
    Below resolved (.tuple pair left right) other ↔ other = left ∨ other = right := by
  constructor
  · rintro ⟨⟩ <;> simp
  · rintro (rfl | rfl)
    · exact .left pair _ _
    · exact .right pair _ _

theorem below_asSecret {inner other : Output V} :
    Below resolved (.asSecret inner) other ↔ other = inner :=
  ⟨by rintro ⟨⟩; rfl, by rintro rfl; exact .asSecret _⟩

theorem below_withResources {dependencies : List Key} {inner other : Output V} :
    Below resolved (.withResources dependencies inner) other ↔ other = inner :=
  ⟨by rintro ⟨⟩; rfl, by rintro rfl; exact .withResources _ _⟩

/-- What a single settled result contributes accounts for it. -/
theorem accounts_leaf (result : Settled V) :
    Accounts (· = result.map (Data.map fun _ => ())) result := by
  cases result with
  | error cause => rfl
  | ok data => exact Sums.single (by simp [Data.map]) rfl rfl

mutual

/-- The outcome of an output is accounted for by the contributions of its evaluated nodes. -/
theorem accounts_outcome (resolved : Source → Settled V) :
    ∀ output : Output V, Accounts (Contributes resolved output) (outcome resolved output)
  | .settled result =>
    (accounts_leaf result).congr fun c => (contributes_leaf (by rintro _ ⟨⟩) c).symm
  | .source origin =>
    (accounts_leaf (resolved origin)).congr fun c => (contributes_leaf (by rintro _ ⟨⟩) c).symm
  | .async result dependencies => by
    refine Accounts.congr (fun c => (contributes_leaf (by rintro _ ⟨⟩) c).symm) ?_
    unfold outcome
    cases result with
    | error cause => rfl
    | ok v => exact Sums.single rfl rfl rfl
  | .map f outer =>
    ((accounts_outcome resolved outer).beside (Data.joins_map f)).congr
      fun c => (contributes_one (fun _ => below_map) c).symm
  | .apply f outer => by
    have below := accounts_outcome resolved outer
    unfold outcome
    cases seen : outcome resolved outer with
    | error cause =>
      rw [seen] at below
      have unknown : ∀ v secret dependencies,
          outcome resolved outer ≠ .ok ⟨some v, secret, dependencies⟩ := by simp [seen]
      exact (contributes_one (below_apply_unknown unknown) _).mpr (.inr below)
    | ok data =>
      rw [seen] at below
      obtain ⟨_ | v, secret, dependencies⟩ := data
      · have unknown : ∀ v secret dependencies,
            outcome resolved outer ≠ .ok ⟨some v, secret, dependencies⟩ := by simp [seen]
        exact below.beside_nothing.congr fun c =>
          (contributes_one (below_apply_unknown unknown) c).symm
      · have inner := accounts_outcome resolved (f v)
        have both : Accounts
            (fun c => Contributes resolved outer c ∨ Contributes resolved (f v) c)
            ((outcome resolved (f v)).map (Data.after secret dependencies)) := by
          cases entered : outcome resolved (f v) with
          | error cause =>
            rw [entered] at inner
            exact .inr inner
          | ok data =>
            rw [entered] at inner
            exact Sums.join below inner (Data.joins_after _ rfl data)
        exact both.beside_nothing.congr fun c =>
          (contributes_two (below_apply_known seen) c).symm
  | .after secret dependencies inner =>
    ((accounts_outcome resolved inner).beside
      (Data.joins_after ⟨some (), secret, dependencies⟩ rfl)).congr
      fun c => (contributes_one (fun _ => below_after) c).symm
  | .combine collect parts => by
    have all := (accounts_outcomes resolved parts).beside (Data.joins_map collect)
    have same : outcome resolved (.combine collect parts) =
        ((outcomes resolved parts).map Data.combine).map (Data.map collect) := by
      unfold outcome
      cases outcomes resolved parts <;> rfl
    rw [same]
    refine all.congr fun c => ?_
    rw [contributes_iff]
    simp only [below_combine]
    rfl
  | .tuple pair left right => by
    have first := accounts_outcome resolved left
    have second := accounts_outcome resolved right
    have both : Accounts
        (fun c => Contributes resolved left c ∨ Contributes resolved right c)
        (outcome resolved (.tuple pair left right)) := by
      unfold outcome
      cases seenLeft : outcome resolved left with
      | error cause =>
        rw [seenLeft] at first
        exact .inl first
      | ok a =>
        rw [seenLeft] at first
        cases seenRight : outcome resolved right with
        | error cause =>
          rw [seenRight] at second
          exact .inr second
        | ok b =>
          rw [seenRight] at second
          exact Sums.join first second (Data.joins_pair a b fun v => pair v.1 v.2)
    exact both.beside_nothing.congr fun c => (contributes_two (fun _ => below_tuple) c).symm
  | .asSecret inner =>
    ((accounts_outcome resolved inner).beside Data.joins_asSecret).congr
      fun c => (contributes_one (fun _ => below_asSecret) c).symm
  | .withResources dependencies inner =>
    ((accounts_outcome resolved inner).beside (Data.joins_dependingOn dependencies)).congr
      fun c => (contributes_one (fun _ => below_withResources) c).symm

theorem accounts_outcomes (resolved : Source → Settled V) :
    ∀ parts : List (Output V),
      Accounts (fun c => ∃ part ∈ parts, Contributes resolved part c)
        ((outcomes resolved parts).map Data.combine)
  | [] => ⟨by simp, by simp [Data.combine], by simp [Data.combine], by simp [Data.combine]⟩
  | part :: rest => by
    have first := accounts_outcome resolved part
    have later := accounts_outcomes resolved rest
    have both : Accounts (fun c => Contributes resolved part c ∨
        ∃ part ∈ rest, Contributes resolved part c)
        ((outcomes resolved (part :: rest)).map Data.combine) := by
      unfold outcomes
      cases seen : outcome resolved part with
      | error cause =>
        rw [seen] at first
        exact .inl first
      | ok data =>
        rw [seen] at first
        cases all : outcomes resolved rest with
        | error cause =>
          rw [all] at later
          exact .inr later
        | ok datas =>
          rw [all] at later
          exact Sums.join first later (Data.joins_combine data datas)
    exact both.congr fun c => by simp

end

/-! ### Contributions of leaves and of the nodes above them -/

/-- A leaf with the given result is evaluated. -/
def EvaluatedLeaf (resolved : Source → Settled V) (output : Output V) (result : Settled V) : Prop :=
  ∃ leaf, Evaluated resolved output leaf ∧ leaf.leaf? resolved = some result

theorem contribution_of_leaf {node : Output V} {result : Settled V}
    (leaf : node.leaf? resolved = some result) :
    contribution resolved node = result.map (Data.map fun _ => ()) := by
  cases node with
  | settled | source =>
    cases leaf
    rfl
  | async result dependencies =>
    cases leaf
    cases result <;> rfl
  | _ => cases leaf

/-- Only leaves fail on their own. -/
theorem leaf_of_contribution_error {node : Output V} {cause : Failure}
    (fails : contribution resolved node = .error cause) :
    node.leaf? resolved = some (.error cause) := by
  cases leaf : node.leaf? resolved with
  | some result =>
    rw [contribution_of_leaf leaf] at fails
    cases result with
    | error other =>
      cases fails
      rfl
    | ok data => cases fails
  | none => cases node <;> cases leaf <;> cases fails

/-- A node of a built output contributes as a leaf, as a mark of secrecy, by added dependencies, or
nothing. -/
theorem contribution_ok_cases {node : Output V} (built : node.Built) {d : Data Unit}
    (adds : contribution resolved node = .ok d) :
    (∃ data, node.leaf? resolved = some (.ok data) ∧ d = data.map fun _ => ()) ∨
    (∃ inner, node = .asSecret inner ∧ d = Data.nothing.asSecret) ∨
    (∃ keys inner, node = .withResources keys inner ∧ d = Data.nothing.dependingOn keys) ∨
    d = Data.nothing := by
  cases leaf : node.leaf? resolved with
  | some result =>
    rw [contribution_of_leaf leaf] at adds
    cases result with
    | error cause => cases adds
    | ok data =>
      cases adds
      exact .inl ⟨data, rfl, rfl⟩
  | none =>
    cases node with
    | settled | source | async => cases leaf
    | after => cases built
    | asSecret inner =>
      cases adds
      exact .inr (.inl ⟨inner, rfl, rfl⟩)
    | withResources keys inner =>
      cases adds
      exact .inr (.inr (.inl ⟨keys, inner, rfl, rfl⟩))
    | map | apply | combine | tuple =>
      cases adds
      exact .inr (.inr (.inr rfl))

theorem EvaluatedLeaf.contributes {output : Output V} {data : Data V}
    (leaf : EvaluatedLeaf resolved output (.ok data)) :
    Contributes resolved output (.ok (data.map fun _ => ())) := by
  obtain ⟨node, path, result⟩ := leaf
  exact ⟨node, path, contribution_of_leaf result⟩

section Built

variable {output : Output V}

theorem contributes_error {cause : Failure} :
    Contributes resolved output (.error cause) ↔
      EvaluatedLeaf resolved output (.error cause) := by
  constructor
  · rintro ⟨node, path, fails⟩
    exact ⟨node, path, leaf_of_contribution_error fails⟩
  · rintro ⟨node, path, leaf⟩
    exact ⟨node, path, contribution_of_leaf leaf⟩

theorem known_iff (built : output.Built) :
    (∀ d, Contributes resolved output (.ok d) → d.value.isSome = true) ↔
      ∀ data, EvaluatedLeaf resolved output (.ok data) → data.value.isSome = true := by
  constructor
  · intro all data leaf
    simpa [Data.map] using all _ leaf.contributes
  · rintro all d ⟨node, path, adds⟩
    rcases contribution_ok_cases (built.evaluated path) adds with
      ⟨data, leaf, rfl⟩ | ⟨_, _, rfl⟩ | ⟨_, _, _, rfl⟩ | rfl
    · simpa [Data.map] using all data ⟨node, path, leaf⟩
    all_goals rfl

theorem secret_iff (built : output.Built) :
    (∃ d, Contributes resolved output (.ok d) ∧ d.secret = true) ↔
      (∃ data, EvaluatedLeaf resolved output (.ok data) ∧ data.secret = true) ∨
        ∃ inner, Evaluated resolved output (.asSecret inner) := by
  constructor
  · rintro ⟨d, ⟨node, path, adds⟩, secret⟩
    rcases contribution_ok_cases (built.evaluated path) adds with
      ⟨data, leaf, rfl⟩ | ⟨inner, rfl, rfl⟩ | ⟨_, _, _, rfl⟩ | rfl
    · exact .inl ⟨data, ⟨node, path, leaf⟩, secret⟩
    · exact .inr ⟨inner, path⟩
    all_goals cases secret
  · rintro (⟨data, leaf, secret⟩ | ⟨inner, path⟩)
    · exact ⟨_, leaf.contributes, secret⟩
    · exact ⟨_, ⟨_, path, rfl⟩, rfl⟩

theorem dependencies_iff (built : output.Built) (key : Key) :
    (∃ d, Contributes resolved output (.ok d) ∧ key ∈ d.dependencies) ↔
      (∃ data, EvaluatedLeaf resolved output (.ok data) ∧ key ∈ data.dependencies) ∨
        ∃ keys inner, Evaluated resolved output (.withResources keys inner) ∧ key ∈ keys := by
  constructor
  · rintro ⟨d, ⟨node, path, adds⟩, member⟩
    rcases contribution_ok_cases (built.evaluated path) adds with
      ⟨data, leaf, rfl⟩ | ⟨_, _, rfl⟩ | ⟨keys, inner, rfl, rfl⟩ | rfl
    · exact .inl ⟨data, ⟨node, path, leaf⟩, member⟩
    · cases member
    · refine .inr ⟨keys, inner, path, ?_⟩
      simpa [Data.nothing, Data.known, Data.dependingOn] using member
    · cases member
  · rintro (⟨data, leaf, member⟩ | ⟨keys, inner, path, member⟩)
    · exact ⟨_, leaf.contributes, member⟩
    · refine ⟨_, ⟨_, path, rfl⟩, ?_⟩
      simpa [Data.nothing, Data.known, Data.dependingOn] using member

end Built

/-- An output over resolved leaves is settled when it is observed. It fails if and only if an
evaluated leaf failed, and with the failure of one. Else it is known if all evaluated leaves are,
secret if an evaluated leaf or a mark is, and depends on what the evaluated leaves depend on and on
what is added to evaluated nodes. -/
theorem resolves_by_evaluated {read : Source → γ → Option (Settled V) × γ} {P : γ → Prop}
    {allowed : Source → Prop} (answers : Answers read P resolved allowed) {output : Output V}
    (built : output.Built) (sourced : output.Over allowed) {g : γ} (start : P g) :
    ∃ result, (pollWith read output g).1.output = .settled result ∧
      ((∃ cause, result = .error cause) ↔
        ∃ cause, EvaluatedLeaf resolved output (.error cause)) ∧
      (∀ cause, result = .error cause → EvaluatedLeaf resolved output (.error cause)) ∧
      ∀ data, result = .ok data →
        (data.value.isSome = true ↔
          ∀ d, EvaluatedLeaf resolved output (.ok d) → d.value.isSome = true) ∧
        (data.secret = true ↔
          (∃ d, EvaluatedLeaf resolved output (.ok d) ∧ d.secret = true) ∨
            ∃ inner, Evaluated resolved output (.asSecret inner)) ∧
        ∀ key, key ∈ data.dependencies ↔
          (∃ d, EvaluatedLeaf resolved output (.ok d) ∧ key ∈ d.dependencies) ∨
            ∃ keys inner, Evaluated resolved output (.withResources keys inner) ∧ key ∈ keys := by
  refine ⟨outcome resolved output, pollWith_outcome answers output sourced g start, ?_⟩
  have accounts := accounts_outcome resolved output
  cases seen : outcome resolved output with
  | error cause =>
    rw [seen] at accounts
    have leaf := contributes_error.mp accounts
    refine ⟨⟨fun _ => ⟨cause, leaf⟩, fun _ => ⟨cause, rfl⟩⟩, ?_, by rintro _ ⟨⟩⟩
    rintro _ ⟨⟩
    exact leaf
  | ok data =>
    rw [seen] at accounts
    refine ⟨⟨by rintro ⟨_, ⟨⟩⟩, ?_⟩, by rintro _ ⟨⟩, ?_⟩
    · rintro ⟨cause, leaf⟩
      exact absurd (contributes_error.mpr leaf) (accounts.succeeds cause)
    · rintro _ ⟨⟩
      refine ⟨?_, ?_, fun key => ?_⟩
      · rw [accounts.known, known_iff built]
      · rw [accounts.secret, secret_iff built]
      · rw [accounts.dependencies, dependencies_iff built]

def sized : Graph Nat := ⟨[⟨"size", some (.ok ⟨some 2, false, [0]⟩)⟩], []⟩

def sizes : Source → Settled Nat := fun _ => .ok ⟨some 2, false, [0]⟩

/-- The size as a secret that depends on one more resource, next to a quota that is not known. What
is to be done with the quota would fail. -/
def order : Output Nat :=
  .tuple (· + ·)
    (.apply (fun size => .withResources [3] (.asSecret (.create size))) (.source (.slot 0)))
    (.apply (fun _ => .failed .monitorClosed) (.ofData ⟨none, false, [5]⟩))

/-- The order is not known, secret, and depends on three resources; no evaluated leaf failed. -/
theorem resolves_by_evaluated_order :
    Answers (Graph.observeWithin 0) (· = sized) sizes (· = .slot 0) ∧ order.Built ∧
      order.Over (· = .slot 0) ∧
      (order.pollWith (Graph.observeWithin 0) sized).1.output =
        .settled (.ok ⟨none, true, [0, 3, 5]⟩) ∧
      (¬ ∃ cause, EvaluatedLeaf sizes order (.error cause)) ∧
      (¬ ∀ d, EvaluatedLeaf sizes order (.ok d) → d.value.isSome = true) ∧
      ((∃ d, EvaluatedLeaf sizes order (.ok d) ∧ d.secret = true) ∨
        ∃ inner, Evaluated sizes order (.asSecret inner)) ∧
      ((∃ d, EvaluatedLeaf sizes order (.ok d) ∧ 3 ∈ d.dependencies) ∨
        ∃ keys inner, Evaluated sizes order (.withResources keys inner) ∧ 3 ∈ keys) := by
  have answers : Answers (Graph.observeWithin 0) (· = sized) sizes (· = .slot 0) := by
    rintro _ rfl _ rfl
    exact ⟨rfl, rfl⟩
  have built : order.Built :=
    .tuple _
      (.apply (fun size => .withResources _ (.asSecret (.settled _))) (.source _))
      (.apply (fun _ => .settled _) (.settled _))
  have sourced : order.Over (· = .slot 0) := ⟨⟨fun _ => trivial, rfl⟩, ⟨fun _ => trivial, trivial⟩⟩
  have observed : (order.pollWith (Graph.observeWithin 0) sized).1.output =
      .settled (.ok ⟨none, true, [0, 3, 5]⟩) := rfl
  obtain ⟨result, settled, failed, -, sum⟩ := resolves_by_evaluated answers built sourced rfl
  rw [observed] at settled
  cases settled
  obtain ⟨known, secret, dependencies⟩ := sum _ rfl
  refine ⟨answers, built, sourced, observed, ?_, ?_, secret.mp rfl, (dependencies 3).mp (by decide)⟩
  · rw [← failed]
    rintro ⟨_, ⟨⟩⟩
  · rw [← known]
    decide

end Output

end Provision
