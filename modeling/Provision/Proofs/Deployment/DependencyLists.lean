import Mathlib.Data.List.Sort
import Mathlib.Logic.Equiv.Basic
import Provision.Proofs.Deployment.Exchanges
import Provision.Proofs.Input.Dependencies
import Provision.Proofs.Resource.Walk

/-!
# The dependencies in a request

A request to register a resource lists what each of its properties depends on, and what all of them
and the options depend on. Every list comes from an expansion of its own, in which components stand
for what is below them and the resource itself is left out. An expansion of several resources is
that of each of them, so the lists agree; and a list is ascending, so nothing in it tells in which
order its members came up (`dependencies_listed`).
-/

namespace Provision

namespace Deployment

/-- A resource stands for one with the URN, in what the resource `self` depends on. -/
def Expands (d : Deployment) (self key : Key) (urn : String) : Prop :=
  ∃ other, d.arena.Reaches (some self) key other ∧ d.arena.isDependable other = true ∧
    d.awaitUrn other = .done (some urn)

/-- An argument depends on a resource that stands for one with the URN. -/
def Needs (d : Deployment) (self : Key) (tree : Argument) (urn : String) : Prop :=
  ∃ key, d.DependsOn tree key ∧ d.Expands self key urn

/-- The list has exactly these URNs, each once and in ascending order. -/
structure Lists (urns : List String) (named : String → Prop) : Prop where
  ascending : urns.Pairwise (· < ·)
  exact : ∀ urn, urn ∈ urns ↔ named urn

namespace Lists

variable {urns urns' : List String} {named named' : String → Prop}

theorem congr (lists : Lists urns named) (same : ∀ urn, named' urn ↔ named urn) :
    Lists urns named' where
  ascending := lists.ascending
  exact := by simpa only [same] using lists.exact

/-- There is only one such list. -/
theorem unique (lists : Lists urns named) (lists' : Lists urns' named) : urns = urns' :=
  lists.ascending.eq_of_mem_iff lists'.ascending fun urn =>
    (lists.exact urn).trans (lists'.exact urn).symm

end Lists

variable {d : Deployment} {self : Key}

/-- What several resources stand for is what each of them stands for. -/
theorem dependencyUrns_lists {roots : List Key} {urns : List String}
    (ended : d.dependencyUrns roots (some self) = .done urns) :
    Lists urns fun urn => ∃ key ∈ roots, d.Expands self key urn := by
  obtain ⟨all, awaited, ended⟩ := Await.andThen_eq_done ended
  cases ended
  refine ⟨Ascending.pairwise_ofList _, fun urn => ?_⟩
  have found : urn ∈ Ascending.ofList (all.filterMap id) ↔
      ∃ other, (d.arena.isDependable other = true ∧
        ∃ root ∈ roots, d.arena.Reaches (some self) root other) ∧
          d.awaitUrn other = .done (some urn) := by
    simp [mem_results awaited, Arena.mem_transitiveDependencies]
  rw [found]
  constructor
  · rintro ⟨other, ⟨dependable, root, member, path⟩, settled⟩
    exact ⟨root, member, other, path, dependable, settled⟩
  · rintro ⟨root, member, other, path, dependable, settled⟩
    exact ⟨other, ⟨dependable, root, member, path⟩, settled⟩

def RowFor (d : Deployment) (self : Key) (argument : String × Argument)
    (row : String × List String) : Prop :=
  row.1 = argument.1 ∧ Lists row.2 (d.Needs self argument.2)

/-- Before the empty ones are left out, there is a row for each property. -/
theorem table_rows {args : Arguments} {properties : Fields (List Key)} {rows : DependencyTable}
    (described : List.Forall₂ (fun argument entry => entry.1 = argument.1 ∧
      entry.2.Pairwise (· < ·) ∧ ∀ key, key ∈ entry.2 ↔ d.DependsOn argument.2 key)
      args properties)
    (ended : awaitAll (fun p : String × List Key =>
      (d.dependencyUrns p.2 (some self)).andThen fun urns => .done (p.1, urns)) properties =
        .done rows) :
    List.Forall₂ (d.RowFor self) args rows := by
  induction described generalizing rows with
  | nil =>
    cases ended
    exact .nil
  | cons same _ ih =>
    obtain ⟨row, first, ended⟩ := Await.andThen_eq_done ended
    obtain ⟨rest, later, ended⟩ := Await.andThen_eq_done ended
    cases ended
    obtain ⟨urns, found, first⟩ := Await.andThen_eq_done first
    cases first
    obtain ⟨name, -, keys⟩ := same
    refine .cons ⟨name, (dependencyUrns_lists found).congr fun urn => ?_⟩ (ih later)
    simp only [Needs, keys]

theorem exists_of_rows {α β : Type} {R : α → β → Prop} {list : List α} {rows : List β}
    (all : List.Forall₂ R list rows) :
    (∀ a ∈ list, ∃ b ∈ rows, R a b) ∧ ∀ b ∈ rows, ∃ a ∈ list, R a b := by
  induction all with
  | nil => simp
  | cons row _ ih =>
    simp only [List.forall_mem_cons, List.exists_mem_cons_iff]
    exact ⟨⟨.inl row, fun a member => .inr (ih.1 a member)⟩,
      .inl row, fun b member => .inr (ih.2 b member)⟩

theorem keys_of_rows {args : Arguments} {rows : DependencyTable}
    (all : List.Forall₂ (d.RowFor self) args rows) : Fields.keys rows = args.keys := by
  induction all with
  | nil => rfl
  | cons row _ ih => exact congrArg₂ List.cons row.1 ih

structure Listed (d : Deployment) (job : Registration) (request : RegisterRequest) : Prop where
  all : Lists request.dependencies fun urn =>
    (∃ argument ∈ job.args, d.Needs job.key argument.2 urn) ∨
      ∃ key ∈ job.options.dependsOn, d.Expands job.key key urn
  /-- The rows that are not empty. -/
  each : ∀ row, row ∈ request.propertyDependencies ↔
    row.2 ≠ [] ∧ ∃ argument ∈ job.args, d.RowFor job.key argument row
  /-- There could be a row for each argument. -/
  listed : ∀ argument ∈ job.args, ∃ row, d.RowFor job.key argument row
  ordered : job.args.Ordered → request.propertyDependencies.Ordered

variable {features : EngineFeatures} {job : Registration} {request : RegisterRequest}

/-- What was awaited for the lists in a request. -/
theorem exchange_expands (ready : d.exchange features job = .done (.register request)) :
    ∃ properties rows, d.serialize features job.name job.args = .done properties ∧
      d.dependencyUrns (Ascending.union properties.allDependencies job.options.dependsOn)
        (some job.key) = .done request.dependencies ∧
      awaitAll (fun p : String × List Key =>
        (d.dependencyUrns p.2 (some job.key)).andThen fun urns => .done (p.1, urns))
          properties.propertyDependencies = .done rows ∧
      request.propertyDependencies = rows.filter fun row => !row.2.isEmpty := by
  obtain ⟨properties, serialized, ready⟩ := Await.andThen_eq_done ready
  obtain ⟨dependencies, total, ready⟩ := Await.andThen_eq_done ready
  obtain ⟨table, tabled, ready⟩ := Await.andThen_eq_done ready
  obtain ⟨parentUrn, -, ready⟩ := Await.andThen_eq_done ready
  obtain ⟨reference, -, ready⟩ := Await.andThen_eq_done ready
  obtain ⟨providers, -, ready⟩ := Await.andThen_eq_done ready
  obtain ⟨aliases, -, ready⟩ := Await.andThen_eq_done ready
  obtain ⟨id, -, ready⟩ := Await.andThen_eq_done ready
  obtain ⟨rows, awaited, tabled⟩ := Await.andThen_eq_done tabled
  cases tabled
  dsimp only at ready
  split at ready
  · cases ready
  · cases ready
    exact ⟨properties, rows, serialized, total, awaited, rfl⟩

/-- The dependencies of a request are what its properties need and what the options name. -/
theorem exchange_lists (ready : d.exchange features job = .done (.register request)) :
    Listed d job request := by
  obtain ⟨properties, rows, serialized, total, awaited, filtered⟩ := exchange_expands ready
  have described := d.serialize_table serialized
  obtain ⟨ofArgument, ofEntry⟩ := exists_of_rows described
  have tabled := table_rows described awaited
  obtain ⟨hasRow, ofRow⟩ := exists_of_rows tabled
  refine ⟨(dependencyUrns_lists total).congr fun urn => ?_, fun row => ?_, ?_, fun ordered => ?_⟩
  · simp only [Ascending.mem_union, properties.mem_allDependencies, or_and_right, exists_or]
    refine or_congr_left ⟨?_, ?_⟩
    · rintro ⟨argument, member, key, needed, expands⟩
      obtain ⟨entry, listed, -, -, keys⟩ := ofArgument argument member
      exact ⟨key, ⟨entry, listed, (keys key).mpr needed⟩, expands⟩
    · rintro ⟨key, ⟨entry, listed, needed⟩, expands⟩
      obtain ⟨argument, member, -, -, keys⟩ := ofEntry entry listed
      exact ⟨argument, member, key, (keys key).mp needed, expands⟩
  · rw [filtered, List.mem_filter]
    simp only [Bool.not_eq_true', List.isEmpty_eq_false_iff, and_comm]
    refine and_congr_right fun nonempty => ⟨ofRow row, ?_⟩
    rintro ⟨argument, member, name, lists⟩
    obtain ⟨other, present, name', lists'⟩ := hasRow argument member
    have same : other = row := Prod.ext (name'.trans name.symm) (lists'.unique lists)
    exact same ▸ present
  · exact fun argument member => (hasRow argument member).imp fun row => And.right
  · have named : Fields.keys rows = job.args.keys := keys_of_rows tabled
    have inOrder : Fields.Ordered rows := by
      unfold Fields.Ordered
      rwa [named]
    exact filtered ▸ inOrder.filter _

/-! ### Orders -/

/-- The resources of one deployment are those of another under other keys. A component has the
same resources inside, in any order. -/
structure Renames (rename : Key ≃ Key) (d d' : Deployment) : Prop where
  urns : ∀ key, d'.awaitUrn (rename key) = d.awaitUrn key
  dependable : ∀ key, d'.arena.isDependable (rename key) = d.arena.isDependable key
  inside : ∀ key child,
    rename child ∈ d'.arena.expansion (rename key) ↔ child ∈ d.arena.expansion key

/-- An argument with the same name that depends on the same resources. -/
def RenamesArgument (rename : Key ≃ Key) (d d' : Deployment)
    (argument argument' : String × Argument) : Prop :=
  argument'.1 = argument.1 ∧
    ∀ key, d'.DependsOn argument'.2 (rename key) ↔ d.DependsOn argument.2 key

/-- A registration with the same dependencies, where the arguments, the options and the resources
inside components may come in any order. -/
structure Reorders (rename : Key ≃ Key) (d d' : Deployment) (job job' : Registration) : Prop where
  resources : Renames rename d d'
  self : job'.key = rename job.key
  options : ∀ key, rename key ∈ job'.options.dependsOn ↔ key ∈ job.options.dependsOn
  arguments : ∀ argument ∈ job.args, ∃ argument' ∈ job'.args,
    RenamesArgument rename d d' argument argument'
  arguments' : ∀ argument' ∈ job'.args, ∃ argument ∈ job.args,
    RenamesArgument rename d d' argument argument'

variable {rename : Key ≃ Key} {d' : Deployment} {job' : Registration} {request' : RegisterRequest}

namespace Renames

/-- What can be awaited of a resource depends on its identity. -/
theorem of_identities (graph : d'.graph = d.graph)
    (identities : ∀ key, d'.arena.identity? (rename key) = d.arena.identity? key)
    (inside : ∀ key child,
      rename child ∈ d'.arena.expansion (rename key) ↔ child ∈ d.arena.expansion key) :
    Renames rename d d' where
  urns key := by
    unfold awaitUrn urnOf
    rw [graph, identities]
  dependable key := by
    rw [Bool.eq_iff_iff, Arena.isDependable_iff, Arena.isDependable_iff, identities]
  inside := inside

theorem symm (renames : Renames rename d d') : Renames rename.symm d' d where
  urns key := by simpa using (renames.urns (rename.symm key)).symm
  dependable key := by simpa using (renames.dependable (rename.symm key)).symm
  inside key child := by simpa using (renames.inside (rename.symm key) (rename.symm child)).symm

theorem reaches (renames : Renames rename d d') {key other : Key}
    (path : d.arena.Reaches (some self) key other) :
    d'.arena.Reaches (some (rename self)) (rename key) (rename other) := by
  have apart {key : Key} (present : some key ≠ some self) :
      some (rename key) ≠ some (rename self) := by simpa using present
  induction path with
  | here present => exact .here (apart present)
  | child present below _ ih => exact .child (apart present) ((renames.inside _ _).mpr below) ih

theorem expands (renames : Renames rename d d') {key : Key} {urn : String}
    (expands : d.Expands self key urn) : d'.Expands (rename self) (rename key) urn := by
  obtain ⟨other, path, dependable, settled⟩ := expands
  exact ⟨rename other, renames.reaches path, (renames.dependable other).trans dependable,
    (renames.urns other).trans settled⟩

theorem expands_iff (renames : Renames rename d d') {key : Key} {urn : String} :
    d'.Expands (rename self) (rename key) urn ↔ d.Expands self key urn :=
  ⟨fun there => by simpa using renames.symm.expands there, renames.expands⟩

theorem needs_iff (renames : Renames rename d d') {argument argument' : String × Argument}
    (same : RenamesArgument rename d d' argument argument') (urn : String) :
    d'.Needs (rename self) argument'.2 urn ↔ d.Needs self argument.2 urn := by
  unfold Needs
  rw [rename.surjective.exists]
  simp only [same.2, renames.expands_iff]

theorem rowFor_iff (renames : Renames rename d d') {argument argument' : String × Argument}
    (same : RenamesArgument rename d d' argument argument') {row : String × List String} :
    d'.RowFor (rename self) argument' row ↔ d.RowFor self argument row := by
  have needs (urn : String) :
      d'.Needs (rename self) argument'.2 urn ↔ d.Needs self argument.2 urn :=
    renames.needs_iff same urn
  refine and_congr (by rw [same.1]) ⟨fun lists => ?_, fun lists => ?_⟩
  · exact lists.congr fun urn => (needs urn).symm
  · exact lists.congr needs

end Renames

/-- The arguments, the options and the resources inside components are in another order. -/
theorem Reorders.of_perm (graph : d'.graph = d.graph)
    (identities : ∀ key, d'.arena.identity? key = d.arena.identity? key)
    (inside : ∀ key, (d'.arena.expansion key).Perm (d.arena.expansion key))
    (self : job'.key = job.key) (options : job'.options.dependsOn.Perm job.options.dependsOn)
    (arguments : job'.args.Perm job.args) : Reorders (.refl Key) d d' job job' := by
  have same (argument : String × Argument) :
      RenamesArgument (.refl Key) d d' argument argument := by
    refine ⟨rfl, fun key => ?_⟩
    unfold DependsOn Holds
    rw [graph]
    rfl
  refine ⟨.of_identities graph identities fun key child => (inside key).mem_iff, self,
    fun key => options.mem_iff, fun argument member => ?_, fun argument member => ?_⟩
  · exact ⟨argument, arguments.mem_iff.mpr member, same argument⟩
  · exact ⟨argument, arguments.mem_iff.mp member, same argument⟩

/-- Registrations with the same dependencies have the same lists in their requests. -/
theorem Reorders.lists (reorders : Reorders rename d d' job job') (listed : Listed d job request)
    (listed' : Listed d' job' request') :
    request'.dependencies = request.dependencies ∧
      ∀ row, row ∈ request'.propertyDependencies ↔ row ∈ request.propertyDependencies := by
  obtain ⟨resources, self, options, arguments, arguments'⟩ := reorders
  refine ⟨listed'.all.unique (listed.all.congr fun urn => ?_), fun row => ?_⟩
  · rw [self, rename.surjective.exists]
    simp only [options, resources.expands_iff]
    refine or_congr_left ⟨?_, ?_⟩
    · rintro ⟨argument', member, needs⟩
      obtain ⟨argument, present, same⟩ := arguments' argument' member
      exact ⟨argument, present, (resources.needs_iff same urn).mp needs⟩
    · rintro ⟨argument, member, needs⟩
      obtain ⟨argument', present, same⟩ := arguments argument member
      exact ⟨argument', present, (resources.needs_iff same urn).mpr needs⟩
  · rw [listed'.each, listed.each, self]
    refine and_congr_right fun _ => ⟨?_, ?_⟩
    · rintro ⟨argument', member, rowFor⟩
      obtain ⟨argument, present, same⟩ := arguments' argument' member
      exact ⟨argument, present, (resources.rowFor_iff same).mp rowFor⟩
    · rintro ⟨argument, member, rowFor⟩
      obtain ⟨argument', present, same⟩ := arguments argument member
      exact ⟨argument', present, (resources.rowFor_iff same).mpr rowFor⟩

/-- What is in the rows of a request and what the options stand for is the list of all
dependencies. -/
theorem Listed.mem_dependencies (listed : Listed d job request) (urn : String) :
    urn ∈ request.dependencies ↔
      (∃ row ∈ request.propertyDependencies, urn ∈ row.2) ∨
        ∃ key ∈ job.options.dependsOn, d.Expands job.key key urn := by
  rw [listed.all.exact]
  refine or_congr_left ⟨?_, ?_⟩
  · rintro ⟨argument, member, needs⟩
    obtain ⟨row, rowFor⟩ := listed.listed argument member
    have there : urn ∈ row.2 := (rowFor.2.exact urn).mpr needs
    exact ⟨row, (listed.each row).mpr ⟨List.ne_nil_of_mem there, argument, member, rowFor⟩, there⟩
  · rintro ⟨row, present, there⟩
    obtain ⟨-, argument, member, rowFor⟩ := (listed.each row).mp present
    exact ⟨argument, member, (rowFor.2.exact urn).mp there⟩

/-- The dependencies of a request to register are, each once and in ascending order, the URNs that
its properties depend on and those that the options stand for. The list of a property is never
empty, and ascends too. Whatever the order of the arguments, of the options and of the resources
inside components, and whatever keys the resources have, the lists are the same. -/
theorem dependencies_listed (ready : d.exchange features job = .done (.register request)) :
    request.dependencies.Pairwise (· < ·) ∧
    (∀ urn, urn ∈ request.dependencies ↔
      (∃ row ∈ request.propertyDependencies, urn ∈ row.2) ∨
        ∃ key ∈ job.options.dependsOn, d.Expands job.key key urn) ∧
    (∀ row ∈ request.propertyDependencies, row.2 ≠ [] ∧ row.2.Pairwise (· < ·)) ∧
    ∀ (rename : Key ≃ Key) (d' : Deployment) (features' : EngineFeatures) (job' : Registration)
      (request' : RegisterRequest), Reorders rename d d' job job' →
      d'.exchange features' job' = .done (.register request') →
        request'.dependencies = request.dependencies ∧
        (∀ row, row ∈ request'.propertyDependencies ↔ row ∈ request.propertyDependencies) ∧
        (job.args.Ordered → job'.args.Ordered →
          request'.propertyDependencies = request.propertyDependencies) := by
  have listed := exchange_lists ready
  refine ⟨listed.all.ascending, listed.mem_dependencies, fun row present => ?_, ?_⟩
  · obtain ⟨nonempty, argument, -, rowFor⟩ := (listed.each row).mp present
    exact ⟨nonempty, rowFor.2.ascending⟩
  · intro rename d' features' job' request' reorders ready'
    have listed' := exchange_lists ready'
    obtain ⟨total, rows⟩ := reorders.lists listed listed'
    exact ⟨total, rows, fun ordered ordered' =>
      (listed'.ordered ordered').ext_mem (listed.ordered ordered) rows⟩

/-! ### A nest -/

/-- A component with two resources in it, and a resource beside it. -/
def nest (first second : String) : Deployment :=
  let add (kind : ResourceKind) (parent : Option Key) (urn : String) (arena : Arena) : Arena :=
    (arena.insert { parent } fun _ =>
      { type := "pkg:index:Thing", name := "thing", kind, urn := .create urn }).2
  { arena := .empty |> add .component none "urn:nest" |> add .custom (some 0) first |>
      add .custom (some 0) second |> add .custom none "urn:bird" }

/-- The registration of the resource beside it. -/
def birdJob (args : Arguments) (dependsOn : List Key) : Registration :=
  { key := 3, type := "pkg:index:Thing", name := "bird", kind := .custom, parent := none, args
    options := { dependsOn }, provider := none, explicitProviders := [], protect := none
    urnSlot := 0, idSlot := none, outputs := [] }

theorem dependsOn_resource {key other : Key} : d.DependsOn (.resource key) other ↔ other = key := by
  constructor
  · rintro ⟨site, reached, there⟩
    cases reached
    simpa [Input.Site.keys] using there
  · rintro rfl
    exact ⟨_, .resource, by simp [Input.Site.keys]⟩

theorem dependsOn_unknown {secret : Bool} {keys : List Key} {key : Key} :
    d.DependsOn (.unknown secret keys) key ↔ key ∈ keys := by
  constructor
  · rintro ⟨site, reached, there⟩
    cases reached
    exact there
  · exact fun member => ⟨_, .unknown, member⟩

theorem nest_expansion (first second : String) (key : Key) :
    (nest first second).arena.expansion key = if key = 0 then [1, 2] else [] := by
  match key with
  | 0 | 1 | 2 | 3 | _ + 4 => rfl

theorem nest_renames (first second : String) :
    Renames (Equiv.swap 1 2) (nest first second) (nest second first) := by
  have beyond (n : Nat) : Equiv.swap 1 2 (n + 4) = n + 4 :=
    Equiv.swap_apply_of_ne_of_ne (by omega) (by omega)
  refine .of_identities rfl (fun key => ?_) fun key child => ?_
  · match key with
    | 0 | 1 | 2 | 3 => rfl
    | n + 4 => exact congrArg (nest second first).arena.identity? (beyond n)
  · simp only [nest_expansion, Equiv.swap_apply_def]
    split_ifs <;> simp_all

/-- The lists are those of the request in which the two resources were constructed the other way
round, and of the one in which arguments and options are given the other way round. -/
theorem dependencies_listed_nest :
    let job := birdJob [("near", .unknown false [1]), ("whole", .resource 0)] [0, 1]
    let job' := birdJob [("whole", .resource 0), ("near", .unknown false [2])] [2, 0]
    let job'' := birdJob [("whole", .resource 0), ("near", .unknown false [1])] [1, 0]
    let d := nest "urn:left" "urn:right"
    let d' := nest "urn:right" "urn:left"
    ∃ request request' request'' : RegisterRequest,
      d.exchange ⟨true, true⟩ job = .done (.register request) ∧
      d'.exchange ⟨true, true⟩ job' = .done (.register request') ∧
      d.exchange ⟨true, true⟩ job'' = .done (.register request'') ∧
      Reorders (Equiv.swap 1 2) d d' job job' ∧
      request.dependencies = ["urn:left", "urn:right"] ∧
      request.propertyDependencies =
        [("near", ["urn:left"]), ("whole", ["urn:left", "urn:right"])] ∧
      request'.dependencies = request.dependencies ∧
      (∀ row, row ∈ request'.propertyDependencies ↔ row ∈ request.propertyDependencies) ∧
      request''.dependencies = request.dependencies ∧
      ∀ row, row ∈ request''.propertyDependencies ↔ row ∈ request.propertyDependencies := by
  intro job job' job'' d d'
  obtain ⟨request, ready, total, table⟩ : ∃ request : RegisterRequest,
      d.exchange ⟨true, true⟩ job = .done (.register request) ∧
      request.dependencies = ["urn:left", "urn:right"] ∧
      request.propertyDependencies =
        [("near", ["urn:left"]), ("whole", ["urn:left", "urn:right"])] := ⟨_, rfl, rfl, rfl⟩
  obtain ⟨request', ready'⟩ : ∃ request' : RegisterRequest,
      d'.exchange ⟨true, true⟩ job' = .done (.register request') := ⟨_, rfl⟩
  obtain ⟨request'', ready''⟩ : ∃ request'' : RegisterRequest,
      d.exchange ⟨true, true⟩ job'' = .done (.register request'') := ⟨_, rfl⟩
  have near : RenamesArgument (Equiv.swap 1 2) d d' ("near", .unknown false [1])
      ("near", .unknown false [2]) := by
    refine ⟨rfl, fun key => ?_⟩
    simp [dependsOn_unknown, Equiv.swap_apply_eq_iff]
  have whole : RenamesArgument (Equiv.swap 1 2) d d' ("whole", .resource 0)
      ("whole", .resource 0) := by
    refine ⟨rfl, fun key => ?_⟩
    rw [dependsOn_resource, dependsOn_resource, Equiv.swap_apply_eq_iff]
    rfl
  have reorders : Reorders (Equiv.swap 1 2) d d' job job' := by
    refine ⟨nest_renames _ _, rfl, fun key => ?_, ?_, ?_⟩
    · have second : Equiv.swap 1 2 key = 2 ↔ key = 1 := by simp [Equiv.swap_apply_eq_iff]
      have first : Equiv.swap 1 2 key = 0 ↔ key = 0 := Equiv.swap_apply_eq_iff
      simp [job, job', birdJob, first, second, or_comm]
    · simp [job, job', birdJob, near, whole]
    · simp [job, job', birdJob, near, whole]
  have reorders' : Reorders (.refl Key) d d job job'' :=
    .of_perm rfl (fun _ => rfl) (fun _ => .refl _) rfl (.swap 0 1 []) (.swap _ _ [])
  obtain ⟨-, -, -, orders⟩ := dependencies_listed ready
  obtain ⟨same, rows, -⟩ := orders _ d' _ job' request' reorders ready'
  obtain ⟨same', rows', -⟩ := orders _ d _ job'' request'' reorders' ready''
  exact ⟨request, request', request'', ready, ready', ready'', reorders, total, table, same, rows,
    same', rows'⟩

end Deployment

end Provision
