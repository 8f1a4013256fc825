import Provision.Proofs.Deployment.Ownership

/-!
# What every step keeps

Each step of a program and its deployment keeps the ownership of the slots, and whatever was
settled before it: outcomes of slots, ends of tasks, identities of resources (`Follows`). So both
hold along every history (`History.keeps`).
-/

namespace Provision

namespace Deployment

/-- `after` is `before` some time later: outcomes, ends of tasks and identities stay. -/
structure Follows (before after : Deployment) : Prop where
  resolved : ∀ n result, before.graph.Holds n result → after.graph.Holds n result
  identities : ∀ key identity, before.arena.identity? key = some identity →
    after.arena.identity? key = some identity
  tasks : ∀ (number : Nat) (task : Task), before.tasks[number]? = some task →
    ∃ progress tracked, after.tasks[number]? = some ⟨task.job, progress, tracked⟩ ∧
      (task.progress = .underWay ∨ progress = task.progress)

namespace Follows

theorem refl (d : Deployment) : Follows d d :=
  ⟨fun _ _ h => h, fun _ _ h => h, fun _ task h => ⟨task.progress, task.tracked, h, .inr rfl⟩⟩

theorem trans {d₁ d₂ d₃ : Deployment} (h : Follows d₁ d₂) (h' : Follows d₂ d₃) :
    Follows d₁ d₃ where
  resolved := fun n result hr => h'.resolved n result (h.resolved n result hr)
  identities := fun key identity hk => h'.identities key identity (h.identities key identity hk)
  tasks := by
    intro number task here
    obtain ⟨progress, tracked, later, first⟩ := h.tasks number task here
    obtain ⟨progress', tracked', last, second⟩ := h'.tasks number _ later
    refine ⟨progress', tracked', last, ?_⟩
    rcases first with waiting | rfl
    · exact .inl waiting
    · exact second

/-- Slots are written and tasks added. -/
theorem of_writes {d d' : Deployment} {touched : List Nat} {added : List Task}
    (writes : Graph.Writes touched d.graph d'.graph) (tasks : d'.tasks = d.tasks ++ added)
    (identities : ∀ key identity, d.arena.identity? key = some identity →
      d'.arena.identity? key = some identity) : Follows d d' where
  resolved := writes.resolved
  identities := identities
  tasks := by
    intro number task here
    have lt := (List.getElem?_eq_some_iff.mp here).1
    refine ⟨task.progress, task.tracked, ?_, .inr rfl⟩
    rw [tasks, List.getElem?_append_left lt, here]

theorem of_gains {d d' : Deployment} (gains : Gains d d') : Follows d d' :=
  of_writes (gains.completes []).writes (gains.tasks.trans (List.append_nil _).symm)
    gains.identities

/-- A task under way makes progress. -/
theorem of_note {d d' : Deployment} {number : Nat} {job : Job} {tracked : Bool}
    {touched : List Nat} (task : d.tasks[number]? = some ⟨job, .underWay, tracked⟩)
    (completes : Completes touched d d') (progress : Progress) :
    Follows d (d'.note number progress) where
  resolved := completes.writes.resolved
  identities := completes.identities
  tasks := by
    intro i other here
    by_cases h : number = i
    · subst h
      obtain rfl : ⟨job, .underWay, tracked⟩ = other := by
        rw [task] at here
        exact Option.some.inj here
      exact ⟨progress, tracked, by simp [note, completes.tasks, task], .inl rfl⟩
    · refine ⟨other.progress, other.tracked, ?_, .inr rfl⟩
      simp [note, completes.tasks, h, here]

end Follows

def Keeps (d d' : Deployment) (held held' : List (List DeclaredOutput)) (own own' : List Nat) :
    Prop :=
  d.Owned held own → d'.Owned held' own' ∧ Follows d d'

variable {d d' : Deployment} {held before after : List (List DeclaredOutput)} {own : List Nat}

theorem Keeps.of_gains (gains : Gains d d') : Keeps d d' held held own own :=
  fun owned => ⟨owned.gains gains, .of_gains gains⟩

theorem giveUp_writes (declared : List DeclaredOutput) (d : Deployment) :
    Graph.Writes (declared.map DeclaredOutput.slot) d.graph (d.giveUp declared).graph := by
  suffices ∀ graph : Graph HostValue, Graph.Writes (declared.map DeclaredOutput.slot) graph
      (declared.foldl (fun graph o => graph.drop o.slot) graph) from this d.graph
  induction declared with
  | nil => exact fun graph => .refl _ graph
  | cons o rest ih =>
    intro graph
    exact ((Graph.drop_writes graph o.slot).mono (by simp)).trans ((ih _).mono (by simp))

theorem giveUp_keeps {declared : List DeclaredOutput} :
    Keeps d (d.giveUp declared) (before ++ declared :: after) (before ++ after) own own := by
  intro owned
  obtain ⟨rest, apart⟩ := owned.release
  have writes := giveUp_writes declared d
  exact ⟨rest.writes writes rfl (fun _ _ h => h) fun n hn => apart n (List.mem_append_right _ hn),
    .of_writes writes (List.append_nil _).symm fun _ _ h => h⟩

/-- A new slot is open and nobody's. -/
theorem Owned.addSlot (owned : Owned d held own) (name : String) :
    Owned (d.addSlot name).2 held own :=
  owned.writes (Graph.addSlot_writes d.graph name) rfl (fun _ _ h => h) (by simp)

theorem Owned.fresh (owned : Owned d held own) {n : Nat} (le : d.graph.slots.length ≤ n) :
    n ∉ own ++ d.awaiting held := by
  intro hn
  have := owned.lt hn
  omega

theorem addSlot_isOpen (d : Deployment) (name : String) :
    (d.addSlot name).2.graph.IsOpen (d.addSlot name).1 :=
  Graph.addSlot_isOpen d.graph name

theorem addSlot_follows (d : Deployment) (name : String) : Follows d (d.addSlot name).2 :=
  .of_writes (Graph.addSlot_writes d.graph name) (List.append_nil _).symm fun _ _ h => h

theorem addSlot_keeps (name : String) :
    Keeps d (d.addSlot name).2 held held own ((d.addSlot name).1 :: own) := by
  intro owned
  refine ⟨(owned.addSlot name).take (addSlot_isOpen d name).lt ?_, addSlot_follows d name⟩
  exact owned.fresh (Nat.le_refl _)

/-- What the program does with its own slots. -/
theorem own_keeps {slot : Nat} (mine : slot ∈ own) {graph : Graph HostValue}
    (writes : Graph.Writes [slot] d.graph graph) :
    Keeps d { d with graph } held held own own := by
  intro owned
  refine ⟨owned.writes writes rfl (fun _ _ h => h) ?_,
    .of_writes writes (List.append_nil _).symm fun _ _ h => h⟩
  rintro n hn hs
  obtain rfl := List.mem_singleton.mp hs
  exact (List.nodup_append.mp owned.nodup).2.2 n mine n hn rfl

/-- What leaves all slots alone. -/
theorem slots_keeps {graph : Graph HostValue} (same : graph.slots = d.graph.slots) :
    Keeps d { d with graph } held held own own := by
  intro owned
  have writes : Graph.Writes [] d.graph graph := .of_slots_eq same
  exact ⟨owned.writes writes rfl (fun _ _ h => h) (by simp),
    .of_writes writes (List.append_nil _).symm fun _ _ h => h⟩

/-- A new collection is empty. -/
theorem Owned.collect (before : List (List DeclaredOutput))
    (owned : Owned d (before ++ after) own) :
    Owned d (before ++ [] :: after) own := by
  have same : d.awaiting (before ++ [] :: after) = d.awaiting (before ++ after) := by
    simp only [awaiting, List.flatten_append, List.flatten_cons, List.nil_append]
  refine ⟨same ▸ owned.nodup, owned.exist, same ▸ owned.isOpen, ?_, owned.settled⟩
  intro declared member o ho
  simp only [List.mem_append, List.mem_cons] at member
  rcases member with member | rfl | member
  · exact owned.valid declared (by simp [member]) o ho
  · cases ho
  · exact owned.valid declared (by simp [member]) o ho

theorem declare_keeps {declared : List DeclaredOutput} (name : String) (schema : Schema) :
    Keeps d (d.declare declared name schema).2 (before ++ declared :: after)
      (before ++ ((d.declare declared name schema).1.toOption.getD declared) :: after) own own := by
  intro owned
  unfold declare
  split
  · exact ⟨owned, .refl d⟩
  · rename_i valid
    split
    · exact ⟨owned, .refl d⟩
    · refine ⟨(owned.addSlot name).declare (o := ⟨name, (d.addSlot name).1, schema⟩)
        (addSlot_isOpen d name) ?_ ?_, addSlot_follows d name⟩
      · exact owned.fresh (Nat.le_refl _)
      · exact fun context => Shape.validate_context valid

/-- The task that a registration starts with, and the deployment just before it: the resource has
the next key, and the slots of its identity are new. -/
structure Starts (d : Deployment) (spec : ResourceSpec) (job : Registration) (d' : Deployment) :
    Prop where
  writes : Graph.Writes [] d.graph d'.graph
  tasks : d'.tasks = d.tasks
  identities : ∀ key identity, d.arena.identity? key = some identity →
    d'.arena.identity? key = some identity
  key : job.key = d.arena.size
  name : job.name = spec.name
  type : job.type = spec.type
  kind : job.kind = spec.kind
  outputs : job.outputs = spec.outputs
  handle : d'.arena.identity? job.key =
    some
      { type := job.type, name := job.name, kind := job.kind
        urn := .source (.slot job.urnSlot), id := job.idSlot.map fun slot => .source (.slot slot) }
  /-- No other resource is new. -/
  others : ∀ key identity, d'.arena.identity? key = some identity →
    key = job.key ∨ d.arena.identity? key = some identity
  hasId : job.idSlot.isSome = job.kind.isCustomLike
  nodup : (identitySlots job).Nodup
  new : ∀ n ∈ identitySlots job, d.graph.slots.length ≤ n
  isOpen : ∀ n ∈ identitySlots job, d'.graph.IsOpen n

/-- New open slots, and nothing else. -/
structure AddsIdentity (d : Deployment) (kind : ResourceKind) (slots : Nat × Option Nat)
    (d' : Deployment) : Prop where
  writes : Graph.Writes [] d.graph d'.graph
  tasks : d'.tasks = d.tasks
  arena : d'.arena = d.arena
  hasId : slots.2.isSome = kind.isCustomLike
  nodup : (slots.1 :: slots.2.toList).Nodup
  new : ∀ n ∈ slots.1 :: slots.2.toList, d.graph.slots.length ≤ n
  isOpen : ∀ n ∈ slots.1 :: slots.2.toList, d'.graph.IsOpen n

theorem addIdentity_spec (d : Deployment) (kind : ResourceKind) :
    AddsIdentity d kind (d.addIdentity kind).1 (d.addIdentity kind).2 := by
  have urn := Graph.addSlot_writes d.graph "urn"
  have urn_open := addSlot_isOpen d "urn"
  have id := Graph.addSlot_writes (d.addSlot "urn").2.graph "id"
  have id_open := addSlot_isOpen (d.addSlot "urn").2 "id"
  have number : ((d.addSlot "urn").2.addSlot "id").1 = (d.addSlot "urn").1 + 1 := by
    simp [addSlot, Graph.addSlot]
  unfold addIdentity
  dsimp only
  by_cases custom : kind.isCustomLike = true
  · rw [if_pos custom]
    refine ⟨urn.trans id, rfl, rfl, custom.symm, ?_, ?_, ?_⟩
    · simp only [Option.toList_some, List.nodup_cons, List.mem_singleton]
      exact ⟨by omega, by simp⟩
    · intro n hn
      simp only [Option.toList_some, List.mem_cons, List.not_mem_nil, or_false] at hn
      have first : (d.addSlot "urn").1 = d.graph.slots.length := rfl
      omega
    · intro n hn
      simp only [Option.toList_some, List.mem_cons, List.not_mem_nil, or_false] at hn
      rcases hn with rfl | rfl
      · exact id.isOpen (by simp) urn_open
      · exact id_open
  · rw [if_neg custom]
    refine ⟨urn, rfl, rfl, by simpa using custom, by simp, ?_, ?_⟩
    · intro n hn
      obtain rfl : n = (d.addSlot "urn").1 := by simpa using hn
      exact Nat.le_refl _
    · intro n hn
      obtain rfl : n = (d.addSlot "urn").1 := by simpa using hn
      exact urn_open

theorem start_spec (d : Deployment) (spec : ResourceSpec) (parent : Option Key)
    (transformations : List Transformation) (args : Arguments) (options : Options) :
    ∃ job d', Starts d spec job d' ∧
      d.start spec parent transformations args options =
        (job.key, { d' with tasks := d'.tasks ++ [⟨.registration job, .underWay, true⟩] }) := by
  have adds := addIdentity_spec d spec.kind
  unfold start
  generalize d.addIdentity spec.kind = r at adds
  obtain ⟨⟨urnSlot, idSlot⟩, d₁⟩ := r
  dsimp only
  generalize d.chooseProviders spec.kind spec.type options _ = providers
  generalize options.protect.or _ = protect
  generalize ({ options with version := _, pluginDownloadUrl := _ } : Options) = settled
  generalize ({ parent, providers := _, transformations, protect, version := _
                pluginDownloadUrl := _ } : Inheritance) = inheritance
  generalize hnew : (fun _ : Key => Identity.mk spec.type spec.name spec.kind _ _ _) = new
  let job : Registration :=
    { key := d₁.arena.size, type := spec.type, name := spec.name, kind := spec.kind, parent, args
      options := settled, provider := providers.own, explicitProviders := providers.explicit
      protect, urnSlot, idSlot, outputs := spec.outputs }
  refine ⟨job, { d₁ with arena := (d₁.arena.insert inheritance new).2 }, ?_, rfl⟩
  exact
    { writes := adds.writes, tasks := adds.tasks
      identities := fun _ _ h => Arena.identity?_insert _ _ (adds.arena ▸ h)
      key := congrArg Arena.size adds.arena
      name := rfl, type := rfl, kind := rfl, outputs := rfl
      handle := (Arena.identity?_insert_self _ _ _).trans (by rw [← hnew])
      others := fun _ _ h => (Arena.identity?_of_insert h).imp And.left fun old => adds.arena ▸ old
      hasId := adds.hasId, nodup := adds.nodup, new := adds.new, isOpen := adds.isOpen }

/-- The slots of the identity of a resource are new, and its collection becomes its task's. -/
theorem start_keeps {spec : ResourceSpec} (parent : Option Key)
    (transformations : List Transformation) (args : Arguments) (options : Options) :
    Keeps d (d.start spec parent transformations args options).2
      (before ++ spec.outputs :: after) (before ++ after) own own := by
  intro owned
  obtain ⟨job, d', starts, step⟩ := start_spec d spec parent transformations args options
  rw [step]
  have next := owned.writes starts.writes starts.tasks starts.identities (by simp)
  have fresh : ∀ n ∈ identitySlots job, n ∉ own ++ d'.awaiting (before ++ spec.outputs :: after) := by
    intro n hn
    have := owned.fresh (starts.new n hn)
    simpa only [awaiting, starts.tasks] using this
  have slots : slotsOf job = identitySlots job ++ spec.outputs.map DeclaredOutput.slot := by
    rw [slotsOf_eq, starts.outputs]
  refine ⟨next.start _ slots starts.nodup starts.isOpen fresh ?_,
    .of_writes starts.writes (by rw [starts.tasks]) starts.identities⟩
  rintro r ⟨⟩
  refine ⟨?_, ?_, starts.handle, starts.hasId⟩
  · rw [slots]
    have once := List.nodup_append.mp owned.nodup
    have held : (spec.outputs.map DeclaredOutput.slot).Sublist
        (d.awaiting (before ++ spec.outputs :: after)) := by
      simp [awaiting]
    refine List.nodup_append.mpr ⟨starts.nodup, once.2.1.sublist held, ?_⟩
    rintro n hn m hm rfl
    refine owned.fresh (starts.new n hn) (List.mem_append_right _ (held.subset hm))
  · intro o ho
    exact owned.valid spec.outputs (by simp) o (starts.outputs ▸ ho)

theorem register_keeps (spec : ResourceSpec) :
    Keeps d (d.register spec).2 (before ++ spec.outputs :: after) (before ++ after) own own := by
  intro owned
  unfold register
  split
  · exact giveUp_keeps owned
  · exact start_keeps _ _ _ _ owned

theorem registerProvider_keeps {spec : ResourceSpec} (package : String) :
    Keeps d (d.registerProvider package spec).2 (before ++ spec.outputs :: after)
      (before ++ after) own own := by
  intro owned
  unfold registerProvider
  split
  · exact giveUp_keeps owned
  · exact register_keeps { spec with kind := .provider, type := providerType package } owned

theorem call_keeps (spec : CallSpec) : Keeps d (d.call spec).2 held held own own := by
  intro owned
  unfold call
  split
  · exact ⟨owned, .refl d⟩
  · split
    · exact ⟨owned, .refl d⟩
    · have next := owned.addSlot spec.token
      refine ⟨(next.collect []).start [(d.addSlot spec.token).1] rfl
        (by simp) ?_ ?_ (by rintro _ ⟨⟩), ?_⟩
      · intro n hn
        obtain rfl := List.mem_singleton.mp hn
        exact addSlot_isOpen d spec.token
      · intro n hn
        obtain rfl := List.mem_singleton.mp hn
        exact (owned.collect []).fresh (Nat.le_refl _)
      · exact .of_writes (Graph.addSlot_writes d.graph spec.token) rfl fun _ _ h => h

end Deployment

end Provision
