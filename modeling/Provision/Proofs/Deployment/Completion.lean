import Provision.Proofs.Deployment.Changes

/-!
# Ending tasks changes only what is their own

Reading answers, and running or ending tasks, is a sequence of elementary changes. What a task
completes may be the slot of its own URN, and no other that a registration still waits for as that
of its URN (`Spare`). What ends a registration leaves outcomes in the slots of its URN and of its id
(`conclude_changes`, `World.runRegistration_changes`).
-/

namespace Provision

namespace Deployment

/-- No registration still waits for this slot as that of its URN. -/
def Spare (d : Deployment) (slot : Nat) : Prop :=
  ∀ job ∈ d.registrations, job.urnSlot = slot → ∃ result, d.graph.Holds slot result

variable {d d' : Deployment}

theorem Spare.after {slot : Nat} (spare : d.Spare slot) (changes : Changes d d') :
    d'.Spare slot := by
  intro job member same
  obtain ⟨result, holds⟩ := spare job (changes.registrations ▸ member) same
  exact ⟨result, changes.resolved holds⟩

/-- What leaves the resources and the tasks' jobs alone, and writes no slot of a URN that is still
awaited. -/
theorem Changes.of_graph (arena : d'.arena = d.arena)
    (registrations : d'.registrations = d.registrations)
    (resolved : ∀ n result, d.graph.Holds n result → d'.graph.Holds n result)
    (known : ∀ job ∈ d.registrations, d'.graph.known job.urnSlot = d.graph.known job.urnSlot) :
    Changes d d' :=
  .single (.aside arena registrations resolved known)

/-- What leaves the resources, the outputs and the tasks' jobs alone. -/
theorem Changes.of_same (arena : d'.arena = d.arena) (graph : d'.graph = d.graph)
    (registrations : d'.registrations = d.registrations) : Changes d d' :=
  .of_graph arena registrations (fun _ _ holds => graph ▸ holds) fun _ _ => by rw [graph]

theorem warn_changes (messages : List String) (d : Deployment) : Changes d (d.warn messages) :=
  .of_same rfl rfl rfl

theorem note_changes (d : Deployment) (number : Nat) (progress : Progress) :
    Changes d (d.note number progress) :=
  .of_same rfl rfl (registrations_note d number progress)

theorem complete_changes (d : Deployment) (slot : Nat) (outcome : Settled HostValue)
    (apart : d.Spare slot ∨ Graph.Unnamed outcome) : Changes d (d.complete slot outcome).2 := by
  refine .of_graph rfl rfl (Graph.complete_writes d.graph slot outcome).resolved ?_
  intro job member
  refine Graph.known_complete fun same => ?_
  rcases apart with spare | unnamed
  · exact .inl (same ▸ spare job member same)
  · exact .inr unnamed

theorem addSlot_changes (name : String) (d : Deployment) : Changes d (d.addSlot name).2 :=
  .of_graph rfl rfl (Graph.addSlot_writes d.graph name).resolved
    fun job _ => Graph.known_addSlot d.graph name job.urnSlot

theorem drop_changes (slot : Nat) (d : Deployment) :
    Changes d { d with graph := d.graph.drop slot } :=
  .of_graph rfl rfl (Graph.drop_writes d.graph slot).resolved
    fun job _ => Graph.known_drop d.graph slot job.urnSlot

/-- What leaves all slots alone. -/
theorem slots_changes {graph : Graph HostValue} (same : graph.slots = d.graph.slots) :
    Changes d { d with graph } := by
  have writes : Graph.Writes [] d.graph graph := .of_slots_eq same
  exact .of_graph rfl rfl writes.resolved fun job _ => Graph.known_congr (by rw [same])

theorem giveUp_changes (declared : List DeclaredOutput) (d : Deployment) :
    Changes d (d.giveUp declared) := by
  unfold giveUp
  induction declared generalizing d with
  | nil => exact .refl
  | cons o rest ih =>
    exact (drop_changes o.slot d).trans (ih { d with graph := d.graph.drop o.slot })

/-! ### Reading answers -/

theorem findByUrn_eq_some {arena : Arena} {urn : String} {key : Key} :
    arena.findByUrn urn = some key ↔
      arena.urns.lookup urn = some key ∧ ∃ identity, arena.identity? key = some identity := by
  unfold Arena.findByUrn Arena.identity?
  cases found : arena.urns.lookup urn with
  | none => simp
  | some other =>
    cases here : arena.node? other with
    | none =>
      simp only [Option.bind_eq_bind, Option.bind_some, here, Option.bind_none, Option.some.injEq]
      constructor
      · rintro ⟨⟩
      · rintro ⟨rfl, identity, hi⟩
        simp [here] at hi
    | some node =>
      simp only [Option.bind_eq_bind, Option.bind_some, here, Option.some.injEq]
      constructor
      · rintro rfl
        exact ⟨rfl, node.identity, by simp [here]⟩
      · exact fun h => h.1

/-- An entry of the index is reused if it leads to a resource that is no handle, or to a handle that
agrees with the reference on having an id. -/
theorem referenceResource_indexed {reference : Reference} {key : Key} {identity : Identity}
    (indexed : d.arena.findByUrn reference.urn = some key)
    (here : d.arena.identity? key = some identity) :
    d.referenceResource reference =
      if identity.kind ≠ .dependency ∨ identity.id.isSome = reference.id.isSome then (key, d)
      else d.insertDependency reference.urn reference.id reference.packageVersion := by
  unfold referenceResource
  simp only [indexed, Option.filter_some, here, Bool.or_eq_true, bne_iff_ne, beq_iff_eq]
  split <;> rename_i usable
  · split at usable
    · rename_i reuse
      cases usable
      rw [if_pos reuse]
    · cases usable
  · split at usable
    · cases usable
    · rename_i fresh
      rw [if_neg fresh]

theorem referenceResource_missing {reference : Reference}
    (missing : d.arena.findByUrn reference.urn = none) :
    d.referenceResource reference =
      d.insertDependency reference.urn reference.id reference.packageVersion := by
  unfold referenceResource
  rw [missing]
  rfl

/-- Under the URN nothing but a handle is found. -/
def HandlesOnly (d : Deployment) (urn : String) : Prop :=
  ∀ key identity, d.arena.urns.lookup urn = some key → d.arena.identity? key = some identity →
    identity.kind = .dependency

theorem handlesOnly_of_missing {urn : String} (missing : d.arena.findByUrn urn = none) :
    d.HandlesOnly urn := by
  intro key identity found here
  cases missing.symm.trans (findByUrn_eq_some.mpr ⟨found, identity, here⟩)

/-- A handle for a reference is made only if nothing but another handle is found. -/
theorem referenceResource_cases (reference : Reference) (d : Deployment) :
    (d.referenceResource reference).2 = d ∨ d.HandlesOnly reference.urn ∧
      d.referenceResource reference =
        d.insertDependency reference.urn reference.id reference.packageVersion := by
  cases indexed : d.arena.findByUrn reference.urn with
  | none => exact .inr ⟨handlesOnly_of_missing indexed, referenceResource_missing indexed⟩
  | some key =>
    obtain ⟨found, identity, here⟩ := findByUrn_eq_some.mp indexed
    rw [referenceResource_indexed indexed here]
    split
    · exact .inl rfl
    · rename_i fresh
      refine .inr ⟨fun key' identity' found' here' => ?_, rfl⟩
      cases found.symm.trans found'
      cases here.symm.trans here'
      exact Decidable.byContradiction fun own => fresh (.inl own)

theorem referenceResource_changes (reference : Reference) (d : Deployment) :
    Changes d (d.referenceResource reference).2 := by
  rcases referenceResource_cases reference d with reused | ⟨free, made⟩
  · rw [reused]
  · rw [made]
    exact .single (.stood reference free)

theorem resourceForUrn_changes (urn : String) (d : Deployment) :
    Changes d (d.resourceForUrn urn).2 := by
  unfold resourceForUrn
  split
  · exact .refl
  · rename_i missing
    exact .single (.stood ⟨urn, none, none⟩ (handlesOnly_of_missing missing))

theorem resourcesForUrns_changes (urns : List String) (d : Deployment) :
    Changes d (d.resourcesForUrns urns).2 := by
  induction urns generalizing d with
  | nil => exact .refl
  | cons urn rest ih => exact (resourceForUrn_changes urn d).trans (ih _)

theorem convert_changes (schema : Schema) (context : String) (dependencies : List Key)
    (value : Value) (d : Deployment) :
    Changes d (d.convert schema context dependencies value).2 := by
  unfold convert HostType.convertValue
  split
  · exact .refl
  · exact Plain.ofValue_preserves (P := Changes d)
      (fun r s h => h.trans (referenceResource_changes r s)) value d .refl

/-! ### Completing the slots of a registration -/

theorem unnamed_unknown (secret : Bool) (dependencies : List Key) :
    Graph.Unnamed (.ok ⟨none, secret, dependencies⟩) := by
  rintro data ⟨⟩
  rfl

theorem unnamed_error (cause : Failure) : Graph.Unnamed (.error cause) := by
  rintro data ⟨⟩

theorem completeOutput_changes (type : String) {output : DeclaredOutput} (value : Option Value)
    (dependencies : List Key) (spare : d.Spare output.slot) :
    Changes d (d.completeOutput type output value dependencies).2 := by
  unfold completeOutput
  cases value with
  | none => exact complete_changes d _ _ (.inr (unnamed_unknown false dependencies))
  | some value =>
    have read := convert_changes output.schema (type ++ "." ++ output.name) dependencies value d
    dsimp only
    generalize d.convert output.schema (type ++ "." ++ output.name) dependencies value = r at read
    obtain ⟨outcome, d₁⟩ := r
    match outcome with
    | .error cause => exact read
    | .ok none => exact read
    | .ok (some converted) =>
      have warned := read.trans (warn_changes converted.warnings d₁)
      exact warned.trans (complete_changes _ _ _ (.inl (spare.after warned)))

theorem completeOutputs_changes (job : Registration) (registered : Registered)
    (outputs : List DeclaredOutput) (spare : ∀ o ∈ outputs, d.Spare o.slot) :
    Changes d (completeOutputs job registered outputs d).2 := by
  induction outputs generalizing d with
  | nil => exact .refl
  | cons output rest ih =>
    unfold completeOutputs
    dsimp only
    -- The resources that the engine names for a remote component are resolved first.
    generalize hd : (if job.kind = .remoteComponent then
        d.resourcesForUrns ((registered.propertyDependencies.lookup output.name).getD [])
      else ([], d)) = named
    obtain ⟨keys, d₁⟩ := named
    have first : Changes d d₁ := by
      split at hd
      · have h := resourcesForUrns_changes
          ((registered.propertyDependencies.lookup output.name).getD []) d
        rwa [hd] at h
      · cases hd
        exact .refl
    have second := completeOutput_changes job.type (registered.object.lookup output.name)
      (Ascending.union [job.key] keys) ((spare output (by simp)).after first)
    dsimp only
    generalize d₁.completeOutput job.type output (registered.object.lookup output.name)
      (Ascending.union [job.key] keys) = r at second
    obtain ⟨ending, d₂⟩ := r
    have both := first.trans second
    cases ending with
    | none => exact both
    | some outcome =>
      have third := @ih d₂ fun o ho => (spare o (by simp [ho])).after both
      dsimp only
      generalize completeOutputs job registered rest d₂ = r at third
      obtain ⟨ending, d₃⟩ := r
      cases ending <;> exact both.trans third

/-- What the end of a registration needs: it is one of the deployment's own, and nobody awaits
another of its slots as that of a URN. -/
structure Placed (job : Registration) (d : Deployment) : Prop where
  ready : Ready job d
  member : job ∈ d.registrations
  spare : ∀ n ∈ slotsOf job, n ≠ job.urnSlot → d.Spare n

namespace Placed

variable {job : Registration}

theorem urnSlot_mem (job : Registration) : job.urnSlot ∈ slotsOf job := by simp [slotsOf]

theorem spare_output (placed : Placed job d) : ∀ o ∈ job.outputs, d.Spare o.slot := by
  intro o member
  have here : o.slot ∈ slotsOf job := by
    rw [slotsOf_eq]
    exact List.mem_append_right _ (List.mem_map_of_mem member)
  refine placed.spare o.slot here ?_
  rintro same
  have nodup := placed.ready.nodup
  rw [slotsOf_eq] at nodup
  exact (List.nodup_append.mp nodup).2.2 job.urnSlot (by simp [identitySlots]) o.slot
    (List.mem_map_of_mem member) same.symm

theorem idSlot_ne (placed : Placed job d) {slot : Nat} (id : job.idSlot = some slot) :
    slot ≠ job.urnSlot := by
  rintro rfl
  have nodup := placed.ready.nodup
  simp [slotsOf, id] at nodup

theorem spare_id (placed : Placed job d) {slot : Nat} (id : job.idSlot = some slot) :
    d.Spare slot :=
  placed.spare slot (by simp [slotsOf, id]) (placed.idSlot_ne id)

end Placed

/-- The slots of the URN and of the id have outcomes, and that of the id is no empty text. -/
structure HasOutcome (d : Deployment) (job : Registration) : Prop where
  urn : ∃ result, d.graph.Holds job.urnSlot result
  id : ∀ slot, job.idSlot = some slot →
    ∃ result, d.graph.Holds slot result ∧ d.graph.known slot ≠ some ""

theorem HasOutcome.of_resolved {job : Registration} (h : d.HasOutcome job)
    (resolved : ∀ n result, d.graph.Holds n result → d'.graph.Holds n result) :
    d'.HasOutcome job := by
  refine ⟨h.urn.imp (resolved job.urnSlot), fun slot here => ?_⟩
  obtain ⟨result, holds, text⟩ := h.id slot here
  have still := resolved slot result holds
  exact ⟨result, still, holds.known_congr still ▸ text⟩

theorem HasOutcome.after {job : Registration} (h : d.HasOutcome job) (changes : Changes d d') :
    d'.HasOutcome job :=
  h.of_resolved fun _ _ => changes.resolved

/-- Once the slot of the URN is completed, that of the id is nobody else's. -/
theorem completeIdentity_changes {job : Registration} (placed : Placed job d)
    (indexed : Deployment) (same : indexed.graph = d.graph) (urn : Option String)
    {id : Option String} (named : id ≠ some "")
    (first : Changes d
      (indexed.complete job.urnSlot (.ok ⟨urn.map .string, false, [job.key]⟩)).2) :
    Changes d (indexed.completeIdentity job urn id).2 ∧
      (indexed.completeIdentity job urn id).2.HasOutcome job := by
  have isOpen : ∀ n ∈ slotsOf job, indexed.graph.IsOpen n := same ▸ placed.ready.isOpen
  obtain ⟨ok, holds⟩ := Graph.complete_of_open (isOpen _ (Placed.urnSlot_mem job))
    (.ok ⟨urn.map HostValue.string, false, [job.key]⟩)
  have accepted : (indexed.complete job.urnSlot
      (.ok ⟨urn.map .string, false, [job.key]⟩)).1 = .ok () := ok
  have outcome : ∃ result, (indexed.complete job.urnSlot
      (.ok ⟨urn.map .string, false, [job.key]⟩)).2.graph.Holds job.urnSlot result := ⟨_, holds⟩
  have still (slot : Nat) (here : job.idSlot = some slot) : (indexed.complete job.urnSlot
      (.ok ⟨urn.map .string, false, [job.key]⟩)).2.graph.IsOpen slot := by
    have other := placed.idSlot_ne here
    refine (Graph.complete_writes indexed.graph job.urnSlot _).isOpen (by simpa using other) ?_
    exact isOpen slot (by simp [slotsOf, here])
  unfold completeIdentity
  generalize indexed.complete job.urnSlot (.ok ⟨urn.map .string, false, [job.key]⟩) = r
    at first accepted outcome still
  obtain ⟨result, d₁⟩ := r
  cases accepted
  cases slot : job.idSlot with
  | none => exact ⟨first, outcome, by simp [slot]⟩
  | some idSlot =>
    obtain ⟨-, holds⟩ := Graph.complete_of_open (still idSlot slot)
      (.ok ⟨id.map HostValue.string, false, [job.key]⟩)
    have second := complete_changes d₁ idSlot (.ok ⟨id.map .string, false, [job.key]⟩)
      (.inl ((placed.spare_id slot).after first))
    refine ⟨first.trans second, outcome.imp fun _ => second.resolved, ?_⟩
    rintro _ here
    cases slot.symm.trans here
    refine ⟨_, holds, ?_⟩
    have text : (id.map HostValue.string).map TextOutput.textOf = id := by cases id <;> rfl
    exact (holds.known_ok.trans text).symm ▸ named

/-- After the identity, the declared properties. -/
theorem completeAll_changes {job : Registration} (placed : Placed job d)
    (registered : Registered) (r : Except Failure Unit × Deployment) :
    let all : Ending × Deployment := match r with
      | (.error cause, d) => (some (.error cause), d)
      | (.ok (), d) => completeOutputs job registered job.outputs d
    Changes d r.2 ∧ r.2.HasOutcome job → Changes d all.2 ∧ all.2.HasOutcome job := by
  obtain ⟨result, d₁⟩ := r
  rintro all ⟨first, outcome⟩
  cases result with
  | error cause => exact ⟨first, outcome⟩
  | ok =>
    have second := completeOutputs_changes job registered job.outputs
      fun o member => (placed.spare_output o member).after first
    exact ⟨first.trans second, outcome.after second⟩

theorem completeUnknown_changes {job : Registration} (placed : Placed job d) :
    Changes d (d.completeUnknown job).2 ∧ (d.completeUnknown job).2.HasOutcome job :=
  completeAll_changes placed ⟨"", "", [], []⟩ _
    (completeIdentity_changes placed d rfl none (by simp)
      (complete_changes d _ _ (.inr (unnamed_unknown false [job.key]))))

/-- The resource is indexed and gets its URN in one change. -/
theorem completeRegistered_changes {job : Registration} (placed : Placed job d)
    (registered : Registered) :
    Changes d (d.completeRegistered job registered).2 ∧
      (d.completeRegistered job registered).2.HasOutcome job := by
  let indexed : Deployment := { d with arena := d.arena.recordUrn job.key registered.urn }
  have isOpen := placed.ready.isOpen job.urnSlot (Placed.urnSlot_mem job)
  obtain ⟨-, holds⟩ := Graph.complete_of_open isOpen
    (.ok ⟨some (.string registered.urn), false, [job.key]⟩)
  have first : Changes d (indexed.complete job.urnSlot
      (.ok ⟨some (.string registered.urn), false, [job.key]⟩)).2 := by
    refine .single (.named placed.member isOpen.known registered.urn rfl rfl ?_ ?_ ?_)
    · exact (Graph.complete_writes d.graph _ _).resolved
    · exact holds.known_ok
    · exact fun other _ different => Graph.known_complete fun same => absurd same different
  -- An id that the engine leaves empty is not known.
  have named : (if registered.id = "" then none else some registered.id) ≠ some "" := by
    split
    · simp
    · simpa
  exact completeAll_changes placed registered _
    (completeIdentity_changes placed indexed rfl (some registered.urn) named first)

theorem failOpen_changes (job : Registration) (cause : Failure) (d : Deployment) :
    Changes d (d.failOpen job cause) := by
  unfold failOpen
  dsimp only
  generalize slotsOf job = slots
  induction slots generalizing d with
  | nil => exact .refl
  | cons slot rest ih =>
    rw [List.foldl_cons]
    split
    · exact ih d
    · exact (complete_changes d slot _ (.inr (unnamed_error _))).trans (ih _)

theorem finish_changes {job : Registration} {r : Ending × Deployment}
    (ended : Changes d r.2 ∧ r.2.HasOutcome job) :
    Changes d (finish job r).2 ∧ (finish job r).2.HasOutcome job := by
  obtain ⟨ending, d₁⟩ := r
  match ending with
  | none => exact ended
  | some (.ok ()) => exact ended
  | some (.error cause) =>
    have failed := failOpen_changes job cause d₁
    exact ⟨ended.1.trans failed, ended.2.after failed⟩

theorem fail_changes {job : Registration} (placed : Placed job d) (cause : Failure) :
    Changes d (finish job (some (.error cause), d)).2 ∧
      (finish job (some (.error cause), d)).2.HasOutcome job := by
  obtain ⟨-, settlement⟩ := finish_failed placed.ready cause
  refine ⟨failOpen_changes job cause d, ⟨_, settlement _ (Placed.urnSlot_mem job)⟩, ?_⟩
  intro slot here
  have holds := settlement slot (by simp [slotsOf, here])
  exact ⟨_, holds, by simp [holds.known_error]⟩

theorem conclude_changes {job : Registration} (placed : Placed job d)
    (answer : Except Failure Registered) :
    Changes d (d.conclude job answer).2 ∧ (d.conclude job answer).2.HasOutcome job := by
  cases answer with
  | ok registered => exact finish_changes (completeRegistered_changes placed registered)
  | error cause => exact fail_changes placed cause

theorem callResult_changes (job : Call) (response : CallResponse) (d : Deployment) :
    Changes d (callResult job response d).2 := by
  unfold callResult
  split
  · exact .refl
  · have named := resourcesForUrns_changes (response.returnDependencies.flatMap Prod.snd) d
    dsimp only
    generalize d.resourcesForUrns (response.returnDependencies.flatMap Prod.snd) = r at named
    obtain ⟨keys, d₁⟩ := r
    have converted := convert_changes job.schema job.token (Ascending.ofList keys)
      (.object response.returnValues) d₁
    dsimp only
    generalize d₁.convert job.schema job.token (Ascending.ofList keys)
      (.object response.returnValues) = r at converted
    obtain ⟨outcome, d₂⟩ := r
    have both := named.trans converted
    match outcome with
    | .error _ => exact both
    | .ok none => exact both
    | .ok (some c) => exact both.trans (warn_changes c.warnings d₂)

theorem finishCall_changes {job : Call} {result : Option (Settled HostValue)} {before : Deployment}
    (spare : before.Spare job.slot) (changes : Changes before d) :
    Changes before (finishCall job result d).2 := by
  cases result with
  | none => exact changes
  | some result => exact changes.trans (complete_changes d _ _ (.inl (spare.after changes)))

theorem concludeCall_changes {job : Call} (spare : d.Spare job.slot)
    (answer : Except Failure CallResponse) : Changes d (d.concludeCall job answer).2 := by
  cases answer with
  | error cause => exact finishCall_changes spare .refl
  | ok response => exact finishCall_changes spare (callResult_changes job response _)

end Deployment

namespace World

open Deployment

variable {σ : Type}

theorem supportsFeature_changes (engine : Engine σ) (id : String) (w : World σ) :
    Changes w.deployment (w.supportsFeature engine id).2.deployment := by
  obtain ⟨features, noted⟩ := supportsFeature_notes engine id w
  rw [noted]
  exact .of_same rfl rfl rfl

theorem engineFeatures_changes (engine : Engine σ) (w : World σ) :
    Changes w.deployment (w.engineFeatures engine).2.deployment := by
  obtain ⟨features, noted⟩ := engineFeatures_notes engine w
  rw [noted]
  exact .of_same rfl rfl rfl

/-- A registration waits, or ends with outcomes in the slots of its URN and of its id. -/
theorem runRegistration_changes (engine : Engine σ) {job : Registration} {w : World σ}
    (placed : Placed job w.deployment) :
    Changes w.deployment (w.runRegistration engine job).2.deployment ∧
      ((w.runRegistration engine job).1 = .underWay ∨
        (w.runRegistration engine job).2.deployment.HasOutcome job) := by
  unfold runRegistration
  dsimp only
  cases w.deployment.readIdIsUnknown job with
  | pending => exact ⟨.refl, .inl rfl⟩
  | failed cause => exact (fail_changes placed cause).imp_right .inr
  | done unknown =>
    cases unknown with
    | true => exact (finish_changes (completeUnknown_changes placed)).imp_right .inr
    | false =>
      have gains := engineFeatures_gains engine w
      have asked := engineFeatures_changes engine w
      dsimp only
      generalize w.engineFeatures engine = r at gains asked
      obtain ⟨outcome, w₁⟩ := r
      have placed₁ : Placed job w₁.deployment :=
        ⟨placed.ready.gains gains, asked.registrations ▸ placed.member,
          fun n here other => (placed.spare n here other).after asked⟩
      have after {d : Deployment} {p : Progress}
          (h : Changes w₁.deployment d ∧ d.HasOutcome job) :
          Changes w.deployment d ∧ (p = .underWay ∨ d.HasOutcome job) :=
        ⟨asked.trans h.1, .inr h.2⟩
      cases outcome with
      | error cause => exact after (fail_changes placed₁ cause)
      | ok features =>
        dsimp only
        cases w₁.deployment.exchange features job with
        | pending => exact ⟨asked, .inl rfl⟩
        | failed cause => exact after (fail_changes placed₁ cause)
        | done request =>
          have sent := send_deployment engine request w₁
          dsimp only
          generalize w₁.send engine request = r at sent
          obtain ⟨answer, w₂⟩ := r
          dsimp only at sent
          cases answer with
          | error cause =>
            dsimp only
            rw [sent]
            exact after (fail_changes placed₁ cause)
          | ok registered =>
            dsimp only
            rw [sent]
            exact after (finish_changes (completeRegistered_changes placed₁ registered))

theorem runCall_changes (engine : Engine σ) {job : Call} {w : World σ}
    (spare : w.deployment.Spare job.slot) :
    Changes w.deployment (w.runCall engine job).2.deployment := by
  obtain ⟨features, -, after⟩ := runCall_hears engine job w
  have asked : Changes w.deployment { w.deployment with features } := .of_same rfl rfl rfl
  rw [after]
  cases w.hears engine job with
  | none => exact asked
  | some answer => exact asked.trans (concludeCall_changes (spare.after asked) answer)

end World

end Provision
