import Provision.Proofs.Deployment.Gains
import Provision.Proofs.Output.Slots

/-!
# How a registration settles its slots

A registration that is ready owns open slots, all different, and expects properties of types
whose shapes are valid. Its second half then either waits, with every slot still open, or ends,
and the end is the same for all of them (`runRegistration_spec`): each holds data that depends on
the resource, or each holds the one failure that names the resource and the cause. A mixture
cannot arise, since neither completing an open slot nor converting to a valid shape fails. A call
has one slot; it waits, or ends with what it hears (`runCall_hears`).
-/

namespace Provision.Deployment

/-- `after` is `before` with outcomes written into open slots among `touched`, and with what
reading the engine's answer adds. -/
structure Completes (touched : List Nat) (before after : Deployment) : Prop where
  writes : Graph.Writes touched before.graph after.graph
  length : after.graph.slots.length = before.graph.slots.length
  tasks : after.tasks = before.tasks
  identities : ∀ key identity, before.arena.identity? key = some identity →
    after.arena.identity? key = some identity

theorem Gains.completes {before after : Deployment} (h : Gains before after) (touched : List Nat) :
    Completes touched before after where
  writes := .of_slots_eq (by rw [h.graph])
  length := by rw [h.graph]
  tasks := h.tasks
  identities := h.identities

namespace Completes

theorem refl (touched : List Nat) (d : Deployment) : Completes touched d d :=
  (Gains.refl d).completes touched

theorem mono {s t : List Nat} {d d' : Deployment} (h : Completes s d d') (sub : s ⊆ t) :
    Completes t d d' :=
  ⟨h.writes.mono sub, h.length, h.tasks, h.identities⟩

theorem trans {s : List Nat} {d₁ d₂ d₃ : Deployment} (h : Completes s d₁ d₂)
    (h' : Completes s d₂ d₃) : Completes s d₁ d₃ where
  writes := h.writes.trans h'.writes
  length := h'.length.trans h.length
  tasks := h'.tasks.trans h.tasks
  identities := fun key identity hk => h'.identities key identity (h.identities key identity hk)

end Completes

/-- The slot holds data that depends on the resource. -/
def HoldsOwn (d : Deployment) (key : Key) (number : Nat) : Prop :=
  ∃ data, d.graph.Holds number (.ok data) ∧ key ∈ data.dependencies

theorem HoldsOwn.after {touched : List Nat} {d d' : Deployment} {key : Key} {n : Nat}
    (h : HoldsOwn d key n) (step : Completes touched d d') : HoldsOwn d' key n := by
  obtain ⟨data, hd, hk⟩ := h
  exact ⟨data, step.writes.resolved n _ hd, hk⟩

theorem complete_completes (slot : Nat) (outcome : Settled HostValue) (d : Deployment) :
    Completes [slot] d (d.complete slot outcome).2 where
  writes := Graph.complete_writes d.graph slot outcome
  length := Graph.complete_length d.graph slot outcome
  tasks := rfl
  identities := fun _ _ h => h

/-- Completing an open slot with data succeeds. -/
theorem complete_own {d : Deployment} {slot : Nat} (isOpen : d.graph.IsOpen slot)
    (data : Data HostValue) {key : Key} (own : key ∈ data.dependencies) :
    (d.complete slot (.ok data)).1 = .ok () ∧ HoldsOwn (d.complete slot (.ok data)).2 key slot := by
  obtain ⟨ok, holds⟩ := Graph.complete_of_open isOpen (.ok data)
  exact ⟨ok, data, holds, own⟩

/-- What becomes of open slots whose data is at hand: they all hold it, unless a conversion has no
end. -/
structure Fills (key : Key) (slots : List Nat) (d : Deployment) (r : Ending × Deployment) :
    Prop where
  completes : Completes slots d r.2
  filled : r.1 = none ∨ r.1 = some (.ok ()) ∧ ∀ n ∈ slots, HoldsOwn r.2 key n

theorem completeOutput_fills {key : Key} {output : DeclaredOutput} {d : Deployment}
    (valid : output.schema.Valid) (isOpen : d.graph.IsOpen output.slot) (type : String)
    (value : Option Value) {dependencies : List Key} (own : key ∈ dependencies) :
    Fills key [output.slot] d (d.completeOutput type output value dependencies) := by
  cases value with
  | none =>
    obtain ⟨ok, holds⟩ := complete_own isOpen ⟨none, false, dependencies⟩ own
    refine ⟨complete_completes _ _ d, .inr ⟨congrArg some ok, fun n hn => ?_⟩⟩
    obtain rfl := List.mem_singleton.mp hn
    exact holds
  | some value =>
    have gains := convert_gains output.schema (type ++ "." ++ output.name) dependencies value d
    obtain ⟨converted, ok, deps⟩ :=
      convert_of_valid valid (type ++ "." ++ output.name) dependencies value d
    unfold completeOutput
    dsimp only
    generalize d.convert output.schema (type ++ "." ++ output.name) dependencies value = r
      at gains ok
    obtain ⟨outcome, d'⟩ := r
    cases converted with
    | none =>
      cases ok
      exact ⟨gains.completes _, .inl rfl⟩
    | some c =>
      cases ok
      have warned := gains.trans (warn_gains c.warnings d')
      have still : (d'.warn c.warnings).graph.IsOpen output.slot := by rwa [warned.graph]
      obtain ⟨ok, holds⟩ := complete_own still c.data (deps c rfl ▸ own)
      refine ⟨(warned.completes _).trans (complete_completes _ _ _),
        .inr ⟨congrArg some ok, fun n hn => ?_⟩⟩
      obtain rfl := List.mem_singleton.mp hn
      exact holds

/-- All declared properties, one after the other. -/
theorem completeOutputs_fills (job : Registration) (registered : Registered)
    (outputs : List DeclaredOutput) (d : Deployment)
    (nodup : (outputs.map DeclaredOutput.slot).Nodup)
    (isOpen : ∀ o ∈ outputs, d.graph.IsOpen o.slot) (valid : ∀ o ∈ outputs, o.schema.Valid) :
    Fills job.key (outputs.map DeclaredOutput.slot) d
      (completeOutputs job registered outputs d) := by
  induction outputs generalizing d with
  | nil => exact ⟨.refl _ d, .inr ⟨rfl, by simp⟩⟩
  | cons output rest ih =>
    obtain ⟨fresh, nodup⟩ := List.nodup_cons.mp nodup
    unfold completeOutputs
    dsimp only
    -- The resources that the engine names for a remote component are resolved first.
    generalize hd : (if job.kind = .remoteComponent then
        d.resourcesForUrns ((registered.propertyDependencies.lookup output.name).getD [])
      else ([], d)) = named
    obtain ⟨keys, d₁⟩ := named
    have gains : Gains d d₁ := by
      split at hd
      · have h := resourcesForUrns_gains
          ((registered.propertyDependencies.lookup output.name).getD []) d
        rwa [hd] at h
      · cases hd
        exact .refl d
    have own : job.key ∈ Ascending.union [job.key] keys := by simp
    have first := completeOutput_fills (valid output (by simp))
      (gains.graph ▸ isOpen output (by simp)) job.type (registered.object.lookup output.name) own
    dsimp only
    generalize d₁.completeOutput job.type output (registered.object.lookup output.name)
      (Ascending.union [job.key] keys) = r at first
    obtain ⟨ending, d₂⟩ := r
    have step : Completes [output.slot] d d₂ := (gains.completes _).trans first.completes
    have sub : [output.slot] ⊆ (output :: rest).map DeclaredOutput.slot := by simp
    rcases first.filled with rfl | ⟨rfl, holds⟩
    · exact ⟨step.mono sub, .inl rfl⟩
    · have later := ih d₂ nodup
        (fun o ho => step.writes.isOpen
          (fun h => fresh (List.mem_map.mpr ⟨o, ho, List.mem_singleton.mp h⟩))
          (isOpen o (by simp [ho])))
        (fun o ho => valid o (by simp [ho]))
      dsimp only
      generalize completeOutputs job registered rest d₂ = r at later
      obtain ⟨ending, d₃⟩ := r
      have all : Completes ((output :: rest).map DeclaredOutput.slot) d d₃ :=
        (step.mono sub).trans (later.completes.mono (by simp))
      rcases later.filled with rfl | ⟨rfl, rest_holds⟩
      · exact ⟨all, .inl rfl⟩
      · refine ⟨all, .inr ⟨rfl, fun n hn => ?_⟩⟩
        rcases List.mem_cons.mp hn with rfl | hn
        · exact (holds _ (by simp)).after later.completes
        · exact rest_holds n hn

theorem callResult_gains (job : Call) (response : CallResponse) (d : Deployment) :
    Gains d (callResult job response d).2 := by
  unfold callResult
  split
  · exact .refl d
  · have named := resourcesForUrns_gains (response.returnDependencies.flatMap Prod.snd) d
    dsimp only
    generalize d.resourcesForUrns (response.returnDependencies.flatMap Prod.snd) = r at named
    obtain ⟨keys, d₁⟩ := r
    have converted := convert_gains job.schema job.token (Ascending.ofList keys)
      (.object response.returnValues) d₁
    dsimp only
    generalize d₁.convert job.schema job.token (Ascending.ofList keys)
      (.object response.returnValues) = r at converted
    obtain ⟨outcome, d₂⟩ := r
    have both := named.trans converted
    match outcome with
    | .error _ => exact both
    | .ok none => exact both
    | .ok (some c) => exact both.trans (warn_gains c.warnings d₂)

/-- The end of a call that is answered, or that fails on the way. -/
def concludeCall (job : Call) (answer : Except Failure CallResponse) (d : Deployment) :
    Progress × Deployment :=
  match answer with
  | .error cause => finishCall job (some (.error cause)) d
  | .ok response =>
    let (result, d) := callResult job response d
    finishCall job result d

/-- A call that hears nothing waits on. -/
def goOnCall (job : Call) (heard : Option (Except Failure CallResponse)) (d : Deployment) :
    Progress × Deployment :=
  match heard with
  | none => (.underWay, d)
  | some answer => d.concludeCall job answer

theorem finishCall_completes {d d' : Deployment} (job : Call)
    (result : Option (Settled HostValue)) (gains : Gains d d') :
    Completes [job.slot] d (finishCall job result d').2 := by
  cases result with
  | none => exact gains.completes _
  | some result => exact (gains.completes _).trans (complete_completes job.slot result d')

theorem concludeCall_completes (job : Call) (answer : Except Failure CallResponse)
    (d : Deployment) : Completes [job.slot] d (d.concludeCall job answer).2 := by
  cases answer with
  | error cause => exact finishCall_completes job _ (.refl d)
  | ok response => exact finishCall_completes job _ (callResult_gains job response d)

theorem concludeCall_ended (job : Call) (answer : Except Failure CallResponse) (d : Deployment) :
    (d.concludeCall job answer).1 ≠ .underWay := by
  have ended (result : Option (Settled HostValue)) (d : Deployment) :
      (finishCall job result d).1 ≠ .underWay := by
    cases result <;> rintro ⟨⟩
  cases answer <;> exact ended _ _

/-- What a registration under way owns: open slots, all different, for properties of types whose
shapes are valid. -/
structure Ready (job : Registration) (d : Deployment) : Prop where
  nodup : (slotsOf job).Nodup
  isOpen : ∀ n ∈ slotsOf job, d.graph.IsOpen n
  valid : ∀ o ∈ job.outputs, o.schema.Valid

theorem Ready.gains {job : Registration} {d d' : Deployment} (h : Ready job d) (gains : Gains d d') :
    Ready job d' :=
  ⟨h.nodup, fun n hn => gains.graph ▸ h.isOpen n hn, h.valid⟩

/-- The slots of the URN and of the id, if there is one. -/
def identitySlots (job : Registration) : List Nat := job.urnSlot :: job.idSlot.toList

theorem slotsOf_eq (job : Registration) :
    slotsOf job = identitySlots job ++ job.outputs.map DeclaredOutput.slot := rfl

/-- Slots that are filled one after the other. -/
theorem completeIdentity_fills {job : Registration} {d : Deployment}
    (nodup : (identitySlots job).Nodup) (isOpen : ∀ n ∈ identitySlots job, d.graph.IsOpen n)
    (urn id : Option String) :
    Fills job.key (identitySlots job) d
      (some (d.completeIdentity job urn id).1, (d.completeIdentity job urn id).2) := by
  have own : job.key ∈ [job.key] := by simp
  obtain ⟨ok, holds⟩ := complete_own (isOpen job.urnSlot (by simp [identitySlots]))
    ⟨urn.map .string, false, [job.key]⟩ own
  have first := complete_completes job.urnSlot
    (.ok ⟨urn.map HostValue.string, false, [job.key]⟩) d
  unfold completeIdentity
  generalize d.complete job.urnSlot (.ok ⟨urn.map .string, false, [job.key]⟩) = r at ok holds first
  obtain ⟨outcome, d₁⟩ := r
  cases ok
  unfold identitySlots at nodup isOpen ⊢
  cases hid : job.idSlot with
  | none =>
    rw [hid] at nodup
    refine ⟨first.mono (by simp), .inr ⟨rfl, fun n hn => ?_⟩⟩
    obtain rfl := List.mem_singleton.mp hn
    exact holds
  | some slot =>
    rw [hid] at nodup isOpen
    have different : slot ∉ [job.urnSlot] := by
      rintro h
      simp [List.mem_singleton.mp h] at nodup
    have still := first.writes.isOpen different (isOpen slot (by simp))
    obtain ⟨ok, holds'⟩ := complete_own still ⟨id.map .string, false, [job.key]⟩ own
    have second := complete_completes slot (.ok ⟨id.map HostValue.string, false, [job.key]⟩) d₁
    refine ⟨(first.mono (by simp)).trans (second.mono (by simp)),
      .inr ⟨congrArg some ok, fun n hn => ?_⟩⟩
    rcases List.mem_cons.mp hn with rfl | hn
    · exact holds.after second
    · obtain rfl := List.mem_singleton.mp hn
      exact holds'

/-- First the identity, then the declared properties: the two ways of completing a registration
differ in what they complete the slots with. -/
theorem completeAll_fills {job : Registration} {d : Deployment} (ready : Ready job d)
    (urn id : Option String) (registered : Registered) :
    Fills job.key (slotsOf job) d
      (match d.completeIdentity job urn id with
        | (.error cause, d) => (some (.error cause), d)
        | (.ok (), d) => completeOutputs job registered job.outputs d) := by
  have split := ready.nodup
  rw [slotsOf_eq] at split
  obtain ⟨nodup, nodup', disjoint⟩ := List.nodup_append.mp split
  have first := completeIdentity_fills nodup
    (fun n hn => ready.isOpen n (by rw [slotsOf_eq]; exact List.mem_append_left _ hn)) urn id
  generalize d.completeIdentity job urn id = r at first
  obtain ⟨outcome, d₁⟩ := r
  have holds : outcome = .ok () ∧ ∀ n ∈ identitySlots job, HoldsOwn d₁ job.key n := by
    rcases first.filled with h | ⟨h, holds⟩
    · cases h
    · exact ⟨Option.some.inj h, holds⟩
  obtain ⟨rfl, holds⟩ := holds
  have later := completeOutputs_fills job registered job.outputs d₁ nodup'
    (fun o ho => first.completes.writes.isOpen
      (fun h => disjoint _ h _ (List.mem_map_of_mem ho) rfl)
      (ready.isOpen o.slot (by
        rw [slotsOf_eq]
        exact List.mem_append_right _ (List.mem_map_of_mem ho))))
    ready.valid
  rw [slotsOf_eq]
  refine ⟨(first.completes.mono (List.subset_append_left _ _)).trans
    (later.completes.mono (List.subset_append_right _ _)), ?_⟩
  rcases later.filled with h | ⟨h, holds'⟩
  · exact .inl h
  · refine .inr ⟨h, fun n hn => ?_⟩
    rcases List.mem_append.mp hn with hn | hn
    · exact (holds n hn).after later.completes
    · exact holds' n hn

theorem completeUnknown_fills {job : Registration} {d : Deployment} (ready : Ready job d) :
    Fills job.key (slotsOf job) d (d.completeUnknown job) :=
  completeAll_fills ready none none ⟨"", "", [], []⟩

theorem completeRegistered_fills {job : Registration} {d : Deployment} (ready : Ready job d)
    (registered : Registered) :
    Fills job.key (slotsOf job) d (d.completeRegistered job registered) := by
  have indexed : Gains d { d with arena := d.arena.recordUrn job.key registered.urn } :=
    ⟨rfl, rfl, fun _ _ h => h⟩
  have fills := completeAll_fills (ready.gains indexed) (some registered.urn)
    (if registered.id = "" then none else some registered.id) registered
  exact ⟨(indexed.completes _).trans fills.completes, fills.filled⟩

/-- Failing open slots one after the other. -/
theorem failAll_holds (failure : Failure) (slots : List Nat) (graph : Graph HostValue)
    (nodup : slots.Nodup) (isOpen : ∀ n ∈ slots, graph.IsOpen n) :
    let after := slots.foldl
      (fun graph slot =>
        if graph.isResolved slot then graph else (graph.complete slot (.error failure)).2) graph
    Graph.Writes slots graph after ∧ after.slots.length = graph.slots.length ∧
      ∀ n ∈ slots, after.Holds n (.error failure) := by
  induction slots generalizing graph with
  | nil => exact ⟨.refl _ graph, rfl, by simp⟩
  | cons slot rest ih =>
    obtain ⟨fresh, nodup⟩ := List.nodup_cons.mp nodup
    have head := isOpen slot (by simp)
    have writes := Graph.complete_writes graph slot (.error failure)
    have holds := (Graph.complete_of_open head (.error failure)).2
    obtain ⟨later, length, rest_holds⟩ := ih (graph.complete slot (.error failure)).2 nodup
      (fun n hn => writes.isOpen
        (fun h => fresh (List.mem_singleton.mp h ▸ hn)) (isOpen n (by simp [hn])))
    simp only [List.foldl_cons, head.isResolved, Bool.false_eq_true, if_false]
    refine ⟨(writes.mono (by simp)).trans (later.mono (by simp)),
      length.trans (Graph.complete_length _ _ _), fun n hn => ?_⟩
    rcases List.mem_cons.mp hn with rfl | hn
    · exact later.resolved n _ holds
    · exact rest_holds n hn

/-- The failure of every slot of a registration that ended with `cause`. -/
def failureOf (job : Registration) (cause : Failure) : Failure :=
  .registrationFailed job.name cause.message

theorem failOpen_completes {job : Registration} {d : Deployment} (ready : Ready job d)
    (cause : Failure) :
    Completes (slotsOf job) d (d.failOpen job cause) ∧
      ∀ n ∈ slotsOf job, (d.failOpen job cause).graph.Holds n (.error (failureOf job cause)) := by
  obtain ⟨writes, length, holds⟩ :=
    failAll_holds (failureOf job cause) (slotsOf job) d.graph ready.nodup ready.isOpen
  exact ⟨⟨writes, length, rfl, fun _ _ h => h⟩, holds⟩

/-- Where the slots of a registration stand, by the progress of its task. A conversion without an
end leaves nothing to say. -/
def Settlement (job : Registration) (d : Deployment) : Progress → Prop
  | .underWay => ∀ n ∈ slotsOf job, d.graph.IsOpen n
  | .endless => True
  | .finished (.ok ()) => ∀ n ∈ slotsOf job, HoldsOwn d job.key n
  | .finished (.error cause) =>
    ∀ n ∈ slotsOf job, d.graph.Holds n (.error (failureOf job cause))

theorem finish_fills {job : Registration} {d : Deployment} {r : Ending × Deployment}
    (fills : Fills job.key (slotsOf job) d r) :
    Completes (slotsOf job) d (finish job r).2 ∧
      Settlement job (finish job r).2 (finish job r).1 := by
  obtain ⟨ending, d'⟩ := r
  obtain ⟨completes, filled⟩ := fills
  rcases filled with rfl | ⟨rfl, holds⟩
  · exact ⟨completes, trivial⟩
  · exact ⟨completes, holds⟩

theorem finish_failed {job : Registration} {d : Deployment} (ready : Ready job d)
    (cause : Failure) :
    Completes (slotsOf job) d (finish job (some (.error cause), d)).2 ∧
      Settlement job (finish job (some (.error cause), d)).2
        (finish job (some (.error cause), d)).1 :=
  failOpen_completes ready cause

end Provision.Deployment

namespace Provision.World

open Deployment

variable {σ : Type}

/-- What every question about a feature keeps, asking for the features in use keeps. -/
theorem engineFeatures_preserves {engine : Engine σ} {P : World σ → Prop}
    (keeps : ∀ id w, P w → P (w.supportsFeature engine id).2) (w : World σ) (h : P w) :
    P (w.engineFeatures engine).2 := by
  have first := keeps Feature.secrets w h
  unfold engineFeatures
  generalize w.supportsFeature engine Feature.secrets = r at first
  obtain ⟨outcome, w₁⟩ := r
  cases outcome with
  | error cause => exact first
  | ok secrets =>
    have second := keeps Feature.resourceReferences w₁ first
    dsimp only
    generalize w₁.supportsFeature engine Feature.resourceReferences = r at second
    obtain ⟨outcome, w₂⟩ := r
    cases outcome <;> exact second

/-- Asking for a feature only notes the answer. -/
theorem supportsFeature_notes (engine : Engine σ) (id : String) (w : World σ) :
    ∃ features, (w.supportsFeature engine id).2.deployment = { w.deployment with features } := by
  unfold supportsFeature
  split
  · exact ⟨_, rfl⟩
  · split <;> exact ⟨_, rfl⟩

theorem engineFeatures_notes (engine : Engine σ) (w : World σ) :
    ∃ features, (w.engineFeatures engine).2.deployment = { w.deployment with features } := by
  refine engineFeatures_preserves
    (P := fun w' => ∃ features, w'.deployment = { w.deployment with features }) ?_ w ⟨_, rfl⟩
  rintro id w' ⟨features, same⟩
  obtain ⟨features', noted⟩ := supportsFeature_notes engine id w'
  exact ⟨features', by rw [noted, same]⟩

theorem supportsFeature_gains (engine : Engine σ) (id : String) (w : World σ) :
    Gains w.deployment (w.supportsFeature engine id).2.deployment := by
  obtain ⟨features, noted⟩ := supportsFeature_notes engine id w
  rw [noted]
  exact ⟨rfl, rfl, fun _ _ h => h⟩

theorem engineFeatures_gains (engine : Engine σ) (w : World σ) :
    Gains w.deployment (w.engineFeatures engine).2.deployment := by
  obtain ⟨features, noted⟩ := engineFeatures_notes engine w
  rw [noted]
  exact ⟨rfl, rfl, fun _ _ h => h⟩

@[simp] theorem send_deployment (engine : Engine σ) (request : Exchange) (w : World σ) :
    (w.send engine request).2.deployment = w.deployment := by
  cases request <;> rfl

/-- Whatever the engine answers, a registration that is ready writes its own slots only, and
settles them all in one way or none of them. -/
theorem runRegistration_spec (engine : Engine σ) {job : Registration} {w : World σ}
    (ready : Ready job w.deployment) :
    Completes (slotsOf job) w.deployment (w.runRegistration engine job).2.deployment ∧
      Settlement job (w.runRegistration engine job).2.deployment
        (w.runRegistration engine job).1 := by
  unfold runRegistration
  dsimp only
  cases w.deployment.readIdIsUnknown job with
  | pending => exact ⟨.refl _ _, ready.isOpen⟩
  | failed cause => exact finish_failed ready cause
  | done unknown =>
    cases unknown with
    | true => exact finish_fills (completeUnknown_fills ready)
    | false =>
      have gains := engineFeatures_gains engine w
      dsimp only
      generalize w.engineFeatures engine = r at gains
      obtain ⟨outcome, w₁⟩ := r
      have ready₁ := ready.gains gains
      have after {d : Deployment} {p : Progress}
          (h : Completes (slotsOf job) w₁.deployment d ∧ Settlement job d p) :
          Completes (slotsOf job) w.deployment d ∧ Settlement job d p :=
        ⟨(gains.completes _).trans h.1, h.2⟩
      cases outcome with
      | error cause => exact after (finish_failed ready₁ cause)
      | ok features =>
        dsimp only
        cases w₁.deployment.exchange features job with
        | pending => exact after ⟨.refl _ _, ready₁.isOpen⟩
        | failed cause => exact after (finish_failed ready₁ cause)
        | done request =>
          have sent := send_deployment engine request w₁
          dsimp only
          generalize w₁.send engine request = r at sent
          obtain ⟨answer, w₂⟩ := r
          dsimp only at sent
          cases answer with
          | error cause =>
            dsimp only
            rw [sent]
            exact after (finish_failed ready₁ cause)
          | ok registered =>
            dsimp only
            rw [sent]
            exact after (finish_fills (completeRegistered_fills ready₁ registered))

/-- What a call hears when it goes on: the engine's answer, or what fails before it is asked. It
hears nothing while it waits for what its request mentions. -/
def hears (engine : Engine σ) (job : Call) (w : World σ) :
    Option (Except Failure CallResponse) :=
  match w.engineFeatures engine with
  | (.error cause, _) => some (.error cause)
  | (.ok features, w) =>
    match w.deployment.callRequest features job with
    | .pending => none
    | .failed cause => some (.error cause)
    | .done request => some (engine.call request w.engine).1

/-- A call goes on by what it hears. -/
theorem runCall_hears (engine : Engine σ) (job : Call) (w : World σ) :
    ∃ features,
      (w.runCall engine job).1 =
          (goOnCall job (w.hears engine job) { w.deployment with features }).1 ∧
        (w.runCall engine job).2.deployment =
          (goOnCall job (w.hears engine job) { w.deployment with features }).2 := by
  obtain ⟨features, noted⟩ := engineFeatures_notes engine w
  refine ⟨features, ?_⟩
  unfold runCall hears
  dsimp only
  generalize w.engineFeatures engine = r at noted
  obtain ⟨outcome, w₁⟩ := r
  dsimp only at noted
  rw [← noted]
  cases outcome with
  | error cause => exact ⟨rfl, rfl⟩
  | ok supported =>
    dsimp only
    cases w₁.deployment.callRequest supported job with
    | pending => exact ⟨rfl, rfl⟩
    | failed cause => exact ⟨rfl, rfl⟩
    | done request =>
      dsimp only
      generalize engine.call request w₁.engine = answer
      obtain ⟨outcome, s⟩ := answer
      cases outcome <;> exact ⟨rfl, rfl⟩

/-- A call writes its own slot only, and writes nothing while it waits. -/
theorem runCall_spec (engine : Engine σ) (job : Call) (w : World σ) :
    Completes [job.slot] w.deployment (w.runCall engine job).2.deployment ∧
      ((w.runCall engine job).1 = .underWay →
        (w.runCall engine job).2.deployment.graph = w.deployment.graph) := by
  obtain ⟨features, progress, after⟩ := runCall_hears engine job w
  have asked : Gains w.deployment { w.deployment with features } := ⟨rfl, rfl, fun _ _ => id⟩
  rw [progress, after]
  cases w.hears engine job with
  | none => exact ⟨asked.completes _, fun _ => rfl⟩
  | some answer =>
    exact ⟨(asked.completes _).trans (concludeCall_completes job answer _),
      fun waits => absurd waits (concludeCall_ended job answer _)⟩

end Provision.World
