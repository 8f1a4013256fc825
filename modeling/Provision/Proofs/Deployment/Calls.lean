import Provision.Proofs.Deployment.Allotment
import Provision.Proofs.Deployment.References

/-!
# What calls change

A call has no resource of its own. While it waits it changes nothing, and the engine's answer may
arrive when much has happened since the request (`Move`). Reading the answer only makes handles for
URNs under which nothing that the program registered is found (`HandleFrame`); a call that fails
does not even do that. What a call returns depends on the resources that stand for the URNs which
the engine lists, one for each of them (`CallEnds`).
-/

namespace Provision

/-- A handle has no parent and no children, and hands nothing down. -/
def Node.IsHandle (node : Node) : Prop :=
  node.identity.kind = .dependency ∧ node.inheritance = {} ∧ node.children = []

def CallResponse.listed (response : CallResponse) : List String :=
  response.returnDependencies.flatMap Prod.snd

/-- The call fails with a cause, because its answer is a failure or lists properties that were
refused. -/
def Call.Fails (job : Call) (answer : Except Failure CallResponse) (cause : Failure) : Prop :=
  answer = .error cause ∨ ∃ response, answer = .ok response ∧ response.failures ≠ [] ∧
    cause = .callFailed job.token (Deployment.refusals response.failures)

/-- Handles are added at the end, and the index stays as it is where it leads to a resource that is
no handle. -/
structure Arena.AddsHandles (before after : Arena) : Prop where
  nodes : ∃ handles, after.nodes = before.nodes ++ handles ∧ ∀ node ∈ handles, node.IsHandle
  index : ∀ urn key identity, before.urns.lookup urn = some key →
    before.identity? key = some identity → identity.kind ≠ .dependency →
    after.urns.lookup urn = some key

namespace Arena.AddsHandles

theorem refl (arena : Arena) : AddsHandles arena arena :=
  ⟨⟨[], (List.append_nil _).symm, by simp⟩, fun _ _ _ found _ _ => found⟩

theorem identities {before after : Arena} (adds : AddsHandles before after) {key : Key}
    {identity : Identity} (here : before.identity? key = some identity) :
    after.identity? key = some identity := by
  obtain ⟨handles, nodes, -⟩ := adds.nodes
  have less : key < before.nodes.length := lt_of_identity? here
  unfold identity? node? at here ⊢
  rw [nodes, List.getElem?_append_left less]
  exact here

theorem size {before after : Arena} (adds : AddsHandles before after) :
    before.size ≤ after.size := by
  obtain ⟨handles, nodes, -⟩ := adds.nodes
  simp [Arena.size, nodes]

theorem trans {first second third : Arena} (adds : AddsHandles first second)
    (adds' : AddsHandles second third) : AddsHandles first third where
  nodes := by
    obtain ⟨handles, nodes, each⟩ := adds.nodes
    obtain ⟨handles', nodes', each'⟩ := adds'.nodes
    refine ⟨handles ++ handles', by rw [nodes', nodes, List.append_assoc], fun node member => ?_⟩
    exact (List.mem_append.mp member).elim (each node) (each' node)
  index urn key identity found here kind :=
    adds'.index urn key identity (adds.index urn key identity found here kind)
      (adds.identities here) kind

end Arena.AddsHandles

namespace Deployment

variable {d d' : Deployment} {urn : String}

/-! ### Reading answers -/

/-- Handles are made and warnings reported, and nothing else. -/
structure HandleFrame (before after : Deployment) : Prop where
  adds : before.arena.AddsHandles after.arena
  rest : after = { before with arena := after.arena, warnings := after.warnings }

namespace HandleFrame

theorem refl (d : Deployment) : HandleFrame d d := ⟨.refl _, rfl⟩

theorem trans {d₁ d₂ d₃ : Deployment} (first : HandleFrame d₁ d₂) (second : HandleFrame d₂ d₃) :
    HandleFrame d₁ d₃ :=
  ⟨first.adds.trans second.adds, by rw [second.rest, first.rest]⟩

theorem gains (frame : HandleFrame d d') : Gains d d' where
  graph := by rw [frame.rest]
  tasks := by rw [frame.rest]
  identities _ _ here := frame.adds.identities here

theorem root (frame : HandleFrame d d') : d'.root = d.root := by rw [frame.rest]

end HandleFrame

theorem warn_frame (messages : List String) (d : Deployment) : HandleFrame d (d.warn messages) :=
  ⟨.refl _, rfl⟩

/-- A handle may take the place of another one in the index. -/
theorem insertDependency_frame (reference : Reference) (free : d.HandlesOnly reference.urn) :
    HandleFrame d (d.insertDependency reference.urn reference.id reference.packageVersion).2 := by
  refine ⟨⟨⟨[⟨reference.handle d.arena.size, {}, []⟩], rfl, ?_⟩, ?_⟩, rfl⟩
  · intro node member
    obtain rfl := List.mem_singleton.mp member
    exact ⟨rfl, rfl, rfl⟩
  · intro urn key identity found here kind
    rw [lookup_insertDependency]
    split
    · rename_i same
      exact absurd (free key identity (same ▸ found) here) kind
    · exact found

theorem referenceResource_frame (reference : Reference) (d : Deployment) :
    HandleFrame d (d.referenceResource reference).2 := by
  rcases referenceResource_cases reference d with reused | ⟨free, made⟩
  · rw [reused]
    exact .refl d
  · rw [made]
    exact insertDependency_frame reference free

theorem convert_frame (schema : Schema) (context : String) (dependencies : List Key)
    (value : Value) (d : Deployment) :
    HandleFrame d (d.convert schema context dependencies value).2 := by
  unfold convert HostType.convertValue
  split
  · exact .refl d
  · exact Plain.ofValue_preserves (P := HandleFrame d)
      (fun r s h => h.trans (referenceResource_frame r s)) value d (.refl d)

/-! ### What stands for a URN -/

/-- Every entry of the index leads to a resource that exists. -/
def Sited (d : Deployment) : Prop :=
  ∀ urn key, d.arena.urns.lookup urn = some key → key < d.arena.size

theorem Sited.findByUrn (sited : d.Sited) (urn : String) :
    d.arena.findByUrn urn = d.arena.urns.lookup urn := by
  cases found : d.arena.urns.lookup urn with
  | none => exact (nothing_found found).1
  | some key =>
    have less : key < d.arena.nodes.length := sited urn key found
    exact findByUrn_eq_some.mpr
      ⟨found, d.arena.nodes[key].identity, by simp [Arena.identity?, Arena.node?, less]⟩

/-- The resource stands for the URN: it was found under it, or it is a new handle for it. -/
def StandsFor (before after : Deployment) (urn : String) (key : Key) : Prop :=
  before.arena.urns.lookup urn = some key ∨
    before.arena.urns.lookup urn = none ∧ before.arena.size ≤ key ∧
      after.arena.identity? key = some (Reference.handle ⟨urn, none, none⟩ key)

structure LooksUp (before after : Deployment) : Prop where
  frame : HandleFrame before after
  sited : after.Sited
  kept : ∀ urn key, before.arena.urns.lookup urn = some key →
    after.arena.urns.lookup urn = some key
  stands : ∀ urn key, after.arena.urns.lookup urn = some key → StandsFor before after urn key

namespace LooksUp

theorem refl (sited : d.Sited) : LooksUp d d :=
  ⟨.refl d, sited, fun _ _ => id, fun _ _ => .inl⟩

theorem trans {d₁ d₂ d₃ : Deployment} (first : LooksUp d₁ d₂) (second : LooksUp d₂ d₃) :
    LooksUp d₁ d₃ where
  frame := first.frame.trans second.frame
  sited := second.sited
  kept urn key found := second.kept urn key (first.kept urn key found)
  stands urn key found := by
    rcases second.stands urn key found with found' | ⟨missing, new, handle⟩
    · rcases first.stands urn key found' with found'' | ⟨missing, new, handle⟩
      · exact .inl found''
      · exact .inr ⟨missing, new, second.frame.adds.identities handle⟩
    · cases old : d₁.arena.urns.lookup urn with
      | some other => cases missing.symm.trans (first.kept urn other old)
      | none => exact .inr ⟨old, Nat.le_trans first.frame.adds.size new, handle⟩

end LooksUp

/-- A URN leads to one resource, before and after others are looked up. -/
theorem resourceForUrn_looksUp (sited : d.Sited) (urn : String) :
    LooksUp d (d.resourceForUrn urn).2 ∧
      (d.resourceForUrn urn).2.arena.urns.lookup urn = some (d.resourceForUrn urn).1 := by
  unfold resourceForUrn
  cases found : d.arena.findByUrn urn with
  | some key => exact ⟨.refl sited, (findByUrn_eq_some.mp found).1⟩
  | none =>
    have made : d.dependencyResource urn = d.insertDependency urn none none := rfl
    have lookup := lookup_insertDependency ⟨urn, none, none⟩ d
    have missing : d.arena.urns.lookup urn = none := (sited.findByUrn urn).symm.trans found
    dsimp only at lookup ⊢
    rw [made]
    have frame := insertDependency_frame (d := d) ⟨urn, none, none⟩ (handlesOnly_of_missing found)
    refine ⟨⟨frame, ?_, ?_, ?_⟩, ?_⟩
    · intro other key here
      rw [lookup] at here
      split at here
      · cases here
        exact Arena.lt_of_identity? (identity?_insertDependency ⟨urn, none, none⟩ d)
      · exact Nat.lt_of_lt_of_le (sited other key here) frame.adds.size
    · intro other key here
      rw [lookup]
      split
      · rename_i same
        subst same
        cases missing.symm.trans here
      · exact here
    · intro other key here
      rw [lookup] at here
      split at here
      · rename_i same
        subst same
        cases here
        exact .inr ⟨missing, Nat.le_refl _, identity?_insertDependency ⟨other, none, none⟩ d⟩
      · exact .inl here
    · rw [lookup, if_pos rfl]
      rfl

/-- Every URN of a list leads to one resource. -/
theorem resourcesForUrns_looksUp (sited : d.Sited) (urns : List String) :
    LooksUp d (d.resourcesForUrns urns).2 ∧
      (d.resourcesForUrns urns).1.map some =
        urns.map fun urn => (d.resourcesForUrns urns).2.arena.urns.lookup urn := by
  induction urns generalizing d with
  | nil => exact ⟨.refl sited, rfl⟩
  | cons urn rest ih =>
    obtain ⟨first, found⟩ := resourceForUrn_looksUp sited urn
    obtain ⟨later, keys⟩ := ih first.sited
    refine ⟨first.trans later, ?_⟩
    have still := later.kept urn _ found
    unfold resourcesForUrns
    rw [List.map_cons, List.map_cons, keys]
    exact congrArg (· :: _) still.symm

/-- The resources that were found one by one, as a function of the URNs. -/
theorem exists_stands {d' : Deployment} (looked : LooksUp d d') {urns : List String}
    {keys : List Key}
    (found : keys.map some = urns.map fun urn => d'.arena.urns.lookup urn) :
    ∃ stands : String → Key, keys = urns.map stands ∧
      ∀ urn ∈ urns, StandsFor d d' urn (stands urn) := by
  refine ⟨fun urn => (d'.arena.urns.lookup urn).getD 0, ?_, fun urn member => ?_⟩
  · have all := congrArg (List.map fun key? : Option Key => key?.getD 0) found
    simpa [Function.comp_def] using all
  · have here : d'.arena.urns.lookup urn ∈ keys.map some := found ▸ List.mem_map_of_mem member
    obtain ⟨key, -, same⟩ := List.mem_map.mp here
    refine looked.stands urn _ ?_
    simp only [← same, Option.getD_some]

theorem StandsFor.later {d₁ d₂ : Deployment} {key : Key} (stands : StandsFor d d₁ urn key)
    (adds : d₁.arena.AddsHandles d₂.arena) : StandsFor d d₂ urn key :=
  stands.imp_right fun ⟨missing, new, handle⟩ => ⟨missing, new, adds.identities handle⟩

/-- The data of an answer without refusals depends on what stands for the URNs that are listed. -/
theorem callResult_returns {job : Call} (valid : job.schema.Valid) (sited : d.Sited)
    {response : CallResponse} (accepted : response.failures = []) :
    HandleFrame d (callResult job response d).2 ∧
      ((callResult job response d).1 = none ∨ ∃ data, ∃ stands : String → Key,
        (callResult job response d).1 = some (.ok data) ∧
          (∀ urn ∈ response.listed, StandsFor d (callResult job response d).2 urn (stands urn)) ∧
          data.dependencies = Ascending.ofList (response.listed.map stands)) := by
  obtain ⟨looked, found⟩ := resourcesForUrns_looksUp sited response.listed
  unfold callResult CallResponse.listed at *
  rw [accepted]
  dsimp only [List.isEmpty_nil, Bool.not_true, Bool.false_eq_true, if_false]
  generalize d.resourcesForUrns (response.returnDependencies.flatMap Prod.snd) = r at looked found
  obtain ⟨keys, d₁⟩ := r
  obtain ⟨stands, rfl, each⟩ := exists_stands looked found
  have frame := convert_frame job.schema job.token
    (Ascending.ofList ((response.returnDependencies.flatMap Prod.snd).map stands))
    (.object response.returnValues) d₁
  obtain ⟨converted, ok, dependencies⟩ := convert_of_valid valid job.token
    (Ascending.ofList ((response.returnDependencies.flatMap Prod.snd).map stands))
    (.object response.returnValues) d₁
  dsimp only
  generalize d₁.convert job.schema job.token _ (.object response.returnValues) = r at frame ok
  obtain ⟨outcome, d₂⟩ := r
  cases ok
  cases converted with
  | none => exact ⟨looked.frame.trans frame, .inl rfl⟩
  | some c =>
    refine ⟨(looked.frame.trans frame).trans (warn_frame c.warnings d₂), .inr ?_⟩
    exact ⟨c.data, stands, rfl, fun urn member => (each urn member).later frame.adds,
      dependencies c rfl⟩

/-! ### How a call ends -/

/-- What a call keeps of the resources: the handles of all that were there, with their parents and
children and what they hand down, the index where it leads to a resource that is no handle, the
tasks of the registrations, and their slots. -/
structure LeavesResources (before after : Deployment) : Prop where
  adds : before.arena.AddsHandles after.arena
  root : after.root = before.root
  registrations : ∀ (n : Nat) (job : Registration) (progress : Progress) (tracked : Bool),
    after.tasks[n]? = some ⟨.registration job, progress, tracked⟩ ↔
      before.tasks[n]? = some ⟨.registration job, progress, tracked⟩
  slots : ∀ job ∈ before.registrations, ∀ n ∈ slotsOf job,
    after.graph.slots[n]? = before.graph.slots[n]?

/-- How a call ends with an answer: with a failure, which leaves no trace but itself, or with data
that depends on what stands for the URNs that the answer lists, or in a conversion without an
end. -/
inductive CallEnds (before : Deployment) (job : Call) (answer : Except Failure CallResponse)
    (after : Deployment) : Prop where
  | failed {cause : Failure} (fails : job.Fails answer cause)
      (holds : after.graph.Holds job.slot (.error cause))
      (arena : after.arena = before.arena) (warnings : after.warnings = before.warnings)
  | returned {response : CallResponse} (answered : answer = .ok response)
      (accepted : response.failures = []) {data : Data HostValue}
      (holds : after.graph.Holds job.slot (.ok data)) (stands : String → Key)
      (each : ∀ urn ∈ response.listed, StandsFor before after urn (stands urn))
      (dependencies : data.dependencies = Ascending.ofList (response.listed.map stands))
  | endless {response : CallResponse} (answered : answer = .ok response)
      (accepted : response.failures = []) (isOpen : after.graph.IsOpen job.slot)

/-- What the engine said about features does not matter. -/
theorem CallEnds.noted {job : Call} {answer : Except Failure CallResponse}
    {features : Fields Bool} (ends : CallEnds { d with features } job answer d') :
    CallEnds d job answer d' := by
  cases ends with
  | failed fails holds arena warnings => exact .failed fails holds arena warnings
  | returned answered accepted holds stands each dependencies =>
    exact .returned answered accepted holds stands each dependencies
  | endless answered accepted isOpen => exact .endless answered accepted isOpen

/-- The task with the given number ends with an answer to its call. -/
def callAnswered (number : Nat) (job : Call) (answer : Except Failure CallResponse)
    (d : Deployment) : Deployment :=
  (d.concludeCall job answer).2.note number (d.concludeCall job answer).1

/-- What is read from an answer, and what becomes of the slot. -/
theorem concludeCall_ends {job : Call} (valid : job.schema.Valid) (sited : d.Sited)
    (isOpen : d.graph.IsOpen job.slot) (answer : Except Failure CallResponse) :
    CallEnds d job answer (d.concludeCall job answer).2 ∧
      ∃ result d', HandleFrame d d' ∧ d.concludeCall job answer = finishCall job result d' := by
  have completed {d' : Deployment} (frame : HandleFrame d d') (result : Settled HostValue) :
      (finishCall job (some result) d').2.graph.Holds job.slot result :=
    (Graph.complete_of_open (frame.gains.graph ▸ isOpen) result).2
  have failed {cause : Failure} (fails : job.Fails answer cause)
      (step : d.concludeCall job answer = finishCall job (some (.error cause)) d) :
      CallEnds d job answer (d.concludeCall job answer).2 ∧
        ∃ result d', HandleFrame d d' ∧ d.concludeCall job answer = finishCall job result d' := by
    refine ⟨?_, _, d, .refl d, step⟩
    rw [step]
    exact .failed fails (completed (.refl d) _) rfl rfl
  cases answer with
  | error cause => exact failed (.inl rfl) rfl
  | ok response =>
    have step : d.concludeCall job (.ok response) =
        finishCall job (callResult job response d).1 (callResult job response d).2 := rfl
    by_cases accepted : response.failures = []
    · obtain ⟨frame, endless | ⟨data, stands, result, each, dependencies⟩⟩ :=
        callResult_returns valid sited accepted
      · refine ⟨?_, _, _, frame, step⟩
        rw [step, endless]
        exact .endless rfl accepted (frame.gains.graph ▸ isOpen)
      · refine ⟨?_, _, _, frame, step⟩
        rw [step, result]
        exact .returned rfl accepted (completed frame _) stands each dependencies
    · have refused : callResult job response d =
          (some (.error (.callFailed job.token (refusals response.failures))), d) := by
        unfold callResult
        rw [if_pos (by simpa using accepted)]
      exact failed (.inr ⟨response, rfl, accepted, rfl⟩) (step.trans (by rw [refused]))

/-- A task that waits on is as it was. -/
theorem note_underWay {number : Nat} {job : Job} {tracked : Bool}
    (task : d.tasks[number]? = some ⟨job, .underWay, tracked⟩) : d.note number .underWay = d := by
  have same : (d.tasks.modify number fun t => { t with progress := .underWay }) = d.tasks := by
    refine List.ext_getElem? fun i => ?_
    rw [List.getElem?_modify]
    split
    · rename_i here
      subst here
      rw [task]
      rfl
    · simp
  unfold note
  rw [same]

/-- A call that ends leaves all resources as they are. -/
theorem callAnswered_leaves {held : List (List DeclaredOutput)} {own : List Nat} {number : Nat}
    {job : Call} {tracked : Bool} (owned : d.Owned held own) (apart : d.CallsApart held)
    (sited : d.Sited) (task : d.tasks[number]? = some ⟨.call job, .underWay, tracked⟩)
    (answer : Except Failure CallResponse) :
    CallEnds d job answer (d.callAnswered number job answer) ∧
      LeavesResources d (d.callAnswered number job answer) := by
  have member := List.mem_of_getElem? task
  have called : job ∈ d.calls := mem_calls.mpr ⟨_, _, member⟩
  have isOpen := owned.isOpen job.slot
    (mem_awaiting_of_task member held (List.mem_singleton.mpr rfl))
  obtain ⟨ends, result, d', frame, step⟩ :=
    concludeCall_ends (apart.valid job called) sited isOpen answer
  have completes := concludeCall_completes job answer d
  have kept : (finishCall job result d').2.arena = d'.arena ∧
      (finishCall job result d').2.root = d'.root := by cases result <;> exact ⟨rfl, rfl⟩
  rw [← step] at kept
  constructor
  · cases ends with
    | failed fails holds arena warnings => exact .failed fails holds arena warnings
    | returned answered accepted holds stands each dependencies =>
      exact .returned answered accepted holds stands each dependencies
    | endless answered accepted isOpen => exact .endless answered accepted isOpen
  · refine ⟨?_, kept.2.trans frame.root, fun n other progress tracked' => ?_, ?_⟩
    · exact (kept.1 ▸ frame.adds : d.arena.AddsHandles (d.concludeCall job answer).2.arena)
    · unfold callAnswered note
      dsimp only
      rw [completes.tasks, List.getElem?_modify]
      by_cases same : number = n
      · subst same
        simp [task]
      · simp [same]
    · intro other registered n mine
      refine completes.writes.same completes.length fun same => ?_
      obtain rfl := List.mem_singleton.mp same
      exact (apart.slot job called).2 (.inr ⟨other, registered, mine⟩)

/-- The first half of a call takes a new slot, and leaves all resources as they are. -/
theorem call_leaves (spec : CallSpec) (d : Deployment)
    (exist : ∀ job ∈ d.registrations, ∀ n ∈ slotsOf job, n < d.graph.slots.length) :
    LeavesResources d (d.call spec).2 ∧ (d.call spec).2.arena = d.arena ∧
      (d.call spec).2.warnings = d.warnings := by
  have none : LeavesResources d d :=
    ⟨.refl _, rfl, fun _ _ _ _ => .rfl, fun _ _ _ _ => rfl⟩
  unfold call
  split
  · exact ⟨none, rfl, rfl⟩
  · split
    · exact ⟨none, rfl, rfl⟩
    · refine ⟨⟨.refl _, rfl, fun n job progress tracked => ?_, fun job member n here => ?_⟩,
        rfl, rfl⟩
      · show (d.tasks ++ [_])[n]? = _ ↔ _
        rcases Nat.lt_trichotomy n d.tasks.length with less | rfl | more
        · rw [List.getElem?_append_left less]
        · simp
        · rw [List.getElem?_eq_none (by simp; omega), List.getElem?_eq_none (by omega)]
      · exact (Graph.addSlot_writes d.graph spec.token).kept n (by simp) (exist job member n here)

end Deployment

namespace Ledger

open Deployment World Relation

variable {σ : Type} {engine : Engine σ} {l l' : Ledger σ}

/-- A step, or a part of one that takes its time: the answer to a call, which may arrive when much
has happened since the request, or the beginning of a wait, whose registrations are its own from
then on, whether it ever ends or not. -/
inductive Move (engine : Engine σ) (l : Ledger σ) : Ledger σ → Prop where
  | step {l' : Ledger σ} (step : Step engine l l') : Move engine l l'
  | takes : Move engine l
      (l.edit fun d => { d with tasks := d.tasks.map fun t => { t with tracked := false } })
  | answered {number : Nat} {job : Call} {tracked : Bool}
      (task : l.deployment.tasks[number]? = some ⟨.call job, .underWay, tracked⟩)
      (answer : Except Failure CallResponse) :
      Move engine l (l.edit fun d => d.callAnswered number job answer)

/-- A ledger that some program and some order of the tasks and of the answers lead to. -/
def Reached (engine : Engine σ) (l : Ledger σ) : Prop :=
  ∃ settings s, ReflTransGen (Move engine) (initial settings s) l

structure Regular (l : Ledger σ) : Prop where
  sound : l.Sound
  apart : l.CallsApart
  indexed : l.deployment.Indexed

/-- Registered resources and handles exist. -/
theorem Regular.sited (regular : l.Regular) : l.deployment.Sited := by
  intro urn key found
  cases regular.indexed urn key found with
  | handle same here => exact Arena.lt_of_identity? here
  | own same bears =>
    obtain ⟨progress, tracked, task⟩ := mem_registrations.mp bears.registered
    obtain ⟨accepted, -⟩ := regular.sound.owned.settled _ progress tracked task
    exact same ▸ Arena.lt_of_identity? accepted.handle

theorem initial_regular (settings : Settings) (s : σ) : (initial settings s).Regular :=
  ⟨initial_sound settings s, initial_callsApart settings s, by rintro urn key ⟨⟩⟩

theorem callAnswered_sound (regular : l.Regular) {number : Nat} {job : Call} {tracked : Bool}
    (task : l.deployment.tasks[number]? = some ⟨.call job, .underWay, tracked⟩)
    (answer : Except Failure CallResponse) :
    (l.edit fun d => d.callAnswered number job answer).Sound ∧
      (l.deployment.callAnswered number job answer).Indexed := by
  have own : job.slot ∈ Job.slots (.call job) := List.mem_singleton.mpr rfl
  have spare := regular.sound.spare_task task own (by rintro r ⟨⟩)
  have changes := concludeCall_changes spare answer
  have completes := concludeCall_completes job answer l.deployment
  have noted := changes.trans (note_changes _ number (l.deployment.concludeCall job answer).1)
  refine ⟨⟨regular.sound.owned.goOn task completes ?_ (by rintro r ⟨⟩), ?_⟩, ?_⟩
  · exact fun waits => absurd waits (concludeCall_ended job answer l.deployment)
  · exact regular.sound.concluded.note completes.tasks changes task (by rintro r ⟨⟩)
  · exact Changes.indexed noted regular.indexed

theorem Move.allots (move : Move engine l l') (regular : l.Regular) :
    Allots l.deployment l'.deployment l.held l'.held := by
  cases move with
  | step step => exact step.allots regular.sound.owned regular.apart
  | takes => exact untrack_allots (.refl _)
  | answered task answer =>
    exact (GoesOn.of_note (concludeCall_completes _ answer _) _ _).allots fun _ => id

theorem Move.regular (move : Move engine l l') (regular : l.Regular) : l'.Regular := by
  suffices l'.Sound ∧ l'.deployment.Indexed from
    ⟨this.1, regular.apart.later (move.allots regular), this.2⟩
  cases move with
  | step step =>
    exact ⟨(step.course regular.sound).1, step.indexed regular.sound regular.indexed⟩
  | takes =>
    obtain ⟨sound, changes⟩ := untrack_course regular.sound
    exact ⟨sound, Changes.indexed changes regular.indexed⟩
  | answered task answer => exact callAnswered_sound regular task answer

theorem Reached.regular (reached : Reached engine l) : l.Regular := by
  obtain ⟨settings, s, moves⟩ := reached
  induction moves with
  | refl => exact initial_regular settings s
  | tail _ move ih => exact move.regular ih

/-- A call that goes on waits for more, or ends with what it hears. -/
theorem runTask_hears (engine : Engine σ) {number : Nat} {job : Call} {tracked : Bool}
    (task : l.deployment.tasks[number]? = some ⟨.call job, .underWay, tracked⟩) :
    ∃ features, (l.world.runTask engine number).deployment =
      match l.world.hears engine job with
      | none => { l.deployment with features }
      | some answer => callAnswered number job answer { l.deployment with features } := by
  obtain ⟨features, progress, after⟩ := runCall_hears engine job l.world
  have same : (l.world.runTask engine number).deployment =
      (l.world.runCall engine job).2.deployment.note number (l.world.runCall engine job).1 := by
    unfold runTask
    rw [task]
    rfl
  refine ⟨features, ?_⟩
  rw [same, progress, after]
  cases l.world.hears engine job with
  | some answer => rfl
  | none => exact note_underWay (d := { l.deployment with features }) task

/-- A method call leaves the resources that exist alone, whether it is accepted, waits, goes on, or
is answered late: their handles, slots, parents and children, what they hand down, and the index
where it leads to a resource that is no handle. If it fails, nothing else is left of it either. If
it succeeds, its result depends on the resources that stand for the URNs listed in the answer, one
for each, and on no others; what the index leads to represents the URN. -/
theorem calls_leave_resources_alone (reached : Reached engine l) :
    l.deployment.Indexed ∧
    (∀ spec, LeavesResources l.deployment (l.deployment.call spec).2 ∧
      (l.deployment.call spec).2.arena = l.deployment.arena ∧
      (l.deployment.call spec).2.warnings = l.deployment.warnings) ∧
    ∀ (number : Nat) (job : Call) (tracked : Bool),
      l.deployment.tasks[number]? = some ⟨.call job, .underWay, tracked⟩ →
      (∀ answer, CallEnds l.deployment job answer (l.deployment.callAnswered number job answer) ∧
        LeavesResources l.deployment (l.deployment.callAnswered number job answer)) ∧
      match l.world.hears engine job with
      | none => ∃ features,
          (l.world.runTask engine number).deployment = { l.deployment with features }
      | some answer =>
          CallEnds l.deployment job answer (l.world.runTask engine number).deployment ∧
            LeavesResources l.deployment (l.world.runTask engine number).deployment := by
  have regular := reached.regular
  refine ⟨regular.indexed, fun spec => ?_, fun number job tracked task => ⟨fun answer => ?_, ?_⟩⟩
  · exact call_leaves spec l.deployment fun job member n here =>
      regular.apart.exist n (.inr ⟨job, member, here⟩)
  · obtain ⟨ends, leaves⟩ :=
      callAnswered_leaves regular.sound.owned regular.apart regular.sited task answer
    exact ⟨ends, leaves⟩
  · obtain ⟨features, next⟩ := runTask_hears engine task
    cases hears : l.world.hears engine job with
    | none =>
      rw [hears] at next
      exact ⟨features, next⟩
    | some answer =>
      rw [hears] at next
      have asked : Gains l.deployment { l.deployment with features } := ⟨rfl, rfl, fun _ _ => id⟩
      have apart : Deployment.CallsApart { l.deployment with features } l.held :=
        ⟨regular.apart.exist, regular.apart.valid, regular.apart.slot⟩
      obtain ⟨ends, leaves⟩ := callAnswered_leaves (regular.sound.owned.gains asked) apart
        regular.sited task answer
      dsimp only
      rw [next]
      exact ⟨ends.noted, leaves.adds, leaves.root, leaves.registrations, leaves.slots⟩

theorem Reachable.reached (reachable : Reachable engine l) : Reached engine l := by
  obtain ⟨settings, s, history⟩ := reachable
  refine ⟨settings, s, ?_⟩
  exact history.induct (fun _ _ moves step => moves.tail (.step step)) .refl

/-- A call after a resource was registered, and an answer that lists the resource and another. -/
theorem calls_leave_resources_alone_answered :
    let l := answered.edit fun d => (d.call ⟨"pkg:index:size", [], none, {}, ⟨.any, []⟩⟩).2
    let job : Call := ⟨"pkg:index:size", [], none, {}, ⟨.any, []⟩, 2⟩
    let response : CallResponse := { returnDependencies := [("size", ["urn:other", "urn:thing"])] }
    let after := l.deployment.callAnswered 1 job (.ok response)
    Reached obliging l ∧ l.deployment.tasks[1]? = some ⟨.call job, .underWay, false⟩ ∧
      CallEnds l.deployment job (.ok response) after ∧
      (∃ value secret, after.graph.Holds 2 (.ok ⟨value, secret, [0, 1]⟩)) ∧
      LeavesResources l.deployment after := by
  intro l job response after
  have reached : Reached obliging l := (answered_reachable.step (.call answered _)).reached
  have task : l.deployment.tasks[1]? = some ⟨.call job, .underWay, false⟩ := rfl
  obtain ⟨ends, leaves⟩ :=
    ((calls_leave_resources_alone reached).2.2 1 job false task).1 (.ok response)
  exact ⟨reached, task, ends, ⟨_, _, "pkg:index:size", rfl⟩, leaves⟩

end Ledger

end Provision
