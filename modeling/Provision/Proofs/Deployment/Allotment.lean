import Provision.Proofs.Deployment.Course

/-!
# Whose the slot of a call is

A call completes one slot, which it gets when it is accepted. Slots are allotted from new numbers
only (`Step.allots`), so no registration and no collection of declared properties has the slot of a
call: neither one that waits nor one that has ended, nor one that is caught in a conversion
(`CallsApart`). Tasks are numbered as well: a new one is tracked exactly if it is a registration,
and one that is not tracked any more stays so (`Tracking`).
-/

namespace Provision

def Job.call? : Job → Option Call
  | .registration _ => none
  | .call job => some job

def Task.standing (task : Task) : Job × Bool := (task.job, task.tracked)

theorem map_job (tasks : List Task) :
    tasks.map Task.job = (tasks.map Task.standing).map Prod.fst := by
  rw [List.map_map]
  rfl

/-- Lists with the same images have the same images place by place. -/
theorem getElem?_map_congr {α β : Type} {f : α → β} {xs ys : List α} (same : xs.map f = ys.map f)
    (n : Nat) : xs[n]?.map f = ys[n]?.map f := by
  rw [← List.getElem?_map, same, List.getElem?_map]

namespace Deployment

/-- The calls of a deployment, in the order in which they were accepted. -/
def calls (d : Deployment) : List Call := (d.tasks.map Task.job).filterMap Job.call?

theorem mem_calls {d : Deployment} {job : Call} :
    job ∈ d.calls ↔ ∃ progress tracked, ⟨.call job, progress, tracked⟩ ∈ d.tasks := by
  unfold calls
  simp only [List.mem_filterMap, List.mem_map]
  constructor
  · rintro ⟨_, ⟨⟨job', progress, tracked⟩, member, rfl⟩, is⟩
    cases job' with
    | registration other => cases is
    | call other =>
      cases is
      exact ⟨progress, tracked, member⟩
  · rintro ⟨progress, tracked, member⟩
    exact ⟨_, ⟨_, member, rfl⟩, rfl⟩

/-- The slot is that of a declared property in a collection, or of a registration, whether this has
ended or not. -/
def Allotted (d : Deployment) (held : List (List DeclaredOutput)) (n : Nat) : Prop :=
  (∃ declared ∈ held, ∃ o ∈ declared, o.slot = n) ∨ ∃ job ∈ d.registrations, n ∈ slotsOf job

/-- Every call is for a type whose shape is valid, and has a slot that is nobody else's. -/
structure CallsApart (d : Deployment) (held : List (List DeclaredOutput)) : Prop where
  exist : ∀ n, d.Allotted held n → n < d.graph.slots.length
  valid : ∀ job ∈ d.calls, job.schema.Valid
  slot : ∀ job ∈ d.calls, job.slot < d.graph.slots.length ∧ ¬ d.Allotted held job.slot

/-- The tasks stay what they are for, some may not be tracked any more, and exactly the
registrations among the new ones are tracked. -/
structure Tracking (before after : Deployment) : Prop where
  old : ∀ (n : Nat) (task : Task), before.tasks[n]? = some task →
    ∃ task', after.tasks[n]? = some task' ∧ task'.job = task.job ∧
      (task'.tracked = true → task.tracked = true)
  new : ∀ (n : Nat) (task : Task), before.tasks[n]? = none → after.tasks[n]? = some task →
    task.tracked = task.job.registration?.isSome

namespace Tracking

variable {d d' : Deployment}

theorem of_jobs (jobs : d'.tasks.map Task.job = d.tasks.map Task.job)
    (fewer : ∀ (n : Nat) (task task' : Task), d.tasks[n]? = some task →
      d'.tasks[n]? = some task' → task'.tracked = true → task.tracked = true) : Tracking d d' := by
  refine ⟨fun n task here => ?_, fun n task missing here => ?_⟩
  · have job := getElem?_map_congr jobs n
    rw [here] at job
    obtain ⟨task', here', job⟩ := Option.map_eq_some_iff.mp job
    exact ⟨task', here', job, fewer n task task' here here'⟩
  · have job := getElem?_map_congr jobs n
    rw [missing, here] at job
    cases job

theorem of_standing (standing : d'.tasks.map Task.standing = d.tasks.map Task.standing) :
    Tracking d d' := by
  refine .of_jobs (by rw [map_job, map_job, standing]) fun n task task' here here' => ?_
  have same := getElem?_map_congr standing n
  rw [here, here'] at same
  have tracked : task'.tracked = task.tracked := congrArg Prod.snd (Option.some.inj same)
  rw [tracked]
  exact id

theorem of_tasks (tasks : d'.tasks = d.tasks) : Tracking d d' := .of_standing (by rw [tasks])

theorem of_added {task : Task} (tasks : d'.tasks = d.tasks ++ [task])
    (fits : task.tracked = task.job.registration?.isSome) : Tracking d d' := by
  refine ⟨fun n old here => ⟨old, ?_, rfl, id⟩, fun n new missing here => ?_⟩
  · obtain ⟨less, -⟩ := List.getElem?_eq_some_iff.mp here
    rw [tasks, List.getElem?_append_left less, here]
  · rw [tasks, List.getElem?_append_right (List.getElem?_eq_none_iff.mp missing)] at here
    obtain rfl : new = task := List.mem_singleton.mp (List.mem_of_getElem? here)
    exact fits

end Tracking

/-- What is allotted from one deployment to a later one has new numbers. -/
structure Allots (d d' : Deployment) (held held' : List (List DeclaredOutput)) : Prop where
  tracking : Tracking d d'
  grows : d.graph.slots.length ≤ d'.graph.slots.length
  allotted : ∀ n, d'.Allotted held' n →
    d.Allotted held n ∨ d.graph.slots.length ≤ n ∧ n < d'.graph.slots.length
  calls : ∀ job ∈ d'.calls, job ∈ d.calls ∨
    job.schema.Valid ∧ job.slot < d'.graph.slots.length ∧
      ∀ n, d'.Allotted held' n → d.Allotted held n ∧ n < job.slot

theorem CallsApart.later {d d' : Deployment} {held held' : List (List DeclaredOutput)}
    (apart : d.CallsApart held) (allots : Allots d d' held held') : d'.CallsApart held' where
  exist n here := by
    rcases allots.allotted n here with old | ⟨-, less⟩
    · exact Nat.lt_of_lt_of_le (apart.exist n old) allots.grows
    · exact less
  valid job member := by
    rcases allots.calls job member with old | ⟨valid, -⟩
    · exact apart.valid job old
    · exact valid
  slot job member := by
    rcases allots.calls job member with old | ⟨-, less, fresh⟩
    · obtain ⟨less, fresh⟩ := apart.slot job old
      refine ⟨Nat.lt_of_lt_of_le less allots.grows, fun here => ?_⟩
      rcases allots.allotted _ here with mine | ⟨more, -⟩
      · exact fresh mine
      · omega
    · exact ⟨less, fun here => Nat.lt_irrefl _ (fresh _ here).2⟩

/-- An empty collection has no slots. -/
theorem allotted_nil {d : Deployment} {held : List (List DeclaredOutput)} {n : Nat} :
    d.Allotted ([] :: held) n ↔ d.Allotted held n := by
  simp [Allotted]

theorem Allots.of_nil {d d' : Deployment} {held held' : List (List DeclaredOutput)}
    (allots : Allots d d' ([] :: held) held') : Allots d d' held held' where
  tracking := allots.tracking
  grows := allots.grows
  allotted := by simpa only [allotted_nil] using allots.allotted
  calls := by simpa only [allotted_nil] using allots.calls

variable {d d' : Deployment} {held held' before after : List (List DeclaredOutput)}

/-- The program may give collections up while the tasks go on. -/
theorem allots_of_jobs (jobs : d'.tasks.map Task.job = d.tasks.map Task.job)
    (tracking : Tracking d d') (length : d'.graph.slots.length = d.graph.slots.length)
    (fewer : ∀ declared ∈ held', declared ∈ held) : Allots d d' held held' where
  tracking := tracking
  grows := Nat.le_of_eq length.symm
  allotted n here := by
    have registrations : d'.registrations = d.registrations := by
      unfold Deployment.registrations
      rw [jobs]
    unfold Allotted at here ⊢
    rw [registrations] at here
    rcases here with ⟨declared, member, listed⟩ | mine
    · exact .inl (.inl ⟨declared, fewer declared member, listed⟩)
    · exact .inl (.inr mine)
  calls job member := by
    unfold Deployment.calls at member ⊢
    rw [jobs] at member
    exact .inl member

structure GoesOn (d d' : Deployment) : Prop where
  standing : d'.tasks.map Task.standing = d.tasks.map Task.standing
  length : d'.graph.slots.length = d.graph.slots.length

namespace GoesOn

theorem refl (d : Deployment) : GoesOn d d := ⟨rfl, rfl⟩

theorem trans {d₁ d₂ d₃ : Deployment} (first : GoesOn d₁ d₂) (second : GoesOn d₂ d₃) :
    GoesOn d₁ d₃ :=
  ⟨second.standing.trans first.standing, second.length.trans first.length⟩

theorem of_gains (gains : Gains d d') : GoesOn d d' :=
  ⟨by rw [gains.tasks], by rw [gains.graph]⟩

/-- One task writes slots and makes progress. -/
theorem of_note {touched : List Nat} (completes : Completes touched d d') (number : Nat)
    (progress : Progress) : GoesOn d (d'.note number progress) := by
  refine ⟨?_, completes.length⟩
  unfold note
  refine List.ext_getElem? fun i => ?_
  simp only [List.getElem?_map, List.getElem?_modify, completes.tasks]
  split
  · cases d.tasks[i]? <;> rfl
  · simp

theorem jobs (on : GoesOn d d') : d'.tasks.map Task.job = d.tasks.map Task.job := by
  rw [map_job, map_job, on.standing]

theorem allots (on : GoesOn d d') (fewer : ∀ declared ∈ held', declared ∈ held) :
    Allots d d' held held' :=
  allots_of_jobs on.jobs (.of_standing on.standing) on.length fewer

end GoesOn

theorem untrack_jobs (tasks : List Task) :
    (tasks.map fun t => { t with tracked := false }).map Task.job = tasks.map Task.job := by
  simp only [List.map_map, Function.comp_def]

/-- Forgetting which registrations are tracked. -/
theorem untrack_allots (on : GoesOn d d') :
    Allots d { d' with tasks := d'.tasks.map fun t => { t with tracked := false } } held held := by
  have jobs := (untrack_jobs d'.tasks).trans on.jobs
  refine allots_of_jobs jobs (.of_jobs jobs fun n task task' _ here tracked => ?_) on.length
    fun _ => id
  obtain ⟨old, -, rfl⟩ := List.mem_map.mp (List.mem_of_getElem? here)
  cases tracked

theorem giveUp_goesOn (declared : List DeclaredOutput) (d : Deployment) :
    GoesOn d (d.giveUp declared) := by
  refine ⟨rfl, ?_⟩
  unfold giveUp
  dsimp only
  generalize d.graph = graph
  induction declared generalizing graph with
  | nil => rfl
  | cons o rest ih => exact (ih _).trans (by simp [Graph.drop])

theorem mem_without {declared other : List DeclaredOutput} (member : other ∈ before ++ after) :
    other ∈ before ++ declared :: after := by
  rcases List.mem_append.mp member with here | here
  · exact List.mem_append_left _ here
  · exact List.mem_append_right _ (List.mem_cons_of_mem _ here)

theorem addSlot_length (name : String) (d : Deployment) :
    (d.addSlot name).2.graph.slots.length = d.graph.slots.length + 1 := by
  simp [addSlot, Graph.addSlot]

/-- Slots that nobody gets. -/
theorem addSlot_allots (name : String) : Allots d (d.addSlot name).2 held held where
  tracking := .of_tasks rfl
  grows := by rw [addSlot_length]; omega
  allotted _ here := .inl here
  calls _ member := .inl member

theorem declare_allots {declared : List DeclaredOutput} (name : String) (schema : Schema) :
    Allots d (d.declare declared name schema).2 (before ++ declared :: after)
      (before ++ ((d.declare declared name schema).1.toOption.getD declared) :: after) := by
  unfold declare
  split
  · exact (GoesOn.refl d).allots fun _ => id
  · split
    · exact (GoesOn.refl d).allots fun _ => id
    · have length := addSlot_length name d
      refine ⟨.of_tasks rfl, by dsimp only; omega, fun n here => ?_, fun job member => .inl member⟩
      rcases here with ⟨other, member, o, listed, rfl⟩ | mine
      · rcases List.mem_append.mp member with here | here
        · exact .inl (.inl ⟨other, List.mem_append_left _ here, o, listed, rfl⟩)
        · rcases List.mem_cons.mp here with rfl | here
          · rcases List.mem_append.mp listed with old | new
            · exact .inl (.inl ⟨declared, by simp, o, old, rfl⟩)
            · obtain rfl := List.mem_singleton.mp new
              exact .inr ⟨Nat.le_refl _, (addSlot_isOpen d name).lt⟩
          · exact .inl (.inl ⟨other, by simp [here], o, listed, rfl⟩)
      · exact .inl (.inr mine)

theorem register_allots (spec : ResourceSpec) (before after : List (List DeclaredOutput)) :
    Allots d (d.register spec).2 (before ++ spec.outputs :: after) (before ++ after) := by
  cases outcome : (d.register spec).1.outcome with
  | error cause =>
    rw [Ledger.register_refused outcome]
    exact (giveUp_goesOn _ d).allots fun _ => mem_without
  | ok key =>
    obtain ⟨job, d', starts, -, same⟩ := register_accepted outcome
    rw [same]
    have tasks := congrArg (· ++ [⟨.registration job, .underWay, true⟩]) starts.tasks
    refine ⟨.of_added tasks rfl, starts.writes.grows, fun n here => ?_,
      fun call member => .inl ?_⟩
    · rcases here with ⟨declared, member, listed⟩ | ⟨other, member, slot⟩
      · exact .inl (.inl ⟨declared, mem_without member, listed⟩)
      · simp only [registrations, starts.tasks, List.map_append, List.filterMap_append,
          List.mem_append] at member
        rcases member with old | new
        · exact .inl (.inr ⟨other, old, slot⟩)
        · obtain rfl : other = job := by simpa [Job.registration?] using new
          rw [slotsOf_eq] at slot
          rcases List.mem_append.mp slot with identity | output
          · exact .inr ⟨starts.new n identity, (starts.isOpen n identity).lt⟩
          · rw [starts.outputs] at output
            obtain ⟨o, listed, rfl⟩ := List.mem_map.mp output
            exact .inl (.inl ⟨spec.outputs, by simp, o, listed, rfl⟩)
    · simpa [calls, starts.tasks, Job.call?] using member

theorem registerProvider_allots (package : String) (spec : ResourceSpec)
    (before after : List (List DeclaredOutput)) :
    Allots d (d.registerProvider package spec).2 (before ++ spec.outputs :: after)
      (before ++ after) := by
  unfold registerProvider
  split
  · exact (giveUp_goesOn _ d).allots fun _ => mem_without
  · exact register_allots { spec with kind := .provider, type := providerType package } before after

/-- A call that is accepted gets the next slot. -/
theorem call_allots (apart : d.CallsApart held) (spec : CallSpec) :
    Allots d (d.call spec).2 held held := by
  unfold call
  split
  · exact (GoesOn.refl d).allots fun _ => id
  · split
    · exact (GoesOn.refl d).allots fun _ => id
    · rename_i valid
      have length := addSlot_length spec.token d
      have tasks : (d.addSlot spec.token).2.tasks = d.tasks := rfl
      have old (job : Call) (n : Nat) : Allotted { (d.addSlot spec.token).2 with
          tasks := d.tasks ++ [⟨.call job, .underWay, false⟩] } held n → d.Allotted held n := by
        rintro (declared | ⟨job, member, slot⟩)
        · exact .inl declared
        · refine .inr ⟨job, ?_, slot⟩
          simpa [registrations, Job.registration?] using member
      refine ⟨.of_added rfl rfl, by dsimp only; omega, fun n here => .inl (old _ n here),
        fun job member => ?_⟩
      simp only [calls, tasks, List.map_append, List.filterMap_append, List.mem_append] at member
      rcases member with here | new
      · exact .inl here
      · obtain rfl := by simpa [Job.call?] using new
        refine .inr ⟨fun context => Shape.validate_context valid, ?_, fun n here => ?_⟩
        · exact (addSlot_isOpen d spec.token).lt
        · exact ⟨old _ n here, apart.exist n (old _ n here)⟩

end Deployment

namespace World

open Deployment

variable {σ : Type} {held : List (List DeclaredOutput)} {own : List Nat}

/-- The invariant of all that goes on after `d`. -/
def GoesOnAfter (d : Deployment) (held : List (List DeclaredOutput)) (own : List Nat)
    (w : World σ) : Prop :=
  w.deployment.Owned held own ∧ GoesOn d w.deployment

theorem runTask_goesOn (engine : Engine σ) {d : Deployment} (number : Nat) (w : World σ)
    (h : GoesOnAfter d held own w) : GoesOnAfter d held own (w.runTask engine number) := by
  obtain ⟨owned, before⟩ := h
  refine ⟨(runTask_keeps engine number w owned).1, before.trans ?_⟩
  unfold runTask
  split
  · exact .refl _
  · rename_i task here
    obtain ⟨job, progress, tracked⟩ := task
    cases progress with
    | endless | finished => exact .refl _
    | underWay =>
      cases job with
      | registration job =>
        exact .of_note (runRegistration_spec engine (owned.ready here)).1 number _
      | call job => exact .of_note (runCall_spec engine job w).1 number _

/-- Waiting runs the tasks, and then none of them is tracked. -/
theorem waitForRegistrations_allots (engine : Engine σ) {w : World σ}
    (owned : w.deployment.Owned held own) :
    Allots w.deployment (w.waitForRegistrations engine).2.deployment held held := by
  obtain ⟨-, on⟩ : GoesOnAfter w.deployment held own (w.runTasks engine) :=
    runTasks_preserves (runTask_goesOn engine) w ⟨owned, .refl _⟩
  exact untrack_allots on

theorem registerOutputs_goesOn (engine : Engine σ) (key : Key) (outputs : Arguments) {w : World σ}
    (owned : w.deployment.Owned held own) :
    GoesOn w.deployment (w.registerOutputs engine key outputs).2.deployment := by
  have gains := engineFeatures_gains engine w
  unfold registerOutputs
  generalize w.engineFeatures engine = r at gains
  obtain ⟨outcome, w₁⟩ := r
  have asked : GoesOnAfter w.deployment held own w₁ := ⟨owned.gains gains, .of_gains gains⟩
  cases outcome with
  | error cause => exact asked.2
  | ok features =>
    have awaited : GoesOnAfter w.deployment held own (w₁.await engine fun w =>
        outputsRequest w.deployment features key outputs).2 :=
      await_preserves (runTask_goesOn engine) _ w₁ asked
    dsimp only
    generalize w₁.await engine _ = r at awaited
    obtain ⟨request, w₂⟩ := r
    cases request <;> exact awaited.2

/-- The root stack has no declared properties. -/
theorem beginRun_allots (w : World σ) :
    Allots w.deployment w.beginRun.2.deployment held held := by
  have registered : Allots w.deployment
      (w.deployment.register (stackSpec w.deployment.settings)).2 held held :=
    .of_nil (register_allots (stackSpec w.deployment.settings) [] held)
  unfold beginRun
  dsimp only
  split
  · exact registered
  · exact ⟨⟨registered.tracking.old, registered.tracking.new⟩, registered.grows,
      registered.allotted, registered.calls⟩

end World

namespace Ledger

open Deployment World

variable {σ : Type} {engine : Engine σ} {l l' : Ledger σ}

def CallsApart (l : Ledger σ) : Prop := l.deployment.CallsApart l.held

theorem Step.allots (owned : l.Owned) (apart : l.CallsApart) (step : Step engine l l') :
    Allots l.deployment l'.deployment l.held l'.held := by
  have still (on : GoesOn l.deployment l'.deployment) (held : l'.held = l.held) :
      Allots l.deployment l'.deployment l.held l'.held :=
    on.allots fun _ => by rw [held]; exact id
  cases step with
  | addSlot name => exact addSlot_allots name
  | complete mine outcome => exact still ⟨rfl, Graph.complete_length _ _ outcome⟩ rfl
  | drop mine => exact still ⟨rfl, List.length_modify ..⟩ rfl
  | define output => exact still ⟨rfl, congrArg List.length (Graph.define_slots output _)⟩ rfl
  | observe source => exact still ⟨rfl, congrArg List.length (Graph.observe_slots source _)⟩ rfl
  | collect =>
    exact ⟨.of_tasks rfl, Nat.le_refl _, fun n here => .inl (allotted_nil.mp here), fun _ => .inl⟩
  | declare holds name schema => exact holds ▸ declare_allots name schema
  | giveUp holds => exact (giveUp_goesOn _ _).allots fun _ => holds ▸ mem_without
  | register holds => exact holds ▸ register_allots _ _ _
  | registerProvider holds package => exact holds ▸ registerProvider_allots package _ _ _
  | call spec => exact call_allots apart spec
  | reads reads => exact still (.of_gains reads.gains) rfl
  | runTask number =>
    exact still (runTask_goesOn engine number l.world ⟨owned, .refl _⟩).2 rfl
  | answered task answer =>
    exact still (.of_note (conclude_spec (owned.ready task) answer).1 _ _) rfl
  | supportsFeature id => exact still (.of_gains (supportsFeature_gains engine id l.world)) rfl
  | registerPackage request => exact still (.refl _) rfl
  | registerOutputs key outputs => exact still (registerOutputs_goesOn engine key outputs owned) rfl
  | beginRun => exact beginRun_allots l.world
  | wait => exact waitForRegistrations_allots engine owned

theorem initial_callsApart (settings : Settings) (s : σ) : (initial settings s).CallsApart where
  exist n := by rintro (⟨declared, ⟨⟩, -⟩ | ⟨job, ⟨⟩, -⟩)
  valid job := by rintro ⟨⟩
  slot job := by rintro ⟨⟩

end Ledger

end Provision
