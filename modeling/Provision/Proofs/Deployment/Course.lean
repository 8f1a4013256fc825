import Provision.Proofs.Deployment.Completion

/-!
# The course of a deployment

A step of a program and its deployment starts a registration, or makes a handle by name, or is a
sequence of elementary changes (`Step.course`). This needs that nobody but a registration itself
completes the slot of its URN, which follows from the ownership of the slots and from one more
invariant: a registration whose task is not under way any more has outcomes in that slot and in that
of its id (`Concluded`).
-/

namespace Provision

namespace Deployment

variable {d d' : Deployment}

/-! ### Whose slots are spare -/

/-- Every registration whose task is not under way has outcomes in the slots of its URN and of its
id, also when the task is caught in a conversion. -/
def Concluded (d : Deployment) : Prop :=
  ∀ job progress tracked, ⟨.registration job, progress, tracked⟩ ∈ d.tasks →
    progress = .underWay ∨ d.HasOutcome job

/-- Tasks are added or forgotten about, and outcomes stay. -/
theorem Concluded.after (concluded : d.Concluded) (follows : Follows d d')
    (tasks : ∀ job progress tracked, ⟨.registration job, progress, tracked⟩ ∈ d'.tasks →
      progress = .underWay ∨ ∃ tracked, ⟨.registration job, progress, tracked⟩ ∈ d.tasks) :
    d'.Concluded := by
  intro job progress tracked task
  rcases tasks job progress tracked task with waiting | ⟨tracked', old⟩
  · exact .inl waiting
  · exact (concluded job progress tracked' old).imp_right fun h => h.of_resolved follows.resolved

/-- One task makes progress. -/
theorem Concluded.note (concluded : d.Concluded) (tasks : d'.tasks = d.tasks)
    (changes : Changes d d') {number : Nat} {job : Job} {tracked : Bool}
    (task : d.tasks[number]? = some ⟨job, .underWay, tracked⟩) {progress : Progress}
    (ended : ∀ r, job = .registration r → progress = .underWay ∨ d'.HasOutcome r) :
    (d'.note number progress).Concluded := by
  intro r progress' tracked' member
  obtain ⟨i, here⟩ := List.getElem?_of_mem member
  simp only [Deployment.note, tasks, List.getElem?_modify] at here
  by_cases same : number = i
  · subst same
    rw [task] at here
    simp only [if_true, Option.map_eq_map, Option.map_some, Option.some.injEq,
      Task.mk.injEq] at here
    obtain ⟨rfl, rfl, -⟩ := here
    exact (ended r rfl).imp_right fun h => h.of_resolved fun _ _ => id
  · have old : d.tasks[i]? = some ⟨.registration r, progress', tracked'⟩ := by
      simpa only [same, if_false, Option.map_eq_map, Option.map_id_fun', id_eq] using here
    exact (concluded r progress' tracked' (List.mem_of_getElem? old)).imp_right
      fun h => h.of_resolved fun _ _ => changes.resolved

variable {held : List (List DeclaredOutput)} {own : List Nat}

/-- A deployment in which every slot of a URN that is still open is its registration's own. -/
structure Sound (d : Deployment) (held : List (List DeclaredOutput)) (own : List Nat) : Prop where
  owned : d.Owned held own
  concluded : d.Concluded

namespace Sound

/-- A slot is spare if no task under way is that of a registration with this slot for its URN. -/
theorem spare (sound : Sound d held own) {n : Nat}
    (apart : ∀ job (tracked : Bool), ⟨.registration job, .underWay, tracked⟩ ∈ d.tasks →
      job.urnSlot ≠ n) : d.Spare n := by
  rintro job member rfl
  obtain ⟨progress, tracked, task⟩ := mem_registrations.mp member
  rcases sound.concluded job progress tracked task with rfl | outcome
  · exact absurd rfl (apart job tracked task)
  · exact outcome.urn

theorem spare_own (sound : Sound d held own) {n : Nat} (mine : n ∈ own) : d.Spare n := by
  refine sound.spare fun job tracked task same => ?_
  have awaits := mem_awaiting_of_task task held (n := n) (same ▸ Placed.urnSlot_mem job)
  exact (List.nodup_append.mp sound.owned.nodup).2.2 n mine n awaits rfl

/-- A slot of a task under way is awaited as that of a URN only by the task itself. -/
theorem spare_task (sound : Sound d held own) {number : Nat} {job : Job} {tracked : Bool}
    (task : d.tasks[number]? = some ⟨job, .underWay, tracked⟩) {n : Nat} (here : n ∈ job.slots)
    (notOwn : ∀ r, job = .registration r → n ≠ r.urnSlot) : d.Spare n := by
  refine sound.spare fun other tracked' member same => ?_
  obtain ⟨i, hi⟩ := List.getElem?_of_mem member
  by_cases mine : number = i
  · subst mine
    cases task.symm.trans hi
    exact notOwn other rfl same.symm
  · exact sound.owned.apart task hi mine here (same ▸ Placed.urnSlot_mem other)

theorem placed (sound : Sound d held own) {number : Nat} {job : Registration} {tracked : Bool}
    (task : d.tasks[number]? = some ⟨.registration job, .underWay, tracked⟩) : Placed job d := by
  have member := List.mem_of_getElem? task
  refine ⟨sound.owned.ready task, mem_registrations.mpr ⟨_, _, member⟩, ?_⟩
  intro n here other
  refine sound.spare_task task here ?_
  rintro r ⟨⟩
  exact other

end Sound

/-- The answer to a request ends a registration. -/
theorem answered_changes {number : Nat} {job : Registration} {tracked : Bool}
    (sound : Sound d held own)
    (task : d.tasks[number]? = some ⟨.registration job, .underWay, tracked⟩)
    (answer : Except Failure Registered) :
    Changes d (d.answered number job answer) ∧ (d.answered number job answer).Concluded := by
  have placed := sound.placed task
  obtain ⟨changes, outcome⟩ := conclude_changes placed answer
  refine ⟨changes.trans (note_changes _ _ _), ?_⟩
  refine sound.concluded.note (conclude_spec placed.ready answer).1.tasks changes task ?_
  rintro r ⟨⟩
  exact .inr outcome

theorem call_changes (spec : CallSpec) (d : Deployment) : Changes d (d.call spec).2 := by
  unfold call
  split
  · exact .refl
  · split
    · exact .refl
    · refine (addSlot_changes spec.token d).trans (Changes.of_same rfl rfl ?_)
      simp [registrations, Job.registration?]

/-- A call is no registration. -/
theorem mem_call_tasks {d : Deployment} {spec : CallSpec} {job : Registration} {progress : Progress}
    {tracked : Bool} (task : ⟨.registration job, progress, tracked⟩ ∈ (d.call spec).2.tasks) :
    ⟨.registration job, progress, tracked⟩ ∈ d.tasks := by
  unfold call at task
  split at task
  · exact task
  · split at task
    · exact task
    · rcases List.mem_append.mp task with old | new
      · exact old
      · cases List.mem_singleton.mp new

theorem declare_changes (declared : List DeclaredOutput) (name : String) (schema : Schema)
    (d : Deployment) : Changes d (d.declare declared name schema).2 := by
  unfold declare
  split
  · exact .refl
  · split
    · exact .refl
    · exact addSlot_changes name d

theorem declare_tasks (declared : List DeclaredOutput) (name : String) (schema : Schema)
    (d : Deployment) : (d.declare declared name schema).2.tasks = d.tasks := by
  unfold declare
  split
  · rfl
  · split <;> rfl

end Deployment

namespace World

open Deployment

variable {σ : Type} {held : List (List DeclaredOutput)} {own : List Nat}

/-- What running tasks after `d` keeps. -/
def Course (d : Deployment) (held : List (List DeclaredOutput)) (own : List Nat) (w : World σ) :
    Prop :=
  Sound w.deployment held own ∧ Changes d w.deployment

theorem runTask_course (engine : Engine σ) {d : Deployment} (number : Nat) (w : World σ)
    (h : Course d held own w) : Course d held own (w.runTask engine number) := by
  obtain ⟨sound, before⟩ := h
  suffices Changes w.deployment (w.runTask engine number).deployment ∧
      (w.runTask engine number).deployment.Concluded by
    obtain ⟨owned, -⟩ := runTask_keeps engine number w sound.owned
    exact ⟨⟨owned, this.2⟩, before.trans this.1⟩
  unfold runTask
  split
  · exact ⟨.refl, sound.concluded⟩
  · rename_i task here
    obtain ⟨job, progress, tracked⟩ := task
    cases progress with
    | endless | finished => exact ⟨.refl, sound.concluded⟩
    | underWay =>
      cases job with
      | registration job =>
        have placed := sound.placed here
        obtain ⟨changes, ended⟩ := runRegistration_changes engine placed
        have tasks := (runRegistration_spec engine placed.ready).1.tasks
        refine ⟨changes.trans (note_changes _ number _),
          sound.concluded.note tasks changes here ?_⟩
        rintro r ⟨⟩
        exact ended
      | call job =>
        have changes := runCall_changes engine
          (sound.spare_task here (List.mem_singleton.mpr rfl) (by rintro r ⟨⟩))
        have tasks := (runCall_spec engine job w).1.tasks
        refine ⟨changes.trans (note_changes _ number _),
          sound.concluded.note tasks changes here ?_⟩
        rintro r ⟨⟩

/-- Forgetting which registrations are tracked. -/
theorem untrack_course {d : Deployment} (sound : Sound d held own) :
    Sound { d with tasks := d.tasks.map fun t => { t with tracked := false } } held own ∧
      Changes d { d with tasks := d.tasks.map fun t => { t with tracked := false } } := by
  obtain ⟨owned, follows⟩ := untrack_keeps sound.owned
  refine ⟨⟨owned, sound.concluded.after follows ?_⟩, Changes.of_same rfl rfl ?_⟩
  · intro job progress tracked task
    obtain ⟨⟨job', progress', tracked'⟩, member, same⟩ := List.mem_map.mp task
    cases same
    exact .inr ⟨tracked', member⟩
  · simp only [registrations, List.map_map, Function.comp_def]

theorem waitForRegistrations_course (engine : Engine σ) {w : World σ}
    (sound : Sound w.deployment held own) :
    Course w.deployment held own (w.waitForRegistrations engine).2 := by
  obtain ⟨sound₁, changes⟩ : Course w.deployment held own (w.runTasks engine) :=
    runTasks_preserves (runTask_course engine) w ⟨sound, .refl⟩
  obtain ⟨sound₂, changes'⟩ := untrack_course sound₁
  exact ⟨sound₂, changes.trans changes'⟩

theorem registerOutputs_course (engine : Engine σ) (key : Key) (outputs : Arguments) {w : World σ}
    (sound : Sound w.deployment held own) :
    Course w.deployment held own (w.registerOutputs engine key outputs).2 := by
  have asked := engineFeatures_changes engine w
  have gains := engineFeatures_gains engine w
  unfold registerOutputs
  generalize w.engineFeatures engine = r at asked gains
  obtain ⟨outcome, w₁⟩ := r
  have sound₁ : Sound w₁.deployment held own := by
    refine ⟨sound.owned.gains gains, sound.concluded.after (.of_gains gains) ?_⟩
    intro job progress tracked task
    rw [gains.tasks] at task
    exact .inr ⟨tracked, task⟩
  cases outcome with
  | error cause => exact ⟨sound₁, asked⟩
  | ok features =>
    have awaited : Course w.deployment held own (w₁.await engine fun w =>
        outputsRequest w.deployment features key outputs).2 :=
      await_preserves (runTask_course engine) _ w₁ ⟨sound₁, asked⟩
    dsimp only
    generalize w₁.await engine _ = r at awaited
    obtain ⟨request, w₂⟩ := r
    cases request <;> exact awaited

end World

namespace Ledger

open Deployment World

variable {σ : Type} {engine : Engine σ} {l l' : Ledger σ}

def Sound (l : Ledger σ) : Prop := l.deployment.Sound l.held l.own

/-- What one step does: it starts a registration, or makes a handle by name, or is a sequence of
elementary changes. -/
inductive Courses (l l' : Ledger σ) : Prop where
  | accepts {spec : ResourceSpec} {key : Key} (accepted : Accepts l spec key l')
  | names {urn : String} (named : l' = l.edit fun d => (d.dependencyResource urn).2)
  | changes (changes : Changes l.deployment l'.deployment)

/-- The task that a registration starts is under way. -/
theorem Accepts.concluded {spec : ResourceSpec} {key : Key} (accepts : Accepts l spec key l')
    (follows : Follows l.deployment l'.deployment) (concluded : l.deployment.Concluded) :
    l'.deployment.Concluded := by
  obtain ⟨job, d', starts, -, tasks, -⟩ := accepts.starts
  refine concluded.after follows fun other progress tracked task => ?_
  rw [tasks, starts.tasks] at task
  rcases List.mem_append.mp task with old | new
  · exact .inr ⟨tracked, old⟩
  · cases List.mem_singleton.mp new
    exact .inl rfl

/-- A registration that is refused gives up the slots of its outputs. -/
theorem register_refused {spec : ResourceSpec} {d : Deployment} {cause : Failure}
    (refused : (d.register spec).1.outcome = .error cause) :
    (d.register spec).2 = d.giveUp spec.outputs := by
  unfold Deployment.register at refused ⊢
  split
  · rfl
  · rename_i prepared
    rw [prepared] at refused
    cases refused

theorem registerProvider_refused {spec : ResourceSpec} {package : String} {d : Deployment}
    {cause : Failure} (refused : (d.registerProvider package spec).1.outcome = .error cause) :
    (d.registerProvider package spec).2 = d.giveUp spec.outputs := by
  unfold Deployment.registerProvider at refused ⊢
  split
  · rfl
  · rename_i named
    rw [if_neg named] at refused
    exact register_refused refused

/-- A root stack has no outputs to give up. -/
theorem beginRun_refused {w : World σ} {cause : Failure} (refused : w.beginRun.1 = .error cause) :
    w.beginRun.2 = w := by
  unfold beginRun at refused ⊢
  dsimp only at refused ⊢
  split
  · rename_i found
    rw [register_refused found]
    rfl
  · rename_i started
    rw [started] at refused
    cases refused

theorem Step.course (sound : l.Sound) (step : Step engine l l') : l'.Sound ∧ Courses l l' := by
  obtain ⟨owned, follows⟩ := step.keeps sound.owned
  -- Most steps leave the tasks as they are.
  have still (tasks : l'.deployment.tasks = l.deployment.tasks) : l'.Sound := by
    refine ⟨owned, sound.concluded.after follows fun job progress tracked task => ?_⟩
    rw [tasks] at task
    exact .inr ⟨tracked, task⟩
  have quiet (tasks : l'.deployment.tasks = l.deployment.tasks)
      (changes : Changes l.deployment l'.deployment) : l'.Sound ∧ Courses l l' :=
    ⟨still tasks, .changes changes⟩
  have gaveUp {declared : List DeclaredOutput}
      (refused : l'.deployment = l.deployment.giveUp declared) : l'.Sound ∧ Courses l l' := by
    refine ⟨still (by rw [refused]; rfl), .changes ?_⟩
    rw [refused]
    exact giveUp_changes declared l.deployment
  have accepts {spec : ResourceSpec} {key : Key} (accepted : Accepts l spec key l') :
      l'.Sound ∧ Courses l l' :=
    ⟨⟨owned, accepted.concluded follows sound.concluded⟩, .accepts accepted⟩
  cases step with
  | addSlot name => exact quiet rfl (addSlot_changes name _)
  | complete mine outcome =>
    exact quiet rfl (complete_changes _ _ _ (.inl (sound.spare_own mine)))
  | drop mine => exact quiet rfl (drop_changes _ _)
  | define output => exact quiet rfl (slots_changes (Graph.define_slots output l.graph))
  | observe source => exact quiet rfl (slots_changes (Graph.observe_slots source l.graph))
  | collect => exact quiet rfl .refl
  | declare holds name schema =>
    exact quiet (declare_tasks _ name schema _) (declare_changes _ name schema _)
  | giveUp holds => exact quiet rfl (giveUp_changes _ _)
  | @register before after spec holds =>
    cases outcome : (l.deployment.register spec).1.outcome with
    | ok key => exact accepts (.register holds outcome)
    | error cause => exact gaveUp (register_refused outcome)
  | @registerProvider before after spec holds package =>
    cases outcome : (l.deployment.registerProvider package spec).1.outcome with
    | ok key => exact accepts (.registerProvider holds package outcome)
    | error cause => exact gaveUp (registerProvider_refused outcome)
  | call spec =>
    refine ⟨⟨owned, sound.concluded.after follows fun job progress tracked task => ?_⟩,
      .changes (call_changes spec _)⟩
    exact .inr ⟨tracked, mem_call_tasks task⟩
  | reads reads =>
    cases reads with
    | dependencyResource urn => exact ⟨still rfl, .names rfl⟩
    | referenceResource reference =>
      exact quiet (referenceResource_gains reference _).tasks
        (referenceResource_changes reference _)
    | resourceForUrn urn =>
      exact quiet (resourceForUrn_gains urn _).tasks (resourceForUrn_changes urn _)
    | convert schema context dependencies value =>
      exact quiet (convert_gains schema context dependencies value _).tasks
        (convert_changes schema context dependencies value _)
    | warn messages => exact quiet rfl (warn_changes messages _)
  | runTask number =>
    obtain ⟨sound', changes⟩ := runTask_course engine number l.world ⟨sound, .refl⟩
    exact ⟨sound', .changes changes⟩
  | answered task answer =>
    obtain ⟨changes, concluded⟩ := answered_changes sound task answer
    exact ⟨⟨owned, concluded⟩, .changes changes⟩
  | supportsFeature id =>
    exact quiet (supportsFeature_gains engine id l.world).tasks
      (supportsFeature_changes engine id l.world)
  | registerPackage request => exact quiet rfl .refl
  | registerOutputs key outputs =>
    obtain ⟨sound', changes⟩ := registerOutputs_course engine key outputs sound
    exact ⟨sound', .changes changes⟩
  | beginRun =>
    cases outcome : l.world.beginRun.1 with
    | ok key => exact accepts (.beginRun outcome)
    | error cause =>
      have refused := beginRun_refused outcome
      exact quiet (by rw [refused]) (by rw [refused])
  | wait =>
    obtain ⟨sound', changes⟩ := waitForRegistrations_course engine sound
    exact ⟨sound', .changes changes⟩

theorem initial_sound (settings : Settings) (s : σ) : (initial settings s).Sound :=
  ⟨initial_owned settings s, by rintro job progress tracked ⟨⟩⟩

theorem History.sound (history : History engine l l') (sound : l.Sound) : l'.Sound :=
  history.induct (fun _ _ sound step => (step.course sound).1) sound

theorem Reachable.sound (reachable : Reachable engine l) : l.Sound := by
  obtain ⟨settings, s, history⟩ := reachable
  exact history.sound (initial_sound settings s)

end Ledger

end Provision
