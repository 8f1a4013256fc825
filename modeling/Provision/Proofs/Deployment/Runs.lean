import Provision.Proofs.Deployment.Steps

/-!
# What every run keeps

Running tasks in rounds is running single tasks one after the other, so it keeps what a single
task keeps (`runTasks_preserves`). Together with the steps of the program this makes the
ownership of the slots an invariant of every reachable ledger (`Reachable.owned`).
-/

namespace Provision

namespace World

open Deployment

variable {σ : Type}

theorem runRound_preserves {engine : Engine σ} {P : World σ → Prop}
    (keeps : ∀ number w, P w → P (w.runTask engine number)) (w : World σ) (h : P w) :
    P (w.runRound engine) := by
  unfold runRound
  generalize List.range w.deployment.tasks.length = numbers
  induction numbers generalizing w with
  | nil => exact h
  | cons number rest ih => exact ih (w.runTask engine number) (keeps number w h)

theorem runRounds_preserves {engine : Engine σ} {P : World σ → Prop}
    (keeps : ∀ number w, P w → P (w.runTask engine number)) (fuel : Nat) (w : World σ) (h : P w) :
    P (w.runRounds engine fuel) := by
  induction fuel generalizing w with
  | zero => exact h
  | succ fuel ih =>
    have next := runRound_preserves keeps w h
    unfold runRounds
    dsimp only
    split
    · exact ih _ next
    · exact next

/-- What every task keeps, running all of them keeps. -/
theorem runTasks_preserves {engine : Engine σ} {P : World σ → Prop}
    (keeps : ∀ number w, P w → P (w.runTask engine number)) (w : World σ) (h : P w) :
    P (w.runTasks engine) :=
  runRounds_preserves keeps _ w h

theorem await_preserves {α : Type} {engine : Engine σ} {P : World σ → Prop}
    (keeps : ∀ number w, P w → P (w.runTask engine number)) (attempt : World σ → Await α)
    (w : World σ) (h : P w) : P (w.await engine attempt).2 := by
  unfold await
  split
  · exact runTasks_preserves keeps w h
  · exact h

variable {held : List (List DeclaredOutput)} {own : List Nat}

/-- A task that is not under way stays as it is, and one that is writes its own slots. -/
theorem runTask_keeps (engine : Engine σ) (number : Nat) (w : World σ) :
    Keeps w.deployment (w.runTask engine number).deployment held held own own := by
  intro owned
  unfold runTask
  split
  · exact ⟨owned, .refl _⟩
  · rename_i task here
    obtain ⟨job, progress, tracked⟩ := task
    cases progress with
    | endless | finished => exact ⟨owned, .refl _⟩
    | underWay =>
      cases job with
      | registration job =>
        obtain ⟨completes, settlement⟩ := runRegistration_spec engine (owned.ready here)
        refine ⟨owned.goOn here completes ?_ ?_, .of_note here completes _⟩
        · intro waits
          rwa [waits] at settlement
        · rintro r ⟨⟩
          exact settlement
      | call job =>
        obtain ⟨completes, waits⟩ := runCall_spec engine job w
        refine ⟨owned.goOn here completes ?_ (by rintro r ⟨⟩), .of_note here completes _⟩
        intro waiting n hn
        rw [waits waiting]
        exact owned.isOpen n (mem_awaiting_of_task (List.mem_of_getElem? here) held hn)

def After (d : Deployment) (held : List (List DeclaredOutput)) (own : List Nat) (w : World σ) :
    Prop :=
  w.deployment.Owned held own ∧ Follows d w.deployment

theorem runTask_after (engine : Engine σ) {d : Deployment} (number : Nat) (w : World σ)
    (h : After d held own w) : After d held own (w.runTask engine number) := by
  obtain ⟨owned, follows⟩ := runTask_keeps engine number w h.1
  exact ⟨owned, h.2.trans follows⟩

/-- Forgetting which registrations are tracked. -/
theorem untrack_keeps {d : Deployment} :
    Keeps d { d with tasks := d.tasks.map fun t => { t with tracked := false } } held held own own := by
  intro owned
  have same : (d.tasks.map fun t => { t with tracked := false }).flatMap Task.openSlots =
      d.tasks.flatMap Task.openSlots := by
    rw [List.flatMap_map]
    rfl
  have awaits : awaiting { d with tasks := d.tasks.map fun t => { t with tracked := false } } held =
      d.awaiting held := by
    simp only [awaiting, same]
  refine ⟨⟨awaits ▸ owned.nodup, owned.exist, awaits ▸ owned.isOpen, owned.valid, ?_⟩,
    ⟨fun _ _ h => h, fun _ _ h => h, ?_⟩⟩
  · intro job progress tracked task
    obtain ⟨⟨job', progress', tracked'⟩, member, same⟩ := List.mem_map.mp task
    cases same
    obtain ⟨accepted, settlement⟩ := owned.settled job progress' tracked' member
    exact ⟨accepted.after fun _ _ h => h, settlement.after (.refl [] _) (by simp)⟩
  · intro number task here
    exact ⟨task.progress, false, by simp [here], .inr rfl⟩

theorem waitForRegistrations_keeps (engine : Engine σ) (w : World σ) :
    Keeps w.deployment (w.waitForRegistrations engine).2.deployment held held own own := by
  intro owned
  obtain ⟨owned', follows⟩ : After w.deployment held own (w.runTasks engine) :=
    runTasks_preserves (runTask_after engine) w ⟨owned, .refl _⟩
  obtain ⟨last, follows'⟩ := untrack_keeps owned'
  exact ⟨last, follows.trans follows'⟩

theorem registerOutputs_keeps (engine : Engine σ) (key : Key) (outputs : Arguments) (w : World σ) :
    Keeps w.deployment (w.registerOutputs engine key outputs).2.deployment held held own own := by
  intro owned
  have asked := Keeps.of_gains (engineFeatures_gains engine w) owned
  unfold registerOutputs
  generalize w.engineFeatures engine = r at asked
  obtain ⟨outcome, w₁⟩ := r
  cases outcome with
  | error cause => exact asked
  | ok features =>
    have awaited : After w.deployment held own (w₁.await engine fun w =>
        outputsRequest w.deployment features key outputs).2 :=
      await_preserves (runTask_after engine) _ w₁ asked
    dsimp only
    generalize w₁.await engine _ = r at awaited
    obtain ⟨request, w₂⟩ := r
    cases request <;> exact awaited

theorem beginRun_keeps (w : World σ) :
    Keeps w.deployment w.beginRun.2.deployment held held own own := by
  intro owned
  have registered := register_keeps (stackSpec w.deployment.settings)
    (owned.collect [])
  unfold beginRun
  dsimp only
  split
  · exact registered
  · rename_i key _
    have rooted : Gains (w.deployment.register (stackSpec w.deployment.settings)).2
        { (w.deployment.register (stackSpec w.deployment.settings)).2 with root := some key } :=
      ⟨rfl, rfl, fun _ _ h => h⟩
    obtain ⟨owned', follows⟩ := Keeps.of_gains rooted registered.1
    exact ⟨owned', registered.2.trans follows⟩

end World

namespace Ledger

open Deployment World

variable {σ : Type} {engine : Engine σ} {l l' : Ledger σ}

def Owned (l : Ledger σ) : Prop := l.deployment.Owned l.held l.own

/-- The answer to a request ends a registration, whenever it arrives. -/
theorem answered_keeps {d : Deployment} {held : List (List DeclaredOutput)} {own : List Nat}
    {number : Nat} {job : Registration} {tracked : Bool}
    (task : d.tasks[number]? = some ⟨.registration job, .underWay, tracked⟩)
    (answer : Except Failure Registered) :
    Keeps d (d.answered number job answer) held held own own := by
  intro owned
  obtain ⟨completes, settlement⟩ := conclude_spec (owned.ready task) answer
  refine ⟨owned.goOn task completes ?_ ?_, .of_note task completes _⟩
  · intro waits
    rwa [waits] at settlement
  · rintro r ⟨⟩
    exact settlement

theorem Step.keeps (step : Step engine l l') :
    Keeps l.deployment l'.deployment l.held l'.held l.own l'.own := by
  cases step with
  | addSlot name => exact addSlot_keeps name
  | complete mine outcome => exact own_keeps mine (Graph.complete_writes _ _ outcome)
  | drop mine => exact own_keeps mine (Graph.drop_writes _ _)
  | define output => exact slots_keeps (Graph.define_slots output _)
  | observe source => exact slots_keeps (Graph.observe_slots source _)
  | collect => exact fun owned => ⟨Owned.collect [] owned, .refl _⟩
  | declare holds name schema => exact holds ▸ declare_keeps name schema
  | giveUp holds => exact holds ▸ giveUp_keeps
  | register holds => exact holds ▸ register_keeps _
  | registerProvider holds package => exact holds ▸ registerProvider_keeps package
  | call spec => exact call_keeps spec
  | reads reads => exact .of_gains reads.gains
  | runTask number => exact runTask_keeps engine number l.world
  | answered task answer => exact answered_keeps task answer
  | supportsFeature id => exact .of_gains (supportsFeature_gains engine id l.world)
  | registerPackage request => exact fun owned => ⟨owned, .refl _⟩
  | registerOutputs key outputs => exact registerOutputs_keeps engine key outputs l.world
  | beginRun => exact beginRun_keeps l.world
  | wait => exact waitForRegistrations_keeps engine l.world

/-- Whatever happened before stays, and ownership with it. -/
theorem History.keeps (history : History engine l l') (owned : l.Owned) :
    l'.Owned ∧ Follows l.deployment l'.deployment := by
  refine history.induct (P := fun l' => l'.Owned ∧ Follows l.deployment l'.deployment) ?_
    ⟨owned, .refl _⟩
  rintro l₁ l₂ ⟨owned₁, follows₁⟩ next
  obtain ⟨owned₂, follows₂⟩ := next.keeps owned₁
  exact ⟨owned₂, follows₁.trans follows₂⟩

theorem initial_owned (settings : Settings) (s : σ) : (initial settings s).Owned where
  nodup := List.nodup_nil
  exist := by rintro n ⟨⟩
  isOpen := by rintro n ⟨⟩
  valid := by rintro declared ⟨⟩
  settled := by rintro job progress tracked ⟨⟩

/-- Ownership is an invariant. -/
theorem Reachable.owned (reachable : Reachable engine l) : l.Owned := by
  obtain ⟨settings, s, history⟩ := reachable
  exact (history.keeps (initial_owned settings s)).1

end Ledger

end Provision
