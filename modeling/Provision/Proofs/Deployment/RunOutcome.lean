import Provision.Proofs.Deployment.Calls

/-!
# What a run vouches for

A run ends with a wait for the registrations that are tracked by then. Every registration is tracked
when it is started, and a wait of the program's own takes those that are tracked at the moment
(`Acts`). So a run that succeeds vouches for the registrations that no wait of the program has taken
(`run_succeeds_iff`). The others may have failed: the program hears of it from its own wait, and may
go on as if it had not (`run_succeeds_despite_failure`).
-/

namespace Provision

theorem firstFailure_eq_ok {first second : Except Failure Unit} :
    Deployment.firstFailure first second = .ok () ↔ first = .ok () ∧ second = .ok () := by
  cases first with
  | error cause => simp [Deployment.firstFailure]
  | ok done => simp [Deployment.firstFailure]

theorem Progress.outcome?_eq_some {progress : Progress} {outcome : Except Failure Unit} :
    progress.outcome? = some outcome ↔ progress = .finished outcome := by
  cases progress <;> simp [outcome?]

namespace Deployment

/-- The outcome of the task is still to be asked for. -/
def tracks (d : Deployment) (number : Nat) : Bool := d.tasks[number]?.any Task.tracked

/-- The tasks that are not tracked any more. -/
def taken (before after : Deployment) : List Nat :=
  (List.range before.tasks.length).filter fun n => before.tracks n && !after.tracks n

/-- The registrations that a run has to answer for: those that are started in it, and those that
were still tracked when it began. -/
def Awaited (before after : Deployment) (number : Nat) : Prop :=
  after.tasks[number]?.any (fun task => task.job.registration?.isSome) = true ∧
    before.tasks[number]?.all Task.tracked = true

def Succeeded (d : Deployment) (number : Nat) : Prop :=
  (d.tasks[number]?.bind fun task => task.progress.outcome?) = some (.ok ())

instance (before after : Deployment) (number : Nat) : Decidable (Awaited before after number) :=
  inferInstanceAs (Decidable (_ ∧ _))

instance (d : Deployment) (number : Nat) : Decidable (d.Succeeded number) :=
  inferInstanceAs (Decidable (_ = _))

variable {d d' before after : Deployment} {gone : List Nat} {n : Nat}

theorem tracks_iff : d.tracks n = true ↔ ∃ task, d.tasks[n]? = some task ∧ task.tracked = true := by
  unfold tracks
  cases d.tasks[n]? <;> simp

theorem lt_of_tracks (tracked : d.tracks n = true) : n < d.tasks.length := by
  obtain ⟨task, here, -⟩ := tracks_iff.mp tracked
  exact (List.getElem?_eq_some_iff.mp here).1

theorem mem_taken : n ∈ taken before after ↔ before.tracks n = true ∧ after.tracks n = false := by
  simp only [taken, List.mem_filter, List.mem_range, Bool.and_eq_true, Bool.not_eq_true']
  exact ⟨And.right, fun h => ⟨lt_of_tracks h.1, h⟩⟩

theorem taken_eq_nil (kept : ∀ n, before.tracks n = true → after.tracks n = true) :
    taken before after = [] := by
  refine List.eq_nil_iff_forall_not_mem.mpr fun n member => ?_
  obtain ⟨tracked, lost⟩ := mem_taken.mp member
  rw [kept n tracked] at lost
  cases lost

theorem tracks_of_standing (standing : d'.tasks.map Task.standing = d.tasks.map Task.standing)
    (n : Nat) : d'.tracks n = d.tracks n := by
  have tracked (o : Option Task) : o.any Task.tracked = (o.map Task.standing).any Prod.snd := by
    cases o <;> rfl
  unfold tracks
  rw [tracked, tracked, getElem?_map_congr standing]

theorem awaited_of_jobs (jobs : d'.tasks.map Task.job = d.tasks.map Task.job) :
    Awaited before d' n ↔ Awaited before d n := by
  have registered (o : Option Task) : o.any (fun task => task.job.registration?.isSome) =
      (o.map Task.job).any fun job => job.registration?.isSome := by
    cases o <;> rfl
  unfold Awaited
  rw [registered, registered, getElem?_map_congr jobs]

/-- Exactly those registrations are tracked that are awaited and that nothing has taken. -/
structure Remains (before d : Deployment) (gone : List Nat) : Prop where
  grows : before.tasks.length ≤ d.tasks.length
  exist : ∀ n ∈ gone, n < d.tasks.length
  tracks : ∀ n, d.tracks n = true ↔ Awaited before d n ∧ n ∉ gone

theorem Remains.of_standing (remains : Remains before d gone)
    (standing : d'.tasks.map Task.standing = d.tasks.map Task.standing) :
    Remains before d' gone := by
  have length : d'.tasks.length = d.tasks.length := by simpa using congrArg List.length standing
  have jobs : d'.tasks.map Task.job = d.tasks.map Task.job := by
    rw [map_job, map_job, standing]
  refine ⟨length ▸ remains.grows, length ▸ remains.exist, fun n => ?_⟩
  rw [tracks_of_standing standing, remains.tracks, awaited_of_jobs jobs]

theorem Tracking.grows (tracking : Tracking before after) :
    before.tasks.length ≤ after.tasks.length := by
  refine Nat.le_of_not_lt fun less => ?_
  obtain ⟨task, here, -⟩ := tracking.old _ _ (List.getElem?_eq_getElem less)
  rw [List.getElem?_eq_none (Nat.le_refl _)] at here
  cases here

/-- What is not tracked any more has been taken, and what is new is tracked if it is a
registration. -/
theorem Remains.next (remains : Remains before d gone) (tracking : Tracking d d') :
    Remains before d' (gone ++ taken d d') where
  grows := Nat.le_trans remains.grows tracking.grows
  exist n member := by
    refine Nat.lt_of_lt_of_le ?_ tracking.grows
    rcases List.mem_append.mp member with old | new
    · exact remains.exist n old
    · exact lt_of_tracks (mem_taken.mp new).1
  tracks n := by
    rw [List.mem_append, mem_taken, not_or]
    cases here : d.tasks[n]? with
    | some task =>
      obtain ⟨task', here', job, fewer⟩ := tracking.old n task here
      have awaited : Awaited before d' n ↔ Awaited before d n := by
        unfold Awaited
        rw [here, here', Option.any_some, Option.any_some, job]
      have still : d'.tracks n = true → d.tracks n = true := by
        simpa [Deployment.tracks, here, here'] using fewer
      rw [awaited, ← and_assoc, ← remains.tracks n, not_and, Bool.not_eq_false]
      exact ⟨fun now => ⟨still now, fun _ => now⟩, fun ⟨tracked, kept⟩ => kept tracked⟩
    | none =>
      have beyond := List.getElem?_eq_none_iff.mp here
      have untaken : n ∉ gone := fun member => absurd (remains.exist n member) (by omega)
      have untracked : ¬ d.tracks n = true := fun tracked =>
        absurd (lt_of_tracks tracked) (by omega)
      have unknown : before.tasks[n]? = none :=
        List.getElem?_eq_none (Nat.le_trans remains.grows beyond)
      simp only [untaken, untracked, unknown, Awaited, Option.all_none, and_true,
        not_false_eq_true]
      cases here' : d'.tasks[n]? with
      | none => simp [Deployment.tracks, here']
      | some task => simp [Deployment.tracks, here', tracking.new n task here here']

theorem register_tracks (spec : ResourceSpec) (tracked : d.tracks n = true) :
    (d.register spec).2.tracks n = true := by
  have longer : ∃ added, (d.register spec).2.tasks = d.tasks ++ added := by
    cases outcome : (d.register spec).1.outcome with
    | error cause =>
      rw [Ledger.register_refused outcome]
      exact ⟨[], (List.append_nil _).symm⟩
    | ok key =>
      obtain ⟨job, d', starts, -, same⟩ := register_accepted outcome
      rw [same]
      exact ⟨_, congrArg (· ++ [⟨.registration job, .underWay, true⟩]) starts.tasks⟩
  obtain ⟨added, tasks⟩ := longer
  unfold tracks
  rwa [tasks, List.getElem?_append_left (lt_of_tracks tracked)]

end Deployment

namespace World

open Deployment

variable {σ : Type} {engine : Engine σ}

/-- A wait reports success if every registration that is tracked has ended with success. -/
theorem report_eq_ok {tasks : List Task} :
    report tasks = some (.ok ()) ↔
      ∀ task ∈ tasks, task.tracked = true → task.progress = .finished (.ok ()) := by
  suffices ∀ (list : List Task) (start : Except Failure Unit),
      ((list.mapM fun (task : Task) => task.progress.outcome?).map fun outcomes =>
        outcomes.foldl firstFailure start) = some (.ok ()) ↔
      start = .ok () ∧ ∀ task ∈ list, task.progress = .finished (.ok ()) by
    unfold report
    rw [this]
    simp
  intro list
  induction list with
  | nil => intro start; simp
  | cons task rest ih =>
    intro start
    cases outcome : task.progress.outcome? with
    | none =>
      have open' : task.progress ≠ .finished (.ok ()) := fun done => by
        rw [done] at outcome
        cases outcome
      simp [List.mapM_cons, outcome, open']
    | some result =>
      have done := Progress.outcome?_eq_some.mp outcome
      have further := ih (firstFailure start result)
      rw [firstFailure_eq_ok] at further
      simp only [List.mapM_cons, List.mem_cons, forall_eq_or_imp, done, Progress.finished.injEq]
      rw [← and_assoc, ← further]
      cases rest.mapM fun (task : Task) => task.progress.outcome? <;> rfl

variable {held : List (List DeclaredOutput)} {own : List Nat}

/-- A wait reports success if every registration that was tracked ends with success. -/
theorem waitForRegistrations_eq_ok {w : World σ} (owned : w.deployment.Owned held own) :
    (w.waitForRegistrations engine).1 = some (.ok ()) ↔
      ∀ n, w.deployment.tracks n = true →
        (w.waitForRegistrations engine).2.deployment.Succeeded n := by
  obtain ⟨-, on⟩ : GoesOnAfter w.deployment held own (w.runTasks engine) :=
    runTasks_preserves (runTask_goesOn engine) w ⟨owned, .refl _⟩
  have ended (n : Nat) : (w.waitForRegistrations engine).2.deployment.Succeeded n ↔
      (w.runTasks engine).deployment.Succeeded n := by
    unfold waitForRegistrations Succeeded
    dsimp only
    rw [List.getElem?_map, Option.bind_map]
    rfl
  simp only [ended, ← tracks_of_standing on.standing]
  unfold waitForRegistrations
  refine report_eq_ok.trans ⟨fun all n tracked => ?_, fun all task member tracked => ?_⟩
  · obtain ⟨task, here, tracked⟩ := tracks_iff.mp tracked
    simp [Succeeded, here, all task (List.mem_of_getElem? here) tracked, Progress.outcome?]
  · obtain ⟨n, here⟩ := List.getElem?_of_mem member
    refine Progress.outcome?_eq_some.mp ?_
    simpa [Succeeded, here] using all n (tracks_iff.mpr ⟨task, here, tracked⟩)

/-- A wait vouches for what remains. -/
theorem waitForRegistrations_vouches (engine : Engine σ) {w : World σ} {before : Deployment}
    {gone : List Nat} (remains : Remains before w.deployment gone)
    (owned : w.deployment.Owned held own) :
    (w.waitForRegistrations engine).1 = some (.ok ()) ↔
      ∀ n ∉ gone, Awaited before (w.waitForRegistrations engine).2.deployment n →
        (w.waitForRegistrations engine).2.deployment.Succeeded n := by
  obtain ⟨-, on⟩ : GoesOnAfter w.deployment held own (w.runTasks engine) :=
    runTasks_preserves (runTask_goesOn engine) w ⟨owned, .refl _⟩
  have jobs : (w.waitForRegistrations engine).2.deployment.tasks.map Task.job =
      w.deployment.tasks.map Task.job := (untrack_jobs _).trans on.jobs
  rw [waitForRegistrations_eq_ok owned]
  refine forall_congr' fun n => ?_
  rw [remains.tracks n, awaited_of_jobs jobs]
  exact ⟨fun all untaken awaited => all ⟨awaited, untaken⟩,
    fun all ⟨awaited, untaken⟩ => all untaken awaited⟩

/-- The end of a run vouches for what remains: registering outputs starts nothing, so the wait finds
what the program has left. -/
theorem endRun_vouches (engine : Engine σ) (stack : Key) (result : Except Failure Arguments)
    {w : World σ} {before : Deployment} {gone : List Nat}
    (remains : Remains before w.deployment gone) (owned : w.deployment.Owned held own) :
    (w.endRun engine stack result).1 = some (.ok ()) ↔
      (∃ values, result = .ok values ∧
        (w.registerOutputs engine stack values).1 = some (.ok ())) ∧
      ∀ n ∉ gone, Awaited before (w.endRun engine stack result).2.deployment n →
        (w.endRun engine stack result).2.deployment.Succeeded n := by
  unfold endRun
  cases result with
  | error cause =>
    dsimp only
    cases (w.waitForRegistrations engine).1 <;> simp [firstFailure]
  | ok values =>
    have on := registerOutputs_goesOn engine stack values owned
    have owned' := (registerOutputs_keeps engine stack values w owned).1
    have settled := waitForRegistrations_vouches engine (remains.of_standing on.standing) owned'
    dsimp only
    simp only [Except.ok.injEq, exists_eq_left']
    generalize w.registerOutputs engine stack values = r at settled
    obtain ⟨outputs, w₁⟩ := r
    cases outputs with
    | none => simp
    | some outputs =>
      dsimp only at settled ⊢
      rw [← settled]
      simp [Option.map_eq_some_iff, firstFailure_eq_ok, and_comm]

theorem beginRun_tracks (w : World σ) {n : Nat} (tracked : w.deployment.tracks n = true) :
    w.beginRun.2.deployment.tracks n = true := by
  have registered := register_tracks (stackSpec w.deployment.settings) tracked
  unfold beginRun
  dsimp only
  split <;> exact registered

end World

namespace Ledger

open Deployment World

variable {σ : Type} {engine : Engine σ} {l l' : Ledger σ} {gone : List Nat}

/-- What a program does from one ledger to another, and the registrations that are not tracked any
more because a wait of its own has taken them. -/
inductive Acts (engine : Engine σ) (l : Ledger σ) : List Nat → Ledger σ → Prop where
  | start : Acts engine l [] l
  | move {gone : List Nat} {l₁ l₂ : Ledger σ} (acts : Acts engine l gone l₁)
      (move : Move engine l₁ l₂) :
      Acts engine l (gone ++ taken l₁.deployment l₂.deployment) l₂

theorem Acts.remains (acts : Acts engine l gone l') (regular : l.Regular) {before : Deployment}
    (remains : Remains before l.deployment []) :
    l'.Regular ∧ Remains before l'.deployment gone := by
  induction acts with
  | start => exact ⟨regular, remains⟩
  | move _ move ih =>
    obtain ⟨regular₁, remains₁⟩ := ih
    exact ⟨move.regular regular₁, remains₁.next (move.allots regular₁).tracking⟩

/-- A registration takes nothing. -/
theorem Acts.registering (acts : Acts engine l gone l') {spec : ResourceSpec}
    (undeclared : spec.outputs = []) : Acts engine l gone (l'.registering spec) := by
  have collected := acts.move (.step (.collect l'))
  have holds : [] :: l'.held = [] ++ spec.outputs :: l'.held := by
    rw [undeclared]
    rfl
  have registered := collected.move
    (.step (@Step.register _ _ { l' with held := [] :: l'.held } [] l'.held spec holds))
  have none : taken l'.deployment (l'.registering spec).deployment = [] :=
    taken_eq_nil fun _ => register_tracks spec
  rw [taken_eq_nil fun _ => id, List.append_nil] at registered
  exact (congrArg (gone ++ ·) none).trans (List.append_nil _) ▸ registered

/-- Only registrations are tracked. -/
theorem Reached.remains (reached : Reached engine l) :
    Remains l.deployment l.deployment [] := by
  suffices ∀ (n : Nat) (task : Task), l.deployment.tasks[n]? = some task → task.tracked = true →
      task.job.registration?.isSome = true by
    refine ⟨Nat.le_refl _, by simp, fun n => ?_⟩
    unfold Awaited Deployment.tracks
    cases here : l.deployment.tasks[n]? with
    | none => simp
    | some task => simpa using this n task here
  obtain ⟨settings, s, moves⟩ := reached
  induction moves with
  | refl => rintro n task ⟨⟩
  | tail before move ih =>
    rename_i l₁ l₂
    have reached₁ : Reached engine l₁ := ⟨settings, s, before⟩
    have tracking := (move.allots reached₁.regular).tracking
    intro n task here tracked
    cases old : l₁.deployment.tasks[n]? with
    | none => rw [← tracking.new n task old here, tracked]
    | some task₁ =>
      obtain ⟨task', here', job, fewer⟩ := tracking.old n task₁ old
      cases here.symm.trans here'
      rw [job]
      exact ih n task₁ old (fewer tracked)

/-- A run succeeds exactly if its program does, the outputs of the stack are registered, and every
registration succeeds that was started in the run, or was still tracked when it began, and that no
wait of the program has taken. -/
theorem run_succeeds_iff {τ : Type}
    {program : Key → World σ → τ → Option (Except Failure Arguments) × World σ × τ} {t t' : τ}
    {result : Option (Except Failure Arguments)} (reached : Reached engine l)
    (acts : Acts engine { l with world := l.world.beginRun.2 } gone l')
    (runs : ∀ stack, l.world.beginRun.1 = .ok stack →
      program stack l.world.beginRun.2 t = (result, l'.world, t')) :
    (World.run engine program l.world t).1 = some (.ok ()) ↔
      (∃ stack values, l.world.beginRun.1 = .ok stack ∧ result = some (.ok values) ∧
        (l'.world.registerOutputs engine stack values).1 = some (.ok ())) ∧
      ∀ number ∉ gone,
        Awaited l.deployment (World.run engine program l.world t).2.1.deployment number →
          (World.run engine program l.world t).2.1.deployment.Succeeded number := by
  have begin : Move engine l { l with world := l.world.beginRun.2 } := .step (.beginRun l)
  have begun := reached.remains.next (begin.allots reached.regular).tracking
  rw [taken_eq_nil fun n => beginRun_tracks l.world, List.append_nil] at begun
  obtain ⟨regular, remains⟩ := acts.remains (begin.regular reached.regular) begun
  cases started : l.world.beginRun with
  | mk outcome world =>
  cases outcome with
  | error cause => simp [World.run, started]
  | ok stack =>
    rw [started] at runs
    have ran := runs stack rfl
    cases result with
    | none => simp [World.run, started, ran]
    | some result =>
      have ended := endRun_vouches engine stack result remains regular.sound.owned
      simpa [World.run, started, ran] using ended

/-- An engine that refuses things, and registers everything else. -/
def choosy : Engine Unit where
  __ := obliging
  register request s :=
    if request.type = "pkg:index:Thing" then
      (.error (.rpc "RegisterResource" "quota exceeded"), s)
    else
      (.ok { urn := "urn:" ++ request.name }, s)

def thing : ResourceSpec := { kind := .custom, type := "pkg:index:Thing", name := "thing" }

def group : ResourceSpec := { kind := .component, type := "pkg:index:Group", name := "group" }

/-- A program registers a thing, waits, whatever the wait reports, and registers a group. -/
def heedless (_ : Key) (w : World Unit) (t : Unit) :
    Option (Except Failure Arguments) × World Unit × Unit :=
  let registered := { w with deployment := (w.deployment.register thing).2 }
  let waited := (registered.waitForRegistrations choosy).2
  (some (.ok []), { waited with deployment := (waited.deployment.register group).2 }, t)

/-- The ledger after the program has registered a thing and waited. -/
def waited (l : Ledger Unit) : Ledger Unit :=
  { l.registering thing with
    world := ((l.registering thing).world.waitForRegistrations choosy).2 }

theorem heedless_leaves (l : Ledger Unit) (stack : Key) :
    heedless stack l.world () = (some (.ok []), ((waited l).registering group).world, ()) := rfl

/-- The run succeeds, so the group does; the stack and the thing were taken by the wait. -/
theorem run_succeeds_iff_heedless :
    let l : Ledger Unit := initial {} ()
    let begun : Ledger Unit := { l with world := l.world.beginRun.2 }
    let after := (World.run choosy heedless l.world ()).2.1.deployment
    Reached choosy l ∧ Acts choosy begun [0, 1] ((waited begun).registering group) ∧
      (World.run choosy heedless l.world ()).1 = some (.ok ()) ∧
      Awaited l.deployment after 2 ∧ after.Succeeded 2 := by
  intro l begun after
  have reached : Reached choosy l := ⟨{}, (), .refl⟩
  have first : Acts choosy begun [] (begun.registering thing) := .registering .start rfl
  have second : Acts choosy begun
      ([] ++ taken (begun.registering thing).deployment (waited begun).deployment) (waited begun) :=
    .move first (.step (.wait (begun.registering thing)))
  have took : [] ++ taken (begun.registering thing).deployment (waited begun).deployment =
      [0, 1] := by
    decide +kernel
  rw [took] at second
  have acts : Acts choosy begun [0, 1] ((waited begun).registering group) :=
    .registering second rfl
  have succeeds : (World.run choosy heedless l.world ()).1 = some (.ok ()) := by decide +kernel
  have awaited : Awaited l.deployment after 2 := by decide +kernel
  have runs (stack : Key) (_ : l.world.beginRun.1 = .ok stack) :
      heedless stack l.world.beginRun.2 () =
        (some (.ok []), ((waited begun).registering group).world, ()) :=
    heedless_leaves begun stack
  have vouches := ((run_succeeds_iff reached acts runs).mp succeeds).2
  exact ⟨reached, acts, succeeds, awaited, vouches 2 (by decide) awaited⟩

/-- The thing was refused, and the run succeeds. -/
theorem run_succeeds_despite_failure :
    let l : Ledger Unit := initial {} ()
    let after := (World.run choosy heedless l.world ()).2.1.deployment
    (World.run choosy heedless l.world ()).1 = some (.ok ()) ∧
      Awaited l.deployment after 1 ∧ ¬ after.Succeeded 1 ∧
      (after.tasks[1]?.bind fun task => task.progress.outcome?) =
        some (.error (.rpc "RegisterResource" "quota exceeded")) := by
  decide +kernel

end Ledger

end Provision
