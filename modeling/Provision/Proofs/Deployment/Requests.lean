import Mathlib.Data.List.Forall2
import Provision.Proofs.Deployment.Inheritance

/-!
# The requests of registrations

A registration asks the engine once: to register its resource, or to read it. In a log of what the
engine is asked, every request to register or to read comes from a registration of its own, which
has ended since (`requests_come_once`); so does the request that a late answer belongs to. A read
names its resource by a URN or by an id, and not by both, unless the program has given the URN: then
it is sent as it is, next to an id that is known, and even if it is empty.
-/

namespace Provision

/-- The request names the resource by its URN or by its id, and not by both. -/
def ReadRequest.IdentifiesOnce (request : ReadRequest) : Prop :=
  request.urn ≠ "" ∧ request.id = "" ∨ request.urn = "" ∧ request.id ≠ ""

def Request.exchange? : Request → Option Deployment.Exchange
  | .register request => some (.register request)
  | .read request => some (.read request)
  | _ => none

namespace Deployment

variable {d d' : Deployment} {job : Registration} {exchange : Exchange} {request : ReadRequest}

/-- In this state the registration sends the request. -/
structure Sends (d : Deployment) (job : Registration) (exchange : Exchange) : Prop where
  known : d.readIdIsUnknown job = .done false
  built : ∃ features, d.exchange features job = .done exchange

/-- The registration has the id of a resource, of a kind that has ids, and the id is known. -/
def KnowsId (d : Deployment) (job : Registration) : Prop :=
  job.kind.isCustomLike = true ∧ ∃ id data text, job.options.id = some id ∧
    id.peek d.graph = some (.ok data) ∧ data.value = some text ∧ text ≠ ""

/-! ### What a read states -/

theorem Sends.builds (sends : d.Sends job exchange) : ∃ features, d.Builds features job exchange :=
  sends.built.imp fun _ ready => exchange_builds ready

/-- The id that a registration reads by is the known one, and else empty. -/
theorem knowsId_iff {id : Option String} (read : d.readId job = .done id) :
    d.KnowsId job ↔ id.getD "" ≠ "" := by
  unfold readId at read
  cases given : job.options.id with
  | none =>
    rw [given] at read
    cases read
    simp [KnowsId, given]
  | some output =>
    rw [given] at read
    dsimp only at read
    split at read
    · rename_i custom
      obtain ⟨found, settled, same⟩ := Await.andThen_eq_done read
      cases same
      cases peeked : output.peek d.graph with
      | none => simp [peeked, awaitValue] at settled
      | some result =>
        cases result with
        | error cause => simp [peeked, awaitValue] at settled
        | ok data =>
          rw [peeked] at settled
          cases settled
          cases value : data.value <;> simp [KnowsId, given, custom, peeked, value]
    · rename_i other
      cases read
      simp [KnowsId, other]

/-- A registration that is not held back knows the id that it reads by, unless it has a URN. -/
theorem Sends.knowsId (sends : d.Sends job (.read request)) (none : job.options.urn = none) :
    d.KnowsId job := by
  obtain ⟨features, builds⟩ := sends.builds
  obtain ⟨id, read, stated⟩ := builds.id
  obtain ⟨-, -, some⟩ := stated request rfl
  rw [knowsId_iff read]
  have known := sends.known
  unfold readIdIsUnknown at known
  unfold readId at read
  cases given : job.options.id with
  | none =>
    rw [given] at read
    cases read
    cases some none
  | some output =>
    rw [given] at read known
    dsimp only at read known
    by_cases custom : job.kind.isCustomLike = true
    · rw [if_pos custom] at read
      rw [if_pos (by simp [custom, none])] at known
      obtain ⟨found, settled, same⟩ := Await.andThen_eq_done read
      obtain ⟨found', settled', same'⟩ := Await.andThen_eq_done known
      cases same
      cases settled.symm.trans settled'
      intro empty
      cases found <;> simp_all
    · rw [if_neg custom] at read
      cases read
      cases some none

/-- A read names its resource in one way, unless it comes with a URN that is empty although no id is
known, or that is not although one is. -/
theorem Sends.identifiesOnce_iff (sends : d.Sends job (.read request)) :
    request.IdentifiesOnce ↔
      ∀ urn, job.options.urn = some urn → (urn = "" ↔ d.KnowsId job) := by
  obtain ⟨features, builds⟩ := sends.builds
  obtain ⟨id, read, stated⟩ := builds.id
  obtain ⟨byId, byUrn, -⟩ := stated request rfl
  have knows := knowsId_iff read
  rw [← byId] at knows
  unfold ReadRequest.IdentifiesOnce
  cases given : job.options.urn with
  | none =>
    have named : request.id ≠ "" := knows.mp (sends.knowsId given)
    rw [given] at byUrn
    simp [byUrn, named]
  | some urn =>
    rw [given] at byUrn
    simp only [byUrn, Option.getD_some, Option.some.injEq, forall_eq', knows]
    tauto

/-! ### Who has sent a request -/

def Ended (d : Deployment) (number : Nat) : Prop :=
  ∃ task, d.tasks[number]? = some task ∧ task.progress ≠ .underWay

/-- The task with the number is that of a registration under way. -/
def IsUnderWay (d : Deployment) (number : Nat) (job : Registration) : Prop :=
  ∃ tracked, d.tasks[number]? = some ⟨.registration job, .underWay, tracked⟩

/-- The request was sent by the registration with the number when it was under way, in the earlier
state `before`, and the registration has ended since. -/
structure SentBy (d : Deployment) (number : Nat) (job : Registration) (before : Deployment)
    (exchange : Exchange) : Prop where
  since : Follows before d
  asked : before.IsUnderWay number job
  sends : before.Sends job exchange
  ended : d.Ended number
  identified : ∀ request, exchange = .read request → (request.IdentifiesOnce ↔
    ∀ urn, job.options.urn = some urn → (urn = "" ↔ before.KnowsId job))

/-- The requests were sent, one each, by registrations whose tasks have ended between the two
states. -/
def Dispatched (new : List Exchange) (d d' : Deployment) : Prop :=
  ∃ senders : List Nat, senders.Nodup ∧ (∀ number ∈ senders, ¬ d.Ended number) ∧
    List.Forall₂ (fun number exchange => ∃ job before, d'.SentBy number job before exchange)
      senders new

/-- A task that makes progress and is not under way then has ended. -/
theorem Ended.of_note {number : Nat} {job : Job} {tracked : Bool} {touched : List Nat}
    (task : d.tasks[number]? = some ⟨job, .underWay, tracked⟩) (completes : Completes touched d d')
    {progress : Progress} (past : progress ≠ .underWay) : (d'.note number progress).Ended number :=
  ⟨⟨job, progress, tracked⟩, by simp [note, completes.tasks, task], past⟩

theorem Ended.after {number : Nat} (ended : d.Ended number) (follows : Follows d d') :
    d'.Ended number := by
  obtain ⟨task, here, past⟩ := ended
  obtain ⟨progress, tracked, later, waits | rfl⟩ := follows.tasks number task here
  · exact absurd waits past
  · exact ⟨_, later, past⟩

theorem SentBy.after {number : Nat} {before : Deployment}
    (sent : d.SentBy number job before exchange) (follows : Follows d d') :
    d'.SentBy number job before exchange :=
  ⟨sent.since.trans follows, sent.asked, sent.sends, sent.ended.after follows, sent.identified⟩

namespace Dispatched

theorem nothing (d d' : Deployment) : Dispatched [] d d' :=
  ⟨[], List.nodup_nil, by simp, .nil⟩

/-- A registration that was under way when it sent its request, and still is in the first state, has
ended in the second one. -/
theorem one {number : Nat} {before : Deployment} (waits : d.IsUnderWay number job)
    (ended : d'.Ended number) (since : Follows before d') (asked : before.IsUnderWay number job)
    (sends : before.Sends job exchange) : Dispatched [exchange] d d' := by
  refine ⟨[number], by simp, ?_, .cons ⟨job, before, since, asked, sends, ended, ?_⟩ .nil⟩
  · intro other member early
    obtain rfl := List.mem_singleton.mp member
    obtain ⟨tracked, task⟩ := waits
    obtain ⟨_, here, past⟩ := early
    cases task.symm.trans here
    exact past rfl
  · rintro request rfl
    exact sends.identifiesOnce_iff

/-- All senders have ended. -/
theorem ended {senders : List Nat} {new : List Exchange}
    (sent : List.Forall₂ (fun number exchange => ∃ job before, d.SentBy number job before exchange)
      senders new) {number : Nat} (member : number ∈ senders) : d.Ended number := by
  induction sent with
  | nil => cases member
  | cons first _ ih =>
    obtain ⟨job, before, sent⟩ := first
    rcases List.mem_cons.mp member with rfl | member
    · exact sent.ended
    · exact ih member

/-- Whoever has sent a request before has ended, and whoever sends one then has not. -/
theorem trans {d₁ d₂ d₃ : Deployment} {new new' : List Exchange} (first : Dispatched new d₁ d₂)
    (second : Dispatched new' d₂ d₃) (follows : Follows d₁ d₂) (follows' : Follows d₂ d₃) :
    Dispatched (new ++ new') d₁ d₃ := by
  obtain ⟨senders, nodup, waiting, sent⟩ := first
  obtain ⟨senders', nodup', waiting', sent'⟩ := second
  refine ⟨senders ++ senders', List.nodup_append.mpr ⟨nodup, nodup', ?_⟩, ?_, ?_⟩
  · rintro number member other member' rfl
    exact waiting' number member' (ended sent member)
  · intro number member
    rcases List.mem_append.mp member with member | member
    · exact waiting number member
    · exact fun early => waiting' number member (early.after follows)
  · refine List.rel_append (sent.imp ?_) sent'
    rintro number exchange ⟨job, before, sent⟩
    exact ⟨job, before, sent.after follows'⟩

end Dispatched

end Deployment

namespace World

open Deployment

variable {σ : Type}

/-- The requests to register or to read that the engine was asked. -/
def exchanges (w : World (Engine.Logged σ)) : List Exchange :=
  w.engine.log.filterMap Request.exchange?

theorem supportsFeature_exchanges (engine : Engine σ) (id : String) (w : World (Engine.Logged σ)) :
    (w.supportsFeature engine.logged id).2.exchanges = w.exchanges := by
  have asked : (engine.logged.supportsFeature ⟨id⟩ w.engine).2.log.filterMap Request.exchange? =
      w.exchanges := by
    simp [exchanges, Engine.logged, Engine.Logged.step, Request.exchange?]
  unfold supportsFeature
  generalize engine.logged.supportsFeature ⟨id⟩ w.engine = answer at asked
  obtain ⟨outcome, s⟩ := answer
  split
  · rfl
  · cases outcome <;> exact asked

theorem engineFeatures_exchanges (engine : Engine σ) (w : World (Engine.Logged σ)) :
    (w.engineFeatures engine.logged).2.exchanges = w.exchanges :=
  engineFeatures_preserves (P := fun w' => w'.exchanges = w.exchanges)
    (fun id w' same => (supportsFeature_exchanges engine id w').trans same) w rfl

theorem send_exchanges (engine : Engine σ) (exchange : Exchange) (w : World (Engine.Logged σ)) :
    (w.send engine.logged exchange).2.exchanges = w.exchanges ++ [exchange] := by
  cases exchange <;> simp [send, exchanges, Engine.logged, Engine.Logged.step, Request.exchange?]

theorem runCall_exchanges (engine : Engine σ) (job : Call) (w : World (Engine.Logged σ)) :
    (w.runCall engine.logged job).2.exchanges = w.exchanges := by
  have asked := engineFeatures_exchanges engine w
  unfold runCall
  dsimp only
  generalize w.engineFeatures engine.logged = r at asked
  obtain ⟨outcome, w₁⟩ := r
  cases outcome with
  | error cause => exact asked
  | ok features =>
    dsimp only
    cases w₁.deployment.callRequest features job with
    | pending => exact asked
    | failed cause => exact asked
    | done request =>
      have called : (engine.logged.call request w₁.engine).2.log.filterMap Request.exchange? =
          w.exchanges := by
        rw [← asked]
        simp [exchanges, Engine.logged, Engine.Logged.step, Request.exchange?]
      dsimp only
      generalize engine.logged.call request w₁.engine = answer at called
      obtain ⟨_ | _, s⟩ := answer <;> exact called

/-- A registration that finishes is not under way any more. -/
theorem finish_ends (job : Registration) (ending : Ending × Deployment) :
    (finish job ending).1 ≠ .underWay := by
  obtain ⟨_ | (_ | _), d⟩ := ending <;> simp [finish]

/-- A registration that is run sends nothing, or one request, and then it ends. -/
theorem runRegistration_exchanges (engine : Engine σ) (job : Registration)
    (w : World (Engine.Logged σ)) :
    (w.runRegistration engine.logged job).2.exchanges = w.exchanges ∨
      ∃ exchange, w.deployment.Sends job exchange ∧
        (w.runRegistration engine.logged job).1 ≠ .underWay ∧
        (w.runRegistration engine.logged job).2.exchanges = w.exchanges ++ [exchange] := by
  unfold runRegistration
  dsimp only
  cases known : w.deployment.readIdIsUnknown job with
  | pending => exact .inl rfl
  | failed cause => exact .inl rfl
  | done unknown =>
    cases unknown with
    | true => exact .inl rfl
    | false =>
      have asked := engineFeatures_exchanges engine w
      obtain ⟨noted, same⟩ := engineFeatures_notes engine.logged w
      dsimp only
      generalize w.engineFeatures engine.logged = r at asked same
      obtain ⟨outcome, w₁⟩ := r
      cases outcome with
      | error cause => exact .inl asked
      | ok features =>
        dsimp only
        cases built : w₁.deployment.exchange features job with
        | pending => exact .inl asked
        | failed cause => exact .inl asked
        | done exchange =>
          have sent := send_exchanges engine exchange w₁
          rw [asked] at sent
          -- The request does not depend on what was noted about features.
          have sends : w.deployment.Sends job exchange := by
            dsimp only at same
            rw [same] at built
            exact ⟨known, features, built⟩
          dsimp only
          generalize w₁.send engine.logged exchange = r at sent
          obtain ⟨answer, w₂⟩ := r
          cases answer <;> exact .inr ⟨exchange, sends, finish_ends _ _, sent⟩

variable {held : List (List DeclaredOutput)} {own : List Nat}

/-- Between the two worlds the engine was asked by registrations, each of them once. -/
def Asks (w w' : World (Engine.Logged σ)) : Prop :=
  ∃ new, w'.exchanges = w.exchanges ++ new ∧ Dispatched new w.deployment w'.deployment

theorem Asks.nothing {w w' : World (Engine.Logged σ)} (same : w'.exchanges = w.exchanges) :
    Asks w w' :=
  ⟨[], same.trans (List.append_nil _).symm, .nothing _ _⟩

theorem Asks.trans {w₁ w₂ w₃ : World (Engine.Logged σ)} (first : Asks w₁ w₂) (second : Asks w₂ w₃)
    (follows : Follows w₁.deployment w₂.deployment)
    (follows' : Follows w₂.deployment w₃.deployment) : Asks w₁ w₃ := by
  obtain ⟨new, logged, sent⟩ := first
  obtain ⟨new', logged', sent'⟩ := second
  exact ⟨new ++ new', by rw [logged', logged, List.append_assoc],
    sent.trans sent' follows follows'⟩

theorem runTask_asks (engine : Engine σ) (number : Nat) (w : World (Engine.Logged σ))
    (owned : w.deployment.Owned held own) : Asks w (w.runTask engine.logged number) := by
  unfold runTask
  split
  · exact .nothing rfl
  · rename_i task here
    obtain ⟨job, progress, tracked⟩ := task
    cases progress with
    | endless | finished => exact .nothing rfl
    | underWay =>
      cases job with
      | registration job =>
        obtain ⟨completes, -⟩ := runRegistration_spec engine.logged (owned.ready here)
        rcases runRegistration_exchanges engine job w with same | ⟨exchange, sends, past, sent⟩
        · exact .nothing same
        · have waits : w.deployment.IsUnderWay number job := ⟨tracked, here⟩
          refine ⟨[exchange], sent, .one waits ?_ (.of_note here completes _) waits sends⟩
          exact .of_note here completes past
      | call job => exact .nothing (runCall_exchanges engine job w)

/-- The invariant of all that happens after `w`: what it keeps, and what the engine is asked. -/
def AsksAfter (w : World (Engine.Logged σ)) (held : List (List DeclaredOutput)) (own : List Nat)
    (w' : World (Engine.Logged σ)) : Prop :=
  After w.deployment held own w' ∧ Asks w w'

theorem runTask_asksAfter (engine : Engine σ) {w : World (Engine.Logged σ)} (number : Nat)
    (w' : World (Engine.Logged σ)) (h : AsksAfter w held own w') :
    AsksAfter w held own (w'.runTask engine.logged number) := by
  obtain ⟨⟨owned, follows⟩, asks⟩ := h
  obtain ⟨owned', next⟩ := runTask_keeps engine.logged number w' owned
  exact ⟨⟨owned', follows.trans next⟩,
    asks.trans (runTask_asks engine number w' owned) follows next⟩

theorem waitForRegistrations_asks (engine : Engine σ) (w : World (Engine.Logged σ))
    (owned : w.deployment.Owned held own) : Asks w (w.waitForRegistrations engine.logged).2 := by
  obtain ⟨⟨owned', follows⟩, asks⟩ : AsksAfter w held own (w.runTasks engine.logged) :=
    runTasks_preserves (runTask_asksAfter engine) w ⟨⟨owned, .refl _⟩, .nothing rfl⟩
  exact asks.trans (.nothing rfl) follows (untrack_keeps owned').2

theorem registerOutputs_asks (engine : Engine σ) (key : Key) (outputs : Arguments)
    (w : World (Engine.Logged σ)) (owned : w.deployment.Owned held own) :
    Asks w (w.registerOutputs engine.logged key outputs).2 := by
  have same := engineFeatures_exchanges engine w
  have kept := Keeps.of_gains (engineFeatures_gains engine.logged w) owned
  unfold registerOutputs
  generalize w.engineFeatures engine.logged = r at same kept
  obtain ⟨outcome, w₁⟩ := r
  cases outcome with
  | error cause => exact .nothing same
  | ok features =>
    have awaited : AsksAfter w held own (w₁.await engine.logged fun w =>
        outputsRequest w.deployment features key outputs).2 :=
      await_preserves (runTask_asksAfter engine) _ w₁ ⟨kept, .nothing same⟩
    dsimp only
    generalize w₁.await engine.logged _ = r at awaited
    obtain ⟨request, w₂⟩ := r
    obtain ⟨⟨-, follows⟩, asks⟩ := awaited
    cases request with
    | pending | failed => exact asks
    | done request =>
      refine asks.trans (.nothing ?_) follows (.refl _)
      simp [exchanges, Engine.logged, Engine.Logged.step, Request.exchange?]

end World

namespace Ledger

open Deployment World

variable {σ : Type} {engine : Engine σ} {l l' : Ledger (Engine.Logged σ)} {sent : List Exchange}

/-- Only registrations ask the engine to register or to read, and each of them only once. -/
theorem Step.asks (step : Step engine.logged l l') (owned : l.Owned) : Asks l.world l'.world := by
  cases step with
  | addSlot | complete | drop | define | observe | collect | declare | giveUp | register
  | registerProvider | call | reads | answered =>
    exact .nothing rfl
  | beginRun =>
    refine .nothing ?_
    unfold World.beginRun
    dsimp only
    split <;> rfl
  | runTask number => exact runTask_asks engine number l.world owned
  | supportsFeature id => exact .nothing (supportsFeature_exchanges engine id l.world)
  | registerPackage request =>
    exact .nothing (by
      simp [World.registerPackage, exchanges, Engine.logged, Engine.Logged.step,
        Request.exchange?])
  | registerOutputs key outputs => exact registerOutputs_asks engine key outputs l.world owned
  | wait => exact waitForRegistrations_asks engine l.world owned

/-- The requests to register or to read that lead from the start of a deployment to a ledger: those
in the engine's log, and those whose answers arrive late. A late answer ends a registration that has
sent its request when it was under way in an earlier ledger. -/
inductive Correspondence (engine : Engine σ) : List Exchange → Ledger (Engine.Logged σ) → Prop where
  | start (settings : Settings) (s : σ) : Correspondence engine [] (initial settings ⟨s, []⟩)
  | next {sent new : List Exchange} {l l' : Ledger (Engine.Logged σ)}
      (before : Correspondence engine sent l) (step : Step engine.logged l l')
      (logged : l'.world.exchanges = l.world.exchanges ++ new) :
      Correspondence engine (sent ++ new) l'
  | late {sent : List Exchange} {earlier l : Ledger (Engine.Logged σ)} {number : Nat}
      {job : Registration} {exchange : Exchange} (before : Correspondence engine sent l)
      (reachable : Reachable engine.logged earlier) (meanwhile : History engine.logged earlier l)
      (asked : earlier.deployment.IsUnderWay number job)
      (sends : earlier.deployment.Sends job exchange) (waits : l.deployment.IsUnderWay number job)
      (answer : Except Failure Deployment.Registered) :
      Correspondence engine (sent ++ [exchange]) (l.edit fun d => d.answered number job answer)

/-- Every history is part of a correspondence, with the requests in the log. -/
theorem History.correspondence {settings : Settings} {s : σ}
    (history : History engine.logged (initial settings ⟨s, []⟩) l) :
    Correspondence engine l.world.exchanges l := by
  have owned := initial_owned settings (⟨s, []⟩ : Engine.Logged σ)
  induction history with
  | here => exact .start settings s
  | step before next ih =>
    obtain ⟨new, logged, -⟩ := next.asks (before.keeps owned).1
    rw [logged]
    exact .next ih next logged

/-- A late answer ends the registration that has sent the request. -/
theorem answered_dispatches {d before : Deployment} {number : Nat} {job : Registration}
    {exchange : Exchange} {held : List (List DeclaredOutput)} {own : List Nat}
    (owned : d.Owned held own) (since : Follows before d) (asked : before.IsUnderWay number job)
    (sends : before.Sends job exchange) (waits : d.IsUnderWay number job)
    (answer : Except Failure Deployment.Registered) :
    Dispatched [exchange] d (d.answered number job answer) := by
  obtain ⟨tracked, task⟩ := waits
  obtain ⟨completes, -⟩ := conclude_spec (owned.ready task) answer
  have follows : Follows d (d.answered number job answer) := .of_note task completes _
  exact .one ⟨tracked, task⟩ (.of_note task completes (finish_ends _ _)) (since.trans follows) asked
    sends

/-- The requests that lead to a ledger were all sent since the start. -/
theorem Correspondence.dispatched (correspondence : Correspondence engine sent l) :
    l.Owned ∧ ∃ first, Follows first l.deployment ∧ Dispatched sent first l.deployment := by
  induction correspondence with
  | start settings s => exact ⟨initial_owned settings _, _, .refl _, .nothing _ _⟩
  | next before step logged ih =>
    obtain ⟨owned, first, follows, sent⟩ := ih
    obtain ⟨new, logged', asked⟩ := step.asks owned
    obtain rfl := List.append_cancel_left (logged.symm.trans logged')
    obtain ⟨owned', follows'⟩ := step.keeps owned
    exact ⟨owned', first, follows.trans follows', sent.trans asked follows follows'⟩
  | late before reachable meanwhile asked sends waits answer ih =>
    obtain ⟨owned, first, follows, sent⟩ := ih
    obtain ⟨-, since⟩ := meanwhile.keeps reachable.owned
    have late := answered_dispatches owned since asked sends waits answer
    obtain ⟨tracked, task⟩ := waits
    obtain ⟨owned', follows'⟩ := answered_keeps task answer owned
    exact ⟨owned', first, follows.trans follows', sent.trans late follows follows'⟩

/-- The requests that lead to a ledger, late ones included, come from registrations of their own,
which have ended, and name resources in one way as far as the program's URNs let them. -/
theorem requests_come_once (correspondence : Correspondence engine sent l) :
    ∃ senders : List Nat, senders.Nodup ∧
      List.Forall₂
        (fun number exchange => ∃ job before, l.deployment.SentBy number job before exchange)
        senders sent := by
  obtain ⟨-, first, -, senders, nodup, -, sent⟩ := correspondence.dispatched
  exact ⟨senders, nodup, sent⟩

/-- A resource that the program looks up under a URN, and by an id if it gives one. -/
def lookedUp (urn : String) (id : Option TextOutput) : ResourceSpec :=
  { kind := .custom, type := "pkg:index:Thing", name := "thing", options := { urn := some urn, id } }

/-- The ledger after the first resource has been registered and its task has run. -/
def afterFirst (spec : ResourceSpec) : Ledger (Engine.Logged Unit) :=
  let registered := (initial {} ⟨(), []⟩).registering spec
  { registered with world := registered.world.runTask obliging.logged 0 }

theorem afterFirst_history {spec : ResourceSpec} (undeclared : spec.outputs = []) :
    History obliging.logged (initial {} ⟨(), []⟩) (afterFirst spec) := by
  have collected : History obliging.logged (initial {} ⟨(), []⟩)
      { initial {} (⟨(), []⟩ : Engine.Logged Unit) with held := [[]] } := .step .here (.collect _)
  have registered : Step obliging.logged
      { initial {} (⟨(), []⟩ : Engine.Logged Unit) with held := [[]] }
      ((initial {} ⟨(), []⟩).registering spec) :=
    @Step.register _ _ _ [] [] spec (by rw [undeclared]; rfl)
  exact .step (.step collected registered) (.runTask _ 0)

/-- A lookup by a URN is sent once. -/
theorem requests_come_once_lookup :
    let l := afterFirst (lookedUp "urn:thing" none)
    Correspondence obliging l.world.exchanges l ∧
      (∃ request, l.world.exchanges = [.read request] ∧ request.urn = "urn:thing" ∧
        request.id = "") ∧
      ∃ senders : List Nat, senders.Nodup ∧
        List.Forall₂
          (fun number exchange => ∃ job before, l.deployment.SentBy number job before exchange)
          senders l.world.exchanges := by
  intro l
  have correspondence : Correspondence obliging l.world.exchanges l :=
    (afterFirst_history rfl).correspondence
  exact ⟨correspondence, ⟨_, rfl, rfl, rfl⟩, requests_come_once correspondence⟩

/-- A read with a URN and an id, and one with neither. -/
theorem reads_identify_not_once :
    (∃ l request, Reachable obliging.logged l ∧ l.world.exchanges = [.read request] ∧
      request.urn = "urn:thing" ∧ request.id = "i-1" ∧ ¬ request.IdentifiesOnce) ∧
    ∃ l request, Reachable obliging.logged l ∧ l.world.exchanges = [.read request] ∧
      request.urn = "" ∧ request.id = "" ∧ ¬ request.IdentifiesOnce := by
  constructor
  · refine ⟨afterFirst (lookedUp "urn:thing" (some (.create "i-1"))), _,
      ⟨_, _, afterFirst_history rfl⟩, rfl, rfl, rfl, ?_⟩
    simp [ReadRequest.IdentifiesOnce, lookedUp, Data.known]
  · refine ⟨afterFirst (lookedUp "" none), _, ⟨_, _, afterFirst_history rfl⟩, rfl, rfl, rfl, ?_⟩
    simp [ReadRequest.IdentifiesOnce, lookedUp]

end Ledger

end Provision
