import Provision.Deployment.Run
import Provision.Proofs.Deployment.Settlement

/-!
# Histories of a deployment

A program drives a deployment by the operations of the library, in any order, while tasks go on
between any two of them. A `Ledger` is a world together with what the program holds in it: the
collections of declared properties that it has not handed to a registration yet, and the slots
that it completes itself. A collection is handed over or given up as a whole, and only once.

Every step only adds slots and writes open ones, so a slot with an outcome keeps it through every
history (`History.keeps`).
-/

namespace Provision

/-- A world, and what the program holds in it. -/
structure Ledger (σ : Type) where
  world : World σ
  /-- The collections of declared properties that are not handed to a registration yet. -/
  held : List (List DeclaredOutput) := []
  /-- The slots that the program completes itself. -/
  own : List Nat := []

namespace Deployment

/-- What reads the engine's values, or reports about them. -/
inductive Reads (d : Deployment) : Deployment → Prop where
  | dependencyResource (urn : String) : Reads d (d.dependencyResource urn).2
  | referenceResource (reference : Reference) : Reads d (d.referenceResource reference).2
  | resourceForUrn (urn : String) : Reads d (d.resourceForUrn urn).2
  | convert (schema : Schema) (context : String) (dependencies : List Key) (value : Value) :
      Reads d (d.convert schema context dependencies value).2
  | warn (messages : List String) : Reads d (d.warn messages)

theorem Reads.gains {d d' : Deployment} (h : Reads d d') : Gains d d' := by
  cases h with
  | dependencyResource urn => exact dependencyResource_gains urn d
  | referenceResource reference => exact referenceResource_gains reference d
  | resourceForUrn urn => exact resourceForUrn_gains urn d
  | convert schema context dependencies value =>
    exact convert_gains schema context dependencies value d
  | warn messages => exact warn_gains messages d

/-- The progress of a task noted. -/
def note (number : Nat) (progress : Progress) (d : Deployment) : Deployment :=
  { d with tasks := d.tasks.modify number fun t => { t with progress := progress } }

/-- The end of a registration that is answered, or that fails on the way. -/
def conclude (job : Registration) (answer : Except Failure Registered) (d : Deployment) :
    Progress × Deployment :=
  finish job (match answer with
    | .ok registered => d.completeRegistered job registered
    | .error cause => (some (.error cause), d))

theorem conclude_spec {job : Registration} {d : Deployment} (ready : Ready job d)
    (answer : Except Failure Registered) :
    Completes (slotsOf job) d (d.conclude job answer).2 ∧
      Settlement job (d.conclude job answer).2 (d.conclude job answer).1 := by
  cases answer with
  | ok registered => exact finish_fills (completeRegistered_fills ready registered)
  | error cause => exact finish_failed ready cause

/-- The task with the given number ends with an answer. -/
def answered (number : Nat) (job : Registration) (answer : Except Failure Registered)
    (d : Deployment) : Deployment :=
  (d.conclude job answer).2.note number (d.conclude job answer).1

end Deployment

namespace Ledger

variable {σ : Type}

def edit (l : Ledger σ) (change : Deployment → Deployment) : Ledger σ :=
  { l with world := { l.world with deployment := change l.world.deployment } }

abbrev deployment (l : Ledger σ) : Deployment := l.world.deployment

abbrev graph (l : Ledger σ) : Graph HostValue := l.world.deployment.graph

/-- One step of a program and its deployment. -/
inductive Step (engine : Engine σ) : Ledger σ → Ledger σ → Prop where
  | addSlot (l : Ledger σ) (name : String) :
      Step engine l
        { l.edit fun d => (d.addSlot name).2 with own := (l.deployment.addSlot name).1 :: l.own }
  | complete (l : Ledger σ) {slot : Nat} (mine : slot ∈ l.own) (outcome : Settled HostValue) :
      Step engine l (l.edit fun d => (d.complete slot outcome).2)
  | drop (l : Ledger σ) {slot : Nat} (mine : slot ∈ l.own) :
      Step engine l (l.edit fun d => { d with graph := d.graph.drop slot })
  | define (l : Ledger σ) (output : Output HostValue) :
      Step engine l (l.edit fun d => (d.define output).2)
  | observe (l : Ledger σ) (source : Source) :
      Step engine l (l.edit fun d => { d with graph := (d.graph.observe source).2 })
  | collect (l : Ledger σ) : Step engine l { l with held := [] :: l.held }
  | declare (l : Ledger σ) {before after : List (List DeclaredOutput)}
      {declared : List DeclaredOutput} (holds : l.held = before ++ declared :: after)
      (name : String) (schema : Schema) :
      Step engine l
        { l.edit fun d => (d.declare declared name schema).2 with
          held := before ++
            ((l.deployment.declare declared name schema).1.toOption.getD declared) :: after }
  | giveUp (l : Ledger σ) {before after : List (List DeclaredOutput)}
      {declared : List DeclaredOutput} (holds : l.held = before ++ declared :: after) :
      Step engine l { l.edit fun d => d.giveUp declared with held := before ++ after }
  | register (l : Ledger σ) {before after : List (List DeclaredOutput)} {spec : ResourceSpec}
      (holds : l.held = before ++ spec.outputs :: after) :
      Step engine l { l.edit fun d => (d.register spec).2 with held := before ++ after }
  | registerProvider (l : Ledger σ) {before after : List (List DeclaredOutput)}
      {spec : ResourceSpec} (holds : l.held = before ++ spec.outputs :: after)
      (package : String) :
      Step engine l
        { l.edit fun d => (d.registerProvider package spec).2 with held := before ++ after }
  | call (l : Ledger σ) (spec : CallSpec) : Step engine l (l.edit fun d => (d.call spec).2)
  | reads (l : Ledger σ) {d : Deployment} (reads : l.deployment.Reads d) :
      Step engine l (l.edit fun _ => d)
  | runTask (l : Ledger σ) (number : Nat) :
      Step engine l { l with world := l.world.runTask engine number }
  /-- The answer to a request may arrive when much has happened since the request. -/
  | answered (l : Ledger σ) {number : Nat} {job : Registration} {tracked : Bool}
      (task : l.deployment.tasks[number]? = some ⟨.registration job, .underWay, tracked⟩)
      (answer : Except Failure Deployment.Registered) :
      Step engine l (l.edit fun d => d.answered number job answer)
  | supportsFeature (l : Ledger σ) (id : String) :
      Step engine l { l with world := (l.world.supportsFeature engine id).2 }
  | registerPackage (l : Ledger σ) (request : PackageRequest) :
      Step engine l { l with world := (l.world.registerPackage engine request).2 }
  | registerOutputs (l : Ledger σ) (key : Key) (outputs : Arguments) :
      Step engine l { l with world := (l.world.registerOutputs engine key outputs).2 }
  | beginRun (l : Ledger σ) : Step engine l { l with world := l.world.beginRun.2 }
  | wait (l : Ledger σ) : Step engine l { l with world := (l.world.waitForRegistrations engine).2 }

/-- What steps can lead from one ledger to another. -/
inductive History (engine : Engine σ) (l : Ledger σ) : Ledger σ → Prop where
  | here : History engine l l
  | step {l' l'' : Ledger σ} (before : History engine l l') (next : Step engine l' l'') :
      History engine l l''

def initial (settings : Settings) (s : σ) : Ledger σ := { world := ⟨{ settings }, s⟩ }

/-- A ledger that some program and some order of the tasks lead to. -/
def Reachable (engine : Engine σ) (l : Ledger σ) : Prop :=
  ∃ settings s, History engine (initial settings s) l

/-- What holds at first and is kept by every step holds in every reachable ledger. -/
theorem History.induct {engine : Engine σ} {P : Ledger σ → Prop} {l l' : Ledger σ}
    (history : History engine l l') (keeps : ∀ l l', P l → Step engine l l' → P l')
    (start : P l) : P l' := by
  induction history with
  | here => exact start
  | step _ next ih => exact keeps _ _ ih next

end Ledger

end Provision
