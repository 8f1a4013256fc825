import Provision.Sample.Behaviour

/-!
# Serving requests

What a local engine does with a request is one of a few things (`serves_send`): of the resources it
has stored only a registration and an adoption change any, and only a registration counts an id. A
refusal changes nothing at all, so that requests which were refused could as well not have been
sent (`refusals_leave_no_trace`).
-/

namespace Provision

namespace Engine

variable {σ : Type} {engine : Engine σ}

/-- A request that is refused leaves the state as it was. -/
def RefusesCleanly (engine : Engine σ) : Prop :=
  ∀ request s cause, (engine.send request s).1 = .error cause → (engine.send request s).2 = s

/-- Of requests that are sent one after another those that are not refused, with their answers. -/
def granted (engine : Engine σ) (requests : List Request) (s : σ) :
    List (Request × Except Failure Response) :=
  (requests.zip (engine.sendAll requests s).1).filter fun exchange => exchange.2.isOk

theorem sendAll_cons (request : Request) (rest : List Request) (s : σ) :
    engine.sendAll (request :: rest) s =
      ((engine.send request s).1 :: (engine.sendAll rest (engine.send request s).2).1,
        (engine.sendAll rest (engine.send request s).2).2) :=
  rfl

theorem granted_cons (request : Request) (rest : List Request) (s : σ) :
    engine.granted (request :: rest) s =
      if (engine.send request s).1.isOk then
        (request, (engine.send request s).1) :: engine.granted rest (engine.send request s).2
      else engine.granted rest (engine.send request s).2 := by
  unfold granted
  rw [sendAll_cons, List.zip_cons_cons, List.filter_cons]

/-- The requests that are not refused get the same answers without the others, and lead to the
same state. -/
theorem RefusesCleanly.sendAll_granted (clean : engine.RefusesCleanly) (requests : List Request)
    (s : σ) :
    engine.sendAll ((engine.granted requests s).map Prod.fst) s =
      ((engine.granted requests s).map Prod.snd, (engine.sendAll requests s).2) := by
  induction requests generalizing s with
  | nil => rfl
  | cons request rest ih =>
    rw [granted_cons, sendAll_cons]
    cases answer : (engine.send request s).1 with
    | error cause =>
      have stays := clean request s cause answer
      rw [stays]
      exact ih s
    | ok response =>
      have kept : (Except.ok response : Except Failure Response).isOk = true := rfl
      rw [if_pos kept, List.map_cons, List.map_cons, sendAll_cons, ih, answer]

end Engine

namespace Local

variable {settings : Settings} {provider : Provider} {s : Local}

/-- The id that a registration gives: the name with the next number for a resource of its own, none
for a component and in a preview. -/
def newId (settings : Settings) (r : RegisterRequest) (s : Local) : String :=
  if r.custom && !settings.dryRun then r.name ++ "-" ++ toString s.nextId else ""

def registered (settings : Settings) (r : RegisterRequest) (id : String) (outputs : Properties) :
    StoredResource :=
  { urn := urn settings r.type r.name r.parent, type := r.type, name := r.name, id
    parent := r.parent, custom := r.custom, provider := r.provider
    dependencies := r.dependencies, outputs, external := false }

def adopted (settings : Settings) (r : ReadRequest) : StoredResource :=
  { urn := urn settings r.type r.name r.parent, type := r.type, name := r.name, id := r.id
    parent := r.parent, custom := true, provider := r.provider
    dependencies := r.dependencies, outputs := r.properties, external := true }

/-- A read makes the engine adopt a resource: it is by id, and no resource of the type has the
id. -/
structure Adopts (r : ReadRequest) (s : Local) : Prop where
  noUrn : r.urn = ""
  id : r.id ≠ ""
  unknown : s.inventory.findById? r.type r.id = none

/-- Why a request is refused. -/
inductive Refuses (settings : Settings) (provider : Provider) (s : Local) :
    Request → Failure → Prop where
  | taken (r : RegisterRequest)
      (taken : s.inventory.resources.has (urn settings r.type r.name r.parent) = true) :
      Refuses settings provider s (.register r)
        (EngineRefusal.toFailure Engine.Operation.register
          (.duplicateUrn (urn settings r.type r.name r.parent)))
  | rejected (r : RegisterRequest) (refusal : EngineRefusal)
      (free : s.inventory.resources.has (urn settings r.type r.name r.parent) = false)
      (rejected : outputsOf settings provider r = .error refusal) :
      Refuses settings provider s (.register r) (refusal.toFailure Engine.Operation.register)
  | missing (r : ReadRequest) (byUrn : r.urn ≠ "")
      (missing : s.inventory.resources.lookup r.urn = none) :
      Refuses settings provider s (.read r)
        (EngineRefusal.toFailure Engine.Operation.read (.notFound r.urn))
  | nameless (r : ReadRequest) (noUrn : r.urn = "") (noId : r.id = "") :
      Refuses settings provider s (.read r)
        (EngineRefusal.toFailure Engine.Operation.read
          (.invalidRequest ("read of " ++ r.name ++ " needs an id or a URN")))
  | targetless (r : CallRequest) (refusal : EngineRefusal)
      (missing : s.target r.args = .error refusal) :
      Refuses settings provider s (.call r) (refusal.toFailure Engine.Operation.call)
  | fails (r : CallRequest) (target : Option StoredResource) (refusal : EngineRefusal)
      (found : s.target r.args = .ok target)
      (fails : provider.call r.token r.args target = .error refusal) :
      Refuses settings provider s (.call r) (refusal.toFailure Engine.Operation.call)
  | unregistered (r : OutputsRequest) (missing : s.inventory.resources.has r.urn = false) :
      Refuses settings provider s (.outputs r)
        (EngineRefusal.toFailure Engine.Operation.registerOutputs (.notFound r.urn))

/-- What a request does to a local engine, with the answer to it. -/
inductive Serves (settings : Settings) (provider : Provider) (s : Local) :
    Request → Except Failure Response → Local → Prop where
  | refuses (request : Request) (cause : Failure)
      (reason : Refuses settings provider s request cause) :
      Serves settings provider s request (.error cause) s
  | supports (r : FeatureRequest) :
      Serves settings provider s (.feature r) (.ok (.feature ⟨features.contains r.id⟩)) s
  | registers (r : RegisterRequest) (outputs : Properties)
      (free : s.inventory.resources.has (urn settings r.type r.name r.parent) = false)
      (made : outputsOf settings provider r = .ok outputs) :
      Serves settings provider s (.register r)
        (.ok (.register
          { urn := urn settings r.type r.name r.parent, id := s.newId settings r, object := outputs
            propertyDependencies := if r.remote then r.propertyDependencies else [] }))
        { s.store (registered settings r (s.newId settings r) outputs) with
          nextId := if r.custom && !settings.dryRun then s.nextId + 1 else s.nextId }
  | finds (r : ReadRequest) (resource : StoredResource)
      (stored : if r.urn = "" then s.inventory.findById? r.type r.id = some resource
        else s.inventory.resources.lookup r.urn = some resource) :
      Serves settings provider s (.read r) (.ok (.read (readAnswer resource))) s
  | adopts (r : ReadRequest) (adopts : Adopts r s) :
      Serves settings provider s (.read r) (.ok (.read (readAnswer (adopted settings r))))
        (s.store (adopted settings r))
  | calls (r : CallRequest) (target : Option StoredResource) (response : CallResponse)
      (found : s.target r.args = .ok target)
      (done : provider.call r.token r.args target = .ok response) :
      Serves settings provider s (.call r) (.ok (.call response)) s
  | reports (r : OutputsRequest) (stored : s.inventory.resources.has r.urn = true) :
      Serves settings provider s (.outputs r) (.ok .outputs)
        { s with
          inventory :=
            { s.inventory with
              componentOutputs := Fields.set r.urn r.outputs s.inventory.componentOutputs } }
  | knows (r : PackageRequest) (reference : String)
      (named : s.inventory.packages.lookup r.name = some reference) :
      Serves settings provider s (.package r) (.ok (.package ⟨reference⟩)) s
  | names (r : PackageRequest) (new : s.inventory.packages.lookup r.name = none) :
      Serves settings provider s (.package r) (.ok (.package ⟨r.name ++ "@" ++ r.version⟩))
        { s with
          inventory :=
            { s.inventory with
              packages :=
                Fields.set r.name (r.name ++ "@" ++ r.version) s.inventory.packages } }

/-- There is nothing else that a local engine does with a request. -/
theorem serves_send (settings : Settings) (provider : Provider) (request : Request) (s : Local) :
    Serves settings provider s request ((engine settings provider).send request s).1
      ((engine settings provider).send request s).2 := by
  cases request with
  | feature r => exact .supports r
  | register r =>
    show Serves settings provider s (.register r)
      ((((register settings provider r s).1.mapError _).map _)) (register settings provider r s).2
    unfold register
    dsimp only
    split
    · rename_i taken
      exact .refuses _ _ (.taken r taken)
    · rename_i taken
      have free := Bool.eq_false_iff.mpr taken
      cases made : outputsOf settings provider r with
      | error refusal => exact .refuses _ _ (.rejected r refusal free made)
      | ok outputs => exact .registers r outputs free made
  | read r =>
    show Serves settings provider s (.read r)
      ((((read settings r s).1.mapError _).map _)) (read settings r s).2
    unfold read
    split
    · rename_i byUrn
      cases stored : s.inventory.resources.lookup r.urn with
      | none => exact .refuses _ _ (.missing r byUrn stored)
      | some resource => exact .finds r resource (by rwa [if_neg byUrn])
    · rename_i byId
      have noUrn : r.urn = "" := Decidable.not_not.mp byId
      split
      · rename_i noId
        exact .refuses _ _ (.nameless r noUrn noId)
      · rename_i id
        cases stored : s.inventory.findById? r.type r.id with
        | none => exact .adopts r ⟨noUrn, id, stored⟩
        | some resource => exact .finds r resource (by rwa [if_pos noUrn])
  | call r =>
    show Serves settings provider s (.call r) ((((call provider r s).mapError _).map _)) s
    unfold call
    cases found : s.target r.args with
    | error refusal => exact .refuses _ _ (.targetless r refusal found)
    | ok target =>
      dsimp only
      cases done : provider.call r.token r.args target with
      | error refusal => exact .refuses _ _ (.fails r target refusal found done)
      | ok response => exact .calls r target response found done
  | outputs r =>
    show Serves settings provider s (.outputs r)
      ((((registerOutputs r s).1.mapError _).map _)) (registerOutputs r s).2
    unfold registerOutputs
    split
    · rename_i stored
      exact .reports r stored
    · rename_i stored
      exact .refuses _ _ (.unregistered r (Bool.eq_false_iff.mpr stored))
  | package r =>
    show Serves settings provider s (.package r) (.ok (.package (registerPackage r s).1))
      (registerPackage r s).2
    unfold registerPackage
    cases named : s.inventory.packages.lookup r.name with
    | none => exact .names r named
    | some reference => exact .knows r reference named

def after (settings : Settings) (provider : Provider) (requests : List Request) (s : Local) :
    Local :=
  ((engine settings provider).sendAll requests s).2

/-- Something happens with one of the requests, in the state to which the earlier ones have led. -/
def Occurs (settings : Settings) (provider : Provider) (happens : Request → Local → Prop)
    (requests : List Request) (s : Local) : Prop :=
  ∃ earlier request later, requests = earlier ++ request :: later ∧
    happens request (after settings provider earlier s)

theorem not_occurs_nil {happens : Request → Local → Prop} :
    ¬ Occurs settings provider happens [] s := by
  rintro ⟨earlier, request, later, split, -⟩
  simp at split

/-- It happens with the first request or with a later one. -/
theorem occurs_cons {happens : Request → Local → Prop} {request : Request} {rest : List Request} :
    Occurs settings provider happens (request :: rest) s ↔
      happens request s ∨
        Occurs settings provider happens rest ((engine settings provider).send request s).2 := by
  constructor
  · rintro ⟨earlier, one, later, split, here⟩
    cases earlier with
    | nil =>
      cases split
      exact .inl here
    | cons first earlier =>
      cases split
      exact .inr ⟨earlier, one, later, rfl, here⟩
  · rintro (here | ⟨earlier, one, later, rfl, here⟩)
    · exact ⟨[], request, rest, rfl, here⟩
    · exact ⟨request :: earlier, one, later, rfl, here⟩

/-- A request that is answered with a failure is refused for one of the reasons, and changes
nothing. -/
theorem refused_of_error {request : Request} {cause : Failure}
    (failed : ((engine settings provider).send request s).1 = .error cause) :
    Refuses settings provider s request cause ∧
      ((engine settings provider).send request s).2 = s := by
  have served := serves_send settings provider request s
  rw [failed] at served
  generalize ((engine settings provider).send request s).2 = t at served ⊢
  cases served with
  | refuses _ _ reason => exact ⟨reason, rfl⟩

theorem refusesCleanly (settings : Settings) (provider : Provider) :
    (engine settings provider).RefusesCleanly :=
  fun _ _ _ failed => (refused_of_error failed).2

/-- A request that is answered with a failure is refused, and leaves a local engine as it was: the
resources, the outputs of components, the packages and the number of the next id. So the requests
of a run that are refused can be left out: the others are answered as before, and the run ends in
the same state. -/
theorem refusals_leave_no_trace (settings : Settings) (provider : Provider) (s : Local) :
    (∀ request cause, ((engine settings provider).send request s).1 = .error cause →
        Refuses settings provider s request cause ∧
          ((engine settings provider).send request s).2 = s) ∧
      ∀ requests,
        (engine settings provider).sendAll
            (((engine settings provider).granted requests s).map Prod.fst) s =
          (((engine settings provider).granted requests s).map Prod.snd,
            ((engine settings provider).sendAll requests s).2) := by
  refine ⟨fun request cause => refused_of_error, fun requests => ?_⟩
  exact (refusesCleanly settings provider).sendAll_granted requests s

/-- A network that is registered twice, with a read that names nothing in between. -/
theorem refusals_leave_no_trace_network :
    let engine := engine {} Sample.provider
    let network : Request := .register { type := "pkg:index:Network", name := "net" }
    let s := (engine.send network {}).2
    (∃ cause, (engine.send network s).1 = .error cause ∧ (engine.send network s).2 = s) ∧
      (engine.sendAll [network, .read {}, network] {}).2 = s := by
  intro engine network s
  have refused := ((refusals_leave_no_trace {} Sample.provider s).1 network _ rfl).2
  have run := (refusals_leave_no_trace {} Sample.provider {}).2 [network, .read {}, network]
  have granted : (engine.granted [network, .read {}, network] {}).map Prod.fst = [network] := rfl
  rw [granted] at run
  exact ⟨⟨_, rfl, refused⟩, (congrArg Prod.snd run).symm⟩

end Local

end Provision
