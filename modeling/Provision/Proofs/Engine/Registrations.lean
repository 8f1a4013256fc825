import Provision.Proofs.Engine.Serving

/-!
# What stays of a registration

Where a local engine has stored a resource, a request changes it only by adopting another one under
the same URN (`Serves.lookup`), for a registration looks whether the URN is taken, and nothing is
ever removed. So what a registration has stored stays, whatever is requested later, exactly as long
as nothing is adopted under its URN (`registration_kept_iff`). An adoption does not look whether the
URN is taken: `adoption_displaces_registered`.
-/

namespace Provision.Local

variable {settings : Settings} {provider : Provider} {s t : Local}

theorem lookup_store (resource : StoredResource) (s : Local) (urn : String) :
    (s.store resource).inventory.resources.lookup urn =
      if urn = resource.urn then some resource else s.inventory.resources.lookup urn :=
  Fields.lookup_set _ _ _ _

theorem lookup_of_free {urn : String} (free : s.inventory.resources.has urn = false) :
    s.inventory.resources.lookup urn = none :=
  Option.isNone_iff_eq_none.mp (Option.isSome_eq_false_iff.mp free)

/-- The request makes the engine adopt a resource under the URN. -/
def AdoptsUnder (settings : Settings) (urn : String) (request : Request) (s : Local) : Prop :=
  ∃ r, request = .read r ∧ Adopts r s ∧ (adopted settings r).urn = urn

/-- Where a resource is stored, a request that makes the engine adopt one puts the new one into its
place, and any other request leaves it. -/
theorem Serves.lookup {request : Request} {answer : Except Failure Response}
    (served : Serves settings provider s request answer t) {urn : String}
    {resource : StoredResource} (stored : s.inventory.resources.lookup urn = some resource) :
    (AdoptsUnder settings urn request s ∧
        ∃ r, t.inventory.resources.lookup urn = some (adopted settings r)) ∨
      ¬ AdoptsUnder settings urn request s ∧ t.inventory.resources.lookup urn = some resource := by
  cases served with
  | refuses request cause reason =>
    refine .inr ⟨?_, stored⟩
    rintro ⟨r, rfl, adopts, -⟩
    cases reason with
    | missing _ byUrn _ => exact byUrn adopts.noUrn
    | nameless _ _ noId => exact adopts.id noId
  | registers r outputs free made =>
    have different : urn ≠ Local.urn settings r.type r.name r.parent := by
      rintro rfl
      cases stored.symm.trans (lookup_of_free free)
    refine .inr ⟨by rintro ⟨_, ⟨⟩, -⟩, ?_⟩
    exact (lookup_store _ s urn).trans ((if_neg different).trans stored)
  | finds r found known =>
    refine .inr ⟨?_, stored⟩
    rintro ⟨_, ⟨⟩, adopts, -⟩
    rw [if_pos adopts.noUrn, adopts.unknown] at known
    cases known
  | adopts r adopts =>
    by_cases same : urn = (adopted settings r).urn
    · exact .inl ⟨⟨r, rfl, adopts, same.symm⟩, r, (lookup_store _ s urn).trans (if_pos same)⟩
    · refine .inr ⟨?_, (lookup_store _ s urn).trans ((if_neg same).trans stored)⟩
      rintro ⟨_, ⟨⟩, -, under⟩
      exact same under.symm
  | _ => exact .inr ⟨by rintro ⟨_, ⟨⟩, -⟩, stored⟩

/-- In the course of the requests a resource is adopted under the URN. -/
def Adoption (settings : Settings) (provider : Provider) (urn : String) (requests : List Request)
    (s : Local) : Prop :=
  Occurs settings provider (AdoptsUnder settings urn) requests s

/-- What was adopted is displaced by what is adopted later, and by nothing else. -/
theorem external_after {urn : String} {resource : StoredResource} (requests : List Request)
    (stored : s.inventory.resources.lookup urn = some resource)
    (external : resource.external = true) :
    ∃ now, (after settings provider requests s).inventory.resources.lookup urn = some now ∧
      now.external = true := by
  induction requests generalizing s resource with
  | nil => exact ⟨resource, stored, external⟩
  | cons request rest ih =>
    rcases (serves_send settings provider request s).lookup stored with ⟨-, r, adopted⟩ | ⟨-, kept⟩
    · exact ih adopted rfl
    · exact ih kept external

/-- A resource that was not adopted is stored under its URN until one is adopted there; then an
adopted one is. -/
theorem lookup_after {urn : String} {resource : StoredResource} (requests : List Request)
    (stored : s.inventory.resources.lookup urn = some resource) :
    (Adoption settings provider urn requests s ∧
        ∃ now, (after settings provider requests s).inventory.resources.lookup urn = some now ∧
          now.external = true) ∨
      ¬ Adoption settings provider urn requests s ∧
        (after settings provider requests s).inventory.resources.lookup urn = some resource := by
  induction requests generalizing s with
  | nil => exact .inr ⟨not_occurs_nil, stored⟩
  | cons request rest ih =>
    rw [Adoption, occurs_cons, not_or]
    rcases (serves_send settings provider request s).lookup stored with
      ⟨adopts, r, adopted⟩ | ⟨not, kept⟩
    · exact .inl ⟨.inl adopts, external_after rest adopted rfl⟩
    · rcases ih kept with ⟨later, now⟩ | ⟨never, now⟩
      · exact .inl ⟨.inr later, now⟩
      · exact .inr ⟨⟨not, never⟩, now⟩

/-- What a registration that is granted answers and stores. -/
theorem stored_of_registered {r : RegisterRequest} {response : RegisterResponse}
    (granted : ((engine settings provider).send (.register r) s).1 = .ok (.register response)) :
    response.urn = urn settings r.type r.name r.parent ∧ response.id = s.newId settings r ∧
      (after settings provider [.register r] s).inventory.resources.lookup response.urn =
        some (registered settings r response.id response.object) := by
  have served := serves_send settings provider (.register r) s
  rw [granted] at served
  show _ ∧ _ ∧ ((engine settings provider).send (.register r) s).2.inventory.resources.lookup _ = _
  generalize ((engine settings provider).send (.register r) s).2 = t at served ⊢
  cases served with
  | registers _ outputs free made =>
    exact ⟨rfl, rfl, (lookup_store _ s _).trans (if_pos rfl)⟩

/-- When a registration has been answered with a URN, then under it the resource is stored as it was
registered: type, name, id, parent, provider, dependencies and outputs, and that it was not read.
After any later requests there still is a resource under the URN, and it is this one exactly if
none of the requests has made the engine adopt a resource under the URN. -/
theorem registration_kept_iff (settings : Settings) (provider : Provider) (s : Local)
    (r : RegisterRequest) {response : RegisterResponse}
    (granted : ((engine settings provider).send (.register r) s).1 = .ok (.register response))
    (later : List Request) :
    let registration := registered settings r response.id response.object
    let before := after settings provider [.register r] s
    let now := after settings provider later before
    response.urn = urn settings r.type r.name r.parent ∧
      before.inventory.resources.lookup response.urn = some registration ∧
      now.inventory.resources.has response.urn = true ∧
      (now.inventory.resources.lookup response.urn = some registration ↔
        ¬ Adoption settings provider response.urn later before) := by
  intro registration before now
  obtain ⟨named, -, stored⟩ := stored_of_registered granted
  refine ⟨named, stored, ?_⟩
  unfold Fields.has
  rcases lookup_after later stored with ⟨adoption, other, there, external⟩ | ⟨never, there⟩
  · rw [there]
    refine ⟨rfl, iff_of_false ?_ (not_not_intro adoption)⟩
    rintro ⟨rfl⟩
    cases external
  · rw [there]
    exact ⟨rfl, iff_of_true rfl never⟩

def thing : RegisterRequest := { type := "pkg:index:Thing", name := "thing", custom := true }

def thingById (name id : String) : ReadRequest := { type := "pkg:index:Thing", name, id }

/-- The thing stays, although it is registered once more and another thing is adopted. -/
theorem registration_kept_iff_thing :
    let before := after {} Sample.provider [.register thing] {}
    let later : List Request := [.register thing, .read (thingById "other" "ext-7")]
    ∃ response,
      ((engine {} Sample.provider).send (.register thing) {}).1 = .ok (.register response) ∧
        (after {} Sample.provider later before).inventory.resources.lookup response.urn =
          some (registered {} thing response.id response.object) := by
  intro before later
  refine ⟨_, rfl, (registration_kept_iff {} Sample.provider {} thing rfl later).2.2.2.mpr ?_⟩
  rw [Adoption, occurs_cons, occurs_cons]
  rintro (⟨r, ⟨⟩, -⟩ | ⟨r, ⟨⟩, -, under⟩ | nothing)
  · exact absurd under (by decide)
  · exact not_occurs_nil nothing

/-- A thing that is adopted under the URN of a registered one takes its place. -/
theorem adoption_displaces_registered :
    let before := after {} Sample.provider [.register thing] {}
    let now := after {} Sample.provider [.read (thingById "thing" "ext-7")] before
    ∃ response registration adoption,
      ((engine {} Sample.provider).send (.register thing) {}).1 = .ok (.register response) ∧
        before.inventory.resources.lookup response.urn = some registration ∧
        now.inventory.resources.lookup response.urn = some adoption ∧
        registration.external = false ∧ registration.id = "thing-1" ∧
        adoption.external = true ∧ adoption.id = "ext-7" :=
  ⟨_, _, _, rfl, rfl, rfl, rfl, rfl, rfl, rfl⟩

end Provision.Local
