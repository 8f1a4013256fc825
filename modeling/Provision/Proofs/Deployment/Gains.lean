import Provision.Deployment.Call
import Provision.Proofs.Plain.Resolving
import Provision.Proofs.Resource.Insertion
import Provision.Proofs.Shape.Soundness

/-!
# What reading an engine's answer changes

Converting values and resolving URNs may construct resources that stand for those the engine
names, and reports warnings. It leaves the outputs and the tasks of a deployment alone, and every
resource that was there keeps its identity (`Gains`). Conversion to a type whose shape was
validated does not fail (`convert_of_valid`).
-/

namespace Provision

/-- The shape of the type is valid, in whatever context it is checked. -/
def Schema.Valid (schema : Schema) : Prop :=
  ∀ context, Shape.validate schema.records.shapes schema.type.shape context = .ok ()

namespace Deployment

/-- `after` is `before` with resources constructed, URNs indexed and warnings reported. -/
structure Gains (before after : Deployment) : Prop where
  graph : after.graph = before.graph
  tasks : after.tasks = before.tasks
  identities : ∀ key identity, before.arena.identity? key = some identity →
    after.arena.identity? key = some identity

namespace Gains

theorem refl (d : Deployment) : Gains d d := ⟨rfl, rfl, fun _ _ h => h⟩

theorem trans {d₁ d₂ d₃ : Deployment} (h : Gains d₁ d₂) (h' : Gains d₂ d₃) : Gains d₁ d₃ :=
  ⟨h'.graph.trans h.graph, h'.tasks.trans h.tasks,
    fun key identity hk => h'.identities key identity (h.identities key identity hk)⟩

end Gains

theorem warn_gains (messages : List String) (d : Deployment) : Gains d (d.warn messages) :=
  ⟨rfl, rfl, fun _ _ h => h⟩

theorem insertDependency_gains (d : Deployment) (urn : String) (id : Option String)
    (packageVersion : Option String) :
    Gains d (d.insertDependency urn id packageVersion).2 := by
  refine ⟨rfl, rfl, fun key identity h => ?_⟩
  unfold insertDependency
  dsimp only
  rw [Arena.identity?_recordUrn]
  exact Arena.identity?_insert _ _ h

theorem dependencyResource_gains (urn : String) (d : Deployment) :
    Gains d (d.dependencyResource urn).2 :=
  insertDependency_gains d urn none none

theorem referenceResource_gains (reference : Reference) (d : Deployment) :
    Gains d (d.referenceResource reference).2 := by
  unfold referenceResource
  dsimp only
  split
  · exact .refl d
  · exact insertDependency_gains d _ _ _

theorem resourceForUrn_gains (urn : String) (d : Deployment) :
    Gains d (d.resourceForUrn urn).2 := by
  unfold resourceForUrn
  split
  · exact .refl d
  · exact dependencyResource_gains urn d

theorem resourcesForUrns_gains (urns : List String) (d : Deployment) :
    Gains d (d.resourcesForUrns urns).2 := by
  induction urns generalizing d with
  | nil => exact .refl d
  | cons urn rest ih => exact (resourceForUrn_gains urn d).trans (ih _)

/-- Reading a value resolves its references and changes nothing else. -/
theorem ofValue_gains (value : Value) (d : Deployment) :
    Gains d (Plain.ofValue referenceResource value d).2 :=
  Plain.ofValue_preserves (P := Gains d)
    (fun r s h => h.trans (referenceResource_gains r s)) value d (.refl d)

theorem convert_gains (schema : Schema) (context : String) (dependencies : List Key)
    (value : Value) (d : Deployment) :
    Gains d (d.convert schema context dependencies value).2 := by
  unfold convert HostType.convertValue
  split
  · exact .refl d
  · exact ofValue_gains value d

theorem convert_of_valid {schema : Schema} (valid : schema.Valid) (context : String)
    (dependencies : List Key) (value : Value) (d : Deployment) :
    ∃ converted, (d.convert schema context dependencies value).1 = .ok converted ∧
      ∀ c, converted = some c → c.data.dependencies = dependencies := by
  unfold convert HostType.convertValue
  rw [valid context]
  refine ⟨_, rfl, ?_⟩
  intro c hc
  unfold HostType.convertLifted at hc
  split at hc
  · split at hc
    · cases hc
    · cases hc
      rfl
  · cases hc
    rfl

end Deployment

end Provision
