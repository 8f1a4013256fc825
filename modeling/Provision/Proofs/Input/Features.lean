import Provision.Deployment.Basic
import Provision.Proofs.File.Payload

/-!
# What an engine without a feature is sent

An engine that does not know secrets, or references to resources, is sent the same tree in another
form. The form follows from the full one alone: where a feature is missing, its values are replaced
by what they stand for (`Value.erase`), inside objects, arrays and other secrets alike. Whether the
tree is sent, what fails, and which resources it depends on is the same for all engines
(`Deployment.sent_by_features`).

The null entries of objects are why this needs an argument: they are left out before an object is
sent, and the content of a secret may be null. And a known id that is empty would be sent as the
mark of an unknown one, so ids must not be.
-/

namespace Provision

namespace Await

variable {α β γ : Type}

def map (f : α → β) : Await α → Await β
  | .pending => .pending
  | .failed cause => .failed cause
  | .done a => .done (f a)

theorem map_map (x : Await α) (f : α → β) (g : β → γ) :
    (x.map f).map g = x.map fun a => g (f a) := by
  cases x <;> rfl

theorem map_eq_done {x : Await α} {f : α → β} {b : β} (done : x.map f = .done b) :
    ∃ a, x = .done a ∧ f a = b := by
  cases x with
  | pending => cases done
  | failed cause => cases done
  | done a =>
    cases done
    exact ⟨a, rfl, rfl⟩

theorem andThen_map (x : Await α) (f : α → β) (g : β → Await γ) :
    (x.map f).andThen g = x.andThen fun a => g (f a) := by
  cases x <;> rfl

/-- A change of what follows is a change of the whole. -/
theorem andThen_eq_map {x : Await α} {f : β → γ} {after : α → Await β} {after' : α → Await γ}
    (each : ∀ a, after' a = (after a).map f) : x.andThen after' = (x.andThen after).map f := by
  cases x with
  | pending => rfl
  | failed cause => rfl
  | done a => exact each a

end Await

namespace EngineFeatures

def without (features lost : EngineFeatures) : EngineFeatures :=
  ⟨features.resources && !lost.resources, features.secrets && !lost.secrets⟩

theorem without_secrets (resources : Bool) :
    without ⟨resources, true⟩ ⟨false, true⟩ = ⟨resources, false⟩ := by simp [without]

theorem without_resources (secrets : Bool) :
    without ⟨true, secrets⟩ ⟨true, false⟩ = ⟨false, secrets⟩ := by simp [without]

end EngineFeatures

namespace Reference

/-- What the reference stands for: the id, unknown if it is empty, and the URN if there is none. -/
def plain (target : Reference) : Value :=
  match target.id with
  | none => .string target.urn
  | some id => if id = "" then .unknown else .string id

end Reference

namespace Value

mutual

/-- The value for an engine that has lost features: secrets are replaced by their contents, and
references by what they stand for. An entry of an object that becomes null is dropped. -/
def erase (lost : EngineFeatures) : Value → Value
  | .array items => .array (eraseItems lost items)
  | .object fields => .object (eraseFields lost fields)
  | .secret content => if lost.secrets then erase lost content else .secret (erase lost content)
  | .reference target => if lost.resources then target.plain else .reference target
  | value => value

def eraseItems (lost : EngineFeatures) : List Value → List Value
  | [] => []
  | item :: rest => erase lost item :: eraseItems lost rest

def eraseFields (lost : EngineFeatures) : List (String × Value) → List (String × Value)
  | [] => []
  | (key, value) :: rest =>
    if (erase lost value).isNull && !value.isNull then eraseFields lost rest
    else (key, erase lost value) :: eraseFields lost rest

end

def eraseSecrets : Value → Value := erase { resources := false, secrets := true }

def eraseReferences : Value → Value := erase { resources := true, secrets := false }

/-- No reference stands for null, so erasing references drops no entry of an object. -/
theorem eraseReferences_object (fields : List (String × Value)) :
    (object fields).eraseReferences =
      .object (fields.map fun field => (field.1, field.2.eraseReferences)) := by
  have null (value : Value) : value.eraseReferences.isNull = value.isNull := by
    cases value with
    | reference target =>
      unfold eraseReferences erase Reference.plain
      cases target.id with
      | none => rfl
      | some id => by_cases empty : id = "" <;> simp [empty, isNull]
    | _ => rfl
  unfold eraseReferences at null ⊢
  change object (eraseFields _ fields) = _
  congr 1
  induction fields with
  | nil => rfl
  | cons field rest ih =>
    obtain ⟨key, value⟩ := field
    simp [eraseFields, null, ih]

mutual

/-- No secret is left. -/
theorem hasSecret_eraseSecrets : ∀ value : Value, value.eraseSecrets.hasSecret = false
  | .null | .bool _ | .number _ | .string _ | .unknown | .reference _ => rfl
  | .secret content => hasSecret_eraseSecrets content
  | .array items => hasSecretItems_eraseSecrets items
  | .object fields => hasSecretFields_eraseSecrets fields

theorem hasSecretItems_eraseSecrets : ∀ items : List Value,
    hasSecretItems (eraseItems { resources := false, secrets := true } items) = false
  | [] => rfl
  | item :: rest => by
    have head := hasSecret_eraseSecrets item
    have tail := hasSecretItems_eraseSecrets rest
    simp_all [eraseItems, hasSecretItems, eraseSecrets]

theorem hasSecretFields_eraseSecrets : ∀ fields : List (String × Value),
    hasSecretFields (eraseFields { resources := false, secrets := true } fields) = false
  | [] => rfl
  | (key, value) :: rest => by
    have head := hasSecret_eraseSecrets value
    have tail := hasSecretFields_eraseSecrets rest
    unfold eraseFields
    split
    · exact tail
    · simp_all [hasSecretFields, eraseSecrets]

end

variable (lost : EngineFeatures)

/-- Null stays null. -/
theorem isNull_erase {value : Value} (null : value.isNull = true) :
    (value.erase lost).isNull = true := by
  cases value with
  | null => rfl
  | _ => cases null

/-- Null entries may be dropped before and after, or after only. -/
theorem eraseFields_dropNulls (fields : Fields Value) :
    eraseFields lost (dropNulls fields) =
      dropNulls (fields.map fun field => (field.1, erase lost field.2)) := by
  induction fields with
  | nil => rfl
  | cons field rest ih =>
    obtain ⟨key, value⟩ := field
    unfold dropNulls at ih ⊢
    by_cases null : value.isNull = true
    · simp [null, isNull_erase lost null, ih]
    · by_cases gone : (erase lost value).isNull = true <;> simp [null, gone, eraseFields, ih]

end Value

namespace File

variable (lost : EngineFeatures)

mutual

/-- The payload of a file holds nothing that an engine may not know. -/
theorem erase_toValue {file : File} {value : Value} (ok : file.toValue = .ok value) :
    value.erase lost = value := by
  cases file with
  | asset content =>
    cases content with
    | invalid => cases ok
    | _ =>
      cases ok
      rfl
  | archiveInvalid => cases ok
  | archiveEntries entries =>
    unfold toValue at ok
    obtain ⟨fields, inner, ok⟩ := bind_ok ok
    cases ok
    have same := eraseFields_entriesToFields inner
    simp [payload, Value.erase, Value.eraseFields, Value.isNull, same]
  | _ =>
    cases ok
    rfl

theorem eraseFields_entriesToFields {entries : List (String × File)}
    {fields : List (String × Value)} (ok : entriesToFields entries = .ok fields) :
    Value.eraseFields lost fields = fields := by
  cases entries with
  | nil =>
    cases ok
    rfl
  | cons entry rest =>
    obtain ⟨name, file⟩ := entry
    unfold entriesToFields at ok
    obtain ⟨value, first, ok⟩ := bind_ok ok
    obtain ⟨values, later, ok⟩ := bind_ok ok
    cases ok
    have head := erase_toValue first
    have tail := eraseFields_entriesToFields later
    simp [Value.eraseFields, head, tail]

end

end File

/-- The value without what an engine does not know, and the same dependencies. -/
def Serialized.erase (lost : EngineFeatures) (content : Serialized) : Serialized :=
  ⟨content.value.erase lost, content.dependencies⟩

namespace Input

/-- No id that is known is empty. -/
def NoEmptyId (view : Key → ResourceView) : Prop :=
  ∀ key id, (view key).id = some (.done (some id)) → id ≠ ""

variable {δ : Type}

/-- What a deferred output holds comes without the values of lost features. -/
def Erases (lost : EngineFeatures) (fuller lesser : String → δ → Await Serialized) : Prop :=
  ∀ context source, lesser context source = (fuller context source).map (Serialized.erase lost)

variable {view : Key → ResourceView} {fuller lesser : String → δ → Await Serialized}
variable {lost kept : EngineFeatures}

theorem wrapOutput_without (secret : Bool) (dependencies : List Key) (content : Serialized) :
    wrapOutput (kept.without lost) secret dependencies (content.erase lost) =
      (wrapOutput kept secret dependencies content).erase lost := by
  cases secret <;> cases h : kept.secrets <;> cases h' : lost.secrets <;>
    simp [wrapOutput, Serialized.erase, EngineFeatures.without, Value.erase, h, h']

/-- A reference, or what it stands for. -/
theorem reference_without (target : Reference) {plain : Value} (same : target.plain = plain)
    (keys : List Key) :
    .done ⟨if (kept.without lost).resources then .reference target else plain, keys⟩ =
      (Await.done ⟨if kept.resources then .reference target else plain, keys⟩).map
        (Serialized.erase lost) := by
  have bare : plain.erase lost = plain := by
    subst same
    unfold Reference.plain
    split
    · rfl
    · split <;> rfl
  cases h : kept.resources <;> cases h' : lost.resources <;>
    simp [Await.map, Serialized.erase, EngineFeatures.without, Value.erase, same, bare, h, h']

theorem serializeResource_without (ids : NoEmptyId view) (key : Key) :
    serializeResource (kept.without lost) key (view key) =
      (serializeResource kept key (view key)).map (Serialized.erase lost) := by
  refine Await.andThen_eq_map fun urn => ?_
  cases urn with
  | none => rfl
  | some urn =>
    cases id : (view key).id with
    | none => exact reference_without ⟨urn, none, (view key).packageVersion⟩ rfl [key]
    | some await =>
      cases await with
      | pending => rfl
      | failed cause => rfl
      | done known =>
        cases known with
        | none => exact reference_without ⟨urn, some "", (view key).packageVersion⟩ rfl [key]
        | some known =>
          exact reference_without ⟨urn, some known, (view key).packageVersion⟩
            (if_neg (ids key known id)) [key]

mutual

/-- A tree for an engine that has lost features is the full one without their values, if that is
so for what its deferred outputs hold. -/
theorem serialize_without (ids : NoEmptyId view) (deferred : Erases lost fuller lesser) :
    ∀ (tree : Input δ) (context : String),
      serialize view (kept.without lost) lesser context tree =
        (serialize view kept fuller context tree).map (Serialized.erase lost)
  | .null, _ | .bool _, _ | .number _, _ | .string _, _ | .failed _, _ | .unknown _ _, _ => rfl
  | .file content, context => by
    unfold serialize
    cases ok : content.toValue with
    | error cause => rfl
    | ok value =>
      have same := File.erase_toValue lost ok
      simp [Await.map, Serialized.erase, Serialized.plain, same]
  | .resource key, context => serializeResource_without ids key
  | .deferred source, context => deferred context source
  | .known secret dependencies value, context => by
    have inner := serialize_without ids deferred value context
    unfold serialize
    rw [inner, Await.andThen_map]
    exact Await.andThen_eq_map fun content =>
      congrArg Await.done (wrapOutput_without secret _ content)
  | .array items, context => by
    have inner := serializeItems_without ids deferred items context 0
    unfold serialize
    rw [inner, Await.andThen_map]
    exact Await.andThen_eq_map fun _ => rfl
  | .object fields, context => by
    have inner := serializeFields_without ids deferred fields context
    unfold serialize
    rw [inner, Await.andThen_map]
    refine Await.andThen_eq_map fun content => ?_
    have dropped := Value.eraseFields_dropNulls lost content.1
    simp [Await.map, Serialized.erase, Value.erase, dropped]

theorem serializeItems_without (ids : NoEmptyId view) (deferred : Erases lost fuller lesser) :
    ∀ (items : List (Input δ)) (context : String) (index : Nat),
      serializeItems view (kept.without lost) lesser context index items =
        (serializeItems view kept fuller context index items).map fun sent =>
          (Value.eraseItems lost sent.1, sent.2)
  | [], _, _ => rfl
  | item :: rest, context, index => by
    have head := serialize_without ids deferred item (itemContext context index)
    have tail := serializeItems_without ids deferred rest context (index + 1)
    unfold serializeItems
    rw [head, tail, Await.andThen_map]
    refine Await.andThen_eq_map fun first => ?_
    rw [Await.andThen_map]
    exact Await.andThen_eq_map fun _ => rfl

theorem serializeFields_without (ids : NoEmptyId view) (deferred : Erases lost fuller lesser) :
    ∀ (fields : List (String × Input δ)) (context : String),
      serializeFields view (kept.without lost) lesser context fields =
        (serializeFields view kept fuller context fields).map fun sent =>
          (sent.1.map fun field => (field.1, field.2.erase lost), sent.2)
  | [], _ => rfl
  | (key, field) :: rest, context => by
    have head := serialize_without ids deferred field (fieldContext context key)
    have tail := serializeFields_without ids deferred rest context
    unfold serializeFields
    rw [head, tail, Await.andThen_map]
    refine Await.andThen_eq_map fun first => ?_
    rw [Await.andThen_map]
    exact Await.andThen_eq_map fun _ => rfl

end

end Input

/-- Properties without what an engine does not know, each with the same dependencies. -/
def SerializedProperties.erase (lost : EngineFeatures) (properties : SerializedProperties) :
    SerializedProperties :=
  ⟨Value.eraseFields lost properties.object, properties.propertyDependencies⟩

/-- A property that becomes null is dropped, and its dependencies stay. -/
theorem SerializedProperties.erase_cons (lost : EngineFeatures) (key : String)
    (property : Serialized) (rest : SerializedProperties) :
    (rest.erase lost).cons key (property.erase lost) = (rest.cons key property).erase lost := by
  by_cases null : property.value.isNull = true
  · simp [cons, erase, Serialized.erase, null, Value.isNull_erase lost null]
  · by_cases gone : (property.value.erase lost).isNull = true <;>
      simp [cons, erase, Serialized.erase, Value.eraseFields, null, gone]

/-- Properties for an engine that has lost features. -/
theorem Input.serializeProperties_without {δ : Type} {view : Key → ResourceView}
    {fuller lesser : String → δ → Await Serialized} {lost kept : EngineFeatures}
    (ids : NoEmptyId view) (deferred : Erases lost fuller lesser)
    (properties : Fields (Input δ)) (context : String) :
    serializeProperties view (kept.without lost) lesser context properties =
      (serializeProperties view kept fuller context properties).map
        (SerializedProperties.erase lost) := by
  induction properties with
  | nil => rfl
  | cons property rest ih =>
    obtain ⟨key, tree⟩ := property
    unfold serializeProperties
    rw [serialize_without ids deferred tree, ih, Await.andThen_map]
    refine Await.andThen_eq_map fun first => ?_
    rw [Await.andThen_map]
    exact Await.andThen_eq_map fun later =>
      congrArg Await.done (SerializedProperties.erase_cons lost key first later)

end Provision
