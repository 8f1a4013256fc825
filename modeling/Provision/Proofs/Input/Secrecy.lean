import Provision.Deployment.Basic
import Provision.Plain.OfValue
import Provision.Proofs.File.Payload
import Provision.Proofs.Input.Sending

/-!
# Secrets on the wire

Serialization wraps what a known secret output holds, and deserialization reports a secret where it
unwraps one. Two things are lost between them: a secret output whose value is not known is sent as
a bare unknown, and an object that reads as the payload of a file is deserialized as the file,
whatever else it holds. So a secret is reported exactly if a known secret output is reached that
stands in no such object (`secret_reported_iff`).
-/

namespace Provision

namespace Value

mutual

/-- Is a secret unwrapped when the value is deserialized? The payload of a file is not looked
into. -/
def liftsSecret : Value → Bool
  | .array items => liftsSecretItems items
  | .object fields => (File.ofValue? (.object fields)).isNone && liftsSecretFields fields
  | .secret _ => true
  | _ => false

def liftsSecretItems : List Value → Bool
  | [] => false
  | item :: rest => liftsSecret item || liftsSecretItems rest

def liftsSecretFields : List (String × Value) → Bool
  | [] => false
  | (_, value) :: rest => liftsSecret value || liftsSecretFields rest

end

theorem liftsSecretItems_iff {items : List Value} :
    liftsSecretItems items = true ↔ ∃ item ∈ items, item.liftsSecret = true := by
  induction items with
  | nil => simp [liftsSecretItems]
  | cons item rest ih => simp [liftsSecretItems, ih]

theorem liftsSecretFields_iff {fields : List (String × Value)} :
    liftsSecretFields fields = true ↔ ∃ field ∈ fields, field.2.liftsSecret = true := by
  induction fields with
  | nil => simp [liftsSecretFields]
  | cons field rest ih => simp [liftsSecretFields, ih]

/-- Leaving out null fields leaves out no secret. -/
theorem liftsSecretFields_dropNulls (fields : Fields Value) :
    liftsSecretFields (dropNulls fields) = liftsSecretFields fields := by
  rw [Bool.eq_iff_iff, liftsSecretFields_iff, liftsSecretFields_iff]
  constructor
  · rintro ⟨field, member, secret⟩
    exact ⟨field, (List.mem_filter.mp member).1, secret⟩
  · rintro ⟨field, member, secret⟩
    refine ⟨field, List.mem_filter.mpr ⟨member, ?_⟩, secret⟩
    cases value : field.2 with
    | null =>
      rw [value] at secret
      cases secret
    | _ => rfl

end Value

namespace Plain

variable {σ : Type} (resolve : Resolver σ)

mutual

/-- What deserialization reports, however references are resolved. -/
theorem ofValue_isSecret :
    ∀ (value : Value) (s : σ), (ofValue resolve value s).1.isSecret = value.liftsSecret
  | .null, _ | .bool _, _ | .number _, _ | .string _, _ | .unknown, _ | .reference _, _ => rfl
  | .secret content, s => rfl
  | .array items, s => itemsOfValues_isSecret items s
  | .object fields, s => by
    have inner := fieldsOfValues_isSecret fields s
    unfold ofValue Value.liftsSecret
    cases File.ofValue? (.object fields) with
    | some content => rfl
    | none => exact inner

theorem itemsOfValues_isSecret :
    ∀ (items : List Value) (s : σ),
      (itemsOfValues resolve items s).1.isSecret = Value.liftsSecretItems items
  | [], _ => rfl
  | item :: rest, s => by
    have first := ofValue_isSecret item s
    have later := itemsOfValues_isSecret rest (ofValue resolve item s).2
    unfold itemsOfValues Value.liftsSecretItems
    rw [← first, ← later]
    rfl

theorem fieldsOfValues_isSecret :
    ∀ (fields : List (String × Value)) (s : σ),
      (fieldsOfValues resolve fields s).1.isSecret = Value.liftsSecretFields fields
  | [], _ => rfl
  | (key, value) :: rest, s => by
    have first := ofValue_isSecret value s
    have later := fieldsOfValues_isSecret rest (ofValue resolve value s).2
    unfold fieldsOfValues Value.liftsSecretFields
    rw [← first, ← later]
    rfl

end

end Plain

namespace Input

/-- How a secret output stands in a tree. -/
structure Sighting where
  /-- Its value is known. -/
  known : Bool
  /-- No object around it is sent as the payload of a file. -/
  visible : Bool

/-- What is sent keeps secrets and references. -/
def keepAll : EngineFeatures := ⟨true, true⟩

variable {δ : Type} (view : Key → ResourceView) (await : String → δ → Await Serialized)

/-- The object that the fields are sent as is the payload of a file. -/
def SentAsFile (context : String) (fields : List (String × Input δ)) : Prop :=
  ∃ values dependencies,
    serializeFields view keepAll await context fields = .done (values, dependencies) ∧
      (File.ofValue? (.object (Value.dropNulls values))).isSome = true

/-- The serialization of a tree reaches a secret output, which stands there in the given way. A
secret that a deferred output holds is reached through it. -/
inductive ReachesSecret (within : String → δ → Sighting → Prop) :
    String → Input δ → Sighting → Prop where
  | known {context : String} {dependencies : List Key} {value : Input δ} :
      ReachesSecret within context (.known true dependencies value) ⟨true, true⟩
  | unknown {context : String} {dependencies : List Key} :
      ReachesSecret within context (.unknown true dependencies) ⟨false, true⟩
  | content {context : String} {secret : Bool} {dependencies : List Key} {value : Input δ}
      {sighting : Sighting} (part : ReachesSecret within context value sighting) :
      ReachesSecret within context (.known secret dependencies value) sighting
  | item {context : String} {items : List (Input δ)} {index : Nat} {item : Input δ}
      {sighting : Sighting} (member : items[index]? = some item)
      (part : ReachesSecret within (itemContext context index) item sighting) :
      ReachesSecret within context (.array items) sighting
  | field {context : String} {fields : List (String × Input δ)} {key : String} {value : Input δ}
      {sighting : Sighting} (member : (key, value) ∈ fields)
      (part : ReachesSecret within (fieldContext context key) value sighting)
      (plain : ¬ SentAsFile view await context fields) :
      ReachesSecret within context (.object fields) sighting
  | hidden {context : String} {fields : List (String × Input δ)} {key : String} {value : Input δ}
      {known visible : Bool} (member : (key, value) ∈ fields)
      (part : ReachesSecret within (fieldContext context key) value ⟨known, visible⟩)
      (file : SentAsFile view await context fields) :
      ReachesSecret within context (.object fields) ⟨known, false⟩
  | deferred {context : String} {source : δ} {sighting : Sighting}
      (part : within context source sighting) :
      ReachesSecret within context (.deferred source) sighting

variable {view await} {within : String → δ → Sighting → Prop}

/-- The payload of a file holds no secret. -/
theorem file_reports {content : File} {value : Value} (ok : content.toValue = .ok value) :
    value.liftsSecret = false := by
  have read := File.ofValue?_toValue ok
  cases value with
  | object fields =>
    unfold Value.liftsSecret
    rw [read]
    rfl
  | _ => cases read

/-- Neither does a reference. -/
theorem resource_reports {key : Key} {resource : ResourceView} {content : Serialized}
    (sent : serializeResource keepAll key resource = .done content) :
    content.value.liftsSecret = false := by
  obtain ⟨urn, -, sent⟩ := Await.andThen_eq_done sent
  cases urn with
  | none =>
    cases sent
    rfl
  | some urn =>
    dsimp only at sent
    split at sent
    · cases sent
      rfl
    · obtain ⟨id, -, sent⟩ := Await.andThen_eq_done sent
      cases sent
      rfl

/-- What is said about deferred outputs tells what is reported for them. -/
def Reports (await : String → δ → Await Serialized) (within : String → δ → Sighting → Prop) :
    Prop :=
  ∀ context source content, await context source = .done content →
    (content.value.liftsSecret = true ↔ within context source ⟨true, true⟩)

mutual

/-- A secret is reported for what is sent exactly if a known and visible one is reached. -/
theorem serialize_reports (deferred : Reports await within) {content : Serialized} :
    ∀ (tree : Input δ) (context : String),
      serialize view keepAll await context tree = .done content →
        (content.value.liftsSecret = true ↔
          ReachesSecret view await within context tree ⟨true, true⟩)
  | .null, context, sent | .bool _, context, sent | .number _, context, sent
  | .string _, context, sent => by
    unfold serialize at sent
    cases sent
    exact iff_of_false Bool.false_ne_true (by rintro ⟨⟩)
  | .failed _, context, sent => by
    unfold serialize at sent
    cases sent
  | .unknown secret dependencies, context, sent => by
    unfold serialize at sent
    cases sent
    exact iff_of_false Bool.false_ne_true (by rintro ⟨⟩)
  | .file content, context, sent => by
    unfold serialize at sent
    split at sent
    · rename_i value ok
      cases sent
      exact iff_of_false (by simp [Serialized.plain, file_reports ok]) (by rintro ⟨⟩)
    · cases sent
  | .resource key, context, sent => by
    unfold serialize at sent
    exact iff_of_false (by simp [resource_reports sent]) (by rintro ⟨⟩)
  | .deferred source, context, sent => by
    unfold serialize at sent
    refine (deferred context source content sent).trans ⟨.deferred, ?_⟩
    intro reached
    cases reached with
    | deferred part => exact part
  | .known secret dependencies value, context, sent => by
    unfold serialize at sent
    obtain ⟨inner, inside, sent⟩ := Await.andThen_eq_done sent
    cases sent
    have part := serialize_reports deferred value context inside
    cases secret with
    | true => exact iff_of_true rfl .known
    | false =>
      refine part.trans ⟨.content, fun reached => ?_⟩
      cases reached with
      | content inner => exact inner
  | .array items, context, sent => by
    unfold serialize at sent
    obtain ⟨⟨values, dependencies⟩, inside, sent⟩ := Await.andThen_eq_done sent
    cases sent
    have parts := serializeItems_reports deferred items context 0 inside
    simp only [Nat.zero_add] at parts
    refine (Value.liftsSecretItems_iff.trans parts).trans ⟨?_, ?_⟩
    · rintro ⟨index, item, member, part⟩
      exact .item member part
    · intro reached
      cases reached with
      | item member part => exact ⟨_, _, member, part⟩
  | .object fields, context, sent => by
    unfold serialize at sent
    obtain ⟨⟨values, dependencies⟩, inside, sent⟩ := Await.andThen_eq_done sent
    cases sent
    have parts := serializeFields_reports deferred fields context inside
    have whole : (Value.object (Value.dropNulls values)).liftsSecret =
        ((File.ofValue? (.object (Value.dropNulls values))).isNone &&
          Value.liftsSecretFields values) := by
      unfold Value.liftsSecret
      rw [Value.liftsSecretFields_dropNulls]
    have plain : (File.ofValue? (.object (Value.dropNulls values))).isNone = true ↔
        ¬ SentAsFile view await context fields := by
      have sentAsFile : SentAsFile view await context fields ↔
          (File.ofValue? (.object (Value.dropNulls values))).isSome = true := by
        constructor
        · rintro ⟨values', dependencies', again, file⟩
          cases inside.symm.trans again
          exact file
        · exact fun file => ⟨values, dependencies, inside, file⟩
      rw [sentAsFile]
      cases File.ofValue? (.object (Value.dropNulls values)) <;> simp
    rw [whole, Bool.and_eq_true, Value.liftsSecretFields_iff, parts, plain]
    constructor
    · rintro ⟨plain, key, value, member, part⟩
      exact .field member part plain
    · intro reached
      cases reached with
      | field member part plain => exact ⟨plain, _, _, member, part⟩

theorem serializeItems_reports (deferred : Reports await within) {values : List Value}
    {dependencies : List Key} :
    ∀ (items : List (Input δ)) (context : String) (start : Nat),
      serializeItems view keepAll await context start items = .done (values, dependencies) →
        ((∃ value ∈ values, value.liftsSecret = true) ↔ ∃ index item, items[index]? = some item ∧
          ReachesSecret view await within (itemContext context (start + index)) item ⟨true, true⟩)
  | [], context, start, sent => by
    unfold serializeItems at sent
    cases sent
    simp
  | item :: rest, context, start, sent => by
    unfold serializeItems at sent
    obtain ⟨first, head, sent⟩ := Await.andThen_eq_done sent
    obtain ⟨⟨later, keys⟩, tail, sent⟩ := Await.andThen_eq_done sent
    cases sent
    have one := serialize_reports deferred item (itemContext context start) head
    have others := serializeItems_reports deferred rest context (start + 1) tail
    simp only [List.mem_cons, exists_eq_or_imp, one, others]
    constructor
    · rintro (here | ⟨index, found, member, part⟩)
      · exact ⟨0, item, rfl, here⟩
      · refine ⟨index + 1, found, member, ?_⟩
        rwa [Nat.add_assoc, Nat.add_comm 1] at part
    · rintro ⟨index, found, member, part⟩
      cases index with
      | zero =>
        cases member
        exact .inl part
      | succ index =>
        refine .inr ⟨index, found, member, ?_⟩
        rwa [Nat.add_assoc, Nat.add_comm 1]

theorem serializeFields_reports (deferred : Reports await within)
    {values : List (String × Value)} {dependencies : List Key} :
    ∀ (fields : List (String × Input δ)) (context : String),
      serializeFields view keepAll await context fields = .done (values, dependencies) →
        ((∃ value ∈ values, value.2.liftsSecret = true) ↔ ∃ key value, (key, value) ∈ fields ∧
          ReachesSecret view await within (fieldContext context key) value ⟨true, true⟩)
  | [], context, sent => by
    unfold serializeFields at sent
    cases sent
    simp
  | (key, value) :: rest, context, sent => by
    unfold serializeFields at sent
    obtain ⟨first, head, sent⟩ := Await.andThen_eq_done sent
    obtain ⟨⟨later, keys⟩, tail, sent⟩ := Await.andThen_eq_done sent
    cases sent
    have one := serialize_reports deferred value (fieldContext context key) head
    have others := serializeFields_reports deferred rest context tail
    simp only [List.mem_cons, exists_eq_or_imp, one, others]
    constructor
    · rintro (here | ⟨name, field, member, part⟩)
      · exact ⟨key, value, .inl rfl, here⟩
      · exact ⟨name, field, .inr member, part⟩
    · rintro ⟨name, field, same | member, part⟩
      · cases same
        exact .inl part
      · exact .inr ⟨name, field, member, part⟩

end

end Input

namespace Deployment

open Input

/-- What a deferred output holds, if it is settled, is a tree without deferred outputs. -/
def HoldsSecret (d : Deployment) (context : String) (source : Source) (sighting : Sighting) :
    Prop :=
  ∃ result, d.graph.peek source = some result ∧
    Input.ReachesSecret d.view (fun _ (source : Empty) => nomatch source)
      (fun _ source _ => nomatch source) context (ofHostSettled result) sighting

/-- The serialization of an argument reaches a secret output. -/
def ReachesSecret (d : Deployment) (context : String) (tree : Argument) (sighting : Sighting) :
    Prop :=
  Input.ReachesSecret d.view (d.awaitSource keepAll) d.HoldsSecret context tree sighting

theorem awaitSource_reports (d : Deployment) : Reports (d.awaitSource keepAll) d.HoldsSecret := by
  intro context source content sent
  have nothing : Reports (fun _ (source : Empty) => nomatch source)
      (fun _ source _ => nomatch source) := fun _ source => nomatch source
  unfold awaitSource at sent
  cases peeked : d.graph.peek source with
  | none =>
    rw [peeked] at sent
    cases sent
  | some result =>
    rw [peeked] at sent
    refine (serialize_reports nothing (ofHostSettled result) context sent).trans ⟨?_, ?_⟩
    · exact fun reached => ⟨result, peeked, reached⟩
    · rintro ⟨result', again, reached⟩
      cases peeked.symm.trans again
      exact reached

/-- When an argument has been sent, with secrets and references kept, and is read back, a secret
is reported exactly if the serialization has reached a secret output with a known value that no
object around it, sent as the payload of a file, hides. -/
theorem secret_reported_iff (d : Deployment) {context : String} {tree : Argument}
    {content : Serialized}
    (sent : Input.serialize d.view keepAll (d.awaitSource keepAll) context tree = .done content)
    {σ : Type} (resolve : Plain.Resolver σ) (s : σ) :
    (Plain.ofValue resolve content.value s).1.isSecret = true ↔
      d.ReachesSecret context tree ⟨true, true⟩ := by
  rw [Plain.ofValue_isSecret]
  exact serialize_reports d.awaitSource_reports tree context sent

/-- A secret output among the fields of an object. -/
theorem secret_reported_iff_password :
    let d : Deployment := {}
    let tree : Argument := .object [("password", .known true [] (.string "1234"))]
    ∃ content, Input.serialize d.view keepAll (d.awaitSource keepAll) "args" tree = .done content ∧
      (Plain.ofValue referenceResource content.value d).1.isSecret = true ∧
      d.ReachesSecret "args" tree ⟨true, true⟩ := by
  intro d tree
  have sent : Input.serialize d.view keepAll (d.awaitSource keepAll) "args" tree =
      .done ⟨.object [("password", .secret (.string "1234"))], []⟩ := by
    rfl
  exact ⟨_, sent, rfl, (secret_reported_iff d sent referenceResource d).mp rfl⟩

/-- A secret that is not known yet, and a secret beside the path of an asset, are sent and not
reported. -/
theorem secret_lost :
    let d : Deployment := {}
    let unknown : Argument := .unknown true []
    let asset : Argument := .object
      [(Signature.key, .string Signature.asset), ("note", .known true [] (.string "1234")),
        ("path", .string "x.txt")]
    ∀ tree, tree = unknown ∨ tree = asset →
      ∃ content sighting,
        Input.serialize d.view keepAll (d.awaitSource keepAll) "args" tree = .done content ∧
          d.ReachesSecret "args" tree sighting ∧
          (Plain.ofValue referenceResource content.value d).1.isSecret = false := by
  intro d unknown asset tree which
  rcases which with rfl | rfl
  · exact ⟨⟨.unknown, []⟩, ⟨false, true⟩, rfl, .unknown, rfl⟩
  · have note : ("note", .known true [] (.string "1234")) ∈
        [(Signature.key, .string Signature.asset), ("note", .known true [] (.string "1234")),
          ("path", (.string "x.txt" : Argument))] := List.mem_cons_of_mem _ List.mem_cons_self
    have file : SentAsFile d.view (d.awaitSource keepAll) "args"
        [(Signature.key, .string Signature.asset), ("note", .known true [] (.string "1234")),
          ("path", .string "x.txt")] := ⟨_, _, rfl, rfl⟩
    exact ⟨_, ⟨true, false⟩, rfl, .hidden note .known file, rfl⟩

end Deployment

end Provision
