import Mathlib.Data.List.TFAE
import Mathlib.Tactic.TFAE
import Provision.Message.Document
import Provision.Proofs.Json.Codec
import Provision.Proofs.Value.Canonical

/-!
# Messages that are read back

Of every message the plain parts are read back from its document, and each property on its own,
whatever its key (`decode_properties`): a property map is never taken for a special object, not
even if it has the key of a signature. So a message comes back as it was exactly if each of its
properties does (`payloads_read_back`).
-/

namespace Provision

/-- The properties that are read from the document of the given ones. -/
def reread (properties : Properties) : Properties :=
  properties.map fun p => (p.1, Value.ofJson p.2.toJson)

@[simp]
theorem decode_properties (properties : Properties) :
    decode (encode properties) = some (reread properties) :=
  Codec.decode_fields (f := fun value => Value.ofJson value.toJson) (fun _ => rfl) properties

@[simp ↓]
theorem decode_properties_bind {β : Type} (properties : Properties)
    (next : Properties → Option β) :
    decode (encode properties) >>= next = next (reread properties) := by
  rw [decode_properties, Option.bind_eq_bind, Option.bind_some]

/-! ### Messages without properties -/

instance : LawfulCodec CheckFailure where
  decode_encode r := by
    delta instCodecCheckFailure
    dsimp only
    simp

instance : LawfulCodec FeatureRequest where
  decode_encode r := by
    delta instCodecFeatureRequest
    dsimp only
    simp

instance : LawfulCodec FeatureResponse where
  decode_encode r := by
    delta instCodecFeatureResponse
    dsimp only
    simp

instance : LawfulCodec Parameterization where
  decode_encode r := by
    delta instCodecParameterization
    dsimp only
    simp

instance : LawfulCodec (Option Parameterization) :=
  ⟨Codec.decode_option fun _ null => by cases null⟩

instance : LawfulCodec PackageRequest where
  decode_encode r := by
    delta instCodecPackageRequest
    dsimp only
    simp

instance : LawfulCodec PackageResponse where
  decode_encode r := by
    delta instCodecPackageResponse
    dsimp only
    simp

/-! ### Messages with properties -/

theorem RegisterRequest.decode_encode (r : RegisterRequest) :
    decode (encode r) = some { r with object := reread r.object } := by
  delta instCodecRegisterRequest
  dsimp only
  simp

theorem RegisterResponse.decode_encode (r : RegisterResponse) :
    decode (encode r) = some { r with object := reread r.object } := by
  delta instCodecRegisterResponse
  dsimp only
  simp

theorem ReadRequest.decode_encode (r : ReadRequest) :
    decode (encode r) = some { r with properties := reread r.properties } := by
  delta instCodecReadRequest
  dsimp only
  simp

theorem ReadResponse.decode_encode (r : ReadResponse) :
    decode (encode r) = some { r with properties := reread r.properties } := by
  delta instCodecReadResponse
  dsimp only
  simp

theorem CallRequest.decode_encode (r : CallRequest) :
    decode (encode r) = some { r with args := reread r.args } := by
  delta instCodecCallRequest
  dsimp only
  simp

theorem CallResponse.decode_encode (r : CallResponse) :
    decode (encode r) = some { r with returnValues := reread r.returnValues } := by
  delta instCodecCallResponse
  dsimp only
  simp

theorem OutputsRequest.decode_encode (r : OutputsRequest) :
    decode (encode r) = some { r with outputs := reread r.outputs } := by
  delta instCodecOutputsRequest
  dsimp only
  simp

/-! ### Properties -/

namespace Value

def Survives (value : Value) : Prop := (ofJson value.toJson).Same value

theorem survives_iff_canonical {value : Value} : value.Survives ↔ value.Canonical :=
  ⟨canonical_of_same value, Canonical.same⟩

/-- Fields are read back if each is; their keys do not matter. -/
theorem sameFields_reread (properties : Properties) :
    SameFields (reread properties) properties ↔ ∀ field ∈ properties, field.2.Survives := by
  induction properties with
  | nil => simp [reread, SameFields]
  | cons field rest ih =>
    obtain ⟨key, value⟩ := field
    have step : SameFields (reread ((key, value) :: rest)) ((key, value) :: rest) ↔
        value.Survives ∧ SameFields (reread rest) rest := by
      simp [reread, SameFields, Survives]
    rw [step, ih, List.forall_mem_cons]

end Value

/-! ### Requests and responses of any kind -/

namespace Request

/-- The properties of a request, none for a request that has none. -/
def properties : Request → Properties
  | .feature _ => []
  | .register r => r.object
  | .read r => r.properties
  | .call r => r.args
  | .outputs r => r.outputs
  | .package _ => []

def withProperties (properties : Properties) : Request → Request
  | .feature r => .feature r
  | .register r => .register { r with object := properties }
  | .read r => .read { r with properties }
  | .call r => .call { r with args := properties }
  | .outputs r => .outputs { r with outputs := properties }
  | .package r => .package r

/-- Equality of requests, in which numbers are compared as numbers. -/
def Same (a b : Request) : Prop :=
  Value.SameFields a.properties b.properties ∧ a = b.withProperties a.properties

/-- A request is read from its document, with the properties as they are read. -/
theorem ofPayload?_payload (request : Request) :
    ofPayload? request.kind request.payload =
      some (request.withProperties (reread request.properties)) := by
  cases request with
  | feature r => simp [ofPayload?, kind, payload, withProperties]
  | register r => simp [ofPayload?, kind, payload, withProperties, properties,
      RegisterRequest.decode_encode]
  | read r => simp [ofPayload?, kind, payload, withProperties, properties,
      ReadRequest.decode_encode]
  | call r => simp [ofPayload?, kind, payload, withProperties, properties,
      CallRequest.decode_encode]
  | outputs r => simp [ofPayload?, kind, payload, withProperties, properties,
      OutputsRequest.decode_encode]
  | package r => simp [ofPayload?, kind, payload, withProperties]

theorem same_reread (request : Request) :
    (request.withProperties (reread request.properties)).Same request ↔
      ∀ field ∈ request.properties, field.2.Survives := by
  rw [← Value.sameFields_reread]
  cases request <;> simp [Same, withProperties, properties, reread]

end Request

namespace Response

/-- The properties of a response, none for a response that has none. -/
def properties : Response → Properties
  | .feature _ => []
  | .register r => r.object
  | .read r => r.properties
  | .call r => r.returnValues
  | .outputs => []
  | .package _ => []

def withProperties (properties : Properties) : Response → Response
  | .feature r => .feature r
  | .register r => .register { r with object := properties }
  | .read r => .read { r with properties }
  | .call r => .call { r with returnValues := properties }
  | .outputs => .outputs
  | .package r => .package r

/-- Equality of responses, in which numbers are compared as numbers. -/
def Same (a b : Response) : Prop :=
  Value.SameFields a.properties b.properties ∧ a = b.withProperties a.properties

def kind : Response → String
  | .feature _ => "feature"
  | .register _ => "register"
  | .read _ => "read"
  | .call _ => "call"
  | .outputs => "registerOutputs"
  | .package _ => "registerPackage"

def ofPayload? (kind : String) (document : Json) : Option Response :=
  match kind with
  | "feature" => (decode document).map .feature
  | "register" => (decode document).map .register
  | "read" => (decode document).map .read
  | "call" => (decode document).map .call
  | "registerOutputs" => if document matches .null then some .outputs else none
  | "registerPackage" => (decode document).map .package
  | _ => none

/-- A response is read from its document, with the properties as they are read. -/
theorem ofPayload?_payload (response : Response) :
    ofPayload? response.kind response.payload =
      some (response.withProperties (reread response.properties)) := by
  cases response with
  | feature r => simp [ofPayload?, kind, payload, withProperties]
  | register r => simp [ofPayload?, kind, payload, withProperties, properties,
      RegisterResponse.decode_encode]
  | read r => simp [ofPayload?, kind, payload, withProperties, properties,
      ReadResponse.decode_encode]
  | call r => simp [ofPayload?, kind, payload, withProperties, properties,
      CallResponse.decode_encode]
  | outputs => rfl
  | package r => simp [ofPayload?, kind, payload, withProperties]

theorem same_reread (response : Response) :
    (response.withProperties (reread response.properties)).Same response ↔
      ∀ field ∈ response.properties, field.2.Survives := by
  rw [← Value.sameFields_reread]
  cases response <;> simp [Same, withProperties, properties, reread]

end Response

/-- Every request and every response is read from its document, and comes back as it was exactly if
each of its properties is canonical, that is, survives on its own. What the keys of the properties
are does not matter. -/
theorem payloads_read_back :
    (∀ request : Request, ∃ back,
      Request.ofPayload? request.kind request.payload = some back ∧
        [back.Same request, ∀ field ∈ request.properties, field.2.Survives,
          ∀ field ∈ request.properties, field.2.Canonical].TFAE) ∧
      ∀ response : Response, ∃ back,
        Response.ofPayload? response.kind response.payload = some back ∧
          [back.Same response, ∀ field ∈ response.properties, field.2.Survives,
            ∀ field ∈ response.properties, field.2.Canonical].TFAE := by
  have each (properties : Properties) : (∀ field ∈ properties, field.2.Survives) ↔
      ∀ field ∈ properties, field.2.Canonical :=
    forall₂_congr fun _ _ => Value.survives_iff_canonical
  constructor
  · intro request
    refine ⟨_, request.ofPayload?_payload, ?_⟩
    tfae_have 1 ↔ 2 := request.same_reread
    tfae_have 2 ↔ 3 := each request.properties
    tfae_finish
  · intro response
    refine ⟨_, response.ofPayload?_payload, ?_⟩
    tfae_have 1 ↔ 2 := response.same_reread
    tfae_have 2 ↔ 3 := each response.properties
    tfae_finish

/-- Properties that look like a secret stay properties. -/
example :
    let properties : Properties :=
      [(Signature.key, .string Signature.secret), ("value", .string "hidden")]
    decode (encode properties) = some properties :=
  rfl

end Provision
