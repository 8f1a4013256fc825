import Provision.Proofs.Fields
import Provision.Proofs.Number
import Provision.Value.Document

/-!
# Values and their documents

The special kinds of values share the space of ordinary documents, so some ordinary values are
written like special ones. A value is canonical if no part of it is. Exactly the canonical values
are read back from their documents (`ofJson_toJson_iff`), and whatever a document is read as is
canonical, also where the payload of a signature was malformed (`toJson_ofJson_stable`).
-/

namespace Provision

namespace Value

mutual

/-- Equality of values, in which numbers are compared as numbers. -/
def Same : Value → Value → Prop
  | .null, .null | .unknown, .unknown => True
  | .bool a, .bool b => a = b
  | .number x, .number y => x.Same y
  | .string s, .string t => s = t
  | .array items, .array items' => SameItems items items'
  | .object fields, .object fields' => SameFields fields fields'
  | .secret content, .secret content' => Same content content'
  | .reference r, .reference r' => r = r'
  | _, _ => False

/-- As many items, and one by one the same. -/
def SameItems : List Value → List Value → Prop
  | [], [] => True
  | item :: rest, item' :: rest' => Same item item' ∧ SameItems rest rest'
  | _, _ => False

/-- The same keys, and under each the same value. -/
def SameFields : List (String × Value) → List (String × Value) → Prop
  | [], [] => True
  | (key, value) :: rest, (key', value') :: rest' =>
    key = key' ∧ Same value value' ∧ SameFields rest rest'
  | _, _ => False

end

/-- The value is written as a text. -/
def IsText (value : Value) : Prop := value = .unknown ∨ ∃ s, value = .string s

/-- The fields of an object that is written like a secret or like a reference. -/
def Disguised (fields : Fields Value) : Prop :=
  fields.lookup Signature.key = some (.string Signature.secret) ∧ fields.has "value" = true ∨
  fields.lookup Signature.key = some (.string Signature.resource) ∧
    ∃ urn, fields.lookup "urn" = some urn ∧ urn.IsText

mutual

/-- No part of the value is written like something else: numbers are finite, no string is the text
of an unknown, no reference has an empty package version, and no object is disguised. -/
def Canonical : Value → Prop
  | .number x => x.isFinite = true
  | .string s => s ≠ Signature.unknown
  | .array items => CanonicalItems items
  | .object fields => ¬ Disguised fields ∧ CanonicalFields fields
  | .secret content => Canonical content
  | .reference r => r.packageVersion ≠ some ""
  | _ => True

def CanonicalItems : List Value → Prop
  | [] => True
  | item :: rest => Canonical item ∧ CanonicalItems rest

def CanonicalFields : List (String × Value) → Prop
  | [] => True
  | (_, value) :: rest => Canonical value ∧ CanonicalFields rest

end

/-! ### Looking up members -/

theorem fieldsToJson_eq (fields : List (String × Value)) :
    fieldsToJson fields = fields.map fun p => (p.1, toJson p.2) := by
  induction fields with
  | nil => rfl
  | cons field rest ih =>
    obtain ⟨key, value⟩ := field
    rw [fieldsToJson, ih, List.map_cons]

theorem fieldsOfJson_eq (members : List (String × Json)) :
    fieldsOfJson members = members.map fun p => (p.1, ofJson p.2) := by
  induction members with
  | nil => rfl
  | cons member rest ih =>
    obtain ⟨key, document⟩ := member
    rw [fieldsOfJson, ih, List.map_cons]

theorem lookup_fieldsToJson (fields : Fields Value) (key : String) :
    (fieldsToJson fields).lookup key = (fields.lookup key).map toJson := by
  rw [fieldsToJson_eq, Fields.lookup_map]

theorem lookup_fieldsOfJson (members : Fields Json) (key : String) :
    (fieldsOfJson members).lookup key = (members.lookup key).map ofJson := by
  rw [fieldsOfJson_eq, Fields.lookup_map]

/-- A number is not written as a text. -/
theorem text?_ofNumber (x : Number) : (Json.ofNumber x).text? = none := by
  unfold Json.ofNumber Json.ofInt
  split
  · split
    · rfl
    · split <;> rfl
  · split <;> rfl

/-- The values that are written as the text `s`. -/
theorem text?_toJson {value : Value} {s : String} :
    value.toJson.text? = some s ↔ value = .string s ∨ value = .unknown ∧ s = Signature.unknown := by
  cases value with
  | number x => simp [toJson, text?_ofNumber]
  | string t => simp [toJson, Json.text?]
  | unknown => simp [toJson, Json.text?, eq_comm]
  | _ => simp [toJson, signedDocument, Json.text?]

theorem textOf_fieldsToJson {fields : Fields Value} {name s : String}
    (ordinary : s ≠ Signature.unknown) :
    textOf name (fieldsToJson fields) = some s ↔ fields.lookup name = some (.string s) := by
  rw [textOf, lookup_fieldsToJson]
  cases fields.lookup name with
  | none => simp
  | some value => simp [text?_toJson, ordinary]

/-! ### Objects -/

/-- An object is read as a secret if it has a content, as a reference if it describes one, and else
as it is. -/
theorem ofMembers_cases (members : Fields Json) (fields : Fields Value) :
    (textOf Signature.key members = some Signature.secret ∧
      ∃ content, fields.lookup "value" = some content ∧
        ofMembers members fields = .secret content) ∨
    (textOf Signature.key members = some Signature.resource ∧
      ∃ r, referenceOf members = some r ∧ ofMembers members fields = .reference r) ∨
    ((textOf Signature.key members = some Signature.secret → fields.lookup "value" = none) ∧
      (textOf Signature.key members = some Signature.resource → referenceOf members = none) ∧
      ofMembers members fields = .object fields) := by
  have different : Signature.resource ≠ Signature.secret := by decide
  unfold ofMembers
  cases signature : textOf Signature.key members with
  | none => simp
  | some s =>
    dsimp only
    by_cases secret : s = Signature.secret
    · subst secret
      rw [if_pos rfl]
      cases fields.lookup "value" <;> simp [different.symm]
    · rw [if_neg secret]
      by_cases resource : s = Signature.resource
      · subst resource
        rw [if_pos rfl]
        cases referenceOf members <;> simp [different]
      · rw [if_neg resource]
        simp [secret, resource]

theorem referenceOf_eq_none {members : Fields Json} :
    referenceOf members = none ↔ textOf "urn" members = none := by
  simp [referenceOf]

/-- A reference that was read has no empty package version. -/
theorem packageVersion_of_referenceOf {members : Fields Json} {r : Reference}
    (read : referenceOf members = some r) : r.packageVersion ≠ some "" := by
  obtain ⟨urn, -, rfl⟩ := Option.map_eq_some_iff.mp read
  simp [Option.filter_eq_some_iff]

theorem isText_iff {value : Value} : value.IsText ↔ value.toJson.text? ≠ none := by
  rw [Option.ne_none_iff_exists']
  simp only [text?_toJson]
  constructor
  · rintro (rfl | ⟨s, rfl⟩)
    · exact ⟨_, .inr ⟨rfl, rfl⟩⟩
    · exact ⟨s, .inl rfl⟩
  · rintro ⟨s, rfl | ⟨rfl, -⟩⟩
    · exact .inr ⟨s, rfl⟩
    · exact .inl rfl

/-- An object is read as an object, with its fields read one by one, unless it is disguised. -/
theorem ofJson_object (fields : Fields Value) :
    (Disguised fields ∧ ∀ fields', ofJson (.object (fieldsToJson fields)) ≠ .object fields') ∨
    (¬ Disguised fields ∧
      ofJson (.object (fieldsToJson fields)) = .object (fieldsOfJson (fieldsToJson fields))) := by
  have secret : textOf Signature.key (fieldsToJson fields) = some Signature.secret ↔
      fields.lookup Signature.key = some (.string Signature.secret) :=
    textOf_fieldsToJson (by decide)
  have resource : textOf Signature.key (fieldsToJson fields) = some Signature.resource ↔
      fields.lookup Signature.key = some (.string Signature.resource) :=
    textOf_fieldsToJson (by decide)
  have value : (fieldsOfJson (fieldsToJson fields)).lookup "value" =
      ((fields.lookup "value").map toJson).map ofJson := by
    rw [lookup_fieldsOfJson, lookup_fieldsToJson]
  have urn : textOf "urn" (fieldsToJson fields) = none ↔
      ∀ urn, fields.lookup "urn" = some urn → ¬ urn.IsText := by
    rw [textOf, lookup_fieldsToJson]
    cases fields.lookup "urn" <;> simp [isText_iff]
  rw [ofJson]
  rcases ofMembers_cases (fieldsToJson fields) (fieldsOfJson (fieldsToJson fields)) with
    ⟨signed, content, found, same⟩ | ⟨signed, r, read, same⟩ | ⟨noSecret, noReference, same⟩
  · refine .inl ⟨.inl ⟨secret.mp signed, ?_⟩, by simp [same]⟩
    rw [value] at found
    unfold Fields.has
    cases here : fields.lookup "value" with
    | none => simp [here] at found
    | some _ => rfl
  · refine .inl ⟨.inr ⟨resource.mp signed, ?_⟩, by simp [same]⟩
    have described : ¬ textOf "urn" (fieldsToJson fields) = none := by
      rw [← referenceOf_eq_none, read]
      simp
    rw [urn] at described
    simpa using described
  · refine .inr ⟨?_, same⟩
    rintro (⟨signed, has⟩ | ⟨signed, text, found, isText⟩)
    · have missing := noSecret (secret.mpr signed)
      rw [value] at missing
      unfold Fields.has at has
      cases here : fields.lookup "value" with
      | none => simp [here] at has
      | some _ => simp [here] at missing
    · have missing := referenceOf_eq_none.mp (noReference (resource.mpr signed))
      exact urn.mp missing text found isText

/-- A reference is read as it is, but for an empty package version. -/
theorem ofJson_reference (r : Reference) :
    ofJson (toJson (.reference r)) =
      .reference { r with packageVersion := r.packageVersion.filter (· ≠ "") } := by
  obtain ⟨urn, id, version⟩ := r
  cases id <;> cases version <;> rfl

/-- A finite number is read as the same number. -/
theorem ofJson_number {x : Number} (finite : x.isFinite = true) :
    (ofJson (toJson (.number x))).Same (.number x) := by
  cases x with
  | finite y =>
    unfold toJson Json.ofNumber Number.safeInteger?
    dsimp only
    split
    · rename_i i safe
      split at safe
      · rename_i fits
        obtain ⟨integral, small⟩ := fits
        cases safe
        have word : FitsWord y.toInt := by
          have size := y.natAbs_toInt
          have range : y.floorMagnitude ≤ 2 ^ 53 := small
          have low : Number.twoPow 63 = 2 ^ 63 := rfl
          have high : Number.twoPow 64 = 2 ^ 64 := rfl
          unfold FitsWord
          omega
        rw [Json.ofInt, dif_pos word]
        exact Number.ofInt_toInt integral small
      · cases safe
    · exact Or.inl rfl
  | _ => cases finite

/-- A number that is not finite is read as null. -/
theorem ofJson_number_infinite {x : Number} (infinite : x.isFinite = false) :
    ofJson (toJson (.number x)) = .null := by
  cases x with
  | finite y => cases infinite
  | _ => rfl

/-! ### Canonical values are read back -/

mutual

/-- A canonical value is read back from its document. -/
theorem Canonical.same : ∀ {value : Value}, value.Canonical → (ofJson value.toJson).Same value
  | .null, _ | .unknown, _ => trivial
  | .bool _, _ => rfl
  | .number _, finite => ofJson_number finite
  | .string s, ordinary => by
    rw [toJson, ofJson, if_neg ordinary]
    rfl
  | .array _, canonical => CanonicalItems.same canonical
  | .object fields, ⟨plain, canonical⟩ => by
    rcases ofJson_object fields with ⟨disguised, -⟩ | ⟨-, same⟩
    · exact absurd disguised plain
    · rw [toJson, same]
      exact CanonicalFields.same canonical
  | .secret content, canonical => @Canonical.same content canonical
  | .reference r, version => by
    have kept : r.packageVersion.filter (· ≠ "") = r.packageVersion := by
      rw [Canonical] at version
      cases given : r.packageVersion with
      | none => rfl
      | some v =>
        rw [given] at version
        simp_all
    rw [ofJson_reference, kept]
    rfl

theorem CanonicalItems.same : ∀ {items : List Value}, CanonicalItems items →
    SameItems (itemsOfJson (itemsToJson items)) items
  | [], _ => trivial
  | _ :: _, ⟨head, tail⟩ => ⟨head.same, CanonicalItems.same tail⟩

theorem CanonicalFields.same : ∀ {fields : List (String × Value)}, CanonicalFields fields →
    SameFields (fieldsOfJson (fieldsToJson fields)) fields
  | [], _ => trivial
  | (_, _) :: _, ⟨head, tail⟩ => ⟨rfl, head.same, CanonicalFields.same tail⟩

end

mutual

/-- Only canonical values are read back from their documents. -/
theorem canonical_of_same : ∀ (value : Value), (ofJson value.toJson).Same value → value.Canonical
  | .null, _ | .unknown, _ | .bool _, _ => trivial
  | .number x, same => by
    cases finite : x.isFinite with
    | true => exact finite
    | false =>
      rw [ofJson_number_infinite finite] at same
      cases same
  | .string s, same => by
    rintro rfl
    cases same
  | .array items, same => canonicalItems_of_same items same
  | .object fields, same => by
    rw [toJson] at same
    rcases ofJson_object fields with ⟨-, other⟩ | ⟨plain, read⟩
    · -- Only an object is the same as an object.
      cases read : ofJson (.object (fieldsToJson fields)) with
      | object fields' => exact absurd read (other fields')
      | _ =>
        rw [read] at same
        cases same
    · rw [read] at same
      exact ⟨plain, canonicalFields_of_same fields same⟩
  | .secret content, same => canonical_of_same content same
  | .reference r, same => by
    rw [ofJson_reference] at same
    rintro empty
    have kept := congrArg Reference.packageVersion same
    simp [empty] at kept

theorem canonicalItems_of_same : ∀ (items : List Value),
    SameItems (itemsOfJson (itemsToJson items)) items → CanonicalItems items
  | [], _ => trivial
  | item :: rest, ⟨head, tail⟩ => ⟨canonical_of_same item head, canonicalItems_of_same rest tail⟩

theorem canonicalFields_of_same : ∀ (fields : List (String × Value)),
    SameFields (fieldsOfJson (fieldsToJson fields)) fields → CanonicalFields fields
  | [], _ => trivial
  | (_, value) :: rest, ⟨_, head, tail⟩ =>
    ⟨canonical_of_same value head, canonicalFields_of_same rest tail⟩

end

/-- A value is read back from its document if and only if it is canonical. -/
theorem ofJson_toJson_iff (value : Value) :
    (ofJson value.toJson).Same value ↔ value.Canonical :=
  ⟨canonical_of_same value, fun canonical => canonical.same⟩

/-! ### What is read is canonical -/

theorem eq_string_of_ofJson {document : Json} {s : String} (read : ofJson document = .string s) :
    document = .string s := by
  cases document with
  | string t =>
    rw [ofJson] at read
    split at read
    · cases read
    · cases read
      rfl
  | object members =>
    rw [ofJson] at read
    rcases ofMembers_cases members (fieldsOfJson members) with
      ⟨-, _, -, same⟩ | ⟨-, _, -, same⟩ | ⟨-, -, same⟩ <;> simp [same] at read
  | _ => cases read

theorem text?_of_isText {document : Json} (isText : (ofJson document).IsText) :
    document.text? ≠ none := by
  cases document with
  | string t => simp [Json.text?]
  | object members =>
    rw [ofJson] at isText
    rcases ofMembers_cases members (fieldsOfJson members) with
      ⟨-, _, -, same⟩ | ⟨-, _, -, same⟩ | ⟨-, -, same⟩ <;> simp [same, IsText] at isText
  | _ => simp [ofJson, IsText] at isText

/-- The fields of an object that was read as an object are not disguised. -/
theorem not_disguised {members : Fields Json}
    (noSecret : textOf Signature.key members = some Signature.secret →
      (fieldsOfJson members).lookup "value" = none)
    (noReference : textOf Signature.key members = some Signature.resource →
      referenceOf members = none) : ¬ Disguised (fieldsOfJson members) := by
  have signed : ∀ s, (fieldsOfJson members).lookup Signature.key = some (.string s) →
      textOf Signature.key members = some s := by
    intro s found
    rw [lookup_fieldsOfJson] at found
    obtain ⟨document, there, read⟩ := Option.map_eq_some_iff.mp found
    rw [textOf, there, eq_string_of_ofJson read]
    rfl
  rintro (⟨secret, has⟩ | ⟨resource, urn, found, isText⟩)
  · rw [Fields.has, noSecret (signed _ secret)] at has
    cases has
  · rw [lookup_fieldsOfJson] at found
    obtain ⟨document, there, rfl⟩ := Option.map_eq_some_iff.mp found
    have missing := referenceOf_eq_none.mp (noReference (signed _ resource))
    rw [textOf, there] at missing
    exact text?_of_isText isText missing

theorem isFinite_toNumber (n : JsonNumber) : n.toNumber.isFinite = true := by
  cases n with
  | float x => rfl
  | integer i fits =>
    apply Number.ofInt_finite
    have low : Number.twoPow 63 = 2 ^ 63 := rfl
    have high : Number.twoPow 64 = 2 ^ 64 := rfl
    unfold FitsWord at fits
    omega

theorem canonical_of_lookup {fields : List (String × Value)}
    (canonical : CanonicalFields fields) {key : String} {value : Value}
    (found : fields.lookup key = some value) : value.Canonical := by
  induction fields with
  | nil => cases found
  | cons field rest ih =>
    obtain ⟨head, tail⟩ := canonical
    rw [Fields.lookup_cons] at found
    split at found
    · cases found
      exact head
    · exact ih tail found

mutual

/-- Every document is read as a canonical value. -/
theorem canonical_ofJson : ∀ (document : Json), (ofJson document).Canonical
  | .null | .bool _ => trivial
  | .number n => isFinite_toNumber n
  | .string s => by
    rw [ofJson]
    split
    · trivial
    · assumption
  | .array items => canonicalItems_ofJson items
  | .object members => by
    have canonical := canonicalFields_ofJson members
    rw [ofJson]
    rcases ofMembers_cases members (fieldsOfJson members) with
      ⟨-, content, found, same⟩ | ⟨-, r, read, same⟩ | ⟨noSecret, noReference, same⟩
    · rw [same]
      have content : content.Canonical := canonical_of_lookup canonical found
      exact content
    · rw [same]
      exact packageVersion_of_referenceOf read
    · rw [same]
      exact ⟨not_disguised noSecret noReference, canonical⟩

theorem canonicalItems_ofJson : ∀ (items : List Json), CanonicalItems (itemsOfJson items)
  | [] => trivial
  | item :: rest => ⟨canonical_ofJson item, canonicalItems_ofJson rest⟩

theorem canonicalFields_ofJson :
    ∀ (members : List (String × Json)), CanonicalFields (fieldsOfJson members)
  | [] => trivial
  | (_, document) :: rest => ⟨canonical_ofJson document, canonicalFields_ofJson rest⟩

end

/-- What was read from a document is read again from the document that is written of it. -/
theorem toJson_ofJson_stable (document : Json) :
    (ofJson (ofJson document).toJson).Same (ofJson document) :=
  (canonical_ofJson document).same

end Value

end Provision
