import Provision.Deployment.Basic
import Provision.Proofs.Input.Secrecy
import Provision.Proofs.Shape.Endings

/-!
# What a conversion shows of secrets

Two values are alike if they are the same but for what is inside their secrets. Alike values are
the payloads of the same files, since a secret is no text, no object and no file; so the same
parts of them are looked into, and the same secrets are lifted out. If no secret was, then all
that was read is the same in both, and so is all that a conversion makes of it
(`conversion_of_alike`). What else stands in a payload was not read at all.
-/

namespace Provision

namespace Value

mutual

/-- The values are the same but for what is inside secrets. -/
def Alike : Value → Value → Prop
  | .secret _, .secret _ => True
  | .array items, .array items' => AlikeItems items items'
  | .object fields, .object fields' => AlikeFields fields fields'
  | value, value' => value = value'

/-- As many items, and one by one alike. -/
def AlikeItems : List Value → List Value → Prop
  | [], [] => True
  | item :: rest, item' :: rest' => Alike item item' ∧ AlikeItems rest rest'
  | _, _ => False

/-- The same keys, and under each alike values. -/
def AlikeFields : List (String × Value) → List (String × Value) → Prop
  | [], [] => True
  | (key, value) :: rest, (key', value') :: rest' =>
    key = key' ∧ Alike value value' ∧ AlikeFields rest rest'
  | _, _ => False

end

mutual

theorem Alike.refl : ∀ value : Value, value.Alike value
  | .array items => AlikeItems.refl items
  | .object fields => AlikeFields.refl fields
  | .secret _ => trivial
  | .null | .bool _ | .number _ | .string _ | .unknown | .reference _ => rfl

theorem AlikeItems.refl : ∀ items : List Value, AlikeItems items items
  | [] => trivial
  | item :: rest => ⟨Alike.refl item, AlikeItems.refl rest⟩

theorem AlikeFields.refl : ∀ fields : List (String × Value), AlikeFields fields fields
  | [] => trivial
  | (_, value) :: rest => ⟨rfl, Alike.refl value, AlikeFields.refl rest⟩

end

/-- Alike values are both secrets, both arrays, both objects, or the same. -/
theorem Alike.cases {value value' : Value} (alike : value.Alike value') :
    (∃ content content', value = .secret content ∧ value' = .secret content') ∨
      (∃ items items', value = .array items ∧ value' = .array items' ∧ AlikeItems items items') ∨
      (∃ fields fields', value = .object fields ∧ value' = .object fields' ∧
        AlikeFields fields fields') ∨ value = value' := by
  unfold Alike at alike
  split at alike
  · exact .inl ⟨_, _, rfl, rfl⟩
  · exact .inr (.inl ⟨_, _, rfl, rfl, alike⟩)
  · exact .inr (.inr (.inl ⟨_, _, rfl, rfl, alike⟩))
  · exact .inr (.inr (.inr alike))

/-- What is alike to an array is an array. -/
theorem Alike.array {items : List Value} {value' : Value}
    (alike : (Value.array items).Alike value') :
    ∃ items', value' = .array items' ∧ AlikeItems items items' := by
  cases value' with
  | array items' => exact ⟨items', rfl, alike⟩
  | _ => cases alike

/-- What is alike to an object is an object. -/
theorem Alike.object {fields : List (String × Value)} {value' : Value}
    (alike : (Value.object fields).Alike value') :
    ∃ fields', value' = .object fields' ∧ AlikeFields fields fields' := by
  cases value' with
  | object fields' => exact ⟨fields', rfl, alike⟩
  | _ => cases alike

theorem AlikeItems.cons {item : Value} {rest items' : List Value}
    (alike : AlikeItems (item :: rest) items') :
    ∃ item' rest', items' = item' :: rest' ∧ item.Alike item' ∧ AlikeItems rest rest' := by
  cases items' with
  | nil => exact alike.elim
  | cons item' rest' => exact ⟨item', rest', rfl, alike⟩

theorem AlikeFields.cons {key : String} {value : Value} {rest fields' : List (String × Value)}
    (alike : AlikeFields ((key, value) :: rest) fields') :
    ∃ value' rest', fields' = (key, value') :: rest' ∧ value.Alike value' ∧
      AlikeFields rest rest' := by
  cases fields' with
  | nil => exact alike.elim
  | cons field' rest' =>
    obtain ⟨key', value'⟩ := field'
    obtain ⟨rfl, alike⟩ := alike
    exact ⟨value', rest', rfl, alike⟩

/-- Under a key alike maps have alike values, or both none. -/
theorem AlikeFields.lookup {fields fields' : List (String × Value)}
    (alike : AlikeFields fields fields') (key : String) :
    (fields.lookup key = none ∧ fields'.lookup key = none) ∨
      ∃ value value', fields.lookup key = some value ∧ fields'.lookup key = some value' ∧
        value.Alike value' := by
  induction fields generalizing fields' with
  | nil =>
    cases fields' with
    | nil => exact .inl ⟨rfl, rfl⟩
    | cons _ _ => exact alike.elim
  | cons field rest ih =>
    obtain ⟨value', rest', rfl, head, tail⟩ := alike.cons
    rw [Fields.lookup_cons, Fields.lookup_cons]
    by_cases same : key = field.1
    · rw [if_pos same, if_pos same]
      exact .inr ⟨_, _, rfl, rfl, head⟩
    · rw [if_neg same, if_neg same]
      exact ih tail

theorem AlikeFields.alike_of_lookup {fields fields' : List (String × Value)}
    (alike : AlikeFields fields fields') {key : String} {value value' : Value}
    (found : fields.lookup key = some value) (found' : fields'.lookup key = some value') :
    value.Alike value' := by
  rcases alike.lookup key with ⟨none, -⟩ | ⟨_, _, some, some', values⟩
  · cases found.symm.trans none
  · cases found.symm.trans some
    cases found'.symm.trans some'
    exact values

/-- Maps stay alike when alike values are written under a key. -/
theorem AlikeFields.set {fields fields' : List (String × Value)}
    (alike : AlikeFields fields fields') (key : String) {value value' : Value}
    (written : value.Alike value') :
    AlikeFields (Fields.set key value fields) (Fields.set key value' fields') := by
  induction fields generalizing fields' with
  | nil =>
    cases fields' with
    | nil => exact ⟨rfl, written, trivial⟩
    | cons _ _ => exact alike.elim
  | cons field rest ih =>
    obtain ⟨value', rest', rfl, head, tail⟩ := alike.cons
    unfold Fields.set
    split
    · exact ⟨rfl, written, tail⟩
    · split
      · exact ⟨rfl, written, rfl, head, tail⟩
      · exact ⟨rfl, head, ih tail⟩

/-- Alike values are the same text, or both none. -/
theorem Alike.text? {value value' : Value} (alike : value.Alike value') :
    value.text? = value'.text? := by
  rcases alike.cases with ⟨_, _, rfl, rfl⟩ | ⟨_, _, rfl, rfl, _⟩ | ⟨_, _, rfl, rfl, _⟩ | rfl <;> rfl

end Value

namespace File

open Value

variable {fields fields' : List (String × Value)}

theorem textOf_alike (name : String) (alike : AlikeFields fields fields') :
    textOf name fields = textOf name fields' := by
  unfold textOf
  rcases alike.lookup name with ⟨none, none'⟩ | ⟨_, _, some, some', values⟩
  · rw [none, none']
  · rw [some, some', Option.bind_some, Option.bind_some, values.text?]

theorem ofFields_alike (alike : AlikeFields fields fields')
    (entries : Option (Option (List (String × File)))) :
    ofFields fields entries = ofFields fields' entries := by
  unfold ofFields assetOf
  simp only [fun name => textOf_alike name alike]

mutual

/-- Alike values are the payloads of the same file. -/
theorem ofValue?_alike : ∀ {value value' : Value}, value.Alike value' →
    ofValue? value = ofValue? value'
  | .object fields, value', alike => by
    obtain ⟨fields', rfl, parts⟩ := alike.object
    unfold ofValue?
    rw [assetsField_alike parts, ofFields_alike parts]
  | .null, _, alike | .bool _, _, alike | .number _, _, alike | .string _, _, alike
  | .unknown, _, alike | .reference _, _, alike | .array _, _, alike | .secret _, _, alike => by
    rcases alike.cases with ⟨_, _, ⟨⟩, rfl⟩ | ⟨_, _, ⟨⟩, rfl, _⟩ | ⟨_, _, ⟨⟩, _⟩ | rfl <;> rfl

theorem assetsField_alike : ∀ {fields fields' : List (String × Value)},
    AlikeFields fields fields' → assetsField fields = assetsField fields'
  | [], [], _ => rfl
  | (key, value) :: rest, fields', alike => by
    obtain ⟨value', rest', rfl, head, tail⟩ := AlikeFields.cons alike
    have later := assetsField_alike tail
    unfold assetsField
    split
    · cases value with
      | object inner =>
        obtain ⟨inner', rfl, parts⟩ := head.object
        exact congrArg some (entriesOfFields_alike parts)
      | _ =>
        rcases head.cases with ⟨_, _, ⟨⟩, rfl⟩ | ⟨_, _, ⟨⟩, rfl, _⟩ | ⟨_, _, ⟨⟩, _⟩ | rfl <;> rfl
    · exact later

theorem entriesOfFields_alike : ∀ {fields fields' : List (String × Value)},
    AlikeFields fields fields' → entriesOfFields fields = entriesOfFields fields'
  | [], [], _ => rfl
  | (key, value) :: rest, fields', alike => by
    obtain ⟨value', rest', rfl, head, tail⟩ := AlikeFields.cons alike
    unfold entriesOfFields
    rw [ofValue?_alike head, entriesOfFields_alike tail]

end

end File

namespace Value

mutual

/-- From alike values the same secrets are lifted out. -/
theorem liftsSecret_alike : ∀ {value value' : Value}, value.Alike value' →
    value.liftsSecret = value'.liftsSecret
  | .object fields, value', alike => by
    have read := File.ofValue?_alike alike
    obtain ⟨fields', rfl, parts⟩ := alike.object
    unfold liftsSecret
    rw [read, liftsSecretFields_alike parts]
  | .array items, value', alike => by
    obtain ⟨items', rfl, parts⟩ := alike.array
    exact liftsSecretItems_alike parts
  | .null, _, alike | .bool _, _, alike | .number _, _, alike | .string _, _, alike
  | .unknown, _, alike | .reference _, _, alike | .secret _, _, alike => by
    rcases alike.cases with ⟨_, _, ⟨⟩, rfl⟩ | ⟨_, _, ⟨⟩, _⟩ | ⟨_, _, ⟨⟩, _⟩ | rfl <;> rfl

theorem liftsSecretItems_alike : ∀ {items items' : List Value}, AlikeItems items items' →
    liftsSecretItems items = liftsSecretItems items'
  | [], [], _ => rfl
  | item :: rest, items', alike => by
    obtain ⟨item', rest', rfl, head, tail⟩ := alike.cons
    unfold liftsSecretItems
    rw [liftsSecret_alike head, liftsSecretItems_alike tail]

theorem liftsSecretFields_alike : ∀ {fields fields' : List (String × Value)},
    AlikeFields fields fields' → liftsSecretFields fields = liftsSecretFields fields'
  | [], [], _ => rfl
  | (key, value) :: rest, fields', alike => by
    obtain ⟨value', rest', rfl, head, tail⟩ := alike.cons
    unfold liftsSecretFields
    rw [liftsSecret_alike head, liftsSecretFields_alike tail]

end

end Value

namespace Plain

open Value

variable {σ : Type} (resolve : Resolver σ)

mutual

/-- Where no secret is lifted out, alike values are the same plain tree, their references are
resolved one by one to the same resources, and as much of them is known. -/
theorem ofValue_alike : ∀ {value value' : Value}, value.Alike value' →
    value.liftsSecret = false → ∀ s : σ, ofValue resolve value s = ofValue resolve value' s
  | .object fields, value', alike, bare, s => by
    have read := File.ofValue?_alike alike
    obtain ⟨fields', rfl, parts⟩ := alike.object
    have looked : liftsSecretFields fields = false →
        fieldsOfValues resolve fields s = fieldsOfValues resolve fields' s :=
      fun bare => fieldsOfValues_alike parts bare s
    unfold liftsSecret at bare
    unfold ofValue
    rw [← read]
    -- A payload is replaced by its file without a look at its fields.
    cases file : File.ofValue? (.object fields) with
    | some content => rfl
    | none =>
      rw [file] at bare
      rw [looked bare]
  | .array items, value', alike, bare, s => by
    obtain ⟨items', rfl, parts⟩ := alike.array
    unfold ofValue
    rw [itemsOfValues_alike parts bare s]
  | .null, _, alike, _, _ | .bool _, _, alike, _, _ | .number _, _, alike, _, _
  | .string _, _, alike, _, _ | .unknown, _, alike, _, _ | .reference _, _, alike, _, _ => by
    rcases alike.cases with ⟨_, _, ⟨⟩, _⟩ | ⟨_, _, ⟨⟩, _⟩ | ⟨_, _, ⟨⟩, _⟩ | rfl
    rfl
  | .secret _, _, _, bare, _ => by cases bare

theorem itemsOfValues_alike : ∀ {items items' : List Value}, AlikeItems items items' →
    liftsSecretItems items = false →
      ∀ s : σ, itemsOfValues resolve items s = itemsOfValues resolve items' s
  | [], [], _, _, _ => rfl
  | item :: rest, items', alike, bare, s => by
    obtain ⟨item', rest', rfl, head, tail⟩ := alike.cons
    obtain ⟨first, later⟩ := Bool.or_eq_false_iff.mp bare
    unfold itemsOfValues
    simp only [ofValue_alike head first s, itemsOfValues_alike tail later]

theorem fieldsOfValues_alike : ∀ {fields fields' : List (String × Value)},
    AlikeFields fields fields' → liftsSecretFields fields = false →
      ∀ s : σ, fieldsOfValues resolve fields s = fieldsOfValues resolve fields' s
  | [], [], _, _, _ => rfl
  | (key, value) :: rest, fields', alike, bare, s => by
    obtain ⟨value', rest', rfl, head, tail⟩ := alike.cons
    obtain ⟨first, later⟩ := Bool.or_eq_false_iff.mp bare
    unfold fieldsOfValues
    simp only [ofValue_alike head first s, fieldsOfValues_alike tail later]

end

end Plain

namespace HostType

variable {schema : Schema} {context : String} {dependencies : List Key} {lifted : Lifted Plain}

/-- A conversion to a type that reaches no record with itself as a parameter has an end. -/
theorem convertLifted_ends (free : Shape.CircleFree schema.records.shapes schema.type.shape) :
    convertLifted schema context dependencies lifted ≠ none := by
  have ends : (convertPlain schema context lifted.content).HasEnd := by
    refine (Reporting.hasEnd_andThen_of_ends fun tree => ?_).mpr
      ((free.grounded lifted.content).hasEnd_convert context)
    split <;> exact ⟨_, _, rfl⟩
  obtain ⟨value, warnings, ends⟩ := ends
  unfold convertLifted
  rw [ends]
  split <;> simp

/-- Its result is secret if a secret was lifted out. -/
theorem convertLifted_secret {converted : Converted}
    (ended : convertLifted schema context dependencies lifted = some converted) :
    converted.data.secret = lifted.isSecret := by
  unfold convertLifted at ended
  split at ended
  · split at ended <;> cases ended
    rfl
  · cases ended
    rfl

end HostType

namespace Deployment

/-- The conversion of two values that are the same but for what is inside secrets. Either the
type is invalid, and both are refused for one cause; or both are secret, or neither. If neither is,
then the two runs are the same: the value or that it is not known, the warnings in their order, and
the resources that were made for references. A conversion has no end only where the type reaches a
record that is a parameter of its own. -/
theorem conversion_of_alike (d : Deployment) (schema : Schema) (context : String)
    (dependencies : List Key) {value value' : Value} (alike : value.Alike value') :
    (∃ cause, ∀ v ∈ [value, value'],
        d.convert schema context dependencies v = (.error cause, d)) ∨
      ∃ secret,
        (∀ v ∈ [value, value'], ∃ ending after,
          d.convert schema context dependencies v = (.ok ending, after) ∧
            (∀ converted, ending = some converted → converted.data.secret = secret) ∧
            (Shape.CircleFree schema.records.shapes schema.type.shape → ending ≠ none)) ∧
        (secret = false → d.convert schema context dependencies value =
          d.convert schema context dependencies value') := by
  cases valid : Shape.validate schema.records.shapes schema.type.shape context with
  | error cause =>
    refine .inl ⟨cause, fun v _ => ?_⟩
    unfold convert HostType.convertValue
    rw [valid]
  | ok u =>
    have converts (v : Value) : d.convert schema context dependencies v =
        (.ok (HostType.convertLifted schema context dependencies
          (Plain.ofValue referenceResource v d).1), (Plain.ofValue referenceResource v d).2) := by
      unfold convert HostType.convertValue
      rw [valid]
    refine .inr ⟨value.liftsSecret, fun v member => ⟨_, _, converts v, ?_, ?_⟩, fun bare => ?_⟩
    · intro converted ended
      rw [HostType.convertLifted_secret ended, Plain.ofValue_isSecret]
      simp only [List.mem_cons, List.not_mem_nil, or_false] at member
      rcases member with rfl | rfl
      · rfl
      · exact (Value.liftsSecret_alike alike).symm
    · exact HostType.convertLifted_ends
    · rw [converts, converts, Plain.ofValue_alike referenceResource alike bare]

/-- Two payloads of an asset with different secrets beside the path: the secrets are not looked
at, and nothing tells the two conversions apart. -/
theorem conversion_of_alike_notes :
    let d : Deployment := {}
    let payload (note : String) : Value := .object
      [(Signature.key, .string Signature.asset), ("note", .secret (.string note)),
        ("path", .string "x.txt")]
    (payload "1234").Alike (payload "5678") ∧
      d.convert ⟨.asset, []⟩ "file" [] (payload "5678") =
        (.ok (some ⟨⟨some (.file (.asset (.file "x.txt"))), false, []⟩, []⟩), d) := by
  intro d payload
  have alike : (payload "1234").Alike (payload "5678") :=
    ⟨rfl, rfl, rfl, trivial, rfl, rfl, trivial⟩
  have run : d.convert ⟨.asset, []⟩ "file" [] (payload "1234") =
      (.ok (some ⟨⟨some (.file (.asset (.file "x.txt"))), false, []⟩, []⟩), d) := rfl
  refine ⟨alike, ?_⟩
  rcases conversion_of_alike d ⟨.asset, []⟩ "file" [] alike with
    ⟨cause, refused⟩ | ⟨secret, each, same⟩
  · cases run.symm.trans (refused _ List.mem_cons_self)
  · obtain ⟨ending, after, ended, flag, -⟩ := each _ List.mem_cons_self
    cases run.symm.trans ended
    rw [← same (flag _ rfl).symm, run]

end Deployment

end Provision
