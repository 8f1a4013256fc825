import Provision.Proofs.Shape.Mismatch
import Provision.Proofs.Shape.Soundness

/-!
# Properties that are outputs themselves

An output that stands in a property is built from what its content is converted to, and is known
like any other part of the property. So an output converts like its content, with one exception:
where the content is a record, null is converted to a record without properties, while an output of
it takes the zero of its shape, which is null. So they differ exactly where a record is due and the
value comes to null (`output_like_content_iff`).
-/

namespace Provision

namespace Value

/-- Null, or null in secrets. -/
def comesToNull : Value → Bool
  | .null => true
  | .secret content => content.comesToNull
  | _ => false

end Value

namespace Plain

variable {σ : Type} (resolve : Resolver σ)

/-- Null is lifted from nothing else that is known. -/
theorem ofValue_eq_null_iff : ∀ (value : Value) (s : σ),
    ((ofValue resolve value s).1.isKnown = true ∧ (ofValue resolve value s).1.content = .null) ↔
      value.comesToNull = true
  | .null, _ => by simp [ofValue, Lifted.plain, Value.comesToNull]
  | .secret content, s => ofValue_eq_null_iff content s
  | .unknown, _ => by simp [ofValue, Value.comesToNull]
  | .bool _, _ | .number _, _ | .string _, _ | .reference _, _ => by
    simp [ofValue, Lifted.plain, Value.comesToNull]
  | .array items, s => by simp [ofValue, Lifted.map, Value.comesToNull]
  | .object fields, s => by
    unfold ofValue Value.comesToNull
    split <;> simp [Lifted.plain, Lifted.map]

end Plain

namespace Shape

variable {records : Records} {inner : Shape} {value : Plain} {context : String}

/-- The content of a valid output is valid. -/
theorem validate_of_output (valid : validate records (.output inner) context = .ok ()) :
    validate records inner context = .ok () :=
  (checked_iff inner context).mpr fun node path =>
    (checked_iff (.output inner) context).mp valid node (.inside List.mem_cons_self path)

/-- A tree is converted to an output like to the content, but for a record made from null. -/
theorem convert_output (usual : value = .null → ∀ name, inner ≠ .record name) :
    convert records (.output inner) context value = convert records inner context value := by
  cases value with
  | null =>
    have converts : Converts records inner .null inner.zero := Converts.null (usual rfl)
    exact (converts.convert context).symm
  | _ => rfl

end Shape

/-- What becomes of a value converted to an output, if the content is converted like this. -/
def Converted.nested (content : Converted) : Converted :=
  ⟨content.data.map fun value => .output (.known value), content.warnings⟩

namespace HostType

variable {inner : HostType} {records : HostRecords} {context : String} {dependencies : List Key}

/-- An output is built from what its content is built from. -/
theorem ofPlain_output (tree : Plain) :
    ofPlain ⟨.output inner, records⟩ tree =
      (ofPlain ⟨inner, records⟩ tree).map fun value => .output (.known value) := by
  cases tree with
  | null =>
    cases missing : inner.missing? with
    | none => simp [ofPlain, orMissing, missing?, buildWith, missing]
    | some value => simp [ofPlain, orMissing, missing?, missing, Except.map]
  | _ => rfl

def nest (built : Reporting (Option HostValue)) : Reporting (Option HostValue) :=
  built.andThen fun content => .ok (content.map fun value => .output (.known value))

/-- A tree becomes an output of what it becomes as the content. -/
theorem convertPlain_output {value : Plain}
    (usual : value = .null → ∀ name, inner.shape ≠ .record name) :
    convertPlain ⟨.output inner, records⟩ context value =
      nest (convertPlain ⟨inner, records⟩ context value) := by
  have same : Shape.convert records.shapes (HostType.output inner).shape context value =
      Shape.convert records.shapes inner.shape context value := Shape.convert_output usual
  unfold nest convertPlain
  rw [same, Reporting.andThen_assoc]
  refine congrArg (Reporting.andThen _) (funext fun tree => ?_)
  rw [ofPlain_output]
  cases ofPlain ⟨inner, records⟩ tree <;> rfl

/-- How the conversion of a tree ends: with a value of the type, or with one warning more. -/
theorem convertPlain_eq_some {schema : Schema} {value : Plain} {built : Option HostValue}
    {warnings : List String} (ended : convertPlain schema context value = some (built, warnings)) :
    ∃ tree first, Shape.convert schema.records.shapes schema.type.shape context value =
        some (tree, first) ∧
      ((∃ content, ofPlain schema tree = .ok content ∧ built = some content) ∨
        ∃ reason, ofPlain schema tree = .error reason ∧ built = none ∧
          warnings = first ++ [reason ++ " deserializing " ++ context]) := by
  unfold convertPlain at ended
  cases converted : Shape.convert schema.records.shapes schema.type.shape context value with
  | none =>
    rw [converted] at ended
    cases ended
  | some result =>
    obtain ⟨tree, first⟩ := result
    rw [converted] at ended
    refine ⟨tree, first, rfl, ?_⟩
    unfold Reporting.andThen at ended
    dsimp only at ended
    cases outcome : ofPlain schema tree with
    | ok content =>
      rw [outcome] at ended
      cases ended
      exact .inl ⟨content, rfl, rfl⟩
    | error reason =>
      rw [outcome] at ended
      cases ended
      exact .inr ⟨reason, rfl, rfl, rfl⟩

/-- What cannot be built of a record is told with the field, by which it differs from a record of
the wrong kind. -/
theorem record_reason_ne {name reason : String} {build : HostType → Plain → Except String HostValue}
    {properties : List (String × Plain)} {fields : List HostField}
    (failed : buildRecordFields build name properties fields = .error reason) :
    reason ++ " deserializing " ++ context ≠
      mismatch name .null ++ " deserializing " ++ context := by
  induction fields generalizing reason with
  | nil => cases failed
  | cons f rest ih =>
    unfold buildRecordFields at failed
    cases built : build f.type ((properties.lookup f.name).getD .null) with
    | error cause =>
      rw [built] at failed
      cases failed
      intro same
      -- The field stands in brackets, and the other text has no more brackets than the name.
      have brackets := congrArg (fun text => text.toList.count '(') same
      simp only [Shape.parameterContext, mismatch, String.toList_append, List.count_append]
        at brackets
      have bracket : "(".toList.count '(' = 1 := by decide
      have words : "expected ".toList.count '(' = 0 ∧ " but got ".toList.count '(' = 0 ∧
        Plain.null.kind.toList.count '(' = 0 := by decide
      omega
    | ok value =>
      rw [built] at failed
      cases later : buildRecordFields build name properties rest with
      | error cause =>
        rw [later] at failed
        cases failed
        exact ih later
      | ok values =>
        rw [later] at failed
        cases failed

/-- A record is not built from an object where one of its fields is not. -/
theorem buildRecordFields_of_ofPlain {name reason : String} {properties : List (String × Plain)}
    (failed : ofPlain ⟨.record name, records⟩ (.object properties) = .error reason) :
    ∃ build, buildRecordFields build name properties (records.fields name) = .error reason := by
  let build (type : HostType) : Plain → Except String HostValue :=
    type.orMissing (buildWith (buildRecord records (Plain.object properties).depth) type)
  have fields : (buildRecordFields build name properties (records.fields name)).map
      HostValue.record = .error reason := failed
  refine ⟨build, ?_⟩
  cases outcome : buildRecordFields build name properties (records.fields name) with
  | ok values =>
    rw [outcome] at fields
    cases fields
  | error cause =>
    rw [outcome] at fields
    cases fields
    rfl

/-- A record made from null is an object, so the warning of its output is not one of its own. -/
theorem convertPlain_output_null_record {name : String} :
    convertPlain ⟨.output (.record name), records⟩ context .null ≠
      nest (convertPlain ⟨.record name, records⟩ context .null) := by
  have outside : convertPlain ⟨.output (.record name), records⟩ context .null =
    .warn (mismatch name .null ++ " deserializing " ++ context) none := rfl
  rw [outside]
  intro same
  cases ended : convertPlain ⟨.record name, records⟩ context .null with
  | none =>
    rw [ended] at same
    cases same
  | some result =>
    obtain ⟨built, warnings⟩ := result
    obtain ⟨tree, first, converted, outcome⟩ := convertPlain_eq_some ended
    obtain ⟨fields, rfl⟩ := Shape.object_of_null_record ⟨first, converted⟩
    rw [ended] at same
    rcases outcome with ⟨content, -, rfl⟩ | ⟨reason, failed, rfl, rfl⟩
    · cases same
    · obtain ⟨properties, fieldsFailed⟩ := buildRecordFields_of_ofPlain failed
      have last := congrArg List.getLast? (Prod.mk.inj (Option.some.inj same)).2
      rw [List.append_nil, List.getLast?_concat, List.getLast?_singleton] at last
      exact record_reason_ne fieldsFailed (Option.some.inj last).symm

/-- A tree of the shape of a record is an object if it is made from null, and its output is not. -/
theorem convertPlain_output_null_shaped {name : String} :
    convertPlain ⟨.output (.shaped (.record name)), records⟩ context .null ≠
      nest (convertPlain ⟨.shaped (.record name), records⟩ context .null) := by
  have outside : convertPlain ⟨.output (.shaped (.record name)), records⟩ context .null =
    .ok (some (.output (.known (.plain .null)))) := rfl
  rw [outside]
  intro same
  cases ended : convertPlain ⟨.shaped (.record name), records⟩ context .null with
  | none =>
    rw [ended] at same
    cases same
  | some result =>
    obtain ⟨built, warnings⟩ := result
    obtain ⟨tree, first, converted, outcome⟩ := convertPlain_eq_some ended
    obtain ⟨fields, rfl⟩ := Shape.object_of_null_record ⟨first, converted⟩
    rw [ended] at same
    rcases outcome with ⟨content, inside, rfl⟩ | ⟨reason, -, rfl, -⟩
    · cases inside
      cases same
    · cases same

/-- Null becomes a record, but an output of what null is converted to, which is not the same. -/
theorem convertPlain_output_null {name : String} (record : inner.shape = .record name) :
    convertPlain ⟨.output inner, records⟩ context .null ≠
      nest (convertPlain ⟨inner, records⟩ context .null) := by
  cases inner with
  | record _ => exact convertPlain_output_null_record
  | shaped _ =>
    cases record
    exact convertPlain_output_null_shaped
  | _ => cases record

variable {lifted : Lifted Plain}

/-- Where a tree becomes an output of what it becomes as the content, so does a value. -/
theorem convertLifted_output_iff :
    convertLifted ⟨.output inner, records⟩ context dependencies lifted =
        (convertLifted ⟨inner, records⟩ context dependencies lifted).map Converted.nested ↔
      (lifted.isKnown = true → convertPlain ⟨.output inner, records⟩ context lifted.content =
        nest (convertPlain ⟨inner, records⟩ context lifted.content)) := by
  unfold convertLifted
  cases lifted.isKnown with
  | false => exact iff_of_true rfl nofun
  | true =>
    rw [if_pos rfl, if_pos rfl, imp_iff_right rfl]
    match convertPlain ⟨.output inner, records⟩ context lifted.content,
      convertPlain ⟨inner, records⟩ context lifted.content with
    | none, none => exact iff_of_true rfl rfl
    | none, some _ | some _, none => exact iff_of_false nofun nofun
    | some (outside, warnings), some (inside, warnings') =>
      constructor
      · intro same
        simp only [Option.map_some, Option.some.injEq, Converted.nested, Data.map,
          Converted.mk.injEq, Data.mk.injEq] at same
        obtain ⟨⟨rfl, -⟩, rfl⟩ := same
        exact congrArg (fun ws => some (_, ws)) (List.append_nil _).symm
      · intro same
        obtain ⟨rfl, rfl⟩ := Prod.mk.inj (Option.some.inj same)
        simp [Converted.nested, Data.map]

/-- Converted to a valid type of outputs, a value becomes what it becomes as the content: both are
known or unknown, with the same secrecy, dependencies and warnings, and what is known is an output
that is settled with the content, no secret and without dependencies. This is so exactly if it is
not the case that the content is a record and the value comes to null. -/
theorem output_like_content_iff
    (valid : Shape.validate records.shapes (HostType.output inner).shape context = .ok ())
    (dependencies : List Key) {σ : Type} (resolve : Plain.Resolver σ) (value : Value) (state : σ) :
    ∃ result after,
      convertValue ⟨inner, records⟩ context dependencies resolve value state =
        (.ok result, after) ∧
      (convertValue ⟨.output inner, records⟩ context dependencies resolve value state =
          (.ok (result.map Converted.nested), after) ↔
        ¬ (value.comesToNull = true ∧ ∃ name, inner.shape = .record name)) := by
  have inside : Shape.validate records.shapes inner.shape context = .ok () :=
    Shape.validate_of_output valid
  unfold convertValue
  dsimp only
  rw [valid, inside]
  refine ⟨_, _, rfl, ?_⟩
  dsimp only
  rw [Prod.mk.injEq, Except.ok.injEq, and_iff_left rfl, convertLifted_output_iff,
    ← Plain.ofValue_eq_null_iff resolve value state]
  constructor
  · rintro same ⟨⟨known, null⟩, name, record⟩
    exact convertPlain_output_null record (null ▸ same known)
  · intro usual known
    exact convertPlain_output fun null name record => usual ⟨⟨known, null⟩, name, record⟩

/-- A secret line from a point of which everything is missing. -/
def secretLine : Converted :=
  ⟨⟨some (.record [("start", "start", .record [("x", "x", .int 0)])]), true, [7]⟩, []⟩

theorem output_like_content_iff_line :
    let resolve : Plain.Resolver Nat := fun _ made => (made, made + 1)
    Shape.validate Shape.lines.shapes (HostType.output (.record "Line")).shape "prop" = .ok () ∧
      convertValue ⟨.record "Line", Shape.lines⟩ "prop" [7] resolve (.secret (.object [])) 0 =
        (.ok (some secretLine), 0) ∧
      convertValue ⟨.output (.record "Line"), Shape.lines⟩ "prop" [7] resolve
        (.secret (.object [])) 0 = (.ok (some secretLine.nested), 0) := by
  intro resolve
  have valid : Shape.validate Shape.lines.shapes (HostType.output (.record "Line")).shape "prop" =
    .ok () := rfl
  have line : convertValue ⟨.record "Line", Shape.lines⟩ "prop" [7] resolve
    (.secret (.object [])) 0 = (.ok (some secretLine), 0) := rfl
  obtain ⟨result, after, content, alike⟩ :=
    output_like_content_iff valid [7] resolve (.secret (.object [])) 0
  cases content.symm.trans line
  exact ⟨valid, line, alike.mpr (by simp [Value.comesToNull])⟩

/-- Null becomes a point, all of which is missing, but nothing that is known as an output of
points. -/
theorem output_of_null_unknown :
    Shape.validate Shape.lines.shapes (HostType.output (.record "Point")).shape "prop" = .ok () ∧
      convertValue ⟨.record "Point", Shape.lines⟩ "prop" []
          (fun _ (made : Nat) => (made, made + 1)) .null 0 =
        (.ok (some ⟨.known (.record [("x", "x", .int 0)]), []⟩), 0) ∧
      convertValue ⟨.output (.record "Point"), Shape.lines⟩ "prop" []
          (fun _ (made : Nat) => (made, made + 1)) .null 0 =
        (.ok (some ⟨.unknown, ["expected Point but got null deserializing prop"]⟩), 0) :=
  ⟨rfl, rfl, rfl⟩

end HostType

end Provision
