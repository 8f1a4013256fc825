import Mathlib.Tactic.Choose
import Provision.Proofs.Host.Restorable
import Provision.Proofs.Input.Sending
import Provision.Proofs.Number
import Provision.Proofs.Shape.Converting

/-!
# Values of the program that survive their way

A value of a restorable type is sent as an engine value from which the same value is converted
back, known, not secret and without a warning (`convertValue_serialize`). Null entries are left
out on the way out, so a field that was left out must be absent, and is absent again when it is
built from nothing.
-/

namespace Provision

namespace Input

variable {δ : Type}

theorem itemsOfHost_eq (items : List HostValue) :
    (itemsOfHost items : List (Input δ)) = items.map ofHost := by
  induction items with
  | nil => rfl
  | cons item rest ih => rw [itemsOfHost, ih, List.map_cons]

theorem fieldsOfHost_eq (fields : List (String × HostValue)) :
    (fieldsOfHost fields : List (String × Input δ)) = fields.map fun f => (f.1, ofHost f.2) := by
  induction fields with
  | nil => rfl
  | cons field rest ih =>
    obtain ⟨key, value⟩ := field
    rw [fieldsOfHost, ih, List.map_cons]

theorem recordOfHost_eq (fields : List (String × String × HostValue)) :
    (recordOfHost fields : List (String × Input δ)) =
      fields.map fun f => (f.2.1, ofHost f.2.2) := by
  induction fields with
  | nil => rfl
  | cons field rest ih =>
    obtain ⟨name, wireName, value⟩ := field
    rw [recordOfHost, ih, List.map_cons]

end Input

namespace HostType

variable {ι : Type} {records : HostRecords} {build : Plain → Except String HostValue}

/-! ### Parts built one after the other -/

theorem buildItems_rows {rows : List ι} {tree : ι → Plain} {value : ι → HostValue}
    (each : ∀ r ∈ rows, build (tree r) = .ok (value r)) :
    buildItems build (rows.map tree) = .ok (rows.map value) := by
  induction rows with
  | nil => rfl
  | cons r rest ih =>
    have tail := ih fun q hq => each q (List.mem_cons_of_mem _ hq)
    rw [List.map_cons, buildItems, each r (by simp), tail]
    rfl

theorem buildFields_rows {rows : List ι} {key : ι → String} {tree : ι → Plain}
    {value : ι → HostValue} (each : ∀ r ∈ rows, build (tree r) = .ok (value r)) :
    buildFields build (rows.map fun r => (key r, tree r)) =
      .ok (rows.map fun r => (key r, value r)) := by
  induction rows with
  | nil => rfl
  | cons r rest ih =>
    have tail := ih fun q hq => each q (List.mem_cons_of_mem _ hq)
    rw [List.map_cons, buildFields, each r (by simp), tail]
    rfl

theorem buildRecordFields_rows {build : HostType → Plain → Except String HostValue}
    (name : String) {properties : List (String × Plain)} {fields : List HostField}
    {value : HostField → HostValue}
    (each : ∀ f ∈ fields,
      build f.type ((properties.lookup f.name).getD .null) = .ok (value f)) :
    buildRecordFields build name properties fields =
      .ok (fields.map fun f => (f.name, f.wireName, value f)) := by
  induction fields with
  | nil => rfl
  | cons f rest ih =>
    have tail := ih fun g hg => each g (List.mem_cons_of_mem _ hg)
    rw [buildRecordFields, each f (by simp), tail]
    rfl

/-- Only for null the type's missing value is taken. -/
theorem orMissing_of_present (type : HostType) {tree : Plain} (present : tree ≠ .null) :
    type.orMissing build tree = build tree := by
  cases tree with
  | null => exact absurd rfl present
  | _ => rfl

/-! ### Values of a type -/

/-- The value is one of the type. No file in it is invalid, and no key of its maps is the
signature. A record has a value for each field of the record's definition. -/
inductive HasType (records : HostRecords) : HostType → HostValue → Prop where
  | bool (b : Bool) : HasType records .bool (.bool b)
  | int {i : Int} (range : Number.IsInt32 i) : HasType records .int (.int i)
  | number (x : Number) : HasType records .number (.number x)
  | string (s : String) : HasType records .string (.string s)
  | asset {content : Asset} (valid : (File.asset content).hasInvalid = false) :
      HasType records .asset (.file (.asset content))
  | archive {content : File} (isArchive : content.isAsset = false)
      (valid : content.hasInvalid = false) : HasType records .archive (.file content)
  | file {content : File} (valid : content.hasInvalid = false) :
      HasType records .file (.file content)
  | enum {description : Enumeration} {member : String} {form : Scalar}
      (known : (member, form) ∈ description.members) :
      HasType records (.enum description) (.enum member form)
  | absent (inner : HostType) : HasType records (.option inner) .absent
  | present {inner : HostType} {value : HostValue} (inside : HasType records inner value) :
      HasType records (.option inner) (.present value)
  | list {element : HostType} {items : List HostValue}
      (each : ∀ x ∈ items, HasType records element x) : HasType records (.list element) (.list items)
  | map {element : HostType} {fields : List (String × HostValue)}
      (ordered : Fields.Ordered fields) (unsigned : ∀ f ∈ fields, f.1 ≠ Signature.key)
      (each : ∀ f ∈ fields, HasType records element f.2) :
      HasType records (.map element) (.map fields)
  | record (name : String) (value : HostField → HostValue)
      (each : ∀ f ∈ records.fields name, HasType records f.type (value f)) :
      HasType records (.record name)
        (.record ((records.fields name).map fun f => (f.name, f.wireName, value f)))

/-- The value is sent as an engine value, and built again from the tree that this is converted
to. Neither of the two is null, unless the type is optional. -/
structure Restored (records : HostRecords) (type : HostType) (value : HostValue) (sent : Value)
    (tree : Plain) : Prop where
  sends : ∀ δ : Type, Input.Sends (Input.ofHost value : Input δ) sent
  lifts : Plain.Lifts sent sent.asPlain
  converts : Shape.Converts records.shapes type.shape sent.asPlain tree
  builds : ∀ depth, tree.depth < depth →
    type.orMissing (buildWith (buildRecord records depth) type) tree = .ok value
  present : (∀ inner, type ≠ .option inner) → sent.isNull = false ∧ tree ≠ .null

/-- What is built without records is built at any depth. -/
theorem Restored.of_present {type : HostType} {value : HostValue} {sent : Value} {tree : Plain}
    (sends : ∀ δ : Type, Input.Sends (Input.ofHost value : Input δ) sent)
    (lifts : Plain.Lifts sent sent.asPlain)
    (converts : Shape.Converts records.shapes type.shape sent.asPlain tree)
    (builds : ∀ depth, tree.depth < depth →
      buildWith (buildRecord records depth) type tree = .ok value)
    (sentPresent : sent.isNull = false) (treePresent : tree ≠ .null) :
    Restored records type value sent tree where
  sends := sends
  lifts := lifts
  converts := converts
  builds := by
    intro depth enough
    rw [orMissing_of_present type treePresent]
    exact builds depth enough
  present := fun _ => ⟨sentPresent, treePresent⟩

theorem restored_file {type : HostType} {content : File} (valid : content.hasInvalid = false)
    (converts : Shape.Converts records.shapes type.shape (.file content) (.file content))
    (builds : ∀ depth, buildWith (buildRecord records depth) type (.file content) =
      .ok (.file content)) :
    ∃ sent tree, Restored records type (.file content) sent tree := by
  obtain ⟨sent, ok⟩ := File.toValue_of_valid valid
  have lifts := Plain.Lifts.file ok
  have isPresent : sent.isNull = false := by
    have read := File.ofValue?_toValue ok
    cases sent with
    | null => cases read
    | _ => rfl
  refine ⟨sent, .file content, .of_present (fun _ => Input.Sends.file ok) ?_ ?_
    (fun depth _ => builds depth) isPresent (by simp)⟩
  · rwa [← lifts.eq_asPlain]
  · rwa [← lifts.eq_asPlain]

theorem restored_list {element : HostType} {items : List HostValue}
    (each : ∀ x ∈ items, ∃ sent tree, Restored records element x sent tree) :
    ∃ sent tree, Restored records (.list element) (.list items) sent tree := by
  choose! sent tree restored using each
  have lifts : Plain.Lifts (.array (items.map sent))
      (.array (items.map fun x => (sent x).asPlain)) :=
    Plain.Lifts.array fun x hx => (restored x hx).lifts
  refine ⟨.array (items.map sent), .array (items.map tree), .of_present ?_ ?_ ?_ ?_ rfl (by simp)⟩
  · intro δ
    rw [Input.ofHost, Input.itemsOfHost_eq]
    exact Input.Sends.array fun x hx => (restored x hx).sends δ
  · rwa [← lifts.eq_asPlain]
  · rw [← lifts.eq_asPlain]
    exact Shape.Converts.array fun x hx => (restored x hx).converts
  · intro depth enough
    have built : ∀ x ∈ items,
        element.orMissing (buildWith (buildRecord records depth) element) (tree x) = .ok x := by
      intro x hx
      have below := Plain.depth_le_of_mem (List.mem_map_of_mem (f := tree) hx)
      unfold Plain.depth at enough
      exact (restored x hx).builds depth (by omega)
    have all : buildItems (element.orMissing (buildWith (buildRecord records depth) element))
        (items.map tree) = .ok (items.map id) := buildItems_rows built
    rw [List.map_id] at all
    unfold buildWith
    dsimp only
    rw [all]
    rfl

theorem restored_map {element : HostType} (single : ∀ type, element ≠ .option type)
    {fields : List (String × HostValue)} (unsigned : ∀ f ∈ fields, f.1 ≠ Signature.key)
    (each : ∀ f ∈ fields, ∃ sent tree, Restored records element f.2 sent tree) :
    ∃ sent tree, Restored records (.map element) (.map fields) sent tree := by
  choose! sent tree restored using each
  have lifts : Plain.Lifts (.object (fields.map fun f => (f.1, sent f)))
      (.object (fields.map fun f => (f.1, (sent f).asPlain))) :=
    Plain.Lifts.object unsigned fun f hf => (restored f hf).lifts
  -- No entry is left out, for none of them is null.
  have kept : Value.dropNulls (fields.map fun f => (f.1, sent f)) =
      fields.map fun f => (f.1, sent f) := by
    refine Value.dropNulls_eq_self fun entry member => ?_
    obtain ⟨f, hf, rfl⟩ := List.mem_map.mp member
    exact ((restored f hf).present single).1
  refine ⟨.object (fields.map fun f => (f.1, sent f)),
    .object (fields.map fun f => (f.1, tree f)), .of_present ?_ ?_ ?_ ?_ rfl (by simp)⟩
  · intro δ
    rw [Input.ofHost, Input.fieldsOfHost_eq, ← kept]
    exact Input.Sends.object fun f hf => (restored f hf).sends δ
  · rwa [← lifts.eq_asPlain]
  · rw [← lifts.eq_asPlain]
    exact Shape.Converts.map .string fun f hf => (restored f hf).converts
  · intro depth enough
    have built : ∀ f ∈ fields,
        element.orMissing (buildWith (buildRecord records depth) element) (tree f) =
          .ok f.2 := by
      intro f hf
      have below : (tree f).depth ≤ Plain.depthFields (fields.map fun f => (f.1, tree f)) :=
        Plain.depth_le_of_mem_fields (List.mem_map_of_mem (f := fun f => (f.1, tree f)) hf)
      unfold Plain.depth at enough
      exact (restored f hf).builds depth (by omega)
    have all : buildFields (element.orMissing (buildWith (buildRecord records depth) element))
        (fields.map fun f => (f.1, tree f)) = .ok (fields.map id) := buildFields_rows built
    rw [List.map_id] at all
    unfold buildWith
    dsimp only
    rw [all]
    rfl

/-- The properties that a record is sent as: those of its fields that are not null. -/
def properties (fields : List HostField) (sent : HostField → Value) : Fields Value :=
  Value.dropNulls ((Fields.ofList (fields.map fun f => (f.wireName, f))).map fun e =>
    (e.1, sent e.2))

theorem mem_properties {fields : List HostField} {sent : HostField → Value}
    {entry : String × Value} (member : entry ∈ properties fields sent) :
    ∃ f ∈ fields, entry = (f.wireName, sent f) := by
  obtain ⟨e, he, rfl⟩ := List.mem_map.mp (List.mem_filter.mp member).1
  obtain ⟨f, hf, rfl⟩ := List.mem_map.mp (Fields.mem_of_mem_ofList he)
  exact ⟨f, hf, rfl⟩

/-- What a field is read from: its own value, also if that was left out. -/
theorem lookup_properties {fields : List HostField} (sent : HostField → Value)
    (nodup : (fields.map HostField.wireName).Nodup) {f : HostField} (member : f ∈ fields) :
    ((properties fields sent).lookup f.wireName).getD .null = sent f := by
  have keys : (Fields.keys (fields.map fun f => (f.wireName, f))).Nodup := by
    unfold Fields.keys
    rwa [List.map_map]
  have ordered := Fields.ordered_ofList (fields.map fun f => (f.wireName, f))
  have mapped := ordered.map fun e => sent e.2
  have found := Fields.lookup_ofList_of_nodup keys (List.mem_map_of_mem member)
  unfold properties Value.dropNulls
  rw [mapped.lookup_filter, Fields.lookup_map _ sent, found, Option.map_some]
  cases isNull : sent f with
  | null => rfl
  | _ => rfl

theorem restored_record {name : String} {value : HostField → HostValue}
    (distinct : HostRecords.Distinct (records.fields name))
    (each : ∀ f ∈ records.fields name, ∃ sent tree, Restored records f.type (value f) sent tree) :
    ∃ sent tree, Restored records (.record name)
      (.record ((records.fields name).map fun f => (f.name, f.wireName, value f))) sent tree := by
  choose! sent tree restored using each
  have lifts : Plain.Lifts (.object (properties (records.fields name) sent))
      (.object ((properties (records.fields name) sent).map fun e => (e.1, e.2.asPlain))) := by
    refine Value.lifts_object ?_ ?_
    · intro entry member
      obtain ⟨f, hf, rfl⟩ := mem_properties member
      exact distinct.unsigned f hf
    · intro entry member
      obtain ⟨f, hf, rfl⟩ := mem_properties member
      exact (restored f hf).lifts
  have names : (Fields.keys ((records.fields name).map fun f => (f.name, tree f))).Nodup := by
    unfold Fields.keys
    rw [List.map_map]
    exact distinct.names
  refine ⟨.object (properties (records.fields name) sent),
    .object (Fields.ofList ((records.fields name).map fun f => (f.name, tree f))),
    .of_present ?_ ?_ ?_ ?_ rfl (by simp)⟩
  · intro δ
    have written : Fields.ofList (Input.recordOfHost ((records.fields name).map fun f =>
        (f.name, f.wireName, value f))) =
        (Fields.ofList ((records.fields name).map fun f => (f.wireName, f))).map fun e =>
          (e.1, (Input.ofHost (value e.2) : Input δ)) := by
      rw [← Fields.ofList_map _ fun f : HostField => (Input.ofHost (value f) : Input δ),
        Input.recordOfHost_eq, List.map_map, List.map_map]
      rfl
    rw [Input.ofHost, written]
    refine Input.Sends.object fun e he => ?_
    obtain ⟨f, hf, rfl⟩ := List.mem_map.mp (Fields.mem_of_mem_ofList he)
    exact (restored f hf).sends δ
  · rwa [← lifts.eq_asPlain]
  · rw [← lifts.eq_asPlain]
    -- A property that was left out is read as null, which is what was sent for the field.
    have converted : ∀ f ∈ records.fields name, Shape.Converts records.shapes f.type.shape
        ((((properties (records.fields name) sent).map fun e =>
          (e.1, e.2.asPlain)).lookup f.wireName).getD .null) (tree f) := by
      intro f hf
      have converts := (restored f hf).converts
      rw [← lookup_properties sent distinct.wireNames hf] at converts
      rw [Fields.lookup_map]
      cases found : (properties (records.fields name) sent).lookup f.wireName with
      | none =>
        rw [found] at converts
        exact converts
      | some value =>
        rw [found] at converts
        exact converts
    exact Shape.Converts.record (records.parameters_shapes name) distinct.parameters converted
  · intro depth enough
    cases depth with
    | zero => omega
    | succ depth =>
      have built : ∀ f ∈ records.fields name,
          f.type.orMissing (buildWith (buildRecord records depth) f.type)
            (((Fields.ofList ((records.fields name).map fun f => (f.name, tree f))).lookup
              f.name).getD .null) = .ok (value f) := by
        intro f hf
        have found := Fields.lookup_ofList_of_nodup names (List.mem_map_of_mem hf)
        have below := Plain.depth_le_of_lookup
          (Fields.ofList ((records.fields name).map fun f => (f.name, tree f))) f.name
        rw [found, Option.getD_some] at below ⊢
        unfold Plain.depth at enough
        exact (restored f hf).builds depth (by omega)
      unfold buildWith buildRecord
      dsimp only
      rw [buildRecordFields_rows name built]
      rfl

theorem restored_enum {description : Enumeration} (faithful : description.Faithful)
    {member : String} {form : Scalar} (known : (member, form) ∈ description.members) :
    ∃ sent tree, Restored records (.enum description) (.enum member form) sent tree := by
  have backed := faithful.backed _ known
  have undone := faithful.undone _ known
  cases form with
  | text s =>
    have backing : description.backing = .string := backed.symm
    refine ⟨.string s, .string s, .of_present (fun _ => Input.Sends.string s)
      (Plain.Lifts.string s) ?_ (fun _ _ => undone) rfl (by simp)⟩
    unfold HostType.shape
    rw [backing]
    exact Shape.Converts.enumString description.name s
  | number x =>
    have backing : description.backing = .number := backed.symm
    refine ⟨.number x, .number x, .of_present (fun _ => Input.Sends.number x)
      (Plain.Lifts.number x) ?_ (fun _ _ => undone) rfl (by simp)⟩
    unfold HostType.shape
    rw [backing]
    exact Shape.Converts.enumNumber description.name x

/-- A value that is present survives as its content does, which is not null. -/
theorem Restored.optional {inner : HostType} {value : HostValue} {sent : Value} {tree : Plain}
    (single : ∀ type, inner ≠ .option type) (restored : Restored records inner value sent tree) :
    Restored records (.option inner) (.present value) sent tree where
  sends := restored.sends
  lifts := restored.lifts
  converts := by
    -- The content is not optional itself, so it is not sent as null and not taken for absent.
    refine restored.converts.optional fun null => ?_
    obtain rfl := restored.lifts.eq_null null
    cases (restored.present single).1
  builds := by
    intro depth enough
    have present := (restored.present single).2
    have built := restored.builds depth enough
    rw [orMissing_of_present _ present]
    cases tree with
    | null => exact absurd rfl present
    | _ =>
      unfold buildWith
      dsimp only
      rw [built]
      rfl
  present := fun not => absurd rfl (not inner)

/-- Every value of a restorable type survives. -/
theorem HasType.restored {type : HostType} {value : HostValue}
    (typed : HasType records type value) (restorable : Restorable records type) :
    ∃ sent tree, Restored records type value sent tree := by
  have faithful := restorable type (.here type)
  induction typed with
  | bool b =>
    exact ⟨.bool b, .bool b, .of_present (fun _ => Input.Sends.bool b) (Plain.Lifts.bool b)
      (Shape.Converts.bool b) (fun _ _ => rfl) rfl (by simp)⟩
  | int range =>
    rename_i i
    refine ⟨.number (.ofInt i), .number (.ofInt i), .of_present (fun _ => Input.Sends.number _)
      (Plain.Lifts.number _) ?_ ?_ rfl (by simp)⟩
    · exact Shape.Converts.int (Number.isInteger_ofInt range.small).trunc
    · intro depth _
      unfold buildWith
      dsimp only
      rw [Number.toInt32_ofInt range]
  | number x =>
    exact ⟨.number x, .number x, .of_present (fun _ => Input.Sends.number x)
      (Plain.Lifts.number x) (Shape.Converts.number x) (fun _ _ => rfl) rfl (by simp)⟩
  | string s =>
    exact ⟨.string s, .string s, .of_present (fun _ => Input.Sends.string s)
      (Plain.Lifts.string s) (Shape.Converts.string s) (fun _ _ => rfl) rfl (by simp)⟩
  | asset valid => exact restored_file valid (Shape.Converts.asset _) fun _ => rfl
  | archive isArchive valid =>
    refine restored_file valid (Shape.Converts.archive isArchive) fun depth => ?_
    unfold buildWith
    dsimp only
    rw [isArchive]
    rfl
  | file valid => exact restored_file valid (Shape.Converts.file _) fun _ => rfl
  | enum known => exact restored_enum faithful known
  | absent inner =>
    refine ⟨.null, .null, fun _ => Input.Sends.null, Plain.Lifts.null,
      Shape.Converts.null (by simp [HostType.shape]), fun _ _ => rfl, ?_⟩
    intro not
    exact absurd rfl (not inner)
  | present inside ih =>
    have below : Restorable records _ := restorable.part List.mem_cons_self
    obtain ⟨sent, tree, restored⟩ := ih below (below _ (.here _))
    exact ⟨sent, tree, restored.optional faithful⟩
  | list each ih =>
    have below : Restorable records _ := restorable.part List.mem_cons_self
    exact restored_list fun x hx => ih x hx below (below _ (.here _))
  | map ordered unsigned each ih =>
    have below : Restorable records _ := restorable.part List.mem_cons_self
    exact restored_map faithful unsigned fun f hf => ih f hf below (below _ (.here _))
  | record name value each ih =>
    refine restored_record faithful fun f hf => ?_
    have below : Restorable records f.type := restorable.part (List.mem_map_of_mem hf)
    exact ih f hf below (below _ (.here _))

/-- A value of a restorable type is sent as one engine value, whatever the context and the
engine, and this is converted to the same value again. -/
theorem convertValue_serialize {schema : Schema} {value : HostValue}
    (restorable : Restorable schema.records schema.type)
    (typed : HasType schema.records schema.type value) :
    ∃ sent : Value,
      (∀ (δ : Type) (view : Key → ResourceView) (features : EngineFeatures)
          (await : String → δ → Await Serialized) (context : String),
        Input.serialize view features await context (.ofHost value) = .done ⟨sent, []⟩) ∧
      ∀ (σ : Type) (resolve : Plain.Resolver σ) (state : σ) (dependencies : List Key)
          (context : String),
        convertValue schema context dependencies resolve sent state =
          (.ok (some ⟨⟨some value, false, dependencies⟩, []⟩), state) := by
  obtain ⟨sent, tree, restored⟩ := typed.restored restorable
  refine ⟨sent, fun δ => restored.sends δ, ?_⟩
  intro σ resolve state dependencies context
  have built : ofPlain schema tree = .ok value := restored.builds _ (Nat.lt_succ_self _)
  exact convertValue_of_converts (restorable.validate context) restored.lifts restored.converts
    built resolve state dependencies

def tiers : Enumeration :=
  ⟨"Tier", .string, [("Basic", .text "basic"), ("Premium", .text "premium")], some "Basic",
    .noMember⟩

/-- Endpoints under renamed properties, each with an endpoint to fall back on. -/
def endpoints : HostRecords :=
  [("Endpoint", [⟨"fallback", "fallbackEndpoint", .option (.record "Endpoint")⟩,
    ⟨"port", "portNumber", .int⟩, ⟨"tier", "tier", .option (.enum tiers)⟩])]

/-- An endpoint with another one to fall back on, which has none itself. -/
def endpoint : HostValue :=
  .record [("fallback", "fallbackEndpoint", .present (.record
      [("fallback", "fallbackEndpoint", .absent), ("port", "portNumber", .int (-1)),
        ("tier", "tier", .present (.enum "Premium" (.text "premium")))])),
    ("port", "portNumber", .int 8080), ("tier", "tier", .absent)]

theorem tiers_faithful : tiers.Faithful := by
  constructor
  · decide
  · intro m member
    simp only [tiers, List.mem_cons, List.not_mem_nil, or_false] at member
    rcases member with rfl | rfl <;> rfl

/-- Inside the types of the endpoints there are only these. -/
theorem endpoints_faithful {type node : HostType} (path : Reaches endpoints type node)
    (start : type ∈ [.record "Endpoint", .option (.record "Endpoint"), .int, .option (.enum tiers),
      .enum tiers]) : node.Faithful endpoints := by
  induction path with
  | here type =>
    simp only [List.mem_cons, List.not_mem_nil, or_false] at start
    rcases start with rfl | rfl | rfl | rfl | rfl
    · exact ⟨by decide, by decide, by decide⟩
    · intro type h
      cases h
    · trivial
    · intro type h
      cases h
    · exact tiers_faithful
  | inside member _ ih =>
    refine ih ?_
    simp only [List.mem_cons, List.not_mem_nil, or_false] at start
    rcases start with rfl | rfl | rfl | rfl | rfl
    · have fields : (HostType.record "Endpoint").parts endpoints =
          [.option (.record "Endpoint"), .int, .option (.enum tiers)] := rfl
      rw [fields] at member
      simp only [List.mem_cons, List.not_mem_nil, or_false] at member
      rcases member with rfl | rfl | rfl <;> simp
    · obtain rfl := List.mem_singleton.mp member
      simp
    · cases member
    · obtain rfl := List.mem_singleton.mp member
      simp
    · cases member

def fieldsOf (fallback port tier : HostValue) (f : HostField) : HostValue :=
  if f.name = "fallback" then fallback else if f.name = "port" then port else tier

theorem hasType_endpoint {fallback port tier : HostValue}
    (first : HasType endpoints (.option (.record "Endpoint")) fallback)
    (second : HasType endpoints .int port)
    (third : HasType endpoints (.option (.enum tiers)) tier) :
    HasType endpoints (.record "Endpoint")
      (.record [("fallback", "fallbackEndpoint", fallback), ("port", "portNumber", port),
        ("tier", "tier", tier)]) := by
  refine .record "Endpoint" (fieldsOf fallback port tier) fun f member => ?_
  have fields : endpoints.fields "Endpoint" =
      [⟨"fallback", "fallbackEndpoint", .option (.record "Endpoint")⟩,
        ⟨"port", "portNumber", .int⟩, ⟨"tier", "tier", .option (.enum tiers)⟩] := rfl
  rw [fields] at member
  simp only [List.mem_cons, List.not_mem_nil, or_false] at member
  rcases member with rfl | rfl | rfl
  · exact first
  · exact second
  · exact third

theorem convertValue_serialize_endpoint :
    Restorable endpoints (.record "Endpoint") ∧ HasType endpoints (.record "Endpoint") endpoint ∧
    ∃ sent : Value,
      (∀ (δ : Type) (view : Key → ResourceView) (features : EngineFeatures)
          (await : String → δ → Await Serialized) (context : String),
        Input.serialize view features await context (.ofHost endpoint) = .done ⟨sent, []⟩) ∧
      ∀ (σ : Type) (resolve : Plain.Resolver σ) (state : σ) (dependencies : List Key)
          (context : String),
        convertValue ⟨.record "Endpoint", endpoints⟩ context dependencies resolve sent state =
          (.ok (some ⟨⟨some endpoint, false, dependencies⟩, []⟩), state) := by
  have restorable : Restorable endpoints (.record "Endpoint") :=
    fun node path => endpoints_faithful path (by simp)
  have below : HasType endpoints .int (.int (-1)) := .int ⟨by decide, by decide⟩
  have premium : HasType endpoints (.enum tiers) (.enum "Premium" (.text "premium")) :=
    .enum (by decide)
  have fallback := hasType_endpoint (.absent _) below (.present premium)
  have typed : HasType endpoints (.record "Endpoint") endpoint :=
    hasType_endpoint (.present fallback) (.int ⟨by decide, by decide⟩) (.absent _)
  exact ⟨restorable, typed,
    @convertValue_serialize ⟨.record "Endpoint", endpoints⟩ _ restorable typed⟩

end HostType

end Provision
