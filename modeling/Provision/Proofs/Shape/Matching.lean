import Mathlib.Tactic.Choose
import Provision.Proofs.Input.Sending
import Provision.Proofs.Number
import Provision.Proofs.Shape.Converting
import Provision.Proofs.Shape.Soundness

/-!
# Values that match a shape

A value matches a shape if every part of it is of the kind that the shape asks for, and nothing
is missing from it but optional parameters of records. Such a value is converted without a
warning, and the converted tree is sent as that very value (`Matches.returns`), if every record
uses the names of the properties for its parameters too.
-/

namespace Provision

namespace Value

theorem ordered_of_mem {items : List Value} (ordered : OrderedItems items) {item : Value}
    (member : item ∈ items) : item.Ordered := by
  induction items with
  | nil => cases member
  | cons head rest ih =>
    obtain ⟨first, later⟩ := ordered
    rcases List.mem_cons.mp member with rfl | member
    · exact first
    · exact ih later member

theorem ordered_of_mem_fields {fields : List (String × Value)} (ordered : OrderedFields fields)
    {field : String × Value} (member : field ∈ fields) : field.2.Ordered := by
  induction fields with
  | nil => cases member
  | cons head rest ih =>
    obtain ⟨first, later⟩ := ordered
    rcases List.mem_cons.mp member with rfl | member
    · exact first
    · exact ih later member

/-- Data without unknowns, secrets and references. A key of its objects is the signature's only
in the payload of a file, where files are allowed, and no entry of them is null. -/
inductive Unmarked (files : Bool) : Value → Prop where
  | null : Unmarked files .null
  | bool (b : Bool) : Unmarked files (.bool b)
  | number (x : Number) : Unmarked files (.number x)
  | string (s : String) : Unmarked files (.string s)
  | array {items : List Value} (each : ∀ v ∈ items, Unmarked files v) :
      Unmarked files (.array items)
  | object {fields : List (String × Value)} (unsigned : ∀ f ∈ fields, f.1 ≠ Signature.key)
      (present : ∀ f ∈ fields, f.2.isNull = false) (each : ∀ f ∈ fields, Unmarked files f.2) :
      Unmarked files (.object fields)
  | file (allowed : files = true) {content : File} {value : Value}
      (ok : content.toValue = .ok value) : Unmarked files value

end Value

namespace Shape

/-- A parameter of the shape may be missing. -/
def isOptional : Shape → Bool
  | .optional _ => true
  | .output inner => inner.isOptional
  | _ => false

/-- The attempt to convert the value to the shape ends with a mismatch. -/
def Rejected (records : Records) (shape : Shape) (value : Value) : Prop :=
  ∃ depth context message warnings,
    tryConvert (fillRecord records depth) shape context value.asPlain =
      some (.error message, warnings)

/-- The value matches the shape without anything that has to be made up. -/
inductive Matches (records : Records) : Shape → Value → Prop where
  | bool (b : Bool) : Matches records .bool (.bool b)
  | int {x : Number} (integer : x.IsInteger) : Matches records .int (.number x)
  | number (x : Number) : Matches records .number (.number x)
  | string (s : String) : Matches records .string (.string s)
  | any {value : Value} (unmarked : value.Unmarked true) : Matches records .any value
  | json {value : Value} (unmarked : value.Unmarked false) : Matches records .json value
  | asset {content : Asset} {value : Value} (ok : (File.asset content).toValue = .ok value) :
      Matches records .asset value
  | archive {content : File} (isArchive : content.isAsset = false) {value : Value}
      (ok : content.toValue = .ok value) : Matches records .archive value
  | file {content : File} {value : Value} (ok : content.toValue = .ok value) :
      Matches records .file value
  | enumString (name s : String) : Matches records (.enum name .string) (.string s)
  | enumNumber (name : String) (x : Number) : Matches records (.enum name .number) (.number x)
  | optionalNull (inner : Shape) : Matches records (.optional inner) .null
  | optional {inner : Shape} {value : Value} (inside : Matches records inner value) :
      Matches records (.optional inner) value
  | output {inner : Shape} {value : Value} (inside : Matches records inner value) :
      Matches records (.output inner) value
  | unionFirst {first : Shape} (second : Shape) {value : Value}
      (inside : Matches records first value) : Matches records (.union first second) value
  | unionSecond {first second : Shape} {value : Value} (rejected : Rejected records first value)
      (inside : Matches records second value) : Matches records (.union first second) value
  | array {element : Shape} {items : List Value} (each : ∀ v ∈ items, Matches records element v) :
      Matches records (.array element) (.array items)
  | map (keyShape : Shape) {element : Shape} {fields : List (String × Value)}
      (unsigned : ∀ f ∈ fields, f.1 ≠ Signature.key)
      (present : ∀ f ∈ fields, f.2.isNull = false)
      (each : ∀ f ∈ fields, Matches records element f.2) :
      Matches records (.map keyShape element) (.object fields)
  | record {name : String} {fields : List (String × Value)}
      (unsigned : ∀ f ∈ fields, f.1 ≠ Signature.key)
      (present : ∀ f ∈ fields, f.2.isNull = false)
      (known : ∀ f ∈ fields, ∃ p ∈ records.parameters name, p.wireName = f.1)
      (each : ∀ p ∈ records.parameters name, ∀ v, fields.lookup p.wireName = some v →
        Matches records p.shape v)
      (complete : ∀ p ∈ records.parameters name, fields.lookup p.wireName = none →
        p.shape.isOptional = true) :
      Matches records (.record name) (.object fields)

/-! ### Values that come back -/

theorem areDocuments_map {ι : Type} {rows : List ι} {tree : ι → Plain}
    (each : ∀ r ∈ rows, isDocument (tree r) = true) : areDocuments (rows.map tree) = true := by
  induction rows with
  | nil => rfl
  | cons r rest ih =>
    have tail := ih fun q hq => each q (List.mem_cons_of_mem _ hq)
    rw [List.map_cons, areDocuments, each r (by simp), tail]
    rfl

theorem haveDocuments_map {ι : Type} {rows : List ι} {key : ι → String} {tree : ι → Plain}
    (each : ∀ r ∈ rows, isDocument (tree r) = true) :
    haveDocuments (rows.map fun r => (key r, tree r)) = true := by
  induction rows with
  | nil => rfl
  | cons r rest ih =>
    have tail := ih fun q hq => each q (List.mem_cons_of_mem _ hq)
    rw [List.map_cons, haveDocuments, each r (by simp), tail]
    rfl

end Shape

namespace Value

/-- Data without marks is converted to any document shape as it is, and sent as it is. -/
theorem Unmarked.returns {files : Bool} {value : Value} (unmarked : value.Unmarked files) :
    Plain.Lifts value value.asPlain ∧ value.asPlain.Sent value ∧
      (files = false → Shape.isDocument value.asPlain = true) := by
  induction unmarked with
  | null => exact ⟨Plain.Lifts.null, fun _ => Input.Sends.null, fun _ => rfl⟩
  | bool b => exact ⟨Plain.Lifts.bool b, fun _ => Input.Sends.bool b, fun _ => rfl⟩
  | number x => exact ⟨Plain.Lifts.number x, fun _ => Input.Sends.number x, fun _ => rfl⟩
  | string s => exact ⟨Plain.Lifts.string s, fun _ => Input.Sends.string s, fun _ => rfl⟩
  | array each ih =>
    rename_i items
    have lifts := lifts_array fun v hv => (ih v hv).1
    have sent : Plain.Sent (.array (items.map asPlain)) (.array (items.map id)) :=
      Plain.Sent.array fun v hv => (ih v hv).2.1
    rw [← lifts.eq_asPlain]
    rw [List.map_id] at sent
    exact ⟨lifts, sent, fun none => Shape.areDocuments_map fun v hv => (ih v hv).2.2 none⟩
  | object unsigned present each ih =>
    rename_i fields
    have lifts := lifts_object unsigned fun f hf => (ih f hf).1
    have sent : Plain.Sent (.object (fields.map fun f => (f.1, f.2.asPlain)))
        (.object (dropNulls (fields.map id))) := Plain.Sent.object fun f hf => (ih f hf).2.1
    rw [← lifts.eq_asPlain]
    rw [List.map_id, dropNulls_eq_self present] at sent
    exact ⟨lifts, sent, fun none => Shape.haveDocuments_map fun f hf => (ih f hf).2.2 none⟩
  | file allowed ok =>
    have lifts := Plain.Lifts.file ok
    rw [← lifts.eq_asPlain]
    exact ⟨lifts, fun _ => Input.Sends.file ok, fun none => absurd allowed (by simp [none])⟩

end Value

namespace Shape

variable {records : Records}

/-- The value is converted without a warning, and the tree that it becomes is sent as the value. -/
structure Returns (records : Records) (shape : Shape) (value : Value) (tree : Plain) : Prop where
  lifts : Plain.Lifts value value.asPlain
  converts : Converts records shape value.asPlain tree
  sent : tree.Sent value

/-- A missing parameter that is optional becomes null. -/
theorem zero_of_isOptional {shape : Shape} (optional : shape.isOptional = true) :
    (∀ name, shape ≠ .record name) ∧ shape.zero = .null := by
  induction shape with
  | optional inner => exact ⟨by simp, rfl⟩
  | output inner ih =>
    obtain ⟨-, zero⟩ := ih optional
    exact ⟨by simp, zero⟩
  | _ => cases optional

theorem Matches.not_record {shape : Shape} (fits : Matches records shape .null) (name : String) :
    shape ≠ .record name := by
  rintro rfl
  cases fits

theorem returns_file {shape : Shape} {content : File} {value : Value}
    (ok : content.toValue = .ok value)
    (converts : Converts records shape (.file content) (.file content)) :
    ∃ tree, Returns records shape value tree := by
  have lifts := Plain.Lifts.file ok
  refine ⟨.file content, ?_, ?_, fun _ => Input.Sends.file ok⟩
  · rwa [← lifts.eq_asPlain]
  · rwa [← lifts.eq_asPlain]

/-- A record that holds a tree for each of the properties is sent as the object with the
properties that are not null. -/
theorem sent_record {parameters : List Parameter} {tree : Parameter → Plain}
    {fields : Fields Value} (ordered : Fields.Ordered fields)
    (present : ∀ f ∈ fields, f.2.isNull = false)
    (nodup : (parameters.map Parameter.name).Nodup)
    (known : ∀ f ∈ fields, ∃ p ∈ parameters, p.name = f.1)
    (sent : ∀ p ∈ parameters, (tree p).Sent ((fields.lookup p.name).getD .null)) :
    (Plain.object (Fields.ofList (pairs id tree parameters))).Sent (.object fields) := by
  let named := parameters.map fun p => (p.name, p)
  have names : (Fields.keys named).Nodup := by
    unfold Fields.keys
    rwa [List.map_map]
  have inOrder := Fields.ordered_ofList named
  have entries : ∀ e ∈ Fields.ofList named,
      (tree e.2).Sent ((fields.lookup e.1).getD .null) := by
    intro e member
    obtain ⟨p, hp, rfl⟩ := List.mem_map.mp (Fields.mem_of_mem_ofList member)
    exact sent p hp
  have kept : Value.dropNulls ((Fields.ofList named).map fun e =>
      (e.1, (fields.lookup e.1).getD .null)) = fields := by
    have mapped := inOrder.map fun e => (fields.lookup e.1).getD .null
    unfold Value.dropNulls
    refine (mapped.filter _).ext ordered fun key => ?_
    rw [mapped.lookup_filter, Fields.lookup_map_key _ fun k => (fields.lookup k).getD .null]
    cases found : fields.lookup key with
    -- The parameter was not given: its null is dropped.
    | none => cases (Fields.ofList named).lookup key <;> rfl
    | some value =>
      have member := Fields.mem_of_lookup found
      obtain ⟨p, hp, rfl⟩ := known _ member
      rw [Fields.lookup_ofList_of_nodup names (List.mem_map_of_mem hp)]
      simp [Option.filter, present _ member]
  have object : (Plain.object ((Fields.ofList named).map fun e => (e.1, tree e.2))).Sent
      (.object (Value.dropNulls ((Fields.ofList named).map fun e =>
        (e.1, (fields.lookup e.1).getD .null)))) := Plain.Sent.object entries
  rw [kept] at object
  have same : pairs id tree parameters = named.map fun e => (e.1, tree e.2) := by
    rw [List.map_map]
    rfl
  rwa [same, Fields.ofList_map]

theorem returns_record {name : String} {fields : Fields Value} (ordered : Fields.Ordered fields)
    (nodup : ((records.parameters name).map Parameter.wireName).Nodup)
    (same : ∀ p ∈ records.parameters name, p.name = p.wireName)
    (unsigned : ∀ f ∈ fields, f.1 ≠ Signature.key)
    (present : ∀ f ∈ fields, f.2.isNull = false)
    (known : ∀ f ∈ fields, ∃ p ∈ records.parameters name, p.wireName = f.1)
    (each : ∀ p ∈ records.parameters name, ∀ v, fields.lookup p.wireName = some v →
      ∃ tree, Returns records p.shape v tree)
    (complete : ∀ p ∈ records.parameters name, fields.lookup p.wireName = none →
      p.shape.isOptional = true) :
    ∃ tree, Returns records (.record name) (.object fields) tree := by
  have lifted : ∀ f ∈ fields, Plain.Lifts f.2 f.2.asPlain := by
    intro f member
    obtain ⟨p, hp, key⟩ := known f member
    have found := ordered.lookup member
    rw [← key] at found
    obtain ⟨tree, returns⟩ := each p hp f.2 found
    exact returns.lifts
  have lifts := Value.lifts_object unsigned lifted
  have parts : ∀ p ∈ records.parameters name, ∃ tree,
      Converts records p.shape
        (((fields.map fun f => (f.1, f.2.asPlain)).lookup p.wireName).getD .null) tree ∧
      tree.Sent ((fields.lookup p.wireName).getD .null) := by
    intro p hp
    rw [Fields.lookup_map]
    cases found : fields.lookup p.wireName with
    | none =>
      obtain ⟨other, zero⟩ := zero_of_isOptional (complete p hp found)
      refine ⟨p.shape.zero, Converts.null other, ?_⟩
      rw [zero]
      exact fun _ => Input.Sends.null
    | some value =>
      obtain ⟨tree, returns⟩ := each p hp value found
      exact ⟨tree, returns.converts, returns.sent⟩
  choose! tree converted sent using parts
  have names : (records.parameters name).map Parameter.name =
      (records.parameters name).map Parameter.wireName := List.map_congr_left same
  refine ⟨.object (Fields.ofList (pairs id tree (records.parameters name))), ?_, ?_, ?_⟩
  · rwa [← lifts.eq_asPlain]
  · rw [← lifts.eq_asPlain]
    exact Converts.record (List.map_id _).symm nodup converted
  · refine sent_record ordered present (names ▸ nodup) ?_ ?_
    · intro f member
      obtain ⟨p, hp, key⟩ := known f member
      exact ⟨p, hp, (same p hp).trans key⟩
    · intro p hp
      rw [same p hp]
      exact sent p hp

/-- The records inside the shape read each parameter from the property of the parameter's own
name. -/
def OwnNames (records : Records) (shape : Shape) : Prop :=
  ∀ name, Reaches records shape (.record name) →
    ∀ p ∈ records.parameters name, p.name = p.wireName

/-- All that is inside the shape is sound, and its records use their own names. -/
structure Tidy (records : Records) (shape : Shape) : Prop where
  sound : ∀ node, Reaches records shape node → node.Sound records
  names : OwnNames records shape

theorem Tidy.part {shape part : Shape} (tidy : Tidy records shape)
    (member : part ∈ shape.parts records) : Tidy records part where
  sound := fun node path => tidy.sound node (.inside member path)
  names := fun name path => tidy.names name (.inside member path)

/-- A value that matches a tidy shape comes back. -/
theorem Matches.returns {shape : Shape} {value : Value} (fits : Matches records shape value)
    (tidy : Tidy records shape) (ordered : value.Ordered) :
    ∃ tree, Returns records shape value tree := by
  induction fits with
  | bool b => exact ⟨_, Plain.Lifts.bool b, Converts.bool b, fun _ => Input.Sends.bool b⟩
  | int integer =>
    exact ⟨_, Plain.Lifts.number _, Converts.int integer.trunc, fun _ => Input.Sends.number _⟩
  | number x => exact ⟨_, Plain.Lifts.number x, Converts.number x, fun _ => Input.Sends.number x⟩
  | string s => exact ⟨_, Plain.Lifts.string s, Converts.string s, fun _ => Input.Sends.string s⟩
  | any unmarked =>
    obtain ⟨lifts, sent, -⟩ := unmarked.returns
    exact ⟨_, lifts, Converts.any _, sent⟩
  | json unmarked =>
    obtain ⟨lifts, sent, document⟩ := unmarked.returns
    exact ⟨_, lifts, Converts.json (document rfl), sent⟩
  | asset ok => exact returns_file ok (Converts.asset _)
  | archive isArchive ok => exact returns_file ok (Converts.archive isArchive)
  | file ok => exact returns_file ok (Converts.file _)
  | enumString name s =>
    exact ⟨_, Plain.Lifts.string s, Converts.enumString name s, fun _ => Input.Sends.string s⟩
  | enumNumber name x =>
    exact ⟨_, Plain.Lifts.number x, Converts.enumNumber name x, fun _ => Input.Sends.number x⟩
  | optionalNull inner =>
    exact ⟨_, Plain.Lifts.null, Converts.null (by simp), fun _ => Input.Sends.null⟩
  | optional inside ih =>
    obtain ⟨tree, returns⟩ := ih (tidy.part (by simp [parts])) ordered
    rename_i inner content
    -- The conversion takes null for the whole optional value, before it looks inside.
    by_cases absent : content.asPlain = .null
    · obtain rfl := returns.lifts.eq_null absent
      exact ⟨_, Plain.Lifts.null, Converts.null (by simp), fun _ => Input.Sends.null⟩
    · exact ⟨tree, returns.lifts, returns.converts.optional absent, returns.sent⟩
  | output inside ih =>
    obtain ⟨tree, returns⟩ := ih (tidy.part (by simp [parts])) ordered
    refine ⟨tree, returns.lifts, returns.converts.output fun null => ?_, returns.sent⟩
    obtain rfl := returns.lifts.eq_null null
    exact inside.not_record
  | unionFirst second inside ih =>
    obtain ⟨tree, returns⟩ := ih (tidy.part (by simp [parts])) ordered
    refine ⟨.union .first tree, returns.lifts, returns.converts.unionFirst fun null => ?_, ?_⟩
    · obtain rfl := returns.lifts.eq_null null
      exact inside.not_record
    · exact returns.sent
  | unionSecond rejected inside ih =>
    obtain ⟨tree, returns⟩ := ih (tidy.part (by simp [parts])) ordered
    -- One rejection anywhere is a rejection at every depth and in every context.
    obtain ⟨depth, context, message, warnings, error⟩ := rejected
    have refused := rejects_of_tryConvert error
    exact ⟨.union .second tree, returns.lifts, returns.converts.unionSecond refused, returns.sent⟩
  | array each ih =>
    rename_i element items
    have parts : ∀ v ∈ items, ∃ tree, Returns records element v tree := fun v hv =>
      ih v hv (tidy.part (by simp [parts])) (Value.ordered_of_mem ordered hv)
    choose! tree returns using parts
    have lifts := Value.lifts_array fun v hv => (returns v hv).lifts
    have sent : Plain.Sent (.array (items.map tree)) (.array (items.map id)) :=
      Plain.Sent.array fun v hv => (returns v hv).sent
    rw [List.map_id] at sent
    refine ⟨.array (items.map tree), lifts.eq_asPlain ▸ lifts, ?_, sent⟩
    exact lifts.eq_asPlain ▸ Converts.array fun v hv => (returns v hv).converts
  | map keyShape unsigned present each ih =>
    rename_i element fields
    obtain ⟨-, ordered⟩ := ordered
    have parts : ∀ f ∈ fields, ∃ tree, Returns records element f.2 tree := fun f hf =>
      ih f hf (tidy.part (by simp [parts])) (Value.ordered_of_mem_fields ordered hf)
    choose! tree returns using parts
    have lifts := Value.lifts_object unsigned fun f hf => (returns f hf).lifts
    have sent : Plain.Sent (.object (fields.map fun f => (f.1, tree f)))
        (.object (Value.dropNulls (fields.map id))) :=
      Plain.Sent.object fun f hf => (returns f hf).sent
    rw [List.map_id, Value.dropNulls_eq_self present] at sent
    refine ⟨.object (fields.map fun f => (f.1, tree f)), lifts.eq_asPlain ▸ lifts, ?_, sent⟩
    exact lifts.eq_asPlain ▸ Converts.map keyShape fun f hf => (returns f hf).converts
  | record unsigned present known each complete ih =>
    rename_i name fields
    obtain ⟨inOrder, ordered⟩ := ordered
    refine returns_record inOrder (tidy.sound _ (.here _)) (tidy.names name (.here _)) unsigned
      present known ?_ complete
    intro p hp value found
    have member : p.shape ∈ (Shape.record name).parts records := List.mem_map_of_mem hp
    exact ih p hp value found (tidy.part member)
      (Value.ordered_of_mem_fields ordered (Fields.mem_of_lookup found))

end Shape

namespace HostType

/-- A value that matches a valid shape is converted to one tree without a warning, whatever the
context and the resolver, and that tree is sent as the value, whatever the engine understands. -/
theorem convertValue_returns {records : HostRecords} {shape : Shape} {value : Value}
    {context : String} (valid : Shape.validate records.shapes shape context = .ok ())
    (names : Shape.OwnNames records.shapes shape) (ordered : value.Ordered)
    (fits : Shape.Matches records.shapes shape value) :
    ∃ tree : Plain,
      (∀ (σ : Type) (resolve : Plain.Resolver σ) (state : σ) (dependencies : List Key)
          (context : String),
        convertValue ⟨.shaped shape, records⟩ context dependencies resolve value state =
          (.ok (some ⟨⟨some (.plain tree), false, dependencies⟩, []⟩), state)) ∧
      ∀ (δ : Type) (view : Key → ResourceView) (features : EngineFeatures)
          (await : String → δ → Await Serialized) (context : String),
        Input.serialize view features await context (.ofHost (.plain tree)) =
          .done ⟨value, []⟩ := by
  have sound := (Shape.checked_iff shape context).mp valid
  obtain ⟨tree, lifts, converts, sent⟩ := fits.returns ⟨sound, names⟩ ordered
  refine ⟨tree, ?_, ?_⟩
  · intro σ resolve state dependencies context
    have checked : Shape.validate records.shapes shape context = .ok () :=
      Shape.validate_context valid
    have built : ofPlain ⟨.shaped shape, records⟩ tree = .ok (.plain tree) := by
      cases tree <;> rfl
    exact @convertValue_of_converts ⟨.shaped shape, records⟩ _ _ _ _ checked lifts converts built
      σ resolve state dependencies
  · intro δ view features await context
    exact sent δ view features await context

/-- Servers with an optional port, a mode in one of two forms, a file and a server to fall back
on. -/
def servers : HostRecords :=
  [("Server", [⟨"fallback", "fallback", .option (.record "Server")⟩, ⟨"file", "file", .file⟩,
    ⟨"mode", "mode", .union .int .string⟩, ⟨"port", "port", .option .int⟩])]

/-- A server without port and fallback, whose mode only the second shape takes. -/
def server : Value :=
  .object [("file", File.payload Signature.asset "text" (.string "hi")), ("mode", .string "fast")]

theorem servers_ownNames (shape : Shape) : Shape.OwnNames servers.shapes shape := by
  intro name _ p member
  have found : servers.shapes.parameters name =
      if name = "Server" then servers.shapes.parameters "Server" else [] := by
    by_cases same : name = "Server"
    · rw [if_pos same, same]
    · have none : servers.shapes.lookup name = none := by
        simp [servers, HostRecords.shapes, same]
      rw [if_neg same, Records.parameters, none]
      rfl
  rw [found] at member
  split at member
  · have same : ∀ q ∈ servers.shapes.parameters "Server", q.name = q.wireName := by decide
    exact same p member
  · cases member

theorem server_matches : Shape.Matches servers.shapes (.record "Server") server := by
  refine .record (by decide) (by decide) (by decide) ?_ (by decide)
  intro p member value found
  have parameters : servers.shapes.parameters "Server" =
      [⟨"fallback", "fallback", .optional (.record "Server")⟩, ⟨"file", "file", .file⟩,
        ⟨"mode", "mode", .union .int .string⟩, ⟨"port", "port", .optional .int⟩] := rfl
  rw [parameters] at member
  simp only [List.mem_cons, List.not_mem_nil, or_false] at member
  rcases member with rfl | rfl | rfl | rfl
  · cases found
  · cases found
    have ok : (File.asset (.text "hi")).toValue =
        .ok (File.payload Signature.asset "text" (.string "hi")) := rfl
    exact .file ok
  · cases found
    exact .unionSecond ⟨0, "", _, _, rfl⟩ (.string "fast")
  · cases found

theorem convertValue_returns_server :
    Shape.validate servers.shapes (.record "Server") "server" = .ok () ∧
    server.Ordered ∧ ∃ tree : Plain,
      (∀ (σ : Type) (resolve : Plain.Resolver σ) (state : σ) (dependencies : List Key)
          (context : String),
        convertValue ⟨.shaped (.record "Server"), servers⟩ context dependencies resolve server
          state = (.ok (some ⟨⟨some (.plain tree), false, dependencies⟩, []⟩), state)) ∧
      ∀ (δ : Type) (view : Key → ResourceView) (features : EngineFeatures)
          (await : String → δ → Await Serialized) (context : String),
        Input.serialize view features await context (.ofHost (.plain tree)) =
          .done ⟨server, []⟩ := by
  have valid : Shape.validate servers.shapes (.record "Server") "server" = .ok () := rfl
  have ordered : server.Ordered := by
    simp only [server, File.payload, Value.Ordered, Value.OrderedFields, Fields.Ordered,
      Fields.keys]
    decide
  exact ⟨valid, ordered, convertValue_returns valid (servers_ownNames _) ordered server_matches⟩

end HostType

end Provision
