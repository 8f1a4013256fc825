import Provision.Host.Conversion
import Provision.Proofs.Fields
import Provision.Proofs.Plain.Lifting
import Provision.Proofs.Shape.Rejection

/-!
# Trees that are converted without a warning

A tree converts to another if it does so in every context, at every depth that the tree itself
has, and without a warning. Containers convert part by part. A record takes each parameter from
the property of its wire name, or from null, and its depth is that of the object it is read from.
-/

namespace Provision

namespace Plain

theorem depth_le_of_mem {items : List Plain} {item : Plain} (member : item ∈ items) :
    item.depth ≤ depthItems items := by
  induction items with
  | nil => cases member
  | cons head rest ih =>
    unfold depthItems
    rcases List.mem_cons.mp member with rfl | member
    · omega
    · have := ih member
      omega

theorem depth_le_of_lookup (fields : List (String × Plain)) (key : String) :
    ((fields.lookup key).getD .null).depth ≤ depthFields fields := by
  induction fields with
  | nil => simp [depth]
  | cons field rest ih =>
    obtain ⟨k, value⟩ := field
    unfold depthFields
    rw [Fields.lookup_cons]
    split
    · rw [Option.getD_some]
      omega
    · omega

theorem depth_le_of_mem_fields {fields : List (String × Plain)} {field : String × Plain}
    (member : field ∈ fields) : field.2.depth ≤ depthFields fields := by
  induction fields with
  | nil => cases member
  | cons head rest ih =>
    unfold depthFields
    rcases List.mem_cons.mp member with rfl | member
    · omega
    · have := ih member
      omega

end Plain

namespace Shape

variable {ι : Type} {records : Records} {shape first second : Shape} {value tree : Plain}

/-! ### Parts one after the other -/

theorem convertItems_rows {convert : Plain → Reporting Plain} {rows : List ι}
    {value tree : ι → Plain} (each : ∀ r ∈ rows, convert (value r) = .ok (tree r)) :
    convertItems convert (rows.map value) = .ok (rows.map tree) := by
  induction rows with
  | nil => rfl
  | cons r rest ih =>
    have tail := ih fun r hr => each r (List.mem_cons_of_mem _ hr)
    rw [List.map_cons, convertItems, each r (by simp), tail]
    rfl

theorem convertFields_rows {convert : Plain → Reporting Plain} {rows : List ι}
    {key : ι → String} {value tree : ι → Plain}
    (each : ∀ r ∈ rows, convert (value r) = .ok (tree r)) :
    convertFields convert (rows.map fun r => (key r, value r)) =
      .ok (rows.map fun r => (key r, tree r)) := by
  induction rows with
  | nil => rfl
  | cons r rest ih =>
    have tail := ih fun r hr => each r (List.mem_cons_of_mem _ hr)
    rw [List.map_cons, convertFields, each r (by simp), tail]
    rfl

/-- The pairs that parameters and their trees are written as. -/
def pairs (parameter : ι → Parameter) (tree : ι → Plain) (rows : List ι) :
    List (String × Plain) :=
  rows.map fun r => ((parameter r).name, tree r)

theorem fillParameters_rows {convert : Shape → String → Plain → Reporting Plain} (record : String)
    {rows : List ι} {parameter : ι → Parameter} {value tree : ι → Plain}
    (each : ∀ r ∈ rows, ∀ context, convert (parameter r).shape context (value r) = .ok (tree r))
    (start : Fields Plain) :
    fillParameters convert record (rows.map fun r => (parameter r, value r)) start =
      .ok ((pairs parameter tree rows).foldl (fun acc p => Fields.set p.1 p.2 acc) start) := by
  induction rows generalizing start with
  | nil => rfl
  | cons r rest ih =>
    have tail := ih fun r hr => each r (List.mem_cons_of_mem _ hr)
    rw [List.map_cons, fillParameters, each r (by simp)]
    unfold Reporting.andThen Reporting.ok
    dsimp only
    rw [tail]
    rfl

/-- What a parameter takes is a property, or null. -/
theorem mem_takeProperties {parameters : List Parameter} {properties : List (String × Plain)}
    {p : Parameter} {value : Plain} (taken : (p, value) ∈ takeProperties parameters properties) :
    p ∈ parameters ∧ (value = .null ∨ (p.wireName, value) ∈ properties) := by
  induction parameters generalizing properties with
  | nil => cases taken
  | cons first rest ih =>
    rcases List.mem_cons.mp taken with same | later
    · obtain ⟨rfl, rfl⟩ := Prod.mk.inj same
      refine ⟨List.mem_cons_self, ?_⟩
      cases found : properties.lookup p.wireName with
      | none => exact .inl rfl
      | some value => exact .inr (Fields.mem_of_lookup found)
    · obtain ⟨member, source⟩ := ih later
      exact ⟨List.mem_cons_of_mem _ member, source.imp_right List.mem_of_mem_filter⟩

/-- Parameters of different wire names do not take anything from each other. -/
theorem takeProperties_of_nodup {parameters : List Parameter}
    (distinct : (parameters.map Parameter.wireName).Nodup) (properties : List (String × Plain)) :
    takeProperties parameters properties =
      parameters.map fun p => (p, (properties.lookup p.wireName).getD .null) := by
  induction parameters generalizing properties with
  | nil => rfl
  | cons first rest ih =>
    obtain ⟨fresh, distinct⟩ := List.nodup_cons.mp distinct
    rw [takeProperties, ih distinct, List.map_cons]
    refine congrArg _ (List.map_congr_left fun p member => ?_)
    have other : p.wireName ≠ first.wireName := fun same =>
      fresh (same ▸ List.mem_map_of_mem member)
    rw [Fields.lookup_erase, if_neg other]

theorem takeProperties_nil (parameters : List Parameter) :
    takeProperties parameters [] = parameters.map fun p => (p, .null) := by
  induction parameters with
  | nil => rfl
  | cons first rest ih => exact congrArg _ ih

/-! ### Conversions without a warning -/

/-- The tree is converted to another one, without a warning. -/
def Converts (records : Records) (shape : Shape) (value tree : Plain) : Prop :=
  ∀ context depth, value.depth ≤ depth →
    tryConvert (fillRecord records depth) shape context value = .ok (.ok tree)

/-- Such a conversion is what the conversion with enough depth finds. -/
theorem Converts.convert (converts : Converts records shape value tree) (context : String) :
    Shape.convert records shape context value = .ok tree := by
  unfold Shape.convert convertWithin sufficientDepth
  rw [converts context _ (by omega)]
  rfl

theorem Converts.orZero (converts : Converts records shape value tree) (context : String)
    {depth : Nat} (enough : value.depth ≤ depth) :
    Shape.orZero shape (tryConvert (fillRecord records depth) shape context value) = .ok tree := by
  rw [converts context depth enough]
  rfl

namespace Converts

/-- Null is the zero of every shape but a record. -/
theorem null (other : ∀ name, shape ≠ .record name) : Converts records shape .null shape.zero := by
  intro context depth _
  cases shape with
  | record name => exact absurd rfl (other name)
  | _ => rfl

theorem bool (b : Bool) : Converts records .bool (.bool b) (.bool b) := fun _ _ _ => rfl

theorem int {x : Number} (integral : x.trunc = x) :
    Converts records .int (.number x) (.number x) := by
  intro context depth _
  have same : tryConvert (fillRecord records depth) .int context (.number x) =
      .ok (.ok (.number x.trunc)) := rfl
  rw [same, integral]

theorem number (x : Number) : Converts records .number (.number x) (.number x) := fun _ _ _ => rfl

theorem string (s : String) : Converts records .string (.string s) (.string s) := fun _ _ _ => rfl

theorem any (value : Plain) : Converts records .any value value := by
  intro context depth _
  cases value <;> rfl

theorem json (document : isDocument value = true) : Converts records .json value value := by
  intro context depth _
  have accepted := (checkJson_iff context value).mpr document
  by_cases null : value = .null
  · subst null
    rfl
  · rw [tryConvert_json null, accepted]
    rfl

theorem asset (content : Asset) :
    Converts records .asset (.file (.asset content)) (.file (.asset content)) := fun _ _ _ => rfl

theorem archive {content : File} (isArchive : content.isAsset = false) :
    Converts records .archive (.file content) (.file content) := by
  intro context depth _
  cases content with
  | asset content => cases isArchive
  | _ => rfl

theorem file (content : File) : Converts records .file (.file content) (.file content) :=
  fun _ _ _ => rfl

theorem enumString (name s : String) :
    Converts records (.enum name .string) (.string s) (.string s) := fun _ _ _ => rfl

theorem enumNumber (name : String) (x : Number) :
    Converts records (.enum name .number) (.number x) (.number x) := fun _ _ _ => rfl

theorem optional (converts : Converts records shape value tree) (present : value ≠ .null) :
    Converts records (.optional shape) value tree := by
  intro context depth enough
  have inner := converts context depth enough
  cases value with
  | null => exact absurd rfl present
  | _ => exact inner

theorem output (converts : Converts records shape value tree)
    (present : value = .null → ∀ name, shape ≠ .record name) :
    Converts records (.output shape) value tree := by
  intro context depth enough
  have inner := converts context depth enough
  cases value with
  | null =>
    have null : Converts records shape .null shape.zero := null (present rfl)
    have zero := null context depth enough
    rw [inner] at zero
    cases zero
    rfl
  | _ => exact inner

theorem unionFirst (converts : Converts records first value tree)
    (present : value = .null → ∀ name, first ≠ .record name) :
    Converts records (.union first second) value (.union .first tree) := by
  intro context depth enough
  have inner := converts (context ++ ".AsT0") depth enough
  cases value with
  | null =>
    have null : Converts records first .null first.zero := null (present rfl)
    have zero := null (context ++ ".AsT0") depth enough
    rw [inner] at zero
    cases zero
    rfl
  | _ =>
    unfold tryConvert
    rw [inner]
    rfl

/-- The second shape of a union is tried where the first rejects. -/
theorem unionSecond (rejected : first.accepts value = false)
    (converts : Converts records second value tree) :
    Converts records (.union first second) value (.union .second tree) := by
  intro context depth enough
  have inner := converts (context ++ ".AsT1") depth enough
  obtain ⟨message, tried⟩ :=
    tryConvert_of_rejects rejected (fillRecord records depth) (context ++ ".AsT0")
  rw [tryConvert_union (ne_null_of_rejects rejected), tried]
  unfold Reporting.andThen
  dsimp only
  rw [inner]
  rfl

theorem array {rows : List ι} {value tree : ι → Plain}
    (each : ∀ r ∈ rows, Converts records shape (value r) (tree r)) :
    Converts records (.array shape) (.array (rows.map value)) (.array (rows.map tree)) := by
  intro context depth enough
  have items : ∀ r ∈ rows, Shape.orZero shape
      (tryConvert (fillRecord records depth) shape context (value r)) = .ok (tree r) := by
    intro r member
    have below := Plain.depth_le_of_mem (List.mem_map_of_mem (f := value) member)
    unfold Plain.depth at enough
    exact (each r member).orZero context (by omega)
  unfold tryConvert
  dsimp only
  rw [convertItems_rows items]
  rfl

theorem map (keyShape : Shape) {rows : List ι} {key : ι → String} {value tree : ι → Plain}
    (each : ∀ r ∈ rows, Converts records shape (value r) (tree r)) :
    Converts records (.map keyShape shape) (.object (rows.map fun r => (key r, value r)))
      (.object (rows.map fun r => (key r, tree r))) := by
  intro context depth enough
  have fields : ∀ r ∈ rows, Shape.orZero shape
      (tryConvert (fillRecord records depth) shape context (value r)) = .ok (tree r) := by
    intro r member
    have below : (value r).depth ≤ Plain.depthFields (rows.map fun r => (key r, value r)) :=
      Plain.depth_le_of_mem_fields (List.mem_map_of_mem (f := fun r => (key r, value r)) member)
    unfold Plain.depth at enough
    exact (each r member).orZero context (by omega)
  unfold tryConvert
  dsimp only
  rw [convertFields_rows fields]
  rfl

/-- A record is filled parameter by parameter. -/
theorem record {name : String} {properties : List (String × Plain)} {rows : List ι}
    {parameter : ι → Parameter} {tree : ι → Plain}
    (parameters : records.parameters name = rows.map parameter)
    (distinct : ((records.parameters name).map Parameter.wireName).Nodup)
    (each : ∀ r ∈ rows, Converts records (parameter r).shape
      ((properties.lookup (parameter r).wireName).getD .null) (tree r)) :
    Converts records (.record name) (.object properties)
      (.object (Fields.ofList (pairs parameter tree rows))) := by
  intro context depth enough
  cases depth with
  | zero =>
    unfold Plain.depth at enough
    omega
  | succ depth =>
    have fields : ∀ r ∈ rows, ∀ context, Shape.orZero (parameter r).shape
        (tryConvert (fillRecord records depth) (parameter r).shape context
          ((properties.lookup (parameter r).wireName).getD .null)) = .ok (tree r) := by
      intro r member context
      have below := Plain.depth_le_of_lookup properties (parameter r).wireName
      unfold Plain.depth at enough
      exact (each r member).orZero context (by omega)
    unfold tryConvert fillRecord
    dsimp only
    rw [takeProperties_of_nodup distinct, parameters, List.map_map]
    exact congrArg (Reporting.andThen · _) (fillParameters_rows name fields [])

end Converts

end Shape

/-- A value whose tree is converted without a warning, and from whose converted tree a value of
the type is built, is converted to that value. -/
theorem HostType.convertValue_of_converts {schema : Schema} {value : Value} {tree : Plain}
    {built : HostValue} {context : String}
    (valid : Shape.validate schema.records.shapes schema.type.shape context = .ok ())
    (lifts : Plain.Lifts value value.asPlain)
    (converts : Shape.Converts schema.records.shapes schema.type.shape value.asPlain tree)
    (ok : ofPlain schema tree = .ok built) {σ : Type} (resolve : Plain.Resolver σ) (state : σ)
    (dependencies : List Key) :
    convertValue schema context dependencies resolve value state =
      (.ok (some ⟨⟨some built, false, dependencies⟩, []⟩), state) := by
  have converted : convertPlain schema context value.asPlain = .ok (some built) := by
    unfold convertPlain
    rw [converts.convert context]
    unfold Reporting.andThen Reporting.ok
    dsimp only
    rw [ok]
    rfl
  unfold convertValue
  rw [valid, lifts σ resolve state]
  unfold convertLifted Lifted.plain
  dsimp only
  rw [converted]
  rfl

end Provision
