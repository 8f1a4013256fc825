import Mathlib.Logic.Relation
import Provision.Proofs.Shape.Converting
import Provision.Proofs.Shape.Soundness

/-!
# Conversions that end

A conversion asks for others: of the same tree to an inner shape, of the parts of the tree, and of
the parameters of a record. It ends if the conversions nested in it stay within some depth. Null is
the zero of every shape but a record, which is entered for each of its parameters once more; so a
conversion has no end exactly if it comes to a record that has to be converted from nothing and
that is, through parameters that are records themselves, a parameter of its own
(`conversion_ends_iff`). The check of shapes does not look for such records
(`valid_record_without_end`).
-/

namespace Provision

namespace Reporting

variable {α β : Type}

def HasEnd (x : Reporting α) : Prop := ∃ a warnings, x = some (a, warnings)

theorem hasEnd_ok (a : α) : (ok a).HasEnd := ⟨a, [], rfl⟩

theorem hasEnd_andThen {x : Reporting α} {f : α → Reporting β} :
    (x.andThen f).HasEnd ↔ ∃ a warnings, x = some (a, warnings) ∧ (f a).HasEnd := by
  match x with
  | none => simp [andThen, HasEnd]
  | some (a, warnings) =>
    have whole : (andThen (some (a, warnings)) f).HasEnd ↔ (f a).HasEnd := by
      unfold andThen HasEnd
      dsimp only
      cases f a with
      | none => simp
      | some r => exact iff_of_true ⟨_, _, rfl⟩ ⟨_, _, rfl⟩
    rw [whole]
    constructor
    · exact fun ends => ⟨a, warnings, rfl, ends⟩
    · rintro ⟨_, _, ⟨⟩, ends⟩
      exact ends

/-- Where going on does not depend on the result of the first computation. -/
theorem hasEnd_andThen_iff {x : Reporting α} {f : α → Reporting β} {rest : Prop}
    (later : ∀ a, (f a).HasEnd ↔ rest) : (x.andThen f).HasEnd ↔ x.HasEnd ∧ rest := by
  simp only [hasEnd_andThen, later]
  constructor
  · rintro ⟨a, warnings, here, ends⟩
    exact ⟨⟨a, warnings, here⟩, ends⟩
  · rintro ⟨⟨a, warnings, here⟩, ends⟩
    exact ⟨a, warnings, here, ends⟩

/-- What cannot but end goes on to the end of the first computation. -/
theorem hasEnd_andThen_of_ends {x : Reporting α} {f : α → Reporting β}
    (ends : ∀ a, (f a).HasEnd) : (x.andThen f).HasEnd ↔ x.HasEnd :=
  (hasEnd_andThen_iff fun a => iff_true_intro (ends a)).trans (and_iff_left trivial)

end Reporting

namespace Records

/-- A parameter of the one record is the other record. -/
def Holds (records : Records) (name part : String) : Prop :=
  ∃ p ∈ records.parameters name, p.shape = .record part

/-- The record is a parameter of its own, at once or through other records. -/
def Circular (records : Records) (name : String) : Prop :=
  Relation.TransGen records.Holds name name

/-- A record with a parameter stands in the table. -/
theorem lookup_of_parameter {records : Records} {name : String} {p : Parameter}
    (member : p ∈ records.parameters name) : records.lookup name ≠ none := by
  intro undefined
  rw [parameters, undefined] at member
  cases member

end Records

namespace Shape

open Reporting

variable {records : Records} {shape : Shape} {value : Plain} {whole part : Shape × Plain}

/-! ### What a conversion asks for -/

/-- The conversion of a tree to a shape asks for another conversion. The second shape of a union
is tried if the first rejects the tree. -/
inductive Asks (records : Records) : Shape × Plain → Shape × Plain → Prop where
  | optional {inner : Shape} {value : Plain} (present : value ≠ .null) :
      Asks records (.optional inner, value) (inner, value)
  | output {inner : Shape} {value : Plain} (present : value ≠ .null) :
      Asks records (.output inner, value) (inner, value)
  | first {first second : Shape} {value : Plain} (present : value ≠ .null) :
      Asks records (.union first second, value) (first, value)
  | second {first second : Shape} {value : Plain} (present : value ≠ .null)
      (rejected : first.accepts value = false) :
      Asks records (.union first second, value) (second, value)
  | item {element : Shape} {items : List Plain} {item : Plain} (member : item ∈ items) :
      Asks records (.array element, .array items) (element, item)
  | field {key element : Shape} {fields : List (String × Plain)} {field : String × Plain}
      (member : field ∈ fields) : Asks records (.map key element, .object fields) (element, field.2)
  | parameter {name : String} {properties : List (String × Plain)} {p : Parameter} {value : Plain}
      (taken : (p, value) ∈ takeProperties (records.parameters name) properties) :
      Asks records (.record name, .object properties) (p.shape, value)
  | missing {name : String} {p : Parameter} (member : p ∈ records.parameters name) :
      Asks records (.record name, .null) (p.shape, .null)

/-- Conversions are nested in each other no deeper than `bound`, the first one counted. -/
def EndsWithin (records : Records) : Nat → Shape × Plain → Prop
  | 0, _ => False
  | bound + 1, whole => ∀ part, Asks records whole part → EndsWithin records bound part

/-- No conversion on the way has to make a record from nothing that is a parameter of its own. -/
def Grounded (records : Records) (whole : Shape × Plain) : Prop :=
  ∀ name, Relation.ReflTransGen (Asks records) whole (.record name, .null) →
    ¬ records.Circular name

/-- No record that the shape reaches is a parameter of its own. -/
def CircleFree (records : Records) (shape : Shape) : Prop :=
  ∀ name, Reaches records shape (.record name) → ¬ records.Circular name

theorem Grounded.asked (grounded : Grounded records whole) (asks : Asks records whole part) :
    Grounded records part := fun name path => grounded name (.head asks path)

/-- What is asked for is converted to an inner shape. -/
theorem Asks.mem_parts (asks : Asks records whole part) : part.1 ∈ whole.1.parts records := by
  cases asks with
  | optional | output | first | second | item | field => simp [parts]
  | parameter taken => exact List.mem_map_of_mem (mem_takeProperties taken).1
  | missing member => exact List.mem_map_of_mem member

/-- Conversions to a shape that reaches no such record are all grounded. -/
theorem CircleFree.grounded (free : CircleFree records shape) (value : Plain) :
    Grounded records (shape, value) := by
  intro name path
  refine free name ?_
  have reaches {whole last : Shape × Plain}
      (path : Relation.ReflTransGen (Asks records) whole last) :
      Reaches records whole.1 last.1 := by
    induction path using Relation.ReflTransGen.head_induction_on with
    | refl => exact .here _
    | head asks _ ih => exact .inside asks.mem_parts ih
  exact reaches path

/-! ### Nested conversions -/

theorem EndsWithin.mono {bound bound' : Nat} (le : bound ≤ bound')
    (ends : EndsWithin records bound whole) : EndsWithin records bound' whole := by
  induction bound generalizing bound' whole with
  | zero => exact ends.elim
  | succ bound ih =>
    obtain ⟨more, rfl⟩ : ∃ more, bound' = more + 1 := ⟨bound' - 1, by omega⟩
    exact fun part asks => ih (by omega) (ends part asks)

/-- A conversion asks for finitely many others. -/
theorem asks_finite (records : Records) (whole : Shape × Plain) :
    ∃ parts : List (Shape × Plain), ∀ part, Asks records whole part → part ∈ parts := by
  obtain ⟨shape, value⟩ := whole
  cases shape with
  | optional inner | output inner =>
    refine ⟨[(inner, value)], fun part asks => ?_⟩
    cases asks
    exact List.mem_cons_self
  | union first second =>
    refine ⟨[(first, value), (second, value)], fun part asks => ?_⟩
    cases asks <;> simp
  | array element =>
    cases value with
    | array items =>
      refine ⟨items.map fun item => (element, item), fun part asks => ?_⟩
      cases asks with
      | item member => exact List.mem_map_of_mem member
    | _ => exact ⟨[], fun _ asks => nomatch asks⟩
  | map key element =>
    cases value with
    | object fields =>
      refine ⟨fields.map fun field => (element, field.2), fun part asks => ?_⟩
      cases asks with
      | field member => exact List.mem_map_of_mem (f := fun field => (element, field.2)) member
    | _ => exact ⟨[], fun _ asks => nomatch asks⟩
  | record name =>
    cases value with
    | null =>
      refine ⟨(records.parameters name).map fun p => (p.shape, .null), fun part asks => ?_⟩
      cases asks with
      | missing member => exact List.mem_map_of_mem (f := fun p => (p.shape, Plain.null)) member
    | object properties =>
      refine ⟨(takeProperties (records.parameters name) properties).map fun taken =>
        (taken.1.shape, taken.2), fun part asks => ?_⟩
      cases asks with
      | parameter taken =>
        exact List.mem_map_of_mem
          (f := fun taken : Parameter × Plain => (taken.1.shape, taken.2)) taken
    | _ => exact ⟨[], fun _ asks => nomatch asks⟩
  | _ => exact ⟨[], fun _ asks => nomatch asks⟩

/-- Finitely many conversions that end have a common bound. -/
theorem exists_common_bound {P : Shape × Plain → Prop} (parts : List (Shape × Plain))
    (each : ∀ part, P part → ∃ bound, EndsWithin records bound part) :
    ∃ bound, ∀ part ∈ parts, P part → EndsWithin records bound part := by
  induction parts with
  | nil => exact ⟨0, fun _ member => nomatch member⟩
  | cons first rest ih =>
    obtain ⟨later, tail⟩ := ih
    obtain ⟨here, head⟩ : ∃ bound, P first → EndsWithin records bound first := by
      by_cases asked : P first
      · exact (each first asked).imp fun _ ends _ => ends
      · exact ⟨0, fun asks => absurd asks asked⟩
    refine ⟨max here later, fun part member asked => ?_⟩
    rcases List.mem_cons.mp member with rfl | member
    · exact (head asked).mono (Nat.le_max_left _ _)
    · exact (tail part member asked).mono (Nat.le_max_right _ _)

/-- If all that it asks for ends, then a conversion ends. -/
theorem exists_bound_of_parts
    (each : ∀ part, Asks records whole part → ∃ bound, EndsWithin records bound part) :
    ∃ bound, EndsWithin records bound whole := by
  obtain ⟨parts, all⟩ := asks_finite records whole
  obtain ⟨bound, ends⟩ := exists_common_bound parts each
  exact ⟨bound + 1, fun part asks => ends part (all part asks) asks⟩

/-- What is nested in a conversion ends within less. -/
theorem EndsWithin.nested {last : Shape × Plain} {bound : Nat}
    (ends : EndsWithin records bound whole)
    (path : Relation.TransGen (Asks records) whole last) :
    ∃ less, less < bound ∧ EndsWithin records less last := by
  induction path using Relation.TransGen.head_induction_on generalizing bound with
  | single asks =>
    cases bound with
    | zero => exact ends.elim
    | succ bound => exact ⟨bound, by omega, ends _ asks⟩
  | head asks _ ih =>
    cases bound with
    | zero => exact ends.elim
    | succ bound =>
      obtain ⟨less, lt, last⟩ := ih (ends _ asks)
      exact ⟨less, by omega, last⟩

/-- A conversion that is nested in itself does not end. -/
theorem EndsWithin.not_circle {bound : Nat} (ends : EndsWithin records bound whole) :
    ¬ Relation.TransGen (Asks records) whole whole := by
  intro circle
  induction bound using Nat.strongRecOn with
  | _ bound ih =>
    obtain ⟨less, lt, again⟩ := ends.nested circle
    exact ih less lt again

/-- A record that is a parameter of its own, made from nothing, has to be made from nothing. -/
theorem asks_circle {name : String} (circular : records.Circular name) :
    Relation.TransGen (Asks records) (.record name, .null) (.record name, .null) := by
  refine Relation.TransGen.lift (fun name => (Shape.record name, Plain.null)) ?_ _ _ circular
  rintro whole part ⟨p, member, same⟩
  show Asks records (.record whole, .null) (.record part, .null)
  exact same ▸ .missing member

theorem EndsWithin.grounded {bound : Nat} (ends : EndsWithin records bound whole) :
    Grounded records whole := by
  intro name path circular
  rcases Relation.reflTransGen_iff_eq_or_transGen.mp path with same | path
  · exact ends.not_circle (same ▸ (asks_circle circular))
  · obtain ⟨less, -, last⟩ := ends.nested path
    exact last.not_circle (asks_circle circular)

/-! ### Conversions that end are nested within a bound -/

variable {context : String} {depth : Nat}
  {fill : String → List (String × Plain) → Reporting (List (String × Plain))}

theorem hasEnd_orZero {attempt : Attempt Plain} :
    (orZero shape attempt).HasEnd ↔ attempt.HasEnd := by
  refine hasEnd_andThen_of_ends fun outcome => ?_
  cases outcome with
  | ok value => exact ⟨_, _, rfl⟩
  | error message => exact ⟨_, _, rfl⟩

theorem hasEnd_convertItems {convert : Plain → Reporting Plain} {items : List Plain} :
    (convertItems convert items).HasEnd ↔ ∀ item ∈ items, (convert item).HasEnd := by
  induction items with
  | nil => simp [convertItems, hasEnd_ok]
  | cons item rest ih =>
    rw [List.forall_mem_cons, ← ih, convertItems]
    exact hasEnd_andThen_iff fun _ => hasEnd_andThen_of_ends fun _ => hasEnd_ok _

theorem hasEnd_convertFields {convert : Plain → Reporting Plain}
    {fields : List (String × Plain)} :
    (convertFields convert fields).HasEnd ↔ ∀ field ∈ fields, (convert field.2).HasEnd := by
  induction fields with
  | nil => simp [convertFields, hasEnd_ok]
  | cons field rest ih =>
    rw [List.forall_mem_cons, ← ih, convertFields]
    exact hasEnd_andThen_iff fun _ => hasEnd_andThen_of_ends fun _ => hasEnd_ok _

theorem hasEnd_fillParameters {convert : Shape → String → Plain → Reporting Plain}
    {record : String} {taken : List (Parameter × Plain)} {filled : List (String × Plain)} :
    (fillParameters convert record taken filled).HasEnd ↔ ∀ t ∈ taken,
      (convert t.1.shape (parameterContext record t.1.name) t.2).HasEnd := by
  induction taken generalizing filled with
  | nil => simp [fillParameters, hasEnd_ok]
  | cons t rest ih =>
    rw [List.forall_mem_cons, fillParameters]
    exact hasEnd_andThen_iff fun _ => ih

/-- A record is filled if each of its parameters is converted. -/
theorem hasEnd_fillRecord {name : String} {properties : List (String × Plain)} :
    (fillRecord records (depth + 1) name properties).HasEnd ↔
      ∀ t ∈ takeProperties (records.parameters name) properties,
        (tryConvert (fillRecord records depth) t.1.shape (parameterContext name t.1.name)
          t.2).HasEnd := by
  unfold fillRecord
  simp only [hasEnd_fillParameters, hasEnd_orZero]

/-- Without properties every parameter is made from null. -/
theorem hasEnd_fillRecord_null {name : String} :
    (fillRecord records (depth + 1) name []).HasEnd ↔ ∀ p ∈ records.parameters name,
      (tryConvert (fillRecord records depth) p.shape (parameterContext name p.name)
        .null).HasEnd := by
  rw [hasEnd_fillRecord, takeProperties_nil, List.forall_mem_map]

/-- A union ends with its first shape, unless that one rejects the tree. -/
theorem hasEnd_union {first second : Shape} (present : value ≠ .null) :
    (tryConvert fill (.union first second) context value).HasEnd ↔
      (tryConvert fill first (context ++ ".AsT0") value).HasEnd ∧ (first.accepts value = false →
        (tryConvert fill second (context ++ ".AsT1") value).HasEnd) := by
  rw [tryConvert_union present, hasEnd_andThen]
  constructor
  · rintro ⟨outcome, warnings, tried, later⟩
    refine ⟨⟨outcome, warnings, tried⟩, fun rejected => ?_⟩
    obtain ⟨message, failed⟩ := tryConvert_of_rejects rejected fill (context ++ ".AsT0")
    obtain ⟨rfl, -⟩ := Prod.mk.inj (Option.some.inj (tried.symm.trans failed))
    exact (hasEnd_andThen_of_ends fun outcome => by cases outcome <;> exact hasEnd_ok _).mp later
  · rintro ⟨⟨outcome, warnings, tried⟩, rest⟩
    refine ⟨outcome, warnings, tried, ?_⟩
    cases outcome with
    | ok converted => exact hasEnd_ok _
    | error message =>
      exact (hasEnd_andThen_of_ends fun outcome => by cases outcome <;> exact hasEnd_ok _).mpr
        (rest (rejects_of_tryConvert tried))

/-- A conversion with an end has come to the end of all that it asked for. -/
theorem exists_bound_of_hasEnd
    (ends : (tryConvert (fillRecord records depth) shape context value).HasEnd) :
    ∃ bound, EndsWithin records bound (shape, value) := by
  -- A record's parameters are converted at a smaller depth, everything else to an inner shape.
  induction depth using Nat.strongRecOn generalizing shape value context with
  | _ depth deeper =>
    induction shape generalizing value context with
    | optional inner ih | output inner ih =>
      refine exists_bound_of_parts fun part asks => ?_
      cases asks
      cases value with
      | null => contradiction
      | _ => exact ih ends
    | union first second ihf ihs =>
      refine exists_bound_of_parts fun part asks => ?_
      cases asks with
      | first present => exact ihf ((hasEnd_union present).mp ends).1
      | second present rejected => exact ihs (((hasEnd_union present).mp ends).2 rejected)
    | array element ih =>
      refine exists_bound_of_parts fun part asks => ?_
      cases asks with
      | item member =>
        have items := (hasEnd_andThen_of_ends fun _ => hasEnd_ok _).mp ends
        exact ih (hasEnd_orZero.mp (hasEnd_convertItems.mp items _ member))
    | map key element _ ih =>
      refine exists_bound_of_parts fun part asks => ?_
      cases asks with
      | field member =>
        have fields := (hasEnd_andThen_of_ends fun _ => hasEnd_ok _).mp ends
        exact ih (hasEnd_orZero.mp (hasEnd_convertFields.mp fields _ member))
    | record name =>
      refine exists_bound_of_parts fun part asks => ?_
      cases asks with
      | parameter taken =>
        have filled := (hasEnd_andThen_of_ends fun _ => hasEnd_ok _).mp ends
        cases depth with
        | zero => obtain ⟨_, _, ⟨⟩⟩ := filled
        | succ depth => exact deeper depth (by omega) (hasEnd_fillRecord.mp filled _ taken)
      | missing member =>
        have filled := (hasEnd_andThen_of_ends fun _ => hasEnd_ok _).mp ends
        cases depth with
        | zero => obtain ⟨_, _, ⟨⟩⟩ := filled
        | succ depth => exact deeper depth (by omega) (hasEnd_fillRecord_null.mp filled _ member)
    | _ => exact exists_bound_of_parts fun _ asks => nomatch asks

/-! ### Grounded conversions end -/

/-- Null is converted to a shape if that shape, where it is a record, is made from nothing. -/
theorem hasEnd_null
    (filled : ∀ name, shape = .record name → (fillRecord records depth name []).HasEnd) :
    (tryConvert (fillRecord records depth) shape context .null).HasEnd := by
  by_cases record : ∃ name, shape = .record name
  · obtain ⟨name, rfl⟩ := record
    exact (hasEnd_andThen_of_ends fun _ => hasEnd_ok _).mpr (filled name rfl)
  · have other : ∀ name, shape ≠ .record name := fun name same => record ⟨name, same⟩
    exact ⟨_, _, Converts.null other context depth (Nat.zero_le depth)⟩

/-- A record is made from nothing if no record on the way is a parameter of its own. The records
entered so far all lead to this one, so it is not among them. -/
theorem hasEnd_fillRecord_nil {name : String} {seen : List String}
    (path : ∀ other ∈ seen, Relation.TransGen records.Holds other name)
    (grounded : Grounded records (.record name, .null)) (enough : records.unvisited seen < depth) :
    (fillRecord records depth name []).HasEnd := by
  induction depth generalizing name seen with
  | zero => omega
  | succ depth ih =>
    refine hasEnd_fillRecord_null.mpr fun p member => hasEnd_null fun part same => ?_
    have holds : records.Holds name part := ⟨p, member, same⟩
    have fresh : name ∉ seen := fun old => grounded name .refl (path name old)
    have less := Records.unvisited_enter fresh records (Records.lookup_of_parameter member)
    have longer : ∀ other ∈ name :: seen, Relation.TransGen records.Holds other part := by
      intro other entered
      rcases List.mem_cons.mp entered with rfl | entered
      · exact .single holds
      · exact (path other entered).tail holds
    exact ih longer (same ▸ grounded.asked (.missing member)) (by omega)

/-- What a parameter takes is no deeper than the properties. -/
theorem depth_le_of_taken {parameters : List Parameter} {properties : List (String × Plain)}
    {t : Parameter × Plain} (taken : t ∈ takeProperties parameters properties) :
    t.2.depth ≤ Plain.depthFields properties := by
  obtain ⟨p, value⟩ := t
  rcases (mem_takeProperties taken).2 with rfl | member
  · exact Nat.zero_le _
  · exact Plain.depth_le_of_mem_fields member

/-- A grounded conversion ends at the depth of the tree and of the table. -/
theorem Grounded.hasEnd (grounded : Grounded records (shape, value))
    (enough : value.depth + records.length + 1 ≤ depth) :
    (tryConvert (fillRecord records depth) shape context value).HasEnd := by
  -- An object of the tree pays for the record that is read from it. From null on the tree pays
  -- nothing more, and what is left of the depth is for records that are all different.
  induction depth using Nat.strongRecOn generalizing shape value context with
  | _ depth deeper =>
    induction shape generalizing value context with
    | optional inner ih =>
      cases value with
      | null => exact hasEnd_ok _
      | _ => exact ih (grounded.asked (.optional nofun)) enough
    | output inner ih =>
      cases value with
      | null => exact hasEnd_ok _
      | _ => exact ih (grounded.asked (.output nofun)) enough
    | union first second ihf ihs =>
      by_cases present : value = .null
      · exact present ▸ hasEnd_ok _
      · exact (hasEnd_union present).mpr ⟨ihf (grounded.asked (.first present)) enough,
          fun rejected => ihs (grounded.asked (.second present rejected)) enough⟩
    | array element ih =>
      cases value with
      | array items =>
        refine (hasEnd_andThen_of_ends fun _ => hasEnd_ok _).mpr (hasEnd_convertItems.mpr ?_)
        intro item member
        have below := Plain.depth_le_of_mem member
        unfold Plain.depth at enough
        exact hasEnd_orZero.mpr (ih (grounded.asked (.item member)) (by omega))
      | _ => exact hasEnd_ok _
    | map key element _ ih =>
      cases value with
      | object fields =>
        refine (hasEnd_andThen_of_ends fun _ => hasEnd_ok _).mpr (hasEnd_convertFields.mpr ?_)
        intro field member
        have below := Plain.depth_le_of_mem_fields member
        unfold Plain.depth at enough
        exact hasEnd_orZero.mpr (ih (grounded.asked (.field member)) (by omega))
      | _ => exact hasEnd_ok _
    | record name =>
      cases value with
      | null =>
        have unvisited := Records.unvisited_le_length [] records
        have path : ∀ other ∈ [], Relation.TransGen records.Holds other name :=
          List.forall_mem_nil _
        refine hasEnd_null fun _ same => ?_
        obtain rfl := Shape.record.inj same
        exact hasEnd_fillRecord_nil path grounded (by omega)
      | object properties =>
        refine (hasEnd_andThen_of_ends fun _ => hasEnd_ok _).mpr ?_
        unfold Plain.depth at enough
        cases depth with
        | zero => omega
        | succ depth =>
          refine hasEnd_fillRecord.mpr fun t taken => ?_
          have below := depth_le_of_taken taken
          exact deeper depth (by omega) (grounded.asked (.parameter taken)) (by omega)
      | _ => exact hasEnd_ok _
    | _ => cases value <;> exact ⟨_, _, rfl⟩

/-- So the depth that conversions are given is enough for it. -/
theorem Grounded.hasEnd_convert (grounded : Grounded records (shape, value)) (context : String) :
    (convert records shape context value).HasEnd := by
  refine hasEnd_orZero.mpr (grounded.hasEnd ?_)
  unfold sufficientDepth
  omega

/-- The conversion of a tree to a shape ends within some bound exactly if no record on the way
has to be made from nothing that is a parameter of its own; and exactly then it has a result. -/
theorem conversion_ends_iff (records : Records) (shape : Shape) (value : Plain) :
    ((∃ bound, EndsWithin records bound (shape, value)) ↔ Grounded records (shape, value)) ∧
      ∀ context, (convert records shape context value).HasEnd ↔
        ∃ bound, EndsWithin records bound (shape, value) := by
  have bounded (context : String) (ends : (convert records shape context value).HasEnd) :
      ∃ bound, EndsWithin records bound (shape, value) :=
    exists_bound_of_hasEnd (hasEnd_orZero.mp ends)
  exact ⟨⟨fun ⟨_, ends⟩ => ends.grounded, fun grounded => bounded "" (grounded.hasEnd_convert "")⟩,
    fun context => ⟨bounded context, fun ⟨_, ends⟩ => ends.grounded.hasEnd_convert context⟩⟩

/-- A table of one record, with one parameter, of the record itself. -/
def loop : Records := [("Loop", [⟨"next", "next", .record "Loop"⟩])]

/-- The record is valid, but its conversion from an object without properties has no end, and none
is found at any depth. -/
theorem valid_record_without_end :
    validate loop (.record "Loop") "value" = .ok () ∧
      (¬ ∃ bound, EndsWithin loop bound (.record "Loop", .object [])) ∧
      ∀ depth context,
        convertWithin loop depth (.record "Loop") context (.object []) = .endless := by
  have circular : loop.Circular "Loop" := .single ⟨_, List.mem_cons_self, rfl⟩
  have unbounded : ¬ ∃ bound, EndsWithin loop bound (.record "Loop", .object []) := by
    rintro ⟨bound, ends⟩
    have asks : Asks loop (.record "Loop", .object []) (.record "Loop", .null) :=
      .parameter (p := ⟨"next", "next", .record "Loop"⟩) List.mem_cons_self
    exact ends.grounded "Loop" (.single asks) circular
  refine ⟨rfl, unbounded, fun depth context => ?_⟩
  cases result : convertWithin loop depth (.record "Loop") context (.object []) with
  | none => rfl
  | some r => exact absurd (exists_bound_of_hasEnd (hasEnd_orZero.mp ⟨_, _, result⟩)) unbounded

end Shape

end Provision
