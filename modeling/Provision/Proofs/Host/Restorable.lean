import Provision.Host.OfPlain
import Provision.Proofs.Shape.Soundness

/-!
# Types whose values survive their way

The types for which a value of the program can be rebuilt from what was sent for it. Enumerations
must read back the forms of their members; an optional value must not be nested in another one or
be an entry of a map, where its absence would be lost; and a record's fields need names of their
own on both sides. The shape of such a type is valid (`Restorable.validate`).
-/

namespace Provision

def Scalar.backing : Scalar → Backing
  | .text _ => .string
  | .number _ => .number

def Scalar.toPlain : Scalar → Plain
  | .text s => .string s
  | .number x => .number x

/-- Each member has a form of the declared kind, from which it is read back. -/
structure Enumeration.Faithful (description : Enumeration) : Prop where
  backed : ∀ m ∈ description.members, m.2.backing = description.backing
  undone : ∀ m ∈ description.members, description.ofPlain m.2.toPlain = .ok (.enum m.1 m.2)

/-- The fields of a record have names of their own, and properties of their own, none of which
is the signature. -/
structure HostRecords.Distinct (fields : List HostField) : Prop where
  names : (fields.map HostField.name).Nodup
  wireNames : (fields.map HostField.wireName).Nodup
  unsigned : ∀ f ∈ fields, f.wireName ≠ Signature.key

theorem HostRecords.parameters_shapes (records : HostRecords) (name : String) :
    records.shapes.parameters name = parametersOf (records.fields name) := by
  unfold Records.parameters HostRecords.fields shapes
  induction records with
  | nil => rfl
  | cons record rest ih =>
    rw [List.map_cons, Fields.lookup_cons, Fields.lookup_cons]
    split
    · rfl
    · exact ih

theorem HostRecords.Distinct.parameters {records : HostRecords} {name : String}
    (distinct : Distinct (records.fields name)) :
    ((records.shapes.parameters name).map Parameter.wireName).Nodup := by
  rw [HostRecords.parameters_shapes, HostRecords.parametersOf, List.map_map]
  exact distinct.wireNames

namespace HostType

variable {records : HostRecords}

def parts (records : HostRecords) : HostType → List HostType
  | .option inner => [inner]
  | .list element => [element]
  | .map element => [element]
  | .output inner => [inner]
  | .union first second => [first, second]
  | .record name => (records.fields name).map HostField.type
  | _ => []

/-- The second type is the first, or inside it, or in a field of a record inside it. -/
inductive Reaches (records : HostRecords) : HostType → HostType → Prop where
  | here (type : HostType) : Reaches records type type
  | inside {type part last : HostType} (member : part ∈ type.parts records)
      (rest : Reaches records part last) : Reaches records type last

/-- Nothing is lost where the type itself stands. -/
def Faithful (records : HostRecords) : HostType → Prop
  | .bool | .int | .number | .string | .asset | .archive | .file | .list _ => True
  | .option inner => ∀ type, inner ≠ .option type
  | .map element => ∀ type, element ≠ .option type
  | .enum description => description.Faithful
  | .record name => HostRecords.Distinct (records.fields name)
  | _ => False

/-- Nothing is lost anywhere inside the type. -/
def Restorable (records : HostRecords) (type : HostType) : Prop :=
  ∀ node, Reaches records type node → node.Faithful records

theorem Restorable.part {type part : HostType} (restorable : Restorable records type)
    (member : part ∈ type.parts records) : Restorable records part :=
  fun node path => restorable node (.inside member path)

theorem Restorable.string : Restorable records .string := by
  intro node path
  cases path with
  | here => trivial
  | inside member _ => cases member

/-- The shapes inside the shape of a type are the shapes of types inside it, but for the keys of
maps. -/
theorem Restorable.shape_part {type : HostType} (restorable : Restorable records type)
    {part : Shape} (member : part ∈ type.shape.parts records.shapes) :
    ∃ inner, Restorable records inner ∧ part = inner.shape := by
  have faithful := restorable type (.here type)
  cases type with
  | option inner | list inner =>
    obtain rfl := List.mem_singleton.mp member
    exact ⟨inner, restorable.part (by simp [parts]), rfl⟩
  | map element =>
    rcases List.mem_cons.mp member with rfl | member
    · exact ⟨.string, Restorable.string, rfl⟩
    · obtain rfl := List.mem_singleton.mp member
      exact ⟨element, restorable.part (by simp [parts]), rfl⟩
  | record name =>
    have inside : part ∈ (records.shapes.parameters name).map Parameter.shape := member
    rw [HostRecords.parameters_shapes] at inside
    obtain ⟨p, hp, rfl⟩ := List.mem_map.mp inside
    obtain ⟨f, hf, rfl⟩ := List.mem_map.mp hp
    exact ⟨f.type, restorable.part (List.mem_map_of_mem hf), rfl⟩
  | output inner | union first second | shaped shape => exact faithful.elim
  | _ => cases member

theorem Restorable.shape_sound {type : HostType} (restorable : Restorable records type) :
    type.shape.Sound records.shapes := by
  have faithful := restorable type (.here type)
  cases type with
  | option inner =>
    have innerFaithful := restorable inner (.inside (by simp [parts]) (.here inner))
    cases inner with
    | option type => exact absurd rfl (faithful type)
    | shaped shape => exact innerFaithful.elim
    | _ => trivial
  | map element => exact rfl
  | record name =>
    have distinct : HostRecords.Distinct (records.fields name) := faithful
    exact distinct.parameters
  | output inner | shaped shape => exact faithful.elim
  | _ => trivial

theorem Restorable.reached {type : HostType} (restorable : Restorable records type)
    {node : Shape} (path : Shape.Reaches records.shapes type.shape node) :
    ∃ inner, Restorable records inner ∧ node = inner.shape := by
  generalize same : type.shape = shape at path
  induction path generalizing type with
  | here => exact ⟨type, restorable, same.symm⟩
  | inside member _ ih =>
    subst same
    obtain ⟨inner, below, rfl⟩ := restorable.shape_part member
    exact ih below rfl

/-- The shape of a restorable type is valid. -/
theorem Restorable.validate {type : HostType} (restorable : Restorable records type)
    (context : String) : Shape.validate records.shapes type.shape context = .ok () := by
  refine (Shape.checked_iff type.shape context).mpr fun node path => ?_
  obtain ⟨inner, below, rfl⟩ := restorable.reached path
  exact below.shape_sound

end HostType

end Provision
