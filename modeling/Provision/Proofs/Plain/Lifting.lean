import Provision.Plain.OfValue
import Provision.Proofs.File.Payload

/-!
# Values that are plain data

A value lifts to a plain tree if it holds nothing that has to be lifted out and no reference: the
tree is then the same for every resolver, and the resolver's state is left as it is. Items and
fields are given as rows of any kind, each with its value and its tree.
-/

namespace Provision

/-- The value is the plain tree, with nothing lifted out and no reference resolved. -/
def Plain.Lifts (value : Value) (tree : Plain) : Prop :=
  ∀ (σ : Type) (resolve : Plain.Resolver σ) (s : σ),
    Plain.ofValue resolve value s = (.plain tree, s)

/-- The plain tree of a value without references. -/
def Value.asPlain (value : Value) : Plain :=
  (Plain.ofValue (fun _ s => (0, s)) value ()).1.content

namespace Plain.Lifts

variable {ι : Type}

/-- A value lifts to no other tree. -/
theorem eq_asPlain {value : Value} {tree : Plain} (lifts : Lifts value tree) :
    tree = value.asPlain := by
  have same := lifts Unit (fun _ s => (0, s)) ()
  unfold Value.asPlain
  rw [same]
  rfl

theorem null : Lifts .null .null := fun _ _ _ => rfl

theorem bool (b : Bool) : Lifts (.bool b) (.bool b) := fun _ _ _ => rfl

theorem number (x : Number) : Lifts (.number x) (.number x) := fun _ _ _ => rfl

theorem string (s : String) : Lifts (.string s) (.string s) := fun _ _ _ => rfl

theorem items {rows : List ι} {value : ι → Value} {tree : ι → Plain}
    (each : ∀ r ∈ rows, Lifts (value r) (tree r)) {σ : Type} (resolve : Resolver σ) (s : σ) :
    itemsOfValues resolve (rows.map value) s = (.plain (rows.map tree), s) := by
  induction rows with
  | nil => rfl
  | cons r rest ih =>
    have head := each r (by simp) σ resolve s
    have tail := ih fun r hr => each r (List.mem_cons_of_mem _ hr)
    simp only [List.map_cons, itemsOfValues, head, tail]
    rfl

theorem fields {rows : List ι} {key : ι → String} {value : ι → Value} {tree : ι → Plain}
    (each : ∀ r ∈ rows, Lifts (value r) (tree r)) {σ : Type} (resolve : Resolver σ) (s : σ) :
    fieldsOfValues resolve (rows.map fun r => (key r, value r)) s =
      (.plain (rows.map fun r => (key r, tree r)), s) := by
  induction rows with
  | nil => rfl
  | cons r rest ih =>
    have head := each r (by simp) σ resolve s
    have tail := ih fun r hr => each r (List.mem_cons_of_mem _ hr)
    simp only [List.map_cons, fieldsOfValues, head, tail]
    rfl

theorem array {rows : List ι} {value : ι → Value} {tree : ι → Plain}
    (each : ∀ r ∈ rows, Lifts (value r) (tree r)) :
    Lifts (.array (rows.map value)) (.array (rows.map tree)) := by
  intro σ resolve s
  unfold ofValue
  rw [items each resolve s]
  rfl

/-- An object without a signature is lifted field by field. -/
theorem object {rows : List ι} {key : ι → String} {value : ι → Value} {tree : ι → Plain}
    (unsigned : ∀ r ∈ rows, key r ≠ Signature.key)
    (each : ∀ r ∈ rows, Lifts (value r) (tree r)) :
    Lifts (.object (rows.map fun r => (key r, value r)))
      (.object (rows.map fun r => (key r, tree r))) := by
  have absent : (rows.map fun r => (key r, value r)).lookup Signature.key = none := by
    rw [List.lookup_eq_none_iff]
    intro p member
    obtain ⟨r, hr, rfl⟩ := List.mem_map.mp member
    simpa using Ne.symm (unsigned r hr)
  intro σ resolve s
  unfold ofValue
  rw [File.ofValue?_unsigned absent, fields each resolve s]
  rfl

/-- The payload of a file is lifted to the file. -/
theorem file {file : File} {value : Value} (ok : file.toValue = .ok value) :
    Lifts value (.file file) := by
  have read := File.ofValue?_toValue ok
  intro σ resolve s
  cases value with
  | object fields =>
    unfold ofValue
    rw [read]
  | _ => cases read

/-- Only null is lifted to null. -/
theorem eq_null {value : Value} {tree : Plain} (lifts : Lifts value tree)
    (null : tree = .null) : value = .null := by
  subst null
  have same := lifts Unit (fun _ s => (0, s)) ()
  cases value with
  | null => rfl
  | object fields =>
    unfold ofValue at same
    split at same <;> cases same
  | unknown => cases same
  | secret content =>
    have marked := congrArg (fun r => r.1.isSecret) same
    cases marked
  | _ => cases same

end Plain.Lifts

namespace Value

/-- An array of values that lift is the array of their trees. -/
theorem lifts_array {items : List Value} (each : ∀ v ∈ items, Plain.Lifts v v.asPlain) :
    Plain.Lifts (.array items) (.array (items.map asPlain)) := by
  have lifts : Plain.Lifts (.array (items.map id)) (.array (items.map asPlain)) :=
    Plain.Lifts.array each
  rwa [List.map_id] at lifts

theorem lifts_object {fields : List (String × Value)}
    (unsigned : ∀ f ∈ fields, f.1 ≠ Signature.key)
    (each : ∀ f ∈ fields, Plain.Lifts f.2 f.2.asPlain) :
    Plain.Lifts (.object fields) (.object (fields.map fun f => (f.1, f.2.asPlain))) := by
  have lifts : Plain.Lifts (.object (fields.map id))
      (.object (fields.map fun f => (f.1, f.2.asPlain))) := Plain.Lifts.object unsigned each
  rwa [List.map_id] at lifts

end Value

end Provision
