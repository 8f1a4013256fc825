import Provision.Input.Serialization

/-!
# Trees that are sent as they are

A tree without outputs and resources is sent as one value, whatever the engine understands and
whatever the state of the outputs, and depends on nothing.
-/

namespace Provision

/-- What follows on an awaited result is done only if the result is. -/
theorem Await.andThen_eq_done {α β : Type} {x : Await α} {f : α → Await β} {b : β}
    (h : x.andThen f = .done b) : ∃ a, x = .done a ∧ f a = .done b := by
  cases x with
  | pending => cases h
  | failed cause => cases h
  | done a => exact ⟨a, rfl, h⟩

end Provision

namespace Provision.Input

variable {δ ι : Type}

def Sends (input : Input δ) (value : Value) : Prop :=
  ∀ (view : Key → ResourceView) (features : EngineFeatures) (await : String → δ → Await Serialized)
    (context : String), serialize view features await context input = .done (.plain value)

namespace Sends

theorem null : Sends (.null : Input δ) .null := fun _ _ _ _ => by simp [serialize]

theorem bool (b : Bool) : Sends (.bool b : Input δ) (.bool b) := fun _ _ _ _ => by simp [serialize]

theorem number (x : Number) : Sends (.number x : Input δ) (.number x) :=
  fun _ _ _ _ => by simp [serialize]

theorem string (s : String) : Sends (.string s : Input δ) (.string s) :=
  fun _ _ _ _ => by simp [serialize]

theorem file {file : File} {value : Value} (ok : file.toValue = .ok value) :
    Sends (.file file : Input δ) value := by
  intro view features await context
  unfold serialize
  rw [ok]

theorem items {rows : List ι} {input : ι → Input δ} {value : ι → Value}
    (each : ∀ r ∈ rows, Sends (input r) (value r)) (view : Key → ResourceView)
    (features : EngineFeatures) (await : String → δ → Await Serialized) (context : String)
    (index : Nat) :
    serializeItems view features await context index (rows.map input) =
      .done (rows.map value, []) := by
  induction rows generalizing index with
  | nil => simp [serializeItems]
  | cons r rest ih =>
    have head := each r (by simp) view features await (itemContext context index)
    have tail := ih (fun r hr => each r (List.mem_cons_of_mem _ hr)) (index + 1)
    simp only [List.map_cons, serializeItems, head, tail]
    rfl

theorem fields {rows : List ι} {key : ι → String} {input : ι → Input δ} {value : ι → Value}
    (each : ∀ r ∈ rows, Sends (input r) (value r)) (view : Key → ResourceView)
    (features : EngineFeatures) (await : String → δ → Await Serialized) (context : String) :
    serializeFields view features await context (rows.map fun r => (key r, input r)) =
      .done (rows.map fun r => (key r, value r), []) := by
  induction rows with
  | nil => simp [serializeFields]
  | cons r rest ih =>
    have head := each r (by simp) view features await (fieldContext context (key r))
    have tail := ih fun r hr => each r (List.mem_cons_of_mem _ hr)
    simp only [List.map_cons, serializeFields, head, tail]
    rfl

theorem array {rows : List ι} {input : ι → Input δ} {value : ι → Value}
    (each : ∀ r ∈ rows, Sends (input r) (value r)) :
    Sends (.array (rows.map input)) (.array (rows.map value)) := by
  intro view features await context
  unfold serialize
  rw [items each]
  rfl

/-- Null entries of objects are left out. -/
theorem object {rows : List ι} {key : ι → String} {input : ι → Input δ} {value : ι → Value}
    (each : ∀ r ∈ rows, Sends (input r) (value r)) :
    Sends (.object (rows.map fun r => (key r, input r)))
      (.object (Value.dropNulls (rows.map fun r => (key r, value r)))) := by
  intro view features await context
  unfold serialize
  rw [fields each]
  rfl

end Sends

/-! ### Trees of plain trees -/

theorem itemsOfPlain_eq (items : List Plain) :
    (itemsOfPlain items : List (Input δ)) = items.map ofPlain := by
  induction items with
  | nil => rfl
  | cons item rest ih => rw [itemsOfPlain, ih, List.map_cons]

theorem fieldsOfPlain_eq (fields : List (String × Plain)) :
    (fieldsOfPlain fields : List (String × Input δ)) = fields.map fun p => (p.1, ofPlain p.2) := by
  induction fields with
  | nil => rfl
  | cons field rest ih =>
    obtain ⟨key, value⟩ := field
    rw [fieldsOfPlain, ih, List.map_cons]

end Provision.Input

namespace Provision.Plain

variable {ι : Type}

def Sent (tree : Plain) (value : Value) : Prop :=
  ∀ δ : Type, Input.Sends (Input.ofPlain tree : Input δ) value

theorem Sent.array {rows : List ι} {tree : ι → Plain} {value : ι → Value}
    (each : ∀ r ∈ rows, Sent (tree r) (value r)) :
    Sent (.array (rows.map tree)) (.array (rows.map value)) := by
  intro δ
  rw [Input.ofPlain, Input.itemsOfPlain_eq, List.map_map]
  exact Input.Sends.array fun r hr => each r hr δ

theorem Sent.object {rows : List ι} {key : ι → String} {tree : ι → Plain} {value : ι → Value}
    (each : ∀ r ∈ rows, Sent (tree r) (value r)) :
    Sent (.object (rows.map fun r => (key r, tree r)))
      (.object (Value.dropNulls (rows.map fun r => (key r, value r)))) := by
  intro δ
  rw [Input.ofPlain, Input.fieldsOfPlain_eq, List.map_map]
  exact Input.Sends.object fun r hr => each r hr δ

end Provision.Plain

namespace Provision.Value

/-- An object without null entries keeps them all. -/
theorem dropNulls_eq_self {fields : Fields Value} (present : ∀ f ∈ fields, f.2.isNull = false) :
    dropNulls fields = fields := by
  refine List.filter_eq_self.mpr fun f member => ?_
  simp [present f member]

end Provision.Value
