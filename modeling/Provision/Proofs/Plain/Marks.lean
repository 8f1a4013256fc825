import Provision.Plain.OfValue

/-!
# What is reported of marks

The two flags of a lifted value tell whether a secret was unwrapped and whether an unknown was met
on the walk through it. The walk enters everything but the payloads of files: an object that reads
as a file becomes the file, whatever else it holds. So the flags tell of the marks outside of
payloads, and they tell of all marks exactly if none is there that payloads alone hold
(`marks_reported_iff`).
-/

namespace Provision

namespace Value

/-- Somewhere in the value stands what is looked for, in objects that are entered. -/
inductive Contains (enters : Fields Value → Prop) (found : Value → Prop) : Value → Prop where
  | here {value : Value} (this : found value) : Contains enters found value
  | content {content : Value} (inside : Contains enters found content) :
      Contains enters found (.secret content)
  | item {items : List Value} {item : Value} (member : item ∈ items)
      (inside : Contains enters found item) : Contains enters found (.array items)
  | field {fields : Fields Value} {field : String × Value} (entered : enters fields)
      (member : field ∈ fields) (inside : Contains enters found field.2) :
      Contains enters found (.object fields)

variable {enters enters' : Fields Value → Prop} {found found' : Value → Prop} {value : Value}

/-- What is looked for stands anywhere in the value. -/
def Holds (found : Value → Prop) (value : Value) : Prop := value.Contains (fun _ => True) found

/-- It stands outside of the payloads of files. -/
def Shows (found : Value → Prop) (value : Value) : Prop :=
  value.Contains (fun fields => File.ofValue? (.object fields) = none) found

/-- It stands in the payload of a file. -/
def Hides (found : Value → Prop) (value : Value) : Prop :=
  value.Shows fun part => (File.ofValue? part).isSome = true ∧ part.Holds found

theorem Contains.mono (wider : ∀ fields, enters fields → enters' fields)
    (more : ∀ part, found part → found' part) (contains : value.Contains enters found) :
    value.Contains enters' found' := by
  induction contains with
  | here this => exact .here (more _ this)
  | content _ ih => exact .content ih
  | item member _ ih => exact .item member ih
  | field entered member _ ih => exact .field (wider _ entered) member ih

/-- What stands in a part stands in the whole. -/
theorem Contains.join (contains : value.Contains enters fun part => part.Contains enters found) :
    value.Contains enters found := by
  induction contains with
  | here this => exact this
  | content _ ih => exact .content ih
  | item member _ ih => exact .item member ih
  | field entered member _ ih => exact .field entered member ih

/-- What stands in a value stands outside of payloads or in one. -/
theorem holds_iff : value.Holds found ↔ value.Shows found ∨ value.Hides found := by
  constructor
  · intro holds
    induction holds with
    | here this => exact .inl (.here this)
    | content _ ih => exact ih.imp .content .content
    | item member _ ih => exact ih.imp (.item member) (.item member)
    | @field fields field entered member inside ih =>
      cases file : File.ofValue? (.object fields) with
      | none => exact ih.imp (.field file member) (.field file member)
      | some content =>
        exact .inr (.here ⟨Option.isSome_of_eq_some file, .field entered member inside⟩)
  · rintro (shows | hides)
    · exact shows.mono (fun _ _ => trivial) fun _ this => this
    · exact (hides.mono (fun _ _ => trivial) fun _ payload => payload.2).join

/-- What is lifted out of values. -/
inductive Mark where
  | secret
  | unknown

/-- A value that is the mark itself. -/
def Mark.Is : Mark → Value → Prop
  | .secret, .secret _ => True
  | .unknown, .unknown => True
  | _, _ => False

variable {mark : Mark}

theorem shows_array {items : List Value} :
    (Value.array items).Shows mark.Is ↔ ∃ item ∈ items, item.Shows mark.Is := by
  constructor
  · rintro (this | _ | ⟨member, inside⟩)
    · cases mark <;> exact this.elim
    · exact ⟨_, member, inside⟩
  · rintro ⟨item, member, inside⟩
    exact .item member inside

theorem shows_object {fields : Fields Value} :
    (Value.object fields).Shows mark.Is ↔ File.ofValue? (.object fields) = none ∧
      ∃ field ∈ fields, field.2.Shows mark.Is := by
  constructor
  · rintro (this | _ | _ | ⟨plain, member, inside⟩)
    · cases mark <;> exact this.elim
    · exact ⟨plain, _, member, inside⟩
  · rintro ⟨plain, field, member, inside⟩
    exact .field plain member inside

theorem shows_secret {content : Value} :
    (Value.secret content).Shows mark.Is ↔ mark = .secret ∨ content.Shows mark.Is := by
  constructor
  · rintro (this | inside)
    · cases mark with
      | secret => exact .inl rfl
      | unknown => exact this.elim
    · exact .inr inside
  · rintro (rfl | inside)
    · exact .here trivial
    · exact .content inside

end Value

namespace Lifted

variable {α β γ : Type} {mark : Value.Mark}

/-- The flag of the mark tells that one was lifted out. -/
def tells (lifted : Lifted α) : Value.Mark → Bool
  | .secret => lifted.isSecret
  | .unknown => !lifted.isKnown

theorem tells_plain (content : α) : (plain content).tells mark = false := by cases mark <;> rfl

theorem tells_both (f : α → β → γ) (x : Lifted α) (y : Lifted β) :
    (both f x y).tells mark = (x.tells mark || y.tells mark) := by
  cases mark with
  | secret => rfl
  | unknown => exact Bool.not_and ..

theorem tells_map (f : α → β) (x : Lifted α) : (x.map f).tells mark = x.tells mark := by
  cases mark <;> rfl

end Lifted

namespace Plain

variable {σ : Type} (resolve : Resolver σ) (mark : Value.Mark)

mutual

/-- The flags tell of the marks that are shown. -/
theorem ofValue_tells : ∀ (value : Value) (s : σ),
    (ofValue resolve value s).1.tells mark = true ↔ value.Shows mark.Is
  | .null, s | .bool _, s | .number _, s | .string _, s | .reference _, s => by
    unfold ofValue
    rw [Lifted.tells_plain]
    refine iff_of_false Bool.false_ne_true ?_
    rintro ⟨this⟩
    cases mark <;> exact this.elim
  | .unknown, s => by
    cases mark with
    | unknown => exact iff_of_true rfl (.here trivial)
    | secret => exact iff_of_false Bool.false_ne_true (by rintro ⟨⟨⟩⟩)
  | .secret content, s => by
    have inside := ofValue_tells content s
    rw [Value.shows_secret, ← inside]
    cases mark with
    | secret => exact iff_of_true rfl (.inl rfl)
    | unknown => exact ⟨.inr, fun either => either.resolve_left nofun⟩
  | .array items, s => by
    unfold ofValue
    rw [Value.shows_array, ← itemsOfValues_tells items s]
    dsimp only
    rw [Lifted.tells_map]
  | .object fields, s => by
    unfold ofValue
    rw [Value.shows_object]
    cases file : File.ofValue? (.object fields) with
    | some content =>
      dsimp only
      rw [Lifted.tells_plain]
      exact iff_of_false Bool.false_ne_true nofun
    | none =>
      rw [← fieldsOfValues_tells fields s, and_iff_right rfl]
      dsimp only
      rw [Lifted.tells_map]

theorem itemsOfValues_tells : ∀ (items : List Value) (s : σ),
    (itemsOfValues resolve items s).1.tells mark = true ↔ ∃ item ∈ items, item.Shows mark.Is
  | [], s => by
    unfold itemsOfValues
    simp [Lifted.tells_plain]
  | item :: rest, s => by
    unfold itemsOfValues
    dsimp only
    rw [Lifted.tells_both, Bool.or_eq_true, ofValue_tells item s,
      itemsOfValues_tells rest (ofValue resolve item s).2]
    simp

theorem fieldsOfValues_tells : ∀ (fields : List (String × Value)) (s : σ),
    (fieldsOfValues resolve fields s).1.tells mark = true ↔
      ∃ field ∈ fields, field.2.Shows mark.Is
  | [], s => by
    unfold fieldsOfValues
    simp [Lifted.tells_plain]
  | (key, value) :: rest, s => by
    unfold fieldsOfValues
    dsimp only
    rw [Lifted.tells_both, Bool.or_eq_true, ofValue_tells value s,
      fieldsOfValues_tells rest (ofValue resolve value s).2]
    simp

end

/-- A flag tells of the marks outside of payloads, so it tells of all marks exactly if there is one
outside of payloads where there is one inside. -/
theorem tells_all_iff (value : Value) (s : σ) :
    ((ofValue resolve value s).1.tells mark = true ↔ value.Holds mark.Is) ↔
      (value.Hides mark.Is → value.Shows mark.Is) := by
  rw [ofValue_tells, Value.holds_iff]
  exact ⟨fun all hides => all.mpr (.inr hides),
    fun shown => ⟨.inl, fun either => either.elim id shown⟩⟩

/-- A value is reported to be secret exactly if a secret stands outside of the payloads of files,
and not to be known exactly if an unknown does, however references are resolved. So the report
tells of marks anywhere in the value exactly if payloads do not hold the only ones. -/
theorem marks_reported_iff (value : Value) (s : σ) :
    let lifted := (ofValue resolve value s).1
    ((lifted.isSecret = true ↔ value.Shows Value.Mark.secret.Is) ∧
        (lifted.isKnown = false ↔ value.Shows Value.Mark.unknown.Is)) ∧
      ((lifted.isSecret = true ↔ value.Holds Value.Mark.secret.Is) ↔
        (value.Hides Value.Mark.secret.Is → value.Shows Value.Mark.secret.Is)) ∧
      ((lifted.isKnown = false ↔ value.Holds Value.Mark.unknown.Is) ↔
        (value.Hides Value.Mark.unknown.Is → value.Shows Value.Mark.unknown.Is)) := by
  intro lifted
  have unknown : lifted.tells .unknown = true ↔ lifted.isKnown = false :=
    iff_of_eq (Bool.not_eq_true' _)
  rw [← unknown]
  exact ⟨⟨ofValue_tells resolve .secret value s, ofValue_tells resolve .unknown value s⟩,
    tells_all_iff resolve .secret value s, tells_all_iff resolve .unknown value s⟩

/-- The payload of an asset, with a secret note that is not known yet. -/
def annotated : Value :=
  .object [(Signature.key, .string Signature.asset), ("note", .secret .unknown),
    ("path", .string "x.txt")]

/-- It holds a secret and an unknown, and neither is reported. -/
theorem hidden_marks_unreported :
    annotated.Holds Value.Mark.secret.Is ∧ annotated.Holds Value.Mark.unknown.Is ∧
      ofValue (fun _ (made : Nat) => (made, made + 1)) annotated 0 =
        (.plain (.file (.asset (.file "x.txt"))), 0) := by
  have note : ("note", Value.secret .unknown) ∈ [(Signature.key, .string Signature.asset),
      ("note", .secret .unknown), ("path", Value.string "x.txt")] :=
    List.mem_cons_of_mem _ List.mem_cons_self
  exact ⟨.field trivial note (.here trivial), .field trivial note (.content (.here trivial)), rfl⟩

end Plain

end Provision
