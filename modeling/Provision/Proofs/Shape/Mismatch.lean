import Provision.Host.Conversion
import Provision.Proofs.Shape.Converting
import Provision.Proofs.Shape.Unions

/-!
# Mismatching and missing trees

A tree that a shape rejects is replaced by the zero of the shape, with one warning. Null is
converted to the same zero, but not where a record is due: there null counts as a record without
properties, while the zero is null. So a mismatch is treated like a missing tree exactly where no
record is due (`mismatch_as_missing_iff`). From the null that stands for a mismatching record no
record can be built, and so nothing around it either (`mismatching_record_spoils_more`).
-/

namespace Provision

namespace Reporting

variable {α β γ : Type} {a b : α} {message : String}

theorem andThen_assoc (x : Reporting α) (f : α → Reporting β) (g : β → Reporting γ) :
    (x.andThen f).andThen g = x.andThen fun a => (f a).andThen g := by
  match x with
  | none => rfl
  | some (a, warnings) =>
    unfold andThen
    dsimp only
    cases f a with
    | none => rfl
    | some r =>
      dsimp only
      cases g r.1 with
      | none => rfl
      | some last => exact congrArg (fun ws => some (last.1, ws)) (List.append_assoc ..)

/-- What a computation results in, whatever it reports on the way. -/
def Yields (x : Reporting α) (a : α) : Prop := ∃ warnings, x = some (a, warnings)

theorem yields_ok : (ok a).Yields b ↔ a = b :=
  ⟨fun ⟨_, same⟩ => (Prod.mk.inj (Option.some.inj same)).1, fun same => same ▸ ⟨[], rfl⟩⟩

theorem yields_warn : (warn message a).Yields b ↔ a = b :=
  ⟨fun ⟨_, same⟩ => (Prod.mk.inj (Option.some.inj same)).1, fun same => same ▸ ⟨[message], rfl⟩⟩

end Reporting

namespace Shape

open Reporting

variable {records : Records} {shape : Shape} {value tree : Plain} {context name : String}

/-- Where a record is due, null is converted to an object, or without an end. -/
theorem convert_null_record :
    convert records (.record name) context .null =
      (fillRecord records (sufficientDepth records .null) name []).andThen
        fun fields => .ok (.object fields) := by
  have attempt : convert records (.record name) context .null =
      orZero (.record name) ((fillRecord records (sufficientDepth records .null) name []).andThen
        fun fields => .ok (.ok (.object fields))) := rfl
  rw [attempt]
  exact andThen_assoc ..

theorem object_of_null_record
    (yields : (convert records (.record name) context .null).Yields tree) :
    ∃ fields, tree = .object fields := by
  obtain ⟨warnings, converted⟩ := yields
  rw [convert_null_record] at converted
  cases filled : fillRecord records (sufficientDepth records .null) name [] with
  | none =>
    rw [filled] at converted
    cases converted
  | some result =>
    rw [filled] at converted
    exact ⟨result.1, (Prod.mk.inj (Option.some.inj converted)).1.symm⟩

/-- A tree that the shape rejects is converted to the zero of the shape, with exactly one warning;
null is converted to the same tree exactly if the shape is not a record. -/
theorem mismatch_as_missing_iff (rejected : Fails records shape context value) :
    (∃ message, convert records shape context value = .warn message shape.zero) ∧
      ((∃ tree, (convert records shape context value).Yields tree ∧
        (convert records shape context .null).Yields tree) ↔ ∀ name, shape ≠ .record name) := by
  obtain ⟨message, failed⟩ := rejected
  have replaced : convert records shape context value = .warn message shape.zero := by
    unfold convert convertWithin
    rw [failed]
    rfl
  refine ⟨⟨message, replaced⟩, ?_⟩
  rw [replaced]
  constructor
  · rintro ⟨tree, mismatch, missing⟩ name rfl
    obtain ⟨fields, rfl⟩ := object_of_null_record missing
    cases yields_warn.mp mismatch
  · intro other
    have converts : Converts records shape .null shape.zero := Converts.null other
    exact ⟨shape.zero, yields_warn.mpr rfl, converts.convert context ▸ yields_ok.mpr rfl⟩

/-- An integer or a text, given neither. -/
theorem mismatch_as_missing_iff_size :
    Fails [] (.union .int .string) "size" (.bool true) ∧
      ∃ tree, (convert [] (.union .int .string) "size" (.bool true)).Yields tree ∧
        (convert [] (.union .int .string) "size" .null).Yields tree :=
  ⟨⟨_, rfl⟩, (mismatch_as_missing_iff ⟨_, rfl⟩).2.mpr nofun⟩

/-- A record of one integer, and one that holds it. -/
def lines : HostRecords :=
  [("Point", [⟨"x", "x", .int⟩]), ("Line", [⟨"start", "start", .record "Point"⟩])]

/-- A mismatching record becomes null, while a missing one gets its parameters. Where the record is
a parameter of another one, the mismatch leaves nothing usable of that one either. -/
theorem mismatching_record_spoils_more :
    validate lines.shapes (.record "Point") "prop" = .ok () ∧
      Fails lines.shapes (.record "Point") "prop" (.bool true) ∧
      convert lines.shapes (.record "Point") "prop" (.bool true) =
        .warn "Expected Point but got bool deserializing prop" .null ∧
      convert lines.shapes (.record "Point") "prop" .null =
        .ok (.object [("x", .number Number.zero)]) ∧
      (HostType.convertPlain ⟨.record "Line", lines⟩ "prop"
        (.object [("start", .bool true)])).Yields none ∧
      (HostType.convertPlain ⟨.record "Line", lines⟩ "prop" (.object [])).Yields
        (some (.record [("start", "start", .record [("x", "x", .int 0)])])) :=
  ⟨rfl, ⟨_, rfl⟩, rfl, rfl, ⟨_, rfl⟩, _, rfl⟩

end Shape

end Provision
