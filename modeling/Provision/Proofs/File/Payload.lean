import Provision.File.Basic

/-!
# Payloads of files

A file that has a payload is read back from it, with all its entries (`ofValue?_toValue`), and an
object without a signature is no payload.
-/

namespace Provision.File

/-- A result that follows another is a result only if the other is. -/
theorem bind_ok {α β : Type} {x : Except Failure α} {f : α → Except Failure β} {b : β}
    (h : x.bind f = .ok b) : ∃ a, x = .ok a ∧ f a = .ok b := by
  cases x with
  | error cause => cases h
  | ok a => exact ⟨a, rfl, h⟩

mutual

/-- The payload of a file is read as that file. -/
theorem ofValue?_toValue {file : File} {value : Value} (ok : file.toValue = .ok value) :
    ofValue? value = some file := by
  cases file with
  | asset content =>
    cases content with
    | file path | text path | remote path =>
      cases ok
      rfl
    | invalid => cases ok
  | archiveFile path | archiveRemote path =>
    cases ok
    rfl
  | archiveEntries entries =>
    unfold toValue at ok
    obtain ⟨fields, inner, ok⟩ := bind_ok ok
    cases ok
    have read := entriesOfFields_entriesToFields inner
    have assets : assetsField [(Signature.key, .string Signature.archive),
        ("assets", .object fields)] = some (entriesOfFields fields) := rfl
    unfold payload ofValue?
    rw [assets, read]
    rfl
  | archiveInvalid => cases ok

theorem entriesOfFields_entriesToFields {entries : List (String × File)}
    {fields : List (String × Value)} (ok : entriesToFields entries = .ok fields) :
    entriesOfFields fields = some entries := by
  cases entries with
  | nil =>
    cases ok
    rfl
  | cons entry rest =>
    obtain ⟨name, file⟩ := entry
    unfold entriesToFields at ok
    obtain ⟨value, first, ok⟩ := bind_ok ok
    obtain ⟨values, later, ok⟩ := bind_ok ok
    cases ok
    have head := ofValue?_toValue first
    have tail := entriesOfFields_entriesToFields later
    unfold entriesOfFields
    simp [head, tail]

end

mutual

/-- Only an invalid file has no payload. -/
theorem toValue_of_valid {file : File} (valid : file.hasInvalid = false) :
    ∃ value, file.toValue = .ok value := by
  cases file with
  | asset content =>
    cases content with
    | invalid => cases valid
    | _ => exact ⟨_, rfl⟩
  | archiveInvalid => cases valid
  | archiveEntries entries =>
    unfold hasInvalid at valid
    obtain ⟨fields, ok⟩ := entriesToFields_of_valid valid
    refine ⟨payload Signature.archive "assets" (.object fields), ?_⟩
    unfold toValue
    rw [ok]
    rfl
  | _ => exact ⟨_, rfl⟩

theorem entriesToFields_of_valid {entries : List (String × File)}
    (valid : hasInvalidEntry entries = false) :
    ∃ fields, entriesToFields entries = .ok fields := by
  cases entries with
  | nil => exact ⟨[], rfl⟩
  | cons entry rest =>
    obtain ⟨name, file⟩ := entry
    unfold hasInvalidEntry at valid
    obtain ⟨first, later⟩ := Bool.or_eq_false_iff.mp valid
    obtain ⟨value, head⟩ := toValue_of_valid first
    obtain ⟨fields, tail⟩ := entriesToFields_of_valid later
    refine ⟨(name, value) :: fields, ?_⟩
    unfold entriesToFields
    rw [head, tail]
    rfl

end

/-- An object without a signature is no file. -/
theorem ofValue?_unsigned {fields : List (String × Value)}
    (unsigned : fields.lookup Signature.key = none) : ofValue? (.object fields) = none := by
  unfold ofValue? ofFields textOf
  rw [unsigned]
  rfl

end Provision.File
