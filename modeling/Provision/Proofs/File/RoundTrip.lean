import Provision.Proofs.File.Payload
import Provision.Proofs.Value.Canonical

/-!
# Files on the way through values and documents

A file without an invalid part has a payload, which is read as that file. The payload survives the
way through a document unless one of the file's texts is the text of an unknown; names of entries
may be any, since the payload of an entry is never a signature. No value is read as a file with an
invalid part (`payload_round_trip`).
-/

namespace Provision.File

open Provision.Value

mutual

/-- Every path, text and URI that the file names. -/
def texts : File → List String
  | .asset (.file s) | .asset (.text s) | .asset (.remote s) => [s]
  | .asset .invalid | .archiveInvalid => []
  | .archiveFile s | .archiveRemote s => [s]
  | .archiveEntries entries => textsOfEntries entries

def textsOfEntries : List (String × File) → List String
  | [] => []
  | (_, file) :: rest => texts file ++ textsOfEntries rest

end

/-! ### What is read as a file -/

/-- An object is read as a file that names one of its texts, or as an archive of its entries. -/
theorem ofFields_cases {fields : Fields Value} {entries : Option (Option (List (String × File)))}
    {file : File} (read : ofFields fields entries = some file) :
    (∃ name s, textOf name fields = some s ∧ file.texts = [s] ∧ file.hasInvalid = false) ∨
      ∃ inner, entries = some (some inner) ∧ file = .archiveEntries inner := by
  unfold ofFields at read
  split at read
  · split at read
    · obtain ⟨content, found, rfl⟩ := Option.map_eq_some_iff.mp read
      unfold assetOf at found
      simp only [Option.or_eq_some_iff, Option.map_eq_some_iff] at found
      rcases found with ⟨s, here, rfl⟩ | ⟨-, ⟨s, here, rfl⟩ | ⟨-, s, here, rfl⟩⟩ <;>
        exact .inl ⟨_, s, here, rfl, rfl⟩
    · split at read
      · split at read
        · obtain ⟨inner, rfl, rfl⟩ := Option.map_eq_some_iff.mp read
          exact .inr ⟨inner, rfl, rfl⟩
        · simp only [Option.or_eq_some_iff, Option.map_eq_some_iff] at read
          rcases read with ⟨s, here, rfl⟩ | ⟨-, s, here, rfl⟩ <;>
            exact .inl ⟨_, s, here, rfl, rfl⟩
      · cases read
  · cases read

theorem lookup_of_textOf {name s : String} {fields : Fields Value}
    (found : textOf name fields = some s) : fields.lookup name = some (.string s) := by
  obtain ⟨value, here, text⟩ := Option.bind_eq_some_iff.mp found
  cases value <;> cases text
  exact here

mutual

/-- A file that is read has no invalid part, and if it is read from a canonical value, it does not
name the text of an unknown. -/
theorem valid_of_ofValue? {value : Value} {file : File} (read : ofValue? value = some file) :
    file.hasInvalid = false ∧ (value.Canonical → Signature.unknown ∉ file.texts) := by
  cases value with
  | object fields =>
    rcases ofFields_cases read with ⟨name, s, found, named, valid⟩ | ⟨inner, assets, rfl⟩
    · refine ⟨valid, fun canonical => ?_⟩
      have ordinary : s ≠ Signature.unknown :=
        canonical_of_lookup canonical.2 (lookup_of_textOf found)
      simpa [named] using ordinary.symm
    · obtain ⟨valid, ordinary⟩ := valid_of_assetsField assets
      exact ⟨valid, fun canonical => ordinary canonical.2⟩
  | _ => cases read

theorem valid_of_assetsField {fields : List (String × Value)} {entries : List (String × File)}
    (read : assetsField fields = some (some entries)) :
    hasInvalidEntry entries = false ∧
      (CanonicalFields fields → Signature.unknown ∉ textsOfEntries entries) := by
  cases fields with
  | nil => cases read
  | cons field rest =>
    obtain ⟨key, value⟩ := field
    unfold assetsField at read
    split at read
    · cases value with
      | object inner =>
        obtain ⟨valid, ordinary⟩ := valid_of_entriesOfFields (Option.some.inj read)
        exact ⟨valid, fun canonical => ordinary canonical.1.2⟩
      | _ => cases read
    · obtain ⟨valid, ordinary⟩ := valid_of_assetsField read
      exact ⟨valid, fun canonical => ordinary canonical.2⟩

theorem valid_of_entriesOfFields {fields : List (String × Value)}
    {entries : List (String × File)} (read : entriesOfFields fields = some entries) :
    hasInvalidEntry entries = false ∧
      (CanonicalFields fields → Signature.unknown ∉ textsOfEntries entries) := by
  cases fields with
  | nil =>
    cases read
    exact ⟨rfl, fun _ => List.not_mem_nil⟩
  | cons field rest =>
    obtain ⟨name, value⟩ := field
    unfold entriesOfFields at read
    obtain ⟨file, first, read⟩ := Option.bind_eq_some_iff.mp read
    obtain ⟨files, later, read⟩ := Option.bind_eq_some_iff.mp read
    cases read
    obtain ⟨here, ordinary⟩ := valid_of_ofValue? first
    obtain ⟨there, ordinary'⟩ := valid_of_entriesOfFields later
    refine ⟨by simp [hasInvalidEntry, here, there], fun canonical => ?_⟩
    simp [textsOfEntries, ordinary canonical.1, ordinary' canonical.2]

end

/-! ### Payloads as documents -/

/-- A payload is read from its document if its source is. -/
theorem ofJson_payload {signature field : String} {source : Value}
    (known : signature = Signature.asset ∨ signature = Signature.archive)
    (read : Value.ofJson source.toJson = source) :
    Value.ofJson (payload signature field source).toJson = payload signature field source := by
  have ordinary : signature ≠ Signature.unknown ∧ signature ≠ Signature.secret ∧
      signature ≠ Signature.resource := by
    rcases known with rfl | rfl <;> decide
  have plain : ¬ Disguised [(Signature.key, .string signature), (field, source)] := by
    simp [Disguised, ordinary]
  rcases ofJson_object [(Signature.key, .string signature), (field, source)] with
    ⟨disguised, -⟩ | ⟨-, same⟩
  · exact absurd disguised plain
  · rw [payload, Value.toJson, same]
    simp [fieldsToJson, fieldsOfJson, Value.toJson, Value.ofJson, ordinary.1, read]

theorem ofJson_text {s : String} (ordinary : Signature.unknown ∉ [s]) :
    Value.ofJson (Value.toJson (.string s)) = .string s := by
  have differ : s ≠ Signature.unknown := by simpa [eq_comm] using ordinary
  rw [Value.toJson, Value.ofJson, if_neg differ]

/-- The payload of a file is an object. -/
theorem toValue_object {file : File} {value : Value} (ok : file.toValue = .ok value) :
    ∃ fields, value = .object fields := by
  have read := ofValue?_toValue ok
  cases value with
  | object fields => exact ⟨fields, rfl⟩
  | _ => cases read

/-- Entries may have any names, also that of the signature: what stands there is no text. -/
theorem not_disguised_entries {entries : List (String × File)} {fields : List (String × Value)}
    (ok : entriesToFields entries = .ok fields) : ¬ Disguised fields := by
  have object : ∀ name value, fields.lookup name = some value → ∃ inner, value = .object inner := by
    intro name value found
    induction entries generalizing fields with
    | nil =>
      cases ok
      cases found
    | cons entry rest ih =>
      obtain ⟨key, file⟩ := entry
      unfold entriesToFields at ok
      obtain ⟨first, head, ok⟩ := bind_ok ok
      obtain ⟨later, tail, ok⟩ := bind_ok ok
      cases ok
      rw [Fields.lookup_cons] at found
      split at found
      · cases found
        exact toValue_object head
      · exact ih tail found
  rintro (⟨signed, -⟩ | ⟨signed, -⟩) <;>
    (obtain ⟨inner, same⟩ := object _ _ signed; cases same)

mutual

/-- The payload of a file is read from its document, unless the file names the text of an
unknown. -/
theorem ofJson_toValue {file : File} {value : Value} (ok : file.toValue = .ok value)
    (ordinary : Signature.unknown ∉ file.texts) : Value.ofJson value.toJson = value := by
  cases file with
  | asset content =>
    cases content with
    | file s | text s | remote s =>
      cases ok
      exact ofJson_payload (.inl rfl) (ofJson_text ordinary)
    | invalid => cases ok
  | archiveFile s | archiveRemote s =>
    cases ok
    exact ofJson_payload (.inr rfl) (ofJson_text ordinary)
  | archiveEntries entries =>
    unfold toValue at ok
    obtain ⟨fields, inner, ok⟩ := bind_ok ok
    cases ok
    refine ofJson_payload (.inr rfl) ?_
    rcases ofJson_object fields with ⟨disguised, -⟩ | ⟨-, same⟩
    · exact absurd disguised (not_disguised_entries inner)
    · rw [Value.toJson, same, fieldsOfJson_entriesToFields inner ordinary]
  | archiveInvalid => cases ok

theorem fieldsOfJson_entriesToFields {entries : List (String × File)}
    {fields : List (String × Value)} (ok : entriesToFields entries = .ok fields)
    (ordinary : Signature.unknown ∉ textsOfEntries entries) :
    fieldsOfJson (fieldsToJson fields) = fields := by
  cases entries with
  | nil =>
    cases ok
    rfl
  | cons entry rest =>
    obtain ⟨name, file⟩ := entry
    unfold entriesToFields at ok
    obtain ⟨value, first, ok⟩ := bind_ok ok
    obtain ⟨values, later, ok⟩ := bind_ok ok
    cases ok
    obtain ⟨here, there⟩ := not_or.mp (mt List.mem_append.mpr ordinary)
    rw [fieldsToJson, fieldsOfJson, ofJson_toValue first here,
      fieldsOfJson_entriesToFields later there]

end

/-- A file has no payload exactly if a part of it is invalid. Else the payload is read as the file,
and so is what its document is read as, exactly if the file does not name the text of an unknown.
And whatever is read as a file has no invalid part. -/
theorem payload_round_trip (file : File) :
    ((∃ cause, file.toValue = .error cause) ↔ file.hasInvalid = true) ∧
      (∀ value, file.toValue = .ok value →
        ofValue? value = some file ∧
          (ofValue? (Value.ofJson value.toJson) = some file ↔ Signature.unknown ∉ file.texts)) ∧
      ∀ value decoded, ofValue? value = some decoded → decoded.hasInvalid = false := by
  refine ⟨⟨?_, ?_⟩, fun value ok => ⟨ofValue?_toValue ok, fun read => ?_, fun ordinary => ?_⟩,
    fun _ _ read => (valid_of_ofValue? read).1⟩
  · rintro ⟨cause, fails⟩
    by_contra valid
    obtain ⟨value, ok⟩ := toValue_of_valid (Bool.eq_false_iff.mpr valid)
    simp [ok] at fails
  · intro invalid
    cases sent : file.toValue with
    | error cause => exact ⟨cause, rfl⟩
    | ok value =>
      obtain ⟨valid, -⟩ := valid_of_ofValue? (ofValue?_toValue sent)
      simp [valid] at invalid
  · exact (valid_of_ofValue? read).2 (canonical_ofJson value.toJson)
  · rw [ofJson_toValue ok ordinary]
    exact ofValue?_toValue ok

/-- An archive whose entries are named like the fields of a secret, with another archive inside. -/
def imitating : File :=
  .archiveEntries
    [(Signature.key, .asset (.text Signature.secret)),
      ("static", .archiveEntries [("urn", .archiveRemote "static.zip")]),
      ("value", .asset (.file "index.html"))]

/-- It has a payload, and is found again on both ways. -/
theorem payload_round_trip_imitating : ∃ value, imitating.toValue = .ok value ∧
    ofValue? value = some imitating ∧ ofValue? (Value.ofJson value.toJson) = some imitating := by
  obtain ⟨-, found, -⟩ := payload_round_trip imitating
  obtain ⟨direct, written⟩ := found _ rfl
  exact ⟨_, rfl, direct, written.mpr (by decide)⟩

end Provision.File
