import Provision.Failure
import Provision.Value.Basic

/-!
# Files: assets and archives

An asset is one file, an archive a collection of files that may contain archives again. Among
engine values a file is an object with a signature and one more field that says where the
content comes from. An object that is no such payload has no file; the place where a file was
due then holds an invalid one, which cannot be sent.
-/

namespace Provision

/-- Where the content of an asset comes from. -/
inductive Asset where
  | file (path : String)
  | text (content : String)
  | remote (uri : String)
  | invalid
  deriving DecidableEq, Repr

inductive File where
  | asset (content : Asset)
  /-- An archive file. -/
  | archiveFile (path : String)
  | archiveRemote (uri : String)
  /-- An archive given by its entries. -/
  | archiveEntries (entries : List (String × File))
  | archiveInvalid
  deriving Repr

namespace File

instance : Inhabited File := ⟨.asset .invalid⟩

def isAsset : File → Bool
  | .asset _ => true
  | _ => false

mutual

/-- Is the file, or an entry at any depth, invalid? -/
def hasInvalid : File → Bool
  | .asset .invalid => true
  | .archiveInvalid => true
  | .archiveEntries entries => hasInvalidEntry entries
  | _ => false

def hasInvalidEntry : List (String × File) → Bool
  | [] => false
  | (_, file) :: rest => hasInvalid file || hasInvalidEntry rest

end

/-- A payload: the signature and the field that tells the source. -/
def payload (signature field : String) (source : Value) : Value :=
  .object [(Signature.key, .string signature), (field, source)]

mutual

/-- The payload of a file; an invalid file has none. -/
def toValue : File → Except Failure Value
  | .asset (.file path) => .ok (payload Signature.asset "path" (.string path))
  | .asset (.text content) => .ok (payload Signature.asset "text" (.string content))
  | .asset (.remote uri) => .ok (payload Signature.asset "uri" (.string uri))
  | .asset .invalid => .error (.conversion "asset" "cannot serialize an invalid asset")
  | .archiveFile path => .ok (payload Signature.archive "path" (.string path))
  | .archiveRemote uri => .ok (payload Signature.archive "uri" (.string uri))
  | .archiveEntries entries => do
    let fields ← entriesToFields entries
    .ok (payload Signature.archive "assets" (.object fields))
  | .archiveInvalid => .error (.conversion "archive" "cannot serialize an invalid archive")

/-- The payloads of an archive's entries, up to the first invalid one. -/
def entriesToFields : List (String × File) → Except Failure (List (String × Value))
  | [] => .ok []
  | (name, file) :: rest => do
    let value ← toValue file
    let fields ← entriesToFields rest
    .ok ((name, value) :: fields)

end

def textOf (name : String) (fields : Fields Value) : Option String :=
  (fields.lookup name).bind Value.text?

/-- The asset that a payload describes: the first of a path, a text and a URI. -/
def assetOf (fields : Fields Value) : Option Asset :=
  ((textOf "path" fields).map .file).or
    (((textOf "text" fields).map .text).or ((textOf "uri" fields).map .remote))

/-- The file that an object's fields describe. `entries` is the reading of the field `assets`:
`none` if that is no object, `some none` if one of its entries is no file. -/
def ofFields (fields : Fields Value) (entries : Option (Option (List (String × File)))) :
    Option File :=
  match textOf Signature.key fields with
  | some signature =>
    if signature = Signature.asset then (assetOf fields).map .asset
    else if signature = Signature.archive then
      match entries with
      | some entries => entries.map .archiveEntries
      | none =>
        ((textOf "path" fields).map .archiveFile).or ((textOf "uri" fields).map .archiveRemote)
    else none
  | none => none

mutual

def ofValue? : Value → Option File
  | .object fields => ofFields fields (assetsField fields)
  | _ => none

/-- The entries under `assets`, if an object stands there. -/
def assetsField : List (String × Value) → Option (Option (List (String × File)))
  | [] => none
  | (key, value) :: rest =>
    if key = "assets" then
      match value with
      | .object fields => some (entriesOfFields fields)
      | _ => none
    else assetsField rest

def entriesOfFields : List (String × Value) → Option (List (String × File))
  | [] => some []
  | (name, value) :: rest => do
    let file ← ofValue? value
    let entries ← entriesOfFields rest
    some ((name, file) :: entries)

end

end File

end Provision
