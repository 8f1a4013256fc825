import Provision.File.Basic
import Provision.Json.Basic

/-!
# Files as documents

A file outside of engine values is written as an object with one member: its name tells an asset
from an archive, and its items give the form and the source. An invalid file is written too.
-/

namespace Provision

namespace File

mutual

/-- The file of a document; an object that describes none is an invalid archive. -/
def ofJson : Json → File
  | .object [("asset", .array [.string "file", .string path])] => .asset (.file path)
  | .object [("asset", .array [.string "string", .string content])] => .asset (.text content)
  | .object [("asset", .array [.string "remote", .string uri])] => .asset (.remote uri)
  | .object [("asset", _)] => .asset .invalid
  | .object [("archive", .array [.string "file", .string path])] => .archiveFile path
  | .object [("archive", .array [.string "remote", .string uri])] => .archiveRemote uri
  | .object [("archive", .array [.string "assets", .object entries])] =>
    .archiveEntries (entriesOfJson entries)
  | _ => .archiveInvalid

def entriesOfJson : List (String × Json) → List (String × File)
  | [] => []
  | (name, document) :: rest => (name, ofJson document) :: entriesOfJson rest

end

def form (kind name : String) (source : List Json) : Json :=
  .object [(kind, .array (.string name :: source))]

mutual

def toJson : File → Json
  | .asset (.file path) => form "asset" "file" [.string path]
  | .asset (.text content) => form "asset" "string" [.string content]
  | .asset (.remote uri) => form "asset" "remote" [.string uri]
  | .asset .invalid => form "asset" "invalid" []
  | .archiveFile path => form "archive" "file" [.string path]
  | .archiveRemote uri => form "archive" "remote" [.string uri]
  | .archiveEntries entries => form "archive" "assets" [.object (entriesToJson entries)]
  | .archiveInvalid => form "archive" "invalid" []

def entriesToJson : List (String × File) → List (String × Json)
  | [] => []
  | (name, file) :: rest => (name, toJson file) :: entriesToJson rest

end

end File

end Provision
