import Provision.File.Document
import Provision.Json.Access
import Provision.Session.Basic

/-!
# What steps are given, as documents

Arguments and options of a step as documents in which the names of the session stand for
resources and outputs. In an argument an object with a single member is special: `$res` is a
resource, `$from` an output by its name, `$output` describes an output, `$file` a file, `$num` a
number that documents cannot write, `$json` a document taken as it is, and `$literal` an object
whatever its members. A described output has a `value` or is not known, may be `secret`, and
depends on the resources in `deps`; or it has failed, with `error`.
-/

namespace Provision

namespace Number

/-- A number that documents cannot write, by its name. -/
def ofName : String → Number
  | "nan" => .nan
  | "inf" => .infinite false
  | "-inf" => .infinite true
  | _ => .finite (.zero true)

end Number

def Failure.ofJson (document : Json) : Failure :=
  (Failure.ofKind? document.str (document.str "kind")).getD (.output (document.str "message"))

namespace Session

variable {σ : Type}

def handle (document : Json) (name : String) : Step σ Key := resource (document.str name)

def handle? (document : Json) (name : String) : Step σ (Option Key) :=
  match document.get name with
  | .string handle => do return some (← resource handle)
  | _ => return none

def handles (document : Json) (name : String) : Step σ (List Key) :=
  (document.texts name).mapM resource

/-- A described output, given the value that stands in the description. -/
def described {α : Type} (description : Json) (value : Option α) : Step σ (Settled α) := do
  if description.has "error" then return .error (Failure.ofJson (description.get "error"))
  let keys ← handles description "deps"
  return .ok ⟨value, description.flag "secret" false, Ascending.ofList keys⟩

mutual

def argument : Json → Step σ Argument
  | .null => return .null
  | .bool b => return .bool b
  | .number n => return .number n.toNumber
  | .string t => return .string t
  | .array items => do return .array (← argumentItems items)
  | .object [("$num", name)] => return .number (Number.ofName name.text)
  | .object [("$file", file)] => return .file (File.ofJson file)
  | .object [("$res", handle)] => do return .resource (← resource handle.text)
  | .object [("$from", name)] => output name.text
  | .object [("$output", .object description)] => do
    return .ofSettled (← described (.object description) (← describedValue description))
  | .object [("$json", document)] => return .ofJson document
  | .object [("$literal", .object members)] => do return .object (← argumentFields members)
  | .object members => do return .object (← argumentFields members)

def argumentItems : List Json → Step σ (List Argument)
  | [] => return []
  | item :: rest => do
    let item ← argument item
    return item :: (← argumentItems rest)

def argumentFields : List (String × Json) → Step σ (List (String × Argument))
  | [] => return []
  | (key, value) :: rest => do
    let value ← argument value
    return (key, value) :: (← argumentFields rest)

/-- The value in a description. -/
def describedValue : List (String × Json) → Step σ (Option Argument)
  | [] => return none
  | ("value", value) :: _ => do return some (← argument value)
  | _ :: rest => describedValue rest

end

/-- An argument that a description gives. -/
def describedArgument (description : Json) : Step σ Argument :=
  argument (.object [("$output", description)])

def arguments (document : Json) : Step σ Arguments := argumentFields document.memberList

/-- A text output: a text, or a description. -/
def textOutput : Json → Step σ TextOutput
  | .string text => return .create text
  | description => do
    let value := if description.has "value" then some (description.str "value") else none
    return .settled (← described description value)

/-- An alias: a URN, or what differs. A parent that is null is none at all. -/
def earlierIdentity (document : Json) : Step σ Alias := do
  if document.has "urn" then return .urn (document.str "urn")
  let parent : AliasParent ←
    match document.has "parent", document.get "parent" with
    | false, _ => pure .inherit
    | true, .object [("urn", urn)] => pure (.urn urn.text)
    | true, .object [("resource", handle)] => do pure (.resource (← resource handle.text))
    | true, _ => pure .none
  return .spec
    { name := document.str? "name", type := document.str? "type", stack := document.str? "stack"
      project := document.str? "project", parent }

/-- Options, with those of a document in place of the ones given. -/
def options (document : Json) (given : Options) : Step σ Options := do
  let replacing {α : Type} (name : String) (old : α) (read : Json → Step σ α) : Step σ α :=
    if document.has name then read (document.get name) else return old
  let text (name : String) (old : Option String) := replacing name old fun v => return v.text?
  let flag (name : String) (old : Option Bool) := replacing name old fun v => return v.bool?
  let texts (name : String) (old : List String) :=
    replacing name old fun v => return v.itemList.map Json.text
  return {
    parent := ← replacing "parent" given.parent fun _ => handle? document "parent"
    dependsOn := ← replacing "dependsOn" given.dependsOn fun _ => handles document "dependsOn"
    protect := ← flag "protect" given.protect
    ignoreChanges := ← texts "ignoreChanges" given.ignoreChanges
    version := ← text "version" given.version
    pluginDownloadUrl := ← text "pluginDownloadUrl" given.pluginDownloadUrl
    provider := ← replacing "provider" given.provider fun _ => handle? document "provider"
    providers := ← replacing "providers" given.providers fun _ => handles document "providers"
    aliases := ← replacing "aliases" given.aliases fun v => v.itemList.mapM earlierIdentity
    id := ← replacing "id" given.id fun v =>
      match v with
      | .null => return none
      | v => do return some (← textOutput v)
    urn := ← text "urn" given.urn
    importId := ← text "importId" given.importId
    deleteBeforeReplace := ← replacing "deleteBeforeReplace" given.deleteBeforeReplace fun v =>
      return v.bool?.getD false
    retainOnDelete := ← flag "retainOnDelete" given.retainOnDelete
    additionalSecretOutputs := ← texts "additionalSecretOutputs" given.additionalSecretOutputs
    packageRef := ← text "packageRef" given.packageRef }

mutual

/-- Read what a transformation inserts and sets, with the transformations among it, so that a name
that stands for nothing is found before anything is transformed. -/
def readRule : Json → Step σ Unit
  | .object members => do
    let _ ← arguments ((Json.object members).get "setArgs")
    readChanges members
  | _ => return ()

def readRules : List Json → Step σ Unit
  | [] => return ()
  | rule :: rest => do
    readRule rule
    readRules rest

/-- Read the options that a rule with these members sets. -/
def readChanges : List (String × Json) → Step σ Unit
  | [] => return ()
  | ("setOptions", .object changes) :: rest => do
    let _ ← options (.object changes) {}
    readInnerRules changes
    readChanges rest
  | _ :: rest => readChanges rest

/-- Read the transformations among options with these members. -/
def readInnerRules : List (String × Json) → Step σ Unit
  | [] => return ()
  | ("transformations", .array rules) :: rest => do
    readRules rules
    readInnerRules rest
  | _ :: rest => readInnerRules rest

end

/-- A transformation that changes arguments and options by a rule: it may leave all alone, or all
but one type; else it inserts arguments, then removes some, and sets options. Names in the rule
stand for what they mean now. Transformations that it sets are read, but do not run. -/
def transformation (rule : Json) : Step σ Transformation := do
  readRule rule
  let inserted ← arguments (rule.get "setArgs")
  let changes := rule.get "setOptions"
  let now ← get
  return {
    label := rule.str "label"
    run := fun input =>
      if rule.flag "noop" false || (rule.has "onlyType" && rule.str "onlyType" != input.type) then
        none
      else
        let args := inserted.foldl (fun acc a => Fields.set a.1 a.2 acc) input.args
        let args := (rule.texts "removeArgs").foldl (fun acc name => Fields.erase name acc) args
        match ((options changes input.options).run now).1 with
        | .ok options => some ⟨args, options⟩
        | .error _ => none }

end Session

end Provision
