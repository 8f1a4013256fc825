import Provision.Json.Codec
import Provision.Message.Basic
import Provision.Value.Document

/-!
# Messages as documents

The members of each message, written in the order of their names and declared in the order of
the message. Properties are the members of an object, whatever their names: a property map is
never a special object itself.
-/

namespace Provision

instance : Codec Value where
  encode := Value.toJson
  decode j := some (Value.ofJson j)

instance : Codec RegisterRequest where
  encode r := .object [
    ("acceptResources", encode r.acceptResources),
    ("acceptSecrets", encode r.acceptSecrets),
    ("additionalSecretOutputs", encode r.additionalSecretOutputs),
    ("aliases", encode r.aliases),
    ("custom", encode r.custom),
    ("deleteBeforeReplace", encode r.deleteBeforeReplace),
    ("dependencies", encode r.dependencies),
    ("ignoreChanges", encode r.ignoreChanges),
    ("importId", encode r.importId),
    ("name", encode r.name),
    ("object", encode r.object),
    ("packageRef", encode r.packageRef),
    ("parent", encode r.parent),
    ("pluginDownloadUrl", encode r.pluginDownloadUrl),
    ("propertyDependencies", encode r.propertyDependencies),
    ("protect", encode r.protect),
    ("provider", encode r.provider),
    ("providers", encode r.providers),
    ("remote", encode r.remote),
    ("retainOnDelete", encode r.retainOnDelete),
    ("type", encode r.type),
    ("version", encode r.version)]
  decode document := do
    let members ← Codec.membersOf ["type", "name", "parent", "custom", "remote", "object",
      "protect", "dependencies", "propertyDependencies", "provider", "providers",
      "deleteBeforeReplace", "ignoreChanges", "version", "pluginDownloadUrl", "acceptSecrets",
      "acceptResources", "additionalSecretOutputs", "aliases", "importId", "retainOnDelete",
      "packageRef"] document
    let type ← Codec.readMember members "type" ""
    let name ← Codec.readMember members "name" ""
    let parent ← Codec.readMember members "parent" ""
    let custom ← Codec.readMember members "custom" false
    let remote ← Codec.readMember members "remote" false
    let object ← Codec.readMember members "object" []
    let protect ← Codec.readMember members "protect" none
    let dependencies ← Codec.readMember members "dependencies" []
    let propertyDependencies ← Codec.readMember members "propertyDependencies" []
    let provider ← Codec.readMember members "provider" ""
    let providers ← Codec.readMember members "providers" []
    let deleteBeforeReplace ← Codec.readMember members "deleteBeforeReplace" false
    let ignoreChanges ← Codec.readMember members "ignoreChanges" []
    let version ← Codec.readMember members "version" ""
    let pluginDownloadUrl ← Codec.readMember members "pluginDownloadUrl" ""
    let acceptSecrets ← Codec.readMember members "acceptSecrets" false
    let acceptResources ← Codec.readMember members "acceptResources" false
    let additionalSecretOutputs ← Codec.readMember members "additionalSecretOutputs" []
    let aliases ← Codec.readMember members "aliases" []
    let importId ← Codec.readMember members "importId" ""
    let retainOnDelete ← Codec.readMember members "retainOnDelete" none
    let packageRef ← Codec.readMember members "packageRef" ""
    some { type, name, parent, custom, remote, object, protect, dependencies,
           propertyDependencies, provider, providers, deleteBeforeReplace, ignoreChanges, version,
           pluginDownloadUrl, acceptSecrets, acceptResources, additionalSecretOutputs, aliases,
           importId, retainOnDelete, packageRef }

instance : Codec RegisterResponse where
  encode r := .object [
    ("id", encode r.id),
    ("object", encode r.object),
    ("propertyDependencies", encode r.propertyDependencies),
    ("stable", encode r.stable),
    ("urn", encode r.urn)]
  decode document := do
    let members ← Codec.membersOf ["urn", "id", "object", "stable",
      "propertyDependencies"] document
    let urn ← Codec.readMember members "urn" ""
    let id ← Codec.readMember members "id" ""
    let object ← Codec.readMember members "object" []
    let stable ← Codec.readMember members "stable" false
    let propertyDependencies ← Codec.readMember members "propertyDependencies" []
    some { urn, id, object, stable, propertyDependencies }

instance : Codec ReadRequest where
  encode r := .object [
    ("acceptResources", encode r.acceptResources),
    ("acceptSecrets", encode r.acceptSecrets),
    ("additionalSecretOutputs", encode r.additionalSecretOutputs),
    ("dependencies", encode r.dependencies),
    ("id", encode r.id),
    ("name", encode r.name),
    ("packageRef", encode r.packageRef),
    ("parent", encode r.parent),
    ("pluginDownloadUrl", encode r.pluginDownloadUrl),
    ("properties", encode r.properties),
    ("provider", encode r.provider),
    ("type", encode r.type),
    ("urn", encode r.urn),
    ("version", encode r.version)]
  decode document := do
    let members ← Codec.membersOf ["id", "urn", "type", "name", "parent", "properties",
      "dependencies", "provider", "version", "pluginDownloadUrl", "acceptSecrets",
      "acceptResources", "additionalSecretOutputs", "packageRef"] document
    let id ← Codec.readMember members "id" ""
    let urn ← Codec.readMember members "urn" ""
    let type ← Codec.readMember members "type" ""
    let name ← Codec.readMember members "name" ""
    let parent ← Codec.readMember members "parent" ""
    let properties ← Codec.readMember members "properties" []
    let dependencies ← Codec.readMember members "dependencies" []
    let provider ← Codec.readMember members "provider" ""
    let version ← Codec.readMember members "version" ""
    let pluginDownloadUrl ← Codec.readMember members "pluginDownloadUrl" ""
    let acceptSecrets ← Codec.readMember members "acceptSecrets" false
    let acceptResources ← Codec.readMember members "acceptResources" false
    let additionalSecretOutputs ← Codec.readMember members "additionalSecretOutputs" []
    let packageRef ← Codec.readMember members "packageRef" ""
    some { id, urn, type, name, parent, properties, dependencies, provider, version,
           pluginDownloadUrl, acceptSecrets, acceptResources, additionalSecretOutputs, packageRef }

instance : Codec ReadResponse where
  encode r := .object [
    ("id", encode r.id),
    ("properties", encode r.properties),
    ("urn", encode r.urn)]
  decode document := do
    let members ← Codec.membersOf ["urn", "id", "properties"] document
    let urn ← Codec.readMember members "urn" ""
    let id ← Codec.readMember members "id" ""
    let properties ← Codec.readMember members "properties" []
    some { urn, id, properties }

instance : Codec CallRequest where
  encode r := .object [
    ("acceptResources", encode r.acceptResources),
    ("argDependencies", encode r.argDependencies),
    ("args", encode r.args),
    ("packageRef", encode r.packageRef),
    ("pluginDownloadUrl", encode r.pluginDownloadUrl),
    ("provider", encode r.provider),
    ("tok", encode r.token),
    ("version", encode r.version)]
  decode document := do
    let members ← Codec.membersOf ["tok", "args", "argDependencies", "provider", "version",
      "pluginDownloadUrl", "packageRef", "acceptResources"] document
    let token ← Codec.readMember members "tok" ""
    let args ← Codec.readMember members "args" []
    let argDependencies ← Codec.readMember members "argDependencies" []
    let provider ← Codec.readMember members "provider" ""
    let version ← Codec.readMember members "version" ""
    let pluginDownloadUrl ← Codec.readMember members "pluginDownloadUrl" ""
    let packageRef ← Codec.readMember members "packageRef" ""
    let acceptResources ← Codec.readMember members "acceptResources" false
    some { token, args, argDependencies, provider, version, pluginDownloadUrl, packageRef,
           acceptResources }

instance : Codec CheckFailure where
  encode r := .object [
    ("property", encode r.property),
    ("reason", encode r.reason)]
  decode document := do
    let members ← Codec.membersOf ["property", "reason"] document
    let property ← Codec.readMember members "property" ""
    let reason ← Codec.readMember members "reason" ""
    some { property, reason }

instance : Codec CallResponse where
  encode r := .object [
    ("failures", encode r.failures),
    ("return", encode r.returnValues),
    ("returnDependencies", encode r.returnDependencies)]
  decode document := do
    let members ← Codec.membersOf ["return", "returnDependencies", "failures"] document
    let returnValues ← Codec.readMember members "return" []
    let returnDependencies ← Codec.readMember members "returnDependencies" []
    let failures ← Codec.readMember members "failures" []
    some { returnValues, returnDependencies, failures }

instance : Codec OutputsRequest where
  encode r := .object [
    ("outputs", encode r.outputs),
    ("urn", encode r.urn)]
  decode document := do
    let members ← Codec.membersOf ["urn", "outputs"] document
    let urn ← Codec.readMember members "urn" ""
    let outputs ← Codec.readMember members "outputs" []
    some { urn, outputs }

instance : Codec FeatureRequest where
  encode r := .object [
    ("id", encode r.id)]
  decode document := do
    let members ← Codec.membersOf ["id"] document
    let id ← Codec.readMember members "id" ""
    some { id }

instance : Codec FeatureResponse where
  encode r := .object [
    ("hasSupport", encode r.hasSupport)]
  decode document := do
    let members ← Codec.membersOf ["hasSupport"] document
    let hasSupport ← Codec.readMember members "hasSupport" false
    some { hasSupport }

instance : Codec Parameterization where
  encode r := .object [
    ("name", encode r.name),
    ("value", encode r.value),
    ("version", encode r.version)]
  decode document := do
    let members ← Codec.membersOf ["name", "version", "value"] document
    let name ← Codec.readMember members "name" ""
    let version ← Codec.readMember members "version" ""
    let value ← Codec.readMember members "value" []
    some { name, version, value }

instance : Codec PackageRequest where
  encode r := .object [
    ("downloadUrl", encode r.downloadUrl),
    ("name", encode r.name),
    ("parameterization", encode r.parameterization),
    ("version", encode r.version)]
  decode document := do
    let members ← Codec.membersOf ["name", "version", "downloadUrl", "parameterization"] document
    let name ← Codec.readMember members "name" ""
    let version ← Codec.readMember members "version" ""
    let downloadUrl ← Codec.readMember members "downloadUrl" ""
    let parameterization ← Codec.readMember members "parameterization" none
    some { name, version, downloadUrl, parameterization }

instance : Codec PackageResponse where
  encode r := .object [
    ("ref", encode r.packageRef)]
  decode document := do
    let members ← Codec.membersOf ["ref"] document
    let packageRef ← Codec.readMember members "ref" ""
    some { packageRef }

/-! ### Requests and responses of any kind -/

namespace Request

def kind : Request → String
  | .feature _ => "feature"
  | .register _ => "register"
  | .read _ => "read"
  | .call _ => "call"
  | .outputs _ => "registerOutputs"
  | .package _ => "registerPackage"

def payload : Request → Json
  | .feature r => encode r
  | .register r => encode r
  | .read r => encode r
  | .call r => encode r
  | .outputs r => encode r
  | .package r => encode r

/-- The request of a kind. -/
def ofPayload? (kind : String) (document : Json) : Option Request :=
  match kind with
  | "feature" => (decode document).map .feature
  | "register" => (decode document).map .register
  | "read" => (decode document).map .read
  | "call" => (decode document).map .call
  | "registerOutputs" => (decode document).map .outputs
  | "registerPackage" => (decode document).map .package
  | _ => none

end Request

/-- A response without its kind; the one that holds nothing is null. -/
def Response.payload : Response → Json
  | .feature r => encode r
  | .register r => encode r
  | .read r => encode r
  | .call r => encode r
  | .outputs => .null
  | .package r => encode r

end Provision
