import Provision.Value.Basic

/-!
# Messages between a program and its engine

A program asks its engine six things: whether it supports a feature, to register a resource,
to read one, to call a method, to take the outputs of a component, and to register a package.
Properties are engine values; everything else is plain data, with empty text for "none".
-/

namespace Provision

abbrev Properties := Fields Value

/-- URNs listed under the property that depends on them. -/
abbrev DependencyTable := Fields (List String)

structure RegisterRequest where
  type : String := ""
  name : String := ""
  /-- The parent's URN, empty for none. -/
  parent : String := ""
  custom : Bool := false
  remote : Bool := false
  object : Properties := []
  protect : Option Bool := none
  /-- The URNs of every resource this one depends on. -/
  dependencies : List String := []
  /-- The URNs each property depends on; a property that depends on none is left out. -/
  propertyDependencies : DependencyTable := []
  /-- The reference of the provider, empty for the default one. -/
  provider : String := ""
  /-- Provider references by package, for components. -/
  providers : Fields String := []
  deleteBeforeReplace : Bool := false
  ignoreChanges : List String := []
  version : String := ""
  pluginDownloadUrl : String := ""
  acceptSecrets : Bool := false
  acceptResources : Bool := false
  additionalSecretOutputs : List String := []
  aliases : List String := []
  importId : String := ""
  retainOnDelete : Option Bool := none
  packageRef : String := ""

structure RegisterResponse where
  urn : String := ""
  /-- The id given by the provider, empty while it is not known. -/
  id : String := ""
  object : Properties := []
  stable : Bool := false
  propertyDependencies : DependencyTable := []

/-- Reads a resource that exists, by the provider's id or by URN. -/
structure ReadRequest where
  id : String := ""
  urn : String := ""
  type : String := ""
  name : String := ""
  parent : String := ""
  properties : Properties := []
  dependencies : List String := []
  provider : String := ""
  version : String := ""
  pluginDownloadUrl : String := ""
  acceptSecrets : Bool := false
  acceptResources : Bool := false
  additionalSecretOutputs : List String := []
  packageRef : String := ""

structure ReadResponse where
  urn : String := ""
  id : String := ""
  properties : Properties := []

structure CallRequest where
  token : String := ""
  args : Properties := []
  argDependencies : DependencyTable := []
  provider : String := ""
  version : String := ""
  pluginDownloadUrl : String := ""
  packageRef : String := ""
  acceptResources : Bool := false

/-- A property that the engine refused, and why. -/
structure CheckFailure where
  property : String := ""
  reason : String := ""
  deriving DecidableEq

structure CallResponse where
  returnValues : Properties := []
  returnDependencies : DependencyTable := []
  failures : List CheckFailure := []

structure OutputsRequest where
  urn : String := ""
  outputs : Properties := []

structure FeatureRequest where
  id : String := ""
  deriving DecidableEq

structure FeatureResponse where
  hasSupport : Bool := false
  deriving DecidableEq

/-- Turns a package into another one with a schema of its own. -/
structure Parameterization where
  name : String := ""
  version : String := ""
  value : List UInt8 := []
  deriving DecidableEq

structure PackageRequest where
  name : String := ""
  version : String := ""
  downloadUrl : String := ""
  parameterization : Option Parameterization := none
  deriving DecidableEq

structure PackageResponse where
  packageRef : String := ""
  deriving DecidableEq

inductive Request where
  | feature (request : FeatureRequest)
  | register (request : RegisterRequest)
  | read (request : ReadRequest)
  | call (request : CallRequest)
  | outputs (request : OutputsRequest)
  | package (request : PackageRequest)

/-- The answer to a request that succeeded. -/
inductive Response where
  | feature (response : FeatureResponse)
  | register (response : RegisterResponse)
  | read (response : ReadResponse)
  | call (response : CallResponse)
  | outputs
  | package (response : PackageResponse)

/-! ### Features a program asks for -/

namespace Feature

def secrets : String := "secrets"
def resourceReferences : String := "resourceReferences"
def outputValues : String := "outputValues"

/-- The features that an engine in a test supports unless told otherwise. -/
def defaults : List String := [secrets, resourceReferences]

end Feature

end Provision
