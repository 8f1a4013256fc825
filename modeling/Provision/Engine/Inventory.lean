import Provision.Message.Document

/-!
# What an engine has recorded

The resources that an engine knows, by their URNs, with the outputs registered on components and
the references given to packages.
-/

namespace Provision

structure StoredResource where
  urn : String
  type : String
  name : String
  /-- Empty for a component, and for a resource created in a preview. -/
  id : String
  parent : String
  custom : Bool
  provider : String
  dependencies : List String
  outputs : Properties
  /-- Whether the resource was read rather than registered. -/
  external : Bool

structure Inventory where
  resources : Fields StoredResource := []
  componentOutputs : Fields Properties := []
  /-- References by the name of the package. -/
  packages : Fields String := []

namespace StoredResource

def toJson (r : StoredResource) : Json :=
  .object [
    ("custom", encode r.custom),
    ("dependencies", encode r.dependencies),
    ("external", encode r.external),
    ("id", encode r.id),
    ("name", encode r.name),
    ("outputs", encode r.outputs),
    ("parent", encode r.parent),
    ("provider", encode r.provider),
    ("resourceType", encode r.type),
    ("urn", encode r.urn)]

end StoredResource

namespace Inventory

/-- The first resource, in the order of the URNs, with the given type and name. -/
def find? (inventory : Inventory) (type name : String) : Option StoredResource :=
  inventory.resources.values.find? fun r => r.type == type && r.name == name

/-- The first resource, in the order of the URNs, with the given type and id. -/
def findById? (inventory : Inventory) (type id : String) : Option StoredResource :=
  inventory.resources.values.find? fun r => r.type == type && r.id == id

def outputsJson (inventory : Inventory) : Json := encode inventory.componentOutputs

def toJson (inventory : Inventory) : Json :=
  .object [
    ("componentOutputs", inventory.outputsJson),
    ("packages", encode inventory.packages),
    ("resources", .object (inventory.resources.map fun r => (r.1, r.2.toJson)))]

end Inventory

end Provision
