import Provision.Resource.Basic

/-!
# The resource graph

All resources of a deployment in the order of their construction. A resource's number is its
key, so keys are never reused, and a parent always has a smaller key than its children. With
each resource stands what its children inherit from it. URNs are indexed as soon as they are
known.
-/

namespace Provision

/-- What children inherit from a resource, and its own parent. -/
structure Inheritance where
  parent : Option Key := none
  /-- Providers by package. -/
  providers : Fields Key := []
  /-- Those of the ancestors, then the resource's own. -/
  transformations : List Transformation := []
  protect : Option Bool := none
  version : Option String := none
  pluginDownloadUrl : Option String := none

structure Identity where
  type : String
  name : String
  kind : ResourceKind
  urn : TextOutput
  /-- The provider's id, for a resource that has one. -/
  id : Option TextOutput := none
  /-- The version that came with the reference the resource was made from. -/
  packageVersion : Option String := none

structure Node where
  identity : Identity
  inheritance : Inheritance
  /-- In the order of their construction. -/
  children : List Key

structure Arena where
  nodes : List Node
  urns : Fields Key

namespace Identity

def providerPackage (identity : Identity) : Option String :=
  if identity.kind = .provider then
    let start := providerTypeStart.toList
    let type := identity.type.toList
    if start.isPrefixOf type then some (String.ofList (type.drop start.length)) else none
  else none

end Identity

namespace Arena

def empty : Arena := ⟨[], []⟩

def size (arena : Arena) : Nat := arena.nodes.length

def node? (arena : Arena) (key : Key) : Option Node := arena.nodes[key]?

def identity? (arena : Arena) (key : Key) : Option Identity := (arena.node? key).map Node.identity

def inheritance (arena : Arena) (key : Key) : Inheritance :=
  ((arena.node? key).map Node.inheritance).getD {}

def Node.adopt (child : Key) (node : Node) : Node :=
  { node with children := node.children ++ [child] }

/-- Construct a resource; it takes the next key and its place among its parent's children. -/
def insert (arena : Arena) (inheritance : Inheritance) (identity : Key → Identity) :
    Key × Arena :=
  let key := arena.nodes.length
  let nodes := match inheritance.parent with
    | some parent => arena.nodes.modify parent (Node.adopt key)
    | none => arena.nodes
  (key, { arena with nodes := nodes ++ [⟨identity key, inheritance, []⟩] })

def parentOf (arena : Arena) (key : Key) : Option Key := do
  let node ← arena.node? key
  let parent ← node.inheritance.parent
  let _ ← arena.node? parent
  some parent

/-- The children of a resource, in the order of their construction. -/
def childrenOf (arena : Arena) (key : Key) : List Key :=
  match arena.node? key with
  | none => []
  | some node => node.children.filter fun child => (arena.node? child).isSome

/-- The provider that a child of `key` inherits for a type. -/
def providerFor (arena : Arena) (key : Key) (type : String) : Option Key := do
  let package ← packageOf? type
  let node ← arena.node? key
  node.inheritance.providers.lookup package

def recordUrn (arena : Arena) (key : Key) (urn : String) : Arena :=
  { arena with urns := Fields.set urn key arena.urns }

def findByUrn (arena : Arena) (urn : String) : Option Key := do
  let key ← arena.urns.lookup urn
  let _ ← arena.node? key
  some key

/-- What a resource stands for in a dependency: its children, if it is a component. -/
def expansion (arena : Arena) (key : Key) : List Key :=
  match arena.node? key with
  | some node => if node.identity.kind.isComponent then node.children else []
  | none => []

/-- Visit the keys of `stack` and the children of the components among them, each key once and
`exclude` never. Every step takes a key from the stack, and a node puts its children there only
when it is visited for the first time, so the roots and all children are enough fuel. -/
def walk (arena : Arena) (exclude : Option Key) : Nat → List Key → List Key → List Key
  | 0, seen, _ => seen
  | _, seen, [] => seen
  | fuel + 1, seen, key :: stack =>
    if some key = exclude ∨ key ∈ seen then arena.walk exclude fuel seen stack
    else arena.walk exclude fuel (key :: seen) (arena.expansion key ++ stack)

def linkCount (arena : Arena) : Nat :=
  arena.nodes.foldr (fun node links => node.children.length + links) 0

/-- Whether a resource is one that others can depend on. -/
def isDependable (arena : Arena) (key : Key) : Bool :=
  match arena.node? key with
  | some node => node.identity.kind.isCustomLike || node.identity.kind == .remoteComponent
  | none => false

/-- What depending on `roots` means for a request: components stand for all that is below them
down to the first custom resource, and `exclude` is left out. The keys ascend. -/
def transitiveDependencies (arena : Arena) (roots : List Key) (exclude : Option Key) : List Key :=
  (Ascending.ofList (arena.walk exclude (roots.length + arena.linkCount + 1) [] roots)).filter
    arena.isDependable

end Arena

end Provision
