import Provision.Resource.Arena

/-!
# Names for what a deployment holds

Names stand for resources and for outputs, each in a map of its own. The outputs of the resource
named `api` are stored as `api.size` and the like, the output of a call under a name alone. A name
given again stands for the new resource, and the outputs that the new one does not replace stay.
`api.urn` and `api.id` are those of the resource named `api`, unless outputs are stored under these
very names.
-/

namespace Provision

structure Scope where
  resources : Fields Key := []
  /-- The resources that are widgets. One keeps its name here when another kind takes it. -/
  widgets : Fields Key := []
  outputs : Fields Source := []

namespace Scope

def propertyName (name property : String) : String := name ++ "." ++ property

def store (name : String) (source : Source) (scope : Scope) : Scope :=
  { scope with outputs := Fields.set name source scope.outputs }

/-- Give a resource a name, and store its outputs. -/
def bind (name : String) (key : Key) (outputs : List (String × Source)) (scope : Scope) : Scope :=
  outputs.foldl (fun scope o => store (propertyName name o.1) o.2 scope)
    { scope with resources := Fields.set name key scope.resources }

def bindWidget (name : String) (key : Key) (outputs : List (String × Source)) (scope : Scope) :
    Scope :=
  bind name key outputs { scope with widgets := Fields.set name key scope.widgets }

def outputsOf (name : String) (scope : Scope) : List (String × Source) :=
  scope.outputs.filterMap fun o =>
    ((propertyName name "").toList.isPrefixOf? o.1.toList).map fun property =>
      (String.ofList property, o.2)

/-- The resource whose property a text names. -/
def owner? (property text : String) (scope : Scope) : Option Key :=
  ((propertyName "" property).toList.isSuffixOf? text.toList).bind fun name =>
    scope.resources.lookup (String.ofList name)

def textArgument : TextOutput → Argument
  | .settled r => Input.ofSettled (r.map (Data.map Input.string))
  | .source origin => .deferred origin

/-- The output that a text names. -/
def argument? (arena : Arena) (text : String) (scope : Scope) : Option Argument :=
  match scope.outputs.lookup text with
  | some source => some (.deferred source)
  | none =>
    match (scope.owner? "urn" text).bind arena.identity? with
    | some identity => some (textArgument identity.urn)
    | none =>
      match (scope.owner? "id" text).bind arena.identity? with
      | some identity => identity.id.map textArgument
      | none => none

/-- The outputs after an output is stored. -/
theorem lookup_outputs_store (name text : String) (source : Source) (scope : Scope) :
    (store name source scope).outputs.lookup text =
      if text = name then some source else scope.outputs.lookup text :=
  Fields.lookup_set name text source scope.outputs

/-- The resources after a resource is given a name. -/
theorem lookup_resources_bind (name text : String) (key : Key) (outputs : List (String × Source))
    (scope : Scope) :
    (bind name key outputs scope).resources.lookup text =
      if text = name then some key else scope.resources.lookup text := by
  have keep (outputs : List (String × Source)) (scope : Scope) :
      (outputs.foldl (fun scope o => store (propertyName name o.1) o.2 scope) scope).resources =
        scope.resources := by
    induction outputs generalizing scope with
    | nil => rfl
    | cons o rest ih => rw [List.foldl_cons, ih]; rfl
  rw [bind, keep]
  exact Fields.lookup_set name text key scope.resources

end Scope

end Provision
