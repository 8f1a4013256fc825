import Provision.Input.Basic

/-!
# Input trees as engine values

A tree is sent as an engine value, with the resources it depends on: those that its outputs
depend on, and those that stand in it themselves. An output without a value is unknown, and a
secret one is wrapped. Null entries of objects are left out. Where the engine does not know
secrets they are sent as they are, and where it does not know references a resource is sent as
its id, or as its URN if it has no id.

Outputs are awaited from left to right, so a tree may have to wait, and it fails with the first
failure on its way.
-/

namespace Provision

/-- A result that may have to wait for an output, or fail with one. -/
inductive Await (α : Type) where
  | pending
  | failed (cause : Failure)
  | done (value : α)

namespace Await

variable {α β : Type}

def andThen : Await α → (α → Await β) → Await β
  | .pending, _ => .pending
  | .failed cause, _ => .failed cause
  | .done a, f => f a

instance : Monad Await where
  pure := done
  bind := andThen

end Await

/-- What the tree's resources are at the moment: the URN, and the id of one that has an id, each
missing while it is not known. -/
structure ResourceView where
  urn : Await (Option String)
  id : Option (Await (Option String))
  packageVersion : Option String

structure EngineFeatures where
  resources : Bool
  secrets : Bool
  deriving DecidableEq, Repr

/-- A value to send and the resources it depends on. -/
structure Serialized where
  value : Value
  dependencies : List Key

namespace Serialized

/-- A value that depends on nothing. -/
def plain (value : Value) : Serialized := ⟨value, []⟩

end Serialized

namespace Input

/-- Replace the context of a failed conversion. -/
def inContext (context : String) : Failure → Failure
  | .conversion _ reason => .conversion context reason
  | cause => cause

def serializeResource (features : EngineFeatures) (key : Key) (view : ResourceView) :
    Await Serialized :=
  view.urn.andThen fun
    | none => .done ⟨.unknown, [key]⟩
    | some urn =>
      match view.id with
      | none =>
        .done ⟨if features.resources then .reference ⟨urn, none, view.packageVersion⟩
          else .string urn, [key]⟩
      | some id =>
        id.andThen fun id =>
          .done ⟨if features.resources then .reference ⟨urn, some (id.getD ""), view.packageVersion⟩
            else match id with
              | some id => .string id
              | none => .unknown, [key]⟩

/-- The value of an output, from the value of its content. -/
def wrapOutput (features : EngineFeatures) (secret : Bool) (dependencies : List Key)
    (content : Serialized) : Serialized :=
  ⟨if secret && features.secrets then .secret content.value else content.value,
    Ascending.union dependencies content.dependencies⟩

def itemContext (context : String) (index : Nat) : String :=
  context ++ "[" ++ toString index ++ "]"

def fieldContext (context key : String) : String := context ++ "." ++ key

variable {δ : Type}

mutual

/-- The engine value of a tree. `await` is what becomes of a deferred output. -/
def serialize (view : Key → ResourceView) (features : EngineFeatures)
    (await : String → δ → Await Serialized) (context : String) : Input δ → Await Serialized
  | .null => .done (.plain .null)
  | .bool b => .done (.plain (.bool b))
  | .number x => .done (.plain (.number x))
  | .string s => .done (.plain (.string s))
  | .array items =>
    (serializeItems view features await context 0 items).andThen fun (values, dependencies) =>
      .done ⟨.array values, dependencies⟩
  | .object fields =>
    (serializeFields view features await context fields).andThen fun (values, dependencies) =>
      .done ⟨.object (Value.dropNulls values), dependencies⟩
  | .file content =>
    match content.toValue with
    | .ok value => .done (.plain value)
    | .error cause => .failed (inContext context cause)
  | .resource key => serializeResource features key (view key)
  | .failed cause => .failed cause
  | .unknown _ dependencies => .done ⟨.unknown, Ascending.ofList dependencies⟩
  | .known secret dependencies value =>
    (serialize view features await context value).andThen fun content =>
      .done (wrapOutput features secret (Ascending.ofList dependencies) content)
  | .deferred source => await context source

def serializeItems (view : Key → ResourceView) (features : EngineFeatures)
    (await : String → δ → Await Serialized) (context : String) (index : Nat) :
    List (Input δ) → Await (List Value × List Key)
  | [] => .done ([], [])
  | item :: rest =>
    (serialize view features await (itemContext context index) item).andThen fun item =>
      (serializeItems view features await context (index + 1) rest).andThen fun (values, keys) =>
        .done (item.value :: values, Ascending.union item.dependencies keys)

def serializeFields (view : Key → ResourceView) (features : EngineFeatures)
    (await : String → δ → Await Serialized) (context : String) :
    List (String × Input δ) → Await (List (String × Value) × List Key)
  | [] => .done ([], [])
  | (key, field) :: rest =>
    (serialize view features await (fieldContext context key) field).andThen fun field =>
      (serializeFields view features await context rest).andThen fun (values, keys) =>
        .done ((key, field.value) :: values, Ascending.union field.dependencies keys)

end

/-- The engine value of a tree whose outputs are all settled. -/
def serializeSettled (view : Key → ResourceView) (features : EngineFeatures) (context : String)
    (input : Input Empty) : Await Serialized :=
  serialize view features (fun _ source => nomatch source) context input

end Input

/-- Properties to send, with the resources each of them depends on. A property that is null is
left out of the object, but its dependencies stay. -/
structure SerializedProperties where
  object : Fields Value
  propertyDependencies : Fields (List Key)

namespace SerializedProperties

/-- Every resource that some property depends on. -/
def allDependencies (properties : SerializedProperties) : List Key :=
  properties.propertyDependencies.foldl (fun acc p => Ascending.union acc p.2) []

def cons (key : String) (property : Serialized) (rest : SerializedProperties) :
    SerializedProperties :=
  ⟨if property.value.isNull then rest.object else (key, property.value) :: rest.object,
    (key, property.dependencies) :: rest.propertyDependencies⟩

end SerializedProperties

namespace Input

variable {δ : Type}

/-- Properties serialized one by one, so that the dependencies of each are known. -/
def serializeProperties (view : Key → ResourceView) (features : EngineFeatures)
    (await : String → δ → Await Serialized) (context : String) :
    Fields (Input δ) → Await SerializedProperties
  | [] => .done ⟨[], []⟩
  | (key, property) :: rest =>
    (serialize view features await (fieldContext context key) property).andThen fun property =>
      (serializeProperties view features await context rest).andThen fun rest =>
        .done (rest.cons key property)

end Input

end Provision
