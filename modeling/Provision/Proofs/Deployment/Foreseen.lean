import Provision.Deployment.Registration
import Provision.Proofs.Input.Dependencies
import Provision.Proofs.Output.Evaluation

/-!
# What arguments are going to depend on

What arguments depend on is collected when they are sent. Before that it can be read off them as far
as it is known: the resources in them, the dependencies of the outputs that are settled, and for an
output that is still waited for the resource that it belongs to. An output that is computed from
others waits for these, and comes to depend on them (`Output.mem_dependencies_of_mem_keys`); the
result of a call waits for all that the call is made with. Once the arguments can be sent, nothing
is waited for, and they depend on what was read off them (`mem_argumentKeys`).
-/

namespace Provision

namespace Input

variable {δ : Type}

mutual

/-- The resources that a tree depends on; those of a deferred output are told. -/
def keys (told : δ → List Key) : Input δ → List Key
  | .null | .bool _ | .number _ | .string _ | .file _ | .failed _ => []
  | .array items => keysOfItems told items
  | .object fields => keysOfFields told fields
  | .resource key => [key]
  | .unknown _ dependencies => dependencies
  | .known _ dependencies value => dependencies ++ keys told value
  | .deferred source => told source

def keysOfItems (told : δ → List Key) : List (Input δ) → List Key
  | [] => []
  | item :: rest => keys told item ++ keysOfItems told rest

def keysOfFields (told : δ → List Key) : List (String × Input δ) → List Key
  | [] => []
  | (_, value) :: rest => keys told value ++ keysOfFields told rest

end

variable {told : δ → List Key} {within : δ → Site → Prop} {key : Key}

theorem mem_keysOfFields_of_mem {fields : List (String × Input δ)} {field : String × Input δ}
    (member : field ∈ fields) (inside : key ∈ keys told field.2) :
    key ∈ keysOfFields told fields := by
  induction fields with
  | nil => cases member
  | cons first rest ih =>
    rcases List.mem_cons.mp member with rfl | member
    · exact List.mem_append_left _ inside
    · exact List.mem_append_right _ (ih member)

mutual

/-- They are the resources of all that the serialization reaches. -/
theorem mem_keys
    (tells : ∀ source, key ∈ told source ↔ ∃ site, within source site ∧ key ∈ site.keys) :
    ∀ tree : Input δ, key ∈ keys told tree ↔ ∃ site, Reaches within tree site ∧ key ∈ site.keys
  | .null | .bool _ | .number _ | .string _ | .file _ | .failed _ => by
    refine iff_of_false (by simp [keys]) ?_
    rintro ⟨site, ⟨⟩, -⟩
  | .resource _ => by
    constructor
    · intro member
      exact ⟨_, .resource, member⟩
    · rintro ⟨site, ⟨⟩, member⟩
      exact member
  | .unknown secret dependencies => by
    constructor
    · intro member
      exact ⟨_, .unknown, member⟩
    · rintro ⟨site, ⟨⟩, member⟩
      exact member
  | .known secret dependencies value => by
    rw [keys, List.mem_append, mem_keys tells value]
    constructor
    · rintro (member | ⟨site, part, member⟩)
      · exact ⟨_, .known, member⟩
      · exact ⟨site, .content part, member⟩
    · rintro ⟨site, reached, member⟩
      cases reached with
      | known => exact .inl member
      | content part => exact .inr ⟨site, part, member⟩
  | .array items => by
    rw [keys, mem_keysOfItems tells items]
    constructor
    · rintro ⟨item, inside, site, part, member⟩
      exact ⟨site, .item inside part, member⟩
    · rintro ⟨site, reached, member⟩
      cases reached with
      | item inside part => exact ⟨_, inside, site, part, member⟩
  | .object fields => by
    rw [keys, mem_keysOfFields tells fields]
    constructor
    · rintro ⟨⟨name, value⟩, inside, site, part, member⟩
      exact ⟨site, .field inside part, member⟩
    · rintro ⟨site, reached, member⟩
      cases reached with
      | field inside part => exact ⟨_, inside, site, part, member⟩
  | .deferred source => by
    rw [keys, tells source]
    refine exists_congr fun site => and_congr_left fun _ => ⟨.deferred, fun reached => ?_⟩
    cases reached with
    | deferred part => exact part

theorem mem_keysOfItems
    (tells : ∀ source, key ∈ told source ↔ ∃ site, within source site ∧ key ∈ site.keys) :
    ∀ items : List (Input δ), key ∈ keysOfItems told items ↔
      ∃ item ∈ items, ∃ site, Reaches within item site ∧ key ∈ site.keys
  | [] => by simp [keysOfItems]
  | item :: rest => by
    rw [keysOfItems, List.mem_append, mem_keys tells item, mem_keysOfItems tells rest]
    simp

theorem mem_keysOfFields
    (tells : ∀ source, key ∈ told source ↔ ∃ site, within source site ∧ key ∈ site.keys) :
    ∀ fields : List (String × Input δ), key ∈ keysOfFields told fields ↔
      ∃ field ∈ fields, ∃ site, Reaches within field.2 site ∧ key ∈ site.keys
  | [] => by simp [keysOfFields]
  | (name, value) :: rest => by
    rw [keysOfFields, List.mem_append, mem_keys tells value, mem_keysOfFields tells rest]
    simp

end

end Input

namespace Output

variable {V : Type}

mutual

/-- The resources that an output depends on; those of a source are told. What a function is going to
return is not known before it runs. -/
def keys (told : Source → List Key) : Output V → List Key
  | .settled (.ok data) => data.dependencies
  | .settled (.error _) => []
  | .source origin => told origin
  | .async _ dependencies => dependencies
  | .map _ outer => keys told outer
  | .apply _ outer => keys told outer
  | .after _ dependencies inner => dependencies ++ keys told inner
  | .combine _ parts => keysOfParts told parts
  | .tuple _ left right => keys told left ++ keys told right
  | .asSecret inner => keys told inner
  | .withResources dependencies inner => dependencies ++ keys told inner

def keysOfParts (told : Source → List Key) : List (Output V) → List Key
  | [] => []
  | part :: rest => keys told part ++ keysOfParts told rest

end

theorem map_eq_ok {α β : Type} {result : Except Failure α} {f : α → β} {b : β}
    (mapped : result.map f = .ok b) : ∃ a, result = .ok a ∧ f a = b := by
  cases result with
  | error cause => cases mapped
  | ok a => exact ⟨a, rfl, Except.ok.inj mapped⟩

variable {told : Source → List Key} {resolved : Source → Settled V} {key : Key}

mutual

/-- What is foreseen comes true, if what is told of the sources does. -/
theorem mem_dependencies_of_mem_keys
    (truly : ∀ origin data, resolved origin = .ok data → key ∈ told origin →
      key ∈ data.dependencies) :
    ∀ (output : Output V) {data : Data V}, outcome resolved output = .ok data →
      key ∈ keys told output → key ∈ data.dependencies
  | .settled result, data, comes, member => by
    cases comes
    exact member
  | .source origin, data, comes, member => truly origin data comes member
  | .async result dependencies, data, comes, member => by
    obtain ⟨v, -, rfl⟩ := map_eq_ok comes
    exact (Ascending.mem_union _ _ _).mpr (.inr member)
  | .map f outer, data, comes, member => by
    obtain ⟨inner, found, rfl⟩ := map_eq_ok comes
    have inside := mem_dependencies_of_mem_keys truly outer found member
    exact inside
  | .apply f outer, data, comes, member => by
    unfold outcome at comes
    split at comes
    · rename_i v secret dependencies found
      obtain ⟨inner, -, rfl⟩ := map_eq_ok comes
      have inside := mem_dependencies_of_mem_keys truly outer found member
      exact (Ascending.mem_union _ _ _).mpr (.inl inside)
    · rename_i secret dependencies found
      cases comes
      exact mem_dependencies_of_mem_keys truly outer found member
    · cases comes
  | .after secret dependencies inner, data, comes, member => by
    obtain ⟨content, found, rfl⟩ := map_eq_ok comes
    exact (Ascending.mem_union _ _ _).mpr ((List.mem_append.mp member).imp_right
      (mem_dependencies_of_mem_keys truly inner found))
  | .combine collect parts, data, comes, member => by
    obtain ⟨all, found, rfl⟩ := map_eq_ok comes
    have inside := mem_dependencies_of_mem_keysOfParts truly parts found member
    exact (Data.mem_combine all key).mpr inside
  | .tuple pair left right, data, comes, member => by
    unfold outcome at comes
    split at comes
    · cases comes
    · cases comes
    · rename_i a b first second
      cases comes
      exact (Ascending.mem_union _ _ _).mpr ((List.mem_append.mp member).imp
        (mem_dependencies_of_mem_keys truly left first)
        (mem_dependencies_of_mem_keys truly right second))
  | .asSecret inner, data, comes, member => by
    obtain ⟨content, found, rfl⟩ := map_eq_ok comes
    have inside := mem_dependencies_of_mem_keys truly inner found member
    exact inside
  | .withResources dependencies inner, data, comes, member => by
    obtain ⟨content, found, rfl⟩ := map_eq_ok comes
    exact (Ascending.mem_union _ _ _).mpr ((List.mem_append.mp member).symm.imp_left
      (mem_dependencies_of_mem_keys truly inner found))

theorem mem_dependencies_of_mem_keysOfParts
    (truly : ∀ origin data, resolved origin = .ok data → key ∈ told origin →
      key ∈ data.dependencies) :
    ∀ (parts : List (Output V)) {all : List (Data V)}, outcomes resolved parts = .ok all →
      key ∈ keysOfParts told parts → ∃ data ∈ all, key ∈ data.dependencies
  | [], all, comes, member => nomatch member
  | part :: rest, all, comes, member => by
    unfold outcomes at comes
    split at comes
    · cases comes
    · rename_i data found
      obtain ⟨others, later, rfl⟩ := map_eq_ok comes
      rcases List.mem_append.mp member with here | there
      · exact ⟨data, List.mem_cons_self, mem_dependencies_of_mem_keys truly part found here⟩
      · obtain ⟨other, inside, member⟩ :=
          mem_dependencies_of_mem_keysOfParts truly rest later there
        exact ⟨other, List.mem_cons_of_mem _ inside, member⟩

end

end Output

/-- The resources that the slot of a job waits for: a registration settles its own slots, and a call
waits for its provider and for what its arguments depend on. -/
def Job.keys (told : Source → List Key) (slot : Nat) : Job → List Key
  | .registration job => if slot ∈ Deployment.slotsOf job then [job.key] else []
  | .call job =>
    if slot = job.slot then job.provider.toList ++ Input.keysOfFields told job.args else []

namespace Deployment

open Input

/-- The resources that an output depends on: those of its result if it is settled, and else those
that it waits for. -/
def sourceKeys (d : Deployment) : Nat → Source → List Key
  | 0, _ => []
  | depth + 1, source =>
    match d.graph.peek source, source with
    | some result, _ => keys (fun source : Empty => nomatch source) (ofHostSettled result)
    | none, .slot n => d.tasks.flatMap fun task => task.job.keys (d.sourceKeys depth) n
    | none, .cell n =>
      match d.graph.cells[n]? with
      | none => []
      | some cell => cell.output.keys (d.sourceKeys depth)

/-- The resources that arguments depend on. Outputs are defined over earlier ones, and calls are
made with earlier ones, so there are no longer ways than cells and tasks. -/
def argumentKeys (d : Deployment) (args : Arguments) : List Key :=
  keysOfFields (d.sourceKeys (d.graph.cells.length + d.tasks.length + 1)) args

/-- An output of a registration that is not settled is waited for as the resource. -/
theorem key_mem_sourceKeys {d : Deployment} {job : Registration} {progress : Progress}
    {tracked : Bool} (task : ⟨.registration job, progress, tracked⟩ ∈ d.tasks) {slot : Nat}
    (own : slot ∈ slotsOf job) (unsettled : d.graph.peek (.slot slot) = none) (depth : Nat) :
    job.key ∈ d.sourceKeys (depth + 1) (.slot slot) := by
  unfold sourceKeys
  rw [unsettled]
  refine List.mem_flatMap.mpr ⟨_, task, ?_⟩
  show job.key ∈ if slot ∈ slotsOf job then [job.key] else []
  rw [if_pos own]
  exact List.mem_singleton.mpr rfl

/-- A deferred output that can be sent depends on what was foreseen. -/
theorem awaitSource_foreseen (d : Deployment) (features : EngineFeatures) (depth : Nat) :
    Tells (d.awaitSource features)
      fun source site => site = .output (d.sourceKeys (depth + 1) source) := by
  intro context source content sent
  have gathers := d.awaitSource_tells features context source content sent
  refine ⟨gathers.ascending, fun key => (gathers.exact key).trans ?_⟩
  unfold awaitSource at sent
  cases peeked : d.graph.peek source with
  | none =>
    rw [peeked] at sent
    cases sent
  | some result =>
    have settled : key ∈ d.sourceKeys (depth + 1) source ↔
        ∃ site, Reaches (fun (source : Empty) _ => nomatch source) (ofHostSettled result) site ∧
          key ∈ site.keys := by
      unfold sourceKeys
      rw [peeked]
      exact mem_keys (fun source => nomatch source) _
    rw [exists_eq_left]
    refine Iff.trans (exists_congr fun site => and_congr_left fun _ => ?_) settled.symm
    constructor
    · rintro ⟨result', again, reached⟩
      cases peeked.symm.trans again
      exact reached
    · exact fun reached => ⟨result, peeked, reached⟩

theorem exists_mem_congr {α β : Type} {P : α → Prop} {Q : β → Prop} {as : List α} {bs : List β}
    (rows : List.Forall₂ (fun a b => P a ↔ Q b) as bs) : (∃ a ∈ as, P a) ↔ ∃ b ∈ bs, Q b := by
  induction rows with
  | nil => simp
  | cons first _ ih => simp [first, ih]

/-- Once arguments can be sent they depend on what was foreseen. -/
theorem mem_argumentKeys {d : Deployment} {features : EngineFeatures} {context : String}
    {args : Arguments} {properties : SerializedProperties}
    (sent : d.serialize features context args = .done properties) (key : Key) :
    key ∈ d.argumentKeys args ↔ key ∈ properties.allDependencies := by
  have tells := d.awaitSource_foreseen features (d.graph.cells.length + d.tasks.length)
  have told (source : Source) :
      key ∈ d.sourceKeys (d.graph.cells.length + d.tasks.length + 1) source ↔
        ∃ site, site = Site.output
          (d.sourceKeys (d.graph.cells.length + d.tasks.length + 1) source) ∧ key ∈ site.keys := by
    rw [exists_eq_left]
    rfl
  refine (mem_keysOfFields told args).trans
    ((exists_mem_congr ?_).trans (properties.mem_allDependencies key).symm)
  refine (serializeProperties_done sent).1.imp ?_
  rintro argument entry ⟨content, sent, rfl⟩
  exact ((serialize_gathers tells argument.2 _ sent).exact key).symm

end Deployment

end Provision
