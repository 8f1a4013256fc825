import Provision.Deployment.Basic
import Provision.Proofs.Fields
import Provision.Proofs.Input.Sending

/-!
# What properties depend on

On its way through a tree the serialization collects what the tree depends on: the dependencies of
every output that it comes upon, whether or not the output has a value, and every resource that
stands in the tree. It comes upon all of the tree, and an unknown output ends the way because
nothing is in it. Properties are serialized one by one, so each of them depends on exactly what the
serialization reaches in it, also if it is null and left out (`dependencies_by_property`).
-/

namespace Provision

namespace Input

/-- Something in a tree that the tree depends on. -/
inductive Site where
  | output (dependencies : List Key)
  | resource (key : Key)

/-- The resources that are depended on there. -/
def Site.keys : Site → List Key
  | .output dependencies => dependencies
  | .resource key => [key]

variable {δ : Type}

/-- The serialization of a tree reaches a site. What it reaches through a deferred output is told
by `within`. -/
inductive Reaches (within : δ → Site → Prop) : Input δ → Site → Prop where
  | resource {key : Key} : Reaches within (.resource key) (.resource key)
  | unknown {secret : Bool} {dependencies : List Key} :
      Reaches within (.unknown secret dependencies) (.output dependencies)
  | known {secret : Bool} {dependencies : List Key} {value : Input δ} :
      Reaches within (.known secret dependencies value) (.output dependencies)
  | content {secret : Bool} {dependencies : List Key} {value : Input δ} {site : Site}
      (part : Reaches within value site) : Reaches within (.known secret dependencies value) site
  | item {items : List (Input δ)} {item : Input δ} {site : Site} (member : item ∈ items)
      (part : Reaches within item site) : Reaches within (.array items) site
  | field {fields : List (String × Input δ)} {key : String} {value : Input δ} {site : Site}
      (member : (key, value) ∈ fields) (part : Reaches within value site) :
      Reaches within (.object fields) site
  | deferred {source : δ} {site : Site} (part : within source site) :
      Reaches within (.deferred source) site

/-- The keys are those of the sites that are reached, each once and in ascending order. -/
structure Gathers (keys : List Key) (reached : Site → Prop) : Prop where
  ascending : keys.Pairwise (· < ·)
  exact : ∀ key, key ∈ keys ↔ ∃ site, reached site ∧ key ∈ site.keys

namespace Gathers

variable {keys keys' : List Key} {reached reached' : Site → Prop}

theorem congr (gathers : Gathers keys reached) (same : ∀ site, reached' site ↔ reached site) :
    Gathers keys reached' where
  ascending := gathers.ascending
  exact := by simpa only [same] using gathers.exact

theorem nothing (none : ∀ site, ¬ reached site) : Gathers [] reached where
  ascending := .nil
  exact := by simp [none]

theorem one (site : Site) : Gathers (Ascending.ofList site.keys) (· = site) where
  ascending := Ascending.pairwise_ofList _
  exact := by simp

theorem union (first : Gathers keys reached) (second : Gathers keys' reached') :
    Gathers (Ascending.union keys keys') fun site => reached site ∨ reached' site where
  ascending := Ascending.pairwise_union first.ascending keys'
  exact := by
    intro key
    simp only [Ascending.mem_union, first.exact, second.exact, or_and_right, exists_or]

end Gathers

variable {view : Key → ResourceView} {features : EngineFeatures}
variable {await : String → δ → Await Serialized} {within : δ → Site → Prop}

/-- A resource depends on itself, whatever it is sent as. -/
theorem resource_dependencies {key : Key} {resource : ResourceView} {content : Serialized}
    (sent : serializeResource features key resource = .done content) :
    content.dependencies = [key] := by
  obtain ⟨urn, -, sent⟩ := Await.andThen_eq_done sent
  cases urn with
  | none =>
    cases sent
    rfl
  | some urn =>
    dsimp only at sent
    split at sent
    · cases sent
      rfl
    · obtain ⟨id, -, sent⟩ := Await.andThen_eq_done sent
      cases sent
      rfl

/-- What is said about deferred outputs is what is gathered from them. -/
def Tells (await : String → δ → Await Serialized) (within : δ → Site → Prop) : Prop :=
  ∀ context source content, await context source = .done content →
    Gathers content.dependencies (within source)

mutual

/-- What is sent depends on exactly what was reached. -/
theorem serialize_gathers (deferred : Tells await within) {content : Serialized} :
    ∀ (tree : Input δ) (context : String),
      serialize view features await context tree = .done content →
        Gathers content.dependencies (Reaches within tree)
  | .null, context, sent | .bool _, context, sent | .number _, context, sent
  | .string _, context, sent => by
    unfold serialize at sent
    cases sent
    exact .nothing (by rintro site ⟨⟩)
  | .failed _, context, sent => by
    unfold serialize at sent
    cases sent
  | .file content, context, sent => by
    unfold serialize at sent
    split at sent
    · cases sent
      exact .nothing (by rintro site ⟨⟩)
    · cases sent
  | .resource key, context, sent => by
    unfold serialize at sent
    rw [resource_dependencies sent]
    refine (Gathers.one (.resource key)).congr fun site => ⟨?_, ?_⟩
    · rintro ⟨⟩
      rfl
    · rintro rfl
      exact .resource
  | .unknown secret dependencies, context, sent => by
    unfold serialize at sent
    cases sent
    refine (Gathers.one (.output dependencies)).congr fun site => ⟨?_, ?_⟩
    · rintro ⟨⟩
      rfl
    · rintro rfl
      exact .unknown
  | .known secret dependencies value, context, sent => by
    unfold serialize at sent
    obtain ⟨inner, inside, sent⟩ := Await.andThen_eq_done sent
    cases sent
    have outer := Gathers.one (.output dependencies)
    have part := serialize_gathers deferred value context inside
    refine (outer.union part).congr fun site => ⟨?_, ?_⟩
    · intro reached
      cases reached with
      | known => exact .inl rfl
      | content part => exact .inr part
    · rintro (rfl | part)
      · exact .known
      · exact .content part
  | .array items, context, sent => by
    unfold serialize at sent
    obtain ⟨⟨values, dependencies⟩, inside, sent⟩ := Await.andThen_eq_done sent
    cases sent
    refine (serializeItems_gathers deferred items context 0 inside).congr fun site => ⟨?_, ?_⟩
    · intro reached
      cases reached with
      | item member part => exact ⟨_, member, part⟩
    · rintro ⟨item, member, part⟩
      exact .item member part
  | .object fields, context, sent => by
    unfold serialize at sent
    obtain ⟨⟨values, dependencies⟩, inside, sent⟩ := Await.andThen_eq_done sent
    cases sent
    refine (serializeFields_gathers deferred fields context inside).congr fun site => ⟨?_, ?_⟩
    · intro reached
      cases reached with
      | field member part => exact ⟨_, member, part⟩
    · rintro ⟨⟨key, value⟩, member, part⟩
      exact .field member part
  | .deferred source, context, sent => by
    unfold serialize at sent
    refine (deferred context source content sent).congr fun site => ⟨?_, .deferred⟩
    intro reached
    cases reached with
    | deferred part => exact part

theorem serializeItems_gathers (deferred : Tells await within) {values : List Value}
    {keys : List Key} :
    ∀ (items : List (Input δ)) (context : String) (index : Nat),
      serializeItems view features await context index items = .done (values, keys) →
        Gathers keys fun site => ∃ item ∈ items, Reaches within item site
  | [], context, index, sent => by
    unfold serializeItems at sent
    cases sent
    exact .nothing (by simp)
  | item :: rest, context, index, sent => by
    unfold serializeItems at sent
    obtain ⟨first, head, sent⟩ := Await.andThen_eq_done sent
    obtain ⟨⟨later, keys⟩, tail, sent⟩ := Await.andThen_eq_done sent
    cases sent
    have one := serialize_gathers deferred item (itemContext context index) head
    have others := serializeItems_gathers deferred rest context (index + 1) tail
    exact (one.union others).congr fun site => by simp

theorem serializeFields_gathers (deferred : Tells await within)
    {values : List (String × Value)} {keys : List Key} :
    ∀ (fields : List (String × Input δ)) (context : String),
      serializeFields view features await context fields = .done (values, keys) →
        Gathers keys fun site => ∃ field ∈ fields, Reaches within field.2 site
  | [], context, sent => by
    unfold serializeFields at sent
    cases sent
    exact .nothing (by simp)
  | (key, value) :: rest, context, sent => by
    unfold serializeFields at sent
    obtain ⟨first, head, sent⟩ := Await.andThen_eq_done sent
    obtain ⟨⟨later, keys⟩, tail, sent⟩ := Await.andThen_eq_done sent
    cases sent
    have one := serialize_gathers deferred value (fieldContext context key) head
    have others := serializeFields_gathers deferred rest context tail
    exact (one.union others).congr fun site => by simp

end

/-- Properties are sent if each of them is. The table of dependencies has all of them, and the
object those that are not null. -/
theorem serializeProperties_done {context : String} {args : Fields (Input δ)}
    {properties : SerializedProperties}
    (sent : serializeProperties view features await context args = .done properties) :
    List.Forall₂ (fun argument entry => ∃ content,
      serialize view features await (fieldContext context argument.1) argument.2 = .done content ∧
        entry = (argument.1, content.dependencies)) args properties.propertyDependencies ∧
    ∀ name value, (name, value) ∈ properties.object ↔ value.isNull = false ∧
      ∃ tree keys, (name, tree) ∈ args ∧
        serialize view features await (fieldContext context name) tree = .done ⟨value, keys⟩ := by
  induction args generalizing properties with
  | nil =>
    cases sent
    exact ⟨.nil, by simp⟩
  | cons argument rest ih =>
    obtain ⟨key, tree⟩ := argument
    unfold serializeProperties at sent
    obtain ⟨first, head, sent⟩ := Await.andThen_eq_done sent
    obtain ⟨later, tail, sent⟩ := Await.andThen_eq_done sent
    cases sent
    obtain ⟨table, object⟩ := ih tail
    refine ⟨.cons ⟨first, head, rfl⟩ table, fun name value => ?_⟩
    have here : (name, value) = (key, first.value) ↔ ∃ tree' keys, (name, tree') = (key, tree) ∧
        serialize view features await (fieldContext context name) tree' = .done ⟨value, keys⟩ := by
      constructor
      · rintro ⟨⟩
        exact ⟨tree, first.dependencies, rfl, head⟩
      · rintro ⟨tree', keys, ⟨⟩, again⟩
        cases head.symm.trans again
        rfl
    have member : (name, value) ∈ (later.cons key first).object ↔
        (value.isNull = false ∧ (name, value) = (key, first.value)) ∨
          (name, value) ∈ later.object := by
      unfold SerializedProperties.cons
      by_cases null : first.value.isNull = true
      · rw [if_pos null]
        refine ⟨.inr, fun there => there.resolve_left ?_⟩
        rintro ⟨present, ⟨⟩⟩
        cases null.symm.trans present
      · have present : first.value.isNull = false := by simpa using null
        rw [if_neg null, List.mem_cons]
        refine or_congr_left ⟨?_, And.right⟩
        rintro ⟨⟩
        exact ⟨present, rfl⟩
    simp only [member, here, object, List.mem_cons, or_and_right, exists_or, and_or_left]

end Input

/-- The dependencies of all properties are those of each of them. -/
theorem SerializedProperties.mem_allDependencies (properties : SerializedProperties) (key : Key) :
    key ∈ properties.allDependencies ↔
      ∃ entry ∈ properties.propertyDependencies, key ∈ entry.2 := by
  have grows (table : Fields (List Key)) (keys : List Key) :
      key ∈ table.foldl (fun acc entry => Ascending.union acc entry.2) keys ↔
        key ∈ keys ∨ ∃ entry ∈ table, key ∈ entry.2 := by
    induction table generalizing keys with
    | nil => simp
    | cons entry rest ih => simp [ih, or_assoc]
  simpa [allDependencies] using grows properties.propertyDependencies []

theorem SerializedProperties.allDependencies_ascending (properties : SerializedProperties) :
    properties.allDependencies.Pairwise (· < ·) := by
  have grows (table : Fields (List Key)) {keys : List Key} (ascending : keys.Pairwise (· < ·)) :
      (table.foldl (fun acc entry => Ascending.union acc entry.2) keys).Pairwise (· < ·) := by
    induction table generalizing keys with
    | nil => exact ascending
    | cons entry rest ih => exact ih (Ascending.pairwise_union ascending entry.2)
  exact grows properties.propertyDependencies .nil

namespace Deployment

open Input

/-- What a deferred output holds, if it is settled, is a tree without deferred outputs. -/
def Holds (d : Deployment) (source : Source) (site : Site) : Prop :=
  ∃ result, d.graph.peek source = some result ∧
    Reaches (fun (source : Empty) _ => nomatch source) (ofHostSettled result) site

/-- The serialization of an argument reaches the resource, or an output that depends on it. -/
def DependsOn (d : Deployment) (tree : Argument) (key : Key) : Prop :=
  ∃ site, Reaches d.Holds tree site ∧ key ∈ site.keys

theorem awaitSource_tells (d : Deployment) (features : EngineFeatures) :
    Tells (d.awaitSource features) d.Holds := by
  intro context source content sent
  have nothing : Tells (fun _ (source : Empty) => nomatch source)
      (fun source _ => nomatch source) := fun _ source => nomatch source
  unfold awaitSource at sent
  cases peeked : d.graph.peek source with
  | none =>
    rw [peeked] at sent
    cases sent
  | some result =>
    rw [peeked] at sent
    refine (serialize_gathers nothing (ofHostSettled result) context sent).congr fun site => ?_
    constructor
    · rintro ⟨result', again, reached⟩
      cases peeked.symm.trans again
      exact reached
    · exact fun reached => ⟨result, peeked, reached⟩

/-- The table of dependencies has an entry for each property, with exactly the resources that its
own tree depends on. -/
theorem serialize_table (d : Deployment) {features : EngineFeatures} {context : String}
    {args : Arguments} {properties : SerializedProperties}
    (sent : d.serialize features context args = .done properties) :
    List.Forall₂ (fun argument entry => entry.1 = argument.1 ∧ entry.2.Pairwise (· < ·) ∧
      ∀ key, key ∈ entry.2 ↔ d.DependsOn argument.2 key) args properties.propertyDependencies := by
  refine (serializeProperties_done sent).1.imp ?_
  rintro argument entry ⟨content, sent, rfl⟩
  have gathers := serialize_gathers (d.awaitSource_tells features) argument.2 _ sent
  exact ⟨rfl, gathers.ascending, gathers.exact⟩

/-- When properties are sent, the table of dependencies has an entry for each of them, with exactly
the resources that its own tree depends on. The object has those that are not null, and the
dependencies of all are those in the table. -/
theorem dependencies_by_property (d : Deployment) {features : EngineFeatures} {context : String}
    {args : Arguments} {properties : SerializedProperties}
    (sent : d.serialize features context args = .done properties) :
    List.Forall₂ (fun argument entry => entry.1 = argument.1 ∧ entry.2.Pairwise (· < ·) ∧
      ∀ key, key ∈ entry.2 ↔ d.DependsOn argument.2 key) args properties.propertyDependencies ∧
    (∀ name value, (name, value) ∈ properties.object ↔
      value.isNull = false ∧ ∃ tree keys, (name, tree) ∈ args ∧
        Input.serialize d.view features (d.awaitSource features) (fieldContext context name) tree =
          .done ⟨value, keys⟩) ∧
    properties.allDependencies.Pairwise (· < ·) ∧
    ∀ key, key ∈ properties.allDependencies ↔
      ∃ entry ∈ properties.propertyDependencies, key ∈ entry.2 :=
  ⟨d.serialize_table sent, (serializeProperties_done sent).2,
    properties.allDependencies_ascending, properties.mem_allDependencies⟩

/-- A property that is null, one with an unknown output beside a resource, and one that comes from
an output in whose value there is another output. -/
theorem dependencies_by_property_nested :
    let named : Deployment := (dependencyResource "urn:thing" {}).2
    let d := ((named.addSlot "link").2.complete 0
      (.ok ⟨some (.output ⟨none, true, [3]⟩), false, [1]⟩)).2
    let list : Argument := .array [.unknown true [4], .known false [7] (.resource 0)]
    let args : Arguments :=
      [("gone", .known false [2] .null), ("link", .deferred (.slot 0)), ("list", list)]
    ∃ properties, d.serialize ⟨true, true⟩ "args" args = .done properties ∧
      properties.object = [("link", .unknown),
        ("list", .array [.unknown, .reference ⟨"urn:thing", none, none⟩])] ∧
      properties.propertyDependencies = [("gone", [2]), ("link", [1, 3]), ("list", [0, 4, 7])] ∧
      properties.allDependencies = [0, 1, 2, 3, 4, 7] ∧
      ∀ key, d.DependsOn list key ↔ key ∈ [0, 4, 7] := by
  intro named d list args
  have sent : d.serialize ⟨true, true⟩ "args" args = .done
      ⟨[("link", .unknown), ("list", .array [.unknown, .reference ⟨"urn:thing", none, none⟩])],
        [("gone", [2]), ("link", [1, 3]), ("list", [0, 4, 7])]⟩ := rfl
  obtain ⟨table, -⟩ := dependencies_by_property d sent
  have listed := List.forall₂_zip table (show (("list", list), ("list", [0, 4, 7])) ∈ _ from
    List.mem_cons_of_mem _ (List.mem_cons_of_mem _ List.mem_cons_self))
  exact ⟨_, sent, rfl, rfl, rfl, fun key => (listed.2.2 key).symm⟩

end Deployment

end Provision
