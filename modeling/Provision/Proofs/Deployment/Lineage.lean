import Mathlib.Data.List.Find
import Provision.Proofs.Deployment.Course

/-!
# What one registration takes over

With each resource stands what its children inherit, copied together from its parent when it was
registered. The specification looks everything up along a lineage instead: a list of accepted
registrations, that of a resource, that of its parent, and so on. If what stands with the parent
comes to the same as the parent's lineage (`Flattens`), then a registration takes over what its
own lineage says (`Founds.inherits`), and what will stand with it comes to the same as that
lineage (`Founds.flattens`).
-/

namespace Provision

/-- What the next transformation is given. -/
def TransformationInput.after (input : TransformationInput) (t : Transformation) :
    TransformationInput :=
  match t.run input with
  | none => input
  | some result => { input with args := result.args, options := result.options }

/-- An accepted registration: what the program asked for, what came of it before its task was
started, and that task's job. -/
structure Enrolment where
  spec : ResourceSpec
  /-- The parent in force. -/
  parent : Option Key
  /-- The options after the transformations. -/
  options : Options
  runs : List TransformationRun
  job : Registration

namespace Enrolment

open Deployment

def asked (e : Enrolment) : TransformationInput :=
  { type := e.spec.type, name := e.spec.name, kind := e.spec.kind, args := e.spec.args
    options := e.spec.options }

/-- The registration of `key`, that of its parent, and so on. The log has the last registration
first, and a parent is looked for among those before its child. -/
def lineage : List Enrolment → Option Key → List Enrolment
  | [], _ => []
  | e :: earlier, key =>
    if key = some e.job.key then e :: lineage earlier e.parent else lineage earlier key

/-- The transformations declared along a lineage, those of the farthest ancestor first. -/
def transformationsOf (chain : List Enrolment) : List Transformation :=
  chain.reverse.flatMap fun e => e.spec.transformations

/-- An option as the nearest of a lineage sets it. -/
def nearest {α : Type} (option : Options → Option α) (chain : List Enrolment) : Option α :=
  chain.findSome? fun e => option e.options

/-- The provider of a custom resource: its own one, else the first of its own for its package,
else the inherited one. -/
def resolved (packageOf : Key → Option String) (e : Enrolment) (inherited : String → Option Key) :
    Option Key :=
  e.options.provider.or <| (packageOf? e.spec.type).bind fun package =>
    (e.options.providers.find? fun key => packageOf key == some package).or (inherited package)

/-- The entry that a resource sets for a package: a component sets one for each provider given to
it, and a custom resource sets the one for its own package to its provider. -/
def entry (packageOf : Key → Option String) (e : Enrolment) (inherited : String → Option Key)
    (package : String) : Option Key :=
  match e.spec.kind with
  | .component | .remoteComponent =>
    (givenProviders e.options).reverse.find? fun key => packageOf key == some package
  | .custom =>
    if packageOf? e.spec.type = some package then resolved packageOf e inherited else none
  | .provider | .dependency => none

/-- The provider for a package that a lineage hands down: the entry of the nearest that sets one. -/
def handedDown (packageOf : Key → Option String) : List Enrolment → String → Option Key
  | [], _ => none
  | e :: above, package =>
    (entry packageOf e (handedDown packageOf above) package).or
      (handedDown packageOf above package)

variable {e : Enrolment} {above log : List Enrolment} {key : Option Key}

@[simp] theorem lineage_none (log : List Enrolment) : lineage log none = [] := by
  induction log with
  | nil => rfl
  | cons e earlier ih => simp [lineage, ih]

theorem mem_of_mem_lineage (member : e ∈ lineage log key) : e ∈ log := by
  induction log generalizing key with
  | nil => cases member
  | cons first earlier ih =>
    unfold lineage at member
    split at member
    · rcases List.mem_cons.mp member with rfl | member
      · exact List.mem_cons_self
      · exact List.mem_cons_of_mem _ (ih member)
    · exact List.mem_cons_of_mem _ (ih member)

theorem transformationsOf_cons (e : Enrolment) (above : List Enrolment) :
    transformationsOf (e :: above) = transformationsOf above ++ e.spec.transformations := by
  simp [transformationsOf]

theorem nearest_cons {α : Type} (option : Options → Option α) (e : Enrolment)
    (above : List Enrolment) :
    nearest option (e :: above) = (option e.options).or (nearest option above) := by
  unfold nearest
  rw [List.findSome?_cons]
  cases option e.options <;> rfl

section Packages

variable {first second : Key → Option String}

theorem resolved_congr {inherited : String → Option Key}
    (same : ∀ key ∈ givenProviders e.options, first key = second key) :
    resolved first e inherited = resolved second e inherited := by
  unfold resolved
  congr 1
  refine congrArg _ (funext fun package => ?_)
  congr 1
  exact List.find?_congr fun key member => by rw [same key (List.mem_append_right _ member)]

theorem entry_congr {inherited : String → Option Key}
    (same : ∀ key ∈ givenProviders e.options, first key = second key) :
    entry first e inherited = entry second e inherited := by
  funext package
  unfold entry
  rw [resolved_congr same]
  split
  · exact List.find?_congr fun key member => by rw [same key (List.mem_reverse.mp member)]
  · exact List.find?_congr fun key member => by rw [same key (List.mem_reverse.mp member)]
  · rfl
  · rfl
  · rfl

/-- Only the packages of the providers that were given matter. -/
theorem handedDown_congr {chain : List Enrolment}
    (same : ∀ e ∈ chain, ∀ key ∈ givenProviders e.options, first key = second key) :
    handedDown first chain = handedDown second chain := by
  induction chain with
  | nil => rfl
  | cons e above ih =>
    funext package
    unfold handedDown
    rw [ih fun e member => same e (List.mem_cons_of_mem _ member),
      entry_congr (same e List.mem_cons_self)]

end Packages

end Enrolment

namespace Deployment

open Enrolment

/-! ### What an accepted registration takes over -/

/-- Transformations have run once each, on what the ones before have left. -/
structure RunThrough (ts : List Transformation) (first last : TransformationInput)
    (runs : List TransformationRun) : Prop where
  once : runs.length = ts.length
  seen : ∀ i t, ts[i]? = some t →
    runs[i]? = some (t.label, (ts.take i).foldl TransformationInput.after first)
  settled : ts.foldl TransformationInput.after first = last

/-- One transformation, and then the others on what it has left. -/
theorem RunThrough.cons {ts : List Transformation} {t : Transformation}
    {first last : TransformationInput} {runs : List TransformationRun}
    (later : RunThrough ts (first.after t) last runs) :
    RunThrough (t :: ts) first last ((t.label, first) :: runs) where
  once := congrArg Nat.succ later.once
  seen := by
    intro i u here
    cases i with
    | zero =>
      cases here
      rfl
    | succ i => exact later.seen i u here
  settled := later.settled

/-- Transformations that are not refused run through. -/
theorem transform_ok {kind : ResourceKind} {type name : String} {ts : List Transformation}
    {args args' : Arguments} {options options' : Options} {runs : List TransformationRun}
    (ok : transform kind type name ts args options = (.ok (args', options'), runs)) :
    RunThrough ts ⟨type, name, kind, args, options⟩ ⟨type, name, kind, args', options'⟩ runs := by
  induction ts generalizing args options runs with
  | nil =>
    cases ok
    exact ⟨rfl, by rintro i t ⟨⟩, rfl⟩
  | cons t rest ih =>
    unfold transform at ok
    dsimp only at ok
    cases ran : t.run ⟨type, name, kind, args, options⟩ with
    | none =>
      have left : TransformationInput.after ⟨type, name, kind, args, options⟩ t =
          ⟨type, name, kind, args, options⟩ := by simp [TransformationInput.after, ran]
      rw [ran] at ok
      dsimp only at ok
      generalize later : transform kind type name rest args options = r at ok
      obtain ⟨outcome, tail⟩ := r
      cases ok
      refine .cons ?_
      rw [left]
      exact ih later
    | some result =>
      have left : TransformationInput.after ⟨type, name, kind, args, options⟩ t =
          ⟨type, name, kind, result.args, result.options⟩ := by
        simp [TransformationInput.after, ran]
      rw [ran] at ok
      dsimp only at ok
      split at ok
      · cases ok
      · generalize later : transform kind type name rest result.args result.options = r at ok
        obtain ⟨outcome, tail⟩ := r
        cases ok
        refine .cons ?_
        rw [left]
        exact ih later

variable {d d' : Deployment} {spec : ResourceSpec} {options : Options}

theorem prepare_ok {args : Arguments} {runs : List TransformationRun}
    (ok : d.prepare spec = (.ok (args, options), runs)) :
    transform spec.kind spec.type spec.name
        ((((d.effectiveParent spec).map fun key =>
          (d.arena.inheritance key).transformations).getD []) ++ spec.transformations)
        spec.args spec.options = (.ok (args, options), runs) ∧
      d.checkProviders spec options = .ok () := by
  unfold prepare at ok
  split at ok
  · cases ok
  · split at ok
    · cases ok
    · dsimp only at ok
      split at ok
      · cases ok
      · rename_i args' options' runs' transformed
        split at ok
        · cases ok
        · rename_i checked
          cases ok
          exact ⟨transformed, checked⟩

/-- Every provider that is given to an accepted registration is a provider. -/
theorem isProvider_of_checked (checked : d.checkProviders spec options = .ok ()) {key : Key}
    (given : key ∈ givenProviders options) : d.isProvider key = true := by
  unfold checkProviders at checked
  split at checked
  · cases checked
  · split at checked
    · cases checked
    · rename_i none
      simpa using List.find?_eq_none.mp none key given

/-- What resources are stays, and with it the packages of providers. -/
theorem isProvider_after (identities : ∀ key identity, d.arena.identity? key = some identity →
      d'.arena.identity? key = some identity) {key : Key} (provider : d.isProvider key = true) :
    d'.isProvider key = true ∧ d'.providerPackage key = d.providerPackage key := by
  unfold isProvider at provider
  cases here : d.arena.identity? key with
  | none => simp [here] at provider
  | some identity =>
    rw [here] at provider
    have later := identities key identity here
    simp only [isProvider, providerPackage, later, here]
    exact ⟨provider, trivial⟩

theorem lookup_enterProviders (d : Deployment) (keys : List Key) (providers : Fields Key)
    (package : String) :
    (d.enterProviders keys providers).lookup package =
      (keys.reverse.find? fun key => d.providerPackage key == some package).or
        (providers.lookup package) := by
  unfold enterProviders
  induction keys generalizing providers with
  | nil => rfl
  | cons key rest ih =>
    rw [List.foldl_cons, ih, List.reverse_cons, List.find?_append, Option.or_assoc]
    congr 1
    cases own : d.providerPackage key with
    | none => simp [own]
    | some other =>
      by_cases same : package = other
      · subst same
        simp [own, Fields.lookup_set]
      · simp [own, Fields.lookup_set, same, Ne.symm same]

/-- What stands with a resource is what its lineage comes to. -/
structure Flattens (packageOf : Key → Option String) (chain : List Enrolment)
    (inheritance : Inheritance) : Prop where
  transformations : inheritance.transformations = transformationsOf chain
  protect : inheritance.protect = nearest Options.protect chain
  version : inheritance.version = nearest Options.version chain
  pluginDownloadUrl : inheritance.pluginDownloadUrl = nearest Options.pluginDownloadUrl chain
  providers : ∀ package, inheritance.providers.lookup package = handedDown packageOf chain package

theorem Flattens.nothing (packageOf : Key → Option String) : Flattens packageOf [] {} :=
  ⟨rfl, rfl, rfl, rfl, fun _ => rfl⟩

/-- What a registration takes over from its lineage. -/
structure Inherits (packageOf : Key → Option String) (e : Enrolment) (above : List Enrolment) :
    Prop where
  /-- Each transformation of the lineage runs once, -/
  once : e.runs.length = (transformationsOf (e :: above)).length
  /-- in order, on what the ones before it have left, -/
  seen : ∀ i t, (transformationsOf (e :: above))[i]? = some t → e.runs[i]? =
    some (t.label, ((transformationsOf (e :: above)).take i).foldl TransformationInput.after
      e.asked)
  /-- and what the last has left is used. -/
  settled : (transformationsOf (e :: above)).foldl TransformationInput.after e.asked =
    { e.asked with args := e.job.args, options := e.options }
  protect : e.job.protect = nearest Options.protect (e :: above)
  version : e.job.options.version = nearest Options.version (e :: above)
  pluginDownloadUrl :
    e.job.options.pluginDownloadUrl = nearest Options.pluginDownloadUrl (e :: above)
  provider : e.spec.kind = .custom →
    e.job.provider = resolved packageOf e (handedDown packageOf above)

section Packages

variable {first second : Key → Option String}

theorem Flattens.congr {chain : List Enrolment} {inheritance : Inheritance}
    (flattens : Flattens first chain inheritance)
    (same : ∀ e ∈ chain, ∀ key ∈ givenProviders e.options, first key = second key) :
    Flattens second chain inheritance :=
  { flattens with
    providers := fun package => by rw [← handedDown_congr same, flattens.providers package] }

theorem Inherits.congr {e : Enrolment} {above : List Enrolment} (inherits : Inherits first e above)
    (same : ∀ other ∈ e :: above, ∀ key ∈ givenProviders other.options, first key = second key) :
    Inherits second e above :=
  { inherits with
    provider := fun custom => by
      rw [inherits.provider custom, resolved_congr (same e List.mem_cons_self),
        handedDown_congr fun other member => same other (List.mem_cons_of_mem _ member)] }

end Packages

theorem chooseProvider_eq (d : Deployment) (e : Enrolment) (providers : Fields Key) :
    d.chooseProvider e.spec.type e.options providers =
      resolved d.providerPackage e fun package => providers.lookup package := by
  unfold chooseProvider resolved
  cases packageOf? e.spec.type <;> rfl

/-- The providers that children inherit are the inherited ones and the resource's entries. -/
theorem lookup_chooseProviders (d : Deployment) (e : Enrolment) (providers : Fields Key)
    (package : String) :
    (d.chooseProviders e.spec.kind e.spec.type e.options providers).inherited.lookup package =
      (entry d.providerPackage e (fun package => providers.lookup package) package).or
        (providers.lookup package) := by
  unfold chooseProviders entry
  cases e.spec.kind with
  | custom =>
    dsimp only
    rw [← chooseProvider_eq]
    cases d.chooseProvider e.spec.type e.options providers with
    | none => cases packageOf? e.spec.type <;> simp
    | some key =>
      cases packageOf? e.spec.type with
      | none => simp
      | some own =>
        by_cases same : package = own
        · subst same
          simp [Fields.lookup_set]
        · simp [Fields.lookup_set, same, Ne.symm same]
  | component | remoteComponent => exact lookup_enterProviders d _ providers package
  | provider | dependency => rfl

/-- A registration that starts below `above` takes over what stands with its parent, and its
children will take over what it has come to. -/
structure Founds (d : Deployment) (e : Enrolment) (above : Inheritance) (d' : Deployment) :
    Prop where
  registrations : d'.registrations = d.registrations ++ [e.job]
  key : e.job.key = d.arena.size
  kind : e.job.kind = e.spec.kind
  protect : e.job.protect = e.options.protect.or above.protect
  version : e.job.options.version = e.options.version.or above.version
  pluginDownloadUrl :
    e.job.options.pluginDownloadUrl = e.options.pluginDownloadUrl.or above.pluginDownloadUrl
  provider : e.job.provider =
    (d.chooseProviders e.spec.kind e.spec.type e.options above.providers).own
  inheritance : ∀ key, d'.arena.inheritance key =
    if key = d.arena.size then
      { parent := e.parent
        providers :=
          (d.chooseProviders e.spec.kind e.spec.type e.options above.providers).inherited
        transformations := above.transformations ++ e.spec.transformations
        protect := e.job.protect, version := e.job.options.version
        pluginDownloadUrl := e.job.options.pluginDownloadUrl }
    else d.arena.inheritance key
  urns : d'.arena.urns = d.arena.urns
  known : ∀ n, d'.graph.known n = d.graph.known n
  /-- The resource has no URN yet. -/
  unnamed : d.graph.known e.job.urnSlot = none

theorem addIdentity_arena (kind : ResourceKind) (d : Deployment) :
    (d.addIdentity kind).2.arena = d.arena := by
  unfold addIdentity
  dsimp only
  split <;> rfl

theorem addIdentity_tasks (kind : ResourceKind) (d : Deployment) :
    (d.addIdentity kind).2.tasks = d.tasks := by
  unfold addIdentity
  dsimp only
  split <;> rfl

theorem addIdentity_known (kind : ResourceKind) (d : Deployment) (n : Nat) :
    (d.addIdentity kind).2.graph.known n = d.graph.known n := by
  have urn := Graph.known_addSlot d.graph "urn" n
  unfold addIdentity
  dsimp only
  split
  · exact (Graph.known_addSlot (d.addSlot "urn").2.graph "id" n).trans urn
  · exact urn

/-- A slot that is only about to be added holds nothing. -/
theorem addIdentity_unnamed (kind : ResourceKind) (d : Deployment) :
    d.graph.known (d.addIdentity kind).1.1 = none := by
  have new : (d.addIdentity kind).1.1 = d.graph.slots.length := by
    unfold addIdentity
    dsimp only
    split <;> rfl
  rw [new]
  simp [Graph.known]

theorem start_founds (d : Deployment) (spec : ResourceSpec) {parent : Option Key}
    {above : Inheritance} (inherited : (parent.map d.arena.inheritance).getD {} = above)
    (args : Arguments) (options : Options) (runs : List TransformationRun) :
    ∃ job : Registration, job.args = args ∧
      Founds d ⟨spec, parent, options, runs, job⟩ above
        (d.start spec parent (above.transformations ++ spec.transformations) args options).2 := by
  have arena := addIdentity_arena spec.kind d
  have tasks := addIdentity_tasks spec.kind d
  have known := addIdentity_known spec.kind d
  have unnamed := addIdentity_unnamed spec.kind d
  unfold start
  rw [inherited]
  generalize d.addIdentity spec.kind = r at arena tasks known unnamed
  obtain ⟨⟨urnSlot, idSlot⟩, d₁⟩ := r
  let providers := d.chooseProviders spec.kind spec.type options above.providers
  let settled : Options :=
    { options with
      version := options.version.or above.version
      pluginDownloadUrl := options.pluginDownloadUrl.or above.pluginDownloadUrl }
  let job : Registration :=
    { key := d₁.arena.size, type := spec.type, name := spec.name, kind := spec.kind, parent, args
      options := settled, provider := providers.own, explicitProviders := providers.explicit
      protect := options.protect.or above.protect, urnSlot, idSlot, outputs := spec.outputs }
  refine ⟨job, rfl,
    { key := congrArg Arena.size arena
      kind := rfl, protect := rfl, version := rfl, pluginDownloadUrl := rfl, provider := rfl
      urns := show d₁.arena.urns = d.arena.urns from congrArg Arena.urns arena
      known := known, unnamed := unnamed
      registrations := ?_, inheritance := fun key => ?_ }⟩
  · have same : d₁.tasks = d.tasks := tasks
    show ((d₁.tasks ++ [Task.mk (.registration job) .underWay true]).map Task.job).filterMap
      Job.registration? = d.registrations ++ [job]
    simp [registrations, same, Job.registration?]
  · have inserted := Arena.inheritance_insert d₁.arena
      { parent, providers := providers.inherited
        transformations := above.transformations ++ spec.transformations
        protect := job.protect, version := settled.version
        pluginDownloadUrl := settled.pluginDownloadUrl }
      (fun _ =>
        { type := spec.type, name := spec.name, kind := spec.kind
          urn := .source (.slot urnSlot), id := idSlot.map fun slot => .source (.slot slot) }) key
    rw [arena] at inserted
    rw [← inserted, ← arena]

variable {d d' : Deployment} {e : Enrolment} {above : List Enrolment} {inherited : Inheritance}

/-- The next resource continues the lineage of its parent. -/
theorem Founds.flattens (founds : Founds d e inherited d')
    (flattens : Flattens d.providerPackage above inherited) :
    Flattens d.providerPackage (e :: above) (d'.arena.inheritance e.job.key) := by
  have providers : (fun package => inherited.providers.lookup package) =
      handedDown d.providerPackage above := funext flattens.providers
  rw [founds.inheritance, if_pos founds.key]
  refine ⟨?_, ?_, ?_, ?_, fun package => ?_⟩
  · rw [transformationsOf_cons, flattens.transformations]
  · rw [nearest_cons, ← flattens.protect, founds.protect]
  · rw [nearest_cons, ← flattens.version, founds.version]
  · rw [nearest_cons, ← flattens.pluginDownloadUrl, founds.pluginDownloadUrl]
  · rw [lookup_chooseProviders, providers, flattens.providers]
    rfl

theorem Founds.inherits (founds : Founds d e inherited d')
    (flattens : Flattens d.providerPackage above inherited)
    (transformed : transform e.spec.kind e.spec.type e.spec.name
      (inherited.transformations ++ e.spec.transformations) e.spec.args e.spec.options =
        (.ok (e.job.args, e.options), e.runs)) :
    Inherits d.providerPackage e above := by
  have providers : (fun package => inherited.providers.lookup package) =
      handedDown d.providerPackage above := funext flattens.providers
  rw [flattens.transformations, ← transformationsOf_cons] at transformed
  obtain ⟨once, seen, settled⟩ := transform_ok transformed
  refine ⟨once, seen, settled, ?_, ?_, ?_, fun custom => ?_⟩
  · rw [nearest_cons, ← flattens.protect, founds.protect]
  · rw [nearest_cons, ← flattens.version, founds.version]
  · rw [nearest_cons, ← flattens.pluginDownloadUrl, founds.pluginDownloadUrl]
  · rw [founds.provider, custom, ← providers, ← chooseProvider_eq]
    rfl

def standing (d : Deployment) (parent : Option Key) : Inheritance :=
  (parent.map d.arena.inheritance).getD {}

theorem standing_transformations (d : Deployment) (parent : Option Key) :
    ((parent.map fun key => (d.arena.inheritance key).transformations).getD []) =
      (d.standing parent).transformations := by
  cases parent <;> rfl

theorem register_founds {spec : ResourceSpec} {key : Key}
    (ok : (d.register spec).1.outcome = .ok key) :
    ∃ args options runs, d.prepare spec = (.ok (args, options), runs) ∧
      ∃ job : Registration, job.args = args ∧
        Founds d ⟨spec, d.effectiveParent spec, options, runs, job⟩
          (d.standing (d.effectiveParent spec)) (d.register spec).2 := by
  unfold register at ok ⊢
  split at ok
  · cases ok
  · rename_i args options runs prepared
    refine ⟨args, options, runs, prepared, ?_⟩
    obtain ⟨job, same, founds⟩ :=
      @start_founds d spec (d.effectiveParent spec) _ rfl args options runs
    refine ⟨job, same, ?_⟩
    dsimp only
    rw [standing_transformations]
    exact founds

end Deployment

end Provision
