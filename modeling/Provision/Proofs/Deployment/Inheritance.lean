import Provision.Proofs.Deployment.Lineage
import Provision.Proofs.Deployment.Waiting

/-!
# What resources inherit

A `Chronicle` is a history with the registrations that were accepted in it, and the `lineage` of
one of them leads up along the parents in force. What stands with a resource comes to the same as
its lineage in every ledger that a chronicle leads to (`Chronicle.recorded`). So the
transformations run from the farthest ancestor down, and an option or a provider that is inherited
comes from the nearest that sets it (`registration_inherits_nearest`).
-/

namespace Provision

namespace Ledger

open Deployment Enrolment World

variable {σ : Type} {engine : Engine σ} {l l' : Ledger σ} {log : List Enrolment}

/-- A history with the registrations that were accepted in it, the last one first. -/
inductive Chronicle (engine : Engine σ) : List Enrolment → Ledger σ → Prop where
  | start (settings : Settings) (s : σ) : Chronicle engine [] (initial settings s)
  | accepted {log : List Enrolment} {l l' : Ledger σ} {spec : ResourceSpec} {key : Key}
      {options : Options} {runs : List TransformationRun} {job : Registration}
      (before : Chronicle engine log l) (accepts : Accepts l spec key l')
      (prepared : l.deployment.prepare spec = (.ok (job.args, options), runs))
      (started : l'.deployment.registrations = l.deployment.registrations ++ [job]) :
      Chronicle engine (⟨spec, l.deployment.effectiveParent spec, options, runs, job⟩ :: log) l'
  | other {log : List Enrolment} {l l' : Ledger σ} (before : Chronicle engine log l)
      (step : Step engine l l') (refused : ∀ spec key, ¬ Accepts l spec key l') :
      Chronicle engine log l'

/-- What an accepted registration does, by any of the ways to register. -/
theorem Accepts.founds {spec : ResourceSpec} {key : Key} (accepts : Accepts l spec key l') :
    ∃ args options runs, l.deployment.prepare spec = (.ok (args, options), runs) ∧
      ∃ job : Registration, job.args = args ∧
        Founds l.deployment ⟨spec, l.deployment.effectiveParent spec, options, runs, job⟩
          (l.deployment.standing (l.deployment.effectiveParent spec)) l'.deployment := by
  obtain ⟨ok, root, same⟩ := accepts.registers
  obtain ⟨args, options, runs, prepared, job, given, founds⟩ := register_founds ok
  rw [same]
  exact ⟨args, options, runs, prepared, job, given, { founds with }⟩

structure Recorded (log : List Enrolment) (l : Ledger σ) : Prop where
  sound : l.Sound
  jobs : l.deployment.registrations = (log.map Enrolment.job).reverse
  exist : ∀ e ∈ log, ∃ identity, l.deployment.arena.identity? e.job.key = some identity
  given : ∀ e ∈ log, ∀ key ∈ givenProviders e.options, l.deployment.isProvider key = true
  flattens : ∀ key, Flattens l.deployment.providerPackage (lineage log (some key))
    (l.deployment.arena.inheritance key)
  inherits : ∀ e ∈ log, ∃ above, lineage log (some e.job.key) = e :: above ∧
    Inherits l.deployment.providerPackage e above

namespace Recorded

/-- The packages of providers stay what they were. -/
theorem packages (recorded : Recorded log l)
    (identities : ∀ key identity, l.deployment.arena.identity? key = some identity →
      l'.deployment.arena.identity? key = some identity) {chain : List Enrolment}
    (sub : ∀ e ∈ chain, e ∈ log) :
    ∀ e ∈ chain, ∀ key ∈ givenProviders e.options,
      l.deployment.providerPackage key = l'.deployment.providerPackage key :=
  fun e member key given =>
    (isProvider_after identities (recorded.given e (sub e member) key given)).2.symm

theorem start (settings : Settings) (s : σ) : Recorded [] (initial settings s) where
  sound := initial_sound settings s
  jobs := rfl
  exist := by rintro e ⟨⟩
  given := by rintro e ⟨⟩
  flattens := fun key => Flattens.nothing _
  inherits := by rintro e ⟨⟩

/-- What registers nothing. -/
theorem other (recorded : Recorded log l) (sound : l'.Sound)
    (registrations : l'.deployment.registrations = l.deployment.registrations)
    (identities : ∀ key identity, l.deployment.arena.identity? key = some identity →
      l'.deployment.arena.identity? key = some identity)
    (inheritance : ∀ key,
      l'.deployment.arena.inheritance key = l.deployment.arena.inheritance key) :
    Recorded log l' where
  sound := sound
  jobs := registrations.trans recorded.jobs
  exist := fun e member => (recorded.exist e member).imp fun _ here => identities _ _ here
  given := fun e member key given =>
    (isProvider_after identities (recorded.given e member key given)).1
  flattens := fun key => by
    rw [inheritance]
    exact (recorded.flattens key).congr
      (recorded.packages identities fun _ member => mem_of_mem_lineage member)
  inherits := fun e member => by
    obtain ⟨above, chain, inherits⟩ := recorded.inherits e member
    refine ⟨above, chain, inherits.congr (recorded.packages identities fun other here => ?_)⟩
    exact mem_of_mem_lineage (chain ▸ here)

theorem flattens_standing (recorded : Recorded log l) (parent : Option Key) :
    Flattens l.deployment.providerPackage (lineage log parent) (l.deployment.standing parent) := by
  cases parent with
  | none =>
    rw [lineage_none]
    exact Flattens.nothing _
  | some key => exact recorded.flattens key

/-- A registration that is accepted goes before the log. -/
theorem accepted (recorded : Recorded log l) {e : Enrolment} (sound : l'.Sound)
    (identities : ∀ key identity, l.deployment.arena.identity? key = some identity →
      l'.deployment.arena.identity? key = some identity)
    (parent : e.parent = l.deployment.effectiveParent e.spec)
    (prepared : l.deployment.prepare e.spec = (.ok (e.job.args, e.options), e.runs))
    (founds : Founds l.deployment e (l.deployment.standing e.parent) l'.deployment) :
    Recorded (e :: log) l' := by
  obtain ⟨transformed, checked⟩ := prepare_ok prepared
  rw [standing_transformations, ← parent] at transformed
  have parents := recorded.flattens_standing e.parent
  have given : ∀ other ∈ e :: log, ∀ key ∈ givenProviders other.options,
      l.deployment.isProvider key = true := by
    intro other member
    rcases List.mem_cons.mp member with rfl | member
    · exact fun key mine => isProvider_of_checked checked mine
    · exact recorded.given other member
  have packages {chain : List Enrolment} (sub : ∀ other ∈ chain, other ∈ e :: log) :
      ∀ other ∈ chain, ∀ key ∈ givenProviders other.options,
        l.deployment.providerPackage key = l'.deployment.providerPackage key :=
    fun other here key mine =>
      (isProvider_after identities (given other (sub other here) key mine)).2.symm
  -- The resources of the log are there already, and the new one is not.
  have different : ∀ old ∈ log, old.job.key ≠ e.job.key := by
    intro old member same
    obtain ⟨identity, here⟩ := recorded.exist old member
    exact Nat.ne_of_lt (Arena.lt_of_identity? here) (same.trans founds.key)
  have newest : lineage (e :: log) (some e.job.key) = e :: lineage log e.parent := by
    simp [lineage]
  have older {key : Key} (different : key ≠ e.job.key) :
      lineage (e :: log) (some key) = lineage log (some key) := by
    simp [lineage, different]
  have self : ∀ other ∈ e :: lineage log e.parent, other ∈ e :: log := by
    intro other here
    rcases List.mem_cons.mp here with rfl | here
    · exact List.mem_cons_self
    · exact List.mem_cons_of_mem _ (mem_of_mem_lineage here)
  refine ⟨sound, ?_, ?_, ?_, ?_, ?_⟩
  · rw [founds.registrations, recorded.jobs, List.map_cons, List.reverse_cons]
  · intro other member
    rcases List.mem_cons.mp member with rfl | member
    · have registered : other.job ∈ l'.deployment.registrations := by
        rw [founds.registrations]
        simp
      obtain ⟨progress, tracked, task⟩ := mem_registrations.mp registered
      exact ⟨_, (sound.owned.settled _ _ _ task).1.handle⟩
    · exact (recorded.exist other member).imp fun _ here => identities _ _ here
  · exact fun other member key mine => (isProvider_after identities (given other member key mine)).1
  · intro key
    by_cases same : key = e.job.key
    · subst same
      rw [newest]
      exact (founds.flattens parents).congr (packages self)
    · rw [older same, founds.inheritance, if_neg fun new => same (new.trans founds.key.symm)]
      exact (recorded.flattens key).congr
        (packages fun other here => List.mem_cons_of_mem _ (mem_of_mem_lineage here))
  · intro other member
    rcases List.mem_cons.mp member with rfl | member
    · exact ⟨_, newest, (founds.inherits parents transformed).congr (packages self)⟩
    · obtain ⟨above, chain, inherits⟩ := recorded.inherits other member
      refine ⟨above, (older (different other member)).trans chain,
        inherits.congr (packages fun above here => ?_)⟩
      exact List.mem_cons_of_mem _ (mem_of_mem_lineage (chain ▸ here))

end Recorded

theorem Chronicle.recorded (chronicle : Chronicle engine log l) : Recorded log l := by
  induction chronicle with
  | start settings s => exact .start settings s
  | @accepted log l l' spec key options runs job before accepts prepared started ih =>
    have step : Step engine l l' := accepts.step
    obtain ⟨sound, -⟩ := step.course ih.sound
    obtain ⟨args, options', runs', prepared', job', -, founds⟩ := accepts.founds
    -- The chronicle tells of the same registration.
    obtain rfl : job' = job := by
      have both := founds.registrations.symm.trans started
      simpa using both
    cases prepared.symm.trans prepared'
    exact ih.accepted sound (step.keeps ih.sound.owned).2.identities rfl prepared founds
  | @other log l l' before step refused ih =>
    obtain ⟨sound, courses⟩ := step.course ih.sound
    cases courses with
    | accepts accepted => exact absurd accepted (refused _ _)
    | @names urn named =>
      subst named
      exact ih.other sound rfl (dependencyResource_gains urn l.deployment).identities
        (inheritance_insertDependency ⟨urn, none, none⟩ l.deployment)
    | changes changes =>
      exact ih.other sound changes.registrations (fun _ _ here => changes.identities here)
        changes.inheritance

/-- Every history has its chronicle. -/
theorem Reachable.chronicle (reachable : Reachable engine l) : ∃ log, Chronicle engine log l := by
  obtain ⟨settings, s, history⟩ := reachable
  refine history.induct (P := fun l => ∃ log, Chronicle engine log l) ?_ ⟨[], .start settings s⟩
  rintro l₁ l₂ ⟨log, chronicle⟩ step
  rcases Classical.em (∃ spec key, Accepts l₁ spec key l₂) with ⟨spec, key, accepts⟩ | refused
  · obtain ⟨args, options, runs, prepared, job, rfl, founds⟩ := accepts.founds
    exact ⟨_, .accepted chronicle accepts prepared founds.registrations⟩
  · exact ⟨log, .other chronicle step fun spec key accepts => refused ⟨spec, key, accepts⟩⟩

structure Carries (packageOf : Key → Option String) (e : Enrolment) (above : List Enrolment)
    (d : Deployment) (request : Exchange) : Prop where
  protect : ∀ protect, request.protect? = some protect →
    protect = nearest Options.protect (e :: above)
  version : request.version = (nearest Options.version (e :: above)).getD ""
  pluginDownloadUrl :
    request.pluginDownloadUrl = (nearest Options.pluginDownloadUrl (e :: above)).getD ""
  provider : e.spec.kind = .custom →
    d.optionalProviderReference (resolved packageOf e (handedDown packageOf above)) =
      .done request.provider

theorem exchange_carries {packageOf : Key → Option String} {e : Enrolment}
    {above : List Enrolment} (inherits : Inherits packageOf e above) {d : Deployment}
    {features : EngineFeatures} {request : Exchange}
    (ready : d.exchange features e.job = .done request) :
    Carries packageOf e above d request := by
  have builds := exchange_builds ready
  refine ⟨fun protect sent => ?_, ?_, ?_, fun custom => ?_⟩
  · rw [builds.protect protect sent, inherits.protect]
  · rw [builds.version, inherits.version]
  · rw [builds.pluginDownloadUrl, inherits.pluginDownloadUrl]
  · rw [← inherits.provider custom]
    exact builds.provider

/-- Every registered resource has a place in the chronicle, from which its lineage leads up along
the parents in force. The transformations of the lineage have run on it from the top down; and in
whatever state its request is built, the protect flag, the version, the download URL and the
provider of a custom resource are those of the nearest of the lineage that sets them. -/
theorem registration_inherits_nearest (chronicle : Chronicle engine log l) {job : Registration}
    (registered : job ∈ l.deployment.registrations) :
    ∃ e above, e.job = job ∧ lineage log (some job.key) = e :: above ∧
      Inherits l.deployment.providerPackage e above ∧
      ∀ (d : Deployment) (features : EngineFeatures) (request : Exchange),
        d.exchange features job = .done request →
          Carries l.deployment.providerPackage e above d request := by
  have recorded := chronicle.recorded
  rw [recorded.jobs, List.mem_reverse] at registered
  obtain ⟨e, member, rfl⟩ := List.mem_map.mp registered
  obtain ⟨above, chain, inherits⟩ := recorded.inherits e member
  exact ⟨e, above, rfl, chain, inherits, fun d features request => exchange_carries inherits⟩

/-! ### A family -/

/-- What registers a resource without declared properties. -/
theorem Chronicle.registering (chronicle : Chronicle engine log l) (spec : ResourceSpec)
    (options : Options) (job : Registration) {runs : List TransformationRun}
    (undeclared : spec.outputs = []) (ok : (l.deployment.register spec).1.outcome = .ok job.key)
    (prepared : l.deployment.prepare spec = (.ok (job.args, options), runs))
    (started : (l.deployment.register spec).2.registrations = l.deployment.registrations ++ [job]) :
    Chronicle engine (⟨spec, l.deployment.effectiveParent spec, options, runs, job⟩ :: log)
      (l.registering spec) := by
  have collected : Chronicle engine log { l with held := [] :: l.held } := by
    refine .other chronicle (.collect l) fun spec' key' accepts => ?_
    obtain ⟨args, options', runs', -, job', -, founds⟩ := accepts.founds
    have same := founds.registrations
    simp at same
  have accepts : Accepts { l with held := [] :: l.held } spec job.key (l.registering spec) :=
    @Accepts.register _ _ [] l.held spec job.key (by rw [undeclared]; rfl) ok
  have told := Chronicle.accepted collected accepts prepared started
  exact told

def keeperSpec : ResourceSpec :=
  { kind := .provider, type := "pulumi:providers:pkg", name := "keeper" }

/-- A component with the provider, which takes the protection from the resource inside. -/
def houseSpec : ResourceSpec :=
  { kind := .component, type := "pkg:index:House", name := "house"
    options := { provider := some 0, protect := some true, version := some "1.0" }
    transformations :=
      [⟨"relax", fun input =>
        if input.name = "room" then some ⟨input.args, { input.options with protect := some false }⟩
        else none⟩] }

def roomSpec : ResourceSpec :=
  { kind := .custom, type := "pkg:index:Thing", name := "room"
    options := { parent := some 1, pluginDownloadUrl := some "mirror" } }

def chairSpec : ResourceSpec :=
  { kind := .custom, type := "pkg:index:Thing", name := "chair", options := { parent := some 2 } }

def family : Ledger Unit :=
  ((((initial {} ()).registering keeperSpec).registering houseSpec).registering
    roomSpec).registering chairSpec

def keeperJob : Registration :=
  { key := 0, type := keeperSpec.type, name := "keeper", kind := .provider, parent := none
    args := [], options := {}, provider := none, explicitProviders := [], protect := none
    urnSlot := 0, idSlot := some 1, outputs := [] }

def houseJob : Registration :=
  { key := 1, type := houseSpec.type, name := "house", kind := .component, parent := none
    args := [], options := houseSpec.options, provider := none, explicitProviders := [("pkg", 0)]
    protect := some true, urnSlot := 2, idSlot := none, outputs := [] }

def roomJob : Registration :=
  { key := 2, type := roomSpec.type, name := "room", kind := .custom, parent := some 1, args := []
    options :=
      { roomSpec.options with protect := some false, version := some "1.0" }
    provider := some 0, explicitProviders := [], protect := some false, urnSlot := 3
    idSlot := some 4, outputs := [] }

def chairJob : Registration :=
  { key := 3, type := chairSpec.type, name := "chair", kind := .custom, parent := some 2, args := []
    options :=
      { chairSpec.options with version := some "1.0", pluginDownloadUrl := some "mirror" }
    provider := some 0, explicitProviders := [], protect := some false, urnSlot := 5
    idSlot := some 6, outputs := [] }

theorem family_chronicle : ∃ log, Chronicle obliging log family ∧
    (lineage log (some 3)).map (fun e => (e.job, e.runs.map Prod.fst)) =
      [(chairJob, ["relax"]), (roomJob, ["relax"]), (houseJob, ["relax"])] := by
  have start : Chronicle obliging [] (initial {} ()) := .start {} ()
  have keeper := start.registering keeperSpec {} keeperJob rfl rfl rfl rfl
  have house := keeper.registering houseSpec houseSpec.options houseJob rfl rfl rfl rfl
  have room := house.registering roomSpec { roomSpec.options with protect := some false } roomJob
    rfl rfl rfl rfl
  have chair := room.registering chairSpec chairSpec.options chairJob rfl rfl rfl rfl
  exact ⟨_, chair, rfl⟩

/-- The chair is not protected, since the room is not; its version and its provider come from the
house, and the download URL from the room. -/
theorem registration_inherits_nearest_family :
    let answered := (family.world.runTasks obliging).deployment
    ∃ log e above request, Chronicle obliging log family ∧
      chairJob ∈ family.deployment.registrations ∧
      lineage log (some 3) = e :: above ∧
      (e :: above).map (fun e => (e.job, e.runs.map Prod.fst)) =
        [(chairJob, ["relax"]), (roomJob, ["relax"]), (houseJob, ["relax"])] ∧
      answered.exchange ⟨true, true⟩ chairJob = .done request ∧
      Carries family.deployment.providerPackage e above answered request ∧
      request.protect? = some (some false) ∧ request.version = "1.0" ∧
      request.pluginDownloadUrl = "mirror" ∧ request.provider = "urn:keeper::id" := by
  intro answered
  obtain ⟨log, chronicle, jobs⟩ := family_chronicle
  have registered : chairJob ∈ family.deployment.registrations := by
    have all : family.deployment.registrations = [keeperJob, houseJob, roomJob, chairJob] := rfl
    simp [all]
  obtain ⟨e, above, same, chain, inherits, carries⟩ :=
    registration_inherits_nearest chronicle registered
  exact ⟨log, e, above, _, chronicle, registered, chain, chain ▸ jobs, rfl,
    carries answered ⟨true, true⟩ _ rfl, rfl, rfl, rfl, rfl⟩

end Ledger

end Provision
