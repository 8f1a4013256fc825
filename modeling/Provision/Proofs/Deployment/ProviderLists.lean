import Provision.Proofs.Deployment.ProviderMap

/-!
# Lists of providers

A list of providers is read in two ways. A custom resource that is given one takes the first
provider for its package, and a component enters all of them under their packages, so that the
last one for a package stays and is handed down. A resource that is given a list and one inside a
component that is given the same list have the same provider exactly if the first for their package
is the last one too (`given_both_ways_iff`).
-/

namespace Provision

namespace Enrolment

def ParentFirst (e : Enrolment) : Prop := ∀ parent, e.parent = some parent → parent < e.job.key

/-- A list of providers is given to a custom resource, and to a component of the same parent. In
the component there is a custom resource of the same type without provider options. -/
structure GivenBothWays (providers : List Key) (package : String)
    (single group member : Enrolment) : Prop where
  custom : single.spec.kind = .custom
  component : group.spec.kind.isComponent = true
  custom' : member.spec.kind = .custom
  typed : packageOf? single.spec.type = some package
  same : member.spec.type = single.spec.type
  listed : single.options.provider = none ∧ single.options.providers = providers
  listed' : group.options.provider = none ∧ group.options.providers = providers
  unlisted : member.options.provider = none ∧ member.options.providers = []
  beside : group.parent = single.parent
  inside : member.parent = some group.job.key
  inOrder : single.ParentFirst ∧ group.ParentFirst ∧ member.ParentFirst

variable {packageOf : Key → Option String} {providers : List Key} {package : String}
  {single group member : Enrolment}

/-- The resource that is given the list takes the first provider for its package. -/
theorem GivenBothWays.resolved_single (both : GivenBothWays providers package single group member)
    (inherited : String → Option Key) :
    resolved packageOf single inherited =
      (providers.find? fun key => packageOf key == some package).or (inherited package) := by
  unfold resolved
  rw [both.listed.1, both.listed.2, both.typed]
  rfl

/-- The component hands the last one down. -/
theorem GivenBothWays.resolved_member (both : GivenBothWays providers package single group member)
    (above : List Enrolment) :
    resolved packageOf member (handedDown packageOf (group :: above)) =
      (providers.reverse.find? fun key => packageOf key == some package).or
        (handedDown packageOf above package) := by
  have entered (inherited : String → Option Key) : entry packageOf group inherited package =
      providers.reverse.find? fun key => packageOf key == some package := by
    have component := both.component
    unfold entry Deployment.givenProviders
    rw [both.listed'.1, both.listed'.2]
    cases kind : group.spec.kind <;> simp_all [ResourceKind.isComponent]
  unfold resolved
  rw [both.unlisted.1, both.unlisted.2, both.same, both.typed]
  show handedDown packageOf (group :: above) package = _
  rw [handedDown, entered]

end Enrolment

namespace Ledger

open Deployment Enrolment

variable {σ : Type} {engine : Engine σ} {l l' : Ledger σ} {log : List Enrolment}

/-- A resource that is registered takes the next key. -/
theorem Accepts.key_eq {spec : ResourceSpec} {key : Key} {job : Registration}
    (accepts : Accepts l spec key l')
    (started : l'.deployment.registrations = l.deployment.registrations ++ [job]) :
    job.key = l.deployment.arena.size := by
  obtain ⟨args, options, runs, -, job', -, founds⟩ := accepts.founds
  obtain rfl : job' = job := by simpa using founds.registrations.symm.trans started
  exact founds.key

/-- The lineage of a resource goes on with that of its parent. -/
theorem Chronicle.lineage_eq (chronicle : Chronicle engine log l) {e : Enrolment}
    (member : e ∈ log) (parentFirst : e.ParentFirst) :
    lineage log (some e.job.key) = e :: lineage log e.parent := by
  induction chronicle with
  | start settings s => cases member
  | other before step refused ih => exact ih member
  | @accepted log l l' spec key options runs job before accepts prepared started ih =>
    have newest : job.key = l.deployment.arena.size := accepts.key_eq started
    -- No parent is as new as the resource that was registered last.
    have older {parent : Option Key} (less : ∀ key, parent = some key → key < job.key) :
        parent ≠ some job.key := fun same => Nat.lt_irrefl _ (less job.key same)
    rcases List.mem_cons.mp member with rfl | member
    · simp [lineage, older parentFirst]
    · obtain ⟨identity, here⟩ := before.recorded.exist e member
      have less : e.job.key < job.key := newest ▸ Arena.lt_of_identity? here
      have before : e.parent ≠ some job.key :=
        older fun key up => Nat.lt_trans (parentFirst key up) less
      simp [lineage, Nat.ne_of_lt less, before, ih member]

/-- What a custom resource is given or inherits, told by its lineage. -/
theorem Chronicle.provider_eq (chronicle : Chronicle engine log l) {e : Enrolment}
    (member : e ∈ log) (parentFirst : e.ParentFirst) (custom : e.spec.kind = .custom) :
    e.job.provider = resolved l.deployment.providerPackage e
      (handedDown l.deployment.providerPackage (lineage log e.parent)) := by
  obtain ⟨above, chain, inherits⟩ := chronicle.recorded.inherits e member
  obtain rfl : above = lineage log e.parent :=
    (List.cons.inj (chain.symm.trans (chronicle.lineage_eq member parentFirst))).2
  exact inherits.provider custom

theorem find?_reverse_isSome {α : Type} (list : List α) (p : α → Bool) :
    (list.reverse.find? p).isSome = (list.find? p).isSome := by
  rw [Bool.eq_iff_iff, List.find?_isSome, List.find?_isSome]
  simp

theorem or_eq_or_iff {α : Type} {a b c : Option α} (alike : a.isSome = b.isSome) :
    a.or c = b.or c ↔ a = b := by
  cases a <;> cases b <;> simp_all

/-- Of a list that is given to a resource and to a component beside it, the resource has the first
provider for its package, and a like resource inside the component has the last one. If there is
none in the list, both have what their common parent hands down. So they have the same provider
exactly if the first in the list for the package is the last. -/
theorem given_both_ways_iff (chronicle : Chronicle engine log l) {providers : List Key}
    {package : String} {single group member : Enrolment}
    (both : GivenBothWays providers package single group member)
    (registered : single ∈ log ∧ group ∈ log ∧ member ∈ log) :
    let first := providers.find? fun key => l.deployment.providerPackage key == some package
    let last := providers.reverse.find? fun key => l.deployment.providerPackage key == some package
    let inherited := (l.deployment.standing single.parent).providers.lookup package
    single.job.provider = first.or inherited ∧ member.job.provider = last.or inherited ∧
      (member.job.provider = single.job.provider ↔ first = last) := by
  intro first last inherited
  obtain ⟨registered, registered', registered''⟩ := registered
  obtain ⟨inOrder, inOrder', inOrder''⟩ := both.inOrder
  have handed : inherited = handedDown l.deployment.providerPackage (lineage log single.parent)
      package := (chronicle.recorded.flattens_standing single.parent).providers package
  have single_eq : single.job.provider = first.or inherited := by
    rw [chronicle.provider_eq registered inOrder both.custom, both.resolved_single, handed]
  have member_eq : member.job.provider = last.or inherited := by
    rw [chronicle.provider_eq registered'' inOrder'' both.custom', both.inside,
      chronicle.lineage_eq registered' inOrder', both.resolved_member, both.beside, handed]
  refine ⟨single_eq, member_eq, ?_⟩
  have alike : last.isSome = first.isSome := find?_reverse_isSome providers _
  rw [single_eq, member_eq, or_eq_or_iff alike]
  exact eq_comm

/-! ### A list with two providers -/

/-- Another provider, for another package if it is `foreign`. -/
def spareSpec (foreign : Bool) : ResourceSpec :=
  { kind := .provider, type := if foreign then "pulumi:providers:gcp" else "pulumi:providers:pkg"
    name := "spare" }

/-- A custom resource that is given both. -/
def shedSpec : ResourceSpec :=
  { kind := .custom, type := "pkg:index:Thing", name := "shed", options := { providers := [0, 1] } }

/-- A component that is given both. -/
def yardSpec : ResourceSpec :=
  { kind := .component, type := "pkg:index:Yard", name := "yard"
    options := { providers := [0, 1] } }

def coopSpec : ResourceSpec :=
  { kind := .custom, type := "pkg:index:Thing", name := "coop", options := { parent := some 3 } }

def farm (foreign : Bool) : Ledger Unit :=
  (((((initial {} ()).registering keeperSpec).registering (spareSpec foreign)).registering
    shedSpec).registering yardSpec).registering coopSpec

def spareJob (foreign : Bool) : Registration :=
  { key := 1, type := (spareSpec foreign).type, name := "spare", kind := .provider, parent := none
    args := [], options := {}, provider := none, explicitProviders := [], protect := none
    urnSlot := 2, idSlot := some 3, outputs := [] }

def shedJob : Registration :=
  { key := 2, type := shedSpec.type, name := "shed", kind := .custom, parent := none, args := []
    options := shedSpec.options, provider := some 0, explicitProviders := [], protect := none
    urnSlot := 4, idSlot := some 5, outputs := [] }

def yardJob (foreign : Bool) : Registration :=
  { key := 3, type := yardSpec.type, name := "yard", kind := .component, parent := none, args := []
    options := yardSpec.options, provider := none
    explicitProviders := if foreign then [("gcp", 1), ("pkg", 0)] else [("pkg", 1)]
    protect := none, urnSlot := 6, idSlot := none, outputs := [] }

def coopJob (foreign : Bool) : Registration :=
  { key := 4, type := coopSpec.type, name := "coop", kind := .custom, parent := some 3, args := []
    options := coopSpec.options, provider := some (if foreign then 0 else 1)
    explicitProviders := [], protect := none, urnSlot := 7, idSlot := some 8, outputs := [] }

def shed : Enrolment := ⟨shedSpec, none, shedSpec.options, [], shedJob⟩

def yard (foreign : Bool) : Enrolment := ⟨yardSpec, none, yardSpec.options, [], yardJob foreign⟩

def coop (foreign : Bool) : Enrolment := ⟨coopSpec, some 3, coopSpec.options, [], coopJob foreign⟩

theorem farm_given (foreign : Bool) :
    GivenBothWays [0, 1] "pkg" shed (yard foreign) (coop foreign) where
  custom := rfl
  component := rfl
  custom' := rfl
  typed := by decide
  same := rfl
  listed := ⟨rfl, rfl⟩
  listed' := ⟨rfl, rfl⟩
  unlisted := ⟨rfl, rfl⟩
  beside := rfl
  inside := rfl
  inOrder := by
    refine ⟨?_, ?_, ?_⟩ <;> rintro parent ⟨⟩
    exact (by decide : 3 < 4)

theorem farm_chronicle (foreign : Bool) : ∃ log, Chronicle obliging log (farm foreign) ∧
    shed ∈ log ∧ yard foreign ∈ log ∧ coop foreign ∈ log := by
  have start : Chronicle obliging [] (initial {} ()) := .start {} ()
  have keeper := start.registering keeperSpec {} keeperJob rfl rfl rfl rfl
  cases foreign with
  | true =>
    have spare := keeper.registering (spareSpec true) {} (spareJob true) rfl rfl rfl rfl
    have shed := spare.registering shedSpec shedSpec.options shedJob rfl rfl rfl rfl
    have yard := shed.registering yardSpec yardSpec.options (yardJob true) rfl rfl rfl rfl
    have coop := yard.registering coopSpec coopSpec.options (coopJob true) rfl rfl rfl rfl
    exact ⟨_, coop, .tail _ (.tail _ (.head _)), .tail _ (.head _), .head _⟩
  | false =>
    have spare := keeper.registering (spareSpec false) {} (spareJob false) rfl rfl rfl rfl
    have shed := spare.registering shedSpec shedSpec.options shedJob rfl rfl rfl rfl
    have yard := shed.registering yardSpec yardSpec.options (yardJob false) rfl rfl rfl rfl
    have coop := yard.registering coopSpec coopSpec.options (coopJob false) rfl rfl rfl rfl
    exact ⟨_, coop, .tail _ (.tail _ (.head _)), .tail _ (.head _), .head _⟩

/-- Only one of the providers is for the package, so both resources have it. -/
theorem given_both_ways_iff_farm : ∃ log, Chronicle obliging log (farm true) ∧
    GivenBothWays [0, 1] "pkg" shed (yard true) (coop true) ∧
      (shed ∈ log ∧ yard true ∈ log ∧ coop true ∈ log) ∧
      (coop true).job.provider = shed.job.provider := by
  obtain ⟨log, chronicle, registered⟩ := farm_chronicle true
  obtain ⟨-, -, same⟩ := given_both_ways_iff chronicle (farm_given true) registered
  exact ⟨log, chronicle, farm_given true, registered, same.mpr rfl⟩

/-- With two providers for the package the resources can differ: the one that is given the list has
the first, and the one in the component the last. -/
theorem given_both_ways_differ : ¬ ∀ (l : Ledger Unit) (log : List Enrolment)
    (providers : List Key) (package : String) (single group member : Enrolment),
    Chronicle obliging log l → GivenBothWays providers package single group member →
      single ∈ log ∧ group ∈ log ∧ member ∈ log →
      member.job.provider = single.job.provider := by
  intro alike
  obtain ⟨log, chronicle, registered⟩ := farm_chronicle false
  have same : (coop false).job.provider = shed.job.provider :=
    alike _ log [0, 1] "pkg" _ _ _ chronicle (farm_given false) registered
  exact absurd same (by decide)

end Ledger

end Provision
