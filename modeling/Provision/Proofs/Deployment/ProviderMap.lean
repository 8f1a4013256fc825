import Provision.Proofs.Deployment.Inheritance

/-!
# Which packages providers stand under

Children inherit providers by package. A component enters the providers given to it under their own
packages, and what a custom resource finds in a list or inherits is looked up by package. But the
single provider that is given to a custom resource is entered under the package of that resource's
type, whatever package it is for. An entry stands under a foreign package exactly if a registration
of the lineage has put it there in this way (`provider_entries_iff`).
-/

namespace Provision

namespace Enrolment

open Deployment

variable {packageOf : Key → Option String} {e : Enrolment} {chain : List Enrolment}
  {inherited : String → Option Key} {package : String} {provider : Key}

/-- A custom resource for one package is given a provider that is not for it. -/
structure Misplaces (packageOf : Key → Option String) (e : Enrolment) (package : String)
    (provider : Key) : Prop where
  custom : e.spec.kind = .custom
  typed : packageOf? e.spec.type = some package
  given : e.options.provider = some provider
  foreign : packageOf provider ≠ some package

/-- An entry that a resource sets is a provider that was given to it, and is for the package or
misplaced, or it is inherited. -/
theorem entry_cases (set : entry packageOf e inherited package = some provider) :
    (provider ∈ givenProviders e.options ∧
        (packageOf provider = some package ∨ e.Misplaces packageOf package provider)) ∨
      inherited package = some provider := by
  have listed (found : (givenProviders e.options).reverse.find?
      (fun key => packageOf key == some package) = some provider) :
      provider ∈ givenProviders e.options ∧
        (packageOf provider = some package ∨ e.Misplaces packageOf package provider) :=
    ⟨List.mem_reverse.mp (List.mem_of_find?_eq_some found),
      .inl (by simpa using List.find?_some found)⟩
  unfold entry at set
  split at set
  · exact .inl (listed set)
  · exact .inl (listed set)
  · rename_i custom
    split at set
    · rename_i typed
      unfold resolved at set
      rw [typed, Option.bind_some] at set
      rcases Option.or_eq_some_iff.mp set with single | ⟨-, set⟩
      · refine .inl ⟨List.mem_append_left _ (by simp [single]), ?_⟩
        by_cases own : packageOf provider = some package
        · exact .inl own
        · exact .inr ⟨custom, typed, single, own⟩
      · rcases Option.or_eq_some_iff.mp set with found | ⟨-, set⟩
        · exact .inl ⟨List.mem_append_right _ (List.mem_of_find?_eq_some found),
            .inl (by simpa using List.find?_some found)⟩
        · exact .inr set
    · cases set
  · cases set
  · cases set

/-- What a lineage hands down was given to one of it, and is for the package or misplaced there. -/
theorem handedDown_given (handed : handedDown packageOf chain package = some provider) :
    ∃ e ∈ chain, provider ∈ givenProviders e.options ∧
      (packageOf provider = some package ∨ e.Misplaces packageOf package provider) := by
  induction chain with
  | nil => cases handed
  | cons e above ih =>
    have later (handed : handedDown packageOf above package = some provider) :
        ∃ other ∈ e :: above, provider ∈ givenProviders other.options ∧
          (packageOf provider = some package ∨ other.Misplaces packageOf package provider) := by
      obtain ⟨other, member, given⟩ := ih handed
      exact ⟨other, List.mem_cons_of_mem _ member, given⟩
    unfold handedDown at handed
    rcases Option.or_eq_some_iff.mp handed with set | ⟨-, handed⟩
    · rcases entry_cases set with given | handed
      · exact ⟨e, List.mem_cons_self, given⟩
      · exact later handed
    · exact later handed

/-- What a resource misplaces is what it hands down. -/
theorem Misplaces.handedDown_eq {above : List Enrolment}
    (misplaces : e.Misplaces packageOf package provider) :
    handedDown packageOf (e :: above) package = some provider := by
  unfold handedDown entry
  simp [misplaces.custom, misplaces.typed, resolved, misplaces.given]

end Enrolment

namespace Ledger

open Deployment Enrolment

variable {σ : Type} {engine : Engine σ} {l : Ledger σ} {log : List Enrolment}

/-- Whatever children of a resource inherit is a provider. It is for the package that it stands
under, unless a registration of the lineage has misplaced it; and all resources together have their
providers under the right packages exactly if no registration has misplaced one. -/
theorem provider_entries_iff (chronicle : Chronicle engine log l) :
    (∀ key package provider,
        (l.deployment.arena.inheritance key).providers.lookup package = some provider →
          l.deployment.isProvider provider = true ∧
            (l.deployment.providerPackage provider = some package ↔
              ∀ e ∈ lineage log (some key),
                ¬ e.Misplaces l.deployment.providerPackage package provider)) ∧
      ((∀ key package provider,
          (l.deployment.arena.inheritance key).providers.lookup package = some provider →
            l.deployment.providerPackage provider = some package) ↔
        ∀ e ∈ log, ∀ package provider,
          ¬ e.Misplaces l.deployment.providerPackage package provider) := by
  have recorded := chronicle.recorded
  have entries {key : Key} {package : String} {provider : Key}
      (stands : (l.deployment.arena.inheritance key).providers.lookup package = some provider) :
      ∃ e ∈ lineage log (some key), provider ∈ givenProviders e.options ∧
        (l.deployment.providerPackage provider = some package ∨
          e.Misplaces l.deployment.providerPackage package provider) :=
    handedDown_given (((recorded.flattens key).providers package).symm.trans stands)
  refine ⟨fun key package provider stands => ?_, fun right e member package provider wrong => ?_,
    fun right key package provider stands => ?_⟩
  · obtain ⟨e, member, given, placed⟩ := entries stands
    refine ⟨recorded.given e (mem_of_mem_lineage member) provider given,
      fun own other _ wrong => wrong.foreign own, fun right => ?_⟩
    exact placed.resolve_right (right e member)
  · obtain ⟨above, chain, -⟩ := recorded.inherits e member
    refine wrong.foreign (right e.job.key package provider ?_)
    rw [(recorded.flattens e.job.key).providers, chain]
    exact wrong.handedDown_eq
  · obtain ⟨e, member, -, placed⟩ := entries stands
    exact placed.resolve_right (right e (mem_of_mem_lineage member) package provider)

/-! ### A foreign provider -/

def cloudSpec : ResourceSpec :=
  { kind := .provider, type := "pulumi:providers:gcp", name := "cloud" }

/-- A resource of another package, to which it is given. -/
def guestSpec : ResourceSpec :=
  { kind := .custom, type := "aws:index:Thing", name := "guest", options := { provider := some 0 } }

def infantSpec : ResourceSpec :=
  { kind := .custom, type := "aws:index:Thing", name := "infant", options := { parent := some 1 } }

def mixed : Ledger Unit :=
  (((initial {} ()).registering cloudSpec).registering guestSpec).registering infantSpec

def cloudJob : Registration :=
  { key := 0, type := cloudSpec.type, name := "cloud", kind := .provider, parent := none
    args := [], options := {}, provider := none, explicitProviders := [], protect := none
    urnSlot := 0, idSlot := some 1, outputs := [] }

def guestJob : Registration :=
  { key := 1, type := guestSpec.type, name := "guest", kind := .custom, parent := none
    args := [], options := guestSpec.options, provider := some 0, explicitProviders := []
    protect := none, urnSlot := 2, idSlot := some 3, outputs := [] }

def infantJob : Registration :=
  { key := 2, type := infantSpec.type, name := "infant", kind := .custom, parent := some 1
    args := [], options := infantSpec.options, provider := some 0, explicitProviders := []
    protect := none, urnSlot := 4, idSlot := some 5, outputs := [] }

theorem mixed_chronicle : ∃ log, Chronicle obliging log mixed := by
  have start : Chronicle obliging [] (initial {} ()) := .start {} ()
  have cloud := start.registering cloudSpec {} cloudJob rfl rfl rfl rfl
  have guest := cloud.registering guestSpec guestSpec.options guestJob rfl rfl rfl rfl
  have infant := guest.registering infantSpec infantSpec.options infantJob rfl rfl rfl rfl
  exact ⟨_, infant⟩

/-- The infant's provider for the one package is for the other, so one of its lineage has misplaced
it. -/
theorem provider_entries_iff_mixed : ∃ log, Chronicle obliging log mixed ∧
    mixed.deployment.isProvider 0 = true ∧
      ∃ e ∈ lineage log (some 2), e.Misplaces mixed.deployment.providerPackage "aws" 0 := by
  obtain ⟨log, chronicle⟩ := mixed_chronicle
  obtain ⟨isProvider, placed⟩ := (provider_entries_iff chronicle).1 2 "aws" 0 rfl
  refine ⟨log, chronicle, isProvider, ?_⟩
  have foreign : mixed.deployment.providerPackage 0 ≠ some "aws" := by decide
  simpa using mt placed.mpr foreign

/-- A program can bring it about that a provider for the one package is inherited for the other. -/
theorem foreign_provider_inherited : ∃ l : Ledger Unit, Reachable obliging l ∧
    (l.deployment.arena.inheritance 2).providers.lookup "aws" = some 0 ∧
      l.deployment.isProvider 0 = true ∧ l.deployment.providerPackage 0 = some "gcp" := by
  have start : Reachable obliging (initial {} ()) := ⟨{}, (), .here⟩
  have cloud : Reachable obliging ((initial {} ()).registering cloudSpec) := start.registering rfl
  have guest : Reachable obliging (((initial {} ()).registering cloudSpec).registering guestSpec) :=
    cloud.registering rfl
  have infant : Reachable obliging mixed := guest.registering rfl
  exact ⟨mixed, infant, rfl, rfl, rfl⟩

end Ledger

end Provision
