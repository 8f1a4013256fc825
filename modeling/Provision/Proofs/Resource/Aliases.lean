import Provision.Proofs.Urn.Ancestry
import Provision.Resource.Basic

/-!
# The URN of an alias

An alias says what was different in an earlier identity of a resource. Its URN is put together
like that of a child of the parent that it names. So the stack and project of the alias stand in
it only where the parent's URN does not bring its own: below a parent that is no root stack they
have to be the parent's already (`collapses_as_documented_iff`).
-/

namespace Provision

open Urn (Ancestry)

namespace AliasSpec

def header (changes : AliasSpec) (settings : Settings) : String :=
  changes.stack.getD settings.stack ++ "::" ++ changes.project.getD settings.project

/-- The URN of an alias in the stack and project of the header, with the types of the parent and
its ancestors. -/
def urnIn (changes : AliasSpec) (header name type : String) (parent : Option Ancestry) : String :=
  "urn:pulumi:" ++ header ++ "::" ++ parent.elim "" Ancestry.childQualifier ++
    changes.type.getD type ++ "::" ++ changes.name.getD name

end AliasSpec

namespace Alias

/-- The URN of the resource is known, and it was made for the ancestry. -/
def UrnKnown (urnOf : Key → Option (Settled String)) (key : Key) (ancestry : Ancestry) : Prop :=
  ∃ data : Data String, urnOf key = some (.ok data) ∧ data.value = some ancestry.urn

/-- What an alias of a resource below `own` names as the parent: nothing, or something whose URN is
known. -/
inductive ParentKnown (urnOf : Key → Option (Settled String)) (own : Option Key) :
    AliasParent → Option Ancestry → Prop where
  | inherited {key : Key} {above : Ancestry} (parent : own = some key)
      (known : UrnKnown urnOf key above) : ParentKnown urnOf own .inherit (some above)
  | nothingInherited (outermost : own = none) : ParentKnown urnOf own .inherit none
  | noParent : ParentKnown urnOf own .none none
  | resource {key : Key} {above : Ancestry} (known : UrnKnown urnOf key above) :
      ParentKnown urnOf own (.resource key) (some above)
  | urn (above : Ancestry) : ParentKnown urnOf own (.urn above.urn) (some above)

variable {urnOf : Key → Option (Settled String)} {own : Option Key} {changes : AliasSpec}
  {parent : Option Ancestry}

theorem UrnKnown.map {key : Key} {above : Ancestry} (known : UrnKnown urnOf key above)
    (f : String → String) :
    ∃ data, (urnOf key).map (fun r => r.map (Data.map f)) = some (.ok data) ∧
      data.value = some (f above.urn) := by
  obtain ⟨data, here, value⟩ := known
  refine ⟨data.map f, ?_, ?_⟩
  · rw [here]
    rfl
  · unfold Data.map
    rw [value]
    rfl

/-- Whatever an alias names as the parent, its URN is made like that of a child. -/
theorem collapse_eq (settings : Settings) (name type : String)
    (known : ParentKnown urnOf own changes.parent parent) :
    ∃ data, (Alias.spec changes).collapse settings urnOf name type own = some (.ok data) ∧
      data.value = some (Urn.create (changes.name.getD name) (changes.type.getD type)
        (parent.map Ancestry.urn) (changes.project.getD settings.project)
        (changes.stack.getD settings.stack)) := by
  unfold collapse
  dsimp only
  generalize changes.parent = named at known
  cases known with
  | inherited inherits known =>
    subst inherits
    exact known.map _
  | nothingInherited outermost =>
    subst outermost
    exact ⟨_, rfl, rfl⟩
  | noParent => exact ⟨_, rfl, rfl⟩
  | resource known => exact known.map _
  | urn above => exact ⟨_, rfl, rfl⟩

/-- An alias collapses to the URN in its stack and project, with the types of the parent's
ancestors, exactly if the URN of the parent fits. With ordinary names and types that is so below a
root stack, or if the parent is in the same stack and project; otherwise the URN is in the stack
and project of the parent. -/
theorem collapses_as_documented_iff (settings : Settings) (changes : AliasSpec)
    (name type : String) (known : ParentKnown urnOf own changes.parent parent) :
    ∃ data urn, (Alias.spec changes).collapse settings urnOf name type own = some (.ok data) ∧
      data.value = some urn ∧
      (urn = changes.urnIn (changes.header settings) name type parent ↔
        ∀ above ∈ parent, above.Fits (changes.header settings)) ∧
      ∀ above ∈ parent, above.Ordinary →
        (above.Fits (changes.header settings) ↔
          above.IsRootStack ∨ above.header = changes.header settings) ∧
        urn = changes.urnIn (above.childHeader (changes.header settings)) name type parent := by
  obtain ⟨data, collapses, value⟩ := collapse_eq settings name type known
  refine ⟨data, _, collapses, value, ?_, fun above here ordinary => ⟨ordinary.fits_iff _, ?_⟩⟩
  · cases parent with
    | none =>
      have same : Urn.create (changes.name.getD name) (changes.type.getD type) none
          (changes.project.getD settings.project) (changes.stack.getD settings.stack) =
            changes.urnIn (changes.header settings) name type none := by
        unfold AliasSpec.urnIn AliasSpec.header
        rw [Urn.create_none, Option.elim_none, String.append_empty]
        simp only [String.append_assoc]
      exact iff_of_true same nofun
    | some above =>
      simp only [Option.mem_def, Option.some.injEq, forall_eq']
      exact Ancestry.create_eq_iff_fits
  · obtain rfl : parent = some above := here
    exact ordinary.create_of_urn ordinary.urn_eq

def network : Ancestry := .outermost "net" "pkg:index:Network" "app" "dev"

def networkUrn : Key → Option (Settled String) := fun _ => some (.ok (.known network.urn))

def app : Settings := { project := "app", stack := "dev" }

theorem network_known : ParentKnown networkUrn (some 0) .inherit (some network) :=
  .inherited rfl ⟨_, rfl, rfl⟩

/-- A widget in the network had another name. -/
theorem collapses_as_documented_iff_renamed :
    ParentKnown networkUrn (some 0) .inherit (some network) ∧
    ∃ data, (Alias.spec { name := some "old" }).collapse app networkUrn "w1" "pkg:index:Widget"
        (some 0) = some (.ok data) ∧
      data.value = some "urn:pulumi:dev::app::pkg:index:Network$pkg:index:Widget::old" := by
  obtain ⟨data, urn, collapses, value, documented, ordinary⟩ :=
    collapses_as_documented_iff app { name := some "old" } "w1" "pkg:index:Widget" network_known
  have plain : network.Ordinary := ⟨by decide, by decide⟩
  have fits : network.Fits (AliasSpec.header { name := some "old" } app) :=
    (ordinary network rfl plain).1.mpr (.inr (by decide))
  have named := documented.mpr fun above here => Option.some.inj here ▸ fits
  refine ⟨network_known, data, collapses, ?_⟩
  rw [value, named]
  decide

/-- Below a parent in the stack `dev` an alias cannot name another stack. -/
theorem stack_of_alias_lost :
    ¬ ∀ (settings : Settings) (urnOf : Key → Option (Settled String)) (own : Option Key)
      (changes : AliasSpec) (name type : String) (parent : Option Ancestry),
      ParentKnown urnOf own changes.parent parent →
      ∃ data, (Alias.spec changes).collapse settings urnOf name type own = some (.ok data) ∧
        data.value = some (changes.urnIn (changes.header settings) name type parent) := by
  intro documented
  obtain ⟨data, collapses, value⟩ := documented app networkUrn (some 0) { stack := some "prod" }
    "w1" "pkg:index:Widget" (some network) network_known
  cases collapses
  exact absurd value (by decide)

end Alias

end Provision
