import Provision.Proofs.Deployment.Lineage

/-!
# Registrations that are refused

A registration is refused before anything is made for it: for an empty text, for a transformation
that moves the resource under another parent, or for the providers among the options that the
transformations leave (`Refuses`). All that a refusal does is to give up the slots of the
properties that were declared for the resource (`GivesUp`). No task is started, so nothing is asked
of the engine on its behalf either then or later (`refusal_leaves_deployment`).
-/

namespace Provision

theorem Slot.drop_drop {V : Type} (slot : Slot V) : slot.drop.drop = slot.drop := by
  obtain ⟨name, outcome⟩ := slot
  cases outcome <;> rfl

def ResourceSpec.input (spec : ResourceSpec) : TransformationInput :=
  { type := spec.type, name := spec.name, kind := spec.kind, args := spec.args
    options := spec.options }

/-- The resource that is registered as a provider for a package, or else as it is. -/
def ResourceSpec.providing (spec : ResourceSpec) : Option String → ResourceSpec
  | some package => { spec with kind := .provider, type := providerType package }
  | none => spec

namespace Deployment

variable {d : Deployment} {spec : ResourceSpec} {cause : Failure}

/-- Register a provider for a package, or else a resource of another kind. -/
def registerAs (package : Option String) (spec : ResourceSpec) (d : Deployment) :
    Registering Key × Deployment :=
  match package with
  | some package => d.registerProvider package spec
  | none => d.register spec

/-- The transformations that a registration runs: those of the parent in force and the ones above
it, and then its own. -/
def pipeline (d : Deployment) (spec : ResourceSpec) : List Transformation :=
  (d.standing (d.effectiveParent spec)).transformations ++ spec.transformations

/-! ### Reasons -/

/-- One of the transformations moves the resource under another parent than it had when those
before it were through. -/
def MovesParent (ts : List Transformation) (input : TransformationInput) : Prop :=
  ∃ before t after result, ts = before ++ t :: after ∧
    t.run (before.foldl TransformationInput.after input) = some result ∧
    result.options.parent ≠ (before.foldl TransformationInput.after input).options.parent

/-- What a registration is refused for, with the text. The providers are judged by the options
that all transformations have left. -/
inductive Refuses (d : Deployment) (spec : ResourceSpec) : Failure → Prop where
  | type (empty : spec.type = "") : Refuses d spec (.invalidArgument "type" "must not be empty")
  | name (empty : spec.name = "") : Refuses d spec (.invalidArgument "name" "must not be empty")
  | parent (moves : MovesParent (d.pipeline spec) spec.input) :
      Refuses d spec (.parentChanged spec.name)
  | conflicting {last : TransformationInput}
      (left : (d.pipeline spec).foldl TransformationInput.after spec.input = last)
      (component : spec.kind.isComponent = true) (single : last.options.provider.isSome = true)
      (several : last.options.providers ≠ []) : Refuses d spec (.conflictingProviders spec.name)
  | provider {last : TransformationInput} {key : Key}
      (left : (d.pipeline spec).foldl TransformationInput.after spec.input = last)
      (given : key ∈ givenProviders last.options) (other : d.isProvider key = false) :
      Refuses d spec (.invalidArgument "provider" (d.nameOf key ++ " is not a provider resource"))

theorem MovesParent.cons {t : Transformation} {rest : List Transformation}
    {input : TransformationInput} (moves : MovesParent rest (input.after t)) :
    MovesParent (t :: rest) input := by
  obtain ⟨before, u, after, result, rfl, ran, moved⟩ := moves
  exact ⟨t :: before, u, after, result, rfl, ran, moved⟩

/-- Transformations are refused for one of them that moves the resource. -/
theorem transform_refused {kind : ResourceKind} {type name : String} {ts : List Transformation}
    {args : Arguments} {options : Options} {runs : List TransformationRun}
    (refused : transform kind type name ts args options = (.error cause, runs)) :
    cause = .parentChanged name ∧ MovesParent ts ⟨type, name, kind, args, options⟩ := by
  induction ts generalizing args options runs with
  | nil => cases refused
  | cons t rest ih =>
    -- What is refused later is refused after this one.
    have later {args' : Arguments} {options' : Options} {runs' : List TransformationRun}
        (left : TransformationInput.after ⟨type, name, kind, args, options⟩ t =
          ⟨type, name, kind, args', options'⟩)
        (refused : transform kind type name rest args' options' = (.error cause, runs')) :
        cause = .parentChanged name ∧
          MovesParent (t :: rest) ⟨type, name, kind, args, options⟩ := by
      obtain ⟨text, moves⟩ := ih refused
      exact ⟨text, .cons (left ▸ moves)⟩
    unfold transform at refused
    dsimp only at refused
    cases ran : t.run ⟨type, name, kind, args, options⟩ with
    | none =>
      rw [ran] at refused
      dsimp only at refused
      generalize next : transform kind type name rest args options = r at refused
      obtain ⟨outcome, tail⟩ := r
      cases refused
      exact later (by simp [TransformationInput.after, ran]) next
    | some result =>
      rw [ran] at refused
      dsimp only at refused
      split at refused
      · rename_i moved
        cases refused
        exact ⟨rfl, [], t, rest, result, rfl, ran, moved⟩
      · generalize next : transform kind type name rest result.args result.options = r at refused
        obtain ⟨outcome, tail⟩ := r
        cases refused
        exact later (by simp [TransformationInput.after, ran]) next

/-- The check of the providers fails for two ways to give them, or for one that is none. -/
theorem checkProviders_refused {options : Options}
    (refused : d.checkProviders spec options = .error cause) :
    (cause = .conflictingProviders spec.name ∧ spec.kind.isComponent = true ∧
        options.provider.isSome = true ∧ options.providers ≠ []) ∨
      ∃ key ∈ givenProviders options, d.isProvider key = false ∧
        cause = .invalidArgument "provider" (d.nameOf key ++ " is not a provider resource") := by
  unfold checkProviders at refused
  split at refused
  · rename_i both
    cases refused
    simp only [Bool.and_eq_true, Bool.not_eq_true', List.isEmpty_eq_false_iff] at both
    exact .inl ⟨rfl, both.1.1, both.1.2, both.2⟩
  · split at refused
    · rename_i key found
      cases refused
      exact .inr ⟨key, List.mem_of_find?_eq_some found, by simpa using List.find?_some found, rfl⟩
    · cases refused

theorem prepare_refused {runs : List TransformationRun}
    (refused : d.prepare spec = (.error cause, runs)) : d.Refuses spec cause := by
  unfold prepare at refused
  rw [standing_transformations] at refused
  split at refused
  · rename_i empty
    cases refused
    exact .type empty
  · split at refused
    · rename_i empty
      cases refused
      exact .name empty
    · dsimp only at refused
      split at refused
      · rename_i transformed
        cases refused
        obtain ⟨rfl, moves⟩ := transform_refused transformed
        exact .parent moves
      · rename_i args options runs' transformed
        have left := (transform_ok transformed).settled
        split at refused
        · rename_i checked
          cases refused
          rcases checkProviders_refused checked with
            ⟨rfl, component, single, several⟩ | ⟨key, given, other, rfl⟩
          · exact .conflicting left component single several
          · exact .provider left given other
        · cases refused

/-- A registration is refused for a reason, and gives up the slots of its outputs. -/
theorem register_refused (refused : (d.register spec).1.outcome = .error cause) :
    d.Refuses spec cause ∧ (d.register spec).2 = d.giveUp spec.outputs := by
  refine ⟨?_, Ledger.register_refused refused⟩
  unfold register at refused
  split at refused
  · rename_i prepared
    cases refused
    exact prepare_refused prepared
  · cases refused

theorem registerAs_refused {package : Option String}
    (refused : (d.registerAs package spec).1.outcome = .error cause) :
    (package = some "" ∧ cause = .invalidArgument "package" "must not be empty" ∨
        d.Refuses (spec.providing package) cause) ∧
      (d.registerAs package spec).2 = d.giveUp spec.outputs := by
  cases package with
  | none =>
    obtain ⟨reason, left⟩ := register_refused refused
    exact ⟨.inr reason, left⟩
  | some package =>
    unfold registerAs registerProvider at refused ⊢
    by_cases empty : package = ""
    · simp only [if_pos empty] at refused ⊢
      cases refused
      exact ⟨.inl ⟨congrArg some empty, rfl⟩, trivial⟩
    · simp only [if_neg empty] at refused ⊢
      obtain ⟨reason, left⟩ := register_refused refused
      exact ⟨.inr reason, left⟩

/-! ### What is left -/

/-- Nothing but the slots of declared properties has changed: those that were open have failed. -/
structure GivesUp (declared : List DeclaredOutput) (before after : Deployment) : Prop where
  rest : after = { before with graph := { before.graph with slots := after.graph.slots } }
  others : ∀ n, n ∉ declared.map DeclaredOutput.slot →
    after.graph.slots[n]? = before.graph.slots[n]?
  settled : ∀ n result, before.graph.Holds n result → after.graph.Holds n result
  failed : ∀ o ∈ declared, ∀ name, before.graph.slots[o.slot]? = some ⟨name, none⟩ →
    after.graph.peek (.slot o.slot) =
      some (.error (.registrationFailed name "completion slot dropped before it was resolved"))

/-- The slots of declared properties are given up, and no others. -/
theorem giveUp_slots (declared : List DeclaredOutput) (d : Deployment) (n : Nat) :
    (d.giveUp declared).graph.slots[n]? =
      if n ∈ declared.map DeclaredOutput.slot then d.graph.slots[n]?.map Slot.drop
      else d.graph.slots[n]? := by
  suffices ∀ graph : Graph HostValue,
      (declared.foldl (fun graph o => graph.drop o.slot) graph).slots[n]? =
        if n ∈ declared.map DeclaredOutput.slot then graph.slots[n]?.map Slot.drop
        else graph.slots[n]? from this d.graph
  induction declared with
  | nil => exact fun graph => by simp
  | cons o rest ih =>
    intro graph
    rw [List.foldl_cons, ih]
    by_cases here : o.slot = n
    · subst here
      by_cases again : o.slot ∈ rest.map DeclaredOutput.slot
      · simp [again, Graph.drop, Function.comp_def, Slot.drop_drop]
      · simp [again, Graph.drop]
    · simp [here, Ne.symm here, Graph.drop]

theorem giveUp_cells (declared : List DeclaredOutput) (d : Deployment) :
    (d.giveUp declared).graph.cells = d.graph.cells := by
  suffices ∀ graph : Graph HostValue,
      (declared.foldl (fun graph o => graph.drop o.slot) graph).cells = graph.cells from
    this d.graph
  induction declared with
  | nil => exact fun _ => rfl
  | cons o rest ih => exact fun graph => ih (graph.drop o.slot)

theorem giveUp_gives (declared : List DeclaredOutput) (d : Deployment) :
    GivesUp declared d (d.giveUp declared) where
  rest := by
    show d.giveUp declared = { d with graph := ⟨(d.giveUp declared).graph.slots, d.graph.cells⟩ }
    rw [← giveUp_cells declared d]
    rfl
  others := fun n apart => by rw [giveUp_slots, if_neg apart]
  settled := (giveUp_writes declared d).resolved
  failed := fun o member name isOpen => by
    have dropped := giveUp_slots declared d o.slot
    rw [if_pos (List.mem_map_of_mem member), isOpen] at dropped
    unfold Graph.peek Graph.observe Graph.observeWithin
    rw [dropped]
    rfl

/-- While somebody owns a collection of declared properties, all its slots are open. -/
theorem Owned.isOpen_of_held {held : List (List DeclaredOutput)} {own : List Nat}
    (owned : d.Owned held own) {declared : List DeclaredOutput} (holds : declared ∈ held)
    {o : DeclaredOutput} (member : o ∈ declared) : d.graph.IsOpen o.slot := by
  refine owned.isOpen _ (List.mem_append_left _ (List.mem_map_of_mem ?_))
  exact List.mem_flatten.mpr ⟨declared, holds, member⟩

end Deployment

namespace World

open Deployment

variable {σ : Type}

def registerAs (package : Option String) (spec : ResourceSpec) (w : World σ) :
    Registering Key × World σ :=
  let (r, d) := w.deployment.registerAs package spec
  (r, { w with deployment := d })

/-- A registration that is refused is refused for a reason, and leaves the engine and the
deployment as they were: the resources and their children, the index of URNs, the tasks and which
of them are tracked, the warnings, the root stack. Only the slots of the properties that were
declared for it change, from open to failed. In a program they are all open until then, so all of
these outputs fail. -/
theorem refusal_leaves_deployment (w : World σ) (package : Option String) (spec : ResourceSpec)
    {cause : Failure} (refused : (w.registerAs package spec).1.outcome = .error cause) :
    (package = some "" ∧ cause = .invalidArgument "package" "must not be empty" ∨
        w.deployment.Refuses (spec.providing package) cause) ∧
      (w.registerAs package spec).2.engine = w.engine ∧
      GivesUp spec.outputs w.deployment (w.registerAs package spec).2.deployment ∧
      ∀ (engine : Engine σ) (l : Ledger σ), l.Reachable engine → l.world = w →
        spec.outputs ∈ l.held → ∀ o ∈ spec.outputs,
          ∃ name, (w.registerAs package spec).2.deployment.graph.peek (.slot o.slot) =
            some (.error
              (.registrationFailed name "completion slot dropped before it was resolved")) := by
  obtain ⟨reason, left⟩ := registerAs_refused refused
  have gives : GivesUp spec.outputs w.deployment (w.registerAs package spec).2.deployment := by
    have whole : (w.registerAs package spec).2.deployment = w.deployment.giveUp spec.outputs := left
    rw [whole]
    exact giveUp_gives spec.outputs w.deployment
  refine ⟨reason, rfl, gives, ?_⟩
  rintro engine l reachable rfl holds o member
  obtain ⟨name, isOpen⟩ := reachable.sound.owned.isOpen_of_held holds member
  exact ⟨name, gives.failed o member name isOpen⟩

/-- A resource whose last transformation moves it under another parent. -/
def strayed : ResourceSpec :=
  { kind := .custom, type := "pkg:index:Thing", name := "stray"
    transformations :=
      [⟨"protect", fun input => some ⟨input.args, { input.options with protect := some true }⟩⟩,
        ⟨"move", fun input => some ⟨input.args, { input.options with parent := some 0 }⟩⟩]
    outputs := [⟨"size", 0, ⟨.int, []⟩⟩] }

/-- It is refused after both have run, and its output fails. -/
theorem refusal_leaves_deployment_strayed :
    let w : World Unit := ⟨(Deployment.addSlot "size" {}).2, ()⟩
    (w.registerAs none strayed).1.outcome = .error (.parentChanged "stray") ∧
      (w.registerAs none strayed).1.runs.map Prod.fst = ["protect", "move"] ∧
      (w.registerAs none strayed).2.deployment.arena = w.deployment.arena ∧
      (w.registerAs none strayed).2.deployment.graph.peek (.slot 0) = some (.error
        (.registrationFailed "size" "completion slot dropped before it was resolved")) := by
  intro w
  have refused : (w.registerAs none strayed).1.outcome = .error (.parentChanged "stray") := rfl
  obtain ⟨-, -, gives, -⟩ := refusal_leaves_deployment w none strayed refused
  refine ⟨refused, rfl, ?_, gives.failed _ List.mem_cons_self "size" rfl⟩
  rw [gives.rest]

end World

end Provision
