import Provision.Proofs.Deployment.Refusal
import Provision.Proofs.Deployment.Requests

/-!
# The parents of lookups

A resource that the program looks up by its URN does not fall back to the ambient stack as its
parent. The parent is settled before the transformations run, and the kind of the request after
them: so a resource that was none to look up at first, and that a transformation gives a URN, is
looked up below the stack. This is the only way for a lookup to have a parent that the program has
not given (`lookup_falls_back_iff`).
-/

namespace Provision

namespace Deployment

variable {d d' : Deployment} {spec : ResourceSpec} {job : Registration}

/-- One of the transformations makes a lookup of what was none when those before it were through. -/
def MakesLookup (ts : List Transformation) (input : TransformationInput) : Prop :=
  ∃ before t after, ts = before ++ t :: after ∧
    (before.foldl TransformationInput.after input).options.urn = none ∧
    ((before.foldl TransformationInput.after input).after t).options.urn ≠ none

/-- The ambient stack is the parent of a resource that the program does not look up, and a
transformation makes a lookup of it. -/
structure FallsBack (d : Deployment) (spec : ResourceSpec) (stack : Key) : Prop where
  ambient : d.root = some stack
  below : spec.type ≠ rootStackType
  without : spec.options.urn = none
  makes : MakesLookup (d.pipeline spec) spec.input

theorem MakesLookup.cons {t : Transformation} {rest : List Transformation}
    {input : TransformationInput} (makes : MakesLookup rest (input.after t)) :
    MakesLookup (t :: rest) input := by
  obtain ⟨before, u, after, rfl, without, lookup⟩ := makes
  exact ⟨t :: before, u, after, rfl, without, lookup⟩

/-- What is no lookup before the transformations and one after them is made one on the way. -/
theorem makesLookup_of_left {ts : List Transformation} {input : TransformationInput}
    (without : input.options.urn = none)
    (lookup : (ts.foldl TransformationInput.after input).options.urn ≠ none) :
    MakesLookup ts input := by
  induction ts generalizing input with
  | nil => exact absurd without lookup
  | cons t rest ih =>
    by_cases still : (input.after t).options.urn = none
    · exact .cons (ih still lookup)
    · exact ⟨[], t, rest, rfl, without, still⟩

/-- The parent that is in force for a resource without a given one. -/
theorem effectiveParent_free (free : spec.options.parent = none) (key : Key) :
    d.effectiveParent spec = some key ↔
      d.root = some key ∧ spec.type ≠ rootStackType ∧ spec.options.urn = none := by
  unfold effectiveParent
  rw [free]
  by_cases stack : spec.type = rootStackType
  · simp [stack]
  · cases spec.options.urn <;> simp [stack]

theorem parentUrn_nonempty_iff {parent : Option Key} {text : String}
    (named : d.parentUrn parent = .done text) :
    text ≠ "" ↔ ∃ key urn, parent = some key ∧ d.awaitUrn key = .done (some urn) ∧ urn ≠ "" := by
  cases parent with
  | none =>
    cases named
    simp
  | some key =>
    obtain ⟨urn, known, same⟩ := Await.andThen_eq_done named
    cases same
    cases urn <;> simp [known]

/-! ### The registration that is started -/

theorem start_settles {parent : Option Key} {ts : List Transformation} {args : Arguments}
    {options : Options}
    (started : (d.start spec parent ts args options).2.registrations = d.registrations ++ [job]) :
    job.parent = parent ∧ job.options.urn = options.urn := by
  have tasks := addIdentity_tasks spec.kind d
  unfold start at started
  generalize d.addIdentity spec.kind = r at tasks started
  obtain ⟨⟨urnSlot, idSlot⟩, d₁⟩ := r
  have same : d₁.tasks = d.tasks := tasks
  simp only [registrations, same, List.map_append, List.filterMap_append, List.map_cons,
    List.map_nil, List.filterMap_cons, List.filterMap_nil, Job.registration?,
    List.append_cancel_left_eq] at started
  cases started
  exact ⟨rfl, rfl⟩

/-- The parent is the one in force before the transformations, and the URN is the one they leave. -/
theorem register_settles {key : Key} (ok : (d.register spec).1.outcome = .ok key)
    (started : (d.register spec).2.registrations = d.registrations ++ [job]) :
    job.parent = d.effectiveParent spec ∧
      job.options.urn =
        ((d.pipeline spec).foldl TransformationInput.after spec.input).options.urn := by
  unfold register at ok started
  split at ok
  · cases ok
  · rename_i args options runs prepared
    rw [prepared] at started
    obtain ⟨parent, urn⟩ := start_settles started
    obtain ⟨transformed, -⟩ := prepare_ok prepared
    rw [standing_transformations] at transformed
    have left := (transform_ok transformed).settled
    refine ⟨parent, urn.trans ?_⟩
    exact (congrArg (fun input => input.options.urn) left).symm

end Deployment

namespace Ledger

open Deployment World

variable {σ : Type} {l l' : Ledger σ} {spec : ResourceSpec} {key : Key} {job : Registration}

/-- The same for every way to register. -/
theorem Accepts.settles (accepts : Accepts l spec key l')
    (started : l'.deployment.registrations = l.deployment.registrations ++ [job]) :
    job.parent = l.deployment.effectiveParent spec ∧
      job.options.urn =
        ((l.deployment.pipeline spec).foldl TransformationInput.after spec.input).options.urn := by
  obtain ⟨ok, root, same⟩ := accepts.registers
  rw [same] at started
  exact register_settles ok started

/-- A lookup by URN that a registration without a given parent sends has a parent exactly if the
registration falls back to the ambient stack, and the URN of the stack is known. -/
theorem lookup_falls_back_iff (accepts : Accepts l spec key l')
    (started : l'.deployment.registrations = l.deployment.registrations ++ [job])
    (free : spec.options.parent = none) {d : Deployment} {request : ReadRequest}
    (sends : d.Sends job (.read request)) (lookup : request.urn ≠ "") :
    request.parent ≠ "" ↔
      ∃ stack urn, l.deployment.FallsBack spec stack ∧ d.awaitUrn stack = .done (some urn) ∧
        urn ≠ "" := by
  obtain ⟨parent, urn⟩ := accepts.settles started
  obtain ⟨features, builds⟩ := sends.builds
  have above : d.parentUrn job.parent = .done request.parent := builds.parent
  obtain ⟨id, -, stated⟩ := builds.id
  obtain ⟨-, byUrn, -⟩ := stated request rfl
  have left : job.options.urn ≠ none := by
    intro none
    exact lookup (by rw [byUrn, none]; rfl)
  rw [urn] at left
  rw [parentUrn_nonempty_iff above, parent]
  constructor
  · rintro ⟨stack, text, under, known, nonempty⟩
    obtain ⟨ambient, below, without⟩ := (effectiveParent_free free stack).mp under
    exact ⟨stack, text, ⟨ambient, below, without, makesLookup_of_left without left⟩, known, nonempty⟩
  · rintro ⟨stack, text, ⟨ambient, below, without, -⟩, known, nonempty⟩
    exact ⟨stack, text, (effectiveParent_free free stack).mpr ⟨ambient, below, without⟩, known,
      nonempty⟩

/-- A transformation that has a resource looked up. -/
def redirect : Transformation :=
  ⟨"redirect", fun input => some ⟨input.args, { input.options with urn := some "urn:found" }⟩⟩

def redirected : ResourceSpec :=
  { kind := .custom, type := "pkg:index:Thing", name := "thing", transformations := [redirect] }

def redirectedJob : Registration :=
  { key := 1, type := redirected.type, name := "thing", kind := .custom, parent := some 0, args := []
    options := { urn := some "urn:found" }, provider := none, explicitProviders := []
    protect := none, urnSlot := 1, idSlot := some 2, outputs := [] }

/-- The ledger in which the ambient stack is registered, and the program is about to register the
resource. -/
def underStack : Ledger (Engine.Logged Unit) :=
  let start : Ledger (Engine.Logged Unit) := initial {} ⟨(), []⟩
  { world := start.world.beginRun.2.runTask obliging.logged 0, held := [[]] }

theorem underStack_reachable : Reachable obliging.logged underStack :=
  ⟨{}, ⟨(), []⟩, .step (.step (.step .here (.beginRun _)) (.runTask _ 0)) (.collect _)⟩

theorem redirected_accepted :
    Accepts underStack redirected 1 ({ underStack with held := [] }.registering redirected) :=
  @Accepts.register _ underStack [] [] redirected 1 rfl rfl

/-- The stack stands above the lookup, since the transformation has made it one. -/
theorem lookup_falls_back_iff_redirected :
    ∃ l' : Ledger (Engine.Logged Unit), Accepts underStack redirected 1 l' ∧
      l'.deployment.registrations = underStack.deployment.registrations ++ [redirectedJob] ∧
      redirected.options.parent = none ∧
      ∃ request : ReadRequest, l'.deployment.Sends redirectedJob (.read request) ∧
        request.urn ≠ "" ∧ request.parent ≠ "" ∧
        ∃ stack urn, underStack.deployment.FallsBack redirected stack ∧
          l'.deployment.awaitUrn stack = .done (some urn) ∧ urn ≠ "" :=
  ⟨_, redirected_accepted, rfl, rfl, _, ⟨rfl, ⟨true, true⟩, rfl⟩, by decide, by decide,
    (lookup_falls_back_iff redirected_accepted rfl rfl ⟨rfl, ⟨true, true⟩, rfl⟩ (by decide)).mp
      (by decide)⟩

/-- A resource without a given parent is looked up by its URN below the ambient stack. -/
theorem lookup_below_stack :
    ∃ l' : Ledger (Engine.Logged Unit), Reachable obliging.logged underStack ∧
      Accepts underStack redirected 1 l' ∧ redirected.options.parent = none ∧
      ∃ request : ReadRequest,
        (l'.world.runTask obliging.logged 1).exchanges = l'.world.exchanges ++ [.read request] ∧
        request.urn = "urn:found" ∧ request.parent = "urn:project-dev" :=
  ⟨_, underStack_reachable, redirected_accepted, rfl, _, rfl, rfl, rfl⟩

end Ledger

end Provision
