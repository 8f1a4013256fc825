import Provision.Proofs.Deployment.UrnIndex

/-!
# References to resources of others

A URN under which the program registered nothing leads to a handle, which stands for the reference
that it was made from. Resolving a reference reuses the handle for the URN if both have an id or
both have none, whatever the ids and the versions are. So the handle that a reference resolves to
is sent as that reference exactly if the handle standing for its URN was made from the same one,
or differs in whether it has an id (`reference_sent_back_iff`). Which one stands there is settled
by the namings so far (`Naming.renew`).
-/

namespace Provision

def Identity.reference? (identity : Identity) : Option Reference :=
  match identity.urn, identity.id with
  | .settled (.ok ⟨some urn, _, _⟩), none => some ⟨urn, none, identity.packageVersion⟩
  | .settled (.ok ⟨some urn, _, _⟩), some (.settled (.ok ⟨id, _, _⟩)) =>
    some ⟨urn, some (id.getD ""), identity.packageVersion⟩
  | _, _ => none

theorem Reference.reference?_handle (reference : Reference) (key : Key) :
    (reference.handle key).reference? = some reference := by
  obtain ⟨urn, _ | id, packageVersion⟩ := reference
  · rfl
  · by_cases empty : id = "" <;> simp [handle, Identity.reference?, empty]

namespace Deployment

/-- The reference that the handle found under a URN was made from. -/
def standing? (d : Deployment) (urn : String) : Option Reference := do
  let key ← d.arena.findByUrn urn
  let identity ← d.arena.identity? key
  identity.reference?

/-- Only a handle is found under the URN, if anything. -/
def Foreign (d : Deployment) (urn : String) : Prop :=
  ∀ key, d.arena.urns.lookup urn = some key →
    ∃ reference : Reference, reference.urn = urn ∧
      d.arena.identity? key = some (reference.handle key)

/-- The resource is sent as the reference, wherever it stands in a tree. -/
def SentAs (d : Deployment) (key : Key) (reference : Reference) : Prop :=
  ∀ (features : EngineFeatures) (context : String), features.resources = true →
    Input.serialize d.view features (d.awaitSource features) context (.resource key) =
      .done ⟨.reference reference, [key]⟩

variable {d d' : Deployment} {urn : String} {reference : Reference} {key : Key}

/-- A handle is sent as the reference that it was made from. -/
theorem sentAs_handle (handle : d.arena.identity? key = some (reference.handle key)) :
    d.SentAs key reference := by
  intro features context resources
  obtain ⟨urn, id, packageVersion⟩ := reference
  have view : d.view key =
      ⟨.done (some urn), id.map fun id => .done (if id = "" then none else some id),
        packageVersion⟩ := by
    cases id <;>
      simp [Deployment.view, handle, Reference.handle, ResourceKind.isCustomLike, awaitUrn, urnOf,
        awaitId, TextOutput.peek, awaitValue]
  unfold Input.serialize
  rw [view]
  cases id with
  | none => simp [Input.serializeResource, Await.andThen, resources]
  | some id =>
    by_cases empty : id = "" <;>
      simp [Input.serializeResource, Await.andThen, resources, empty]

theorem SentAs.eq {other : Reference} (sent : d.SentAs key reference)
    (sent' : d.SentAs key other) : reference = other := by
  have both := (sent ⟨true, true⟩ "" rfl).symm.trans (sent' ⟨true, true⟩ "" rfl)
  simpa using both

/-! ### Namings -/

theorem nothing_found (missing : d.arena.urns.lookup urn = none) :
    d.arena.findByUrn urn = none ∧ d.standing? urn = none := by
  have found : d.arena.findByUrn urn = none := by simp [Arena.findByUrn, missing]
  exact ⟨found, by simp [standing?, found]⟩

theorem handle_found (indexed : d.arena.urns.lookup urn = some key)
    (handle : d.arena.identity? key = some (reference.handle key)) :
    d.arena.findByUrn urn = some key ∧ d.standing? urn = some reference := by
  have found := findByUrn_eq_some.mpr ⟨indexed, _, handle⟩
  exact ⟨found, by simp [standing?, found, handle, reference.reference?_handle]⟩

/-- The new handle is found under its URN. -/
theorem identity?_insertDependency (reference : Reference) (d : Deployment) :
    (d.insertDependency reference.urn reference.id reference.packageVersion).2.arena.identity?
      d.arena.size = some (reference.handle d.arena.size) := by
  rw [insertDependency_eq, Arena.identity?_recordUrn]
  exact Arena.identity?_insert_self d.arena {} reference.handle

theorem lookup_insertDependency (reference : Reference) (d : Deployment) (urn : String) :
    (d.insertDependency reference.urn reference.id reference.packageVersion).2.arena.urns.lookup
      urn = if urn = reference.urn then some d.arena.size else d.arena.urns.lookup urn := by
  rw [insertDependency_eq]
  exact Fields.lookup_set ..

theorem Foreign.cases (foreign : d.Foreign urn) :
    (d.arena.findByUrn urn = none ∧ d.standing? urn = none) ∨
      ∃ key, ∃ reference : Reference, d.arena.findByUrn urn = some key ∧
        d.standing? urn = some reference := by
  cases found : d.arena.urns.lookup urn with
  | none => exact .inl (nothing_found found)
  | some key =>
    obtain ⟨reference, -, handle⟩ := foreign key found
    exact .inr ⟨key, reference, handle_found found handle⟩

/-- A new handle takes its place under its own URN, and changes nothing under another. -/
theorem insertDependency_foreign (reference : Reference) (foreign : d.Foreign urn) :
    (d.insertDependency reference.urn reference.id reference.packageVersion).2.Foreign urn ∧
      (d.insertDependency reference.urn reference.id reference.packageVersion).2.standing? urn =
        if reference.urn = urn then some reference else d.standing? urn := by
  have lookup := lookup_insertDependency reference d urn
  have new := identity?_insertDependency reference d
  by_cases same : reference.urn = urn
  · rw [if_pos same.symm] at lookup
    rw [if_pos same]
    refine ⟨fun key found => ?_, (handle_found lookup new).2⟩
    cases lookup.symm.trans found
    exact ⟨reference, same, new⟩
  · rw [if_neg (Ne.symm same)] at lookup
    rw [if_neg same]
    cases found : d.arena.urns.lookup urn with
    | none =>
      have still := lookup.trans found
      refine ⟨fun key there => ?_, (nothing_found still).2.trans (nothing_found found).2.symm⟩
      cases still.symm.trans there
    | some key =>
      obtain ⟨old, urns, handle⟩ := foreign key found
      have still := lookup.trans found
      have kept := (insertDependency_gains d reference.urn reference.id
        reference.packageVersion).identities _ _ handle
      refine ⟨fun other there => ?_, (handle_found still kept).2.trans
        (handle_found found handle).2.symm⟩
      cases still.symm.trans there
      exact ⟨old, urns, kept⟩

/-- Whether a reference reuses the handle that stands for its URN. -/
theorem Foreign.referenceResource (foreign : d.Foreign reference.urn) :
    (∃ key, ∃ c : Reference, d.standing? reference.urn = some c ∧
        c.id.isSome = reference.id.isSome ∧ d.arena.identity? key = some (c.handle key) ∧
        d.referenceResource reference = (key, d)) ∨
      (∀ c, d.standing? reference.urn = some c → c.id.isSome ≠ reference.id.isSome) ∧
        d.referenceResource reference =
          d.insertDependency reference.urn reference.id reference.packageVersion := by
  cases found : d.arena.urns.lookup reference.urn with
  | none =>
    obtain ⟨nothing, standing⟩ := nothing_found found
    refine .inr ⟨fun c here => ?_, referenceResource_missing nothing⟩
    cases standing.symm.trans here
  | some key =>
    obtain ⟨c, -, handle⟩ := foreign key found
    obtain ⟨indexed, standing⟩ := handle_found found handle
    have resolved := referenceResource_indexed indexed handle
    simp only [Reference.handle, Option.isSome_map, ne_eq, not_true_eq_false, false_or] at resolved
    by_cases agree : c.id.isSome = reference.id.isSome
    · exact .inl ⟨key, c, standing, agree, handle, resolved.trans (if_pos agree)⟩
    · refine .inr ⟨fun c' here => ?_, resolved.trans (if_neg agree)⟩
      cases standing.symm.trans here
      exact agree

/-- The handle that a reference resolves to is sent as the reference, unless another one stands
for the URN that agrees with it on having an id. -/
theorem Foreign.sentAs_iff (foreign : d.Foreign reference.urn) :
    (d.referenceResource reference).2.SentAs (d.referenceResource reference).1 reference ↔
      ∀ c, d.standing? reference.urn = some c → c.id.isSome = reference.id.isSome →
        c = reference := by
  rcases foreign.referenceResource with ⟨key, c, standing, agree, handle, reused⟩ | ⟨differ, made⟩
  · rw [reused]
    constructor
    · rintro sent c' here -
      cases standing.symm.trans here
      exact (sentAs_handle handle).eq sent
    · intro same
      rw [← same c standing agree]
      exact sentAs_handle handle
  · rw [made]
    constructor
    · exact fun _ c here agree => absurd agree (differ c here)
    · exact fun _ => sentAs_handle (identity?_insertDependency reference d)

end Deployment

open Deployment

/-- What names a resource of others. -/
inductive Naming where
  | dependencyResource (urn : String)
  | resourceForUrn (urn : String)
  | referenceResource (reference : Reference)

namespace Naming

def perform (naming : Naming) (d : Deployment) : Deployment :=
  match naming with
  | .dependencyResource urn => (d.dependencyResource urn).2
  | .resourceForUrn urn => (d.resourceForUrn urn).2
  | .referenceResource reference => (d.referenceResource reference).2

/-- The reference for which a handle stands for the URN after a naming. A name always makes a
handle, a look-up makes one if there is none, and a reference if there is none that agrees on
having an id. -/
def renew (urn : String) (standing : Option Reference) : Naming → Option Reference
  | .dependencyResource name => if name = urn then some ⟨urn, none, none⟩ else standing
  | .resourceForUrn name => if name = urn then standing.or (some ⟨urn, none, none⟩) else standing
  | .referenceResource reference =>
    if reference.urn = urn then
      (standing.filter fun c => c.id.isSome == reference.id.isSome).or (some reference)
    else standing

theorem perform_foreign (naming : Naming) {d : Deployment} {urn : String}
    (foreign : d.Foreign urn) :
    (naming.perform d).Foreign urn ∧
      (naming.perform d).standing? urn = renew urn (d.standing? urn) naming := by
  cases naming with
  | dependencyResource name =>
    obtain ⟨kept, standing⟩ := insertDependency_foreign ⟨name, none, none⟩ foreign
    refine ⟨kept, standing.trans ?_⟩
    unfold renew
    by_cases same : name = urn <;> simp [same]
  | resourceForUrn name =>
    unfold perform renew
    dsimp only
    cases found : d.arena.findByUrn name with
    | some key =>
      have same : (d.resourceForUrn name).2 = d := by rw [Deployment.resourceForUrn, found]
      rw [same]
      refine ⟨foreign, ?_⟩
      split
      · rename_i here
        subst here
        rcases foreign.cases with ⟨nothing, -⟩ | ⟨_, reference, -, standing⟩
        · cases nothing.symm.trans found
        · rw [standing]
          rfl
      · rfl
    | none =>
      have made : d.resourceForUrn name = d.insertDependency name none none := by
        rw [Deployment.resourceForUrn, found]
        rfl
      rw [made]
      obtain ⟨kept, standing⟩ := insertDependency_foreign ⟨name, none, none⟩ foreign
      refine ⟨kept, standing.trans ?_⟩
      dsimp only
      split
      · rename_i here
        subst here
        rcases foreign.cases with ⟨-, standing⟩ | ⟨key, _, there, -⟩
        · rw [standing]
          rfl
        · cases found.symm.trans there
      · rfl
  | referenceResource reference =>
    unfold perform renew
    dsimp only
    by_cases same : reference.urn = urn
    · subst same
      rw [if_pos rfl]
      rcases foreign.referenceResource with ⟨key, c, standing, agree, -, reused⟩ | ⟨differ, made⟩
      · rw [reused, standing]
        exact ⟨foreign, by simp [Option.filter_some, agree]⟩
      · rw [made]
        obtain ⟨kept, standing⟩ := insertDependency_foreign reference foreign
        refine ⟨kept, standing.trans ?_⟩
        rw [if_pos rfl]
        cases here : d.standing? reference.urn with
        | none => rfl
        | some c => simp [Option.filter_some, differ c here]
    · rw [if_neg same]
      rcases referenceResource_cases reference d with reused | ⟨-, made⟩
      · rw [reused]
        exact ⟨foreign, rfl⟩
      · rw [made]
        obtain ⟨kept, standing⟩ := insertDependency_foreign reference foreign
        exact ⟨kept, standing.trans (if_neg same)⟩

theorem foldl_perform (namings : List Naming) {d : Deployment} {urn : String}
    (foreign : d.Foreign urn) :
    (namings.foldl (fun d naming => naming.perform d) d).Foreign urn ∧
      (namings.foldl (fun d naming => naming.perform d) d).standing? urn =
        namings.foldl (renew urn) (d.standing? urn) := by
  induction namings generalizing d with
  | nil => exact ⟨foreign, rfl⟩
  | cons naming rest ih =>
    obtain ⟨kept, standing⟩ := naming.perform_foreign foreign
    rw [List.foldl_cons, List.foldl_cons, ← standing]
    exact ih kept

end Naming

namespace Deployment

variable {d d' : Deployment} {urn : String} {reference : Reference}

/-- The resource is a handle for the URN, or a registered resource that has it. -/
inductive Represents (d : Deployment) (urn : String) (key : Key) : Prop where
  | handle {reference : Reference} (same : reference.urn = urn)
      (here : d.arena.identity? key = some (reference.handle key))
  | own {job : Registration} (same : job.key = key) (bears : d.Bears job urn)

/-- Every entry of the index leads where it should. -/
def Indexed (d : Deployment) : Prop :=
  ∀ urn key, d.arena.urns.lookup urn = some key → d.Represents urn key

theorem Represents.after {key : Key} (represents : d.Represents urn key)
    (identities : ∀ identity, d.arena.identity? key = some identity →
      d'.arena.identity? key = some identity)
    (bears : ∀ job, d.Bears job urn → d'.Bears job urn) : d'.Represents urn key := by
  cases represents with
  | handle same here => exact .handle same (identities _ here)
  | own same here => exact .own same (bears _ here)

theorem Indexed.insertDependency (indexed : d.Indexed) (reference : Reference) :
    (d.insertDependency reference.urn reference.id reference.packageVersion).2.Indexed := by
  intro urn key found
  rw [lookup_insertDependency] at found
  split at found
  · rename_i same
    cases found
    exact .handle same.symm (identity?_insertDependency reference d)
  · refine (indexed urn key found).after ?_ fun job => (bears_insertDependency reference).mpr
    exact (insertDependency_gains d _ _ _).identities key

theorem Change.indexed (change : Change d d') (indexed : d.Indexed) : d'.Indexed := by
  have bears (job : Registration) (urn : String) : d.Bears job urn → d'.Bears job urn :=
    Changes.bears (.single change)
  cases change with
  | aside arena =>
    intro urn key found
    rw [arena] at found
    exact (indexed urn key found).after (by rw [arena]; exact fun _ => id) fun job => bears job urn
  | @named _ job member before urn' arena registrations resolved after known =>
    intro urn key found
    have lookup : d'.arena.urns.lookup urn =
        if urn = urn' then some job.key else d.arena.urns.lookup urn := by
      rw [arena]
      exact Fields.lookup_set ..
    rw [lookup] at found
    split at found
    · rename_i same
      cases found
      exact .own rfl ⟨registrations ▸ member, same ▸ after⟩
    · refine (indexed urn key found).after ?_ fun job => bears job urn
      rw [arena]
      exact fun _ => id
  | stood reference => exact indexed.insertDependency reference

theorem Changes.indexed (changes : Changes d d') (indexed : d.Indexed) : d'.Indexed := by
  induction changes with
  | refl => exact indexed
  | tail _ change ih => exact change.indexed ih

/-- Where no registered resource has the URN, only a handle is found. -/
theorem Indexed.foreign (indexed : d.Indexed) (unregistered : ∀ job, ¬ d.Bears job urn) :
    d.Foreign urn := by
  intro key found
  cases indexed urn key found with
  | handle same here => exact ⟨_, same, here⟩
  | own _ bears => exact absurd bears (unregistered _)

end Deployment

namespace Ledger

variable {σ : Type} {engine : Engine σ} {l l' : Ledger σ}

theorem Step.indexed (sound : l.Sound) (step : Step engine l l') (indexed : l.deployment.Indexed) :
    l'.deployment.Indexed := by
  cases (step.course sound).2 with
  | accepts accepted =>
    obtain ⟨_, _, _, -, _, -, founds⟩ := accepted.founds
    intro urn key found
    rw [founds.urns] at found
    have follows := (step.keeps sound.owned).2
    exact (indexed urn key found).after (follows.identities key) fun _ here => here.after follows
  | @names urn named =>
    subst named
    exact indexed.insertDependency ⟨urn, none, none⟩
  | changes changes => exact changes.indexed indexed

theorem Reachable.indexed (reachable : Reachable engine l) : l.deployment.Indexed := by
  obtain ⟨settings, s, history⟩ := reachable
  induction history with
  | here => rintro urn key ⟨⟩
  | @step l₁ _ earlier step ih =>
    have reachable : Reachable engine l₁ := ⟨settings, s, earlier⟩
    exact step.indexed reachable.sound ih

/-- After any namings, a reference to a URN under which the program registered nothing resolves to
a handle that is sent as this reference, unless the handle standing for the URN was made from
another reference that agrees with it on having an id. -/
theorem reference_sent_back_iff (reachable : Reachable engine l) (reference : Reference)
    (unregistered : ∀ job, ¬ l.deployment.RegisteredUnder job reference.urn)
    (namings : List Naming) :
    let d := namings.foldl (fun d naming => naming.perform d) l.deployment
    (d.referenceResource reference).2.SentAs (d.referenceResource reference).1 reference ↔
      ∀ c, namings.foldl (Naming.renew reference.urn) (l.deployment.standing? reference.urn) =
          some c →
        c.id.isSome = reference.id.isSome → c = reference := by
  intro d
  have foreign := reachable.indexed.foreign fun job bears =>
    unregistered job (reachable.sound.registeredUnder_iff.mpr bears)
  obtain ⟨kept, standing⟩ := Naming.foldl_perform namings foreign
  rw [← standing]
  exact kept.sentAs_iff

/-- Nothing is registered before anything has happened. -/
theorem initial_unregistered (settings : Settings) (s : σ) (job : Registration) (urn : String) :
    ¬ (initial settings s).deployment.RegisteredUnder job urn := by
  rintro ⟨⟨⟩, -⟩

/-- The second of two references to a resource is sent back, although a look-up came before. -/
theorem reference_sent_back_iff_twice :
    let reference : Reference := ⟨"urn:thing", some "one", some "1.0"⟩
    let namings := [Naming.resourceForUrn "urn:thing", .referenceResource reference]
    let d := namings.foldl (fun d naming => naming.perform d) (initial {} ()).deployment
    Reachable obliging (initial {} ()) ∧
      (∀ job, ¬ (initial {} ()).deployment.RegisteredUnder job reference.urn) ∧
      (d.referenceResource reference).2.SentAs (d.referenceResource reference).1 reference := by
  intro reference namings d
  have reachable : Reachable obliging (initial {} ()) := ⟨{}, (), .here⟩
  refine ⟨reachable, fun job => initial_unregistered {} () job _, ?_⟩
  refine (reference_sent_back_iff reachable reference
    (fun job => initial_unregistered {} () job _) namings).mpr fun c standing _ => ?_
  have last : namings.foldl (Naming.renew reference.urn) none = some reference := rfl
  exact Option.some.inj (standing.symm.trans last)

/-- A reference with another id and another version is sent as the one that came before. -/
theorem reference_sent_back_as_other :
    let first : Reference := ⟨"urn:thing", some "one", none⟩
    let second : Reference := ⟨"urn:thing", some "two", some "2.0.0"⟩
    let d := (Naming.referenceResource first).perform (initial {} ()).deployment
    (∀ job, ¬ (initial {} ()).deployment.RegisteredUnder job second.urn) ∧
      (d.referenceResource second).2.SentAs (d.referenceResource second).1 first ∧
      ¬ (d.referenceResource second).2.SentAs (d.referenceResource second).1 second := by
  intro first second d
  have sent : (d.referenceResource second).2.SentAs (d.referenceResource second).1 first :=
    sentAs_handle rfl
  refine ⟨fun job => initial_unregistered {} () job _, sent, fun sent' => ?_⟩
  exact absurd (sent.eq sent') (by decide)

end Ledger

end Provision
