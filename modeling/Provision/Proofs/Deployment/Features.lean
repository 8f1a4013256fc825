import Provision.Proofs.Deployment.UrnIndex
import Provision.Proofs.Input.Features

/-!
# What a deployment sends to an engine without a feature

An engine that does not know secrets, or references, is sent what one that does would be, with each
of them replaced by what it stands for (`sent_by_features`). A known id must not be empty for this.
None is in any ledger that a program can reach (`Ledger.Reachable.noEmptyId`): an empty id that the
engine answers with is taken as unknown, and nobody but its registration completes the slot of an
id.
-/

namespace Provision

namespace Deployment

def NoEmptyId (d : Deployment) : Prop :=
  ∀ key id, d.awaitId key = some (.done (some id)) → id ≠ ""

/-- Every resource was made from a reference, or the program has registered it. -/
def Peopled (d : Deployment) : Prop :=
  ∀ key identity, d.arena.identity? key = some identity →
    (∃ reference : Reference, identity = reference.handle key) ∨
      ∃ job ∈ d.registrations, job.key = key

variable {d d' : Deployment}

/-! ### Ids -/

theorem NoEmptyId.view (ids : d.NoEmptyId) : Input.NoEmptyId d.view := by
  intro key id known
  refine ids key id ?_
  unfold Deployment.view at known
  split at known
  · cases known
  · dsimp only at known
    split at known
    · exact known
    · cases known

theorem Peopled.insertDependency (peopled : d.Peopled) (reference : Reference) :
    (d.insertDependency reference.urn reference.id reference.packageVersion).2.Peopled := by
  intro key identity here
  rw [insertDependency_eq, Arena.identity?_recordUrn] at here
  rcases Arena.identity?_of_insert here with ⟨rfl, rfl⟩ | old
  · exact .inl ⟨reference, rfl⟩
  · exact peopled key identity old

theorem Changes.peopled (changes : Changes d d') (peopled : d.Peopled) : d'.Peopled := by
  induction changes with
  | refl => exact peopled
  | tail _ change ih =>
    cases change with
    | aside arena registrations =>
      intro key identity here
      rw [arena] at here
      rw [registrations]
      exact ih key identity here
    | named _ _ _ arena registrations =>
      intro key identity here
      rw [arena, Arena.identity?_recordUrn] at here
      rw [registrations]
      exact ih key identity here
    | stood reference => exact ih.insertDependency reference

/-- The id of a handle is that of its reference, if it is known at all. -/
theorem handle_id_ne {reference : Reference} {key : Key} {origin : TextOutput} {id : String}
    {graph : Graph HostValue} (here : (reference.handle key).id = some origin)
    (known : awaitValue (origin.peek graph) = .done (some id)) : id ≠ "" := by
  obtain ⟨given, -, rfl⟩ := Option.map_eq_some_iff.mp here
  by_cases empty : given = ""
  · simp [TextOutput.peek, awaitValue, empty] at known
  · obtain rfl : given = id := by simpa [TextOutput.peek, awaitValue, empty] using known
    exact empty

/-- The id of a registered resource is what its registration has completed the slot with. -/
theorem Sound.id_ne {held : List (List DeclaredOutput)} {own : List Nat} (sound : Sound d held own)
    {job : Registration} (member : job ∈ d.registrations) {slot : Nat}
    (has : job.idSlot = some slot) {id : String} (known : d.graph.known slot = some id) : id ≠ "" := by
  obtain ⟨progress, tracked, task⟩ := mem_registrations.mp member
  rcases sound.concluded job progress tracked task with rfl | outcome
  · have isOpen := (sound.owned.settled job _ tracked task).2 slot (by simp [slotsOf, has])
    cases isOpen.known.symm.trans known
  · obtain ⟨-, -, text⟩ := outcome.id slot has
    rintro rfl
    exact text known

theorem Sound.noEmptyId {held : List (List DeclaredOutput)} {own : List Nat}
    (sound : Sound d held own) (peopled : d.Peopled) : d.NoEmptyId := by
  intro key id asked
  obtain ⟨identity, here, asked'⟩ := Option.bind_eq_some_iff.mp asked
  obtain ⟨origin, has, answer⟩ := Option.bind_eq_some_iff.mp asked'
  have known : awaitValue (origin.peek d.graph) = .done (some id) := Option.some.inj answer
  rcases peopled key identity here with ⟨reference, rfl⟩ | ⟨job, member, rfl⟩
  · exact handle_id_ne has known
  · obtain ⟨progress, tracked, task⟩ := mem_registrations.mp member
    cases here.symm.trans (sound.owned.settled job progress tracked task).1.handle
    obtain ⟨slot, slotted, rfl⟩ := Option.map_eq_some_iff.mp has
    exact sound.id_ne member slotted (Graph.awaitValue_slot.mp known)

end Deployment

namespace Ledger

open Deployment

variable {σ : Type} {engine : Engine σ} {l l' : Ledger σ}

theorem Step.peopled (sound : l.Sound) (step : Step engine l l') (peopled : l.deployment.Peopled) :
    l'.deployment.Peopled := by
  cases (step.course sound).2 with
  | accepts accepted =>
    obtain ⟨job, d', starts, -, tasks, arena⟩ := accepted.starts
    have follows := (step.keeps sound.owned).2
    intro key identity here
    rw [arena] at here
    rcases starts.others key identity here with rfl | old
    · refine .inr ⟨job, mem_registrations.mpr ⟨.underWay, true, ?_⟩, rfl⟩
      rw [tasks]
      simp
    · refine (peopled key identity old).imp_right ?_
      rintro ⟨job, member, same⟩
      exact ⟨job, follows.registrations job member, same⟩
  | @names urn named =>
    subst named
    exact peopled.insertDependency ⟨urn, none, none⟩
  | changes changes => exact changes.peopled peopled

theorem Reachable.peopled (reachable : Reachable engine l) : l.deployment.Peopled := by
  obtain ⟨settings, s, history⟩ := reachable
  induction history with
  | here => rintro key identity ⟨⟩
  | @step l₁ _ earlier step ih =>
    have reachable : Reachable engine l₁ := ⟨settings, s, earlier⟩
    exact step.peopled reachable.sound ih

/-- Whatever the program does and the engine answers, no known id is empty. -/
theorem Reachable.noEmptyId (reachable : Reachable engine l) : l.deployment.NoEmptyId :=
  Deployment.Sound.noEmptyId reachable.sound reachable.peopled

end Ledger

/-! ### Features -/

namespace Deployment

variable {d : Deployment} {lost kept : EngineFeatures}

theorem awaitSource_without (ids : d.NoEmptyId) :
    Input.Erases lost (d.awaitSource kept) (d.awaitSource (kept.without lost)) := by
  intro context source
  unfold awaitSource
  cases d.graph.peek source with
  | none => rfl
  | some result => exact Input.serialize_without ids.view (fun _ source => nomatch source) _ context

/-- The arguments of a request come without the values of lost features, each depending on what it
would depend on with them. -/
theorem serialize_without (ids : d.NoEmptyId) (context : String) (args : Arguments) :
    d.serialize (kept.without lost) context args =
      (d.serialize kept context args).map (SerializedProperties.erase lost) :=
  Input.serializeProperties_without ids.view (awaitSource_without ids) args context

theorem sent_without (ids : d.NoEmptyId) (kept lost : EngineFeatures) (context : String)
    (tree : Argument) :
    Input.serialize d.view (kept.without lost) (d.awaitSource (kept.without lost)) context tree =
      (Input.serialize d.view kept (d.awaitSource kept) context tree).map (Serialized.erase lost) :=
  Input.serialize_without ids.view (awaitSource_without ids) tree context

/-- An engine that does not know secrets is sent none. -/
theorem no_secret_sent (ids : d.NoEmptyId) {resources : Bool} {context : String} {tree : Argument}
    {content : Serialized}
    (sent : Input.serialize d.view ⟨resources, false⟩ (d.awaitSource ⟨resources, false⟩) context
      tree = .done content) : content.value.hasSecret = false := by
  have less := sent_without ids ⟨resources, true⟩ ⟨false, true⟩ context tree
  rw [EngineFeatures.without_secrets, sent] at less
  obtain ⟨full, -, rfl⟩ := Await.map_eq_done less.symm
  exact Value.hasSecret_eraseSecrets full.value

/-- Whatever an engine knows, an argument waits, fails, or is sent with the same dependencies; for
an engine without secrets the value is the one with them, less the secrets, and for an engine
without references the one with them, less the references. -/
theorem sent_by_features (d : Deployment) (ids : d.NoEmptyId) (context : String)
    (tree : Argument) :
    let sent (features : EngineFeatures) : Await Serialized :=
      Input.serialize d.view features (d.awaitSource features) context tree
    (∀ features features', (sent features).map Serialized.dependencies =
      (sent features').map Serialized.dependencies) ∧
    (∀ resources, (sent ⟨resources, false⟩).map Serialized.value =
      ((sent ⟨resources, true⟩).map Serialized.value).map Value.eraseSecrets) ∧
    ∀ secrets, (sent ⟨false, secrets⟩).map Serialized.value =
      ((sent ⟨true, secrets⟩).map Serialized.value).map Value.eraseReferences := by
  intro sent
  have erased (kept lost : EngineFeatures) :
      sent (kept.without lost) = (sent kept).map (Serialized.erase lost) :=
    sent_without ids kept lost context tree
  have full (features : EngineFeatures) : (sent features).map Serialized.dependencies =
      (sent ⟨true, true⟩).map Serialized.dependencies := by
    have less := erased ⟨true, true⟩ ⟨!features.resources, !features.secrets⟩
    have all : EngineFeatures.without ⟨true, true⟩ ⟨!features.resources, !features.secrets⟩ =
        features := by
      simp [EngineFeatures.without]
    rw [all] at less
    rw [less, Await.map_map]
    rfl
  refine ⟨fun features features' => (full features).trans (full features').symm, ?_, ?_⟩
  · intro resources
    have less := erased ⟨resources, true⟩ ⟨false, true⟩
    rw [EngineFeatures.without_secrets] at less
    rw [less, Await.map_map, Await.map_map]
    rfl
  · intro secrets
    have less := erased ⟨true, secrets⟩ ⟨true, false⟩
    rw [EngineFeatures.without_resources] at less
    rw [less, Await.map_map, Await.map_map]
    rfl

/-- A registered resource beside a password and a secret that holds nothing. -/
theorem sent_by_features_answered :
    let d := Ledger.answered.deployment
    let tree : Argument :=
      .object [("note", .known true [] .null), ("password", .known true [] (.string "1234")),
        ("thing", .resource 0)]
    let value (features : EngineFeatures) : Await Value :=
      (Input.serialize d.view features (d.awaitSource features) "args" tree).map Serialized.value
    d.NoEmptyId ∧
      value ⟨true, true⟩ = .done (.object [("note", .secret .null),
        ("password", .secret (.string "1234")),
        ("thing", .reference ⟨"urn:thing", some "id", none⟩)]) ∧
      value ⟨true, false⟩ = .done (.object [("password", .string "1234"),
        ("thing", .reference ⟨"urn:thing", some "id", none⟩)]) ∧
      value ⟨false, true⟩ = .done (.object [("note", .secret .null),
        ("password", .secret (.string "1234")), ("thing", .string "id")]) := by
  intro d tree value
  have ids := Ledger.answered_reachable.noEmptyId
  have full : value ⟨true, true⟩ = .done (.object [("note", .secret .null),
      ("password", .secret (.string "1234")),
      ("thing", .reference ⟨"urn:thing", some "id", none⟩)]) := rfl
  obtain ⟨-, secrets, references⟩ := sent_by_features d ids "args" tree
  exact ⟨ids, full, (secrets true).trans (congrArg (Await.map Value.eraseSecrets) full),
    (references true).trans (congrArg (Await.map Value.eraseReferences) full)⟩

end Deployment

end Provision
