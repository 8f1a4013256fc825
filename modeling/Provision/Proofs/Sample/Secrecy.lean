import Provision.Proofs.Host.Noninterference
import Provision.Sample.Behaviour

/-!
# What a creation shows of secrets

The provider of the sample package looks below the secrets of one input, the size of a widget, to
refuse a negative one and to count replicas. All that the outcome of a creation shows of the size is
what is seen of it (`Size.sight`), so inputs that are the same but for their secrets lead to
outcomes that are the same but for secrets exactly if the same is seen of their sizes
(`create_alike_iff`), which holds unless the size is a secret. The count is told where the size is
secret: `secret_size_told`.
-/

namespace Provision.Sample

open Value

/-- What the outcome of a creation shows of the size of a widget. -/
inductive Sight where
  /-- The size is refused, and its text is in the complaint. -/
  | refused (text : String)
  /-- The size is no number, and another one takes its place. -/
  | replaced
  /-- The size is kept, and the status is not known yet. -/
  | kept
  /-- The size is kept, and the status tells it; `none` is a size that is not known yet. -/
  | counted (size : Option Number)

def Size.sight (preview : Bool) : Size → Sight
  | .given size =>
    if size.isBelowZero then .refused size.messageText
    else if preview then .kept
    else .counted (some size)
  | .unknown => if preview then .kept else .counted none
  | .missing => .replaced

def countValue : Option Number → Value
  | some size => .number size
  | none => .unknown

/-- The outcome of a creation, from what is seen of the size. -/
def Sight.outcome (name : String) (preview : Bool) (inputs : Properties) :
    Sight → Except EngineRefusal Properties
  | .refused text =>
    .error (.invalidRequest ("widget " ++ name ++ " has negative size " ++ text))
  | .replaced =>
    .ok (widgetState name (.number (.ofInt 1)) preview
      (Fields.set "size" (.number (.ofInt 1)) inputs))
  | .kept => .ok (widgetState name .unknown true inputs)
  | .counted size => .ok (widgetState name (countValue size) false inputs)

theorem create_widget (name : String) (inputs : Properties) (preview : Bool) :
    create widgetType name inputs preview =
      ((sizeOf inputs).sight preview).outcome name preview inputs := by
  unfold create
  rw [if_pos rfl]
  cases sizeOf inputs with
  | given size =>
    unfold Size.sight
    dsimp only
    split
    · rfl
    · cases preview <;> rfl
  | unknown => cases preview <;> rfl
  | missing => rfl

/-- A creation succeeds for both, with properties that are the same but for what is inside secrets,
or fails for both for one reason. -/
def AlikeOutcomes :
    Except EngineRefusal Properties → Except EngineRefusal Properties → Prop
  | .ok outputs, .ok outputs' => AlikeFields outputs outputs'
  | .error refusal, .error refusal' => refusal = refusal'
  | _, _ => False

variable {name : String} {preview : Bool} {inputs inputs' : Properties} {sight sight' : Sight}

theorem widgetState_alike (alike : AlikeFields inputs inputs') (name : String) (count : Value)
    (preview : Bool) :
    AlikeFields (widgetState name count preview inputs)
      (widgetState name count preview inputs') := by
  unfold widgetState
  split <;> exact (alike.set "endpoint" (Alike.refl _)).set "status" (Alike.refl _)

theorem lookup_size_widgetState (name : String) (count : Value) (preview : Bool)
    (inputs : Properties) :
    (widgetState name count preview inputs).lookup "size" = inputs.lookup "size" := by
  unfold widgetState
  split <;>
    rw [Fields.lookup_set, if_neg (by decide), Fields.lookup_set, if_neg (by decide)]

theorem lookup_status_widgetState (name : String) (count : Value) (preview : Bool)
    (inputs : Properties) :
    (widgetState name count preview inputs).lookup "status" =
      some (if preview then .unknown
        else .object [("ready", .bool true), ("replicaCount", count)]) := by
  unfold widgetState
  split <;> rw [Fields.lookup_set, if_pos rfl]

theorem countValue_alike {size size' : Option Number} :
    (countValue size).Alike (countValue size') ↔ size = size' := by
  cases size <;> cases size' <;> simp [countValue, Alike]

/-- Where the same is seen of the size, nothing else is shown of secrets. -/
theorem Sight.outcome_alike (sight : Sight) (alike : AlikeFields inputs inputs') :
    AlikeOutcomes (sight.outcome name preview inputs) (sight.outcome name preview inputs') := by
  cases sight with
  | refused text => rfl
  | replaced => exact widgetState_alike (alike.set "size" (Alike.refl _)) name _ preview
  | kept => exact widgetState_alike alike name _ true
  | counted size => exact widgetState_alike alike name _ false

/-- Whatever is seen of a secret size is shown by the outcome. -/
theorem Sight.eq_of_alike {content content' : Value}
    (secret : inputs.lookup "size" = some (.secret content))
    (secret' : inputs'.lookup "size" = some (.secret content'))
    (alike : AlikeOutcomes (sight.outcome name preview inputs)
      (sight'.outcome name preview inputs')) : sight = sight' := by
  have kept (count : Value) (preview : Bool) :
      (widgetState name count preview inputs).lookup "size" = some (.secret content) :=
    (lookup_size_widgetState name count preview inputs).trans secret
  have kept' (count : Value) (preview : Bool) :
      (widgetState name count preview inputs').lookup "size" = some (.secret content') :=
    (lookup_size_widgetState name count preview inputs').trans secret'
  have replaced (count size : Value) (inputs : Properties) :
      (widgetState name count preview (Fields.set "size" size inputs)).lookup "size" =
        some size := by
    rw [lookup_size_widgetState, Fields.lookup_set, if_pos rfl]
  have status := lookup_status_widgetState name
  cases sight with
  | refused text =>
    cases sight' with
    | refused text' =>
      have texts := EngineRefusal.invalidRequest.inj alike
      rw [(String.append_right_inj _).mp texts]
    | _ => exact alike.elim
  | replaced =>
    cases sight' with
    | refused text => exact alike.elim
    | replaced => rfl
    | kept => cases alike.alike_of_lookup (replaced _ _ _) (kept' _ _)
    | counted size => cases alike.alike_of_lookup (replaced _ _ _) (kept' _ _)
  | kept =>
    cases sight' with
    | refused text => exact alike.elim
    | replaced => cases alike.alike_of_lookup (kept _ _) (replaced _ _ _)
    | kept => rfl
    | counted size => cases alike.alike_of_lookup (status _ _ _) (status _ _ _)
  | counted size =>
    cases sight' with
    | refused text => exact alike.elim
    | replaced => cases alike.alike_of_lookup (kept _ _) (replaced _ _ _)
    | kept => cases alike.alike_of_lookup (status _ _ _) (status _ _ _)
    | counted size' =>
      obtain ⟨-, -, -, counts, -⟩ := alike.alike_of_lookup (status _ _ _) (status _ _ _)
      rw [countValue_alike.mp counts]

/-- Of alike inputs the sizes are the same, unless they are secret. -/
theorem sizeOf_alike (alike : AlikeFields inputs inputs') :
    (∃ content content', inputs.lookup "size" = some (.secret content) ∧
        inputs'.lookup "size" = some (.secret content')) ∨ sizeOf inputs = sizeOf inputs' := by
  unfold sizeOf peeled
  rcases alike.lookup "size" with ⟨none, none'⟩ | ⟨value, value', some, some', values⟩
  · rw [none, none']
    exact .inr rfl
  · rw [some, some']
    rcases values.cases with
      ⟨content, content', rfl, rfl⟩ | ⟨_, _, rfl, rfl, _⟩ | ⟨_, _, rfl, rfl, _⟩ | rfl
    · exact .inl ⟨content, content', rfl, rfl⟩
    all_goals exact .inr rfl

/-- Two creations of a resource whose inputs are the same but for what is inside secrets. Both
succeed, with properties that are the same but for what is inside secrets, or both fail for one
reason, exactly if the resource is no widget or the same is seen of the two sizes below their
secrets. This is so for all inputs whose size is no secret. -/
theorem create_alike_iff (type name : String) (preview : Bool) {inputs inputs' : Properties}
    (alike : AlikeFields inputs inputs') :
    (AlikeOutcomes (create type name inputs preview) (create type name inputs' preview) ↔
        (type = widgetType → (sizeOf inputs).sight preview = (sizeOf inputs').sight preview)) ∧
      ((∀ content, inputs.lookup "size" ≠ some (.secret content)) →
        AlikeOutcomes (create type name inputs preview) (create type name inputs' preview)) := by
  by_cases widget : type = widgetType
  · subst widget
    rw [create_widget, create_widget]
    rcases sizeOf_alike alike with ⟨content, content', secret, secret'⟩ | same
    · refine ⟨⟨fun outcomes _ => Sight.eq_of_alike secret secret' outcomes, fun same => ?_⟩,
        fun bare => absurd secret (bare content)⟩
      rw [same rfl]
      exact Sight.outcome_alike _ alike
    · rw [same]
      have outcomes :
          AlikeOutcomes (((sizeOf inputs').sight preview).outcome name preview inputs)
            (((sizeOf inputs').sight preview).outcome name preview inputs') :=
        Sight.outcome_alike _ alike
      exact ⟨iff_of_true outcomes fun _ => rfl, fun _ => outcomes⟩
  · unfold create
    rw [if_neg widget, if_neg widget]
    exact ⟨iff_of_true alike fun is => absurd is widget, fun _ => alike⟩

def secretSize (size : Int) : Properties := [("size", .secret (.number (.ofInt size)))]

/-- The code of a widget is not told, and in a preview a secret size is not either. -/
theorem create_alike_iff_code :
    let coded (code : String) : Properties :=
      [("code", .secret (.string code)), ("size", .number (.ofInt 3))]
    AlikeFields (coded "1234") (coded "5678") ∧
      AlikeOutcomes (create widgetType "w1" (coded "1234") false)
        (create widgetType "w1" (coded "5678") false) ∧
      AlikeFields (secretSize 3) (secretSize 5) ∧
      AlikeOutcomes (create widgetType "w1" (secretSize 3) true)
        (create widgetType "w1" (secretSize 5) true) := by
  intro coded
  have codes : AlikeFields (coded "1234") (coded "5678") := ⟨rfl, trivial, rfl, rfl, trivial⟩
  have sizes : AlikeFields (secretSize 3) (secretSize 5) := ⟨rfl, trivial, trivial⟩
  refine ⟨codes, ?_, sizes, ?_⟩
  · refine (create_alike_iff widgetType "w1" false codes).2 fun content secret => ?_
    cases secret
  · exact (create_alike_iff widgetType "w1" true sizes).1.mpr fun _ => rfl

/-- Without a preview the status tells a secret size, and a complaint that there is one tells that
it is negative. -/
theorem secret_size_told :
    (AlikeFields (secretSize 3) (secretSize 5) ∧
        ¬ AlikeOutcomes (create widgetType "w1" (secretSize 3) false)
          (create widgetType "w1" (secretSize 5) false)) ∧
      AlikeFields (secretSize (-1)) (secretSize 5) ∧
        ¬ AlikeOutcomes (create widgetType "w1" (secretSize (-1)) false)
          (create widgetType "w1" (secretSize 5) false) := by
  refine ⟨⟨⟨rfl, trivial, trivial⟩, fun alike => ?_⟩, ⟨rfl, trivial, trivial⟩, fun alike => alike⟩
  obtain ⟨-, -, -, -, -, ⟨-, -, -, counts, -⟩, -⟩ := alike
  exact absurd (Value.number.inj counts) (by decide)

end Provision.Sample
