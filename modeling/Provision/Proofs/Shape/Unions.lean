import Provision.Proofs.Shape.Rejection
import Provision.Shape.Validity

/-!
# The shape that a union takes

A union tries its first shape, and its second one if the first rejects the tree. Rejection looks at
the tree as a whole: an item, a field or a parameter that does not match is replaced by a zero, with
a warning, and leaves the choice as it is (`union_keeps_first_despite_warnings`). So a union takes
its second shape exactly where the first rejects the tree, and then with what that shape makes of it
alone (`union_takes_second_iff`).
-/

namespace Provision

namespace Reporting

variable {α β : Type}

/-- A computation reports nothing exactly if none of its parts does. -/
theorem andThen_eq_ok {x : Reporting α} {f : α → Reporting β} {b : β} :
    x.andThen f = .ok b ↔ ∃ a, x = .ok a ∧ f a = .ok b := by
  constructor
  · intro whole
    match x with
    | none => cases whole
    | some (a, warnings) =>
      unfold andThen at whole
      dsimp only at whole
      cases rest : f a with
      | none =>
        rw [rest] at whole
        cases whole
      | some r =>
        rw [rest] at whole
        obtain ⟨rfl, none⟩ := Prod.mk.inj (Option.some.inj whole)
        obtain ⟨rfl, later⟩ := List.append_eq_nil_iff.mp none
        exact ⟨a, rfl, by rw [rest, ok, ← later]⟩
  · rintro ⟨a, rfl, rest⟩
    unfold andThen ok
    dsimp only
    rw [rest]
    rfl

end Reporting

namespace Shape

open Reporting

variable {records : Records} {shape first second : Shape} {value tree : Plain} {context : String}
  {fill : String → List (String × Plain) → Reporting (List (String × Plain))}

/-! ### Conversions without a warning do not depend on the context -/

theorem orZero_eq_ok {attempt : Attempt Plain} :
    orZero shape attempt = .ok tree ↔ attempt = .ok (.ok tree) := by
  unfold orZero
  rw [andThen_eq_ok]
  constructor
  · rintro ⟨outcome, rfl, rest⟩
    cases outcome with
    | ok value =>
      cases rest
      rfl
    | error message => cases rest
  · rintro rfl
    exact ⟨_, rfl, rfl⟩

theorem convertItems_congr {convert convert' : Plain → Reporting Plain}
    (each : ∀ item tree, convert item = .ok tree → convert' item = .ok tree)
    {items trees : List Plain} (clean : convertItems convert items = .ok trees) :
    convertItems convert' items = .ok trees := by
  induction items generalizing trees with
  | nil => exact clean
  | cons item rest ih =>
    unfold convertItems at clean ⊢
    obtain ⟨head, first, clean⟩ := andThen_eq_ok.mp clean
    obtain ⟨tail, later, clean⟩ := andThen_eq_ok.mp clean
    exact andThen_eq_ok.mpr ⟨head, each item head first, andThen_eq_ok.mpr ⟨tail, ih later, clean⟩⟩

theorem convertFields_congr {convert convert' : Plain → Reporting Plain}
    (each : ∀ item tree, convert item = .ok tree → convert' item = .ok tree)
    {fields trees : List (String × Plain)} (clean : convertFields convert fields = .ok trees) :
    convertFields convert' fields = .ok trees := by
  induction fields generalizing trees with
  | nil => exact clean
  | cons field rest ih =>
    unfold convertFields at clean ⊢
    obtain ⟨head, first, clean⟩ := andThen_eq_ok.mp clean
    obtain ⟨tail, later, clean⟩ := andThen_eq_ok.mp clean
    exact andThen_eq_ok.mpr ⟨head, each _ head first, andThen_eq_ok.mpr ⟨tail, ih later, clean⟩⟩

/-- A tree that is converted without a warning is so in every context. -/
theorem tryConvert_clean (clean : tryConvert fill shape context value = .ok (.ok tree))
    (other : String) : tryConvert fill shape other value = .ok (.ok tree) := by
  induction shape generalizing value tree context other with
  | optional inner ih | output inner ih =>
    cases value with
    | null => exact clean
    | _ => exact ih clean other
  | union first second ihf ihs =>
    by_cases null : value = .null
    · subst null
      exact clean
    · rw [tryConvert_union null] at clean ⊢
      obtain ⟨outcome, tried, clean⟩ := andThen_eq_ok.mp clean
      cases outcome with
      | ok converted => exact andThen_eq_ok.mpr ⟨_, ihf tried _, clean⟩
      | error message =>
        obtain ⟨message', rejected⟩ :=
          tryConvert_of_rejects (rejects_of_tryConvert tried) fill (other ++ ".AsT0")
        obtain ⟨outcome, tried, clean⟩ := andThen_eq_ok.mp clean
        cases outcome with
        | ok converted =>
          exact andThen_eq_ok.mpr ⟨_, rejected, andThen_eq_ok.mpr ⟨_, ihs tried _, clean⟩⟩
        | error message => cases clean
  | array element ih =>
    cases value with
    | array items =>
      unfold tryConvert at clean ⊢
      obtain ⟨trees, converted, clean⟩ := andThen_eq_ok.mp clean
      refine andThen_eq_ok.mpr
        ⟨trees, convertItems_congr (fun item tree one => ?_) converted, clean⟩
      exact orZero_eq_ok.mpr (ih (orZero_eq_ok.mp one) other)
    | null => exact clean
    | _ => cases clean
  | map key element _ ih =>
    cases value with
    | object fields =>
      unfold tryConvert at clean ⊢
      obtain ⟨trees, converted, clean⟩ := andThen_eq_ok.mp clean
      refine andThen_eq_ok.mpr
        ⟨trees, convertFields_congr (fun item tree one => ?_) converted, clean⟩
      exact orZero_eq_ok.mpr (ih (orZero_eq_ok.mp one) other)
    | null => exact clean
    | _ => cases clean
  | record name =>
    cases value with
    | null | object => exact clean
    | _ => cases clean
  | json =>
    by_cases null : value = .null
    · subst null
      exact clean
    · rw [tryConvert_json null] at clean ⊢
      cases checked : checkJson context value with
      | error message =>
        rw [checked] at clean
        cases clean
      | ok u =>
        have document := (checkJson_iff other value).mpr ((checkJson_iff context value).mp checked)
        rw [document, ← clean, checked]
  | enum name backing => cases backing <;> cases value <;> first | exact clean | cases clean
  | _ => cases value <;> first | exact clean | cases clean

/-! ### The choice of a union -/

/-- The attempt to convert a tree to a shape fails as a whole, not only in a part of the tree that
is replaced by a zero. -/
def Fails (records : Records) (shape : Shape) (context : String) (value : Plain) : Prop :=
  ∃ message, tryConvert (fillRecord records (sufficientDepth records value)) shape context value =
    .ok (.error message)

theorem fails_iff : Fails records shape context value ↔ shape.accepts value = false :=
  ⟨fun ⟨_, failed⟩ => rejects_of_tryConvert failed,
    fun rejected => tryConvert_of_rejects rejected _ _⟩

/-- Where a tree is converted to the second shape of a union alone without a warning, the union
takes the second case, with the same result and without a warning, exactly if the attempt at the
first shape fails as a whole. -/
theorem union_takes_second_iff (clean : convert records second context value = .ok tree) :
    convert records (.union first second) context value = .ok (.union .second tree) ↔
      Fails records first context value := by
  have alone := orZero_eq_ok.mp clean
  unfold convert convertWithin
  rw [orZero_eq_ok, fails_iff]
  constructor
  · intro taken
    have present : value ≠ .null := by
      rintro rfl
      cases taken
    rw [tryConvert_union present] at taken
    obtain ⟨outcome, tried, taken⟩ := andThen_eq_ok.mp taken
    cases outcome with
    | ok converted => cases taken
    | error message => exact rejects_of_tryConvert tried
  · intro rejected
    obtain ⟨message, tried⟩ := tryConvert_of_rejects rejected
      (fillRecord records (sufficientDepth records value)) (context ++ ".AsT0")
    rw [tryConvert_union (ne_null_of_rejects rejected)]
    exact andThen_eq_ok.mpr ⟨_, tried, andThen_eq_ok.mpr ⟨_, tryConvert_clean alone _, rfl⟩⟩

/-- A list of integers or labels, given labels. -/
theorem union_takes_second_iff_labels :
    convert [] (.map .string .string) "tags" (.object [("app", .string "web")]) =
        .ok (.object [("app", .string "web")]) ∧
      convert [] (.union (.array .int) (.map .string .string)) "tags"
          (.object [("app", .string "web")]) =
        .ok (.union .second (.object [("app", .string "web")])) :=
  ⟨rfl, (union_takes_second_iff rfl).mpr ⟨_, rfl⟩⟩

/-- A list of texts is a list of integers first, with a zero and a warning for each text, although
it is a list of texts without any. -/
theorem union_keeps_first_despite_warnings :
    validate [] (.array .int) "size" = .ok () ∧ validate [] (.array .string) "size" = .ok () ∧
      convert [] (.array .int) "size" (.array [.string "big"]) =
        .warn "Expected int but got string deserializing size" (.array [.number Number.zero]) ∧
      convert [] (.array .string) "size" (.array [.string "big"]) = .ok (.array [.string "big"]) ∧
      convert [] (.union (.array .int) (.array .string)) "size" (.array [.string "big"]) =
        .warn "Expected int but got string deserializing size.AsT0"
          (.union .first (.array [.number Number.zero])) := by
  refine ⟨rfl, rfl, rfl, rfl, rfl⟩

end Shape

end Provision
