import Provision.Shape.Conversion

/-!
# Rejected trees

Whether a shape rejects a tree depends on the two alone, not on the records, the depth or the
context, and a rejection comes without warnings (`tryConvert_of_rejects`,
`rejects_of_tryConvert`). So a union can try its first shape and leave no trace of it
(`rejection_leaves_no_trace`).
-/

namespace Provision.Shape

mutual

/-- Whether a tree is a JSON document. -/
def isDocument : Plain → Bool
  | .array items => areDocuments items
  | .object fields => haveDocuments fields
  | .file _ | .resource _ | .union .. => false
  | _ => true

def areDocuments : List Plain → Bool
  | [] => true
  | item :: rest => isDocument item && areDocuments rest

def haveDocuments : List (String × Plain) → Bool
  | [] => true
  | (_, value) :: rest => isDocument value && haveDocuments rest

end

mutual

theorem checkJson_iff (context : String) (value : Plain) :
    (checkJson context value = .ok () ↔ isDocument value = true) := by
  cases value with
  | array items =>
    unfold checkJson isDocument
    exact checkJsonItems_iff context items
  | object fields =>
    unfold checkJson isDocument
    exact checkJsonFields_iff context fields
  | _ => simp [checkJson, isDocument]

theorem checkJsonItems_iff (context : String) (items : List Plain) :
    (checkJsonItems context items = .ok () ↔ areDocuments items = true) := by
  cases items with
  | nil => simp [checkJsonItems, areDocuments]
  | cons item rest =>
    have head := checkJson_iff context item
    have tail := checkJsonItems_iff context rest
    unfold checkJsonItems areDocuments
    cases h : checkJson context item <;> simp_all

theorem checkJsonFields_iff (context : String) (fields : List (String × Plain)) :
    (checkJsonFields context fields = .ok () ↔ haveDocuments fields = true) := by
  cases fields with
  | nil => simp [checkJsonFields, haveDocuments]
  | cons field rest =>
    obtain ⟨key, value⟩ := field
    have head := checkJson_iff context value
    have tail := checkJsonFields_iff context rest
    unfold checkJsonFields haveDocuments
    cases h : checkJson context value <;> simp_all

end

/-- Whether a tree can be converted to a shape at all: null can, and what is of the right kind. -/
def accepts : Shape → Plain → Bool
  | .record _, value =>
    match value with
    | .null | .object _ => true
    | _ => false
  | _, .null => true
  | .optional inner, value => accepts inner value
  | .output inner, value => accepts inner value
  | .bool, value => (value matches .bool _)
  | .int, value => (value matches .number _)
  | .number, value => (value matches .number _)
  | .string, value => (value matches .string _)
  | .json, value => isDocument value
  | .resource, value => (value matches .resource _)
  | .enum _ .string, value => (value matches .string _)
  | .enum _ .number, value => (value matches .number _)
  | .union first second, value => accepts first value || accepts second value
  | .array _, value => (value matches .array _)
  | .map _ _, value => (value matches .object _)
  | .unsupported _, _ => false
  | .any, _ | .asset, _ | .archive, _ | .file, _ => true

/-- How the conversion of a tree that is rejected, or of one that is not, ends. -/
def Ends (accepted : Bool) (attempt : Attempt Plain) : Prop :=
  if accepted then attempt = none ∨ ∃ tree warnings, attempt = some (.ok tree, warnings)
  else ∃ message, attempt = some (.error message, [])

theorem ends_ok (tree : Plain) : Ends true (.ok (.ok tree)) := .inr ⟨tree, [], rfl⟩

theorem ends_error (message : String) : Ends false (.ok (.error message)) := ⟨message, rfl⟩

theorem ends_filled {α : Type} (x : Reporting α) (f : α → Plain) :
    Ends true (x.andThen fun a => .ok (.ok (f a))) := by
  cases x with
  | none => exact .inl rfl
  | some r => exact .inr ⟨f r.1, r.2 ++ [], rfl⟩

/-- The attempt at the second shape is made where the first rejects. -/
theorem ends_union {accepted accepted' : Bool} {first second : Attempt Plain}
    (h : Ends accepted first) (h' : Ends accepted' second) (message : String) :
    Ends (accepted || accepted') (first.andThen fun
      | .ok converted => .ok (.ok (.union .first converted))
      | .error _ => second.andThen fun
        | .ok converted => .ok (.ok (.union .second converted))
        | .error _ => .ok (.error message)) := by
  cases accepted with
  | true =>
    rcases h with rfl | ⟨tree, warnings, rfl⟩
    · exact .inl rfl
    · exact .inr ⟨.union .first tree, warnings ++ [], rfl⟩
  | false =>
    obtain ⟨text, rfl⟩ := h
    cases accepted' with
    | true =>
      rcases h' with rfl | ⟨tree, warnings, rfl⟩
      · exact .inl rfl
      · exact .inr ⟨.union .second tree, [] ++ (warnings ++ []), rfl⟩
    | false =>
      obtain ⟨text', rfl⟩ := h'
      exact ⟨message, rfl⟩

theorem ends_json (context : String) (value : Plain) :
    Ends (isDocument value) (.ok ((checkJson context value).map fun _ => value)) := by
  have same := checkJson_iff context value
  cases h : checkJson context value with
  | ok u =>
    rw [same.mp h]
    exact ends_ok value
  | error message =>
    have rejected : isDocument value = false := by
      rw [← Bool.not_eq_true, ← same, h]
      simp
    rw [rejected]
    exact ends_error message

theorem tryConvert_ends
    (fill : String → List (String × Plain) → Reporting (List (String × Plain))) (shape : Shape)
    (context : String) (value : Plain) :
    Ends (shape.accepts value) (tryConvert fill shape context value) := by
  induction shape generalizing context value with
  | record name =>
    cases value <;> first | exact ends_error _ | exact ends_filled _ _
  | optional inner ih | output inner ih =>
    cases value <;> first | exact ends_ok _ | exact ih context _
  | union first second ihf ihs =>
    cases value with
    | null => exact ends_ok _
    | _ => exact ends_union (ihf _ _) (ihs _ _) _
  | array element =>
    cases value <;> first | exact ends_ok _ | exact ends_error _ | exact ends_filled _ _
  | map key element =>
    cases value <;> first | exact ends_ok _ | exact ends_error _ | exact ends_filled _ _
  | json =>
    cases value with
    | null => exact ends_ok _
    | _ => exact ends_json context _
  | enum name backing =>
    cases backing <;> cases value <;> first | exact ends_ok _ | exact ends_error _
  | _ => cases value <;> first | exact ends_ok _ | exact ends_error _

variable {fill : String → List (String × Plain) → Reporting (List (String × Plain))}
  {shape first second : Shape} {value : Plain} {context : String}

/-- How a union tries its shapes on a tree that is not null. -/
theorem tryConvert_union (present : value ≠ .null) :
    tryConvert fill (.union first second) context value =
      (tryConvert fill first (context ++ ".AsT0") value).andThen fun
        | .ok converted => .ok (.ok (.union .first converted))
        | .error _ => (tryConvert fill second (context ++ ".AsT1") value).andThen fun
          | .ok converted => .ok (.ok (.union .second converted))
          | .error _ => .ok (.error (expectedUnion first second value context)) := by
  cases value with
  | null => contradiction
  | _ => rfl

theorem tryConvert_json (present : value ≠ .null) :
    tryConvert fill .json context value = .ok ((checkJson context value).map fun _ => value) := by
  cases value with
  | null => contradiction
  | _ => rfl

/-- Null is not rejected. -/
theorem ne_null_of_rejects (rejected : shape.accepts value = false) : value ≠ .null := by
  rintro rfl
  cases shape <;> cases rejected

/-- A rejection leaves no warnings, whatever the context and the records. -/
theorem tryConvert_of_rejects (rejected : shape.accepts value = false)
    (fill : String → List (String × Plain) → Reporting (List (String × Plain)))
    (context : String) :
    ∃ message, tryConvert fill shape context value = some (.error message, []) := by
  have ends := tryConvert_ends fill shape context value
  rwa [rejected] at ends

/-- What was rejected once is not accepted. -/
theorem rejects_of_tryConvert {context message : String} {warnings : List String}
    (error : tryConvert fill shape context value = some (.error message, warnings)) :
    shape.accepts value = false := by
  have ends := tryConvert_ends fill shape context value
  rw [error] at ends
  cases accepted : shape.accepts value with
  | false => rfl
  | true =>
    rw [accepted] at ends
    rcases ends with ends | ⟨tree, more, ends⟩ <;> cases ends

/-- A rejection leaves no trace, even where shapes inside of the rejected one were tried and given
up: it comes without warnings, and a union that tries the shape first, in whatever context, reports
what its second shape reports and nothing else. -/
theorem rejection_leaves_no_trace {records : Records} {depth : Nat} {message : String}
    {warnings : List String}
    (rejected : tryConvert (fillRecord records depth) shape context value =
      some (.error message, warnings)) :
    warnings = [] ∧
      ∀ (other : Shape) (outer : String) (outcome : Except String Plain) (reported : List String),
        tryConvert (fillRecord records depth) other (outer ++ ".AsT1") value =
            some (outcome, reported) →
          ∃ result, tryConvert (fillRecord records depth) (.union shape other) outer value =
            some (result, reported) := by
  have refuses := rejects_of_tryConvert rejected
  constructor
  · obtain ⟨message', silent⟩ := tryConvert_of_rejects refuses (fillRecord records depth) context
    obtain ⟨-, none⟩ := Prod.mk.inj (Option.some.inj (rejected.symm.trans silent))
    exact none
  · -- The context of the first shape is another one in the union, but that makes no difference.
    intro other outer outcome reported tried
    obtain ⟨message', silent⟩ :=
      tryConvert_of_rejects refuses (fillRecord records depth) (outer ++ ".AsT0")
    rw [tryConvert_union (ne_null_of_rejects refuses), silent, tried]
    have alone : [] ++ (reported ++ []) = reported := by simp
    cases outcome with
    | ok converted =>
      exact ⟨.ok (.union .second converted), congrArg (fun texts => some (_, texts)) alone⟩
    | error text =>
      exact ⟨.error (expectedUnion shape other value outer),
        congrArg (fun texts => some (_, texts)) alone⟩

/-- A flag or a list of points, given a point whose coordinate is a text. The shapes that are tried
in vain report nothing, and the record that is taken in the end warns of the coordinate. -/
theorem rejection_leaves_no_trace_point :
    let points : Records := [("Point", [⟨"x", "x", .int⟩])]
    let flags : Shape := .optional (.union .bool (.output (.array (.record "Point"))))
    let point : Plain := .object [("x", .string "left")]
    tryConvert (fillRecord points 1) flags "at" point =
        some (.error "Expected bool or Output<Vec<Point>> but got object deserializing at", []) ∧
      ∃ result, tryConvert (fillRecord points 1) (.union flags (.record "Point")) "at" point =
        some (result, ["Expected int but got string deserializing Point(x)"]) := by
  intro points flags point
  have rejected : tryConvert (fillRecord points 1) flags "at" point =
      some (.error "Expected bool or Output<Vec<Point>> but got object deserializing at", []) := rfl
  exact ⟨rejected, (rejection_leaves_no_trace rejected).2 (.record "Point") "at" _ _ rfl⟩

end Provision.Shape
