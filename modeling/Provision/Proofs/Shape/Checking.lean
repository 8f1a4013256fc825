import Provision.Shape.Validity

/-!
# How a shape is checked

The check of a shape as a derivation: which checks are made for it, one after the other, and what
comes out. No limit is set to how deep records are entered from each other, so a derivation is
there only if the check ends. It always does (`validate_checks`): every record that is entered is
one of the table that was not visited before, but for a name without a definition, which has no
parameters.
-/

namespace Provision

namespace Records

/-- How many records of the table were not visited. -/
def unvisited (seen : List String) : Records → Nat
  | [] => 0
  | r :: rest => (if r.1 ∈ seen then 0 else 1) + unvisited seen rest

theorem unvisited_le_length (seen : List String) (records : Records) :
    records.unvisited seen ≤ records.length := by
  induction records with
  | nil => exact Nat.le_refl _
  | cons r rest ih =>
    unfold unvisited
    rw [List.length_cons]
    split <;> omega

theorem unvisited_mono {seen seen' : List String} (sub : seen ⊆ seen') (records : Records) :
    records.unvisited seen' ≤ records.unvisited seen := by
  induction records with
  | nil => exact Nat.le_refl _
  | cons r rest ih =>
    unfold unvisited
    by_cases old : r.1 ∈ seen
    · simp only [old, sub old, if_true]
      omega
    · simp only [old, if_false]
      split <;> omega

/-- A record of the table is unvisited until it is entered. -/
theorem unvisited_enter {name : String} {seen : List String} (fresh : name ∉ seen)
    (records : Records) (defined : records.lookup name ≠ none) :
    records.unvisited (name :: seen) < records.unvisited seen := by
  induction records with
  | nil => exact absurd rfl defined
  | cons r rest ih =>
    unfold unvisited
    by_cases same : name = r.1
    · have mono := unvisited_mono (List.subset_cons_self name seen) rest
      simp only [← same, fresh, List.mem_cons_self, if_true, if_false]
      omega
    · have later := ih (by simpa [same] using defined)
      have here : (r.1 ∈ name :: seen) = (r.1 ∈ seen) := by
        simp [Ne.symm same]
      simp only [here]
      omega

end Records

namespace Shape

variable {records : Records} {shape : Shape} {context : String} {seen : List String}
  {outcome : Except Failure (List String)}

/-- Shapes that have no parts and are always valid. -/
def isSimple : Shape → Bool
  | .bool | .int | .number | .string | .any | .json | .asset | .archive | .file | .resource
  | .enum _ _ => true
  | _ => false

/-- What is to be checked: a shape, or the last parameters of a record, once the properties of
those before them are known. -/
inductive Duty where
  | shape (shape : Shape) (context : String)
  | parameters (record context : String) (rest : List Parameter) (wireNames : List String)

/-- A check, begun when some records have been visited, comes out with those visited by its end,
or with a failure. -/
inductive Checks (records : Records) :
    Duty → List String → Except Failure (List String) → Prop where
  | simple {shape : Shape} {context : String} {seen : List String}
      (simple : shape.isSimple = true) :
      Checks records (.shape shape context) seen (.ok seen)
  | optional {inner : Shape} {context : String} {seen : List String}
      {outcome : Except Failure (List String)} (single : ∀ s, inner ≠ .optional s)
      (rest : Checks records (.shape inner context) seen outcome) :
      Checks records (.shape (.optional inner) context) seen outcome
  | optionalTwice {inner : Shape} {context : String} {seen : List String} :
      Checks records (.shape (.optional (.optional inner)) context) seen
        (.error ((optional (.optional inner)).invalid context "nested optionals are ambiguous"))
  | output {inner : Shape} {context : String} {seen : List String}
      {outcome : Except Failure (List String)} (single : ∀ s, inner ≠ .output s)
      (rest : Checks records (.shape inner context) seen outcome) :
      Checks records (.shape (.output inner) context) seen outcome
  | outputTwice {inner : Shape} {context : String} {seen : List String} :
      Checks records (.shape (.output (.output inner)) context) seen
        (.error ((output (.output inner)).invalid context "outputs cannot be nested directly"))
  | union {first second : Shape} {context : String} {seen middle : List String}
      {outcome : Except Failure (List String)}
      (left : Checks records (.shape first context) seen (.ok middle))
      (right : Checks records (.shape second context) middle outcome) :
      Checks records (.shape (.union first second) context) seen outcome
  | unionFirst {first second : Shape} {context : String} {seen : List String} {cause : Failure}
      (left : Checks records (.shape first context) seen (.error cause)) :
      Checks records (.shape (.union first second) context) seen (.error cause)
  | array {element : Shape} {context : String} {seen : List String}
      {outcome : Except Failure (List String)}
      (rest : Checks records (.shape element context) seen outcome) :
      Checks records (.shape (.array element) context) seen outcome
  | map {value : Shape} {context : String} {seen : List String}
      {outcome : Except Failure (List String)}
      (rest : Checks records (.shape value context) seen outcome) :
      Checks records (.shape (.map .string value) context) seen outcome
  | mapKey {key value : Shape} {context : String} {seen : List String} (other : key ≠ .string) :
      Checks records (.shape (.map key value) context) seen
        (.error ((map key value).invalid context
          ("map keys must be strings, not " ++ key.typeName)))
  | visited {name context : String} {seen : List String} (old : name ∈ seen) :
      Checks records (.shape (.record name) context) seen (.ok seen)
  | record {name context : String} {seen : List String} {outcome : Except Failure (List String)}
      (fresh : name ∉ seen)
      (rest : Checks records (.parameters name context (records.parameters name) []) (name :: seen)
        outcome) :
      Checks records (.shape (.record name) context) seen outcome
  | unsupported {name context : String} {seen : List String} :
      Checks records (.shape (.unsupported name) context) seen
        (.error ((unsupported name).invalid context (name ++ " is not a marshalable type")))
  | noParameter {record context : String} {wireNames seen : List String} :
      Checks records (.parameters record context [] wireNames) seen (.ok seen)
  | parameterTwice {record context : String} {p : Parameter} {rest : List Parameter}
      {wireNames seen : List String} (read : p.wireName ∈ wireNames) :
      Checks records (.parameters record context (p :: rest) wireNames) seen
        (.error ((Shape.record record).invalid context
          ("constructor parameter '" ++ p.wireName ++ "' is declared twice")))
  | parameterFails {record context : String} {p : Parameter} {rest : List Parameter}
      {wireNames seen : List String} {cause : Failure} (new : p.wireName ∉ wireNames)
      (first : Checks records (.shape p.shape (parameterContext record p.name)) seen
        (.error cause)) :
      Checks records (.parameters record context (p :: rest) wireNames) seen (.error cause)
  | parameter {record context : String} {p : Parameter} {rest : List Parameter}
      {wireNames seen middle : List String} {outcome : Except Failure (List String)}
      (new : p.wireName ∉ wireNames)
      (first : Checks records (.shape p.shape (parameterContext record p.name)) seen (.ok middle))
      (later : Checks records (.parameters record context rest (p.wireName :: wireNames)) middle
        outcome) :
      Checks records (.parameters record context (p :: rest) wireNames) seen outcome

/-- No record is forgotten that was visited. -/
theorem Checks.subset {duty : Duty} {seen' : List String}
    (checks : Checks records duty seen outcome) (ok : outcome = .ok seen') : seen ⊆ seen' := by
  induction checks generalizing seen' with
  | simple | visited | noParameter =>
    cases ok
    exact List.Subset.refl _
  | optional _ _ ih | output _ _ ih | array _ ih | map _ ih => exact ih ok
  | union _ _ left right | parameter _ _ _ left right =>
    exact List.Subset.trans (left rfl) (right ok)
  | record _ _ ih => exact List.Subset.trans (List.subset_cons_self _ _) (ih ok)
  | _ => cases ok

/-- A check has one outcome only. -/
theorem Checks.unique {duty : Duty} {outcome' : Except Failure (List String)}
    (checks : Checks records duty seen outcome) (checks' : Checks records duty seen outcome') :
    outcome' = outcome := by
  induction checks generalizing outcome' with
  | simple simple => cases checks' <;> first | rfl | cases simple
  | optional single _ ih =>
    cases checks' with
    | simple simple => cases simple
    | optional _ rest => exact ih rest
    | optionalTwice => exact absurd rfl (single _)
  | optionalTwice =>
    cases checks' with
    | simple simple => cases simple
    | optional single => exact absurd rfl (single _)
    | optionalTwice => rfl
  | output single _ ih =>
    cases checks' with
    | simple simple => cases simple
    | output _ rest => exact ih rest
    | outputTwice => exact absurd rfl (single _)
  | outputTwice =>
    cases checks' with
    | simple simple => cases simple
    | output single => exact absurd rfl (single _)
    | outputTwice => rfl
  | union _ _ left right =>
    cases checks' with
    | simple simple => cases simple
    | union left' right' =>
      cases left left'
      exact right right'
    | unionFirst left' => cases left left'
  | unionFirst _ left =>
    cases checks' with
    | simple simple => cases simple
    | union left' => cases left left'
    | unionFirst left' => exact left left'
  | array _ ih =>
    cases checks' with
    | simple simple => cases simple
    | array rest => exact ih rest
  | map _ ih =>
    cases checks' with
    | simple simple => cases simple
    | map rest => exact ih rest
    | mapKey other => exact absurd rfl other
  | mapKey other =>
    cases checks' with
    | simple simple => cases simple
    | map => exact absurd rfl other
    | mapKey => rfl
  | visited old =>
    cases checks' with
    | simple simple => cases simple
    | visited => rfl
    | record fresh => exact absurd old fresh
  | record fresh _ ih =>
    cases checks' with
    | simple simple => cases simple
    | visited old => exact absurd old fresh
    | record _ rest => exact ih rest
  | unsupported =>
    cases checks' with
    | simple simple => cases simple
    | unsupported => rfl
  | noParameter =>
    cases checks'
    rfl
  | parameterTwice read =>
    cases checks' with
    | parameterTwice => rfl
    | parameterFails new | parameter new => exact absurd read new
  | parameterFails new _ first =>
    cases checks' with
    | parameterTwice read => exact absurd read new
    | parameterFails _ first' => exact first first'
    | parameter _ first' => cases first first'
  | parameter new _ _ first later =>
    cases checks' with
    | parameterTwice read => exact absurd read new
    | parameterFails _ first' => cases first first'
    | parameter _ first' later' =>
      cases first first'
      exact later later'

/-! ### The check ends -/

/-- The check of a shape ends, if entering records does. -/
theorem checkWith_checks {enter : String → List String → String → Except Failure (List String)}
    {depth : Nat}
    (entering : ∀ name seen context, records.unvisited seen < depth →
      Checks records (.shape (.record name) context) seen (enter name seen context))
    (shape : Shape) (context : String) (seen : List String)
    (enough : records.unvisited seen < depth) :
    Checks records (.shape shape context) seen (checkWith enter shape context seen) := by
  induction shape generalizing seen with
  | optional inner ih =>
    unfold checkWith
    split
    · exact .optionalTwice
    · rename_i single
      exact .optional single (ih seen enough)
  | output inner ih =>
    unfold checkWith
    split
    · exact .outputTwice
    · rename_i single
      exact .output single (ih seen enough)
  | union first second ihf ihs =>
    have left := ihf seen enough
    unfold checkWith
    split
    · rename_i middle passed
      rw [passed] at left
      have less := Records.unvisited_mono (left.subset rfl) records
      exact .union left (ihs middle (by omega))
    · rename_i cause failed
      rw [failed] at left
      exact .unionFirst left
  | array element ih => exact .array (ih seen enough)
  | map key value _ ih =>
    unfold checkWith
    split
    · rename_i text
      exact text ▸ .map (ih seen enough)
    · rename_i other
      exact .mapKey other
  | record name => exact entering name seen context enough
  | unsupported name => exact .unsupported
  | _ => exact .simple rfl

/-- The check of a record's parameters ends, if that of their shapes does. -/
theorem checkParameters_checks
    {check : Shape → String → List String → Except Failure (List String)} {depth : Nat}
    (checking : ∀ shape context seen, records.unvisited seen < depth →
      Checks records (.shape shape context) seen (check shape context seen))
    (record context : String) (parameters : List Parameter) (wireNames seen : List String)
    (enough : records.unvisited seen < depth) :
    Checks records (.parameters record context parameters wireNames) seen
      (checkParameters check record context parameters wireNames seen) := by
  induction parameters generalizing wireNames seen with
  | nil => exact .noParameter
  | cons p rest ih =>
    have first := checking p.shape (parameterContext record p.name) seen enough
    unfold checkParameters
    split
    · rename_i read
      exact .parameterTwice read
    · rename_i new
      split
      · rename_i middle passed
        rw [passed] at first
        have less := Records.unvisited_mono (first.subset rfl) records
        exact .parameter new first (ih _ middle (by omega))
      · rename_i cause failed
        rw [failed] at first
        exact .parameterFails new first

/-- A record is entered with more depth than there are records to visit. -/
theorem checkRecord_checks (depth : Nat) (name : String) (seen : List String) (context : String)
    (enough : records.unvisited seen < depth) :
    Checks records (.shape (.record name) context) seen
      (checkRecord records depth name seen context) := by
  induction depth generalizing name seen context with
  | zero => omega
  | succ depth ih =>
    unfold checkRecord
    split
    · rename_i old
      exact .visited old
    · rename_i fresh
      refine .record fresh ?_
      by_cases defined : records.lookup name = none
      · have empty : records.parameters name = [] := by simp [Records.parameters, defined]
        rw [empty]
        exact .noParameter
      · have less := Records.unvisited_enter fresh records defined
        exact checkParameters_checks (checkWith_checks ih) name context _ [] _ (by omega)

/-- The check of a shape ends, with the outcome that `validate` gives. -/
theorem validate_checks (records : Records) (shape : Shape) (context : String) :
    ∃ outcome, Checks records (.shape shape context) [] outcome ∧
      validate records shape context = outcome.map fun _ => () := by
  have enough := Records.unvisited_le_length [] records
  exact ⟨_, checkWith_checks (checkRecord_checks (records.length + 1)) shape context [] (by omega),
    rfl⟩

end Shape

end Provision
