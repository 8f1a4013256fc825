import Provision.Proofs.Shape.Checking

/-!
# What a valid shape is

The check of a shape visits every shape that can be reached from it, through inner shapes and
the parameters of records, and succeeds exactly if all of them are sound by themselves
(`checked_iff`). A record that is visited already may still be under way, so its parameters are
known to be sound only when the whole check is over. Records may refer to themselves and to each
other; the check ends all the same (`validation_decides`).
-/

namespace Provision

namespace Shape

variable {records : Records}

def parts (records : Records) : Shape → List Shape
  | .optional inner => [inner]
  | .union first second => [first, second]
  | .array element => [element]
  | .map key value => [key, value]
  | .output inner => [inner]
  | .record name => (records.parameters name).map Parameter.shape
  | _ => []

/-- The second shape is the first, or inside it, or in a parameter of a record inside it. -/
inductive Reaches (records : Records) : Shape → Shape → Prop where
  | here (shape : Shape) : Reaches records shape shape
  | inside {shape part last : Shape} (member : part ∈ shape.parts records)
      (rest : Reaches records part last) : Reaches records shape last

/-- Nothing is wrong with the shape itself. -/
def Sound (records : Records) : Shape → Prop
  | .optional (.optional _) => False
  | .output (.output _) => False
  | .map key _ => key = .string
  | .unsupported _ => False
  | .record name => ((records.parameters name).map Parameter.wireName).Nodup
  | _ => True

/-- Nothing is wrong with the shape and its inner shapes, and its records are among `names`. -/
def Fine (names : List String) : Shape → Prop
  | .optional inner => (∀ s, inner ≠ .optional s) ∧ Fine names inner
  | .union first second => Fine names first ∧ Fine names second
  | .array element => Fine names element
  | .map key value => key = .string ∧ Fine names value
  | .output inner => (∀ s, inner ≠ .output s) ∧ Fine names inner
  | .record name => name ∈ names
  | .unsupported _ => False
  | _ => True

/-- The record was checked, and those in its parameters are among `names`. -/
structure Entered (records : Records) (names : List String) (name : String) : Prop where
  nodup : ((records.parameters name).map Parameter.wireName).Nodup
  fine : ∀ p ∈ records.parameters name, p.shape.Fine names

theorem Fine.mono {names names' : List String} (sub : names ⊆ names') {shape : Shape}
    (fine : shape.Fine names) : shape.Fine names' := by
  induction shape with
  | optional inner ih | output inner ih => exact ⟨fine.1, ih fine.2⟩
  | union a b iha ihb => exact ⟨iha fine.1, ihb fine.2⟩
  | array element ih => exact ih fine
  | map key value _ ih => exact ⟨fine.1, ih fine.2⟩
  | record name => exact sub fine
  | unsupported name => exact fine
  | _ => trivial

theorem Entered.mono {names names' : List String} (sub : names ⊆ names') {name : String}
    (entered : Entered records names name) : Entered records names' name :=
  ⟨entered.nodup, fun p hp => (entered.fine p hp).mono sub⟩

/-- Records were entered, and all that they mention was visited. -/
structure Visits (records : Records) (seen seen' : List String) : Prop where
  sub : seen ⊆ seen'
  entered : ∀ name ∈ seen', name ∉ seen → Entered records seen' name

theorem Visits.refl (seen : List String) : Visits records seen seen :=
  ⟨fun _ h => h, fun _ h fresh => absurd h fresh⟩

theorem Visits.trans {s₁ s₂ s₃ : List String} (h : Visits records s₁ s₂)
    (h' : Visits records s₂ s₃) : Visits records s₁ s₃ where
  sub := fun _ member => h'.sub (h.sub member)
  entered := by
    intro name member fresh
    by_cases old : name ∈ s₂
    · exact (h.entered name old fresh).mono h'.sub
    · exact h'.entered name member old

/-- What is known of a duty when it was done and the records among `names` were visited. -/
def Duty.Passed (names : List String) : Duty → Prop
  | .shape whole _ => whole.Fine names
  | .parameters _ _ rest wireNames =>
    (∀ p ∈ rest, p.shape.Fine names) ∧ (rest.map Parameter.wireName).Nodup ∧
      ∀ p ∈ rest, p.wireName ∉ wireNames

/-- What a check that succeeds shows. -/
theorem Checks.passed {duty : Duty} {seen seen' : List String}
    {outcome : Except Failure (List String)} (checks : Checks records duty seen outcome)
    (ok : outcome = .ok seen') : Visits records seen seen' ∧ duty.Passed seen' := by
  induction checks generalizing seen' with
  | @simple shape _ _ simple =>
    cases ok
    refine ⟨.refl _, ?_⟩
    cases shape <;> trivial
  | optional single _ ih | output single _ ih =>
    obtain ⟨visits, fine⟩ := ih ok
    exact ⟨visits, fun s same => single s same, fine⟩
  | union _ _ left right =>
    obtain ⟨visits, fine⟩ := left rfl
    obtain ⟨visits', fine'⟩ := right ok
    exact ⟨visits.trans visits', fine.mono visits'.sub, fine'⟩
  | array _ ih => exact ih ok
  | map _ ih =>
    obtain ⟨visits, fine⟩ := ih ok
    exact ⟨visits, rfl, fine⟩
  | visited old =>
    cases ok
    exact ⟨.refl _, old⟩
  | @record name _ _ _ fresh _ ih =>
    obtain ⟨visits, fine, nodup, -⟩ := ih ok
    have mem := visits.sub List.mem_cons_self
    refine ⟨⟨fun _ member => visits.sub (List.mem_cons_of_mem _ member), ?_⟩, mem⟩
    intro other member fresh'
    by_cases same : other = name
    · exact same ▸ ⟨nodup, fine⟩
    · exact visits.entered other member (by simp [same, fresh'])
  | noParameter =>
    cases ok
    exact ⟨.refl _, by simp, List.nodup_nil, by simp⟩
  | parameter new _ _ first later =>
    obtain ⟨visits, fine⟩ := first rfl
    obtain ⟨visits', all, nodup, apart⟩ := later ok
    refine ⟨visits.trans visits', ?_, ?_, ?_⟩
    · intro q member
      rcases List.mem_cons.mp member with rfl | member
      · exact fine.mono visits'.sub
      · exact all q member
    · refine List.nodup_cons.mpr ⟨?_, nodup⟩
      intro member
      obtain ⟨q, hq, same⟩ := List.mem_map.mp member
      exact apart q hq (by simp [same])
    · intro q member
      rcases List.mem_cons.mp member with rfl | member
      · exact new
      · exact fun old => apart q member (List.mem_cons_of_mem _ old)
  | _ => cases ok

/-- Something is wrong with a shape that is reached. -/
def Flawed (records : Records) (shape : Shape) : Prop :=
  ∃ node, Reaches records shape node ∧ ¬ node.Sound records

/-- What is wrong with a part is wrong with the whole. -/
theorem Flawed.of_part {shape part : Shape} (flawed : part.Flawed records)
    (member : part ∈ shape.parts records) : shape.Flawed records := by
  obtain ⟨node, path, unsound⟩ := flawed
  exact ⟨node, .inside member path, unsound⟩

/-- Something is wrong with a shape that is to be checked, or a property is read twice. -/
def Duty.Flawed (records : Records) : Duty → Prop
  | .shape whole _ => whole.Flawed records
  | .parameters _ _ rest wireNames =>
    (∃ p ∈ rest, p.shape.Flawed records) ∨
      ¬ (rest.map Parameter.wireName).Nodup ∨ ∃ p ∈ rest, p.wireName ∈ wireNames

/-- A check fails for a reason. -/
theorem Checks.flawed {duty : Duty} {seen : List String} {cause : Failure}
    {outcome : Except Failure (List String)} (checks : Checks records duty seen outcome)
    (error : outcome = .error cause) : duty.Flawed records := by
  induction checks with
  | optional _ _ ih | output _ _ ih | array _ ih | map _ ih =>
    exact Flawed.of_part (ih error) (by simp [parts])
  | optionalTwice | outputTwice | unsupported => exact ⟨_, .here _, id⟩
  | mapKey other => exact ⟨_, .here _, other⟩
  | union _ _ _ right => exact Flawed.of_part (right error) (by simp [parts])
  | unionFirst _ left => exact Flawed.of_part (left error) (by simp [parts])
  | record _ _ ih =>
    rcases ih error with ⟨p, member, part⟩ | twice | ⟨p, _, read⟩
    · exact part.of_part (List.mem_map_of_mem member)
    · exact ⟨_, .here _, twice⟩
    · cases read
  | parameterTwice read => exact .inr (.inr ⟨_, List.mem_cons_self, read⟩)
  | parameterFails _ _ first => exact .inl ⟨_, List.mem_cons_self, first error⟩
  | parameter _ _ _ _ later =>
    rcases later error with ⟨p, member, part⟩ | twice | ⟨p, member, read⟩
    · exact .inl ⟨p, List.mem_cons_of_mem _ member, part⟩
    · exact .inr (.inl fun nodup => twice (List.nodup_cons.mp nodup).2)
    · rcases List.mem_cons.mp read with same | read
      · refine .inr (.inl fun nodup => (List.nodup_cons.mp nodup).1 ?_)
        exact same ▸ List.mem_map_of_mem member
      · exact .inr (.inr ⟨p, List.mem_cons_of_mem _ member, read⟩)
  | _ => cases error

/-- What is reached from inside stays inside, if all records there were entered. -/
theorem Reaches.fine {names : List String} {shape last : Shape}
    (entered : ∀ name ∈ names, Entered records names name) (path : Reaches records shape last)
    (fine : shape.Fine names) : last.Fine names := by
  induction path with
  | here => exact fine
  | inside member _ ih =>
    rename_i shape part _ _
    refine ih ?_
    cases shape with
    | optional inner | output inner =>
      obtain rfl := List.mem_singleton.mp member
      exact fine.2
    | union first second =>
      rcases List.mem_cons.mp member with rfl | member
      · exact fine.1
      · obtain rfl := List.mem_singleton.mp member
        exact fine.2
    | array element =>
      obtain rfl := List.mem_singleton.mp member
      exact fine
    | map key value =>
      rcases List.mem_cons.mp member with rfl | member
      · rw [fine.1]
        trivial
      · obtain rfl := List.mem_singleton.mp member
        exact fine.2
    | record name =>
      obtain ⟨p, hp, rfl⟩ := List.mem_map.mp member
      exact (entered name fine).fine p hp
    | _ => cases member

theorem Fine.sound {names : List String} {shape : Shape}
    (entered : ∀ name ∈ names, Entered records names name) (fine : shape.Fine names) :
    shape.Sound records := by
  cases shape with
  | optional inner =>
    cases inner with
    | optional s => exact fine.1 s rfl
    | _ => trivial
  | output inner =>
    cases inner with
    | output s => exact fine.1 s rfl
    | _ => trivial
  | map key value => exact fine.1
  | record name => exact (entered name fine).nodup
  | unsupported name => exact fine
  | _ => trivial

/-- A shape is valid exactly if every shape that it reaches is sound by itself. -/
theorem checked_iff (shape : Shape) (context : String) :
    validate records shape context = .ok () ↔
      ∀ node, Reaches records shape node → node.Sound records := by
  obtain ⟨outcome, checks, same⟩ := validate_checks records shape context
  rw [same]
  cases outcome with
  | ok names =>
    obtain ⟨visits, fine⟩ := checks.passed rfl
    have entered : ∀ name ∈ names, Entered records names name :=
      fun name member => visits.entered name member List.not_mem_nil
    exact iff_of_true rfl fun node path => (path.fine entered fine).sound entered
  | error cause =>
    obtain ⟨node, path, unsound⟩ := checks.flawed rfl
    exact iff_of_false nofun fun all => unsound (all node path)

/-- A shape that is valid in one context is valid in every other. -/
theorem validate_context {shape : Shape} {first second : String}
    (valid : validate records shape first = .ok ()) : validate records shape second = .ok () :=
  (checked_iff shape second).mpr ((checked_iff shape first).mp valid)

/-- The check of a shape, entering records from each other without a limit, comes to exactly one
outcome, which is that of the validation; and the shape is valid exactly if no shape that it
reaches, through inner shapes and the parameters of records, is unsound by itself. -/
theorem validation_decides (records : Records) (shape : Shape) (context : String) :
    (∃ outcome, (∀ other, Checks records (.shape shape context) [] other ↔ other = outcome) ∧
        validate records shape context = outcome.map fun _ => ()) ∧
      (validate records shape context = .ok () ↔
        ∀ node, Reaches records shape node → node.Sound records) := by
  obtain ⟨outcome, checks, same⟩ := validate_checks records shape context
  refine ⟨⟨outcome, fun other => ⟨checks.unique, ?_⟩, same⟩, checked_iff shape context⟩
  rintro rfl
  exact checks

end Shape

end Provision
