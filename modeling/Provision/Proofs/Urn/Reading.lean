import Mathlib.Data.List.TakeWhile
import Provision.Proofs.Urn.Ancestry

/-!
# Reading a URN

The name in a URN is what follows the last `::`, and the type is what follows the last `::` before
that, or the last `$` there. Whatever stands further in front, the type and the name of a resource
are found again if both are unbroken and there is no `$` in the type (`Ordinary.parse?_urn`). Type
tokens are such types, so what is read back depends on the name alone (`read_back_iff`).
-/

namespace Provision.Urn

variable {before after : List Char} {urn : String}

/-! ### Parts that are separated by a `$` -/

theorem infix_append_dollar :
    [':', ':'] <:+: before ++ '$' :: after ↔ [':', ':'] <:+: before ∨ [':', ':'] <:+: after := by
  induction before with
  | nil => simp [infix_cons]
  | cons c before ih =>
    rw [List.cons_append, infix_cons, infix_cons, ih, ← or_assoc]
    -- Whether the next character is a colon is the same with the `$` behind `before`.
    refine or_congr_left (or_congr_left (and_congr_right' ?_))
    cases before with
    | nil => simp
    | cons d before => simp

/-- A `$` keeps the colons before it and after it apart. -/
theorem unbroken_append_dollar (start : Unbroken before) (rest : Unbroken after) :
    Unbroken (before ++ '$' :: after) := by
  unfold Unbroken
  rw [← List.cons_append, infix_append_dollar, not_or]
  exact ⟨start, (unbroken_iff.mp rest).1⟩

theorem afterLastDollar_self (plain : '$' ∉ after) : afterLastDollar after = after := by
  unfold afterLastDollar
  rw [List.takeWhile_eq_self_iff.mpr, List.reverse_reverse]
  intro c member
  exact decide_eq_true fun dollar => plain (dollar ▸ List.mem_reverse.mp member)

theorem afterLastDollar_append (plain : '$' ∉ after) :
    afterLastDollar (before ++ '$' :: after) = after := by
  have split : (before ++ '$' :: after).reverse = after.reverse ++ '$' :: before.reverse := by simp
  have whole := afterLastDollar_self plain
  unfold afterLastDollar at whole ⊢
  rw [split, List.takeWhile_append, List.reverse_eq_iff.mp whole]
  simp

/-! ### What is read -/

/-- A URN is read as a type and a name exactly if it ends in the two, with nothing but types of
ancestors between the type and a `::`. -/
theorem parse?_eq_some_iff {type name : String} :
    parse? urn = some (type, name) ↔ ∃ start qualified,
      urn.toList = start ++ ':' :: ':' :: qualified ++ ':' :: ':' :: name.toList ∧
        Unbroken qualified ∧ Unbroken name.toList ∧ afterLastDollar qualified = type.toList := by
  unfold parse?
  simp only [bind, Option.bind_eq_some_iff, Prod.exists, Option.some.injEq, Prod.mk.injEq]
  constructor
  · rintro ⟨before, name, outer, start, qualified, inner, rfl, rfl⟩
    obtain ⟨whole, unbroken⟩ := splitLast_eq_some_iff.mp outer
    obtain ⟨rfl, unbroken'⟩ := splitLast_eq_some_iff.mp inner
    exact ⟨start, qualified, by simpa using whole, unbroken', by simpa using unbroken, by simp⟩
  · rintro ⟨start, qualified, whole, unbroken', unbroken, last⟩
    exact ⟨_, name.toList, splitLast_eq_some_iff.mpr ⟨whole, unbroken⟩, start, qualified,
      splitLast_eq_some_iff.mpr ⟨rfl, unbroken'⟩, by simp [last], by simp⟩

namespace Ancestry

variable {ancestry : Ancestry}

/-- The type of the last resource, without those of its ancestors. -/
def type : Ancestry → String
  | outermost _ type _ _ => type
  | child _ _ type _ _ => type

/-- The type of a child stands alone or after those of its ancestors. -/
theorem qualifiedType_child_cases (parent : Ancestry) (name type project stack : String) :
    (child parent name type project stack).qualifiedType = type ∨
      (child parent name type project stack).qualifiedType =
        parent.qualifiedType ++ "$" ++ type :=
  ite_eq_or_eq ..

/-- A qualified type is unbroken if the types in it are. -/
theorem Ordinary.unbroken_qualifiedType (ordinary : ancestry.Ordinary) :
    Unbroken ancestry.qualifiedType.toList := by
  induction ancestry with
  | outermost name type project stack => exact ordinary.2
  | child parent name type project stack ih =>
    rcases qualifiedType_child_cases parent name type project stack with alone | qualified
    · rw [alone]
      exact ordinary.2.2
    · rw [qualified]
      simpa using unbroken_append_dollar (ih ordinary.1) ordinary.2.2

/-- What follows the last `$` in a qualified type is the type of the resource itself. -/
theorem afterLastDollar_qualifiedType (plain : '$' ∉ ancestry.type.toList) :
    afterLastDollar ancestry.qualifiedType.toList = ancestry.type.toList := by
  cases ancestry with
  | outermost => exact afterLastDollar_self plain
  | child parent name type project stack =>
    rcases qualifiedType_child_cases parent name type project stack with alone | qualified
    · rw [alone]
      exact afterLastDollar_self plain
    · rw [qualified]
      simpa [Ancestry.type] using afterLastDollar_append plain

/-- The URN of an ordinary resource is read as its type and its name. -/
theorem Ordinary.parse?_urn (ordinary : ancestry.Ordinary) (plain : '$' ∉ ancestry.type.toList) :
    parse? ancestry.urn = some (ancestry.type, ancestry.name) := by
  refine parse?_eq_some_iff.mpr ⟨("urn:pulumi:" ++ ancestry.header).toList,
    ancestry.qualifiedType.toList, ?_, ordinary.unbroken_qualifiedType, ordinary.unbroken_name,
    afterLastDollar_qualifiedType plain⟩
  rw [ordinary.urn_eq]
  simp

end Ancestry

/-! ### Type tokens -/

/-- Three parts with a colon between them, none of them empty and none with a colon or a `$`. -/
def IsToken (type : String) : Prop :=
  ∃ package group member : String, type = package ++ ":" ++ group ++ ":" ++ member ∧
    ∀ part ∈ [package, group, member], part ≠ "" ∧ ':' ∉ part.toList ∧ '$' ∉ part.toList

theorem infix_append_of_not_mem (plain : ':' ∉ before) :
    [':', ':'] <:+: before ++ after ↔ [':', ':'] <:+: after := by
  induction before with
  | nil => rfl
  | cons c before ih =>
    obtain ⟨other, plain⟩ := not_or.mp (List.mem_cons.not.mp plain)
    rw [List.cons_append, infix_cons, ih plain, or_iff_right fun same => other same.1.symm]

theorem unbroken_of_not_mem (plain : ':' ∉ after) : Unbroken after := by
  refine unbroken_iff.mpr ⟨fun colons => ?_, fun first => plain (List.mem_of_head? first)⟩
  rw [← List.append_nil after, infix_append_of_not_mem plain] at colons
  cases List.infix_nil.mp colons

/-- A colon may stand behind a part that is not empty. -/
theorem unbroken_append_colon (plain : ':' ∉ before) (present : before ≠ [])
    (rest : Unbroken after) : Unbroken (before ++ ':' :: after) := by
  refine unbroken_iff.mpr ⟨(infix_append_of_not_mem plain).not.mpr rest, fun first => ?_⟩
  rw [List.head?_append_of_ne_nil before present] at first
  exact plain (List.mem_of_head? first)

theorem IsToken.unbroken {type : String} (token : IsToken type) : Unbroken type.toList := by
  obtain ⟨package, group, member, rfl, parts⟩ := token
  simp only [List.forall_mem_cons, ne_eq, ← String.toList_eq_nil_iff] at parts
  obtain ⟨⟨some, plain, -⟩, ⟨some', plain', -⟩, ⟨-, plain'', -⟩, -⟩ := parts
  simpa using unbroken_append_colon plain some
    (unbroken_append_colon plain' some' (unbroken_of_not_mem plain''))

theorem IsToken.dollar_not_mem {type : String} (token : IsToken type) : '$' ∉ type.toList := by
  obtain ⟨package, group, member, rfl, parts⟩ := token
  simp only [List.forall_mem_cons] at parts
  simp [parts]

/-- The types of all are tokens, and the names of all are unbroken. -/
def Ancestry.Regular : Ancestry → Prop
  | outermost name type _ _ => Unbroken name.toList ∧ IsToken type
  | child parent name type _ _ => parent.Regular ∧ Unbroken name.toList ∧ IsToken type

theorem Ancestry.Regular.ordinary {ancestry : Ancestry} (regular : ancestry.Regular) :
    ancestry.Ordinary := by
  induction ancestry with
  | outermost => exact ⟨regular.1, regular.2.unbroken⟩
  | child _ _ _ _ _ ih => exact ⟨ih regular.1, regular.2.1, regular.2.2.unbroken⟩

/-- Whatever the project and the stack, and whatever the ancestors are if they are regular, the type
and the name are read back from a URN exactly if there is no `::` in the name and the name does not
begin with a colon. -/
theorem read_back_iff {type : String} {parent : Option Ancestry} (token : IsToken type)
    (regular : ∀ above ∈ parent, above.Regular) (name project stack : String) :
    parse? (create name type (parent.map Ancestry.urn) project stack) = some (type, name) ↔
      ¬ [':', ':'] <:+: name.toList ∧ name.toList.head? ≠ some ':' := by
  rw [← unbroken_iff]
  constructor
  · -- What is read as a name is unbroken, whatever it is read from.
    intro read
    obtain ⟨-, -, -, -, unbroken, -⟩ := parse?_eq_some_iff.mp read
    exact unbroken
  · intro unbroken
    cases parent with
    | none =>
      have ordinary : (Ancestry.outermost name type project stack).Ordinary :=
        ⟨unbroken, token.unbroken⟩
      exact ordinary.parse?_urn token.dollar_not_mem
    | some above =>
      have ordinary : (Ancestry.child above name type project stack).Ordinary :=
        ⟨(regular above rfl).ordinary, unbroken, token.unbroken⟩
      exact ordinary.parse?_urn token.dollar_not_mem

/-- A root stack, a network in it, and a gateway of the network. -/
def gateway : Ancestry :=
  .child (.child (.outermost "app-dev" rootStackType "app" "dev") "net" "pkg:index:Network" "app"
    "dev") "gate:way" "pkg:index:Gateway" "app" "dev"

/-- The type and the name of a widget below the gateway are read back, also if there is a colon in
the name; if the name begins with one, they are not. -/
theorem read_back_iff_widget :
    IsToken "pkg:index:Widget" ∧ gateway.Regular ∧
      parse? "urn:pulumi:dev::app::pkg:index:Network$pkg:index:Gateway$pkg:index:Widget::w:1" =
        some ("pkg:index:Widget", "w:1") ∧
      parse? "urn:pulumi:dev::app::pkg:index:Network$pkg:index:Gateway$pkg:index:Widget:::w" ≠
        some ("pkg:index:Widget", ":w") := by
  have token : IsToken "pkg:index:Widget" := ⟨"pkg", "index", "Widget", rfl, by decide⟩
  have regular : gateway.Regular :=
    ⟨⟨⟨by decide, "pulumi", "pulumi", "Stack", rfl, by decide⟩, by decide, "pkg", "index",
      "Network", rfl, by decide⟩, by decide, "pkg", "index", "Gateway", rfl, by decide⟩
  have each : ∀ above ∈ some gateway, above.Regular := by simpa using regular
  exact ⟨token, regular, (read_back_iff token each "w:1" "app" "dev").mpr (by decide),
    (read_back_iff token each ":w" "app" "dev").not.mpr (by decide)⟩

end Provision.Urn
