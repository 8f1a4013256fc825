import Provision.Proofs.Urn.Splitting

/-!
# What a URN tells of the ancestors

The URN of a child takes over what stands before the name in the URN of its parent, unless that
names a root stack. What stands there is found by the last `::`, so it is what was written if the
name is unbroken, and the root stack is recognized if the types are. Then a URN names its own
qualified type, and the stack and project of the outermost resource that is no root stack
(`urn_eq`). So the stack and project that are given for a child stand in its URN only if the
parent's URN has the same ones (`create_eq_iff_fits`).
-/

namespace Provision.Urn

section Parts

variable {before parent name type project stack : String}

/-! ### What stands before the name -/

theorem splitLast_append {rest : String} (unbroken : Unbroken rest.toList) :
    splitLast (before ++ "::" ++ rest).toList = some (before.toList, rest.toList) :=
  splitLast_eq_some_iff.mpr ⟨by simp, unbroken⟩

/-- Texts with the same last `::` agree before it and after it. -/
theorem append_unique {before' rest rest' : String} (unbroken : Unbroken rest.toList)
    (unbroken' : Unbroken rest'.toList)
    (same : before ++ "::" ++ rest = before' ++ "::" ++ rest') :
    before = before' ∧ rest = rest' := by
  have parts : splitLast (before ++ "::" ++ rest).toList = some (before'.toList, rest'.toList) :=
    same ▸ splitLast_append unbroken'
  rw [splitLast_append unbroken, Option.some.injEq, Prod.mk.injEq] at parts
  exact parts.imp String.toList_inj.mp String.toList_inj.mp

/-- The text before the last `::` of a URN. -/
def Precedes (before urn : String) : Prop :=
  ∃ rest, Unbroken rest.toList ∧ urn = before ++ "::" ++ rest

/-- What stands before the name is taken to be of a root stack. -/
def SeemsStack (before : String) : Prop := ("::" ++ rootStackType).toList <:+ before.toList

theorem Precedes.qualifier_eq (precedes : Precedes before parent) :
    qualifier parent.toList =
      if ("::" ++ rootStackType).toList.isSuffixOf before.toList then none
      else some before.toList := by
  obtain ⟨rest, unbroken, rfl⟩ := precedes
  unfold qualifier
  rw [splitLast_append unbroken]

/-- The child of what seems to be a root stack is named as without a parent. -/
theorem create_of_seemsStack (precedes : Precedes before parent) (stackLike : SeemsStack before) :
    create name type (some parent) project stack = create name type none project stack := by
  have none : qualifier parent.toList = none := by
    rw [precedes.qualifier_eq, if_pos (List.isSuffixOf_iff_suffix.mpr stackLike)]
  unfold create
  rw [Option.bind_some, none]
  rfl

/-- Any other child takes over what stands before the name of its parent. -/
theorem create_of_not_seemsStack (precedes : Precedes before parent)
    (other : ¬ SeemsStack before) :
    create name type (some parent) project stack = before ++ "$" ++ type ++ "::" ++ name := by
  have some : qualifier parent.toList = some before.toList := by
    rw [precedes.qualifier_eq, if_neg fun seems => other (List.isSuffixOf_iff_suffix.mp seems)]
  unfold create
  rw [Option.bind_some, some]
  dsimp only
  rw [String.ofList_toList]

theorem create_none : create name type none project stack =
    "urn:pulumi:" ++ stack ++ "::" ++ project ++ "::" ++ type ++ "::" ++ name := rfl

/-- Every URN holds a `::`. -/
theorem exists_precedes (parent : Option String) :
    ∃ before, Precedes before (create name type parent project stack) := by
  obtain ⟨start, ends⟩ : ∃ start,
      create name type parent project stack = start ++ "::" ++ name := by
    unfold create
    split <;> exact ⟨_, rfl⟩
  rw [ends]
  cases parts : splitLast (start ++ "::" ++ name).toList with
  | none =>
    have separated : [':', ':'] <:+: (start ++ "::" ++ name).toList :=
      ⟨start.toList, name.toList, by simp⟩
    exact absurd separated (splitLast_eq_none_iff.mp parts)
  | some found =>
    obtain ⟨same, unbroken⟩ := splitLast_eq_some_iff.mp parts
    refine ⟨String.ofList found.1, String.ofList found.2, by simpa using unbroken, ?_⟩
    rw [← String.toList_inj]
    simpa using same

theorem Precedes.unique {before' : String} (precedes : Precedes before parent)
    (precedes' : Precedes before' parent) : before = before' := by
  obtain ⟨rest, unbroken, rfl⟩ := precedes
  obtain ⟨rest', unbroken', same⟩ := precedes'
  exact (append_unique unbroken unbroken' same).1

/-! ### Recognizing a root stack -/

/-- An unbroken type after a `::` is the type of a root stack, or does not seem to be. -/
theorem seemsStack_type {start : String} (unbroken : Unbroken type.toList) :
    SeemsStack (start ++ "::" ++ type) ↔ type = rootStackType := by
  constructor
  · rintro ⟨front, same⟩
    have stackType : Unbroken rootStackType.toList := by decide
    have split : start ++ "::" ++ type = String.ofList front ++ "::" ++ rootStackType := by
      rw [← String.toList_inj, ← same]
      simp
    exact (append_unique unbroken stackType split).2
  · rintro rfl
    exact ⟨start.toList, by simp⟩

/-- An unbroken type after a `$` does not seem to be a root stack. -/
theorem not_seemsStack_qualified (unbroken : Unbroken type.toList) (start : String) :
    ¬ SeemsStack (start ++ "$" ++ type) := by
  rintro ⟨front, same⟩
  have texts : start.toList ++ '$' :: type.toList =
      front ++ ("::" ++ rootStackType).toList := by simpa using same.symm
  rcases List.append_eq_append_iff.mp texts with ⟨more, -, inside⟩ | ⟨more, -, inside⟩
  · cases more with
    | nil => cases inside
    | cons c more =>
      -- The `::` before the type of the root stack would stand in this type.
      obtain ⟨-, inside⟩ := List.cons.inj inside
      refine (unbroken_iff.mp unbroken).1 ⟨more, rootStackType.toList, ?_⟩
      rw [inside]
      simp
  · -- The `$` would stand in the type of the root stack.
    have dollar : '$' ∈ ("::" ++ rootStackType).toList := by
      rw [inside]
      simp
    exact absurd dollar (by decide)

end Parts

/-! ### Chains of ancestors -/

/-- The resources that a URN was made for one after the other, each with what was given for it. -/
inductive Ancestry where
  | outermost (name type project stack : String)
  | child (parent : Ancestry) (name type project stack : String)

namespace Ancestry

def urn : Ancestry → String
  | outermost name type project stack => create name type none project stack
  | child parent name type project stack => create name type (some parent.urn) project stack

def name : Ancestry → String
  | outermost name _ _ _ => name
  | child _ name _ _ _ => name

/-- The types from the outermost resource that is no root stack down to the last one. -/
def qualifiedType : Ancestry → String
  | outermost _ type _ _ => type
  | child parent _ type _ _ =>
    if parent.qualifiedType = rootStackType then type else parent.qualifiedType ++ "$" ++ type

/-- A root stack has no parent, so its type is not qualified. -/
def IsRootStack (ancestry : Ancestry) : Prop := ancestry.qualifiedType = rootStackType

instance : DecidablePred IsRootStack :=
  fun ancestry => inferInstanceAs (Decidable (ancestry.qualifiedType = rootStackType))

/-- The stack and the project of the outermost resource that is no root stack. -/
def header : Ancestry → String
  | outermost _ _ project stack => stack ++ "::" ++ project
  | child parent _ _ project stack =>
    if parent.IsRootStack then stack ++ "::" ++ project else parent.header

/-- What stands before the type of a child: the types of its ancestors. -/
def childQualifier (ancestry : Ancestry) : String :=
  if ancestry.IsRootStack then "" else ancestry.qualifiedType ++ "$"

/-- The stack and the project of a child that is given those of `header`. -/
def childHeader (ancestry : Ancestry) (header : String) : String :=
  if ancestry.IsRootStack then header else ancestry.header

/-- The names and types of all are unbroken. -/
def Ordinary : Ancestry → Prop
  | outermost name type _ _ => Unbroken name.toList ∧ Unbroken type.toList
  | child parent name type _ _ => parent.Ordinary ∧ Unbroken name.toList ∧ Unbroken type.toList

variable {ancestry parent : Ancestry} {name type project stack : String}

theorem qualifiedType_child :
    (child parent name type project stack).qualifiedType = parent.childQualifier ++ type := by
  unfold childQualifier
  by_cases stackChild : parent.IsRootStack
  · rw [if_pos stackChild, String.empty_append]
    exact if_pos stackChild
  · rw [if_neg stackChild]
    exact if_neg stackChild

theorem header_child :
    (child parent name type project stack).header =
      parent.childHeader (stack ++ "::" ++ project) := rfl

theorem Ordinary.unbroken_name (ordinary : ancestry.Ordinary) : Unbroken ancestry.name.toList := by
  cases ancestry with
  | outermost => exact ordinary.1
  | child => exact ordinary.2.1

/-- Among ordinary resources a root stack is recognized. -/
theorem Ordinary.seemsStack_iff (ordinary : ancestry.Ordinary) (start : String) :
    SeemsStack (start ++ "::" ++ ancestry.qualifiedType) ↔ ancestry.IsRootStack := by
  cases ancestry with
  | outermost name type project stack => exact seemsStack_type ordinary.2
  | child parent name type project stack =>
    unfold IsRootStack
    rw [qualifiedType_child]
    unfold childQualifier
    split
    · rw [String.empty_append]
      exact seemsStack_type ordinary.2.2
    · refine iff_of_false ?_ fun same => ?_
      · have seems := not_seemsStack_qualified ordinary.2.2 (start ++ "::" ++ parent.qualifiedType)
        simpa only [String.append_assoc] using seems
      · have dollar : '$' ∈ rootStackType.toList := by
          rw [← same]
          simp
        exact absurd dollar (by decide)

/-- The URN of a child, where the parent's tells all that it should. -/
theorem Ordinary.create_of_urn (ordinary : parent.Ordinary)
    (tells : parent.urn =
      "urn:pulumi:" ++ parent.header ++ "::" ++ parent.qualifiedType ++ "::" ++ parent.name) :
    create name type (some parent.urn) project stack =
      "urn:pulumi:" ++ parent.childHeader (stack ++ "::" ++ project) ++ "::" ++
        parent.childQualifier ++ type ++ "::" ++ name := by
  have precedes : Precedes ("urn:pulumi:" ++ parent.header ++ "::" ++ parent.qualifiedType)
      parent.urn := ⟨parent.name, ordinary.unbroken_name, tells⟩
  have seems := ordinary.seemsStack_iff ("urn:pulumi:" ++ parent.header)
  unfold childHeader childQualifier
  split
  · rename_i stackChild
    rw [create_of_seemsStack precedes (seems.mpr stackChild), create_none, String.append_empty]
    simp only [String.append_assoc]
  · rename_i other
    rw [create_of_not_seemsStack precedes fun seemed => other (seems.mp seemed)]
    simp only [String.append_assoc]

/-- What the URN of ordinary resources tells. -/
theorem Ordinary.urn_eq (ordinary : ancestry.Ordinary) :
    ancestry.urn = "urn:pulumi:" ++ ancestry.header ++ "::" ++ ancestry.qualifiedType ++ "::" ++
      ancestry.name := by
  induction ancestry with
  | outermost name type project stack =>
    unfold urn header qualifiedType Ancestry.name
    rw [create_none]
    simp only [String.append_assoc]
  | child parent name type project stack ih =>
    rw [qualifiedType_child, header_child]
    unfold urn Ancestry.name
    rw [ordinary.1.create_of_urn (ih ordinary.1)]
    simp only [String.append_assoc]

/-! ### What a child should be named -/

/-- Before its last `::`, the URN of a resource that is no root stack has the stack and project of
the header and its own qualified type; and it seems to be of a root stack only if it is. -/
def Fits (header : String) (ancestry : Ancestry) : Prop :=
  ∃ before, Precedes before ancestry.urn ∧ (SeemsStack before ↔ ancestry.IsRootStack) ∧
    (¬ ancestry.IsRootStack → before = "urn:pulumi:" ++ header ++ "::" ++ ancestry.qualifiedType)

theorem exists_precedes_urn (ancestry : Ancestry) : ∃ before, Precedes before ancestry.urn := by
  cases ancestry with
  | outermost => exact exists_precedes none
  | child parent => exact exists_precedes (some parent.urn)

/-- A child is named by the stack and project that are given, the types of its ancestors, its own
type and its name exactly if the parent's URN fits. -/
theorem create_eq_iff_fits :
    create name type (some ancestry.urn) project stack =
        "urn:pulumi:" ++ (stack ++ "::" ++ project) ++ "::" ++ ancestry.childQualifier ++ type ++
          "::" ++ name ↔
      ancestry.Fits (stack ++ "::" ++ project) := by
  obtain ⟨before, precedes⟩ := ancestry.exists_precedes_urn
  have fits : ancestry.Fits (stack ++ "::" ++ project) ↔
      (SeemsStack before ↔ ancestry.IsRootStack) ∧ (¬ ancestry.IsRootStack →
        before = "urn:pulumi:" ++ (stack ++ "::" ++ project) ++ "::" ++ ancestry.qualifiedType) :=
    ⟨fun ⟨_, precedes', same⟩ => precedes.unique precedes' ▸ same,
      fun same => ⟨before, precedes, same⟩⟩
  rw [fits]
  unfold childQualifier
  by_cases stackLike : SeemsStack before <;> by_cases stackChild : ancestry.IsRootStack
  · rw [create_of_seemsStack precedes stackLike, create_none, if_pos stackChild]
    simp [stackLike, stackChild, String.append_assoc]
  · -- The types of the ancestors are missing.
    rw [create_of_seemsStack precedes stackLike, create_none, if_neg stackChild]
    refine iff_of_false (fun same => ?_) fun same => stackChild (same.1.mp stackLike)
    have lengths := congrArg String.length same
    simp only [String.length_append] at lengths
    have dollar : "$".length = 1 := rfl
    omega
  · -- A `$` stands where there should be a colon.
    rw [create_of_not_seemsStack precedes stackLike, if_pos stackChild, String.append_empty]
    refine iff_of_false (fun same => ?_) fun same => stackLike (same.1.mpr stackChild)
    simp only [String.append_left_inj] at same
    have ends := congrArg (fun text => text.toList.getLast?) same
    simp only [String.toList_append, List.getLast?_append] at ends
    cases ends
  · have grouped (start : String) : start ++ (ancestry.qualifiedType ++ "$") =
        start ++ ancestry.qualifiedType ++ "$" := String.append_assoc.symm
    rw [create_of_not_seemsStack precedes stackLike, if_neg stackChild, grouped]
    simp only [String.append_left_inj]
    exact ⟨fun same => ⟨iff_of_false stackLike stackChild, fun _ => same⟩,
      fun same => same.2 stackChild⟩

/-- Among ordinary resources, the URN of a root stack fits, and of the others the URN that is in
the same stack and project. -/
theorem Ordinary.fits_iff (ordinary : ancestry.Ordinary) (header : String) :
    ancestry.Fits header ↔ ancestry.IsRootStack ∨ ancestry.header = header := by
  have precedes : Precedes ("urn:pulumi:" ++ ancestry.header ++ "::" ++ ancestry.qualifiedType)
      ancestry.urn := ⟨ancestry.name, ordinary.unbroken_name, ordinary.urn_eq⟩
  constructor
  · rintro ⟨before, precedes', -, same⟩
    by_cases stackChild : ancestry.IsRootStack
    · exact .inl stackChild
    · have whole := (precedes.unique precedes').trans (same stackChild)
      simp only [String.append_left_inj, String.append_right_inj] at whole
      exact .inr whole
  · intro same
    refine ⟨_, precedes, ordinary.seemsStack_iff _, fun other => ?_⟩
    rw [same.resolve_left other]

end Ancestry

end Provision.Urn
