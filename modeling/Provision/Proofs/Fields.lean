import Mathlib.Data.List.Induction
import Mathlib.Data.List.Nodup
import Provision.Value.Basic

/-!
# Finite sets and finite maps

A finite set built from any list ascends (`Ascending.pairwise_ofList`). A finite map is determined
by what is found under its keys (`ext`), and writing a pair keeps it well-formed. In a well-formed
map a key is found exactly with the value that stands with it, also after some of the pairs were
left out. In a map written pair by pair the last pair with a key is found under it.
-/

namespace Provision.Ascending

variable {α : Type} [LT α] [LE α] [DecidableLT α] [DecidableEq α] [Std.IsLinearOrder α]
  [Std.LawfulOrderLT α]

/-- A member is put into its place. -/
theorem pairwise_insert {list : List α} (ascending : list.Pairwise (· < ·)) (x : α) :
    (insert x list).Pairwise (· < ·) := by
  induction list with
  | nil => exact List.pairwise_singleton _ _
  | cons y rest ih =>
    obtain ⟨least, tail⟩ := List.pairwise_cons.mp ascending
    unfold insert
    split
    · exact ascending
    · rename_i different
      split
      · rename_i less
        refine List.pairwise_cons.mpr ⟨?_, ascending⟩
        intro z member
        rcases List.mem_cons.mp member with rfl | member
        · exact less
        · exact Std.lt_trans less (least z member)
      · rename_i notLess
        refine List.pairwise_cons.mpr ⟨?_, ih tail⟩
        intro z member
        rcases (mem_insert x z rest).mp member with rfl | member
        · exact Std.lt_of_le_of_ne (Std.not_lt.mp notLess) (Ne.symm different)
        · exact least z member

theorem pairwise_union {first : List α} (ascending : first.Pairwise (· < ·)) (second : List α) :
    (union first second).Pairwise (· < ·) := by
  unfold union
  induction second generalizing first with
  | nil => exact ascending
  | cons y rest ih => exact ih (pairwise_insert ascending y)

/-- The members of a list, each once and in ascending order. -/
theorem pairwise_ofList (list : List α) : (ofList list).Pairwise (· < ·) :=
  pairwise_union List.Pairwise.nil list

end Provision.Ascending

namespace Provision.Fields

variable {α β : Type} {fields : Fields α}

theorem mem_keys_set (key k : String) (value : α) (fields : Fields α) :
    k ∈ keys (set key value fields) ↔ k = key ∨ k ∈ keys fields := by
  induction fields with
  | nil => simp [set, keys]
  | cons p rest ih =>
    obtain ⟨k', v'⟩ := p
    unfold keys at ih ⊢
    unfold set
    split
    · rename_i same
      subst same
      simp
    · split
      · simp
      · simp only [List.map_cons, List.mem_cons, ih]
        constructor
        · rintro (h | h | h) <;> simp [h]
        · rintro (h | h | h) <;> simp [h]

theorem Ordered.nil : Ordered ([] : Fields α) := List.Pairwise.nil

/-- Writing a pair keeps the keys in their order. -/
theorem Ordered.set {fields : Fields α} (ordered : Ordered fields) (key : String) (value : α) :
    Ordered (Fields.set key value fields) := by
  induction fields with
  | nil => exact List.pairwise_singleton _ _
  | cons p rest ih =>
    obtain ⟨k', v'⟩ := p
    obtain ⟨least, tail⟩ := List.pairwise_cons.mp ordered
    unfold Fields.set
    split
    · rename_i same
      subst same
      exact ordered
    · rename_i different
      split
      · rename_i less
        refine List.pairwise_cons.mpr ⟨?_, ordered⟩
        intro k member
        rcases List.mem_cons.mp member with rfl | member
        · exact less
        · exact String.lt_trans less (least k member)
      · rename_i notLess
        refine List.pairwise_cons.mpr ⟨?_, ih tail⟩
        intro k member
        rcases (mem_keys_set key k value rest).mp member with rfl | member
        · exact Std.lt_of_le_of_ne (Std.not_lt.mp notLess) (Ne.symm different)
        · exact least k member

/-- What is found stands in the map. -/
theorem mem_of_lookup {key : String} {value : α} (found : fields.lookup key = some value) :
    (key, value) ∈ fields := by
  induction fields with
  | nil => cases found
  | cons p rest ih =>
    rw [lookup_cons] at found
    split at found
    · rename_i same
      cases found
      simp [same]
    · exact List.mem_cons_of_mem _ (ih found)

theorem lookup_eq_none {key : String} : fields.lookup key = none ↔ key ∉ keys fields := by
  induction fields with
  | nil => simp [keys]
  | cons p rest ih =>
    unfold keys at ih ⊢
    rw [lookup_cons, List.map_cons, List.mem_cons, not_or, ← ih]
    by_cases same : key = p.1 <;> simp [same]

/-- Where no key stands twice, each is found with its value. -/
theorem lookup_of_nodup {fields : Fields α} (nodup : (keys fields).Nodup) {key : String} {value : α}
    (member : (key, value) ∈ fields) : fields.lookup key = some value := by
  induction fields with
  | nil => cases member
  | cons p rest ih =>
    obtain ⟨fresh, nodup⟩ := List.nodup_cons.mp nodup
    rw [lookup_cons]
    rcases List.mem_cons.mp member with rfl | member
    · simp
    · have different : key ≠ p.1 := by
        rintro rfl
        exact fresh (List.mem_map.mpr ⟨_, member, rfl⟩)
      rw [if_neg different, ih nodup member]

theorem Ordered.lookup {fields : Fields α} (ordered : Ordered fields) {key : String} {value : α}
    (member : (key, value) ∈ fields) : fields.lookup key = some value :=
  lookup_of_nodup (ordered.imp String.ne_of_lt) member

/-- Maps in which the same is found are the same. -/
theorem Ordered.ext {first second : Fields α} (h : Ordered first) (h' : Ordered second)
    (same : ∀ key, first.lookup key = second.lookup key) : first = second := by
  induction first generalizing second with
  | nil =>
    cases second with
    | nil => rfl
    | cons q rest =>
      have := same q.1
      rw [lookup_cons, if_pos rfl] at this
      cases this
  | cons p rest ih =>
    cases second with
    | nil =>
      have := same p.1
      rw [lookup_cons, if_pos rfl] at this
      cases this
    | cons q rest' =>
      obtain ⟨least, tail⟩ := List.pairwise_cons.mp h
      obtain ⟨least', tail'⟩ := List.pairwise_cons.mp h'
      have here : p ∈ q :: rest' :=
        mem_of_lookup (by rw [← same p.1, lookup_cons, if_pos rfl])
      have there : q ∈ p :: rest :=
        mem_of_lookup (by rw [same q.1, lookup_cons, if_pos rfl])
      -- The first keys are the least of the same keys.
      obtain rfl : p = q := by
        rcases List.mem_cons.mp here with equal | here
        · exact equal
        · rcases List.mem_cons.mp there with equal | there
          · exact equal.symm
          · have less := least' p.1 (List.mem_map_of_mem here)
            have less' := least q.1 (List.mem_map_of_mem there)
            exact absurd less' (String.lt_asymm less)
      refine congrArg (p :: ·) (ih tail tail' fun key => ?_)
      by_cases head : key = p.1
      · have absent : ∀ l : Fields α, (∀ k ∈ keys l, p.1 < k) → l.lookup key = none := by
          intro l above
          rw [lookup_eq_none, head]
          exact fun member => String.lt_irrefl _ (above _ member)
        rw [absent rest least, absent rest' least']
      · have := same key
        rwa [lookup_cons, lookup_cons, if_neg head, if_neg head] at this

/-- Maps with the same entries are the same. -/
theorem Ordered.ext_mem {first second : Fields α} (h : Ordered first) (h' : Ordered second)
    (same : ∀ entry, entry ∈ first ↔ entry ∈ second) : first = second := by
  refine h.ext h' fun key => Option.ext fun value => ⟨fun found => ?_, fun found => ?_⟩
  · exact h'.lookup ((same (key, value)).mp (mem_of_lookup found))
  · exact h.lookup ((same (key, value)).mpr (mem_of_lookup found))

theorem keys_map (fields : Fields α) (f : String × α → β) :
    keys (fields.map fun p => (p.1, f p)) = keys fields := by
  simp [keys, Function.comp_def]

theorem Ordered.map {fields : Fields α} (ordered : Ordered fields) (f : String × α → β) :
    Ordered (fields.map fun p => (p.1, f p)) := by
  unfold Ordered
  rwa [keys_map]

theorem Ordered.filter {fields : Fields α} (ordered : Ordered fields) (keep : String × α → Bool) :
    Ordered (fields.filter keep) :=
  List.Pairwise.sublist (List.filter_sublist.map Prod.fst) ordered

theorem lookup_map (fields : Fields α) (f : α → β) (key : String) :
    (fields.map fun p => (p.1, f p.2)).lookup key = (fields.lookup key).map f := by
  induction fields with
  | nil => rfl
  | cons p rest ih =>
    rw [List.map_cons, lookup_cons, lookup_cons, ih]
    split <;> rfl

/-- Every value is replaced by one that depends on its key alone. -/
theorem lookup_map_key (fields : Fields α) (f : String → β) (key : String) :
    (fields.map fun p => (p.1, f p.1)).lookup key = (fields.lookup key).map fun _ => f key := by
  induction fields with
  | nil => rfl
  | cons p rest ih =>
    rw [List.map_cons, lookup_cons, lookup_cons, ih]
    by_cases same : key = p.1
    · rw [if_pos same, if_pos same, same, Option.map_some]
    · rw [if_neg same, if_neg same]

/-- What is found among the pairs that were kept. -/
theorem Ordered.lookup_filter {fields : Fields α} (ordered : Ordered fields)
    (keep : String × α → Bool) (key : String) :
    (fields.filter keep).lookup key =
      (fields.lookup key).filter fun value => keep (key, value) := by
  cases found : fields.lookup key with
  | none =>
    rw [Option.filter_none, lookup_eq_none]
    intro member
    obtain ⟨p, hp, same⟩ := List.mem_map.mp member
    have there : key ∈ keys fields :=
      List.mem_map.mpr ⟨p, (List.mem_filter.mp hp).1, same⟩
    exact lookup_eq_none.mp found there
  | some value =>
    have member := mem_of_lookup found
    by_cases kept : keep (key, value) = true
    · rw [Option.filter_some, if_pos kept]
      exact (ordered.filter keep).lookup (List.mem_filter.mpr ⟨member, kept⟩)
    · rw [Option.filter_some, if_neg kept, lookup_eq_none]
      intro again
      obtain ⟨⟨k, v⟩, hp, rfl⟩ := List.mem_map.mp again
      have same := ordered.lookup (List.mem_filter.mp hp).1
      rw [found] at same
      cases same
      exact kept (List.mem_filter.mp hp).2

/-! ### Maps written pair by pair -/

theorem ofList_concat (pairs : List (String × α)) (p : String × α) :
    ofList (pairs ++ [p]) = set p.1 p.2 (ofList pairs) := by
  unfold ofList
  rw [List.foldl_append]
  rfl

theorem ordered_ofList (pairs : List (String × α)) : Ordered (ofList pairs) := by
  induction pairs using List.reverseRecOn with
  | nil => exact Ordered.nil
  | append_singleton pairs p ih =>
    rw [ofList_concat]
    exact ih.set _ _

/-- The last pair wins. -/
theorem lookup_ofList (pairs : List (String × α)) (key : String) :
    (ofList pairs).lookup key = pairs.reverse.lookup key := by
  induction pairs using List.reverseRecOn with
  | nil => rfl
  | append_singleton pairs p ih =>
    rw [ofList_concat, lookup_set, List.reverse_concat, lookup_cons, ih]

theorem lookup_ofList_of_nodup {pairs : List (String × α)} (nodup : (keys pairs).Nodup)
    {key : String} {value : α} (member : (key, value) ∈ pairs) :
    (ofList pairs).lookup key = some value := by
  rw [lookup_ofList]
  refine lookup_of_nodup ?_ (List.mem_reverse.mpr member)
  unfold keys
  rw [List.map_reverse]
  exact List.nodup_reverse.mpr nodup

theorem mem_of_mem_ofList {pairs : List (String × α)} {p : String × α}
    (member : p ∈ ofList pairs) : p ∈ pairs := by
  have found := (ordered_ofList pairs).lookup member
  rw [lookup_ofList] at found
  exact List.mem_reverse.mp (mem_of_lookup found)

theorem ofList_map (pairs : List (String × α)) (f : α → β) :
    ofList (pairs.map fun p => (p.1, f p.2)) = (ofList pairs).map fun p => (p.1, f p.2) := by
  refine (ordered_ofList _).ext ((ordered_ofList pairs).map fun p => f p.2) fun key => ?_
  rw [lookup_ofList, ← List.map_reverse, lookup_map, lookup_map, lookup_ofList]

end Provision.Fields
