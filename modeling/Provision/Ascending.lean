/-!
# Ascending lists as finite sets and finite maps

A finite set is a strictly ascending list, and a finite map with text keys is a list of
pairs whose keys ascend strictly. Both are plain lists, so that trees can contain them and
functions on trees stay structurally recursive. Text is ordered by code point, which is the
order of its UTF-8 bytes.

Membership in `Ascending.insert` and `Ascending.union`, and look-up after `Fields.set` and
`Fields.erase`, are stated here once; nothing else needs to unfold the operations.
-/

namespace Provision

namespace Ascending

variable {α : Type} [LT α] [DecidableLT α] [DecidableEq α]

/-- Put `x` into its place; a member that is there already is not repeated. -/
def insert (x : α) : List α → List α
  | [] => [x]
  | y :: ys => if x = y then y :: ys else if x < y then x :: y :: ys else y :: insert x ys

/-- All members of both lists, in ascending order. -/
def union (xs ys : List α) : List α := ys.foldl (fun acc y => insert y acc) xs

/-- The members of any list, each once, in ascending order. -/
def ofList (xs : List α) : List α := union [] xs

@[simp] theorem mem_insert (x y : α) (xs : List α) : y ∈ insert x xs ↔ y = x ∨ y ∈ xs := by
  induction xs with
  | nil => simp [insert]
  | cons z zs ih =>
    unfold insert
    split
    · rename_i h; subst h; simp
    · split
      · simp
      · simp only [List.mem_cons, ih]
        constructor
        · rintro (h | h | h) <;> simp [h]
        · rintro (h | h | h) <;> simp [h]

@[simp] theorem mem_union (y : α) (xs ys : List α) : y ∈ union xs ys ↔ y ∈ xs ∨ y ∈ ys := by
  unfold union
  induction ys generalizing xs with
  | nil => simp
  | cons z zs ih =>
    simp only [List.foldl_cons, ih, mem_insert, List.mem_cons]
    constructor
    · rintro ((h | h) | h) <;> simp [h]
    · rintro (h | h | h) <;> simp [h]

@[simp] theorem mem_ofList (y : α) (xs : List α) : y ∈ ofList xs ↔ y ∈ xs := by
  simp [ofList]

end Ascending

/-- A finite map from text: the keys of a well-formed one ascend strictly. -/
abbrev Fields (α : Type) := List (String × α)

namespace Fields

variable {α : Type}

/-- Write `value` under `key`, in place of what was there. -/
def set (key : String) (value : α) : Fields α → Fields α
  | [] => [(key, value)]
  | (k, v) :: rest =>
    if key = k then (key, value) :: rest
    else if key < k then (key, value) :: (k, v) :: rest
    else (k, v) :: set key value rest

/-- Remove every entry under `key`. -/
def erase (key : String) (fields : Fields α) : Fields α := fields.filter (fun p => p.1 ≠ key)

/-- The map that holds the given pairs; the last pair with a key wins. -/
def ofList (pairs : List (String × α)) : Fields α :=
  pairs.foldl (fun acc p => set p.1 p.2 acc) []

def keys (fields : Fields α) : List String := fields.map Prod.fst

def values (fields : Fields α) : List α := fields.map Prod.snd

def has (key : String) (fields : Fields α) : Bool := (fields.lookup key).isSome

/-- The keys ascend strictly, so no key occurs twice. -/
def Ordered (fields : Fields α) : Prop := (keys fields).Pairwise (· < ·)

@[simp] theorem lookup_cons (k key : String) (value : α) (rest : Fields α) :
    List.lookup k ((key, value) :: rest) = if k = key then some value else rest.lookup k := by
  rw [List.lookup_cons]
  by_cases h : k = key
  · simp [h]
  · have hk : (k == key) = false := by simpa using h
    simp [hk, h]

theorem lookup_set (key k : String) (value : α) (fields : Fields α) :
    (set key value fields).lookup k = if k = key then some value else fields.lookup k := by
  induction fields with
  | nil => simp [set]
  | cons p rest ih =>
    obtain ⟨k', v'⟩ := p
    unfold set
    split
    · rename_i h
      subst h
      by_cases h : k = key <;> simp [h]
    · split
      · simp
      · rename_i hne _
        by_cases h : k = k'
        · subst h
          have hk : ¬ k = key := fun e => hne e.symm
          simp [hk]
        · simp [h, ih]

theorem lookup_erase (key k : String) (fields : Fields α) :
    (erase key fields).lookup k = if k = key then none else fields.lookup k := by
  unfold erase
  induction fields with
  | nil => simp
  | cons p rest ih =>
    obtain ⟨k', v'⟩ := p
    rw [List.filter_cons, lookup_cons]
    by_cases same : k' = key
    · rw [if_neg (by simpa using same), ih]
      by_cases h : k = key <;> simp [h, same]
    · rw [if_pos (by simpa using same), lookup_cons, ih]
      by_cases h : k = k' <;> simp [h, same]

end Fields

end Provision
