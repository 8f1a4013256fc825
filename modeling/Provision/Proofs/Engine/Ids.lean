import Provision.Proofs.Engine.Registrations
import Provision.Proofs.Fields

/-!
# Ids that tell resources apart

A local engine gives ids with a number that it counts up, and adopts resources with the ids that
they have. It adopts none under an id that it knows for the type; but when it gives an id, it does
not look whether an adopted resource of the type has it. So the stored resources of a type have
different ids exactly as long as no registration is given the id of one that is stored
(`ids_distinct_iff`), and that one was adopted, since given ids differ in their numbers. A run in
which it happens: `registration_given_adopted_id`.
-/

namespace Provision

namespace Inventory

variable {inventory : Inventory}

/-- No two resources of one type are stored with one id. A component, and a resource of a preview,
has none. -/
def IdsDistinct (inventory : Inventory) : Prop :=
  ∀ urn urn' resource resource', inventory.resources.lookup urn = some resource →
    inventory.resources.lookup urn' = some resource' →
      resource.type = resource'.type → resource.id = resource'.id → resource.id ≠ "" → urn = urn'

/-- What is found by type and id is stored, and has them. -/
theorem findById?_some (ordered : inventory.resources.Ordered) {type id : String}
    {resource : StoredResource} (found : inventory.findById? type id = some resource) :
    (∃ urn, inventory.resources.lookup urn = some resource) ∧ resource.type = type ∧
      resource.id = id := by
  have fits := List.find?_some found
  obtain ⟨⟨urn, _⟩, member, rfl⟩ := List.mem_map.mp (List.mem_of_find?_eq_some found)
  simp only [Bool.and_eq_true, beq_iff_eq] at fits
  exact ⟨⟨urn, ordered.lookup member⟩, fits⟩

/-- Nothing is found by type and id only if nothing that is stored has them. -/
theorem findById?_none {type id : String} (nothing : inventory.findById? type id = none)
    {urn : String} {resource : StoredResource}
    (stored : inventory.resources.lookup urn = some resource) (sameType : resource.type = type) :
    resource.id ≠ id := by
  intro sameId
  have member : resource ∈ inventory.resources.values :=
    List.mem_map_of_mem (f := Prod.snd) (Fields.mem_of_lookup stored)
  have misfit := List.find?_eq_none.mp nothing resource member
  simp [sameType, sameId] at misfit

/-- Where ids are distinct, a resource is the one that is found by its type and its id. -/
theorem IdsDistinct.findById? (distinct : inventory.IdsDistinct)
    (ordered : inventory.resources.Ordered) {urn : String} {resource : StoredResource}
    (stored : inventory.resources.lookup urn = some resource) (id : resource.id ≠ "") :
    inventory.findById? resource.type resource.id = some resource := by
  cases found : inventory.findById? resource.type resource.id with
  | none => exact absurd rfl (findById?_none found stored rfl)
  | some other =>
    obtain ⟨⟨urn', stored'⟩, sameType, sameId⟩ := findById?_some ordered found
    obtain rfl := distinct urn urn' resource other stored stored' sameType.symm sameId.symm id
    exact stored'.symm.trans stored

end Inventory

namespace Local

open Inventory

variable {settings : Settings} {provider : Provider} {s t : Local}

/-- A resource that is put into its place has an id of its own exactly if no other resource of the
type has the id. -/
theorem idsDistinct_store_iff (distinct : s.inventory.IdsDistinct) (resource : StoredResource) :
    (s.store resource).inventory.IdsDistinct ↔
      (resource.id ≠ "" → ∀ urn other, urn ≠ resource.urn →
        s.inventory.resources.lookup urn = some other → other.type = resource.type →
          other.id ≠ resource.id) := by
  constructor
  · intro distinct' id urn other different stored sameType sameId
    refine different (distinct' urn resource.urn other resource ?_ ?_ sameType sameId ?_)
    · rw [lookup_store, if_neg different, stored]
    · rw [lookup_store, if_pos rfl]
    · rwa [sameId]
  · intro own urn urn' one other stored stored' sameType sameId id
    rw [lookup_store] at stored stored'
    by_cases here : urn = resource.urn <;> by_cases there : urn' = resource.urn
    · exact here.trans there.symm
    · rw [if_pos here] at stored
      rw [if_neg there] at stored'
      cases stored
      exact absurd sameId.symm (own id urn' other there stored' sameType.symm)
    · rw [if_neg here] at stored
      rw [if_pos there] at stored'
      cases stored'
      exact absurd sameId (own (sameId ▸ id) urn one here stored sameType)
    · rw [if_neg here] at stored
      rw [if_neg there] at stored'
      exact distinct urn urn' one other stored stored' sameType sameId id

theorem Serves.ordered {request : Request} {answer : Except Failure Response}
    (served : Serves settings provider s request answer t)
    (ordered : s.inventory.resources.Ordered) : t.inventory.resources.Ordered := by
  cases served with
  | registers r outputs free made => exact ordered.set _ _
  | adopts r adopts => exact ordered.set _ _
  | _ => exact ordered

theorem ordered_after (requests : List Request) (ordered : s.inventory.resources.Ordered) :
    (after settings provider requests s).inventory.resources.Ordered := by
  induction requests generalizing s with
  | nil => exact ordered
  | cons request rest ih => exact ih ((serves_send settings provider request s).ordered ordered)

/-- A registration is answered with an id that `holder`, a stored resource of the same type, has
already. -/
def Clashes (settings : Settings) (provider : Provider) (request : Request) (s : Local)
    (holder : StoredResource) : Prop :=
  ∃ r response, request = .register r ∧
    ((engine settings provider).send request s).1 = .ok (.register response) ∧
      response.id ≠ "" ∧ s.inventory.findById? r.type response.id = some holder

/-- One request keeps ids distinct exactly if it gives none that is taken. -/
theorem idsDistinct_send_iff (request : Request) (ordered : s.inventory.resources.Ordered)
    (distinct : s.inventory.IdsDistinct) :
    ((engine settings provider).send request s).2.inventory.IdsDistinct ↔
      ¬ ∃ holder, Clashes settings provider request s holder := by
  have served := serves_send settings provider request s
  unfold Clashes
  generalize ((engine settings provider).send request s).1 = answer at served ⊢
  generalize ((engine settings provider).send request s).2 = t at served ⊢
  cases served with
  | registers r outputs free made =>
    refine (idsDistinct_store_iff distinct
      (registered settings r (s.newId settings r) outputs)).trans ⟨?_, ?_⟩
    · rintro own ⟨holder, _, _, ⟨⟩, ⟨⟩, id, found⟩
      obtain ⟨⟨urn, stored⟩, sameType, sameId⟩ := findById?_some ordered found
      refine own id urn holder ?_ stored sameType sameId
      rintro rfl
      cases stored.symm.trans (lookup_of_free free)
    · intro free id urn other different stored sameType sameId
      cases found : s.inventory.findById? r.type (s.newId settings r) with
      | none => exact findById?_none found stored sameType sameId
      | some holder => exact free ⟨holder, r, _, rfl, rfl, id, found⟩
  | adopts r adopts =>
    refine iff_of_true ((idsDistinct_store_iff distinct _).mpr ?_) (by rintro ⟨_, _, _, ⟨⟩, -⟩)
    intro _ urn other _ stored sameType
    exact findById?_none adopts.unknown stored sameType
  | refuses request cause reason => exact iff_of_true distinct (by rintro ⟨_, _, _, -, ⟨⟩, -⟩)
  | _ => exact iff_of_true distinct (by rintro ⟨_, _, _, ⟨⟩, -⟩)

/-- Ids are distinct at every point of a run exactly if none that is taken is given on the way. -/
theorem idsDistinct_after_iff (requests : List Request)
    (ordered : s.inventory.resources.Ordered) (distinct : s.inventory.IdsDistinct) :
    (∀ earlier, earlier <+: requests →
        (after settings provider earlier s).inventory.IdsDistinct) ↔
      ¬ Occurs settings provider
        (fun request s => ∃ holder, Clashes settings provider request s holder) requests s := by
  induction requests generalizing s with
  | nil =>
    refine iff_of_true (fun earlier start => ?_) not_occurs_nil
    rw [List.prefix_nil.mp start]
    exact distinct
  | cons request rest ih =>
    have one : ((engine settings provider).send request s).2.inventory.IdsDistinct ↔
        ¬ ∃ holder, Clashes settings provider request s holder :=
      idsDistinct_send_iff request ordered distinct
    have ordered' := (serves_send settings provider request s).ordered ordered
    rw [occurs_cons, not_or, ← one]
    constructor
    · intro always
      have distinct' := always [request] (List.prefix_append [request] rest)
      refine ⟨distinct', (ih ordered' distinct').mp fun earlier start => ?_⟩
      exact always (request :: earlier) ((List.prefix_cons_inj request).mpr start)
    · rintro ⟨distinct', later⟩ earlier start
      rcases List.prefix_cons_iff.mp start with rfl | ⟨earlier', rfl, start'⟩
      · exact distinct
      · exact (ih ordered' distinct').mpr later earlier' start'

/-! ### The numbers in ids -/

def numberedId (name : String) (number : Nat) : String := name ++ "-" ++ toString number

theorem toList_numberedId (name : String) (number : Nat) :
    (numberedId name number).toList = name.toList ++ '-' :: Nat.toDigits 10 number := by
  simp [numberedId]

/-- Ids with different numbers differ: a number's digits end at the last hyphen. -/
theorem numberedId_injective {name name' : String} {number number' : Nat}
    (same : numberedId name number = numberedId name' number') : number = number' := by
  have digits (name : String) (n : Nat) :
      (numberedId name n).toList.reverse.takeWhile (· ≠ '-') = (Nat.toDigits 10 n).reverse := by
    rw [toList_numberedId, List.reverse_append, List.reverse_cons, List.append_assoc,
      List.takeWhile_append_of_pos]
    · simp
    · intro c member
      have digit := Nat.isDigit_of_mem_toDigits (by decide) (by decide) (List.mem_reverse.mp member)
      simp only [decide_eq_true_eq]
      rintro rfl
      exact absurd digit (by decide)
  have reversed := congrArg (fun id => id.toList.reverse.takeWhile (· ≠ '-')) same
  simp only [digits, List.reverse_inj] at reversed
  have value := congrArg (Nat.ofDigitChars 10 · 0) reversed
  simpa only [Nat.ofDigitChars_ten_toDigits] using value

/-- After at most `sent` requests the next number is small, and the ids that were given have numbers
below it. -/
structure Counted (sent : Nat) (s : Local) : Prop where
  few : s.nextId.toNat ≤ sent + 1
  given : ∀ urn resource, s.inventory.resources.lookup urn = some resource →
    resource.external = false → resource.id ≠ "" →
      ∃ name number, resource.id = numberedId name number ∧ number < s.nextId.toNat

/-- An id that is given has the next number. -/
theorem newId_eq {r : RegisterRequest} (id : s.newId settings r ≠ "") :
    (r.custom && !settings.dryRun) = true ∧
      s.newId settings r = numberedId r.name s.nextId.toNat := by
  unfold newId at id ⊢
  split
  · rename_i numbered
    exact ⟨numbered, rfl⟩
  · rename_i none
    rw [if_neg none] at id
    exact absurd rfl id

theorem Counted.serves {sent : Nat} {request : Request} {answer : Except Failure Response}
    (counted : Counted sent s) (served : Serves settings provider s request answer t)
    (room : sent + 2 < UInt32.size) : Counted (sent + 1) t := by
  have stays : Counted (sent + 1) s := ⟨Nat.le_succ_of_le counted.few, counted.given⟩
  cases served with
  | registers r outputs free made =>
    have next : (s.nextId + 1).toNat = s.nextId.toNat + 1 := by
      have few := counted.few
      rw [UInt32.toNat_add]
      exact Nat.mod_eq_of_lt (by unfold UInt32.size at room; show _ + 1 < _; omega)
    refine ⟨?_, fun urn resource stored own id => ?_⟩
    · dsimp only
      split
      · rw [next]
        exact Nat.succ_le_succ counted.few
      · exact stays.few
    · dsimp only at stored ⊢
      rw [lookup_store] at stored
      split at stored
      · cases stored
        obtain ⟨numbered, same⟩ := newId_eq id
        refine ⟨r.name, s.nextId.toNat, same, ?_⟩
        rw [if_pos numbered, next]
        exact Nat.lt_succ_self _
      · obtain ⟨name, number, same, below⟩ := counted.given urn resource stored own id
        refine ⟨name, number, same, ?_⟩
        split
        · rw [next]
          exact Nat.lt_succ_of_lt below
        · exact below
  | adopts r adopts =>
    refine ⟨stays.few, fun urn resource stored own id => ?_⟩
    rw [lookup_store] at stored
    split at stored
    · cases stored
      cases own
    · exact counted.given urn resource stored own id
  | _ => exact ⟨stays.few, stays.given⟩

theorem Counted.after {sent : Nat} (requests : List Request) (counted : Counted sent s)
    (room : sent + requests.length + 1 < UInt32.size) :
    Counted (sent + requests.length) (after settings provider requests s) := by
  induction requests generalizing s sent with
  | nil => exact counted
  | cons request rest ih =>
    rw [List.length_cons] at room ⊢
    have one := counted.serves (serves_send settings provider request s) (by omega)
    have all := ih one (by omega)
    rwa [Nat.add_right_comm] at all

/-- Who has an id that is given is adopted. -/
theorem Clashes.adopted {sent : Nat} {request : Request} {holder : StoredResource}
    (clashes : Clashes settings provider request s holder) (counted : Counted sent s)
    (ordered : s.inventory.resources.Ordered) : holder.external = true := by
  obtain ⟨r, response, rfl, answer, id, found⟩ := clashes
  obtain ⟨⟨urn, stored⟩, -, sameId⟩ := findById?_some ordered found
  obtain ⟨-, given, -⟩ := stored_of_registered answer
  rw [given] at id sameId
  by_contra registered
  have own := Bool.eq_false_iff.mpr registered
  obtain ⟨name, number, same, below⟩ := counted.given urn holder stored own (sameId ▸ id)
  have equal := numberedId_injective ((same.symm.trans sameId).trans (newId_eq id).2)
  omega

/-- The ids of the resources that an engine has stored in the course of a run. They are distinct at
every point, for each type, exactly if no registration is given the id of a resource of its type
that is stored. Unless the numbers have come round, such a resource was adopted. Where the ids are
distinct, a read by type and id tells of each resource that has one. -/
theorem ids_distinct_iff (settings : Settings) (provider : Provider) (requests : List Request) :
    ((∀ earlier, earlier <+: requests →
          (after settings provider earlier {}).inventory.IdsDistinct) ↔
        ¬ Occurs settings provider
          (fun request s => ∃ holder, Clashes settings provider request s holder) requests {}) ∧
      (requests.length < UInt32.size →
        ¬ Occurs settings provider
          (fun request s => ∃ holder, Clashes settings provider request s holder ∧
            holder.external = false) requests {}) ∧
      ∀ earlier, earlier <+: requests →
        (after settings provider earlier {}).inventory.IdsDistinct →
          ∀ urn resource,
            (after settings provider earlier {}).inventory.resources.lookup urn = some resource →
              resource.id ≠ "" →
                (after settings provider earlier {}).inventory.findById? resource.type resource.id =
                  some resource := by
  have ordered : ({} : Local).inventory.resources.Ordered := Fields.Ordered.nil
  have distinct : ({} : Local).inventory.IdsDistinct := by
    rintro urn urn' resource resource' ⟨⟩
  refine ⟨idsDistinct_after_iff requests ordered distinct, fun few => ?_, ?_⟩
  · rintro ⟨earlier, request, later, rfl, holder, clashes, own⟩
    have start : Counted 0 {} := ⟨Nat.le_refl _, by rintro urn resource ⟨⟩⟩
    rw [List.length_append, List.length_cons] at few
    have counted : Counted (0 + earlier.length) (after settings provider earlier {}) :=
      start.after earlier (by omega)
    have adopted := clashes.adopted counted (ordered_after earlier ordered)
    rw [own] at adopted
    cases adopted
  · intro earlier _ distinct urn resource stored id
    exact distinct.findById? (ordered_after earlier ordered) stored id

/-- A thing is registered and another one adopted: each is found by its id. -/
theorem ids_distinct_iff_things :
    let requests : List Request := [.register thing, .read (thingById "other" "ext-7")]
    let s := after {} Sample.provider requests {}
    requests.length < UInt32.size ∧ s.inventory.IdsDistinct ∧
      s.inventory.findById? "pkg:index:Thing" "thing-1" = some (registered {} thing "thing-1" []) ∧
      s.inventory.findById? "pkg:index:Thing" "ext-7" =
        some (adopted {} (thingById "other" "ext-7")) := by
  intro requests s
  obtain ⟨distinct_iff, -, found⟩ := ids_distinct_iff {} Sample.provider requests
  have distinct := distinct_iff.mpr (by
    rw [occurs_cons, occurs_cons]
    rintro (⟨holder, r, response, -, -, -, ⟨⟩⟩ | ⟨holder, r, response, ⟨⟩, -⟩ | nothing)
    exact not_occurs_nil nothing) requests (List.prefix_refl _)
  have find := found requests (List.prefix_refl _) distinct
  refine ⟨by decide, distinct, ?_, ?_⟩
  · exact find (registered {} thing "thing-1" []).urn _ rfl (by decide)
  · exact find (adopted {} (thingById "other" "ext-7")).urn _ rfl (by decide)

/-- A thing that is registered is given the id with which another one was adopted. -/
theorem registration_given_adopted_id :
    ¬ (after {} Sample.provider [.read (thingById "old" "thing-1"), .register thing]
      {}).inventory.IdsDistinct := by
  intro distinct
  have same := distinct (adopted {} (thingById "old" "thing-1")).urn
    (registered {} thing "thing-1" []).urn (adopted {} (thingById "old" "thing-1"))
    (registered {} thing "thing-1" []) rfl rfl rfl rfl (by decide)
  exact absurd same (by decide)

end Local

end Provision
