import Provision.Proofs.Output.Sources

/-!
# Slots are written once

What the operations of a graph do to its slots. A slot is open until it is completed or given
up, and then keeps its outcome whatever happens (`Writes.resolved`). Each operation says which
slots it may write; all others stay as they are (`Writes.kept`). Observing writes none.
-/

namespace Provision

namespace Graph

variable {V : Type}

/-- The slot exists and has no outcome yet. -/
def IsOpen (graph : Graph V) (number : Nat) : Prop :=
  ∃ name, graph.slots[number]? = some ⟨name, none⟩

def Holds (graph : Graph V) (number : Nat) (result : Settled V) : Prop :=
  ∃ name, graph.slots[number]? = some ⟨name, some result⟩

/-- `after` is `before` with outcomes written into open slots among `touched`, and with slots
added. -/
structure Writes (touched : List Nat) (before after : Graph V) : Prop where
  grows : before.slots.length ≤ after.slots.length
  kept : ∀ n, n ∉ touched → n < before.slots.length → after.slots[n]? = before.slots[n]?
  resolved : ∀ n result, before.Holds n result → after.Holds n result

theorem IsOpen.lt {graph : Graph V} {n : Nat} (h : graph.IsOpen n) : n < graph.slots.length := by
  obtain ⟨name, h⟩ := h
  exact (List.getElem?_eq_some_iff.mp h).1

theorem Holds.lt {graph : Graph V} {n : Nat} {result : Settled V} (h : graph.Holds n result) :
    n < graph.slots.length := by
  obtain ⟨name, h⟩ := h
  exact (List.getElem?_eq_some_iff.mp h).1

theorem IsOpen.congr {g g' : Graph V} {n : Nat} (same : g'.slots[n]? = g.slots[n]?)
    (h : g.IsOpen n) : g'.IsOpen n := by
  unfold IsOpen
  rwa [same]

theorem Holds.congr {g g' : Graph V} {n : Nat} {result : Settled V}
    (same : g'.slots[n]? = g.slots[n]?) (h : g.Holds n result) : g'.Holds n result := by
  unfold Holds
  rwa [same]

theorem IsOpen.isResolved {graph : Graph V} {n : Nat} (h : graph.IsOpen n) :
    graph.isResolved n = false := by
  obtain ⟨name, h⟩ := h
  simp [Graph.isResolved, h, Slot.isResolved]

namespace Writes

theorem of_slots_eq {touched : List Nat} {g g' : Graph V} (same : g'.slots = g.slots) :
    Writes touched g g' where
  grows := Nat.le_of_eq (by rw [same])
  kept := fun n _ _ => by rw [same]
  resolved := fun n result h => h.congr (by rw [same])

theorem refl (touched : List Nat) (g : Graph V) : Writes touched g g := of_slots_eq rfl

theorem mono {s t : List Nat} {g g' : Graph V} (h : Writes s g g') (sub : s ⊆ t) :
    Writes t g g' where
  grows := h.grows
  kept := fun n hn => h.kept n fun hs => hn (sub hs)
  resolved := h.resolved

theorem trans {s : List Nat} {g₁ g₂ g₃ : Graph V} (h : Writes s g₁ g₂) (h' : Writes s g₂ g₃) :
    Writes s g₁ g₃ where
  grows := Nat.le_trans h.grows h'.grows
  kept := fun n hn hlt => by
    rw [h'.kept n hn (Nat.lt_of_lt_of_le hlt h.grows), h.kept n hn hlt]
  resolved := fun n result hr => h'.resolved n result (h.resolved n result hr)

/-- An open slot that is not among the touched ones stays open. -/
theorem isOpen {s : List Nat} {g g' : Graph V} (h : Writes s g g') {n : Nat} (hn : n ∉ s)
    (ho : g.IsOpen n) : g'.IsOpen n :=
  ho.congr (h.kept n hn ho.lt)

/-- Where no slot was added, the others are the same as before. -/
theorem same {s : List Nat} {g g' : Graph V} (h : Writes s g g')
    (length : g'.slots.length = g.slots.length) {n : Nat} (hn : n ∉ s) :
    g'.slots[n]? = g.slots[n]? := by
  by_cases hlt : n < g.slots.length
  · exact h.kept n hn hlt
  · rw [List.getElem?_eq_none (by omega), List.getElem?_eq_none (by omega)]

end Writes

theorem set_writes {graph : Graph V} {n : Nat} {name : String} {outcome : Settled V}
    (h : graph.slots[n]? = some ⟨name, none⟩) :
    Writes [n] graph { graph with slots := graph.slots.set n ⟨name, some outcome⟩ } where
  grows := by simp
  kept := fun m hm _ => by
    have hne : n ≠ m := fun e => hm (by simp [e])
    simp [List.getElem?_set_ne hne]
  resolved := fun m result hr => by
    obtain ⟨other, hr⟩ := hr
    have hne : n ≠ m := by
      rintro rfl
      rw [h] at hr
      simp at hr
    exact ⟨other, by simpa [List.getElem?_set_ne hne] using hr⟩

/-- Completing an open slot succeeds and writes that slot only. -/
theorem complete_of_open {graph : Graph V} {n : Nat} (h : graph.IsOpen n)
    (outcome : Settled V) :
    (graph.complete n outcome).1 = .ok () ∧ (graph.complete n outcome).2.Holds n outcome := by
  have hlt := h.lt
  obtain ⟨name, h⟩ := h
  have step : graph.complete n outcome =
      (.ok (), { graph with slots := graph.slots.set n ⟨name, some outcome⟩ }) := by
    unfold complete
    rw [h]
    rfl
  rw [step]
  exact ⟨rfl, name, by simp [hlt]⟩

theorem complete_writes (graph : Graph V) (n : Nat) (outcome : Settled V) :
    Writes [n] graph (graph.complete n outcome).2 := by
  cases h : graph.slots[n]? with
  | none => simpa [complete, h] using Writes.refl _ graph
  | some slot =>
    obtain ⟨name, _ | old⟩ := slot
    · simpa [complete, h, Slot.complete] using set_writes h
    · simpa [complete, h, Slot.complete] using Writes.refl _ graph

@[simp] theorem complete_length (graph : Graph V) (n : Nat) (outcome : Settled V) :
    (graph.complete n outcome).2.slots.length = graph.slots.length := by
  unfold complete
  split
  · rfl
  · split <;> simp

theorem drop_writes (graph : Graph V) (n : Nat) : Writes [n] graph (graph.drop n) := by
  have kept : ∀ m, n ≠ m → (graph.drop n).slots[m]? = graph.slots[m]? := by
    intro m hne
    simp [drop, hne]
  refine ⟨by simp [drop], fun m hm _ => kept m fun e => hm (by simp [e]), ?_⟩
  rintro m result ⟨name, hr⟩
  by_cases hne : n = m
  · subst hne
    exact ⟨name, by simp [drop, hr, Slot.drop]⟩
  · exact ⟨name, by rw [kept m hne, hr]⟩

/-- A new slot is open, and all old ones stay. -/
theorem addSlot_writes (graph : Graph V) (name : String) :
    Writes [] graph (graph.addSlot name).2 where
  grows := by simp [addSlot]
  kept := fun n _ hlt => by simp [addSlot, List.getElem?_append_left hlt]
  resolved := fun n result hr =>
    hr.congr (by simp [addSlot, List.getElem?_append_left hr.lt])

theorem addSlot_isOpen (graph : Graph V) (name : String) :
    (graph.addSlot name).2.IsOpen (graph.addSlot name).1 :=
  ⟨name, by simp [addSlot]⟩

theorem observeWithin_slots (depth : Nat) (source : Source) (graph : Graph V) :
    (observeWithin depth source graph).2.slots = graph.slots := by
  induction depth generalizing source graph with
  | zero => cases source <;> rfl
  | succ depth ih =>
    cases source with
    | slot number => rfl
    | cell number =>
      unfold observeWithin
      split
      · rfl
      · exact Output.pollWith_preserves (P := fun g => g.slots = graph.slots)
          (fun origin g hg => (ih origin g).trans hg) _ graph rfl

@[simp] theorem observe_slots (source : Source) (graph : Graph V) :
    (graph.observe source).2.slots = graph.slots :=
  observeWithin_slots _ source graph

@[simp] theorem define_slots (output : Output V) (graph : Graph V) :
    (graph.define output).2.slots = graph.slots := rfl

end Graph

end Provision
