import Provision.Proofs.Deployment.History

/-!
# Who may write a slot

Every open slot that is not the program's own has exactly one owner, a collection of declared
properties or a task under way, and no owner's slot is the program's own (`Owned.nodup`). A step
writes the slots of one owner only, and what it takes from one owner it gives to another. So the
slots of a registration are open until its own task ends, and then settled.
-/

namespace Provision

def Job.slots : Job → List Nat
  | .registration job => Deployment.slotsOf job
  | .call job => [job.slot]

def Task.openSlots (task : Task) : List Nat :=
  match task.progress with
  | .underWay => task.job.slots
  | _ => []

/-- Changing one task exchanges its open slots. -/
theorem count_openSlots_modify {tasks : List Task} {number : Nat} {task : Task}
    (h : tasks[number]? = some task) (change : Task → Task) (n : Nat) :
    ((tasks.modify number change).flatMap Task.openSlots).count n + task.openSlots.count n =
      (tasks.flatMap Task.openSlots).count n + (change task).openSlots.count n := by
  induction tasks generalizing number with
  | nil => simp at h
  | cons head rest ih =>
    cases number with
    | zero =>
      obtain rfl : head = task := by simpa using h
      simp only [List.modify_zero_cons, List.flatMap_cons, List.count_append]
      omega
    | succ number =>
      have step := ih (by simpa using h)
      simp only [List.modify_succ_cons, List.flatMap_cons, List.count_append]
      omega

namespace Deployment

/-- What is true of a registration from its acceptance on: its slots are all different, its
declared properties are of types whose shapes are valid, and the handle of the resource observes
the slots of the URN and of the id, which exists for the kinds that have one. -/
structure Accepted (job : Registration) (d : Deployment) : Prop where
  nodup : (slotsOf job).Nodup
  valid : ∀ o ∈ job.outputs, o.schema.Valid
  handle : d.arena.identity? job.key =
    some
      { type := job.type, name := job.name, kind := job.kind
        urn := .source (.slot job.urnSlot), id := job.idSlot.map fun slot => .source (.slot slot) }
  hasId : job.idSlot.isSome = job.kind.isCustomLike

theorem Accepted.after {job : Registration} {d d' : Deployment} (h : Accepted job d)
    (identities : ∀ key identity, d.arena.identity? key = some identity →
      d'.arena.identity? key = some identity) : Accepted job d' :=
  ⟨h.nodup, h.valid, identities _ _ h.handle, h.hasId⟩

/-- A settlement stays as it is while nobody else writes the slots. -/
theorem Settlement.after {job : Registration} {d d' : Deployment} {progress : Progress}
    {touched : List Nat} (h : Settlement job d progress)
    (writes : Graph.Writes touched d.graph d'.graph)
    (apart : progress = .underWay → ∀ n ∈ slotsOf job, n ∉ touched) :
    Settlement job d' progress := by
  match progress with
  | .underWay => exact fun n hn => writes.isOpen (apart rfl n hn) (h n hn)
  | .endless => trivial
  | .finished (.ok ()) =>
    intro n hn
    obtain ⟨data, hd, own⟩ := h n hn
    exact ⟨data, writes.resolved n _ hd, own⟩
  | .finished (.error cause) => exact fun n hn => writes.resolved n _ (h n hn)

/-- The slots that collections of declared properties and tasks under way own. -/
def awaiting (d : Deployment) (held : List (List DeclaredOutput)) : List Nat :=
  held.flatten.map DeclaredOutput.slot ++ d.tasks.flatMap Task.openSlots

/-- A deployment in which each slot has at most one owner, and each registration is under way with
its slots open, or settled. -/
structure Owned (d : Deployment) (held : List (List DeclaredOutput)) (own : List Nat) : Prop where
  nodup : (own ++ d.awaiting held).Nodup
  exist : ∀ n ∈ own, n < d.graph.slots.length
  isOpen : ∀ n ∈ d.awaiting held, d.graph.IsOpen n
  valid : ∀ declared ∈ held, ∀ o ∈ declared, o.schema.Valid
  settled : ∀ job progress tracked, ⟨.registration job, progress, tracked⟩ ∈ d.tasks →
    Accepted job d ∧ Settlement job d progress

theorem mem_awaiting_of_task {d : Deployment} {job : Job} {tracked : Bool}
    (task : ⟨job, .underWay, tracked⟩ ∈ d.tasks) (held : List (List DeclaredOutput)) {n : Nat}
    (hn : n ∈ job.slots) : n ∈ d.awaiting held := by
  refine List.mem_append_right _ (List.mem_flatMap.mpr ⟨_, task, ?_⟩)
  simpa only [Task.openSlots] using hn

variable {d d' : Deployment} {held before after : List (List DeclaredOutput)} {own : List Nat}

namespace Owned

/-- A registration that is under way can settle its slots. -/
theorem ready (h : Owned d held own) {number : Nat} {job : Registration} {tracked : Bool}
    (task : d.tasks[number]? = some ⟨.registration job, .underWay, tracked⟩) : Ready job d := by
  obtain ⟨accepted, isOpen⟩ := h.settled job .underWay tracked (List.mem_of_getElem? task)
  exact ⟨accepted.nodup, isOpen, accepted.valid⟩

/-- Owned slots exist, so the next slot is nobody's. -/
theorem lt (h : Owned d held own) {n : Nat} (hn : n ∈ own ++ d.awaiting held) :
    n < d.graph.slots.length := by
  rcases List.mem_append.mp hn with hn | hn
  · exact h.exist n hn
  · exact (h.isOpen n hn).lt

/-- Writing slots that only the program or nobody owns. -/
theorem writes (h : Owned d held own) {touched : List Nat}
    (writes : Graph.Writes touched d.graph d'.graph) (tasks : d'.tasks = d.tasks)
    (identities : ∀ key identity, d.arena.identity? key = some identity →
      d'.arena.identity? key = some identity)
    (apart : ∀ n ∈ d.awaiting held, n ∉ touched) : Owned d' held own := by
  have same : d'.awaiting held = d.awaiting held := by simp only [awaiting, tasks]
  refine ⟨same ▸ h.nodup, fun n hn => Nat.lt_of_lt_of_le (h.exist n hn) writes.grows, ?_,
    h.valid, ?_⟩
  · intro n hn
    rw [same] at hn
    exact writes.isOpen (apart n hn) (h.isOpen n hn)
  · intro job progress tracked task
    rw [tasks] at task
    obtain ⟨accepted, settlement⟩ := h.settled job progress tracked task
    refine ⟨accepted.after identities, settlement.after writes ?_⟩
    rintro rfl n hn
    exact apart n (mem_awaiting_of_task task held hn)

theorem gains (h : Owned d held own) (gains : Gains d d') : Owned d' held own :=
  h.writes (gains.completes []).writes gains.tasks gains.identities (by simp)

/-- The program takes a slot that nobody owns. -/
theorem take (h : Owned d held own) {n : Nat} (lt : n < d.graph.slots.length)
    (fresh : n ∉ own ++ d.awaiting held) : Owned d held (n :: own) := by
  refine ⟨List.nodup_cons.mpr ⟨fresh, h.nodup⟩, ?_, h.isOpen, h.valid, h.settled⟩
  intro m hm
  rcases List.mem_cons.mp hm with rfl | hm
  · exact lt
  · exact h.exist m hm

theorem count_awaiting_insert (declared : List DeclaredOutput) (n : Nat) :
    (d.awaiting (before ++ declared :: after)).count n =
      (d.awaiting (before ++ after)).count n + (declared.map DeclaredOutput.slot).count n := by
  simp only [awaiting, List.flatten_append, List.flatten_cons, List.map_append, List.count_append]
  omega

/-- A collection is given up: its slots are nobody's. -/
theorem release {declared : List DeclaredOutput}
    (h : Owned d (before ++ declared :: after) own) :
    Owned d (before ++ after) own ∧
      ∀ n ∈ own ++ d.awaiting (before ++ after), n ∉ declared.map DeclaredOutput.slot := by
  have once := List.nodup_iff_count.mp h.nodup
  simp only [List.count_append, count_awaiting_insert] at once
  have sub : ∀ n ∈ d.awaiting (before ++ after), n ∈ d.awaiting (before ++ declared :: after) := by
    intro n hn
    have := List.count_pos_iff.mpr hn
    apply List.count_pos_iff.mp
    rw [count_awaiting_insert]
    omega
  refine ⟨⟨?_, h.exist, fun n hn => h.isOpen n (sub n hn), ?_, h.settled⟩, ?_⟩
  · refine List.nodup_iff_count.mpr fun n => ?_
    have := once n
    rw [List.count_append]
    omega
  · intro other ho
    refine h.valid other ?_
    simp only [List.mem_append, List.mem_cons] at ho ⊢
    rcases ho with ho | ho
    · exact .inl ho
    · exact .inr (.inr ho)
  · intro n hn hd
    have := once n
    have := List.count_pos_iff.mpr hn
    have := List.count_pos_iff.mpr hd
    rw [List.count_append] at *
    omega

/-- A property declared in a collection takes a slot that nobody owns. -/
theorem declare {declared : List DeclaredOutput} (h : Owned d (before ++ declared :: after) own)
    {o : DeclaredOutput} (isOpen : d.graph.IsOpen o.slot)
    (fresh : o.slot ∉ own ++ d.awaiting (before ++ declared :: after)) (valid : o.schema.Valid) :
    Owned d (before ++ (declared ++ [o]) :: after) own := by
  have once := List.nodup_iff_count.mp h.nodup
  have none := List.count_eq_zero.mpr fresh
  have counted : ∀ n, (d.awaiting (before ++ (declared ++ [o]) :: after)).count n =
      (d.awaiting (before ++ declared :: after)).count n + [o.slot].count n := by
    intro n
    simp only [count_awaiting_insert, List.map_append, List.count_append, List.map_cons,
      List.map_nil]
    omega
  refine ⟨?_, h.exist, ?_, ?_, h.settled⟩
  · refine List.nodup_iff_count.mpr fun n => ?_
    have := once n
    rw [List.count_append] at this none ⊢
    rw [counted]
    by_cases hn : o.slot = n
    · subst hn
      simp only [List.count_singleton_self]
      omega
    · have : [o.slot].count n = 0 := List.count_eq_zero.mpr (by simpa using fun e => hn e.symm)
      omega
  · intro n hn
    have := List.count_pos_iff.mpr hn
    rw [counted] at this
    by_cases hs : n = o.slot
    · exact hs ▸ isOpen
    · have : [o.slot].count n = 0 := List.count_eq_zero.mpr (by simpa using hs)
      exact h.isOpen n (List.count_pos_iff.mp (by omega))
  · intro other ho x hx
    simp only [List.mem_append, List.mem_cons] at ho
    rcases ho with ho | rfl | ho
    · exact h.valid other (by simp [ho]) x hx
    · rcases List.mem_append.mp hx with hx | hx
      · exact h.valid declared (by simp) x hx
      · obtain rfl := List.mem_singleton.mp hx
        exact valid
    · exact h.valid other (by simp [ho]) x hx

/-- A task is started that takes over slots of a collection, together with slots that nobody
owns. -/
theorem start {declared : List DeclaredOutput} (h : Owned d (before ++ declared :: after) own)
    {job : Job} (new : List Nat) {tracked : Bool}
    (slots : job.slots = new ++ declared.map DeclaredOutput.slot) (nodup : new.Nodup)
    (isOpen : ∀ n ∈ new, d.graph.IsOpen n)
    (fresh : ∀ n ∈ new, n ∉ own ++ d.awaiting (before ++ declared :: after))
    (accepted : ∀ r, job = .registration r → Accepted r d) :
    Owned { d with tasks := d.tasks ++ [⟨job, .underWay, tracked⟩] } (before ++ after) own := by
  have once := List.nodup_iff_count.mp h.nodup
  have counted : ∀ n, (awaiting { d with tasks := d.tasks ++ [⟨job, .underWay, tracked⟩] }
      (before ++ after)).count n =
        (d.awaiting (before ++ declared :: after)).count n + new.count n := by
    intro n
    simp only [count_awaiting_insert]
    simp only [awaiting, List.flatMap_append, List.flatMap_cons, List.flatMap_nil, Task.openSlots,
      slots, List.count_append, List.count_nil]
    omega
  have opened : ∀ n ∈ awaiting { d with tasks := d.tasks ++ [⟨job, .underWay, tracked⟩] }
      (before ++ after), d.graph.IsOpen n := by
    intro n hn
    have := List.count_pos_iff.mpr hn
    rw [counted] at this
    by_cases hs : n ∈ new
    · exact isOpen n hs
    · have := List.count_eq_zero.mpr hs
      exact h.isOpen n (List.count_pos_iff.mp (by omega))
  refine ⟨?_, h.exist, opened, h.release.1.valid, ?_⟩
  · refine List.nodup_iff_count.mpr fun n => ?_
    have := once n
    rw [List.count_append] at this ⊢
    rw [counted]
    by_cases hn : n ∈ new
    · have := List.nodup_iff_count.mp nodup n
      have := List.count_eq_zero.mpr (fresh n hn)
      rw [List.count_append] at this
      omega
    · have := List.count_eq_zero.mpr hn
      omega
  · intro r progress tracked' task
    rcases List.mem_append.mp task with task | task
    · obtain ⟨old, settlement⟩ := h.settled r progress tracked' task
      exact ⟨old.after fun _ _ h => h, settlement.after (.refl [] _) (by simp)⟩
    · obtain ⟨rfl, rfl, rfl⟩ : job = .registration r ∧ progress = .underWay ∧ tracked' = tracked := by
        simp only [List.mem_singleton, Task.mk.injEq] at task
        exact ⟨task.1.symm, task.2.1, task.2.2⟩
      refine ⟨(accepted r rfl).after fun _ _ h => h, fun n hn => opened n ?_⟩
      exact mem_awaiting_of_task (List.mem_append_right _ task) _ (show n ∈ Job.slots (.registration r) from hn)

/-- Two tasks under way share no slot. -/
theorem apart (h : Owned d held own) {i j : Nat} {job job' : Job} {tracked tracked' : Bool}
    (hi : d.tasks[i]? = some ⟨job, .underWay, tracked⟩)
    (hj : d.tasks[j]? = some ⟨job', .underWay, tracked'⟩) (different : i ≠ j) {n : Nat}
    (hn : n ∈ job.slots) : n ∉ job'.slots := by
  intro hn'
  -- Without the slots of the first task, those of the second are still there.
  let ended : Task → Task := fun t => { t with progress := .endless }
  have rest := count_openSlots_modify hi ended n
  have other : (⟨job', .underWay, tracked'⟩ : Task) ∈ d.tasks.modify i ended := by
    refine List.mem_of_getElem? (i := j) ?_
    simp [different, hj]
  have still : 0 < ((d.tasks.modify i ended).flatMap Task.openSlots).count n :=
    List.count_pos_iff.mpr (List.mem_flatMap.mpr ⟨_, other, hn'⟩)
  have mine : 0 < (⟨job, .underWay, tracked⟩ : Task).openSlots.count n :=
    List.count_pos_iff.mpr hn
  have none : (ended ⟨job, .underWay, tracked⟩).openSlots.count n = 0 := by
    simp [ended, Task.openSlots]
  have once := List.nodup_iff_count.mp h.nodup n
  simp only [awaiting, List.count_append] at once
  omega

/-- A task goes on: it writes the slots of its job, which are settled if it ends and open if it
does not. -/
theorem goOn (h : Owned d held own) {number : Nat} {job : Job} {tracked : Bool}
    (task : d.tasks[number]? = some ⟨job, .underWay, tracked⟩) {progress : Progress}
    (completes : Completes job.slots d d')
    (waits : progress = .underWay → ∀ n ∈ job.slots, d'.graph.IsOpen n)
    (settles : ∀ r, job = .registration r → Settlement r d' progress) :
    Owned (d'.note number progress) held own := by
  have member := List.mem_of_getElem? task
  have once := List.nodup_iff_count.mp h.nodup
  let changed : Task := ⟨job, progress, tracked⟩
  have counted : ∀ n, ((d'.note number progress).awaiting held).count n + job.slots.count n =
      (d.awaiting held).count n + changed.openSlots.count n := by
    intro n
    have mine : (⟨job, .underWay, tracked⟩ : Task).openSlots = job.slots := rfl
    have exchanged : ((d.tasks.modify number fun t => { t with progress := progress }).flatMap
        Task.openSlots).count n + _ = _ + changed.openSlots.count n :=
      count_openSlots_modify task _ n
    rw [mine] at exchanged
    simp only [awaiting, note, completes.tasks, List.count_append]
    omega
  -- The slots of the job are open after the step only if it is still under way.
  have rest : ∀ n, progress ≠ .underWay → changed.openSlots.count n = 0 := by
    intro n ended
    cases progress with
    | underWay => exact absurd rfl ended
    | endless => rfl
    | finished outcome => rfl
  have most : ∀ n, changed.openSlots.count n ≤ job.slots.count n := by
    intro n
    cases progress with
    | underWay => exact Nat.le_refl _
    | endless => exact Nat.zero_le _
    | finished outcome => exact Nat.zero_le _
  refine ⟨?_, fun n hn => Nat.lt_of_lt_of_le (h.exist n hn) completes.writes.grows, ?_, h.valid, ?_⟩
  · refine List.nodup_iff_count.mpr fun n => ?_
    have := once n
    have := counted n
    have := most n
    rw [List.count_append] at *
    omega
  · intro n hn
    have present := List.count_pos_iff.mpr hn
    have exchanged := counted n
    by_cases mine : n ∈ job.slots
    · cases progress with
      | underWay => exact waits rfl n mine
      | endless | finished =>
        have := List.count_pos_iff.mpr mine
        have := rest n (by simp)
        have := once n
        rw [List.count_append] at this
        omega
    · have := most n
      have := List.count_eq_zero.mpr mine
      exact completes.writes.isOpen mine (h.isOpen n (List.count_pos_iff.mp (by omega)))
  · intro r progress' tracked' other
    obtain ⟨i, hi⟩ := List.getElem?_of_mem other
    simp only [note, completes.tasks, List.getElem?_modify] at hi
    by_cases hn : number = i
    · subst hn
      rw [task] at hi
      simp only [if_true, Option.map_eq_map, Option.map_some, Option.some.injEq,
        Task.mk.injEq] at hi
      obtain ⟨rfl, rfl, rfl⟩ := hi
      have accepted := (h.settled r .underWay tracked member).1
      exact ⟨accepted.after completes.identities, (settles r rfl).after (.refl [] _) (by simp)⟩
    · have old : d.tasks[i]? = some ⟨.registration r, progress', tracked'⟩ := by
        simpa only [hn, if_false, Option.map_eq_map, Option.map_id_fun', id_eq] using hi
      obtain ⟨accepted, settlement⟩ := h.settled r progress' tracked' (List.mem_of_getElem? old)
      refine ⟨accepted.after completes.identities, settlement.after completes.writes ?_⟩
      rintro rfl n hn'
      exact h.apart old task (Ne.symm hn) hn'

end Owned

end Deployment

end Provision
