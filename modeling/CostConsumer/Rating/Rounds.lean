import CostConsumer.Foundation.Execution
import CostConsumer.Rating.Backlog
import CostConsumer.Rating.Machine
set_option autoImplicit false

/-!
How often one sweep goes round its drain loop. A failed fetch and a failed
insert leave the loop, a failed mark does not: the sweep then fetches the batch
it just priced once more.
-/

namespace CostConsumer.Rating
open Inventory Foundation

/-- The labels of one sweep's loop while no entries arrive: its own store calls,
and writes of other tables. -/
def Label.ofLoop : Label → Bool
  | .fetch _ => true
  | .price _ => true
  | .insert _ => true
  | .mark _ _ => true
  | .alter _ _ _ => true
  | _ => false

def roundBegins : Option Label → Bool
  | some (.fetch _) => true
  | _ => false

def markFails : Option Label → Bool
  | some (.mark failed _) => failed
  | _ => false

/-- A batch in work is the head of the queue, and its ids are collected in order. -/
structure Fetched (s : Store) (w : Work) : Prop where
  entries : w.entries = s.queue.take w.plan.batch
  ids : w.batch.ratedIDs ++ w.todo.map (·.id) = w.entries.map (·.id)

theorem Fetched.price {s : Store} {w : Work} {me : MeteringEntry} {rest : List MeteringEntry}
    (h : Fetched s w) (ht : w.todo = me :: rest) (f : Faults) : Fetched s (w.price s f me rest) where
  entries := h.entries
  ids := by
    have hids := h.ids
    rw [ht] at hids
    simpa [Work.price,Plan.rateEntry] using hids

def Phase.Keeps (s : Store) : Phase → Prop
  | .idle => True
  | .ready _ => True
  | .pricing w => Fetched s w
  | .inserted w => Fetched s w ∧ w.todo = []

/-- The rounds that may follow the one in work, with `n` entries in the queue. -/
def Work.rounds (n : Nat) (w : Work) : Nat :=
  if w.entries.length < w.plan.batch then 0 else n / w.plan.batch

def Phase.rounds (n : Nat) : Phase → Nat
  | .idle => 0
  | .ready p => n / p.batch + 1
  | .pricing w => w.rounds n
  | .inserted w => w.rounds n

/-- Between a fetch and the mark that belongs to it. -/
def Phase.inRound : Phase → Nat
  | .idle => 0
  | .ready _ => 0
  | .pricing _ => 1
  | .inserted _ => 1

theorem Work.rounds_le (n : Nat) (w : Work) : w.rounds n ≤ n / w.plan.batch := by
  unfold rounds
  split
  · exact Nat.zero_le _
  · exact Nat.le_refl _

theorem Work.next_keeps (s : Store) (w : Work) : w.next.Keeps s := by
  unfold next
  split <;> trivial

theorem Work.next_inRound (w : Work) : w.next.inRound = 0 := by
  unfold next
  split <;> rfl

theorem Work.next_rounds_le (n : Nat) (w : Work) : w.next.rounds n ≤ w.rounds n + 1 := by
  unfold next rounds
  split
  · exact Nat.zero_le _
  · exact Nat.le_refl _

theorem Fetched.queue_mark {s : Store} {w : Work} (h : Fetched s w) (ht : w.todo = []) (now : Int) :
    (s.markMeteringEntriesRated w.batch.ratedIDs now).queue = s.queue.drop w.plan.batch := by
  have hids : w.batch.ratedIDs = (s.queue.take w.plan.batch).map (·.id) := by
    rw [← h.entries,← h.ids,ht,List.map_nil,List.append_nil]
  rw [hids,Store.queue_mark_take]

theorem Fetched.next_rounds {s : Store} {w : Work} (h : Fetched s w) :
    w.next.rounds (s.queue.drop w.plan.batch).length = w.rounds s.queue.length := by
  unfold Work.next Work.rounds
  split
  · rfl
  · rename_i hfull
    have hle : w.plan.batch ≤ s.queue.length := by
      rw [h.entries,List.length_take] at hfull
      omega
    rw [List.length_drop]
    exact (Nat.div_eq_sub_div w.plan.batch_pos hle).symm

theorem round_step {s t : State} {l : Label} (h : s.phase.Keeps s.store) (hl : l.ofLoop = true)
    (hm : Moves s l t) :
    t.phase.Keeps t.store ∧
      (roundBegins (some l)).toNat + t.phase.rounds t.store.queue.length ≤
        s.phase.rounds s.store.queue.length + (markFails (some l)).toNat := by
  cases hm with
  | alter rates instances tenants =>
    have hk : s.phase.Keeps (s.alter rates instances tenants).store := by
      revert h
      cases s.phase with
      | idle => exact fun _ => trivial
      | ready p => exact fun _ => trivial
      | pricing w => exact fun h => ⟨h.entries,h.ids⟩
      | inserted w => exact fun h => ⟨⟨h.1.entries,h.1.ids⟩,h.2⟩
    exact ⟨hk,Nat.le_of_eq (Nat.zero_add _)⟩
  | fetchNone failed hp =>
    rw [hp]
    refine ⟨trivial,?_⟩
    exact Nat.le_trans (Nat.le_add_left 1 _) (Nat.le_add_right _ _)
  | fetch hp he =>
    rename_i p
    rw [hp]
    refine ⟨⟨rfl,rfl⟩,?_⟩
    have hle := (Work.start p (s.store.unratedMeteringEntries p.batch)).rounds_le s.store.queue.length
    rw [Nat.add_comm]
    exact Nat.le_trans (Nat.succ_le_succ hle) (Nat.le_add_right _ _)
  | price f hp ht =>
    rw [hp] at h ⊢
    exact ⟨h.price ht f,Nat.le_of_eq (Nat.zero_add _)⟩
  | insertNone failed hp ht hc =>
    rw [hp] at h ⊢
    exact ⟨⟨h,ht⟩,Nat.le_of_eq (Nat.zero_add _)⟩
  | insertFails failed hp ht hc hf => exact ⟨trivial,Nat.zero_le _⟩
  | insert hp ht hc =>
    rw [hp] at h ⊢
    exact ⟨⟨⟨h.entries,h.ids⟩,ht⟩,Nat.le_of_eq (Nat.zero_add _)⟩
  | markFails now hp =>
    rename_i w
    rw [hp]
    refine ⟨w.next_keeps _,?_⟩
    exact Nat.le_trans (Nat.le_of_eq (Nat.zero_add _)) (w.next_rounds_le _)
  | mark now hp =>
    rename_i w
    rw [hp] at h ⊢
    refine ⟨w.next_keeps _,?_⟩
    refine Nat.le_of_eq ((Nat.zero_add _).trans ?_)
    rw [h.1.queue_mark h.2]
    exact h.1.next_rounds
  | allocate e => cases hl
  | commit hr => cases hl
  | abort id => cases hl
  | beginFails r now => cases hl
  | begin r now hp => cases hl
  | cancel hp => cases hl
  | crash => cases hl

theorem mark_step {s t : State} {l : Label} (hm : Moves s l t) :
    (markFails (some l)).toNat + t.phase.inRound ≤ s.phase.inRound + (roundBegins (some l)).toNat := by
  cases hm with
  | fetchNone failed hp => exact Nat.zero_le _
  | fetch hp he =>
    rw [hp]
    exact Nat.le_refl 1
  | price f hp ht =>
    rw [hp]
    exact Nat.le_refl 1
  | insertNone failed hp ht hc =>
    rw [hp]
    exact Nat.le_refl 1
  | insert hp ht hc =>
    rw [hp]
    exact Nat.le_refl 1
  | markFails now hp =>
    rename_i w
    rw [hp,show (s.goto w.next).phase = w.next from rfl,w.next_inRound]
    exact Nat.le_refl 1
  | mark now hp =>
    rename_i w
    rw [w.next_inRound]
    exact Nat.zero_le _
  | allocate e => exact Nat.le_of_eq (Nat.zero_add _)
  | commit hr => exact Nat.le_of_eq (Nat.zero_add _)
  | abort id => exact Nat.le_of_eq (Nat.zero_add _)
  | alter rates instances tenants => exact Nat.le_of_eq (Nat.zero_add _)
  | beginFails r now => exact Nat.le_of_eq (Nat.zero_add _)
  | begin r now hp => exact Nat.zero_le _
  | cancel hp => exact Nat.zero_le _
  | insertFails failed hp ht hc hf => exact Nat.zero_le _
  | crash => exact Nat.zero_le _

theorem round_instant {s t : State} {l : Option Label} (h : s.phase.Keeps s.store)
    (hl : ∀ l', l = some l' → l'.ofLoop = true) (hs : pausing step s l = some t) :
    t.phase.Keeps t.store ∧
      (roundBegins l).toNat + t.phase.rounds t.store.queue.length ≤
        s.phase.rounds s.store.queue.length + (markFails l).toNat ∧
      (markFails l).toNat + t.phase.inRound ≤ s.phase.inRound + (roundBegins l).toNat := by
  cases l with
  | none =>
    cases hs
    exact ⟨h,Nat.le_of_eq (Nat.zero_add _),Nat.le_of_eq (Nat.zero_add _)⟩
  | some l =>
    obtain ⟨hk,hr⟩ := round_step h (hl l rfl) (step_moves hs)
    exact ⟨hk,hr,mark_step (step_moves hs)⟩

/-- From the top of the loop, with no entries arriving and no cancellation, and
whichever store calls fail: the sweep goes round finitely often exactly if the
failing marks are finitely many. -/
theorem rounds_finite_iff {s : State} {p : Plan} (hp : s.phase = .ready p)
    (e : Execution (pausing step) s) (hl : ∀ i l, e.label i = some l → l.ofLoop = true) :
    {i | roundBegins (e.label i) = true}.Finite ↔ {i | markFails (e.label i) = true}.Finite := by
  have h0 : s.phase.Keeps s.store := by
    rw [hp]
    trivial
  have hstep := fun i h => round_instant h (hl i) (e.next i)
  constructor
  · exact e.finite_of_charged (fun s => s.phase.Keeps s.store) (fun s => s.phase.inRound) h0
      fun i h => ⟨(hstep i h).1,(hstep i h).2.2⟩
  · exact e.finite_of_charged (fun s => s.phase.Keeps s.store)
      (fun s => s.phase.rounds s.store.queue.length) h0 fun i h => ⟨(hstep i h).1,(hstep i h).2.1⟩

/-- At the top of the loop with one entry that no rate prices, and batches of one. -/
def unpriced : State where
  store := { meteringEntries := ⟨[⟨tokens 1 100 february (february + hours 1),none⟩],by decide⟩ }
  nextID := 2
  pending := []
  phase := .ready ((⟨1,by decide,none⟩ : Rater).plan february {})
  marked := []
  charged := []

def unpricedRound (failed : Bool) : List Label :=
  [.fetch false,.price {},.insert false,.mark failed february]

theorem unpricedRound_ofLoop (failed : Bool) : ∀ l ∈ unpricedRound failed, l.ofLoop = true := by
  simp [unpricedRound,Label.ofLoop]

theorem unpriced_again : runLabels step unpriced (unpricedRound true) = some unpriced := rfl

theorem rounds_end_unpriced :
    ∃ e : Execution (pausing step) unpriced,
      (∀ i, e.label i = (unpricedRound true ++ unpricedRound false ++ [.fetch false])[i]?) ∧
        {i | roundBegins (e.label i) = true}.Finite := by
  have hrun : ∃ t, runLabels step unpriced
      (unpricedRound true ++ unpricedRound false ++ [.fetch false]) = some t := ⟨_,rfl⟩
  obtain ⟨t,ht⟩ := hrun
  obtain ⟨e,he⟩ := Execution.of_run ht
  refine ⟨e,he,(rounds_finite_iff rfl e fun i l hl => ?_).mpr ?_⟩
  · rw [he] at hl
    have hmem := List.mem_of_getElem? hl
    simp only [List.mem_append,List.mem_singleton] at hmem
    rcases hmem with (hmem | hmem) | rfl
    · exact unpricedRound_ofLoop true l hmem
    · exact unpricedRound_ofLoop false l hmem
    · rfl
  · refine (Set.finite_lt_nat 9).subset fun i hi => ?_
    by_contra hge
    have hnone : e.label i = none := (he i).trans (List.getElem?_eq_none (Nat.le_of_not_lt hge))
    rw [Set.mem_ofPred_eq,hnone] at hi
    cases hi

theorem rounds_never_end :
    ∃ e : Execution (pausing step) unpriced, (∀ i l, e.label i = some l → l.ofLoop = true) ∧
      ¬ {i | roundBegins (e.label i) = true}.Finite := by
  obtain ⟨e,he⟩ := Execution.of_cycle (by decide) unpriced_again
  refine ⟨e,fun i l hl => ?_,?_⟩
  · rw [he] at hl
    exact unpricedRound_ofLoop true l (List.mem_of_getElem? hl)
  · refine Set.infinite_of_injective_forall_mem (f := fun k => 4*k) ?_ fun k => ?_
    · intro a b hab
      exact Nat.mul_left_cancel (by decide) hab
    · rw [Set.mem_ofPred_eq,he,show (unpricedRound true).length = 4 from rfl,Nat.mul_mod_right]
      rfl

end CostConsumer.Rating
