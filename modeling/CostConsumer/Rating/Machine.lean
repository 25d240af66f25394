import CostConsumer.Foundation.Transition
import CostConsumer.Rating.Drain
set_option autoImplicit false

/-!
The rater as a process: one store call is one step, any call may fail, the
process may crash between two calls, and other transactions insert metering
entries meanwhile. A BIGSERIAL id is taken when a row is inserted, the row is
seen by others once its transaction commits.
-/

namespace CostConsumer.Rating
open Inventory Foundation

structure Verdict where
  entry : MeteringEntry
  rule : Option CostEntry
  rate : Option RateRecord

/-- A charge under a cumulative rate: the billing window of the entry and the
usage of that window it was priced after. -/
structure Charge where
  entry : MeteringEntry
  rate : RateRecord
  window : Int × Int
  prior : Rat

/-- A batch in work: the fetched entries, those not priced yet, the loop
variables, and what was found out so far. -/
structure Work where
  plan : Plan
  entries : List MeteringEntry
  todo : List MeteringEntry
  batch : Batch
  verdicts : List Verdict
  charges : List Charge

/-- Where the process is: between sweeps, at the top of the drain loop, in the
loop over a batch, or past the insert of its cost entries. -/
inductive Phase where
  | idle : Phase
  | ready : Plan → Phase
  | pricing : Work → Phase
  | inserted : Work → Phase

/-- `marked` and `charged` are histories: the verdicts of the entries that were
marked and the charges that were written. -/
structure State where
  store : Store
  nextID : Nat
  pending : List MeteringRow
  phase : Phase
  marked : List Verdict
  charged : List Charge

inductive Label where
  | allocate : MeteringEntry → Label
  | commit : Nat → Label
  | abort : Nat → Label
  | alter : List RateRecord → Table String ComputeInstanceRecord (·.instanceID) →
      Table String TenantRecord (·.tenantID) → Label
  | begin : Rater → Int → Bool → Label
  | cancel : Label
  | fetch : Bool → Label
  | price : Faults → Label
  | insert : Bool → Label
  | mark : Bool → Int → Label
  | crash : Label

namespace State

def allocate (s : State) (e : MeteringEntry) : State :=
  { s with nextID := s.nextID+1, pending := s.pending ++ [⟨{ e with id := s.nextID },none⟩] }

def drop (s : State) (id : Nat) : State :=
  { s with pending := s.pending.filter (fun row => row.id ≠ id) }

def commit (s : State) (row : MeteringRow) : State :=
  { s.drop row.id with
    store := { s.store with meteringEntries := s.store.meteringEntries.insert row } }

def alter (s : State) (rates : List RateRecord)
    (instances : Table String ComputeInstanceRecord (·.instanceID))
    (tenants : Table String TenantRecord (·.tenantID)) : State :=
  { s with store := { s.store with rates, computeInstances := instances, tenants } }

def goto (s : State) (phase : Phase) : State := { s with phase }

end State

namespace Work

def start (p : Plan) (entries : List MeteringEntry) : Work := ⟨p,entries,entries,{},[],[]⟩

def charge (w : Work) (s : Store) (f : Faults) (me : MeteringEntry) : Option Charge :=
  (w.plan.window s f me).map (fun (rate,window) =>
    ⟨me,rate,window,priorUsage s f w.batch.priorUsageCache me rate window⟩)

def price (w : Work) (s : Store) (f : Faults) (me : MeteringEntry) (rest : List MeteringEntry) :
    Work :=
  { w with
    todo := rest,
    batch := w.plan.rateEntry s f w.batch me,
    verdicts := w.verdicts ++ [⟨me,w.plan.rule s f me,w.plan.rate me⟩],
    charges := w.charges ++ (w.charge s f me).toList }

/-- After the mark: a short batch ends the drain loop. -/
def next (w : Work) : Phase :=
  if w.entries.length < w.plan.batch then .idle else .ready w.plan

end Work

def step (s : State) (l : Label) : Option State :=
  match l, s.phase with
  | .allocate e, _ => some (s.allocate e)
  | .commit id, _ => (s.pending.find? (fun row => row.id = id)).map s.commit
  | .abort id, _ => some (s.drop id)
  | .alter rates instances tenants, _ => some (s.alter rates instances tenants)
  | .begin r now failed, .idle =>
    some (if failed then s else s.goto (.ready (r.plan now s.store)))
  | .cancel, .ready _ => some (s.goto .idle)
  | .fetch failed, .ready p =>
    let entries := s.store.unratedMeteringEntries p.batch
    some (if failed ∨ entries = [] then s.goto .idle else s.goto (.pricing (.start p entries)))
  | .price f, .pricing w =>
    match w.todo with
    | [] => none
    | me :: rest => some (s.goto (.pricing (w.price s.store f me rest)))
  | .insert failed, .pricing w =>
    if w.todo ≠ [] then none
    else if w.batch.costEntries = [] then some (s.goto (.inserted w))
    else if failed then some (s.goto .idle)
    else match s.store.insertCostEntryBatch w.batch.costEntries with
      | .error _ => some (s.goto .idle)
      | .ok store =>
        some { s with store, phase := .inserted w, charged := s.charged ++ w.charges }
  | .mark failed now, .inserted w =>
    some (if failed then s.goto w.next
      else { s with
        store := s.store.markMeteringEntriesRated w.batch.ratedIDs now,
        phase := w.next,
        marked := s.marked ++ w.verdicts })
  | .crash, _ => some (s.goto .idle)
  | _, _ => none

def Phase.isIdle : Phase → Bool
  | .idle => true
  | .ready _ => false
  | .pricing _ => false
  | .inserted _ => false

theorem Phase.eq_idle {p : Phase} (h : p.isIdle = true) : p = .idle := by
  cases p with
  | idle => rfl
  | ready p => cases h
  | pricing w => cases h
  | inserted w => cases h

inductive Moves (s : State) : Label → State → Prop
  | allocate (e : MeteringEntry) : Moves s (.allocate e) (s.allocate e)
  | commit {row : MeteringRow} (h : row ∈ s.pending) : Moves s (.commit row.id) (s.commit row)
  | abort (id : Nat) : Moves s (.abort id) (s.drop id)
  | alter (rates : List RateRecord) (instances : Table String ComputeInstanceRecord (·.instanceID))
      (tenants : Table String TenantRecord (·.tenantID)) :
      Moves s (.alter rates instances tenants) (s.alter rates instances tenants)
  | beginFails (r : Rater) (now : Int) : Moves s (.begin r now true) s
  | begin (r : Rater) (now : Int) (hp : s.phase = .idle) :
      Moves s (.begin r now false) (s.goto (.ready (r.plan now s.store)))
  | cancel {p : Plan} (hp : s.phase = .ready p) : Moves s .cancel (s.goto .idle)
  | fetchNone {p : Plan} (failed : Bool) (hp : s.phase = .ready p) :
      Moves s (.fetch failed) (s.goto .idle)
  | fetch {p : Plan} (hp : s.phase = .ready p) (he : s.store.unratedMeteringEntries p.batch ≠ []) :
      Moves s (.fetch false)
        (s.goto (.pricing (.start p (s.store.unratedMeteringEntries p.batch))))
  | price {w : Work} {me : MeteringEntry} {rest : List MeteringEntry} (f : Faults)
      (hp : s.phase = .pricing w) (ht : w.todo = me :: rest) :
      Moves s (.price f) (s.goto (.pricing (w.price s.store f me rest)))
  | insertNone {w : Work} (failed : Bool) (hp : s.phase = .pricing w) (ht : w.todo = [])
      (hc : w.batch.costEntries = []) : Moves s (.insert failed) (s.goto (.inserted w))
  | insertFails {w : Work} (failed : Bool) (hp : s.phase = .pricing w) (ht : w.todo = [])
      (hc : w.batch.costEntries ≠ [])
      (hf : failed = true ∨ ∃ e, s.store.insertCostEntryBatch w.batch.costEntries = .error e) :
      Moves s (.insert failed) (s.goto .idle)
  | insert {w : Work} (hp : s.phase = .pricing w) (ht : w.todo = [])
      (hc : w.batch.costEntries ≠ []) :
      Moves s (.insert false)
        { s with
          store := s.store.addCosts w.batch.costEntries,
          phase := .inserted w,
          charged := s.charged ++ w.charges }
  | markFails {w : Work} (now : Int) (hp : s.phase = .inserted w) :
      Moves s (.mark true now) (s.goto w.next)
  | mark {w : Work} (now : Int) (hp : s.phase = .inserted w) :
      Moves s (.mark false now)
        { s with
          store := s.store.markMeteringEntriesRated w.batch.ratedIDs now,
          phase := w.next,
          marked := s.marked ++ w.verdicts }
  | crash : Moves s .crash (s.goto .idle)

theorem step_moves {s t : State} {l : Label} (h : step s l = some t) : Moves s l t := by
  unfold step at h
  split at h
  · cases h; exact .allocate _
  · rename_i id
    cases hf : s.pending.find? (fun row => row.id = id) with
    | none => simp [hf] at h
    | some row =>
      simp only [hf,Option.map_some,Option.some.injEq] at h
      have hid : row.id = id := by simpa using List.find?_some hf
      rw [← h,← hid]
      exact .commit (List.mem_of_find?_eq_some hf)
  · cases h; exact .abort _
  · cases h; exact .alter _ _ _
  · rename_i r now failed hp
    cases failed with
    | true => cases h; exact .beginFails r now
    | false => cases h; exact .begin r now hp
  · rename_i hp
    cases h; exact .cancel hp
  · rename_i failed p hp
    by_cases hc : failed ∨ s.store.unratedMeteringEntries p.batch = []
    · simp only [hc,if_true,Option.some.injEq] at h
      rw [← h]
      exact .fetchNone failed hp
    · simp only [hc,if_false,Option.some.injEq] at h
      rw [← h]
      cases failed with
      | true => simp at hc
      | false => exact .fetch hp (by simpa using hc)
  · rename_i hp
    split at h
    · cases h
    · rename_i ht
      cases h; exact .price _ hp ht
  · rename_i failed w hp
    by_cases ht : w.todo = []
    · by_cases hc : w.batch.costEntries = []
      · simp only [ht,hc,ne_eq,not_true_eq_false,if_false,if_true,Option.some.injEq] at h
        rw [← h]
        exact .insertNone failed hp ht hc
      · simp only [ht,hc,ne_eq,not_true_eq_false,if_false] at h
        cases failed with
        | true =>
          simp only [if_true,Option.some.injEq] at h
          rw [← h]
          exact .insertFails true hp ht hc (.inl rfl)
        | false =>
          cases hi : s.store.insertCostEntryBatch w.batch.costEntries with
          | error e =>
            simp [hi] at h
            rw [← h]
            exact .insertFails false hp ht hc (.inr ⟨e,hi⟩)
          | ok store =>
            simp [hi] at h
            rw [← h,Store.insertCostEntryBatch_ok hi]
            exact .insert hp ht hc
    · simp [ht] at h
  · rename_i failed now w hp
    cases failed with
    | true => cases h; exact .markFails now hp
    | false => cases h; exact .mark now hp
  · cases h; exact .crash
  · cases h

/-- The labels of a process that is left alone: no call fails and nobody else
writes. -/
def Label.undisturbed : Label → Bool
  | .begin _ _ failed => !failed
  | .fetch failed => !failed
  | .price f => f = {}
  | .insert failed => !failed
  | .mark failed _ => !failed
  | _ => false

def Undisturbed (s t : State) : Prop :=
  ∃ ls, ls.all Label.undisturbed = true ∧ runLabels step s ls = some t

theorem Undisturbed.refl (s : State) : Undisturbed s s := ⟨[],rfl,rfl⟩

theorem Undisturbed.head {s t u : State} {l : Label} (hl : l.undisturbed = true)
    (h : step s l = some t) (hr : Undisturbed t u) : Undisturbed s u := by
  obtain ⟨ls,hls,hr⟩ := hr
  exact ⟨l :: ls,by simp [hl,hls],by rw [runLabels,h]; exact hr⟩

theorem Undisturbed.trans {s t u : State} (h : Undisturbed s t) (h' : Undisturbed t u) :
    Undisturbed s u := by
  obtain ⟨ls,hls,hr⟩ := h
  obtain ⟨ls',hls',hr'⟩ := h'
  exact ⟨ls ++ ls',by simp [hls,hls'],by rw [runLabels_append,hr]; exact hr'⟩

theorem run_price {s : State} {w : Work} (hp : s.phase = .pricing w) :
    ∃ w', Undisturbed s (s.goto (.pricing w')) ∧ w'.plan = w.plan ∧ w'.entries = w.entries ∧
      w'.todo = [] ∧ w'.batch = w.todo.foldl (w.plan.rateEntry s.store {}) w.batch := by
  generalize ht : w.todo = todo
  induction todo generalizing s w with
  | nil =>
    have hs : s.goto (.pricing w) = s := by rw [State.goto,← hp]
    exact ⟨w,hs.symm ▸ .refl s,rfl,rfl,ht,rfl⟩
  | cons me rest ih =>
    obtain ⟨w',hr,h₁,h₂,h₃,h₄⟩ :=
      @ih (s.goto (.pricing (w.price s.store {} me rest))) (w.price s.store {} me rest) rfl rfl
    have hstep : step s (.price {}) = some (s.goto (.pricing (w.price s.store {} me rest))) := by
      simp [step,hp,ht]
    exact ⟨w',.head rfl hstep hr,h₁,h₂,h₃,h₄⟩

theorem run_write {s : State} {w : Work} (now : Int) (hp : s.phase = .pricing w) (ht : w.todo = []) :
    ∃ t, Undisturbed s t ∧
      match s.store.insertCostEntryBatch w.batch.costEntries with
      | .error _ => t.phase = .idle ∧ t.store = s.store
      | .ok store =>
        t.phase = w.next ∧ t.store = store.markMeteringEntriesRated w.batch.ratedIDs now := by
  by_cases hc : w.batch.costEntries = []
  · -- nothing to insert
    have hins : step s (.insert false) = some (s.goto (.inserted w)) := by simp [step,hp,ht,hc]
    refine ⟨_,.head rfl hins (.head rfl (l := .mark false now) rfl (.refl _)),?_⟩
    rw [hc]
    exact ⟨rfl,rfl⟩
  · cases hi : s.store.insertCostEntryBatch w.batch.costEntries with
    | error e =>
      have hins : step s (.insert false) = some (s.goto .idle) := by simp [step,hp,ht,hc,hi]
      exact ⟨_,.head rfl hins (.refl _),rfl,rfl⟩
    | ok store =>
      have hins : step s (.insert false) =
          some { s with store, phase := .inserted w, charged := s.charged ++ w.charges } := by
        simp [step,hp,ht,hc,hi]
      exact ⟨_,.head rfl hins (.head rfl (l := .mark false now) rfl (.refl _)),rfl,rfl⟩

theorem drain_runs {p : Plan} (now : Int) {fuel : Nat} {s : State} (hp : s.phase = .ready p)
    (hf : s.store.queue.length < fuel) :
    ∃ t, Undisturbed s t ∧ t.phase = .idle ∧ t.store = p.drain now fuel s.store := by
  induction fuel generalizing s with
  | zero => omega
  | succ fuel ih =>
    unfold Plan.drain
    by_cases he : s.store.unratedMeteringEntries p.batch = []
    · have hfetch : step s (.fetch false) = some (s.goto .idle) := by simp [step,hp,he]
      exact ⟨_,.head rfl hfetch (.refl _),rfl,by simp [he,State.goto]⟩
    · have hfetch : step s (.fetch false) =
          some (s.goto (.pricing (.start p (s.store.unratedMeteringEntries p.batch)))) := by
        simp [step,hp,he]
      obtain ⟨w,hprice,h₁,h₂,h₃,h₄⟩ :=
        @run_price (s.goto (.pricing (.start p (s.store.unratedMeteringEntries p.batch)))) _ rfl
      obtain ⟨t,hwrite,hend⟩ := @run_write (s.goto (.pricing w)) w now rfl h₃
      have hrun : Undisturbed s t := .head rfl hfetch (hprice.trans hwrite)
      have hbatch : w.batch = p.rateBatch s.store (s.store.unratedMeteringEntries p.batch) := h₄
      simp only [State.goto,hbatch] at hend
      simp only [he,if_false]
      cases hi : s.store.insertCostEntryBatch
        (p.rateBatch s.store (s.store.unratedMeteringEntries p.batch)).costEntries with
      | error e =>
        simp only [hi] at hend
        exact ⟨t,hrun,hend⟩
      | ok store =>
        simp only [hi] at hend
        obtain ⟨hphase,hstore⟩ := hend
        have hnext : w.next = if (s.store.unratedMeteringEntries p.batch).length < p.batch
            then .idle else .ready p := by
          rw [Work.next,h₁,h₂]
          rfl
        rw [hnext] at hphase
        by_cases hshort : (s.store.unratedMeteringEntries p.batch).length < p.batch
        · rw [if_pos hshort] at hphase
          simp only [hshort,if_true]
          exact ⟨t,hrun,hphase,hstore⟩
        · rw [if_neg hshort] at hphase
          simp only [hshort,if_false]
          have hq : t.store.queue = s.store.queue.drop p.batch := by
            rw [hstore,Store.insertCostEntryBatch_ok hi,Plan.rateBatch_ratedIDs]
            exact Store.queue_mark_take s.store p.batch now
          obtain ⟨u,hu,hidle,hus⟩ := ih hphase (by
            have hlen := List.length_pos_of_ne_nil fun hnil : s.store.queue = [] => he (by
              rw [Store.unratedMeteringEntries_eq,hnil,List.take_nil])
            have hb := p.batch_pos
            rw [hq,List.length_drop]
            omega)
          exact ⟨u,hrun.trans hu,hidle,by rw [hus,hstore]⟩

theorem sweep_runs (r : Rater) (now : Int) {s : State} (hp : s.phase = .idle) :
    ∃ t, Undisturbed s t ∧ t.phase = .idle ∧ t.store = r.sweep now s.store := by
  have hbegin : step s (.begin r now false) = some (s.goto (.ready (r.plan now s.store))) := by
    simp [step,hp]
  obtain ⟨t,ht,hidle,hstore⟩ :=
    @drain_runs (r.plan now s.store) now (unratedCount s.store + 1)
      (s.goto (.ready (r.plan now s.store))) rfl (by
        rw [unratedCount_eq]
        exact Nat.lt_succ_self _)
  exact ⟨t,.head rfl hbegin ht,hidle,hstore⟩

theorem sweep_runs_in_two_batches :
    ∃ t, Undisturbed ⟨({} : Store).addMetering 1 (List.replicate 2 ⟨0,none,"","","","","","","",5,"",0,0⟩),
      3,[],.idle,[],[]⟩ t ∧ t.phase = .idle ∧ t.store.queue = [] := by
  obtain ⟨t,ht,hidle,hs⟩ := @sweep_runs ⟨1,Nat.one_pos,none⟩ 0 ⟨_,3,[],.idle,[],[]⟩ rfl
  exact ⟨t,ht,hidle,by rw [hs]; rfl⟩

def initial (s : State) : Prop :=
  s.store.meteringEntries.rows = [] ∧ s.store.costEntries = [] ∧ s.pending = [] ∧
    s.phase = .idle ∧ s.marked = [] ∧ s.charged = []

end CostConsumer.Rating
