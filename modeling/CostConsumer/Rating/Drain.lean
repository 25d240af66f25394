import CostConsumer.Foundation.Chunks
import CostConsumer.Rating.Sweep
set_option autoImplicit false

/-!
What one sweep without failures does to the store: the queue is cut into
batches, every batch is priced against the store the sweep started from, and
all of the queue is marked.
-/

namespace CostConsumer.Inventory.Store
open Foundation

def queue (s : Store) : List MeteringEntry :=
  (s.meteringEntries.rows.filter (fun r => r.ratedAt.isNone)).map (·.toMeteringEntry)

theorem unratedMeteringEntries_eq (s : Store) (n : Nat) :
    s.unratedMeteringEntries n = s.queue.take n := rfl

theorem queue_nodup (s : Store) : (s.queue.map (·.id)).Nodup := by
  unfold queue
  rw [List.map_map]
  exact s.meteringEntries.keys_nodup.sublist (List.filter_sublist.map _)

theorem filter_markRow (ids : List Nat) (now : Int) (rows : List MeteringRow) :
    ((rows.map (markRow ids now)).filter (fun r => r.ratedAt.isNone)) =
      (rows.filter (fun r => r.ratedAt.isNone)).filter (fun r => r.id ∉ ids) := by
  induction rows with
  | nil => rfl
  | cons r rows ih =>
    by_cases hr : r.id ∈ ids
    · cases hn : r.ratedAt <;> simp [markRow,hr,hn] <;> simpa using ih
    · cases hn : r.ratedAt <;> simp [markRow,hr,hn] <;> simpa using ih

theorem queue_mark (s : Store) (ids : List Nat) (now : Int) :
    (s.markMeteringEntriesRated ids now).queue = s.queue.filter (fun e => e.id ∉ ids) := by
  unfold queue markMeteringEntriesRated markTable
  rw [Table.update_rows,filter_markRow,List.filter_map]
  rfl

theorem queue_mark_take (s : Store) (n : Nat) (now : Int) :
    (s.markMeteringEntriesRated ((s.queue.take n).map (·.id)) now).queue = s.queue.drop n := by
  rw [queue_mark,filter_notMem_take s.queue_nodup]

theorem mark_append (s : Store) (ids ids' : List Nat) (now : Int) :
    (s.markMeteringEntriesRated ids now).markMeteringEntriesRated ids' now =
      s.markMeteringEntriesRated (ids ++ ids') now := by
  unfold markMeteringEntriesRated
  congr 1
  apply Table.ext
  simp only [markTable,Table.update_rows,List.map_map]
  apply List.map_congr_left
  intro r _
  by_cases h : r.id ∈ ids <;> by_cases h' : r.id ∈ ids' <;> simp [markRow,h,h']

theorem mark_nil (s : Store) (now : Int) : s.markMeteringEntriesRated [] now = s := by
  unfold markMeteringEntriesRated
  congr 1
  apply Table.ext
  rw [markTable,Table.update_rows]
  exact (List.map_congr_left (fun r _ => by simp [markRow])).trans (List.map_id _)

@[simp] theorem queue_addCosts (s : Store) (es : List CostEntry) : (s.addCosts es).queue = s.queue :=
  rfl

end CostConsumer.Inventory.Store

namespace CostConsumer.Rating
open Inventory Foundation

theorem unratedCount_eq (s : Store) : unratedCount s = s.queue.length := by
  simp [unratedCount,Store.queue,List.countP_eq_length_filter]

structure SamePricing (s t : Store) : Prop where
  entries : s.entries = t.entries
  computeInstances : s.computeInstances = t.computeInstances
  tenants : s.tenants = t.tenants

theorem meteringSumBefore_congr {s t : Store} (h : s.entries = t.entries) :
    s.meteringSumBefore = t.meteringSumBefore := by
  unfold Store.meteringSumBefore
  rw [h]

theorem charge_congr {s t : Store} (h : SamePricing s t) (p : Plan) : p.charge s = p.charge t := by
  have hr : ∀ f me, p.rule s f me = p.rule t f me := by
    intro f me
    simp only [Plan.rule,tryRuleEngine,ruleResult,Store.getComputeInstance,Store.tenantTier,
      h.computeInstances,h.tenants]
  have hc : rateCost s = rateCost t := by
    unfold rateCost priorUsage
    rw [meteringSumBefore_congr h.entries]
  unfold Plan.charge
  rw [hc]
  funext f cache me
  rw [hr]

theorem rateBatch_congr {s t : Store} (h : SamePricing s t) (p : Plan) :
    p.rateBatch s = p.rateBatch t := by
  unfold Plan.rateBatch Plan.rateEntry
  rw [charge_congr h]

namespace Plan

variable (p : Plan) (s : Store) (f : Faults)

theorem charge_id {cache : PriorUsage} {me : MeteringEntry} {ce : CostEntry}
    (h : (p.charge s f cache me).1 = some ce) : ce.meteringEntryID = me.id := by
  unfold charge at h
  cases hr : p.rule s f me with
  | some c =>
    simp only [hr,Option.some.injEq] at h
    subst h
    unfold rule tryRuleEngine at hr
    cases ho : ruleResult p.rules s f me with
    | none => simp [ho] at hr
    | some o =>
      simp only [ho,Option.map_some,Option.some.injEq] at hr
      rw [← hr]
      rfl
  | none =>
    cases hm : p.rate me with
    | none => simp [hr,hm] at h
    | some rate =>
      simp only [hr,hm,Option.some.injEq] at h
      rw [← h]
      rfl

theorem foldl_ratedIDs (b : Batch) (entries : List MeteringEntry) :
    (entries.foldl (p.rateEntry s f) b).ratedIDs = b.ratedIDs ++ entries.map (·.id) := by
  induction entries generalizing b with
  | nil => simp
  | cons me entries ih => simp [ih,rateEntry]

theorem foldl_costEntries (b : Batch) (entries : List MeteringEntry) :
    ∃ new, (entries.foldl (p.rateEntry s f) b).costEntries = b.costEntries ++ new ∧
      new.length ≤ entries.length ∧ ∀ c ∈ new, c.meteringEntryID ∈ entries.map (·.id) := by
  induction entries generalizing b with
  | nil => exact ⟨[],by simp⟩
  | cons me entries ih =>
    obtain ⟨new,hn,hl,hm⟩ := ih (p.rateEntry s f b me)
    refine ⟨(p.charge s f b.priorUsageCache me).1.toList ++ new,?_,?_,?_⟩
    · rw [List.foldl_cons,hn]
      simp [rateEntry]
    · have h1 : (p.charge s f b.priorUsageCache me).1.toList.length ≤ 1 := by
        cases (p.charge s f b.priorUsageCache me).1 <;> simp
      simp only [List.length_append,List.length_cons]
      omega
    · intro c hc
      rcases List.mem_append.mp hc with hc | hc
      · rw [p.charge_id s f (Option.mem_toList.mp hc)]
        exact List.mem_cons_self
      · exact List.mem_cons_of_mem _ (hm c hc)

theorem foldl_costEntries_at {b : Batch} {pre post : List MeteringEntry} {me : MeteringEntry}
    (hn : ((pre ++ me :: post).map (·.id)).Nodup)
    (hb : ∀ c ∈ b.costEntries, c.meteringEntryID ≠ me.id) :
    ((pre ++ me :: post).foldl (p.rateEntry s f) b).costEntries.filter
        (fun c => c.meteringEntryID = me.id) =
      (p.charge s f (pre.foldl (p.rateEntry s f) b).priorUsageCache me).1.toList := by
  rw [List.map_append,List.map_cons,List.nodup_middle,List.nodup_cons,List.mem_append] at hn
  obtain ⟨hme,-⟩ := hn
  obtain ⟨new,hnew,-,hid⟩ := p.foldl_costEntries s f b pre
  obtain ⟨new',hnew',-,hid'⟩ := p.foldl_costEntries s f
    (p.rateEntry s f (pre.foldl (p.rateEntry s f) b) me) post
  rw [List.foldl_append,List.foldl_cons,hnew']
  simp only [rateEntry,hnew,List.filter_append]
  have h₁ : b.costEntries.filter (fun c => c.meteringEntryID = me.id) = [] := by
    simpa [List.filter_eq_nil_iff] using hb
  have h₂ : new.filter (fun c => c.meteringEntryID = me.id) = [] := by
    rw [List.filter_eq_nil_iff]
    intro c hc he
    exact hme (.inl (of_decide_eq_true he ▸ hid c hc))
  have h₃ : new'.filter (fun c => c.meteringEntryID = me.id) = [] := by
    rw [List.filter_eq_nil_iff]
    intro c hc he
    exact hme (.inr (of_decide_eq_true he ▸ hid' c hc))
  have h₄ : ∀ ce : Option CostEntry,
      ce = (p.charge s f (pre.foldl (p.rateEntry s f) b).priorUsageCache me).1 →
      ce.toList.filter (fun c => c.meteringEntryID = me.id) = ce.toList := by
    intro ce hce
    rw [List.filter_eq_self]
    intro c hc
    exact decide_eq_true (p.charge_id s f (hce.symm.trans (Option.mem_toList.mp hc)))
  rw [h₁,h₂,h₃,h₄ _ rfl]
  simp

def batchCosts (queue : List MeteringEntry) : List CostEntry :=
  (chunks p.batch queue.length queue).flatMap (fun entries => (p.rateBatch s entries).costEntries)

theorem batchCosts_cons {queue : List MeteringEntry} (h : queue ≠ []) :
    p.batchCosts s queue =
      (p.rateBatch s (queue.take p.batch)).costEntries ++ p.batchCosts s (queue.drop p.batch) := by
  obtain ⟨n,hn⟩ := Nat.exists_eq_succ_of_ne_zero (List.length_pos_of_ne_nil h).ne'
  have hd : (queue.drop p.batch).length ≤ n := by
    have hp := p.batch_pos
    rw [List.length_drop]
    omega
  unfold batchCosts
  rw [hn,chunks_cons h,List.flatMap_cons,chunks_fuel p.batch_pos hd (Nat.le_refl _)]

theorem rateBatch_ratedIDs (entries : List MeteringEntry) :
    (p.rateBatch s entries).ratedIDs = entries.map (·.id) := by
  simp [rateBatch,foldl_ratedIDs]

theorem rateBatch_length (entries : List MeteringEntry) :
    (p.rateBatch s entries).costEntries.length ≤ entries.length := by
  obtain ⟨new,hn,hl,-⟩ := p.foldl_costEntries s {} {} entries
  rw [rateBatch,hn]
  simpa using hl

theorem drain_eq {p : Plan} {now : Int} {s₀ : Store} (hb : 13*p.batch ≤ 65535) {fuel : Nat}
    {s : Store} (hs : SamePricing s s₀) (hf : s.queue.length < fuel)
    (hfit : ∀ c ∈ p.batchCosts s₀ s.queue, Store.costFits c) :
    p.drain now fuel s =
      (s.markMeteringEntriesRated (s.queue.map (·.id)) now).addCosts (p.batchCosts s₀ s.queue) := by
  induction fuel generalizing s with
  | zero => omega
  | succ fuel ih =>
    unfold drain
    by_cases hq : s.queue = []
    · simp [Store.unratedMeteringEntries_eq,hq,batchCosts,chunks,Store.mark_nil,Store.addCosts]
    have hne : s.queue.take p.batch ≠ [] := by
      simp [List.take_eq_nil_iff,hq,p.batch_pos.ne']
    rw [batchCosts_cons p s₀ hq] at hfit ⊢
    have hins : s.insertCostEntryBatch (p.rateBatch s₀ (s.queue.take p.batch)).costEntries =
        .ok (s.addCosts (p.rateBatch s₀ (s.queue.take p.batch)).costEntries) := by
      apply Store.insertCostEntryBatch_of_fits
      · have h₁ := p.rateBatch_length s₀ (s.queue.take p.batch)
        have h₂ := List.length_take_le p.batch s.queue
        omega
      · intro c hc
        exact hfit c (List.mem_append_left _ hc)
    simp only [Store.unratedMeteringEntries_eq,hne,if_false,rateBatch_congr hs,rateBatch_ratedIDs,hins]
    have hmark : s.queue.map (·.id) =
        (s.queue.take p.batch).map (·.id) ++ (s.queue.drop p.batch).map (·.id) := by
      rw [← List.map_append,List.take_append_drop]
    split
    · -- a short batch is the whole queue
      rename_i hshort
      rw [hmark,drop_of_short hshort]
      simp [batchCosts,chunks]
      rfl
    · have hq' := Store.queue_mark_take s p.batch now
      generalize hids : (s.queue.take p.batch).map (·.id) = ids at *
      generalize (p.rateBatch s₀ (s.queue.take p.batch)).costEntries = costs at *
      have hqueue : ((s.addCosts costs).markMeteringEntriesRated ids now).queue =
          s.queue.drop p.batch := hq'
      rw [ih]
      · rw [hqueue,hmark,← Store.mark_append]
        simp only [Store.addCosts,Store.markMeteringEntriesRated,List.append_assoc]
      · exact ⟨(Store.entries_mark _ _ _).trans hs.entries,hs.computeInstances,hs.tenants⟩
      · rw [hqueue,List.length_drop]
        have hp := p.batch_pos
        have hl := List.length_pos_of_ne_nil hq
        omega
      · intro c hc
        rw [hqueue] at hc
        exact hfit c (List.mem_append_right _ hc)

theorem exists_chunk {queue : List MeteringEntry} {me : MeteringEntry} (h : me ∈ queue) :
    ∃ before pre post after,
      chunks p.batch queue.length queue = before ++ (pre ++ me :: post) :: after := by
  rw [← chunks_flatten p.batch_pos (Nat.le_refl queue.length)] at h
  obtain ⟨c,hc,hme⟩ := List.mem_flatten.mp h
  obtain ⟨before,after,ha⟩ := List.append_of_mem hc
  obtain ⟨pre,post,rfl⟩ := List.append_of_mem hme
  exact ⟨before,pre,post,after,ha⟩

theorem flatMap_costEntries_id {cs : List (List MeteringEntry)} {c : CostEntry}
    (h : c ∈ cs.flatMap (fun entries => (p.rateBatch s entries).costEntries)) :
    c.meteringEntryID ∈ cs.flatten.map (·.id) := by
  obtain ⟨entries,he,hc⟩ := List.mem_flatMap.mp h
  obtain ⟨new,hn,-,hid⟩ := p.foldl_costEntries s {} {} entries
  rw [rateBatch,hn,List.nil_append] at hc
  obtain ⟨me,hme,hi⟩ := List.mem_map.mp (hid c hc)
  exact List.mem_map.mpr ⟨me,List.mem_flatten.mpr ⟨entries,he,hme⟩,hi⟩

/-- The cost entries of one entry of the queue: what it is charged after the
entries before it in its batch. -/
theorem batchCosts_at {queue : List MeteringEntry} (hn : (queue.map (·.id)).Nodup)
    {before after : List (List MeteringEntry)} {pre post : List MeteringEntry} {me : MeteringEntry}
    (h : chunks p.batch queue.length queue = before ++ (pre ++ me :: post) :: after) :
    (p.batchCosts s queue).filter (fun c => c.meteringEntryID = me.id) =
      (p.charge s {} (p.rateBatch s pre).priorUsageCache me).1.toList := by
  have hq := chunks_flatten p.batch_pos (Nat.le_refl queue.length)
  rw [h,List.flatten_append,List.flatten_cons] at hq
  rw [← hq,List.map_append,List.map_append] at hn
  have hmid := (List.nodup_append.mp (List.nodup_append.mp hn).2.1).1
  have hmem : me.id ∈ (pre ++ me :: post).map (·.id) := by simp
  -- no other batch holds an entry with this id
  have h₁ : (before.flatMap (fun entries => (p.rateBatch s entries).costEntries)).filter
      (fun c => c.meteringEntryID = me.id) = [] := by
    rw [List.filter_eq_nil_iff]
    intro c hc he
    exact (List.nodup_append.mp hn).2.2 _ (p.flatMap_costEntries_id s hc) _
      (List.mem_append_left _ hmem) (of_decide_eq_true he)
  have h₂ : (after.flatMap (fun entries => (p.rateBatch s entries).costEntries)).filter
      (fun c => c.meteringEntryID = me.id) = [] := by
    rw [List.filter_eq_nil_iff]
    intro c hc he
    exact (List.nodup_append.mp (List.nodup_append.mp hn).2.1).2.2 _ hmem _
      (p.flatMap_costEntries_id s hc) (of_decide_eq_true he).symm
  rw [batchCosts,h,List.flatMap_append,List.flatMap_cons,List.filter_append,List.filter_append,h₁,h₂,
    List.nil_append,List.append_nil]
  exact p.foldl_costEntries_at s {} hmid (by simp)

end Plan

theorem Rater.sweep_eq {r : Rater} {now : Int} {s : Store} (hb : 13*r.batch ≤ 65535)
    (hfit : ∀ c ∈ (r.plan now s).batchCosts s s.queue, Store.costFits c) :
    r.sweep now s = (s.markMeteringEntriesRated (s.queue.map (·.id)) now).addCosts
      ((r.plan now s).batchCosts s s.queue) := by
  unfold sweep
  exact Plan.drain_eq hb ⟨rfl,rfl,rfl⟩ (by rw [unratedCount_eq]; omega) hfit

end CostConsumer.Rating
