import CostConsumer.Foundation.Aggregate
import CostConsumer.Rating.Drain
import Mathlib.Data.List.Induction
import Mathlib.Tactic.Ring
set_option autoImplicit false

namespace CostConsumer.Rating
open Inventory Foundation

/-- What an unrated entry gains: the rule result's cost under rate id 0, or the
cost of the rate that is selected for it, or nothing. -/
def Plan.Gains (p : Plan) (s : Store) (me : MeteringEntry) (new : List CostEntry) : Prop :=
  match ruleResult p.rules s {} me, p.rate me with
  | some output, _ => new = [costEntry me 0 output.costAmount output.currency]
  | none, some rate => ∃ cost, new = [costEntry me rate.id cost rate.currency] ∧
      (rate.tiers = [] ∨ rate.tierMode ≠ "cumulative" → cost = applyRate me.value rate)
  | none, none => new = []

theorem Plan.charge_gains (p : Plan) (s : Store) (cache : PriorUsage) (me : MeteringEntry) :
    p.Gains s me (p.charge s {} cache me).1.toList := by
  unfold Gains charge rule tryRuleEngine
  cases hr : ruleResult p.rules s {} me with
  | some output => simp
  | none =>
    cases hm : p.rate me with
    | none => simp
    | some rate =>
      refine ⟨(rateCost s {} cache me rate).1,by simp,?_⟩
      intro hflat
      have hw : cumulativeWindow rate me = none := by
        unfold cumulativeWindow
        rw [if_neg (by tauto)]
      simp [rateCost,hw]

theorem mark_queue_rows (s : Store) (now : Int) :
    (s.markMeteringEntriesRated (s.queue.map (·.id)) now).meteringEntries.rows =
      s.meteringEntries.rows.map
        (fun row => if row.ratedAt.isNone then { row with ratedAt := some now } else row) := by
  simp only [Store.markMeteringEntriesRated,Store.markTable,Table.update_rows]
  apply List.map_congr_left
  intro row hrow
  have hmem : row.id ∈ s.queue.map (·.id) ↔ row.ratedAt.isNone = true := by
    simp only [Store.queue,List.map_map,List.mem_map,List.mem_filter,Function.comp_apply]
    constructor
    · rintro ⟨row',⟨hrow',hn⟩,hid⟩
      rw [← Table.key_injective hrow' hrow hid]
      exact hn
    · intro hn
      exact ⟨row,⟨hrow,hn⟩,rfl⟩
  simp only [Store.markRow,hmem]

theorem mem_queue_iff (s : Store) (me : MeteringEntry) :
    me ∈ s.queue ↔ ∃ row ∈ s.meteringEntries.rows, row.ratedAt = none ∧ row.toMeteringEntry = me := by
  simp only [Store.queue,List.mem_map,List.mem_filter,Option.isNone_iff_eq_none,and_assoc]

/-- One sweep rates the whole visible backlog, and nothing but the backlog. -/
theorem sweep_rates_backlog (r : Rater) (now : Int) (s : Store) (hb : 13*r.batch ≤ 65535)
    (hfit : ∀ c ∈ (r.plan now s).batchCosts s s.queue, Store.costFits c) :
    (r.sweep now s).queue = [] ∧
    (∃ new, (r.sweep now s).costEntries = s.costEntries ++ new ∧
      (∀ row ∈ s.meteringEntries.rows, row.ratedAt = none →
        (r.plan now s).Gains s row.toMeteringEntry
          (new.filter (fun c => c.meteringEntryID = row.id))) ∧
      ∀ c ∈ new, ∃ row ∈ s.meteringEntries.rows, row.ratedAt = none ∧
        c.meteringEntryID = row.id) ∧
    (r.sweep now s).meteringEntries.rows = s.meteringEntries.rows.map
      (fun row => if row.ratedAt.isNone then { row with ratedAt := some now } else row) ∧
    (r.sweep now s).rates = s.rates ∧ (r.sweep now s).tenants = s.tenants ∧
    (r.sweep now s).computeInstances = s.computeInstances := by
  have hs := Rater.sweep_eq hb hfit
  have hrows := mark_queue_rows s now
  refine ⟨?_,⟨(r.plan now s).batchCosts s s.queue,?_,?_,?_⟩,?_,?_,?_,?_⟩
  · rw [hs,Store.queue_addCosts,Store.queue_mark,List.filter_eq_nil_iff]
    intro me hme
    simpa using ⟨me,hme,rfl⟩
  · rw [hs]; rfl
  · intro row hrow hnone
    obtain ⟨before,pre,post,after,hc⟩ := (r.plan now s).exists_chunk
      ((mem_queue_iff s row.toMeteringEntry).mpr ⟨row,hrow,hnone,rfl⟩)
    rw [Plan.batchCosts_at _ _ s.queue_nodup hc]
    exact Plan.charge_gains _ _ _ _
  · intro c hc
    have hid := Plan.flatMap_costEntries_id _ _ hc
    rw [chunks_flatten (r.plan now s).batch_pos (Nat.le_refl _)] at hid
    obtain ⟨me,hme,hi⟩ := List.mem_map.mp hid
    obtain ⟨row,hrow,hnone,rfl⟩ := (mem_queue_iff s me).mp hme
    exact ⟨row,hrow,hnone,hi.symm⟩
  · rw [hs]; exact hrows
  all_goals rw [hs]; rfl

def freeTier : RateRecord where
  id := 7
  tenantID := none
  resourceType := "model"
  instanceType := ""
  meterName := "maas_tokens_in"
  kokuMetric := ""
  costType := "Supplementary"
  pricePerUnit := 0
  currency := "USD"
  tiers := [⟨some 100,0⟩,⟨none,1⟩]
  tierMode := "cumulative"
  tierPeriod := "monthly"
  description := ""
  effectiveFrom := 0
  effectiveTo := none

def tokens (id : Nat) (value : Rat) (periodStart periodEnd : Int) : MeteringEntry where
  id := id
  rawEventID := none
  resourceType := "model"
  resourceID := "m"
  tenantID := "t"
  projectID := "p"
  userID := "u"
  instanceType := ""
  meterName := "maas_tokens_in"
  value := value
  unit := "tokens"
  periodStart := periodStart
  periodEnd := periodEnd

def february : Int := GoTime.date 2026 2 1
def hours (n : Int) : Int := n*GoTime.nanosPerHour

/-- Two unrated entries, the first across the start of February. -/
def crossing : Store where
  meteringEntries := ⟨[⟨tokens 1 100 (february - hours 1) (february + hours 1),none⟩,
    ⟨tokens 2 100 (february + hours 1) (february + hours 2),none⟩],by decide⟩
  rates := [freeTier]

theorem sweep_rates_crossing :
    crossing.queue.length = 2 ∧ ((⟨2,by decide,none⟩ : Rater).sweep february crossing).queue = [] :=
  ⟨by decide,(sweep_rates_backlog ⟨2,by decide,none⟩ february crossing (by decide)
    (by decide +kernel)).1⟩

/-- The usage the database reports for the window before an entry. -/
def storedPrior (s : Store) (me : MeteringEntry) (w : Int × Int) : Rat :=
  s.meteringSumBefore me.tenantID me.meterName w.1 w.2 me.id

/-- The entries that usage counts for. -/
def counts (me : MeteringEntry) (w : Int × Int) (e : MeteringEntry) : Bool :=
  e.tenantID = me.tenantID && e.meterName = me.meterName && inPeriod w.1 w.2 e.periodStart e.periodEnd &&
    e.id < me.id

theorem storedPrior_eq (s : Store) (me : MeteringEntry) (w : Int × Int) :
    storedPrior s me w = Store.sumValues (s.entries.filter (counts me w)) := rfl

theorem queue_sublist (s : Store) : s.queue.Sublist s.entries := List.filter_sublist.map _

theorem entries_ids (s : Store) : (s.entries.map (·.id)).Pairwise (· < ·) := by
  rw [Store.entries,List.map_map]
  exact List.pairwise_map.mpr s.meteringEntries.sorted

/-- A part of the entries selects itself. -/
theorem sumValues_of_sublist {s : Store} {l : List MeteringEntry} (h : l.Sublist s.entries) :
    Store.sumValues l = Store.sumValues (s.entries.filter (· ∈ l)) := by
  have hnodup : s.entries.Nodup := List.Nodup.of_map _ ((entries_ids s).imp Nat.ne_of_lt)
  have hperm : l.Perm (s.entries.filter (· ∈ l)) := by
    rw [List.perm_ext_iff_of_nodup (hnodup.sublist h) (hnodup.filter _)]
    intro e
    rw [List.mem_filter,decide_eq_true_eq]
    exact ⟨fun he => ⟨h.subset he,he⟩,And.right⟩
  exact (hperm.map _).sum_eq

theorem priorUsage_empty (s : Store) (me : MeteringEntry) (rate : RateRecord) (w : Int × Int) :
    priorUsage s {} (fun _ => none) me rate w = storedPrior s me w := rfl

namespace Plan

variable (p : Plan) (s : Store)

def sharesKey (k : AccumKey) (me : MeteringEntry) : Bool :=
  match p.window s {} me with
  | some (rate,_) => accumKey me rate = k
  | none => false

/-- The usage cached under a key: what the database reported for the first entry
of the key, and the values of all entries of the key since. -/
def cachedUsage : List MeteringEntry → Option Rat
  | [] => none
  | first :: rest =>
    match p.window s {} first with
    | some (_,w) => some (storedPrior s first w + Store.sumValues (first :: rest))
    | none => none

/-- The usage an entry is priced after when `pre` comes before it in its batch. -/
def batchPrior (pre : List MeteringEntry) (me : MeteringEntry) (rate : RateRecord)
    (w : Int × Int) : Rat :=
  (p.cachedUsage s (pre.filter (p.sharesKey s (accumKey me rate)))).getD (storedPrior s me w)

/-- What the cache counts before an entry: what the database does before the first entry
of the key, and the entries of the key since. -/
def cacheCounts (first : MeteringEntry) (rest : List MeteringEntry) (w : Int × Int) (e : MeteringEntry) :
    Bool :=
  counts first w e || decide (e ∈ first :: rest)

/-- The values of the entries that only the cache counts before an entry, which have the key
and are not within its window, less those that only the database counts, which are within
the window and were rated before or are not priced by a cumulative rate. -/
def drift (pre : List MeteringEntry) (me : MeteringEntry) (rate : RateRecord) (w : Int × Int) : Rat :=
  match pre.filter (p.sharesKey s (accumKey me rate)) with
  | [] => 0
  | first :: rest =>
    match p.window s {} first with
    | none => 0
    | some (_,w') =>
      Store.sumValues (s.entries.filter fun e => cacheCounts first rest w' e && !counts me w e) -
        Store.sumValues (s.entries.filter fun e => counts me w e && !cacheCounts first rest w' e)

theorem rateBatch_concat (pre : List MeteringEntry) (me : MeteringEntry) :
    p.rateBatch s (pre ++ [me]) = p.rateEntry s {} (p.rateBatch s pre) me := by
  simp [rateBatch]

theorem sharesKey_window {k : AccumKey} {me : MeteringEntry} (h : p.sharesKey s k me = true) :
    ∃ rate w, p.window s {} me = some (rate,w) ∧ accumKey me rate = k := by
  unfold sharesKey at h
  cases hw : p.window s {} me with
  | none => simp [hw] at h
  | some rw =>
    obtain ⟨rate,w⟩ := rw
    simp only [hw,decide_eq_true_eq] at h
    exact ⟨rate,w,rfl,h⟩

theorem priorUsageCache_eq (pre : List MeteringEntry) (k : AccumKey) :
    (p.rateBatch s pre).priorUsageCache k = p.cachedUsage s (pre.filter (p.sharesKey s k)) := by
  induction pre using List.reverseRecOn with
  | nil => rfl
  | append_singleton pre me ih =>
    rw [rateBatch_concat,List.filter_append]
    simp only [rateEntry]
    cases hw : p.window s {} me with
    | none =>
      have hk : p.sharesKey s k me = false := by simp [sharesKey,hw]
      rw [(charge_of_not_window hw _ (fun _ => none)).2,ih]
      simp [hk]
    | some rw =>
      obtain ⟨rate,w⟩ := rw
      simp only [charge_of_window hw]
      by_cases hk : accumKey me rate = k
      · have hs : p.sharesKey s k me = true := by simp [sharesKey,hw,hk]
        subst hk
        rw [Function.update_self]
        simp only [List.filter_cons,hs,if_true,List.filter_nil,priorUsage,ih]
        cases hf : pre.filter (p.sharesKey s (accumKey me rate)) with
        | nil => simp [cachedUsage,hw,storedPrior,Store.sumValues]
        | cons first rest =>
          have hfirst : p.sharesKey s (accumKey me rate) first = true :=
            List.of_mem_filter (hf ▸ List.mem_cons_self)
          obtain ⟨rate',w',hw',-⟩ := p.sharesKey_window s hfirst
          simp [cachedUsage,hw',Store.sumValues]
          ring
      · have hs : p.sharesKey s k me = false := by simp [sharesKey,hw,hk]
        rw [Function.update_of_ne (Ne.symm hk),ih]
        simp [hs]

theorem sumValues_cacheCounts {first : MeteringEntry} {rest : List MeteringEntry} (w : Int × Int)
    (h : (first :: rest).Sublist s.entries) :
    Store.sumValues (s.entries.filter (cacheCounts first rest w)) =
      storedPrior s first w + Store.sumValues (first :: rest) := by
  have hids : ((first :: rest).map (·.id)).Pairwise (· < ·) := (entries_ids s).sublist (h.map _)
  have hfirst : ∀ e ∈ first :: rest, first.id ≤ e.id := by
    intro e he
    rcases List.mem_cons.mp he with rfl | he
    · exact Nat.le_refl _
    · exact Nat.le_of_lt ((List.pairwise_cons.mp hids).1 _ (List.mem_map_of_mem he))
  have hmates : ∀ e, decide (e ∈ first :: rest) = (cacheCounts first rest w e && !counts first w e) := by
    intro e
    by_cases he : e ∈ first :: rest
    · have hno : counts first w e = false := by
        simp [counts,Nat.not_lt_of_le (hfirst e he)]
      simp [cacheCounts,he,hno]
    · simp [cacheCounts,he]
  have hsplit := sum_selection_sub (·.value) (cacheCounts first rest w) (counts first w) s.entries
  have hnone : (s.entries.filter fun e => counts first w e && !cacheCounts first rest w e) = [] := by
    rw [List.filter_eq_nil_iff]
    intro e _
    cases hc : counts first w e <;> simp [cacheCounts,hc]
  rw [hnone,List.map_nil,List.sum_nil,sub_zero] at hsplit
  rw [sumValues_of_sublist h,storedPrior_eq,Store.sumValues,hsplit,Store.sumValues,Store.sumValues,
    List.filter_congr fun e _ => hmates e]

/-- The usage a batch counts is that of the database, moved by the drift. -/
theorem batchPrior_eq {pre : List MeteringEntry} (hpre : pre.Sublist s.queue) (me : MeteringEntry)
    (rate : RateRecord) (w : Int × Int) :
    p.batchPrior s pre me rate w = storedPrior s me w + p.drift s pre me rate w := by
  unfold batchPrior drift
  cases hf : pre.filter (p.sharesKey s (accumKey me rate)) with
  | nil => simp [cachedUsage]
  | cons first rest =>
    have hkey : p.sharesKey s (accumKey me rate) first = true :=
      List.of_mem_filter (hf ▸ List.mem_cons_self)
    obtain ⟨rate',w',hw',-⟩ := p.sharesKey_window s hkey
    have hsub : (first :: rest).Sublist s.entries :=
      hf ▸ (List.filter_sublist.trans hpre).trans (queue_sublist s)
    simp only [cachedUsage,hw',Option.getD_some]
    rw [← sumValues_cacheCounts s w' hsub,storedPrior_eq]
    exact sum_selection_sub (·.value) _ _ s.entries

theorem priorUsage_batch (pre : List MeteringEntry) (me : MeteringEntry) (rate : RateRecord)
    (w : Int × Int) :
    priorUsage s {} (p.rateBatch s pre).priorUsageCache me rate w = p.batchPrior s pre me rate w := by
  unfold priorUsage batchPrior
  rw [priorUsageCache_eq]
  cases p.cachedUsage s (pre.filter (p.sharesKey s (accumKey me rate))) with
  | none => rfl
  | some prior => rfl

end Plan

def costAmounts (s : Store) (id : Nat) : List Rat :=
  (s.costEntries.filter (fun c => c.meteringEntryID = id)).map (·.costAmount)

theorem sweep_costAmounts {r : Rater} {now : Int} {s : Store} (hb : 13*r.batch ≤ 65535)
    (hfit : ∀ c ∈ (r.plan now s).batchCosts s s.queue, Store.costFits c)
    {before after : List (List MeteringEntry)} {pre post : List MeteringEntry} {me : MeteringEntry}
    (h : chunks r.batch s.queue.length s.queue = before ++ (pre ++ me :: post) :: after) :
    costAmounts (r.sweep now s) me.id = costAmounts s me.id ++
      ((r.plan now s).charge s {} ((r.plan now s).rateBatch s pre).priorUsageCache me).1.toList.map
        (·.costAmount) := by
  rw [Rater.sweep_eq hb hfit]
  simp only [costAmounts,Store.addCosts,Store.markMeteringEntriesRated,List.filter_append,
    List.map_append]
  rw [Plan.batchCosts_at _ _ s.queue_nodup h]

theorem sweep_costAmounts_of_rated {r : Rater} {now : Int} {s : Store} (hb : 13*r.batch ≤ 65535)
    (hfit : ∀ c ∈ (r.plan now s).batchCosts s s.queue, Store.costFits c) {id : Nat}
    (h : id ∉ s.queue.map (·.id)) : costAmounts (r.sweep now s) id = costAmounts s id := by
  rw [Rater.sweep_eq hb hfit]
  simp only [costAmounts,Store.addCosts,Store.markMeteringEntriesRated,List.filter_append,
    List.map_append]
  have hnew : ((r.plan now s).batchCosts s s.queue).filter
      (fun c => c.meteringEntryID = id) = [] := by
    rw [List.filter_eq_nil_iff]
    intro c hc he
    have hid := Plan.flatMap_costEntries_id _ _ hc
    rw [chunks_flatten (r.plan now s).batch_pos (Nat.le_refl _)] at hid
    exact h (of_decide_eq_true he ▸ hid)
  rw [hnew,List.map_nil,List.append_nil]

/-- The cost entry of an entry when `pre` comes before it in its batch. -/
def Plan.placed (p : Plan) (s : Store) (pre : List MeteringEntry) (me : MeteringEntry) : Option CostEntry :=
  match p.window s {} me with
  | none => (p.charge s {} (fun _ => none) me).1
  | some (rate,w) => some (costEntry me rate.id
      (applyRateCumulative me.value (p.batchPrior s pre me rate w) rate) rate.currency)

theorem Plan.charge_placed (p : Plan) (s : Store) (pre : List MeteringEntry) (me : MeteringEntry) :
    (p.charge s {} (p.rateBatch s pre).priorUsageCache me).1 = p.placed s pre me := by
  unfold placed
  cases hw : p.window s {} me with
  | none => exact (Plan.charge_of_not_window hw _ _).1
  | some rw =>
    obtain ⟨rate,w⟩ := rw
    rw [Plan.charge_of_window hw,Plan.priorUsage_batch]

/-- The entries before position `i` in its batch. -/
def Plan.before (p : Plan) (s : Store) (i : Nat) : List MeteringEntry :=
  (s.queue.take i).drop (p.batch*(i/p.batch))

theorem Plan.before_sublist (p : Plan) (s : Store) (i : Nat) : (p.before s i).Sublist s.queue :=
  (List.drop_sublist _ _).trans (List.take_sublist _ _)

/-- An entry costs in its place what it costs by itself if and only if the drift does not
change its charge. -/
theorem Plan.placed_amount_iff (p : Plan) (s : Store) (i : Nat) (me : MeteringEntry) :
    (p.placed s (p.before s i) me).toList.map (·.costAmount) =
      (p.charge s {} (fun _ => none) me).1.toList.map (·.costAmount) ↔
    ∀ rate w, p.window s {} me = some (rate,w) →
      applyRateCumulative me.value (storedPrior s me w + p.drift s (p.before s i) me rate w) rate =
        applyRateCumulative me.value (storedPrior s me w) rate := by
  unfold placed
  cases hw : p.window s {} me with
  | none => simp
  | some rw =>
    obtain ⟨rate,w⟩ := rw
    simp only [charge_of_window hw,priorUsage_empty,costEntry,Option.toList_some,List.map_cons,
      List.map_nil,List.cons.injEq,and_true,Option.some.injEq,Prod.mk.injEq,
      p.batchPrior_eq s (p.before_sublist s i)]
    constructor
    · rintro h _ _ ⟨rfl,rfl⟩
      exact h
    · exact fun h => h rate w ⟨rfl,rfl⟩

theorem sweep_costAmounts_at {r : Rater} {now : Int} {s : Store} (hb : 13*r.batch ≤ 65535)
    (hfit : ∀ c ∈ (r.plan now s).batchCosts s s.queue, Store.costFits c) {i : Nat} {me : MeteringEntry}
    (h : s.queue[i]? = some me) :
    costAmounts (r.sweep now s) me.id = costAmounts s me.id ++
      ((r.plan now s).placed s ((r.plan now s).before s i) me).toList.map (·.costAmount) := by
  obtain ⟨before,post,after,hc⟩ := chunks_around r.batch_pos (Nat.le_refl s.queue.length) h
  rw [sweep_costAmounts hb hfit hc,Plan.charge_placed]
  rfl

theorem sweep_costAmounts_single {rules : Option RuleEngine} {now : Int} {s : Store}
    (hfit : ∀ c ∈ ((⟨1,by decide,rules⟩ : Rater).plan now s).batchCosts s s.queue, Store.costFits c)
    {i : Nat} {me : MeteringEntry} (h : s.queue[i]? = some me) :
    costAmounts ((⟨1,by decide,rules⟩ : Rater).sweep now s) me.id = costAmounts s me.id ++
      (((⟨1,by decide,rules⟩ : Rater).plan now s).charge s {} (fun _ => none) me).1.toList.map
        (·.costAmount) := by
  have hbefore : ((⟨1,by decide,rules⟩ : Rater).plan now s).before s i = [] := by
    rw [Plan.before,show ((⟨1,by decide,rules⟩ : Rater).plan now s).batch = 1 from rfl,Nat.one_mul,Nat.div_one]
    exact List.drop_eq_nil_of_le (List.length_take_le i _)
  rw [sweep_costAmounts_at (show 13*1 ≤ 65535 by decide) hfit h,hbefore,← Plan.charge_placed]
  rfl

/-- Three entries within February, of which the first is rated. -/
def within : Store where
  meteringEntries := ⟨[⟨tokens 1 30 february (february + hours 1),some february⟩,
    ⟨tokens 2 60 (february + hours 1) (february + hours 2),none⟩,
    ⟨tokens 3 60 (february + hours 2) (february + hours 3),none⟩],by decide⟩
  rates := [freeTier]

theorem within_fits (b : Nat) (hb : 0 < b) :
    ∀ c ∈ ((⟨b,hb,none⟩ : Rater).plan february within).batchCosts within within.queue,
      Store.costFits c := by
  by_cases h1 : b = 1
  · subst h1
    change ∀ c ∈ ((⟨1,Nat.one_pos,none⟩ : Rater).plan february within).batchCosts within
      within.queue, Store.costFits c
    decide +kernel
  · have hc : chunks b 2 within.queue = [within.queue] :=
      chunks_short (by decide) (show 2 ≤ b by omega)
    change ∀ c ∈ (chunks b 2 within.queue).flatMap _, Store.costFits c
    rw [hc]
    change ∀ c ∈ [within.queue].flatMap (fun entries =>
      (((⟨2,by decide,none⟩ : Rater).plan february within).rateBatch within entries).costEntries),
      Store.costFits c
    decide +kernel

/-- The second unrated entry of February is priced after the first, in whichever batch. -/
theorem within_drift (b : Nat) (hb : 0 < b) {i : Nat} {me : MeteringEntry}
    (h : within.queue[i]? = some me) {rate : RateRecord} {w : Int × Int}
    (hw : ((⟨b,hb,none⟩ : Rater).plan february within).window within {} me = some (rate,w)) :
    ((⟨b,hb,none⟩ : Rater).plan february within).drift within
      (((⟨b,hb,none⟩ : Rater).plan february within).before within i) me rate w = 0 := by
  have hi : i < 2 := (List.getElem?_eq_some_iff.mp h).1
  match i, hi with
  | 0, _ => simp [Plan.before,Plan.drift]
  | 1, _ =>
    obtain rfl : tokens 3 60 (february + hours 2) (february + hours 3) = me := Option.some.inj h
    have hw₂ : ((⟨2,by decide,none⟩ : Rater).plan february within).window within {}
        (tokens 3 60 (february + hours 2) (february + hours 3)) = some (rate,w) := hw
    obtain ⟨rfl,rfl⟩ : freeTier = rate ∧ (february,february + hours (24*28)) = w :=
      Prod.mk.inj (Option.some.inj (Eq.trans (by decide +kernel) hw₂))
    by_cases h1 : b = 1
    · subst h1
      simp [Plan.before,Plan.drift,Rater.plan]
    · have hbefore : ((⟨b,hb,none⟩ : Rater).plan february within).before within 1 = within.queue.take 1 := by
        have hdiv : 1/((⟨b,hb,none⟩ : Rater).plan february within).batch = 0 :=
          Nat.div_eq_of_lt (show 1 < b by omega)
        rw [Plan.before,hdiv,Nat.mul_zero,List.drop_zero]
      have hdrift : ((⟨b,hb,none⟩ : Rater).plan february within).drift within =
        ((⟨2,by decide,none⟩ : Rater).plan february within).drift within := rfl
      rw [hbefore,hdrift]
      decide +kernel

end CostConsumer.Rating
