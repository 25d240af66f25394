import CostConsumer.Billing.Windows
import CostConsumer.Rating.Ordered
import Mathlib.Algebra.Order.BigOperators.Group.List
import Mathlib.Order.CompletePartialOrder
set_option autoImplicit false

namespace CostConsumer.Rating
open Inventory Foundation Billing

/-- The usage of a window that the database's filter sees among some entries. -/
def usage (entries : List MeteringEntry) (tenantID meterName : String) (w : Int × Int) : Rat :=
  Store.sumValues (entries.filter (fun e => e.tenantID = tenantID && e.meterName = meterName &&
    inPeriod w.1 w.2 e.periodStart e.periodEnd))

theorem sumValues_append (l l' : List MeteringEntry) :
    Store.sumValues (l ++ l') = Store.sumValues l + Store.sumValues l' := by
  simp [Store.sumValues]

theorem usage_append (l l' : List MeteringEntry) (tenantID meterName : String) (w : Int × Int) :
    usage (l ++ l') tenantID meterName w = usage l tenantID meterName w +
      usage l' tenantID meterName w := by
  simp only [usage,List.filter_append,sumValues_append]

theorem usage_nonneg {l : List MeteringEntry} (h : ∀ e ∈ l, 0 ≤ e.value) (tenantID meterName : String)
    (w : Int × Int) : 0 ≤ usage l tenantID meterName w := by
  unfold usage Store.sumValues
  apply List.sum_nonneg
  intro v hv
  obtain ⟨e,he,rfl⟩ := List.mem_map.mp hv
  exact h e (List.mem_of_mem_filter he)

theorem meteringSumBefore_eq (s : Store) (tenantID meterName : String) (w : Int × Int) (id : Nat) :
    s.meteringSumBefore tenantID meterName w.1 w.2 id =
      usage (s.entries.filter (fun e => e.id < id)) tenantID meterName w := by
  unfold Store.meteringSumBefore usage
  rw [List.filter_filter]

namespace Charge

def key (c : Charge) : AccumKey := accumKey c.entry c.rate
def stop (c : Charge) : Rat := c.prior + c.entry.value
def usage (c : Charge) (entries : List MeteringEntry) : Rat :=
  Rating.usage entries c.entry.tenantID c.entry.meterName c.window

end Charge

/-- Charges in the order they were made, against the entries that are counted:
each interval ends within the usage counted so far, and starts where the earlier
ones of its key and window have ended. -/
structure SoldOnce (charges : List Charge) (entries : List MeteringEntry) : Prop where
  window : ∀ c ∈ charges, cumulativeWindow c.rate c.entry = some c.window
  bound : ∀ c ∈ charges, c.stop ≤ c.usage entries
  ordered : charges.Pairwise (fun c c' => c.key = c'.key → c.window = c'.window → c.stop ≤ c'.prior)

theorem SoldOnce.grow {charges : List Charge} {entries more : List MeteringEntry}
    (h : SoldOnce charges entries) (hm : ∀ e ∈ more, 0 ≤ e.value) :
    SoldOnce charges (entries ++ more) := by
  refine ⟨h.window,fun c hc => ?_,h.ordered⟩
  have hn := usage_nonneg hm c.entry.tenantID c.entry.meterName c.window
  have hb := h.bound c hc
  unfold Charge.usage at *
  rw [usage_append]
  linarith

theorem cumulativeWindow_ok {rate : RateRecord} {me : MeteringEntry} {w : Int × Int}
    (h : cumulativeWindow rate me = some w) :
    rate.tiers ≠ [] ∧ resolvePeriod (tierPeriod rate) me.periodEnd = .ok w := by
  unfold cumulativeWindow at h
  split at h
  · rename_i hc
    cases hr : resolvePeriod (tierPeriod rate) me.periodEnd with
    | error e => simp [hr,Except.toOption] at h
    | ok v =>
      simp only [hr,Except.toOption,Option.some.injEq] at h
      exact ⟨hc.1,by rw [h]⟩
  · cases h

theorem usage_singleton {rate : RateRecord} {me : MeteringEntry} {w : Int × Int}
    (hw : cumulativeWindow rate me = some w) (hs : w.1 ≤ me.periodStart) :
    usage [me] me.tenantID me.meterName w = me.value := by
  have he := (resolvePeriod_contains (cumulativeWindow_ok hw).2).2
  simp [usage,inPeriod,hs,he.le,Store.sumValues]

theorem SoldOnce.snoc {charges : List Charge} {entries : List MeteringEntry} {c : Charge}
    (h : SoldOnce charges entries) (hw : cumulativeWindow c.rate c.entry = some c.window)
    (hs : c.window.1 ≤ c.entry.periodStart) (hv : 0 ≤ c.entry.value)
    (hp : c.prior ≤ c.usage entries)
    (ho : ∀ c' ∈ charges, c'.key = c.key → c'.window = c.window → c'.stop ≤ c.prior) :
    SoldOnce (charges ++ [c]) (entries ++ [c.entry]) := by
  have hg : SoldOnce charges (entries ++ [c.entry]) := h.grow (by simpa using hv)
  refine ⟨?_,?_,?_⟩
  · intro c' hc
    rcases List.mem_append.mp hc with hc | hc
    · exact h.window c' hc
    · rw [List.mem_singleton.mp hc]; exact hw
  · intro c' hc
    rcases List.mem_append.mp hc with hc | hc
    · exact hg.bound c' hc
    · rw [List.mem_singleton.mp hc]
      unfold Charge.usage Charge.stop at *
      rw [usage_append,usage_singleton hw hs]
      linarith
  · refine List.pairwise_append.mpr ⟨h.ordered,by simp,?_⟩
    intro c' hc' d hd
    rw [List.mem_singleton.mp hd]
    exact ho c' hc'

/-- What the cache of a batch knows: under a key, the end of the last charge of
the batch, past all charges of that key and window. -/
def CacheSold (cache : PriorUsage) (charges mine : List Charge) : Prop :=
  ∀ k x, cache k = some x → ∃ c ∈ mine, c.key = k ∧ c.stop = x ∧
    ∀ c' ∈ charges, c'.key = k → c'.window = c.window → c'.stop ≤ x

/-- The usage a charge is priced after lies between the ends of the earlier
charges and the usage counted so far. -/
theorem prior_between {s : Store} {w : Work} {before : List Charge} {entries : List MeteringEntry}
    {f : Faults} {me : MeteringEntry} {rate : RateRecord} {win : Int × Int}
    (hs : SoldOnce (before ++ w.charges) entries)
    (hc : CacheSold w.batch.priorUsageCache (before ++ w.charges) w.charges)
    (hsum : s.meteringSumBefore me.tenantID me.meterName win.1 win.2 me.id =
      usage entries me.tenantID me.meterName win)
    (hf : f.meteringSum = false)
    (hwin : ∀ c ∈ w.charges, c.key = accumKey me rate → c.window = win) :
    priorUsage s f w.batch.priorUsageCache me rate win ≤
        usage entries me.tenantID me.meterName win ∧
      ∀ c ∈ before ++ w.charges, c.key = accumKey me rate → c.window = win →
        c.stop ≤ priorUsage s f w.batch.priorUsageCache me rate win := by
  unfold priorUsage
  cases hk : w.batch.priorUsageCache (accumKey me rate) with
  | some x =>
    obtain ⟨c,hcm,hck,hcx,hall⟩ := hc _ x hk
    have hcw := hwin c hcm hck
    have hb := hs.bound c (List.mem_append_right _ hcm)
    simp only [Charge.key,accumKey,AccumKey.mk.injEq] at hck
    unfold Charge.usage at hb
    rw [hck.1,hck.2.1,hcw,hcx] at hb
    refine ⟨hb,fun c' hc' hk' hw' => ?_⟩
    exact hall c' hc' hk' (hw'.trans hcw.symm)
  | none =>
    simp only [hf,Bool.false_eq_true,if_false,hsum]
    refine ⟨le_refl _,fun c hcm hck hcw => ?_⟩
    have hb := hs.bound c hcm
    simp only [Charge.key,accumKey,AccumKey.mk.injEq] at hck
    unfold Charge.usage at hb
    rwa [hck.1,hck.2.1,hcw] at hb

theorem CacheSold.snoc {cache : PriorUsage} {charges mine : List Charge} {c : Charge}
    (h : CacheSold cache charges mine) (hv : 0 ≤ c.entry.value)
    (ho : ∀ c' ∈ charges, c'.key = c.key → c'.window = c.window → c'.stop ≤ c.prior) :
    CacheSold (Function.update cache c.key (some c.stop)) (charges ++ [c]) (mine ++ [c]) := by
  intro k x hk
  by_cases hkc : k = c.key
  · subst hkc
    rw [Function.update_self,Option.some.injEq] at hk
    refine ⟨c,by simp,rfl,hk,fun c' hc' hk' hw' => ?_⟩
    rw [← hk]
    rcases List.mem_append.mp hc' with hc' | hc'
    · have hle := ho c' hc' hk' hw'
      unfold Charge.stop at *
      linarith
    · rw [List.mem_singleton.mp hc']
  · rw [Function.update_of_ne hkc] at hk
    obtain ⟨d,hd,hdk,hdx,hall⟩ := h k x hk
    refine ⟨d,List.mem_append_left _ hd,hdk,hdx,fun c' hc' hk' hw' => ?_⟩
    rcases List.mem_append.mp hc' with hc' | hc'
    · exact hall c' hc' hk' hw'
    · rw [List.mem_singleton.mp hc'] at hk'
      exact absurd hk'.symm hkc

/-- A step that keeps tier space sold once: rows become visible in id order with
values that are not negative, marks of charged entries take effect, and an entry
under a cumulative rate starts in its window, finds its prior usage, and shares
its cache key only with entries of its window. -/
def sellsInOrder (s : State) (l : Label) : Bool :=
  marksHold s l && inOrder s l &&
    match l, s.phase with
    | .commit id, _ => s.pending.all (fun row => row.id ≠ id || 0 ≤ row.value)
    | .price f, .pricing w =>
      (w.todo.head?.bind (w.charge s.store f)).all (fun c =>
        !f.meteringSum && c.window.1 ≤ c.entry.periodStart &&
          w.charges.all (fun c' => c'.key ≠ c.key || c'.window = c.window))
    | _, _ => true

def Sold (s : State) : Prop :=
  Ledger.charges.Holds SoldOnce
    (fun w charges _ => CacheSold w.batch.priorUsageCache charges w.charges) s

theorem SoldOnce.price {s : State} {w : Work} {me : MeteringEntry} {rest : List MeteringEntry}
    {f : Faults} (hl : Layout s) (hw : WorkOK s.store w) (hn : ∀ e ∈ s.store.entries, 0 ≤ e.value)
    (hp : s.phase = .pricing w) (ht : w.todo = me :: rest)
    (hok : sellsInOrder s (.price f) = true)
    (hsold : SoldOnce (s.charged ++ w.charges) (ratedEntries s.store ++ w.done))
    (hcache : CacheSold w.batch.priorUsageCache (s.charged ++ w.charges) w.charges) :
    SoldOnce (s.charged ++ (w.price s.store f me rest).charges)
        (ratedEntries s.store ++ w.done ++ [me]) ∧
      CacheSold (w.price s.store f me rest).batch.priorUsageCache
        (s.charged ++ (w.price s.store f me rest).charges) (w.price s.store f me rest).charges := by
  have hv : 0 ≤ me.value := by
    apply hn me (hw.mem_entries _)
    rw [hw.split,ht]
    simp
  cases hwin : w.plan.window s.store f me with
  | none =>
    have hcharge : w.charge s.store f me = none := by simp [Work.charge,hwin]
    have hsame : (w.price s.store f me rest).batch.priorUsageCache = w.batch.priorUsageCache :=
      (Plan.charge_of_not_window hwin _ (fun _ => none)).2
    have hcs : (w.price s.store f me rest).charges = w.charges := by simp [Work.price,hcharge]
    rw [hsame,hcs]
    exact ⟨hsold.grow (by simpa using hv),hcache⟩
  | some rw =>
    obtain ⟨rate,win⟩ := rw
    obtain ⟨-,-,hcum⟩ := Plan.window_ok hwin
    have hcharge : w.charge s.store f me =
        some ⟨me,rate,win,priorUsage s.store f w.batch.priorUsageCache me rate win⟩ := by
      simp [Work.charge,hwin]
    simp only [sellsInOrder,hp,ht,hcharge,List.head?_cons,Option.bind_some,Option.all_some,
      Bool.and_eq_true,Bool.not_eq_true',decide_eq_true_eq,List.all_eq_true,Bool.or_eq_true] at hok
    obtain ⟨-,⟨hf,hstart⟩,hshare⟩ := hok
    have hsum : s.store.meteringSumBefore me.tenantID me.meterName win.1 win.2 me.id =
        usage (ratedEntries s.store ++ w.done) me.tenantID me.meterName win := by
      rw [meteringSumBefore_eq,hl.before (by rw [hp]; rfl) hw ht]
    have hsame : ∀ c ∈ w.charges, c.key = accumKey me rate → c.window = win :=
      fun c hc hk => (hshare c hc).resolve_left (fun hne => hne hk)
    obtain ⟨hle,hge⟩ := prior_between hsold hcache hsum hf hsame
    have hcs : (w.price s.store f me rest).charges = w.charges ++
        [⟨me,rate,win,priorUsage s.store f w.batch.priorUsageCache me rate win⟩] := by
      simp [Work.price,hcharge]
    have hup : (w.price s.store f me rest).batch.priorUsageCache =
        Function.update w.batch.priorUsageCache (accumKey me rate)
          (some (priorUsage s.store f w.batch.priorUsageCache me rate win + me.value)) := by
      simp only [Work.price,Plan.rateEntry,Plan.charge_of_window hwin]
    rw [hcs,hup,← List.append_assoc]
    exact ⟨hsold.snoc hcum hstart hv hle hge,hcache.snoc (c := ⟨me,rate,win,_⟩) hv hge⟩

theorem sellsInOrder_base {s : State} {l : Label} (h : sellsInOrder s l = true) :
    marksHold s l = true ∧ inOrder s l = true := by
  unfold sellsInOrder at h
  simp only [Bool.and_eq_true] at h
  exact h.1

theorem Sold.step {s t : State} {l : Label} (hi : IdsOK s) (hph : PhaseOK s) (hl : Layout s)
    (hn : ∀ e ∈ s.store.entries, 0 ≤ e.value) (hok : sellsInOrder s l = true)
    (h : Sold s) (hm : Moves s l t) : Sold t := by
  obtain ⟨hmarks,hord⟩ := sellsInOrder_base hok
  refine Ledger.Holds.step hi hph hl hmarks hord ?_ ?_ h hm
  · intro p entries log rated _ k x hk
    simp [Work.start] at hk
  · intro f w me rest hlab hp ht hw hsold hcache
    subst hlab
    exact hsold.price hl hw hn hp ht hok hcache

theorem sellsInOrder_value {s : State} {row : MeteringRow} (hr : row ∈ s.pending)
    (h : sellsInOrder s (.commit row.id) = true) : 0 ≤ row.value := by
  unfold sellsInOrder at h
  simp only [Bool.and_eq_true,List.all_eq_true,Bool.or_eq_true,decide_eq_true_eq] at h
  exact (h.2 row hr).resolve_left (fun hne => hne rfl)

theorem reachable_sold {s : State}
    (h : Reachable step initial (fun s l => sellsInOrder s l = true) s) : Sold s := by
  have hlay : ∀ s, Reachable step initial (fun s l => sellsInOrder s l = true) s → Layout s :=
    fun s hs => reachable_layout (fun s l hl => (sellsInOrder_base hl).2) hs
  have hnn := h.invariant_with (Q := fun s => (∀ e ∈ s.store.entries, 0 ≤ e.value) ∧ Sold s)
    (fun s hs => And.intro (reachable_ok hs) (hlay s hs)) ?_ ?_
  · exact hnn.2
  · rintro s ⟨hr,-,-,hp,-,hc⟩
    refine ⟨by simp [Store.entries,hr],Ledger.holds_of_no_work (by rw [hp]; rfl) ?_⟩
    change SoldOnce s.charged _
    rw [hc]
    exact ⟨by simp,by simp,.nil⟩
  · intro s l t hs _ hq hl hst
    refine ⟨entries_step hs.1.1 hs.2 (sellsInOrder_base hl).2 ?_ hq.1 (step_moves hst),
      hq.2.step hs.1.1 hs.1.2 hs.2 hq.1 hl (step_moves hst)⟩
    rintro row hr rfl
    exact sellsInOrder_value hr hl

/-- Charges for one tenant, meter and window, under rates of one period, were
priced against disjoint usage intervals. -/
theorem tier_space_sold_once {s : State}
    (h : Reachable step initial (fun s l => sellsInOrder s l = true) s) :
    s.charged.Pairwise (fun c c' => c.entry.tenantID = c'.entry.tenantID →
      c.entry.meterName = c'.entry.meterName → tierPeriod c.rate = tierPeriod c'.rate →
      c.window = c'.window →
      Disjoint (Set.Ico c.prior (c.prior + c.entry.value))
        (Set.Ico c'.prior (c'.prior + c'.entry.value))) := by
  obtain ⟨entries,hs⟩ := (reachable_sold h).exists
  refine hs.ordered.imp_of_mem ?_
  intro c c' hc hc' hle ht hm hp hw
  have hlabel : periodLabel (tierPeriod c.rate) c.entry.periodEnd =
      periodLabel (tierPeriod c'.rate) c'.entry.periodEnd := by
    rw [← hp]
    apply periodLabel_of_window (cumulativeWindow_ok (hs.window c hc)).2
    rw [hp,hw]
    exact (cumulativeWindow_ok (hs.window c' hc')).2
  have hkey : c.key = c'.key := by
    simp only [Charge.key,accumKey,ht,hm,hlabel]
  rw [Set.disjoint_left]
  intro x hx hx'
  have hstop := hle hkey hw
  unfold Charge.stop at hstop
  linarith [hx.2,hx'.1]

theorem tier_space_sold_in_run :
    ∃ s, Reachable step initial (fun s l => sellsInOrder s l = true) s ∧ s.charged.length = 2 ∧
      s.charged.Pairwise (fun c c' => c.entry.tenantID = c'.entry.tenantID →
        c.entry.meterName = c'.entry.meterName → tierPeriod c.rate = tierPeriod c'.rate →
        c.window = c'.window →
        Disjoint (Set.Ico c.prior (c.prior + c.entry.value))
          (Set.Ico c'.prior (c'.prior + c'.entry.value))) := by
  obtain ⟨s,hs,hp⟩ := Reachable.exists_of_checked step initial sellsInOrder opening
    [.allocate (tokens 0 100 (february + hours 1) (february + hours 2)),.commit 1,
      .allocate (tokens 0 100 (february + hours 2) (february + hours 3)),.commit 2,
      .begin smallRater february false,.fetch false,.price {},.price {},.insert false]
    (fun s => s.charged.length = 2) (fun _ _ h => h) ⟨rfl,rfl,rfl,rfl,rfl,rfl⟩ (by decide +kernel)
  exact ⟨s,hs,hp,tier_space_sold_once hs⟩

/-- Entry 2 is committed and charged before entry 1 is seen, then entry 1 is
charged after the usage of smaller ids: both get the free hundred units. -/
theorem free_tier_sold_twice :
    ∃ s, Reachable step initial anyStep s ∧ ∃ c c', s.charged = [c,c'] ∧
      c.entry.id ≠ c'.entry.id ∧ c.entry.tenantID = c'.entry.tenantID ∧
      c.entry.meterName = c'.entry.meterName ∧ c.rate = c'.rate ∧ c.window = c'.window ∧
      ¬ Disjoint (Set.Ico c.prior (c.prior + c.entry.value))
        (Set.Ico c'.prior (c'.prior + c'.entry.value)) := by
  obtain ⟨s,hs,hlen,hall⟩ := Reachable.exists_of_run step initial opening
    [.allocate (tokens 0 100 (february + hours 1) (february + hours 2)),
      .allocate (tokens 0 100 (february + hours 2) (february + hours 3)),.commit 2,
      .begin smallRater february false,.fetch false,.price {},.insert false,.mark false february,
      .commit 1,.begin smallRater february false,.fetch false,.price {},.insert false]
    (fun s => s.charged.length = 2 ∧ ∀ p ∈ s.charged.zip s.charged.tail,
      p.1.entry.id ≠ p.2.entry.id ∧ p.1.entry.tenantID = p.2.entry.tenantID ∧
        p.1.entry.meterName = p.2.entry.meterName ∧ p.1.rate = p.2.rate ∧
        p.1.window = p.2.window ∧ p.1.prior = p.2.prior ∧ 0 < p.1.entry.value ∧
        0 < p.2.entry.value) ⟨rfl,rfl,rfl,rfl,rfl,rfl⟩ (by decide +kernel)
  obtain ⟨c,c',hc⟩ := List.length_eq_two.mp hlen
  rw [hc] at hall
  obtain ⟨hid,ht,hm,hr,hw,hprior,hv,hv'⟩ := hall (c,c') (by simp)
  refine ⟨s,hs,c,c',hc,hid,ht,hm,hr,hw,?_⟩
  rw [Set.not_disjoint_iff]
  exact ⟨c.prior,⟨le_refl _,by linarith⟩,⟨hprior.ge,by linarith⟩⟩

end CostConsumer.Rating
