import CostConsumer.Rating.TierSpace
set_option autoImplicit false

/-!
What a tenant is billed for a meter that one cumulative rate prices: the tier
table applied to the usage of the whole window, however it was metered.
-/

namespace CostConsumer.Rating
open Inventory Foundation Billing

/-- A tenant's use of a meter, and the cumulative rate it is priced by. A weekly
period is left out, its labels can name two windows. -/
structure Account where
  tenantID : String
  meterName : String
  rate : RateRecord
  tiers : rate.tiers ≠ []
  mode : rate.tierMode = "cumulative"
  notWeekly : tierPeriod rate ≠ "weekly"

def bill (costs : List CostEntry) (entries : List MeteringEntry) : Rat :=
  Store.sumCosts (costs.filter (fun c => entries.any (fun e => e.id = c.meteringEntryID)))

namespace Account

variable (a : Account)

def owns (e : MeteringEntry) : Bool := e.tenantID = a.tenantID && e.meterName = a.meterName

def window (e : MeteringEntry) : Option (Int × Int) :=
  (resolvePeriod (tierPeriod a.rate) e.periodEnd).toOption

/-- The entries of the account that belong to a billing window. -/
def entries (w : Int × Int) (es : List MeteringEntry) : List MeteringEntry :=
  es.filter (fun e => a.owns e && a.window e = some w)

def proper (e : MeteringEntry) : Bool :=
  e.periodStart < e.periodEnd && (a.window e).any (fun w => w.1 ≤ e.periodStart)

/-- A step of a run in which the account's entries are proper, become visible in
id order, and are priced by its rate after the usage the database reports. -/
def oneRate (s : State) (l : Label) : Bool :=
  marksHold s l && inOrder s l &&
    match l, s.phase with
    | .commit id, _ => s.pending.all (fun row =>
        row.id ≠ id || !a.owns row.toMeteringEntry || a.proper row.toMeteringEntry)
    | .price f, .pricing w => w.todo.head?.all (fun me => !a.owns me ||
        !f.meteringSum && (w.plan.rule s.store f me).isNone && w.plan.rate me = some a.rate)
    | _, _ => true

theorem cumulativeWindow_eq (e : MeteringEntry) : cumulativeWindow a.rate e = a.window e := by
  simp [cumulativeWindow,a.tiers,a.mode,window]

variable {a}

theorem window_ok {e : MeteringEntry} {w : Int × Int} (h : a.window e = some w) :
    resolvePeriod (tierPeriod a.rate) e.periodEnd = .ok w :=
  (cumulativeWindow_ok ((a.cumulativeWindow_eq e).trans h)).2

theorem inPeriod_iff {e : MeteringEntry} (he : a.proper e = true) {t : Int} {w : Int × Int}
    (hw : resolvePeriod (tierPeriod a.rate) t = .ok w) :
    inPeriod w.1 w.2 e.periodStart e.periodEnd = true ↔ a.window e = some w := by
  unfold proper at he
  cases hv : a.window e with
  | none => simp [hv] at he
  | some v =>
    simp only [hv,Option.any_some,Bool.and_eq_true,decide_eq_true_eq] at he
    have hv' := window_ok hv
    have hend := resolvePeriod_contains hv'
    simp only [inPeriod,decide_eq_true_eq,Option.some.injEq]
    constructor
    · rintro ⟨h₁,h₂⟩
      rcases h₂.lt_or_eq with h₂ | h₂
      · have := resolvePeriod_of_mem hw (h₁.trans he.1.le) h₂
        rw [hv'] at this
        exact Except.ok.inj this
      · -- an entry up to the end of a window would start in the next one
        obtain ⟨x,hx⟩ := resolvePeriod_next hw
        rw [← h₂,hv'] at hx
        have hv₁ := congrArg Prod.fst (Except.ok.inj hx)
        simp only at hv₁
        omega
    · rintro rfl
      exact ⟨he.2,hend.2.le⟩

theorem usage_eq {es : List MeteringEntry} (h : ∀ e ∈ es, a.owns e = true → a.proper e = true)
    {t : Int} {w : Int × Int} (hw : resolvePeriod (tierPeriod a.rate) t = .ok w) :
    usage es a.tenantID a.meterName w = Store.sumValues (a.entries w es) := by
  unfold usage entries
  congr 1
  apply List.filter_congr
  intro e he
  by_cases ho : a.owns e = true
  · have hiff := inPeriod_iff (h e he ho) hw
    rw [Bool.eq_iff_iff]
    simp only [owns,Bool.and_eq_true,decide_eq_true_eq] at ho ⊢
    simp only [ho,hiff]
  · have hn : (decide (e.tenantID = a.tenantID) && decide (e.meterName = a.meterName)) = false := by
      simpa [owns] using ho
    simp only [Bool.not_eq_true] at ho
    rw [hn,ho,Bool.false_and,Bool.false_and]

theorem entries_snoc (w : Int × Int) (es : List MeteringEntry) (me : MeteringEntry) :
    a.entries w (es ++ [me]) =
      a.entries w es ++ if a.owns me = true ∧ a.window me = some w then [me] else [] := by
  by_cases h : a.owns me = true ∧ a.window me = some w
  · simp [entries,h]
  · have hb : (a.owns me && decide (a.window me = some w)) = false := by simpa using h
    rw [if_neg h]
    simp [entries,hb]

variable (a)

/-- All costs are for entries counted, and every window is billed by the tier
table at its usage. -/
structure Billed (costs : List CostEntry) (es : List MeteringEntry) : Prop where
  known : ∀ c ∈ costs, ∃ e ∈ es, e.id = c.meteringEntryID
  total : ∀ w, bill costs (a.entries w es) =
    applyTieredRate (Store.sumValues (a.entries w es)) a.rate.tiers

def CacheBilled (cache : PriorUsage) (es : List MeteringEntry) : Prop :=
  ∀ me w x, a.owns me = true → a.window me = some w → cache (accumKey me a.rate) = some x →
    x = Store.sumValues (a.entries w es)

end Account

theorem bill_append (costs more : List CostEntry) (entries : List MeteringEntry) :
    bill (costs ++ more) entries = bill costs entries + bill more entries := by
  simp [bill,Store.sumCosts]

theorem bill_snoc_other {costs : List CostEntry} {me : MeteringEntry} (entries : List MeteringEntry)
    (h : ∀ c ∈ costs, c.meteringEntryID ≠ me.id) :
    bill costs (entries ++ [me]) = bill costs entries := by
  unfold bill
  congr 1
  apply List.filter_congr
  intro c hc
  simp [(h c hc).symm]

theorem bill_snoc_own {more : List CostEntry} {me : MeteringEntry} (entries : List MeteringEntry)
    (h : ∀ c ∈ more, c.meteringEntryID = me.id) :
    bill more (entries ++ [me]) = Store.sumCosts more := by
  unfold bill
  congr 1
  rw [List.filter_eq_self]
  intro c hc
  simp [h c hc]

theorem bill_fresh {more : List CostEntry} {me : MeteringEntry} {entries : List MeteringEntry}
    (h : ∀ c ∈ more, c.meteringEntryID = me.id) (hf : ∀ e ∈ entries, e.id ≠ me.id) :
    bill more entries = 0 := by
  have hn : more.filter (fun c => entries.any (fun e => e.id = c.meteringEntryID)) = [] := by
    rw [List.filter_eq_nil_iff]
    intro c hc
    simpa [h c hc] using hf
  rw [bill,hn]
  rfl

theorem Plan.charge_cache_other {p : Plan} {s : Store} {f : Faults} {cache : PriorUsage}
    {me : MeteringEntry} {k : AccumKey} (hk : k.tenant ≠ me.tenantID ∨ k.meter ≠ me.meterName) :
    (p.charge s f cache me).2 k = cache k := by
  cases hw : p.window s f me with
  | none => rw [(charge_of_not_window hw cache cache).2]
  | some rw =>
    rw [charge_of_window hw]
    refine Function.update_of_ne ?_ _ _
    rintro rfl
    simp [accumKey] at hk

namespace Account

variable {a : Account}

theorem Billed.snoc {costs more : List CostEntry} {es : List MeteringEntry} {me : MeteringEntry}
    (h : a.Billed costs es) (hf : ∀ e ∈ es, e.id ≠ me.id)
    (hm : ∀ c ∈ more, c.meteringEntryID = me.id)
    (hc : ∀ w, a.owns me = true → a.window me = some w → Store.sumCosts more =
      applyTieredRateCumulative me.value (Store.sumValues (a.entries w es)) a.rate.tiers) :
    a.Billed (costs ++ more) (es ++ [me]) := by
  have hold : ∀ c ∈ costs, c.meteringEntryID ≠ me.id := by
    intro c hc'
    obtain ⟨e,he,hid⟩ := h.known c hc'
    rw [← hid]
    exact hf e he
  constructor
  · intro c hc'
    rcases List.mem_append.mp hc' with hc' | hc'
    · obtain ⟨e,he,hid⟩ := h.known c hc'
      exact ⟨e,List.mem_append_left _ he,hid⟩
    · exact ⟨me,by simp,(hm c hc').symm⟩
  · intro w
    rw [entries_snoc,bill_append]
    by_cases hin : a.owns me = true ∧ a.window me = some w
    · rw [if_pos hin,bill_snoc_other _ hold,bill_snoc_own _ hm,h.total w,hc w hin.1 hin.2,
        sumValues_append]
      unfold applyTieredRateCumulative
      simp only [Store.sumValues,List.map_cons,List.map_nil,List.sum_singleton]
      ring
    · have hfresh : bill more (a.entries w es) = 0 :=
        bill_fresh hm (fun e he => hf e (List.mem_of_mem_filter he))
      rw [if_neg hin,List.append_nil,hfresh,add_zero,h.total w]

theorem accumKey_iff {me me' : MeteringEntry} {w w' : Int × Int} (ho : a.owns me = true)
    (ho' : a.owns me' = true) (hw : a.window me = some w) (hw' : a.window me' = some w') :
    accumKey me a.rate = accumKey me' a.rate ↔ w = w' := by
  simp only [owns,Bool.and_eq_true,decide_eq_true_eq] at ho ho'
  simp only [accumKey,AccumKey.mk.injEq,ho,ho',true_and]
  constructor
  · exact resolvePeriod_of_label a.notWeekly (window_ok hw) (window_ok hw')
  · rintro rfl
    exact periodLabel_of_window (window_ok hw) (window_ok hw')

theorem CacheBilled.snoc {cache : PriorUsage} {es : List MeteringEntry} {me : MeteringEntry}
    {w : Int × Int} (h : a.CacheBilled cache es) (ho : a.owns me = true)
    (hw : a.window me = some w) :
    a.CacheBilled (Function.update cache (accumKey me a.rate)
      (some (Store.sumValues (a.entries w es) + me.value))) (es ++ [me]) := by
  intro me' w' x ho' hw' hx
  rw [entries_snoc,sumValues_append]
  by_cases hk : accumKey me' a.rate = accumKey me a.rate
  · have hww := (accumKey_iff ho' ho hw' hw).mp hk
    subst hww
    rw [hk,Function.update_self,Option.some.injEq] at hx
    rw [if_pos ⟨ho,hw⟩,← hx]
    simp [Store.sumValues]
  · rw [Function.update_of_ne hk] at hx
    have hne : ¬ (a.owns me = true ∧ a.window me = some w') := by
      rintro ⟨-,hw''⟩
      exact hk ((accumKey_iff ho' ho hw' hw'').mpr rfl)
    rw [if_neg hne,h me' w' x ho' hw' hx]
    simp [Store.sumValues]

theorem CacheBilled.snoc_other {cache cache' : PriorUsage} {es : List MeteringEntry}
    {me : MeteringEntry} (h : a.CacheBilled cache es) (ho : a.owns me = false)
    (hc : ∀ k : AccumKey, k.tenant ≠ me.tenantID ∨ k.meter ≠ me.meterName → cache' k = cache k) :
    a.CacheBilled cache' (es ++ [me]) := by
  intro me' w x ho' hw hx
  rw [entries_snoc,if_neg (by simp [ho]),List.append_nil]
  refine h me' w x ho' hw ?_
  rw [← hx]
  refine (hc _ ?_).symm
  simp only [owns,Bool.and_eq_true,decide_eq_true_eq,Bool.and_eq_false_iff,
    decide_eq_false_iff_not] at ho ho'
  simp only [accumKey,ho'.1,ho'.2]
  exact ho.imp Ne.symm Ne.symm

theorem CacheBilled.priorUsage {s : Store} {f : Faults} {cache : PriorUsage}
    {es : List MeteringEntry} {me : MeteringEntry} {w : Int × Int} (h : a.CacheBilled cache es)
    (ho : a.owns me = true) (hw : a.window me = some w) (hf : f.meteringSum = false)
    (hp : ∀ e ∈ es, a.owns e = true → a.proper e = true)
    (hb : s.entries.filter (fun e => e.id < me.id) = es) :
    Rating.priorUsage s f cache me a.rate w = Store.sumValues (a.entries w es) := by
  unfold Rating.priorUsage
  cases hk : cache (accumKey me a.rate) with
  | some x => exact h me w x ho hw hk
  | none =>
    have ho' := ho
    simp only [owns,Bool.and_eq_true,decide_eq_true_eq] at ho'
    simp only [hf,Bool.false_eq_true,if_false]
    rw [meteringSumBefore_eq,hb,ho'.1,ho'.2,usage_eq hp (window_ok hw)]

theorem Billed.price {s : State} {w : Work} {me : MeteringEntry} {rest : List MeteringEntry}
    {f : Faults} (hl : Layout s) (hw : WorkOK s.store w)
    (hn : ∀ e ∈ s.store.entries, a.owns e = true → a.proper e = true)
    (hp : s.phase = .pricing w) (ht : w.todo = me :: rest)
    (hok : a.oneRate s (.price f) = true)
    (hb : a.Billed (s.store.costEntries ++ w.batch.costEntries) (ratedEntries s.store ++ w.done))
    (hc : a.CacheBilled w.batch.priorUsageCache (ratedEntries s.store ++ w.done)) :
    a.Billed (s.store.costEntries ++ (w.price s.store f me rest).batch.costEntries)
        (ratedEntries s.store ++ w.done ++ [me]) ∧
      a.CacheBilled (w.price s.store f me rest).batch.priorUsageCache
        (ratedEntries s.store ++ w.done ++ [me]) := by
  have hbefore := hl.before (by rw [hp]; rfl) hw ht
  have hcosts : (w.price s.store f me rest).batch.costEntries = w.batch.costEntries ++
      (w.plan.charge s.store f w.batch.priorUsageCache me).1.toList := rfl
  have hcache : (w.price s.store f me rest).batch.priorUsageCache =
      (w.plan.charge s.store f w.batch.priorUsageCache me).2 := rfl
  generalize ratedEntries s.store ++ w.done = es at *
  have hfresh : ∀ e ∈ es, e.id ≠ me.id := by
    intro e he
    rw [← hbefore] at he
    have hlt := (List.mem_filter.mp he).2
    simp only [decide_eq_true_eq] at hlt
    exact hlt.ne
  have hids : ∀ c ∈ (w.plan.charge s.store f w.batch.priorUsageCache me).1.toList,
      c.meteringEntryID = me.id := by
    intro c hcm
    exact Plan.charge_id _ _ _ (Option.mem_toList.mp hcm)
  rw [hcosts,hcache,← List.append_assoc]
  cases ho : a.owns me with
  | false =>
    refine ⟨hb.snoc hfresh hids (fun _ h => ?_),hc.snoc_other ho (fun k => Plan.charge_cache_other)⟩
    simp [ho] at h
  | true =>
    have hproper := hn me (hw.mem_entries (by rw [hw.split,ht]; simp)) ho
    obtain ⟨win,hwin⟩ : ∃ win, a.window me = some win := by
      unfold proper at hproper
      cases h : a.window me with
      | none => simp [h] at hproper
      | some win => exact ⟨win,rfl⟩
    simp only [oneRate,hp,ht,List.head?_cons,Option.all_some,ho,Bool.not_true,Bool.false_or,
      Bool.and_eq_true,Bool.not_eq_true',Option.isNone_iff_eq_none,decide_eq_true_eq] at hok
    obtain ⟨-,⟨hf,hrule⟩,hrate⟩ := hok
    have hpw : w.plan.window s.store f me = some (a.rate,win) := by
      simp [Plan.window,hrule,hrate,cumulativeWindow_eq,hwin]
    have hes : ∀ e ∈ es, a.owns e = true → a.proper e = true := by
      intro e he
      rw [← hbefore] at he
      exact hn e (List.mem_of_mem_filter he)
    have hprior := hc.priorUsage ho hwin hf hes hbefore
    refine ⟨hb.snoc hfresh hids (fun win' _ hwin' => ?_),?_⟩
    · rw [hwin,Option.some.injEq] at hwin'
      subst hwin'
      simp [Plan.charge_of_window hpw,hprior,Store.sumCosts,costEntry,applyRateCumulative,a.tiers]
    · rw [Plan.charge_of_window hpw,hprior]
      exact hc.snoc ho hwin

theorem oneRate_base {s : State} {l : Label} (h : a.oneRate s l = true) :
    marksHold s l = true ∧ inOrder s l = true := by
  unfold oneRate at h
  simp only [Bool.and_eq_true] at h
  exact h.1

theorem oneRate_proper {s : State} {row : MeteringRow} (hr : row ∈ s.pending)
    (h : a.oneRate s (.commit row.id) = true) (ho : a.owns row.toMeteringEntry = true) :
    a.proper row.toMeteringEntry = true := by
  unfold oneRate at h
  simp only [Bool.and_eq_true,List.all_eq_true,Bool.or_eq_true,decide_eq_true_eq] at h
  rcases h.2 row hr with (hne | hno) | hp
  · exact absurd rfl hne
  · simp [ho] at hno
  · exact hp

variable (a)

def BilledState (s : State) : Prop :=
  Ledger.costs.Holds a.Billed (fun w _ es => a.CacheBilled w.batch.priorUsageCache es) s

variable {a}

theorem BilledState.step {s t : State} {l : Label} (hi : IdsOK s) (hph : PhaseOK s) (hl : Layout s)
    (hn : ∀ e ∈ s.store.entries, a.owns e = true → a.proper e = true)
    (hok : a.oneRate s l = true) (h : a.BilledState s) (hm : Moves s l t) : a.BilledState t := by
  obtain ⟨hmarks,hord⟩ := oneRate_base hok
  refine Ledger.Holds.step hi hph hl hmarks hord ?_ ?_ h hm
  · intro p entries log rated _ me w x _ _ hx
    simp [Work.start] at hx
  · intro f w me rest hlab hp ht hw hb hc
    subst hlab
    exact hb.price hl hw hn hp ht hok hc

theorem reachable_billed {s : State}
    (h : Reachable step initial (fun s l => a.oneRate s l = true) s) :
    Layout s ∧ a.BilledState s := by
  have hlay : ∀ s, Reachable step initial (fun s l => a.oneRate s l = true) s → Layout s :=
    fun s hs => reachable_layout (fun s l hl => (oneRate_base hl).2) hs
  have hq := h.invariant_with
    (Q := fun s => (∀ e ∈ s.store.entries, a.owns e = true → a.proper e = true) ∧ a.BilledState s)
    (fun s hs => And.intro (reachable_ok hs) (hlay s hs)) ?_ ?_
  · exact ⟨hlay s h,hq.2⟩
  · rintro s ⟨hr,hc,-,hp,-,-⟩
    refine ⟨by simp [Store.entries,hr],Ledger.holds_of_no_work (by rw [hp]; rfl) ?_⟩
    change a.Billed s.store.costEntries (ratedEntries s.store)
    rw [hc,ratedEntries,hr]
    exact ⟨by simp,fun w => (applyTieredRate_zero a.rate.tiers).symm⟩
  · intro s l t hs _ hq hl hst
    refine ⟨entries_step hs.1.1 hs.2 (oneRate_base hl).2 ?_ hq.1 (step_moves hst),
      hq.2.step hs.1.1 hs.1.2 hs.2 hq.1 hl (step_moves hst)⟩
    rintro row hr rfl
    exact oneRate_proper hr hl

end Account

/-- Once the queue is empty every window is billed the tier table's price of its
whole usage. -/
theorem cumulative_billing_total (a : Account) {s : State}
    (h : Reachable step initial (fun s l => a.oneRate s l = true) s) (hp : s.phase = .idle)
    (hq : s.store.queue = []) (w : Int × Int) :
    bill s.store.costEntries (a.entries w s.store.entries) =
      applyTieredRate (Store.sumValues (a.entries w s.store.entries)) a.rate.tiers := by
  obtain ⟨hl,hb⟩ := Account.reachable_billed h
  have he : s.store.entries = ratedEntries s.store := by rw [hl.entries,hq,List.append_nil]
  simp only [Account.BilledState,Ledger.Holds,hp] at hb
  rw [he]
  exact hb.total w

def tokenAccount : Account :=
  ⟨"t","maas_tokens_in",freeTier,by decide,by decide,by decide⟩

theorem february_billed_in_run :
    ∃ s, Reachable step initial (fun s l => tokenAccount.oneRate s l = true) s ∧
      Store.sumValues (tokenAccount.entries (february,february + hours (28*24)) s.store.entries) =
        180 ∧
      bill s.store.costEntries
        (tokenAccount.entries (february,february + hours (28*24)) s.store.entries) =
          applyTieredRate (Store.sumValues
            (tokenAccount.entries (february,february + hours (28*24)) s.store.entries))
            freeTier.tiers := by
  obtain ⟨s,hs,hidle,hq,husage⟩ := Reachable.exists_of_checked step initial tokenAccount.oneRate opening
    [.allocate (tokens 0 60 (february + hours 1) (february + hours 2)),.commit 1,
      .allocate (tokens 0 60 (february + hours 2) (february + hours 3)),.commit 2,
      .begin smallRater february false,.fetch false,.price {},.price {},.insert false,
      .mark false february,.fetch false,
      .allocate (tokens 0 60 (february + hours 3) (february + hours 4)),.commit 3,
      .begin smallRater february false,.fetch false,.price {},.insert false,.mark false february]
    (fun s => s.phase.isIdle = true ∧ s.store.queue = [] ∧ Store.sumValues
      (tokenAccount.entries (february,february + hours (28*24)) s.store.entries) = 180)
    (fun _ _ h => h) ⟨rfl,rfl,rfl,rfl,rfl,rfl⟩ (by decide +kernel)
  exact ⟨s,hs,husage,cumulative_billing_total tokenAccount hs (Phase.eq_idle hidle) hq _⟩

end CostConsumer.Rating
