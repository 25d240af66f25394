import CostConsumer.Rating.Backlog
set_option autoImplicit false

/-!
Sweeps when PostgreSQL rejects the insert of a batch, because a cost does not fit its
column or the statement has too many parameters. The sweep stops at this batch, and so
does every later one with the same rates.
-/

namespace CostConsumer.Rating
open Inventory Foundation

def Plan.accepts (p : Plan) (s : Store) (entries : List MeteringEntry) : Bool :=
  13*(p.rateBatch s entries).costEntries.length ≤ 65535 &&
    (p.rateBatch s entries).costEntries.all (Store.costFits ·)

/-- The entries from the first batch on whose insert is rejected. -/
def Plan.refused (p : Plan) (s : Store) (queue : List MeteringEntry) : List MeteringEntry :=
  ((chunks p.batch queue.length queue).dropWhile (p.accepts s)).flatten

/-- The entry has a cost, rated by itself, that does not fit the column. -/
def Plan.Unstorable (p : Plan) (s : Store) (me : MeteringEntry) : Prop :=
  ∃ ce, (p.charge s {} (fun _ => none) me).1 = some ce ∧ ¬ Store.costFits ce

/-- A rule prices the entry, or a rate is selected for it. -/
def Plan.priced (p : Plan) (s : Store) (me : MeteringEntry) : Bool :=
  (p.rule s {} me).isSome || (p.rate me).isSome

/-- There are parameters for the cost entries of the batch, and every cost, after the entries
before it in the batch, fits the column. -/
def Plan.Storable (p : Plan) (s : Store) (entries : List MeteringEntry) : Prop :=
  13*entries.countP (p.priced s) ≤ 65535 ∧
    ∀ j me, entries[j]? = some me → ∀ ce, p.placed s (entries.take j) me = some ce → Store.costFits ce

def Rater.sweeps (r : Rater) (times : Nat → Int) (s : Store) : Nat → Store
  | 0 => s
  | n+1 => r.sweep (times n) (r.sweeps times s n)

theorem SamePricing.rated {s s₀ : Store} (h : SamePricing s s₀) (costs : List CostEntry) (ids : List Nat)
    (now : Int) : SamePricing ((s.addCosts costs).markMeteringEntriesRated ids now) s₀ :=
  ⟨(Store.entries_mark _ _ _).trans h.entries,h.computeInstances,h.tenants⟩

theorem SamePricing.trans {s t u : Store} (h : SamePricing s t) (h' : SamePricing t u) : SamePricing s u :=
  ⟨h.entries.trans h'.entries,h.computeInstances.trans h'.computeInstances,h.tenants.trans h'.tenants⟩

namespace Plan

variable {p : Plan} {s s₀ : Store} {queue : List MeteringEntry}

theorem accepts_congr (h : SamePricing s s₀) : p.accepts s = p.accepts s₀ := by
  unfold accepts
  rw [rateBatch_congr h]

theorem placed_isSome (p : Plan) (s : Store) (pre : List MeteringEntry) (me : MeteringEntry) :
    (p.placed s pre me).isSome = p.priced s me := by
  rw [← charge_placed,charge,priced]
  cases p.rule s {} me with
  | some ce => rfl
  | none => cases p.rate me <;> rfl

theorem costEntries_concat (p : Plan) (s : Store) (pre : List MeteringEntry) (me : MeteringEntry) :
    (p.rateBatch s (pre ++ [me])).costEntries =
      (p.rateBatch s pre).costEntries ++ (p.placed s pre me).toList := by
  rw [rateBatch_concat,rateEntry,← charge_placed]

theorem length_costEntries (p : Plan) (s : Store) (entries : List MeteringEntry) :
    (p.rateBatch s entries).costEntries.length = entries.countP (p.priced s) := by
  induction entries using List.reverseRecOn with
  | nil => rfl
  | append_singleton pre me ih =>
    rw [costEntries_concat,List.length_append,ih,List.countP_append,List.countP_singleton,
      ← placed_isSome p s pre me]
    cases p.placed s pre me <;> rfl

theorem forall_costEntries (p : Plan) (s : Store) (entries : List MeteringEntry) (P : CostEntry → Prop) :
    (∀ ce ∈ (p.rateBatch s entries).costEntries, P ce) ↔
      ∀ j me, entries[j]? = some me → ∀ ce, p.placed s (entries.take j) me = some ce → P ce := by
  induction entries using List.reverseRecOn with
  | nil => simp [rateBatch]
  | append_singleton pre me ih =>
    simp only [costEntries_concat,List.mem_append,or_imp,forall_and,ih,Option.mem_toList]
    constructor
    · rintro ⟨hpre,hlast⟩ j me' hj ce hce
      rcases Nat.lt_or_ge j pre.length with hlt | hge
      · rw [List.getElem?_append_left hlt] at hj
        rw [List.take_append_of_le_length (Nat.le_of_lt hlt)] at hce
        exact hpre j me' hj ce hce
      · obtain rfl : j = pre.length := by
          have hlt := (List.getElem?_eq_some_iff.mp hj).1
          rw [List.length_append,List.length_singleton] at hlt
          omega
        rw [List.getElem?_concat_length,Option.some.injEq] at hj
        rw [List.take_left,← hj] at hce
        exact hlast ce hce
    · intro h
      refine ⟨fun j me' hj ce hce => ?_,fun ce hce => ?_⟩
      · have hlt := (List.getElem?_eq_some_iff.mp hj).1
        refine h j me' ?_ ce ?_
        · rwa [List.getElem?_append_left hlt]
        · rwa [List.take_append_of_le_length (Nat.le_of_lt hlt)]
      · refine h pre.length me List.getElem?_concat_length ce ?_
        rwa [List.take_left]

theorem accepts_iff (p : Plan) (s : Store) (entries : List MeteringEntry) :
    p.accepts s entries = true ↔ p.Storable s entries := by
  rw [accepts,Bool.and_eq_true,decide_eq_true_iff,List.all_eq_true,length_costEntries,Storable,
    ← forall_costEntries]
  simp only [decide_eq_true_iff]

theorem refused_congr (h : SamePricing s s₀) : p.refused s = p.refused s₀ := by
  unfold refused
  rw [accepts_congr h]

theorem insert_of_accepts (t : Store) (h : p.accepts s queue = true) :
    t.insertCostEntryBatch (p.rateBatch s queue).costEntries =
      .ok (t.addCosts (p.rateBatch s queue).costEntries) := by
  obtain ⟨hn,hf⟩ := Bool.and_eq_true_iff.mp h
  exact Store.insertCostEntryBatch_of_fits (of_decide_eq_true hn) (by simpa using hf)

theorem insert_of_not_accepts (t : Store) (h : p.accepts s queue = false) :
    ∃ e, t.insertCostEntryBatch (p.rateBatch s queue).costEntries = .error e := by
  unfold accepts at h
  generalize (p.rateBatch s queue).costEntries = costs at h ⊢
  unfold Store.insertCostEntryBatch
  split
  · simp at h
  · rename_i ce
    have hno : ¬ Store.costFits ce := by simpa using h
    exact ⟨_,by rw [Store.insertCostEntry,if_neg hno]⟩
  · split
    · exact ⟨_,rfl⟩
    · rename_i hn
      rw [decide_eq_true (not_lt.mp hn),Bool.true_and] at h
      rw [h]
      exact ⟨_,rfl⟩

theorem refused_cons (h : queue ≠ []) : p.refused s queue =
    if p.accepts s (queue.take p.batch) then p.refused s (queue.drop p.batch) else queue := by
  obtain ⟨n,hn⟩ := Nat.exists_eq_succ_of_ne_zero (List.length_pos_of_ne_nil h).ne'
  have hp := p.batch_pos
  have hd : (queue.drop p.batch).length ≤ n := by
    rw [List.length_drop]
    omega
  split
  · rename_i ha
    unfold refused
    rw [hn,chunks_cons h,List.dropWhile_cons_of_pos ha,chunks_fuel hp hd (Nat.le_refl _)]
  · rename_i ha
    have hall := chunks_flatten hp (Nat.le_refl queue.length)
    unfold refused
    rw [hn,chunks_cons h] at hall ⊢
    rw [List.dropWhile_cons_of_neg ha,hall]

theorem drain_of_stopped (now : Int) (fuel : Nat)
    (h : s.queue = [] ∨ p.accepts s (s.queue.take p.batch) = false) : p.drain now fuel s = s := by
  cases fuel with
  | zero => rfl
  | succ fuel =>
    unfold drain
    rcases h with h | h
    · simp [Store.unratedMeteringEntries_eq,h]
    · obtain ⟨e,he⟩ := insert_of_not_accepts s h
      simp only [Store.unratedMeteringEntries_eq,he,ite_self]

def rated (p : Plan) (now : Int) (s : Store) : Store :=
  (s.addCosts (p.rateBatch s (s.queue.take p.batch)).costEntries).markMeteringEntriesRated
    ((s.queue.take p.batch).map (·.id)) now

theorem queue_rated (p : Plan) (now : Int) (s : Store) : (p.rated now s).queue = s.queue.drop p.batch :=
  Store.queue_mark_take _ p.batch now

theorem drain_accepted (now : Int) (fuel : Nat) (hq : s.queue ≠ [])
    (h : p.accepts s (s.queue.take p.batch) = true) : p.drain now (fuel+1) s =
      if (s.queue.take p.batch).length < p.batch then p.rated now s else p.drain now fuel (p.rated now s) := by
  have hne : s.queue.take p.batch ≠ [] := by
    simp [List.take_eq_nil_iff,hq,p.batch_pos.ne']
  rw [drain]
  simp only [Store.unratedMeteringEntries_eq,hne,if_false,insert_of_accepts s h,rateBatch_ratedIDs]
  rfl

theorem drain_refused (now : Int) {fuel : Nat} (hs : SamePricing s s₀) (hf : s.queue.length < fuel) :
    (p.drain now fuel s).queue = p.refused s₀ s.queue ∧ SamePricing (p.drain now fuel s) s₀ ∧
      (p.drain now fuel s).rates = s.rates := by
  induction fuel generalizing s with
  | zero => omega
  | succ fuel ih =>
    by_cases hq : s.queue = []
    · rw [drain_of_stopped now _ (.inl hq),hq]
      exact ⟨rfl,hs,rfl⟩
    have hqueue := p.queue_rated now s
    have hrated : SamePricing (p.rated now s) s₀ := hs.rated _ _ now
    rw [refused_cons hq]
    split
    · rename_i ha
      rw [← accepts_congr hs] at ha
      rw [drain_accepted now fuel hq ha]
      split
      · -- a short batch is the whole queue
        rename_i hshort
        rw [hqueue,drop_of_short hshort]
        exact ⟨rfl,hrated,rfl⟩
      · have hp := p.batch_pos
        have hl := List.length_pos_of_ne_nil hq
        have hlt : (p.rated now s).queue.length < fuel := by
          rw [hqueue,List.length_drop]
          omega
        obtain ⟨hrefused,hsame,hrates⟩ := ih hrated hlt
        exact ⟨by rw [hrefused,hqueue],hsame,hrates⟩
    · rename_i ha
      rw [← accepts_congr hs] at ha
      rw [drain_of_stopped now _ (.inr (Bool.eq_false_iff.mpr ha))]
      exact ⟨rfl,hs,rfl⟩

theorem refused_drop (p : Plan) (s : Store) (queue : List MeteringEntry) (k : Nat) :
    p.refused s (queue.drop (p.batch*k)) = queue.drop (p.batch*(k +
      (((chunks p.batch queue.length queue).drop k).takeWhile (p.accepts s)).length)) := by
  have hle (m : Nat) : (queue.drop m).length ≤ queue.length := by
    rw [List.length_drop]
    exact Nat.sub_le _ _
  rw [refused,chunks_fuel p.batch_pos (Nat.le_refl _) (hle _),← chunks_drop p.batch_pos k (Nat.le_refl _),
    dropWhile_eq_drop,List.drop_drop,chunks_drop p.batch_pos _ (Nat.le_refl _),
    chunks_flatten p.batch_pos (hle _)]

end Plan

section Sweeps
variable (r : Rater) (times : Nat → Int) (s : Store) (n : Nat)

theorem sweep_refused (now : Int) :
    (r.sweep now s).queue = (r.plan now s).refused s s.queue ∧ SamePricing (r.sweep now s) s ∧
      (r.sweep now s).rates = s.rates :=
  Plan.drain_refused now ⟨rfl,rfl,rfl⟩ (by rw [unratedCount_eq]; omega)

/-- Every sweep goes on where the one before it stopped. -/
theorem sweeps_queue :
    (r.sweeps times s n).queue = s.queue.drop (r.batch*taken (fun n => (r.plan (times n) s).accepts s)
      (chunks r.batch s.queue.length s.queue) n) ∧
    SamePricing (r.sweeps times s n) s ∧ (r.sweeps times s n).rates = s.rates := by
  induction n with
  | zero => exact ⟨rfl,⟨rfl,rfl,rfl⟩,rfl⟩
  | succ n ih =>
    obtain ⟨hqueue,hsame,hrates⟩ := ih
    obtain ⟨hqueue',hsame',hrates'⟩ := sweep_refused r (r.sweeps times s n) (times n)
    have hplan : r.plan (times n) (r.sweeps times s n) = r.plan (times n) s := by
      unfold Rater.plan
      rw [Store.allActiveRates,hrates]
      rfl
    refine ⟨?_,hsame'.trans hsame,hrates'.trans hrates⟩
    rw [Rater.sweeps,hqueue',hplan,Plan.refused_congr hsame,hqueue]
    exact Plan.refused_drop (r.plan (times n) s) s s.queue _

theorem passes_iff {i : Nat} (hi : i < s.queue.length) :
    i/r.batch < taken (fun n => (r.plan (times n) s).accepts s) (chunks r.batch s.queue.length s.queue) n ↔
      ∃ round : Nat → Nat, Monotone round ∧ ∀ k ≤ i/r.batch, round k < n ∧
        (r.plan (times (round k)) s).Storable s ((s.queue.drop (r.batch*k)).take r.batch) := by
  rw [lt_taken_iff]
  refine exists_congr fun round => and_congr_right fun _ => forall₂_congr fun k hk => and_congr_right fun _ => ?_
  have hlt : r.batch*k < s.queue.length :=
    Nat.lt_of_le_of_lt ((Nat.mul_le_mul_left _ hk).trans (Nat.mul_div_le i r.batch)) hi
  rw [getElem?_chunks r.batch_pos (Nat.le_refl _) hlt,← Plan.accepts_iff]
  simp

/-- An entry is left after `n` sweeps unless its batch, and every one ahead of it, could be
stored at one of them. -/
theorem mem_sweeps_queue_iff (me : MeteringEntry) :
    me ∈ (r.sweeps times s n).queue ↔ ∃ i, s.queue[i]? = some me ∧
      ¬ ∃ round : Nat → Nat, Monotone round ∧ ∀ k ≤ i/r.batch, round k < n ∧
        (r.plan (times (round k)) s).Storable s ((s.queue.drop (r.batch*k)).take r.batch) := by
  rw [(sweeps_queue r times s n).1,List.mem_iff_getElem?]
  constructor
  · rintro ⟨d,hd⟩
    rw [List.getElem?_drop] at hd
    refine ⟨_,hd,fun hpass => ?_⟩
    have hlt := (passes_iff r times s n (List.getElem?_eq_some_iff.mp hd).1).mpr hpass
    rw [Nat.div_lt_iff_lt_mul r.batch_pos,Nat.mul_comm] at hlt
    omega
  · rintro ⟨i,hi,hno⟩
    rw [← passes_iff r times s n (List.getElem?_eq_some_iff.mp hi).1,
      Nat.div_lt_iff_lt_mul r.batch_pos,Nat.mul_comm,Nat.not_lt] at hno
    obtain ⟨d,rfl⟩ := Nat.exists_eq_add_of_le hno
    exact ⟨d,by rw [List.getElem?_drop,hi]⟩

end Sweeps

/-- Sweeps leave only entries whose own cost cannot be stored, if and only if before every
other entry the batches up to its own can be stored, each at a sweep that is not before that
of the batch ahead of it. -/
theorem backlog_rated_iff (r : Rater) (times : Nat → Int) (s : Store) :
    (∃ n, ∀ me ∈ (r.sweeps times s (n+1)).queue, (r.plan (times n) s).Unstorable s me) ↔
      ∃ n, ∀ i me, s.queue[i]? = some me → ¬ (r.plan (times n) s).Unstorable s me →
        ∃ round : Nat → Nat, Monotone round ∧ ∀ k ≤ i/r.batch, round k ≤ n ∧
          (r.plan (times (round k)) s).Storable s ((s.queue.drop (r.batch*k)).take r.batch) := by
  refine exists_congr fun n => ?_
  simp only [mem_sweeps_queue_iff,Nat.lt_succ_iff]
  constructor
  · intro h i me hi hown
    by_contra hno
    exact hown (h me ⟨i,hi,hno⟩)
  · rintro h me ⟨i,hi,hno⟩
    by_contra hown
    exact hno (h i me hi hown)

def unitPrice : RateRecord := { freeTier with pricePerUnit := 1, tiers := [], tierMode := "" }

def token (id : Nat) (value : Rat) : MeteringEntry := tokens id value 0 (hours 1)

def backlogOf (value : Nat → Rat) (n : Nat) : Store where
  meteringEntries := ⟨(List.range n).map fun i => ⟨token (i+1) (value i),none⟩,by
    rw [List.pairwise_map]
    exact List.pairwise_lt_range.imp fun h => Nat.succ_lt_succ h⟩
  rates := [unitPrice]

def hourly (n : Nat) : Int := hours n

section Samples
variable (r : Rater) (value : Nat → Rat) (n : Nat)

theorem queue_backlogOf : (backlogOf value n).queue = (List.range n).map fun i => token (i+1) (value i) := by
  rw [Store.queue,backlogOf,List.filter_eq_self.mpr]
  · rw [List.map_map]
    rfl
  · intro row hrow
    obtain ⟨i,hi,rfl⟩ := List.mem_map.mp hrow
    rfl

theorem rates_backlogOf (m : Nat) : (backlogOf value n).allActiveRates (hourly m) = [unitPrice] := by
  have hfrom : unitPrice.effectiveFrom ≤ hourly m := mul_nonneg (Int.natCast_nonneg m) (by decide)
  have hkeep : (decide (unitPrice.effectiveFrom ≤ hourly m) && unitPrice.effectiveTo.all (hourly m < ·)) =
      true := by
    rw [decide_eq_true hfrom]
    rfl
  exact congrArg (List.insertionSort Store.rateOrder) (List.filter_cons_of_pos hkeep)

theorem plan_backlogOf (m : Nat) :
    r.plan (hourly m) (backlogOf value n) = r.plan (hourly 0) (backlogOf value n) := by
  rw [Rater.plan,Rater.plan,rates_backlogOf,rates_backlogOf]

theorem rate_token (id : Nat) (q : Rat) :
    (r.plan (hourly 0) (backlogOf value n)).rate (token id q) = some unitPrice := by
  rw [Plan.rate,Rater.plan,rates_backlogOf]
  exact (by decide : matchRate (buildRateIndex [unitPrice]) "t" "" "model" "maas_tokens_in" = some unitPrice)

theorem charge_token (s : Store) (cache : PriorUsage) (id : Nat) (q : Rat) (hr : r.rules = none) :
    ((r.plan (hourly 0) (backlogOf value n)).charge s {} cache (token id q)).1 =
      some (costEntry (token id q) 7 q "USD") := by
  have hrule : (r.plan (hourly 0) (backlogOf value n)).rule s {} (token id q) = none := by
    change tryRuleEngine r.rules s {} (token id q) = none
    rw [hr]
    rfl
  have hcost : (rateCost s {} cache (token id q) unitPrice).1 = q := by
    change q*1 = q
    exact mul_one q
  simp only [Plan.charge,hrule,rate_token r value n,hcost]
  rfl

theorem unstorable_token {id : Nat} {q : Rat} (hr : r.rules = none) :
    (r.plan (hourly 0) (backlogOf value n)).Unstorable (backlogOf value n) (token id q) ↔
      ¬ Numeric.Fits 18 10 q := by
  rw [Plan.Unstorable,charge_token r value n _ _ id q hr]
  simp only [Option.some.injEq,exists_eq_left']
  rfl

end Samples

/-- A hundred million units of the currency do not fit the column. -/
def poisonAt (k i : Nat) : Rat := if i = k then 100000000 else 5

theorem only_poison_left :
    ∃ n, ∀ me ∈ ((⟨1,by decide,none⟩ : Rater).sweeps hourly (backlogOf (poisonAt 1) 2) (n+1)).queue,
      ((⟨1,by decide,none⟩ : Rater).plan (hourly n) (backlogOf (poisonAt 1) 2)).Unstorable
        (backlogOf (poisonAt 1) 2) me := by
  refine (backlog_rated_iff ⟨1,by decide,none⟩ hourly (backlogOf (poisonAt 1) 2)).mpr ⟨0,fun i me hi hown => ?_⟩
  rw [queue_backlogOf] at hi
  have hlt : i < 2 := (List.getElem?_eq_some_iff.mp hi).1
  match i, hlt with
  | 0, _ =>
    refine ⟨fun _ => 0,monotone_const,fun k hk => ⟨Nat.le_refl 0,?_⟩⟩
    obtain rfl : k = 0 := Nat.le_zero.mp hk
    rw [← Plan.accepts_iff]
    decide +kernel
  | 1, _ =>
    obtain rfl : token 2 100000000 = me := Option.some.inj hi
    exact absurd ((unstorable_token _ (poisonAt 1) 2 rfl).mpr (by decide +kernel)) hown

/-- The entry can be rated, and is not, however often the rater sweeps. -/
def Starves (r : Rater) (s : Store) (me : MeteringEntry) : Prop :=
  ∀ n, ¬ (r.plan (hourly n) s).Unstorable s me ∧ me ∈ (r.sweeps hourly s n).queue

theorem starves_of_rejected {r : Rater} {value : Nat → Rat} {n i : Nat} (hr : r.rules = none) (hi : i < n)
    (hfit : Numeric.Fits 18 10 (value i))
    (hno : ¬ (r.plan (hourly 0) (backlogOf value n)).Storable (backlogOf value n)
      ((backlogOf value n).queue.take r.batch)) :
    Starves r (backlogOf value n) (token (i+1) (value i)) := by
  intro m
  rw [plan_backlogOf]
  refine ⟨fun h => (unstorable_token r value n hr).mp h hfit,(mem_sweeps_queue_iff r _ _ m _).mpr ⟨i,?_,?_⟩⟩
  · simp [queue_backlogOf,hi]
  · rintro ⟨round,-,h⟩
    have hfirst := (h 0 (Nat.zero_le _)).2
    rw [plan_backlogOf] at hfirst
    exact hno hfirst

def bulk : Rater := ⟨6000,by decide,none⟩

def flood : Store := backlogOf (fun _ => 5) 5042

theorem flood_rejected :
    ¬ (bulk.plan (hourly 0) flood).Storable flood (flood.queue.take bulk.batch) := by
  have hqueue : flood.queue = (List.range 5042).map fun i => token (i+1) 5 := queue_backlogOf _ _
  have hall : flood.queue.take bulk.batch = flood.queue := by
    refine List.take_of_length_le ?_
    rw [hqueue,List.length_map,List.length_range]
    decide
  have hpriced : ∀ me ∈ flood.queue, (bulk.plan (hourly 0) flood).priced flood me = true := by
    intro me hme
    rw [hqueue] at hme
    obtain ⟨i,-,rfl⟩ := List.mem_map.mp hme
    rw [Plan.priced,flood,rate_token]
    exact Bool.or_true _
  rintro ⟨hmany,-⟩
  rw [hall,List.countP_eq_length.mpr hpriced,hqueue,List.length_map,List.length_range] at hmany
  exact absurd hmany (by decide)

/-- A cost that does not fit stops the whole batch, and so do more cost entries than
one statement can have parameters for. -/
theorem storable_entries_starve :
    Starves ⟨2000,by decide,none⟩ (backlogOf (poisonAt 0) 2) (token 2 5) ∧ Starves bulk flood (token 1 5) :=
  ⟨starves_of_rejected (i := 1) rfl (by decide) (by decide +kernel)
      (by rw [← Plan.accepts_iff]; decide +kernel),
    starves_of_rejected (i := 0) rfl (by decide) (by decide +kernel) flood_rejected⟩

end CostConsumer.Rating
