import CostConsumer.Rating.Pricing
set_option autoImplicit false

namespace CostConsumer.Rating
open Inventory

structure Rater where
  batch : Nat
  batch_pos : 0 < batch
  rules : Option RuleEngine

def Rater.new (batchSize : Int) (rules : Option RuleEngine) : Rater :=
  if h : batchSize ≤ 0 then ⟨2000,by decide,rules⟩ else ⟨batchSize.toNat,by omega,rules⟩

structure Plan extends Rater where
  rateIndex : RateIndex

def Rater.plan (r : Rater) (now : Int) (s : Store) : Plan :=
  { r with rateIndex := buildRateIndex (s.allActiveRates now) }

structure Batch where
  priorUsageCache : PriorUsage := fun _ => none
  costEntries : List CostEntry := []
  ratedIDs : List Nat := []

def Plan.rule (p : Plan) (s : Store) (f : Faults) (me : MeteringEntry) : Option CostEntry :=
  tryRuleEngine p.rules s f me

def Plan.rate (p : Plan) (me : MeteringEntry) : Option RateRecord :=
  matchRate p.rateIndex me.tenantID me.instanceType me.resourceType me.meterName

def Plan.charge (p : Plan) (s : Store) (f : Faults) (cache : PriorUsage) (me : MeteringEntry) :
    Option CostEntry × PriorUsage :=
  match p.rule s f me with
  | some ce => (some ce,cache)
  | none =>
    match p.rate me with
    | none => (none,cache)
    | some rate =>
      let (cost,cache) := rateCost s f cache me rate
      (some (costEntry me rate.id cost rate.currency),cache)

def Plan.window (p : Plan) (s : Store) (f : Faults) (me : MeteringEntry) :
    Option (RateRecord × (Int × Int)) :=
  match p.rule s f me with
  | some _ => none
  | none => (p.rate me).bind (fun rate => (cumulativeWindow rate me).map (fun w => (rate,w)))

theorem Plan.window_ok {p : Plan} {s : Store} {f : Faults} {me : MeteringEntry} {rate : RateRecord}
    {w : Int × Int} (h : p.window s f me = some (rate,w)) :
    p.rule s f me = none ∧ p.rate me = some rate ∧ cumulativeWindow rate me = some w := by
  unfold window at h
  cases hr : p.rule s f me with
  | some ce => simp [hr] at h
  | none =>
    cases hm : p.rate me with
    | none => simp [hr,hm] at h
    | some rate' =>
      cases hw : cumulativeWindow rate' me with
      | none => simp [hr,hm,hw] at h
      | some w' =>
        simp only [hr,hm,hw,Option.bind_some,Option.map_some,Option.some.injEq,
          Prod.mk.injEq] at h
        obtain ⟨rfl,rfl⟩ := h
        exact ⟨rfl,rfl,hw⟩

theorem Plan.charge_of_window {p : Plan} {s : Store} {f : Faults} {me : MeteringEntry}
    {rate : RateRecord} {w : Int × Int} (h : p.window s f me = some (rate,w)) (cache : PriorUsage) :
    p.charge s f cache me =
      (some (costEntry me rate.id
        (applyRateCumulative me.value (priorUsage s f cache me rate w) rate) rate.currency),
      Function.update cache (accumKey me rate)
        (some (priorUsage s f cache me rate w + me.value))) := by
  obtain ⟨hr,hm,hw⟩ := window_ok h
  simp [charge,hr,hm,rateCost,hw]

theorem Plan.charge_of_not_window {p : Plan} {s : Store} {f : Faults} {me : MeteringEntry}
    (h : p.window s f me = none) (cache cache' : PriorUsage) :
    (p.charge s f cache me).1 = (p.charge s f cache' me).1 ∧ (p.charge s f cache me).2 = cache := by
  unfold window at h
  cases hr : p.rule s f me with
  | some ce => simp [charge,hr]
  | none =>
    cases hm : p.rate me with
    | none => simp [charge,hr,hm]
    | some rate =>
      cases hw : cumulativeWindow rate me with
      | none => simp [charge,hr,hm,rateCost,hw]
      | some w => simp [hr,hm,hw] at h

/-- One round of the loop over a batch. An entry that nothing prices is only
marked. -/
def Plan.rateEntry (p : Plan) (s : Store) (f : Faults) (b : Batch) (me : MeteringEntry) : Batch :=
  let (ce,cache) := p.charge s f b.priorUsageCache me
  { priorUsageCache := cache,
    costEntries := b.costEntries ++ ce.toList,
    ratedIDs := b.ratedIDs ++ [me.id] }

def Plan.rateBatch (p : Plan) (s : Store) (entries : List MeteringEntry) : Batch :=
  entries.foldl (p.rateEntry s {}) {}

/-- The drain loop when no query fails. It ends on an empty queue, on a short
batch and on an insert PostgreSQL rejects. -/
def Plan.drain (p : Plan) (now : Int) : Nat → Store → Store
  | 0, s => s
  | fuel+1, s =>
    let entries := s.unratedMeteringEntries p.batch
    if entries = [] then s
    else
      let b := p.rateBatch s entries
      match s.insertCostEntryBatch b.costEntries with
      | .error _ => s
      | .ok s =>
        let s := s.markMeteringEntriesRated b.ratedIDs now
        if entries.length < p.batch then s else p.drain now fuel s

def unratedCount (s : Store) : Nat := s.meteringEntries.rows.countP (fun r => r.ratedAt.isNone)

/-- Every full round marks at least one entry, so one round more than there are
unrated entries is enough. Housekeeping after the loop leaves these tables be. -/
def Rater.sweep (r : Rater) (now : Int) (s : Store) : Store :=
  (r.plan now s).drain now (unratedCount s + 1) s

end CostConsumer.Rating
