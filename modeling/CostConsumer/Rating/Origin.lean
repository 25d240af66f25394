import CostConsumer.Rating.Safety
import CostConsumer.Rating.Lookup
set_option autoImplicit false

/-!
Which rate a cost entry was priced under. The table of rates only grows, so the rate is
still there when a report looks it up; entries of the rule engine have none.
-/

namespace CostConsumer.Rating
open Inventory Foundation

def Priced (rates : List RateRecord) (ce : CostEntry) : Prop :=
  ce.rateID = 0 ∨ ∃ r ∈ rates, ce.rateID = r.id ∧ ce.currency = r.currency

theorem Priced.mono {rates rates' : List RateRecord} {ce : CostEntry} (h : Priced rates ce)
    (hs : rates ⊆ rates') : Priced rates' ce := by
  rcases h with h | ⟨r,hr,hid⟩
  · exact .inl h
  · exact .inr ⟨r,hs hr,hid⟩

def Plan.From (p : Plan) (rates : List RateRecord) : Prop := ∀ me r, p.rate me = some r → r ∈ rates

theorem matchRate_mem {rates : List RateRecord} {tenantID instanceType resourceType meterName : String}
    {r : RateRecord}
    (h : matchRate (buildRateIndex rates) tenantID instanceType resourceType meterName = some r) :
    r ∈ rates := by
  simp only [matchRate,lookup_buildRateIndex,Option.or_eq_some_iff,rateFor] at h
  rcases h with h | ⟨-,h | ⟨-,h | ⟨-,h⟩⟩⟩ <;> exact List.mem_of_find?_eq_some h

theorem Rater.plan_from (r : Rater) (now : Int) (s : Store) : (r.plan now s).From s.rates :=
  fun _ _ h => (Store.mem_allActiveRates.mp (matchRate_mem h)).1

theorem Plan.charge_priced {p : Plan} {rates : List RateRecord} (hp : p.From rates) {s : Store} {f : Faults}
    {cache : PriorUsage} {me : MeteringEntry} {ce : CostEntry}
    (h : (p.charge s f cache me).1 = some ce) : Priced rates ce := by
  unfold charge at h
  cases hr : p.rule s f me with
  | some ce' =>
    simp only [hr,Option.some.injEq] at h
    obtain ⟨output,-,ho⟩ := Option.map_eq_some_iff.mp hr
    rw [← h,← ho]
    exact .inl rfl
  | none =>
    cases hm : p.rate me with
    | none => simp [hr,hm] at h
    | some rate =>
      simp only [hr,hm,Option.some.injEq] at h
      rw [← h]
      exact .inr ⟨rate,hp me rate hm,rfl,rfl⟩

structure Work.From (w : Work) (rates : List RateRecord) : Prop where
  plan : w.plan.From rates
  costs : ∀ ce ∈ w.batch.costEntries, Priced rates ce

theorem Work.From.price {w : Work} {rates : List RateRecord} (h : w.From rates) (s : Store) (f : Faults)
    (me : MeteringEntry) (rest : List MeteringEntry) : (w.price s f me rest).From rates where
  plan := h.plan
  costs ce hce := by
    rcases List.mem_append.mp hce with hce | hce
    · exact h.costs ce hce
    · exact Plan.charge_priced h.plan (Option.mem_toList.mp hce)

def Phase.From (rates : List RateRecord) : Phase → Prop
  | .idle => True
  | .ready p => p.From rates
  | .pricing w => w.From rates
  | .inserted w => w.From rates

theorem Phase.From.mono {rates rates' : List RateRecord} {p : Phase} (h : p.From rates)
    (hs : rates ⊆ rates') : p.From rates' := by
  cases p with
  | idle => trivial
  | ready p => exact fun me r hr => hs (h me r hr)
  | pricing w => exact ⟨fun me r hr => hs (h.plan me r hr),fun ce hce => (h.costs ce hce).mono hs⟩
  | inserted w => exact ⟨fun me r hr => hs (h.plan me r hr),fun ce hce => (h.costs ce hce).mono hs⟩

theorem Work.From.next {w : Work} {rates : List RateRecord} (h : w.From rates) : w.next.From rates := by
  unfold Work.next
  split
  · trivial
  · exact h.plan

/-- A table of rates: ids of a BIGSERIAL column, and the two cost types. -/
structure RatesOK (rates : List RateRecord) : Prop where
  nodup : (rates.map (·.id)).Nodup
  pos : ∀ r ∈ rates, 0 < r.id
  types : ∀ r ∈ rates, r.costType = "Infrastructure" ∨ r.costType = "Supplementary"

/-- `UpsertRate` is the only statement that writes rates, and it inserts. -/
def ratesAdded (s : State) : Label → Prop
  | .alter rates _ _ => s.store.rates ⊆ rates ∧ RatesOK rates
  | _ => True

structure FromRates (s : State) : Prop where
  rates : RatesOK s.store.rates
  stored : ∀ ce ∈ s.store.costEntries, Priced s.store.rates ce
  phase : s.phase.From s.store.rates

theorem FromRates.step {s t : State} {l : Label} (h : FromRates s) (hok : ratesAdded s l)
    (hm : Moves s l t) : FromRates t := by
  have hp := h.phase
  cases hm with
  | alter rates instances tenants =>
    exact ⟨hok.2,fun ce hce => (h.stored ce hce).mono hok.1,hp.mono hok.1⟩
  | begin r now hph => exact ⟨h.rates,h.stored,r.plan_from now s.store⟩
  | fetch hph he =>
    rw [hph] at hp
    exact ⟨h.rates,h.stored,⟨hp,fun _ hce => nomatch hce⟩⟩
  | price f hph ht =>
    rw [hph] at hp
    exact ⟨h.rates,h.stored,Work.From.price hp _ f _ _⟩
  | insertNone failed hph ht hc =>
    rw [hph] at hp
    exact ⟨h.rates,h.stored,hp⟩
  | insert hph ht hc =>
    rw [hph] at hp
    refine ⟨h.rates,fun ce hce => ?_,hp⟩
    rcases List.mem_append.mp hce with hce | hce
    · exact h.stored ce hce
    · exact Work.From.costs hp ce hce
  | markFails now hph =>
    rw [hph] at hp
    exact ⟨h.rates,h.stored,Work.From.next hp⟩
  | mark now hph =>
    rw [hph] at hp
    exact ⟨h.rates,h.stored,Work.From.next hp⟩
  | cancel hph => exact ⟨h.rates,h.stored,trivial⟩
  | fetchNone failed hph => exact ⟨h.rates,h.stored,trivial⟩
  | insertFails failed hph ht hc hf => exact ⟨h.rates,h.stored,trivial⟩
  | crash => exact ⟨h.rates,h.stored,trivial⟩
  | _ => exact ⟨h.rates,h.stored,hp⟩

def Filled (s : Store) : Prop :=
  ∃ t, t.store = s ∧ Reachable step (fun t => initial t ∧ RatesOK t.store.rates) ratesAdded t

theorem Filled.fromRates {s : Store} (h : Filled s) :
    RatesOK s.rates ∧ ∀ ce ∈ s.costEntries, Priced s.rates ce := by
  obtain ⟨t,rfl,ht⟩ := h
  have hinv : FromRates t := ht.invariant
    (fun s hs => ⟨hs.2,by simp [hs.1.2.1],by simp [hs.1.2.2.2.1,Phase.From]⟩)
    (fun s l t hs hok hst => hs.step hok (step_moves hst))
  exact ⟨hinv.rates,hinv.stored⟩

end CostConsumer.Rating
