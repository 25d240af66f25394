import CostConsumer.Rating.Ordered
set_option autoImplicit false

namespace CostConsumer.Rating
open Inventory Foundation

def Copies (es : List MeteringEntry) (c : CostEntry) : Prop :=
  ∃ me ∈ es, ∃ (rateID : Nat) (cost : Rat) (currency : String), c = costEntry me rateID cost currency

theorem Copies.mono {es es' : List MeteringEntry} {c : CostEntry} (h : Copies es c)
    (hs : ∀ me ∈ es, me ∈ es') : Copies es' c := by
  obtain ⟨me,hm,hc⟩ := h
  exact ⟨me,hs me hm,hc⟩

theorem Plan.charge_copies {p : Plan} {s : Store} {f : Faults} {cache : PriorUsage} {me : MeteringEntry}
    {c : CostEntry} (h : (p.charge s f cache me).1 = some c) : Copies [me] c := by
  refine ⟨me,List.mem_singleton_self me,?_⟩
  unfold charge at h
  cases hr : p.rule s f me with
  | some ce =>
    simp only [hr,Option.some.injEq] at h
    obtain ⟨output,-,ho⟩ := Option.map_eq_some_iff.mp hr
    exact ⟨0,output.costAmount,output.currency,h.symm.trans ho.symm⟩
  | none =>
    cases hm : p.rate me with
    | none => simp [hr,hm] at h
    | some rate =>
      simp only [hr,hm,Option.some.injEq] at h
      exact ⟨rate.id,_,rate.currency,h.symm⟩

theorem entries_grow {s t : State} {l : Label} (hi : IdsOK s) (hm : Moves s l t) :
    ∀ e ∈ s.store.entries, e ∈ t.store.entries := by
  intro e he
  cases hm with
  | commit hr =>
    obtain ⟨row,hrow,rfl⟩ := List.mem_map.mp he
    exact List.mem_map_of_mem ((Table.mem_insert (hi.fresh _ hr)).mpr (.inr hrow))
  | mark now hp => rwa [Store.entries_mark]
  | _ => exact he

structure Sourced (s : State) : Prop where
  stored : ∀ c ∈ s.store.costEntries, Copies s.store.entries c
  work : ∀ w, s.phase.work? = some w → ∀ c ∈ w.batch.costEntries, Copies w.entries c

theorem Sourced.of_costs {s t : State} (h : Sourced s) (he : ∀ e ∈ s.store.entries, e ∈ t.store.entries)
    (hc : t.store.costEntries = s.store.costEntries)
    (hw : ∀ w, t.phase.work? = some w → s.phase.work? = some w ∨ w.batch.costEntries = []) :
    Sourced t := by
  refine ⟨fun c hm => (h.stored c (hc ▸ hm)).mono he,fun w hp c hm => ?_⟩
  rcases hw w hp with hp | hn
  · exact h.work w hp c hm
  · rw [hn] at hm
    cases hm

theorem Sourced.step {s t : State} {l : Label} (hi : IdsOK s) (hp : PhaseOK s) (h : Sourced s)
    (hm : Moves s l t) : Sourced t := by
  have he := entries_grow hi hm
  cases hm with
  | fetch hph hne =>
    refine h.of_costs he rfl fun w hw => .inr ?_
    cases hw
    rfl
  | @price w me rest f hph ht =>
    simp only [PhaseOK,hph] at hp
    refine ⟨h.stored,fun v hv c hc => ?_⟩
    cases hv
    have hcosts : (w.price s.store f me rest).batch.costEntries = w.batch.costEntries ++
        (w.plan.charge s.store f w.batch.priorUsageCache me).1.toList := rfl
    rw [hcosts] at hc
    rcases List.mem_append.mp hc with hc | hc
    · exact h.work w (by rw [hph]; rfl) c hc
    · refine (Plan.charge_copies (Option.mem_toList.mp hc)).mono fun e hmem => ?_
      rw [List.mem_singleton.mp hmem]
      change me ∈ w.entries
      rw [hp.split,ht]
      simp
  | @insert w hph ht hc =>
    simp only [PhaseOK,hph] at hp
    have hwork := h.work w (by rw [hph]; rfl)
    refine ⟨fun c hm => ?_,fun v hv => ?_⟩
    · rcases List.mem_append.mp hm with hm | hm
      · exact h.stored c hm
      · exact (hwork c hm).mono fun me hme => hp.mem_entries hme
    · cases hv
      exact hwork
  | insertNone failed hph ht hc =>
    refine h.of_costs he rfl fun w hw => .inl ?_
    rw [hph]
    exact hw
  | markFails now hph =>
    refine h.of_costs he rfl fun w hw => ?_
    simp [State.goto,Work.next_work] at hw
  | mark now hph =>
    refine h.of_costs he rfl fun w hw => ?_
    simp [Work.next_work] at hw
  | begin | cancel | fetchNone | insertFails | crash =>
    exact h.of_costs he rfl fun w hw => by cases hw
  | _ => exact h.of_costs he rfl fun w hw => .inl hw

theorem reachable_sourced {ok : State → Label → Prop} {s : State}
    (h : Reachable step initial ok s) : Sourced s := by
  refine h.invariant_with (fun s hs => reachable_ok hs) ?_
    fun s l t hs _ hq _ hst => hq.step hs.1 hs.2 (step_moves hst)
  rintro s ⟨-,hc,-,hp,-,-⟩
  exact ⟨by simp [hc],by simp [hp,Phase.work?]⟩

end CostConsumer.Rating
