import CostConsumer.Rating.Machine
import CostConsumer.Rating.Backlog
set_option autoImplicit false

namespace CostConsumer.Rating
open Inventory Foundation

structure IdsOK (s : State) : Prop where
  rows : ∀ row ∈ s.store.meteringEntries.rows, row.id < s.nextID
  pending : ∀ row ∈ s.pending, row.id < s.nextID
  unrated : ∀ row ∈ s.pending, row.ratedAt = none
  nodup : (s.pending.map (·.id)).Nodup
  fresh : ∀ row ∈ s.pending, ∀ row' ∈ s.store.meteringEntries.rows, row'.id ≠ row.id

theorem IdsOK.drop {s : State} (h : IdsOK s) (id : Nat) : IdsOK (s.drop id) where
  rows := h.rows
  pending row hr := h.pending row (List.mem_of_mem_filter hr)
  unrated row hr := h.unrated row (List.mem_of_mem_filter hr)
  nodup := h.nodup.sublist (List.filter_sublist.map _)
  fresh row hr := h.fresh row (List.mem_of_mem_filter hr)

theorem IdsOK.commit {s : State} {row : MeteringRow} (h : IdsOK s) (hr : row ∈ s.pending) :
    IdsOK (s.commit row) where
  rows row' hr' := by
    rcases (Table.mem_insert (h.fresh row hr)).mp hr' with rfl | hr'
    · exact h.pending _ hr
    · exact h.rows _ hr'
  pending := (h.drop row.id).pending
  unrated := (h.drop row.id).unrated
  nodup := (h.drop row.id).nodup
  fresh a ha b hb := by
    rcases (Table.mem_insert (h.fresh row hr)).mp hb with rfl | hb
    · intro he
      have hne := List.of_mem_filter ha
      simp [he] at hne
    · exact h.fresh a (List.mem_of_mem_filter ha) b hb

theorem IdsOK.allocate {s : State} (h : IdsOK s) (e : MeteringEntry) : IdsOK (s.allocate e) where
  rows row hr := Nat.lt_succ_of_lt (h.rows row hr)
  pending row hr := by
    rcases List.mem_append.mp hr with hr | hr
    · exact Nat.lt_succ_of_lt (h.pending row hr)
    · cases List.mem_singleton.mp hr
      exact Nat.lt_succ_self _
  unrated row hr := by
    rcases List.mem_append.mp hr with hr | hr
    · exact h.unrated row hr
    · cases List.mem_singleton.mp hr
      rfl
  nodup := by
    simp only [State.allocate,List.map_append,List.map_cons,List.map_nil]
    refine List.nodup_append.mpr ⟨h.nodup,by simp,?_⟩
    intro a ha b hb
    obtain ⟨row,hr,rfl⟩ := List.mem_map.mp ha
    rw [List.mem_singleton.mp hb]
    exact Nat.ne_of_lt (h.pending row hr)
  fresh a ha b hb := by
    rcases List.mem_append.mp ha with ha | ha
    · exact h.fresh a ha b hb
    · cases List.mem_singleton.mp ha
      exact Nat.ne_of_lt (h.rows b hb)

theorem IdsOK.mark {s : State} (h : IdsOK s) (ids : List Nat) (now : Int) {t : State}
    (hs : t.store = s.store.markMeteringEntriesRated ids now) (hn : t.nextID = s.nextID)
    (hp : t.pending = s.pending) : IdsOK t := by
  have hrow : ∀ row ∈ t.store.meteringEntries.rows,
      ∃ row' ∈ s.store.meteringEntries.rows, row'.id = row.id := by
    intro row hr
    rw [hs] at hr
    obtain ⟨row',hr',rfl⟩ := List.mem_map.mp hr
    exact ⟨row',hr',congrArg MeteringEntry.id (Store.markRow_entry ids now row').symm⟩
  refine ⟨?_,hn ▸ hp ▸ h.pending,hp ▸ h.unrated,hp ▸ h.nodup,?_⟩
  · intro row hr
    obtain ⟨row',hr',hid⟩ := hrow row hr
    rw [hn,← hid]
    exact h.rows row' hr'
  · intro a ha b hb
    obtain ⟨b',hb',hid⟩ := hrow b hb
    rw [← hid]
    exact h.fresh a (hp ▸ ha) b' hb'

theorem IdsOK.step {s t : State} {l : Label} (h : IdsOK s) (hm : Moves s l t) : IdsOK t := by
  cases hm with
  | allocate e => exact h.allocate e
  | commit hr => exact h.commit hr
  | abort id => exact h.drop id
  | mark now hp => exact h.mark _ now rfl rfl rfl
  | _ => exact ⟨h.rows,h.pending,h.unrated,h.nodup,h.fresh⟩

def Work.done (w : Work) : List MeteringEntry := w.verdicts.map (·.entry)

/-- A batch in work against the store: its entries are still unrated, and each
entry priced so far has its cost entry or is one that nothing prices. -/
structure WorkOK (s : Store) (w : Work) : Prop where
  split : w.entries = w.done ++ w.todo
  ratedIDs : w.batch.ratedIDs = w.done.map (·.id)
  unrated : ∀ me ∈ w.entries, me ∈ s.queue
  nodup : (w.entries.map (·.id)).Nodup
  costs : ∀ c ∈ w.batch.costEntries, c.meteringEntryID ∈ w.done.map (·.id)
  costs_nodup : (w.batch.costEntries.map (·.meteringEntryID)).Nodup
  verdicts : ∀ v ∈ w.verdicts, v.rule = none ∧ v.rate = none ∨
    ∃ c ∈ w.batch.costEntries, c.meteringEntryID = v.entry.id
  charges : w.batch.costEntries = [] → w.charges = []

theorem WorkOK.start {s : Store} (p : Plan) (n : Nat) :
    WorkOK s (.start p (s.unratedMeteringEntries n)) where
  split := rfl
  ratedIDs := rfl
  unrated _ h := List.mem_of_mem_take h
  nodup := s.queue_nodup.sublist ((List.take_sublist _ _).map _)
  costs := by simp [Work.start]
  costs_nodup := by simp [Work.start]
  verdicts := by simp [Work.start]
  charges _ := rfl

theorem WorkOK.mono {s t : Store} {w : Work} (h : WorkOK s w)
    (hq : ∀ me ∈ s.queue, me ∈ t.queue) : WorkOK t w :=
  { h with unrated := fun me hm => hq me (h.unrated me hm) }

theorem Plan.charge_verdict (p : Plan) (s : Store) (f : Faults) (cache : PriorUsage)
    (me : MeteringEntry) :
    (p.rule s f me = none ∧ p.rate me = none) ∨ ∃ ce, (p.charge s f cache me).1 = some ce := by
  unfold charge
  cases hr : p.rule s f me with
  | some ce => exact .inr ⟨ce,rfl⟩
  | none =>
    cases hm : p.rate me with
    | none => exact .inl ⟨rfl,rfl⟩
    | some rate => exact .inr ⟨_,rfl⟩

theorem Work.charge_costs {w : Work} {s : Store} {f : Faults} {me : MeteringEntry} {c : Charge}
    (h : w.charge s f me = some c) :
    ∃ ce, (w.plan.charge s f w.batch.priorUsageCache me).1 = some ce := by
  unfold charge at h
  cases hw : w.plan.window s f me with
  | none => simp [hw] at h
  | some rw =>
    obtain ⟨rate,window⟩ := rw
    rw [Plan.charge_of_window hw]
    exact ⟨_,rfl⟩

theorem WorkOK.price {s : Store} {w : Work} {me : MeteringEntry} {rest : List MeteringEntry}
    (h : WorkOK s w) (ht : w.todo = me :: rest) (f : Faults) : WorkOK s (w.price s f me rest) := by
  have hdone : (w.price s f me rest).done = w.done ++ [me] := by simp [Work.done,Work.price]
  have hsplit := h.split
  rw [ht] at hsplit
  have hme : me.id ∉ w.done.map (·.id) := by
    have hn := h.nodup
    rw [hsplit,List.map_append,List.map_cons,List.nodup_middle,List.nodup_cons] at hn
    exact fun hm => hn.1 (List.mem_append_left _ hm)
  have hcosts : (w.price s f me rest).batch.costEntries = w.batch.costEntries ++
      (w.plan.charge s f w.batch.priorUsageCache me).1.toList := rfl
  refine ⟨?_,?_,h.unrated,h.nodup,?_,?_,?_,?_⟩
  · rw [hdone]
    simpa [Work.price] using hsplit
  · rw [hdone]
    simp [Work.price,Plan.rateEntry,h.ratedIDs]
  · intro c hc
    rw [hcosts] at hc
    rw [hdone,List.map_append]
    rcases List.mem_append.mp hc with hc | hc
    · exact List.mem_append_left _ (h.costs c hc)
    · rw [w.plan.charge_id s f (Option.mem_toList.mp hc)]
      simp
  · rw [hcosts]
    cases hce : (w.plan.charge s f w.batch.priorUsageCache me).1 with
    | none => simpa using h.costs_nodup
    | some ce =>
      have hid := w.plan.charge_id s f hce
      rw [Option.toList_some,List.map_append,List.nodup_append]
      refine ⟨h.costs_nodup,by simp,?_⟩
      intro a ha b hb
      obtain ⟨c,hc,rfl⟩ := List.mem_map.mp ha
      rw [List.map_singleton,List.mem_singleton] at hb
      rw [hb,hid]
      exact fun he => hme (he ▸ h.costs c hc)
  · intro v hv
    rw [hcosts]
    rcases List.mem_append.mp hv with hv | hv
    · rcases h.verdicts v hv with hn | ⟨c,hc,hid⟩
      · exact .inl hn
      · exact .inr ⟨c,List.mem_append_left _ hc,hid⟩
    · cases List.mem_singleton.mp hv
      rcases w.plan.charge_verdict s f w.batch.priorUsageCache me with hn | ⟨ce,hce⟩
      · exact .inl hn
      · exact .inr ⟨ce,List.mem_append_right _ (by simp [hce]),w.plan.charge_id s f hce⟩
  · intro hnil
    rw [hcosts,List.append_eq_nil_iff] at hnil
    have hc : w.charge s f me = none := by
      cases hc : w.charge s f me with
      | none => rfl
      | some c =>
        obtain ⟨ce,hce⟩ := Work.charge_costs hc
        simp [hce] at hnil
    simp [Work.price,h.charges hnil.1,hc]

def PhaseOK (s : State) : Prop :=
  match s.phase with
  | .idle => True
  | .ready _ => True
  | .pricing w => WorkOK s.store w
  | .inserted w => WorkOK s.store w ∧ w.todo = [] ∧
      ∀ c ∈ w.batch.costEntries, c ∈ s.store.costEntries

theorem queue_commit {s : State} {row : MeteringRow} (hi : IdsOK s) (hr : row ∈ s.pending) :
    ∀ me ∈ s.store.queue, me ∈ (s.commit row).store.queue := by
  intro me hm
  obtain ⟨row',hr',hn,he⟩ := (mem_queue_iff _ me).mp hm
  exact (mem_queue_iff _ me).mpr ⟨row',(Table.mem_insert (hi.fresh row hr)).mpr (.inr hr'),hn,he⟩

theorem PhaseOK.of_store {s t : State} (h : PhaseOK s) (hp : t.phase = s.phase)
    (hq : ∀ me ∈ s.store.queue, me ∈ t.store.queue)
    (hc : t.store.costEntries = s.store.costEntries) : PhaseOK t := by
  unfold PhaseOK at *
  rw [hp]
  cases hs : s.phase with
  | idle => trivial
  | ready p => trivial
  | pricing w =>
    simp only [hs] at h ⊢
    exact h.mono hq
  | inserted w =>
    simp only [hs] at h ⊢
    exact ⟨h.1.mono hq,h.2.1,hc ▸ h.2.2⟩

theorem Work.next_ok {t : State} {w : Work} (hp : t.phase = w.next) : PhaseOK t := by
  unfold PhaseOK
  rw [hp]
  unfold next
  split
  · rename_i h; split at h <;> trivial
  · rename_i h; split at h <;> trivial
  · rename_i h; split at h <;> cases h
  · rename_i h; split at h <;> cases h

theorem PhaseOK.step {s t : State} {l : Label} (hi : IdsOK s) (h : PhaseOK s)
    (hm : Moves s l t) : PhaseOK t := by
  cases hm with
  | allocate e => exact h.of_store rfl (fun _ h => h) rfl
  | commit hr => exact h.of_store rfl (queue_commit hi hr) rfl
  | abort id => exact h.of_store rfl (fun _ h => h) rfl
  | alter rates instances tenants => exact h.of_store rfl (fun _ h => h) rfl
  | beginFails r now => exact h
  | begin r now hp => trivial
  | cancel hp => trivial
  | fetchNone failed hp => trivial
  | fetch hp he => exact WorkOK.start _ _
  | price f hp ht =>
    simp only [PhaseOK,hp] at h
    exact h.price ht f
  | insertNone failed hp ht hc =>
    simp only [PhaseOK,hp] at h
    exact ⟨h,ht,by simp [hc]⟩
  | insertFails failed hp ht hc hf => trivial
  | insert hp ht hc =>
    simp only [PhaseOK,hp] at h
    exact ⟨h.mono (fun _ h => h),ht,fun c hc => List.mem_append_right _ hc⟩
  | markFails now hp => exact Work.next_ok rfl
  | mark now hp => exact Work.next_ok rfl
  | crash => trivial

theorem reachable_ok {ok : State → Label → Prop} {s : State}
    (h : Reachable step initial ok s) : IdsOK s ∧ PhaseOK s := by
  refine h.invariant (P := fun s => IdsOK s ∧ PhaseOK s) ?_ ?_
  · rintro s ⟨hr,-,hp,hi,-,-⟩
    refine ⟨⟨by simp [hr],by simp [hp],by simp [hp],by simp [hp],by simp [hp]⟩,?_⟩
    simp [PhaseOK,hi]
  · intro s l t hs _ hst
    exact ⟨hs.1.step (step_moves hst),hs.2.step hs.1 (step_moves hst)⟩

theorem WorkOK.entry_eq {s : Store} {w : Work} (h : WorkOK s w) {v : Verdict} {row : MeteringRow}
    (hv : v ∈ w.verdicts) (hr : row ∈ s.meteringEntries.rows) (hid : v.entry.id = row.id) :
    v.entry = row.toMeteringEntry := by
  have hm : v.entry ∈ w.entries := by
    rw [h.split]
    exact List.mem_append_left _ (List.mem_map_of_mem hv)
  obtain ⟨row',hr',-,he⟩ := (mem_queue_iff _ _).mp (h.unrated _ hm)
  have hrow : row' = row := by
    apply Table.key_injective hr' hr
    rw [he,hid]
  rw [← he,hrow]

/-- A rated entry has a cost entry, or the sweep that marked it found neither a
rule result nor a rate. -/
def Accounted (s : State) : Prop :=
  ∀ row ∈ s.store.meteringEntries.rows, row.ratedAt ≠ none →
    (∃ c ∈ s.store.costEntries, c.meteringEntryID = row.id) ∨
    ∃ v ∈ s.marked, v.entry = row.toMeteringEntry ∧ v.rule = none ∧ v.rate = none

theorem Accounted.mark {s : State} {w : Work} (h : Accounted s) (hw : WorkOK s.store w)
    (hc : ∀ c ∈ w.batch.costEntries, c ∈ s.store.costEntries) (now : Int) (phase : Phase) :
    Accounted { s with
      store := s.store.markMeteringEntriesRated w.batch.ratedIDs now,
      phase := phase,
      marked := s.marked ++ w.verdicts } := by
  intro row hr hrated
  obtain ⟨row',hr',rfl⟩ := List.mem_map.mp hr
  rw [Store.markRow_entry]
  by_cases hid : row'.id ∈ w.batch.ratedIDs
  · rw [hw.ratedIDs,Work.done,List.map_map] at hid
    obtain ⟨v,hv,hvid⟩ := List.mem_map.mp hid
    rcases hw.verdicts v hv with hnone | ⟨c,hcm,hcid⟩
    · exact .inr ⟨v,List.mem_append_right _ hv,hw.entry_eq hv hr' hvid,hnone⟩
    · exact .inl ⟨c,hc c hcm,hcid.trans hvid⟩
  · simp only [Store.markRow,hid,if_false] at hrated
    rcases h row' hr' hrated with hcost | ⟨v,hv,he⟩
    · exact .inl hcost
    · exact .inr ⟨v,List.mem_append_left _ hv,he⟩

theorem Accounted.step {s t : State} {l : Label} (hi : IdsOK s) (hp : PhaseOK s)
    (h : Accounted s) (hm : Moves s l t) : Accounted t := by
  cases hm with
  | commit hr =>
    intro row hrow hrated
    rcases (Table.mem_insert (hi.fresh _ hr)).mp hrow with rfl | hrow
    · exact absurd (hi.unrated _ hr) hrated
    · exact h row hrow hrated
  | insert hph ht hc =>
    intro row hrow hrated
    rcases h row hrow hrated with ⟨c,hcm,hid⟩ | hv
    · exact .inl ⟨c,List.mem_append_left _ hcm,hid⟩
    · exact .inr hv
  | mark now hph =>
    simp only [PhaseOK,hph] at hp
    exact h.mark hp.1 hp.2.2 now _
  | _ => exact h

/-- No usage is dropped without a trace, whatever fails and wherever the process
crashes. -/
theorem rated_entries_accounted {s : State} (h : Reachable step initial anyStep s) :
    ∀ row ∈ s.store.meteringEntries.rows, row.ratedAt ≠ none →
      (∃ c ∈ s.store.costEntries, c.meteringEntryID = row.id) ∨
      ∃ v ∈ s.marked, v.entry = row.toMeteringEntry ∧ v.rule = none ∧ v.rate = none := by
  have hinv := h.invariant_with (Q := Accounted) (fun s hs => reachable_ok hs)
    (fun s hs row hr => by simp [hs.1] at hr)
    (fun s l t hs _ hq _ hst => hq.step hs.1 hs.2 (step_moves hst))
  exact hinv

def Settled (s : State) (c : CostEntry) : Prop :=
  ∃ row ∈ s.store.meteringEntries.rows, row.id = c.meteringEntryID ∧
    (row.ratedAt ≠ none ∨ ∃ w, s.phase = .inserted w ∧ c ∈ w.batch.costEntries)

/-- Every mark of charged entries takes effect: it does not fail, and the process
does not crash before it. -/
def marksHold (s : State) (l : Label) : Bool :=
  match l, s.phase with
  | .mark true _, .inserted w => w.batch.costEntries = []
  | .crash, .inserted w => w.batch.costEntries = []
  | _, _ => true

structure ChargedOnce (s : State) : Prop where
  nodup : (s.store.costEntries.map (·.meteringEntryID)).Nodup
  settled : ∀ c ∈ s.store.costEntries, Settled s c

theorem Settled.goto {s : State} {c : CostEntry} (h : Settled s c) {phase : Phase}
    (hp : ∀ w, s.phase = .inserted w → w.batch.costEntries = []) : Settled (s.goto phase) c := by
  obtain ⟨row,hr,hid,hrated | ⟨w,hw,hc⟩⟩ := h
  · exact ⟨row,hr,hid,.inl hrated⟩
  · simp [hp w hw] at hc

theorem ChargedOnce.goto {s : State} (h : ChargedOnce s) {phase : Phase}
    (hp : ∀ w, s.phase = .inserted w → w.batch.costEntries = []) : ChargedOnce (s.goto phase) :=
  ⟨h.nodup,fun c hc => (h.settled c hc).goto hp⟩

theorem ChargedOnce.fresh {s : State} {w : Work} (h : ChargedOnce s) (hw : WorkOK s.store w)
    (hp : s.phase = .pricing w) {c : CostEntry} (hc : c ∈ s.store.costEntries) :
    c.meteringEntryID ∉ w.done.map (·.id) := by
  intro hid
  obtain ⟨row,hr,hrid,hrated⟩ := h.settled c hc
  obtain ⟨me,hme,hmid⟩ := List.mem_map.mp hid
  have hq : me ∈ s.store.queue := by
    apply hw.unrated
    rw [hw.split]
    exact List.mem_append_left _ hme
  obtain ⟨row',hr',hn,he⟩ := (mem_queue_iff _ _).mp hq
  have hrow : row' = row := by
    apply Table.key_injective hr' hr
    rw [he,hmid,hrid]
  rcases hrated with hrated | ⟨w',hw',-⟩
  · exact hrated (hrow ▸ hn)
  · rw [hp] at hw'
    cases hw'

theorem ChargedOnce.insert {s : State} {w : Work} (h : ChargedOnce s) (hw : WorkOK s.store w)
    (hp : s.phase = .pricing w) :
    ChargedOnce { s with
      store := s.store.addCosts w.batch.costEntries,
      phase := .inserted w,
      charged := s.charged ++ w.charges } := by
  refine ⟨?_,?_⟩
  · simp only [Store.addCosts,List.map_append]
    rw [List.nodup_append]
    refine ⟨h.nodup,hw.costs_nodup,?_⟩
    intro a ha b hb hab
    obtain ⟨c,hc,rfl⟩ := List.mem_map.mp ha
    obtain ⟨c',hc',rfl⟩ := List.mem_map.mp hb
    exact h.fresh hw hp hc (hab ▸ hw.costs c' hc')
  · intro c hc
    rcases List.mem_append.mp hc with hc | hc
    · obtain ⟨row,hr,hid,hrated | ⟨w',hw',-⟩⟩ := h.settled c hc
      · exact ⟨row,hr,hid,.inl hrated⟩
      · rw [hp] at hw'
        cases hw'
    · obtain ⟨me,hme,hmid⟩ := List.mem_map.mp (hw.costs c hc)
      have hq : me ∈ s.store.queue := by
        apply hw.unrated
        rw [hw.split]
        exact List.mem_append_left _ hme
      obtain ⟨row,hr,-,he⟩ := (mem_queue_iff _ _).mp hq
      exact ⟨row,hr,by rw [he,hmid],.inr ⟨w,rfl,hc⟩⟩

theorem ChargedOnce.mark {s : State} {w : Work} (h : ChargedOnce s) (hw : WorkOK s.store w)
    (hp : s.phase = .inserted w) (now : Int) (phase : Phase) :
    ChargedOnce { s with
      store := s.store.markMeteringEntriesRated w.batch.ratedIDs now,
      phase := phase,
      marked := s.marked ++ w.verdicts } := by
  refine ⟨h.nodup,?_⟩
  intro c hc
  obtain ⟨row,hr,hid,hrated⟩ := h.settled c hc
  refine ⟨Store.markRow w.batch.ratedIDs now row,List.mem_map_of_mem hr,?_,.inl ?_⟩
  · rw [Store.markRow_entry,hid]
  · by_cases hm : row.id ∈ w.batch.ratedIDs
    · simp [Store.markRow,hm]
    · rcases hrated with hrated | ⟨w',hw',hcm⟩
      · simpa [Store.markRow,hm] using hrated
      · rw [hp] at hw'
        cases hw'
        rw [hw.ratedIDs,hid] at hm
        exact absurd (hw.costs c hcm) hm

theorem ChargedOnce.step {s t : State} {l : Label} (hi : IdsOK s) (hp : PhaseOK s)
    (h : ChargedOnce s) (hok : marksHold s l = true) (hm : Moves s l t) : ChargedOnce t := by
  cases hm with
  | allocate e => exact ⟨h.nodup,h.settled⟩
  | commit hr =>
    refine ⟨h.nodup,fun c hc => ?_⟩
    obtain ⟨row,hrow,hid,hrated⟩ := h.settled c hc
    exact ⟨row,(Table.mem_insert (hi.fresh _ hr)).mpr (.inr hrow),hid,hrated⟩
  | abort id => exact ⟨h.nodup,h.settled⟩
  | alter rates instances tenants => exact ⟨h.nodup,h.settled⟩
  | beginFails r now => exact h
  | begin r now hph => exact h.goto (by simp [hph])
  | cancel hph => exact h.goto (by simp [hph])
  | fetchNone failed hph => exact h.goto (by simp [hph])
  | fetch hph he => exact h.goto (by simp [hph])
  | price f hph ht => exact h.goto (by simp [hph])
  | insertNone failed hph ht hc => exact h.goto (by simp [hph])
  | insertFails failed hph ht hc hf => exact h.goto (by simp [hph])
  | insert hph ht hc =>
    simp only [PhaseOK,hph] at hp
    exact h.insert hp hph
  | markFails now hph =>
    simp only [marksHold,hph,decide_eq_true_eq] at hok
    exact h.goto (fun w' hw' => by rw [hph] at hw'; cases hw'; exact hok)
  | mark now hph =>
    simp only [PhaseOK,hph] at hp
    exact h.mark hp.1 hph now _
  | crash =>
    refine h.goto (fun w hw => ?_)
    simpa only [marksHold,hw,decide_eq_true_eq] using hok

theorem reachable_chargedOnce {ok : State → Label → Prop} (hok : ∀ s l, ok s l → marksHold s l = true)
    {s : State} (h : Reachable step initial ok s) : ChargedOnce s := by
  refine h.invariant_with (Q := ChargedOnce) (fun s hs => reachable_ok hs) ?_ ?_
  · rintro s ⟨-,hc,-,-,-,-⟩
    exact ⟨by simp [hc],by simp [hc]⟩
  · intro s l t hs _ hq hl hst
    exact hq.step hs.1 hs.2 (hok s l hl) (step_moves hst)

/-- As long as every mark of charged entries takes effect, no metering entry has
more than one cost entry. -/
theorem at_most_one_charge {s : State} (h : Reachable step initial (fun s l => marksHold s l = true) s)
    (id : Nat) :
    (s.store.costEntries.filter (fun c => c.meteringEntryID = id)).length ≤ 1 := by
  have hn := (reachable_chargedOnce (fun _ _ h => h) h).nodup
  have hc := List.nodup_iff_count_le_one.mp hn id
  rw [List.count,List.countP_map,List.countP_eq_length_filter] at hc
  exact hc

def opening : State := ⟨{ rates := [freeTier] },1,[],.idle,[],[]⟩

def smallRater : Rater := ⟨2,by decide,none⟩

def firstCharge : List Label :=
  [.allocate (tokens 0 150 (february + hours 1) (february + hours 2)),.commit 1,
    .begin smallRater february false,.fetch false,.price {},.insert false]

theorem rated_entry_accounted_in_run :
    ∃ s, Reachable step initial anyStep s ∧
      (∃ row ∈ s.store.meteringEntries.rows, row.ratedAt ≠ none) ∧
      ∀ row ∈ s.store.meteringEntries.rows, row.ratedAt ≠ none →
        (∃ c ∈ s.store.costEntries, c.meteringEntryID = row.id) ∨
        ∃ v ∈ s.marked, v.entry = row.toMeteringEntry ∧ v.rule = none ∧ v.rate = none := by
  obtain ⟨s,hs,hp⟩ := Reachable.exists_of_run step initial opening
    (firstCharge ++ [.mark false february])
    (fun s => ∃ row ∈ s.store.meteringEntries.rows, row.ratedAt ≠ none)
    ⟨rfl,rfl,rfl,rfl,rfl,rfl⟩ (by decide +kernel)
  exact ⟨s,hs,hp,rated_entries_accounted hs⟩

/-- The mark fails after the charge was written, and the next sweep charges the
entry again. -/
theorem charged_twice :
    ∃ s, Reachable step initial anyStep s ∧
      (s.store.costEntries.filter (fun c => c.meteringEntryID = 1)).length = 2 :=
  Reachable.exists_of_run step initial opening
    (firstCharge ++ [.mark true february,.begin smallRater february false,.fetch false,
      .price {},.insert false]) _ ⟨rfl,rfl,rfl,rfl,rfl,rfl⟩ (by decide +kernel)

theorem charged_once_in_run :
    ∃ s, Reachable step initial (fun s l => marksHold s l = true) s ∧ s.store.costEntries ≠ [] ∧
      (s.store.costEntries.filter (fun c => c.meteringEntryID = 1)).length ≤ 1 := by
  obtain ⟨s,hs,hp⟩ := Reachable.exists_of_checked step initial marksHold opening
    (firstCharge ++ [.mark false february]) (fun s => s.store.costEntries ≠ [])
    (fun _ _ h => h)
    ⟨rfl,rfl,rfl,rfl,rfl,rfl⟩ (by decide +kernel)
  exact ⟨s,hs,hp,at_most_one_charge hs 1⟩

end CostConsumer.Rating
