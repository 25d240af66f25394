import CostConsumer.Rating.Safety
set_option autoImplicit false

namespace CostConsumer.Rating
open Inventory Foundation

def ratedEntries (s : Store) : List MeteringEntry :=
  (s.meteringEntries.rows.filter (fun r => r.ratedAt.isSome)).map (·.toMeteringEntry)

def inOrder (s : State) (l : Label) : Bool :=
  match l with
  | .commit id => s.store.meteringEntries.rows.all (fun row => row.id < id)
  | _ => true

def Phase.work? : Phase → Option Work
  | .idle => none
  | .ready _ => none
  | .pricing w => some w
  | .inserted w => some w

structure Layout (s : State) : Prop where
  rows : ∃ rated unrated, s.store.meteringEntries.rows = rated ++ unrated ∧
    (∀ row ∈ rated, row.ratedAt.isSome = true) ∧ ∀ row ∈ unrated, row.ratedAt.isNone = true
  work : ∀ w, s.phase.work? = some w → ∃ later, s.store.queue = w.entries ++ later

theorem ratedEntries_append {s : Store} {rated unrated : List MeteringRow}
    (h : s.meteringEntries.rows = rated ++ unrated)
    (hr : ∀ row ∈ rated, row.ratedAt.isSome = true)
    (hu : ∀ row ∈ unrated, row.ratedAt.isNone = true) :
    ratedEntries s = rated.map (·.toMeteringEntry) ∧ s.queue = unrated.map (·.toMeteringEntry) := by
  have h₁ : rated.filter (fun r => r.ratedAt.isSome) = rated := List.filter_eq_self.mpr hr
  have h₂ : unrated.filter (fun r => r.ratedAt.isNone) = unrated := List.filter_eq_self.mpr hu
  have h₃ : unrated.filter (fun r => r.ratedAt.isSome) = [] := by
    rw [List.filter_eq_nil_iff]
    intro row hrow
    simpa using hu row hrow
  have h₄ : rated.filter (fun r => r.ratedAt.isNone) = [] := by
    rw [List.filter_eq_nil_iff]
    intro row hrow hnone
    have hsome := hr row hrow
    rw [Option.isNone_iff_eq_none] at hnone
    simp [hnone] at hsome
  unfold ratedEntries Store.queue
  rw [h,List.filter_append,List.filter_append,h₁,h₂,h₃,h₄]
  simp

theorem Layout.entries {s : State} (h : Layout s) :
    s.store.entries = ratedEntries s.store ++ s.store.queue := by
  obtain ⟨rated,unrated,hrows,hr,hu⟩ := h.rows
  obtain ⟨h₁,h₂⟩ := ratedEntries_append hrows hr hu
  rw [h₁,h₂,Store.entries,hrows,List.map_append]

theorem entries_sorted (s : Store) : s.entries.Pairwise (fun a b => a.id < b.id) := by
  unfold Store.entries
  rw [List.pairwise_map]
  exact s.meteringEntries.sorted

/-- The entries before the next one to be priced are the rated ones and those of
the batch that were priced before it. -/
theorem Layout.before {s : State} (h : Layout s) {w : Work} (hp : s.phase.work? = some w)
    (hw : WorkOK s.store w) {me : MeteringEntry} {rest : List MeteringEntry}
    (ht : w.todo = me :: rest) :
    s.store.entries.filter (fun e => e.id < me.id) = ratedEntries s.store ++ w.done := by
  obtain ⟨later,hq⟩ := h.work w hp
  have he : s.store.entries = (ratedEntries s.store ++ w.done) ++ me :: (rest ++ later) := by
    rw [h.entries,hq,hw.split,ht]
    simp
  have hs := entries_sorted s.store
  rw [he] at hs ⊢
  exact Table.filter_lt_key hs

theorem markRow_isSome {ids : List Nat} {now : Int} {row : MeteringRow}
    (h : row.ratedAt.isSome = true ∨ row.id ∈ ids) :
    (Store.markRow ids now row).ratedAt.isSome = true := by
  by_cases hid : row.id ∈ ids
  · simp [Store.markRow,hid]
  · simpa [Store.markRow,hid] using h

theorem Layout.mark {s t : State} (h : Layout s) {w : Work} (hp : s.phase.work? = some w)
    (hw : WorkOK s.store w) (ht : w.todo = []) {now : Int}
    (hs : t.store = s.store.markMeteringEntriesRated w.batch.ratedIDs now)
    (hn : t.phase.work? = none) :
    Layout t ∧ ratedEntries t.store = ratedEntries s.store ++ w.done := by
  obtain ⟨rated,unrated,hrows,hr,hu⟩ := h.rows
  obtain ⟨hre,hqe⟩ := ratedEntries_append hrows hr hu
  obtain ⟨later,hq⟩ := h.work w hp
  rw [hqe] at hq
  obtain ⟨batch,rest,rfl,hb,hl⟩ := List.map_eq_append_iff.mp hq
  have hdone : w.entries = w.done := by rw [hw.split,ht,List.append_nil]
  have hids : w.batch.ratedIDs = batch.map (·.id) := by
    rw [hw.ratedIDs,← hdone,← hb,List.map_map]
    rfl
  have hrows' : t.store.meteringEntries.rows =
      (rated ++ batch).map (Store.markRow w.batch.ratedIDs now) ++
        rest.map (Store.markRow w.batch.ratedIDs now) := by
    rw [hs,← List.map_append,List.append_assoc,← hrows]
    rfl
  have hrated : ∀ row ∈ (rated ++ batch).map (Store.markRow w.batch.ratedIDs now),
      row.ratedAt.isSome = true := by
    intro row hrow
    obtain ⟨row',hrow',rfl⟩ := List.mem_map.mp hrow
    apply markRow_isSome
    rcases List.mem_append.mp hrow' with h' | h'
    · exact .inl (hr row' h')
    · exact .inr (hids ▸ List.mem_map_of_mem h')
  have hrest : ∀ row ∈ rest.map (Store.markRow w.batch.ratedIDs now),
      row.ratedAt.isNone = true := by
    intro row hrow
    obtain ⟨row',hrow',rfl⟩ := List.mem_map.mp hrow
    have hnot : row'.id ∉ w.batch.ratedIDs := by
      have hsorted := s.store.meteringEntries.sorted
      rw [hrows,← List.append_assoc] at hsorted
      obtain ⟨-,-,hlt⟩ := List.pairwise_append.mp hsorted
      rw [hids]
      intro hm
      obtain ⟨row'',hrow'',hid⟩ := List.mem_map.mp hm
      exact (hlt row'' (List.mem_append_right _ hrow'') row' hrow').ne hid
    simpa [Store.markRow,hnot] using hu row' (List.mem_append_right _ hrow')
  refine ⟨⟨⟨_,_,hrows',hrated,hrest⟩,by simp [hn]⟩,?_⟩
  rw [(ratedEntries_append hrows' hrated hrest).1,hre,← hdone,← hb,← List.map_append,List.map_map]
  exact List.map_congr_left (fun row _ => Store.markRow_entry _ _ row)

theorem Layout.of_store {s t : State} (h : Layout s)
    (hr : t.store.meteringEntries = s.store.meteringEntries)
    (hw : ∀ w, t.phase.work? = some w → s.phase.work? = some w ∨
      ∃ later, s.store.queue = w.entries ++ later) : Layout t := by
  refine ⟨hr ▸ h.rows,fun w hp => ?_⟩
  have hq : t.store.queue = s.store.queue := by
    unfold Store.queue
    rw [hr]
  rw [hq]
  rcases hw w hp with hp | hl
  · exact h.work w hp
  · exact hl

theorem Work.next_work (w : Work) : w.next.work? = none := by
  unfold next
  split <;> rfl

theorem Layout.commit {s : State} {row : MeteringRow} (hi : IdsOK s) (h : Layout s)
    (hr : row ∈ s.pending) (hok : inOrder s (.commit row.id) = true) :
    Layout (s.commit row) ∧ (s.commit row).store.entries = s.store.entries ++ [row.toMeteringEntry] ∧
      ratedEntries (s.commit row).store = ratedEntries s.store := by
  obtain ⟨rated,unrated,hrows,hrt,hu⟩ := h.rows
  have hlast : (s.commit row).store.meteringEntries.rows = rated ++ (unrated ++ [row]) := by
    rw [← List.append_assoc,← hrows]
    exact Table.insert_last (by simpa [inOrder] using hok)
  have hu' : ∀ row' ∈ unrated ++ [row], row'.ratedAt.isNone = true := by
    intro row' hrow'
    rcases List.mem_append.mp hrow' with hrow' | hrow'
    · exact hu row' hrow'
    · rw [List.mem_singleton.mp hrow',hi.unrated row hr]
      rfl
  obtain ⟨h₁,h₂⟩ := ratedEntries_append hrows hrt hu
  obtain ⟨h₃,h₄⟩ := ratedEntries_append hlast hrt hu'
  refine ⟨⟨⟨_,_,hlast,hrt,hu'⟩,fun w hp => ?_⟩,?_,h₃.trans h₁.symm⟩
  · obtain ⟨later,hq⟩ := h.work w hp
    refine ⟨later ++ [row.toMeteringEntry],?_⟩
    rw [h₄,List.map_append,← h₂,hq]
    simp
  · simp [Store.entries,hlast,hrows]

theorem Layout.step {s t : State} {l : Label} (hi : IdsOK s) (hp : PhaseOK s) (h : Layout s)
    (hok : inOrder s l = true) (hm : Moves s l t) : Layout t := by
  cases hm with
  | allocate e => exact h.of_store rfl (fun w hw => .inl hw)
  | commit hr => exact (h.commit hi hr hok).1
  | abort id => exact h.of_store rfl (fun w hw => .inl hw)
  | alter rates instances tenants => exact h.of_store rfl (fun w hw => .inl hw)
  | beginFails r now => exact h
  | begin r now hph => exact h.of_store rfl (fun w hw => by cases hw)
  | cancel hph => exact h.of_store rfl (fun w hw => by cases hw)
  | fetchNone failed hph => exact h.of_store rfl (fun w hw => by cases hw)
  | @fetch p hph he =>
    refine h.of_store rfl (fun w hw => ?_)
    cases hw
    exact .inr ⟨s.store.queue.drop p.batch,(List.take_append_drop p.batch s.store.queue).symm⟩
  | @price w me rest f hph ht =>
    refine h.of_store rfl (fun w' hw => ?_)
    cases hw
    exact .inr (h.work w (by rw [hph]; rfl))
  | insertNone failed hph ht hc =>
    refine h.of_store rfl (fun w' hw => ?_)
    cases hw
    exact .inl (by rw [hph]; rfl)
  | insertFails failed hph ht hc hf => exact h.of_store rfl (fun w hw => by cases hw)
  | insert hph ht hc =>
    refine h.of_store rfl (fun w' hw => ?_)
    cases hw
    exact .inl (by rw [hph]; rfl)
  | @markFails w now hph =>
    refine h.of_store rfl (fun w' hw => ?_)
    have hn := w.next_work
    simp [State.goto,hn] at hw
  | @mark w now hph =>
    simp only [PhaseOK,hph] at hp
    exact (h.mark (by rw [hph]; rfl) hp.1 hp.2.1 rfl w.next_work).1
  | crash => exact h.of_store rfl (fun w hw => by cases hw)

theorem reachable_layout {ok : State → Label → Prop} (hok : ∀ s l, ok s l → inOrder s l = true)
    {s : State} (h : Reachable step initial ok s) : Layout s := by
  refine h.invariant_with (Q := Layout) (fun s hs => reachable_ok hs) ?_ ?_
  · rintro s ⟨hr,-,-,hp,-,-⟩
    exact ⟨⟨[],[],by simp [hr]⟩,by simp [hp,Phase.work?]⟩
  · intro s l t hs _ hq hl hst
    exact hq.step hs.1 hs.2 (hok s l hl) (step_moves hst)

theorem entries_step {P : MeteringEntry → Prop} {s t : State} {l : Label} (hi : IdsOK s)
    (hl : Layout s) (hord : inOrder s l = true)
    (hP : ∀ row ∈ s.pending, l = .commit row.id → P row.toMeteringEntry)
    (h : ∀ e ∈ s.store.entries, P e) (hm : Moves s l t) : ∀ e ∈ t.store.entries, P e := by
  cases hm with
  | @commit row hr =>
    rw [(hl.commit hi hr hord).2.1]
    intro e he
    rcases List.mem_append.mp he with he | he
    · exact h e he
    · rw [List.mem_singleton.mp he]
      exact hP row hr rfl
  | mark now hp => rw [Store.entries_mark]; exact h
  | _ => exact h

theorem Work.price_done (w : Work) (s : Store) (f : Faults) (me : MeteringEntry)
    (rest : List MeteringEntry) : (w.price s f me rest).done = w.done ++ [me] := by
  simp [done,price]

theorem WorkOK.mem_entries {s : Store} {w : Work} (h : WorkOK s w) {me : MeteringEntry}
    (hm : me ∈ w.entries) : me ∈ s.entries := by
  obtain ⟨row,hr,-,he⟩ := (mem_queue_iff _ _).mp (h.unrated me hm)
  exact List.mem_map.mpr ⟨row,hr,he⟩

/-- A record that grows by a part for every batch whose cost entries are
written, and by nothing else. -/
structure Ledger (α : Type) where
  log : State → List α
  part : Work → List α
  keeps : ∀ s t : State, t.charged = s.charged → t.store.costEntries = s.store.costEntries →
    log t = log s
  insert : ∀ (s : State) (w : Work), log { s with
    store := s.store.addCosts w.batch.costEntries,
    phase := .inserted w,
    charged := s.charged ++ w.charges } = log s ++ part w
  empty : ∀ s w, WorkOK s w → w.batch.costEntries = [] → part w = []

def Ledger.charges : Ledger Charge where
  log := State.charged
  part := Work.charges
  keeps _ _ h _ := h
  insert _ _ := rfl
  empty _ _ h := h.charges

def Ledger.costs : Ledger CostEntry where
  log s := s.store.costEntries
  part w := w.batch.costEntries
  keeps _ _ _ h := h
  insert _ _ := rfl
  empty _ _ _ h := h

namespace Ledger

variable {α : Type} (L : Ledger α) (Inv : List α → List MeteringEntry → Prop)
  (Cached : Work → List α → List MeteringEntry → Prop)

/-- `Inv` relates the ledger to the rated entries; while a batch is in work it
also relates what the ledger would be to the entries priced so far. -/
def Holds (s : State) : Prop :=
  match s.phase with
  | .idle => Inv (L.log s) (ratedEntries s.store)
  | .ready _ => Inv (L.log s) (ratedEntries s.store)
  | .pricing w => Inv (L.log s) (ratedEntries s.store) ∧
      Inv (L.log s ++ L.part w) (ratedEntries s.store ++ w.done) ∧
      Cached w (L.log s ++ L.part w) (ratedEntries s.store ++ w.done)
  | .inserted w => Inv (L.log s) (ratedEntries s.store ++ w.done) ∧
      (w.batch.costEntries = [] → Inv (L.log s) (ratedEntries s.store))

variable {L Inv Cached}

theorem Holds.of_rated {s t : State} (h : L.Holds Inv Cached s) (hp : t.phase = s.phase)
    (hc : t.charged = s.charged) (hs : t.store.costEntries = s.store.costEntries)
    (hr : ratedEntries t.store = ratedEntries s.store) : L.Holds Inv Cached t := by
  unfold Holds at *
  rw [hp,L.keeps s t hc hs,hr]
  exact h

theorem Holds.base {s : State} (h : L.Holds Inv Cached s)
    (hp : ∀ w, s.phase = .inserted w → w.batch.costEntries = []) :
    Inv (L.log s) (ratedEntries s.store) := by
  unfold Holds at h
  cases hs : s.phase with
  | idle => simpa only [hs] using h
  | ready p => simpa only [hs] using h
  | pricing w =>
    simp only [hs] at h
    exact h.1
  | inserted w =>
    simp only [hs] at h
    exact h.2 (hp w hs)

theorem Holds.exists {s : State} (h : L.Holds Inv Cached s) : ∃ entries, Inv (L.log s) entries := by
  unfold Holds at h
  cases hs : s.phase with
  | idle => exact ⟨_,by simpa only [hs] using h⟩
  | ready p => exact ⟨_,by simpa only [hs] using h⟩
  | pricing w =>
    simp only [hs] at h
    exact ⟨_,h.1⟩
  | inserted w =>
    simp only [hs] at h
    exact ⟨_,h.1⟩

theorem holds_of_no_work {t : State} (hp : t.phase.work? = none)
    (h : Inv (L.log t) (ratedEntries t.store)) : L.Holds Inv Cached t := by
  unfold Holds
  cases hs : t.phase with
  | idle => exact h
  | ready p => exact h
  | pricing w => simp [hs,Phase.work?] at hp
  | inserted w => simp [hs,Phase.work?] at hp

theorem Holds.giveUp {s : State} (h : L.Holds Inv Cached s) {phase : Phase}
    (hn : phase.work? = none) (hp : ∀ w, s.phase = .inserted w → w.batch.costEntries = []) :
    L.Holds Inv Cached (s.goto phase) := by
  refine holds_of_no_work hn ?_
  rw [L.keeps s (s.goto phase) rfl rfl]
  exact h.base hp

theorem holds_pricing {s : State} {w : Work} (h₁ : Inv (L.log s) (ratedEntries s.store))
    (h₂ : Inv (L.log s ++ L.part w) (ratedEntries s.store ++ w.done))
    (h₃ : Cached w (L.log s ++ L.part w) (ratedEntries s.store ++ w.done)) :
    L.Holds Inv Cached (s.goto (.pricing w)) := by
  rw [← L.keeps s (s.goto (.pricing w)) rfl rfl] at h₁ h₂ h₃
  exact ⟨h₁,h₂,h₃⟩

theorem holds_inserted {s : State} {w : Work} (h₁ : Inv (L.log s) (ratedEntries s.store ++ w.done))
    (h₂ : w.batch.costEntries = [] → Inv (L.log s) (ratedEntries s.store)) :
    L.Holds Inv Cached (s.goto (.inserted w)) := by
  rw [← L.keeps s (s.goto (.inserted w)) rfl rfl] at h₁ h₂
  exact ⟨h₁,h₂⟩

theorem Holds.mark {s t : State} {w : Work} (h : L.Holds Inv Cached s) (hp : s.phase = .inserted w)
    (hn : t.phase.work? = none) (hc : t.charged = s.charged)
    (hs : t.store.costEntries = s.store.costEntries)
    (hr : ratedEntries t.store = ratedEntries s.store ++ w.done) : L.Holds Inv Cached t := by
  refine holds_of_no_work hn ?_
  rw [L.keeps s t hc hs,hr]
  simp only [Holds,hp] at h
  exact h.1

theorem Holds.step {s t : State} {l : Label} (hi : IdsOK s) (hph : PhaseOK s) (hl : Layout s)
    (hmarks : marksHold s l = true) (hord : inOrder s l = true)
    (hstart : ∀ p entries log rated, Inv log rated → Cached (.start p entries) log rated)
    (hprice : ∀ f w me rest, l = .price f → s.phase = .pricing w → w.todo = me :: rest →
      WorkOK s.store w → Inv (L.log s ++ L.part w) (ratedEntries s.store ++ w.done) →
      Cached w (L.log s ++ L.part w) (ratedEntries s.store ++ w.done) →
      Inv (L.log s ++ L.part (w.price s.store f me rest))
          (ratedEntries s.store ++ w.done ++ [me]) ∧
        Cached (w.price s.store f me rest) (L.log s ++ L.part (w.price s.store f me rest))
          (ratedEntries s.store ++ w.done ++ [me]))
    (h : L.Holds Inv Cached s) (hm : Moves s l t) : L.Holds Inv Cached t := by
  cases hm with
  | allocate e => exact h.of_rated rfl rfl rfl rfl
  | commit hr => exact h.of_rated rfl rfl rfl (hl.commit hi hr hord).2.2
  | abort id => exact h.of_rated rfl rfl rfl rfl
  | alter rates instances tenants => exact h.of_rated rfl rfl rfl rfl
  | beginFails r now => exact h
  | begin r now hp => exact h.giveUp rfl (by simp [hp])
  | cancel hp => exact h.giveUp rfl (by simp [hp])
  | fetchNone failed hp => exact h.giveUp rfl (by simp [hp])
  | @fetch p hp he =>
    have hb := h.base (by simp [hp])
    have hpart := L.empty s.store _ (WorkOK.start p p.batch) rfl
    have hdone : (Work.start p (s.store.unratedMeteringEntries p.batch)).done = [] := rfl
    apply holds_pricing hb
    · rwa [hpart,hdone,List.append_nil,List.append_nil]
    · rw [hpart,hdone,List.append_nil,List.append_nil]
      exact hstart p _ _ _ hb
  | @price w me rest f hp ht =>
    simp only [PhaseOK,hp] at hph
    simp only [Holds,hp] at h
    obtain ⟨hi',hc'⟩ := hprice f w me rest rfl hp ht hph h.2.1 h.2.2
    apply holds_pricing h.1
    · rwa [Work.price_done,← List.append_assoc]
    · rwa [Work.price_done,← List.append_assoc]
  | insertNone failed hp ht hc =>
    simp only [PhaseOK,hp] at hph
    simp only [Holds,hp,L.empty _ _ hph hc,List.append_nil] at h
    exact holds_inserted h.2.1 (fun _ => h.1)
  | insertFails failed hp ht hc hf => exact h.giveUp rfl (by simp [hp])
  | insert hp ht hc =>
    simp only [Holds,hp] at h
    simp only [Holds]
    rw [L.insert]
    exact ⟨h.2.1,fun hnil => absurd hnil hc⟩
  | @markFails w now hp =>
    simp only [marksHold,hp,decide_eq_true_eq] at hmarks
    exact h.giveUp w.next_work (fun w' hw' => by rw [hp] at hw'; cases hw'; exact hmarks)
  | @mark w now hp =>
    simp only [PhaseOK,hp] at hph
    exact h.mark hp w.next_work rfl rfl
      (hl.mark (by rw [hp]; rfl) hph.1 hph.2.1 rfl w.next_work).2
  | crash =>
    refine h.giveUp rfl (fun w hw => ?_)
    simpa only [marksHold,hw,decide_eq_true_eq] using hmarks

end Ledger

end CostConsumer.Rating
