import CostConsumer.Foundation.Spans
import CostConsumer.Metering.Machine
import Mathlib.Data.Int.ConditionallyCompleteOrder
import Mathlib.Order.CompletePartialOrder
set_option autoImplicit false

/-!
What the stored uptime intervals of a resource cover: its life up to the
checkpoint, as long as an insert and the checkpoint update that follows it take
effect together.
-/

namespace CostConsumer.Metering
open Inventory Foundation

/-- The end of an interval that is stored while the checkpoint is still behind. -/
def Phase.pending (k : Kind) (id : String) : Phase → Option Int
  | .stored k' now _ r _ true => if k' = k ∧ k'.id r = id then some now else none
  | _ => none

@[simp] theorem pending_after (k k' : Kind) (now : Int) (id : String) :
    (after k now).pending k' id = none := by
  cases k <;> rfl

@[simp] theorem pending_resume (k k' : Kind) (now : Int) (types : InstanceTypes)
    (todo : List k.Record) (id : String) : (resume k now types todo).pending k' id = none := by
  cases todo with
  | nil => exact pending_after k k' now id
  | cons r todo => rfl

/-- Listed resources are still in the table, with the times they were read with. -/
def Listed (s : Store) (k : Kind) (rs : List k.Record) : Prop :=
  (rs.map k.id).Nodup ∧ ∀ r ∈ rs, ∃ row ∈ (s.table k).rows, SameTimes k row r

def Phase.Listed (s : Store) : Phase → Prop
  | .idle => True
  | .list _ _ => True
  | .pass k _ _ todo => Metering.Listed s k todo
  | .stored k _ _ r todo _ => Metering.Listed s k (r :: todo)

theorem listed_resume {s : Store} {k : Kind} {todo : List k.Record} (h : Listed s k todo) (now : Int)
    (types : InstanceTypes) : (resume k now types todo).Listed s := by
  cases todo with
  | nil => cases k <;> trivial
  | cons r todo => exact h

theorem Listed.tail {s : Store} {k : Kind} {r : k.Record} {todo : List k.Record}
    (h : Listed s k (r :: todo)) : Listed s k todo :=
  ⟨(List.nodup_cons.mp h.1).2,fun r' hr' => h.2 r' (List.mem_cons_of_mem _ hr')⟩

theorem Listed.kept {s t : Store} {k : Kind} {rs : List k.Record} (h : Listed s k rs)
    (hk : ∀ a ∈ (s.table k).rows, k.id a ∈ rs.map k.id → ∃ b ∈ (t.table k).rows, SameTimes k b a) :
    Listed t k rs := by
  refine ⟨h.1,fun r hr => ?_⟩
  obtain ⟨a,ha,h₁,h₂,h₃⟩ := h.2 r hr
  obtain ⟨b,hb,h₄,h₅,h₆⟩ := hk a ha (by rw [h₁]; exact List.mem_map_of_mem hr)
  exact ⟨b,hb,h₄.trans h₁,h₅.trans h₂,h₆.trans h₃⟩

theorem Phase.Listed.kept {s t : Store} {p : Phase} (h : p.Listed s)
    (hk : ∀ k, ∀ a ∈ (s.table k).rows, ∃ b ∈ (t.table k).rows, SameTimes k b a) : p.Listed t := by
  cases p with
  | idle => trivial
  | list k now => trivial
  | pass k now types todo => exact Metering.Listed.kept h (fun a ha _ => hk k a ha)
  | stored k now types r todo ok => exact Metering.Listed.kept h (fun a ha _ => hk k a ha)

theorem listed_billable (s : Store) (k : Kind) : Listed s k (s.billable k) := by
  refine ⟨?_,fun r hr => ⟨r,List.mem_of_mem_filter hr,.refl k r⟩⟩
  exact (s.table k).keys_nodup.sublist (List.filter_sublist.map k.id)

structure Consistent (s : State) : Prop where
  ids : ∀ row ∈ s.store.meteringEntries.rows, row.id < s.nextID
  owned : ∀ k id, uptime k id s.store ≠ [] → ∃ r ∈ (s.store.table k).rows, k.id r = id
  listed : s.phase.Listed s.store

theorem Consistent.of_kept {s t : State} (h : Consistent s) (hn : t.nextID = s.nextID)
    (hm : t.store.meteringEntries = s.store.meteringEntries)
    (hk : ∀ k, ∀ a ∈ (s.store.table k).rows, ∃ b ∈ (t.store.table k).rows, k.id b = k.id a)
    (hl : t.phase.Listed t.store) : Consistent t := by
  refine ⟨by rw [hm,hn]; exact h.ids,fun k id hu => ?_,hl⟩
  obtain ⟨a,ha,hid⟩ := h.owned k id (by rw [uptime,Store.entries] at hu ⊢; rwa [← hm])
  obtain ⟨b,hb,hab⟩ := hk k a ha
  exact ⟨b,hb,hab.trans hid⟩

theorem Consistent.goto {s : State} (h : Consistent s) {p : Phase} (hl : p.Listed s.store) :
    Consistent (s.goto p) :=
  h.of_kept rfl rfl (fun _ a ha => ⟨a,ha,rfl⟩) hl

theorem uptime_meter {s : State} (h : Consistent s) {k : Kind} (r : k.Record) (types : InstanceTypes)
    (failed : Bool) (now : Int) :
    ∃ e : MeteringEntry,
      (e.value = Numeric.stored 6 (GoTime.seconds (GoTime.sub now (periodStart k r))) ∧
        e.periodStart = periodStart k r ∧ e.periodEnd = now) ∧
      ∀ k' id', uptime k' id'
          (s.store.addMetering s.nextID (s.entriesUntil k r types failed now).1) =
        uptime k' id' s.store ++ if k' = k ∧ id' = k.id r then [e] else [] :=
  uptime_addMetering h.ids k r types _ _ _ _

theorem table_addMetering (s : Store) (id : Nat) (es : List MeteringEntry) (k : Kind) :
    (s.addMetering id es).table k = s.table k := by
  induction es generalizing s id with
  | nil => rfl
  | cons e es ih =>
    rw [Store.addMetering,ih]
    cases k <;> rfl

theorem Consistent.owned_meter {s : State} (h : Consistent s) {k : Kind} {r row : k.Record}
    (types : InstanceTypes) (failed : Bool) (now : Int) (hrow : row ∈ (s.store.table k).rows)
    (hid : k.id row = k.id r) (k' : Kind) (id : String) :
    let store := s.store.addMetering s.nextID (s.entriesUntil k r types failed now).1
    uptime k' id store ≠ [] → ∃ a ∈ (store.table k').rows, k'.id a = id := by
  intro store hne
  obtain ⟨e,-,hu⟩ := uptime_meter h r types failed now
  simp only [store,table_addMetering]
  rw [hu] at hne
  by_cases hk : k' = k ∧ id = k.id r
  · obtain ⟨rfl,rfl⟩ := hk
    exact ⟨row,hrow,hid⟩
  · rw [if_neg hk,List.append_nil] at hne
    exact h.owned k' id hne

theorem Consistent.final {s t : State} {k : Kind} {id : String} {d : Int} (h : Consistent s)
    (hf : Final s k id d t) : Consistent t := by
  cases hf with
  | none nextID cache hn => exact ⟨fun row hr => (h.ids row hr).trans_le hn,h.owned,h.listed⟩
  | stored types failed hr hid =>
    refine ⟨(Store.entries_addMetering _ h.ids).2,h.owned_meter types failed d hr rfl,?_⟩
    exact h.listed.kept (fun k a ha => ⟨a,by rwa [table_addMetering],.refl k a⟩)

theorem Consistent.mark {s : State} (h : Consistent s) (k : Kind) (id : String) (t : Int)
    (eventID : String) (now : Int) :
    Consistent (s.withStore (s.store.markDeleted k id t eventID now)) := by
  refine h.of_kept rfl (by simp [State.withStore,Store.markDeleted]) (fun k' a ha => ?_)
    (h.listed.kept (fun k' a ha => Store.markDeleted_keeps id t eventID now ha))
  obtain ⟨b,hb,hab⟩ := Store.markDeleted_keeps id t eventID now ha
  exact ⟨b,hb,hab.1⟩

theorem Consistent.step {s t : State} {l : Label} (h : Consistent s) (hm : Moves s l t) :
    Consistent t := by
  have hl := h.listed
  cases hm with
  | upsert k r now =>
    refine h.of_kept rfl (by simp [State.withStore,Store.upsert]) (fun k' a ha => ?_)
      (hl.kept (fun k' a ha => Store.upsert_keeps now r ha))
    obtain ⟨b,hb,hab⟩ := Store.upsert_keeps now r ha
    exact ⟨b,hb,hab.1⟩
  | upsertInstanceType r now =>
    exact h.of_kept rfl rfl (fun k a ha => ⟨a,by cases k <;> exact ha,rfl⟩)
      (hl.kept (fun k a ha => ⟨a,by cases k <;> exact ha,.refl k a⟩))
  | upsertProject r now =>
    exact h.of_kept rfl rfl (fun k a ha => ⟨a,by cases k <;> exact ha,rfl⟩)
      (hl.kept (fun k a ha => ⟨a,by cases k <;> exact ha,.refl k a⟩))
  | sweep now hp => exact h.goto trivial
  | @listFails k now typesFailed hp => exact h.goto (by cases k <;> trivial)
  | list typesFailed hp => exact h.goto (listed_resume (listed_billable _ _) _ _)
  | skip f hp hn =>
    rw [hp] at hl
    exact h.goto (listed_resume (Listed.tail hl) _ _)
  | meterFails f hp hn =>
    rw [hp] at hl
    refine ⟨fun row hr => (h.ids row hr).trans_le (Nat.le_add_right _ _),h.owned,hl⟩
  | @meter k now types r todo f hp hn =>
    rw [hp] at hl
    have hlisted : Listed s.store k (r :: todo) := hl
    obtain ⟨row,hr,hsame⟩ := hlisted.2 r List.mem_cons_self
    exact ⟨(Store.entries_addMetering _ h.ids).2,h.owned_meter types f.project now hr hsame.1,
      hlisted.kept (fun a ha _ => ⟨a,by rwa [table_addMetering],.refl k a⟩)⟩
  | updateFails hp =>
    rw [hp] at hl
    exact h.goto (listed_resume (Listed.tail hl) _ _)
  | @update k now types r todo ok hp =>
    rw [hp] at hl
    have hlisted : Listed s.store k (r :: todo) := hl
    refine h.of_kept rfl (by simp [State.withStore,State.goto,Store.updateLastMetered])
      (fun k' a ha => ?_) (listed_resume (hlisted.tail.kept (fun a ha hid => ?_)) _ _)
    · refine ⟨_,Store.mem_updateLastMetered.mpr ⟨a,ha,rfl⟩,?_⟩
      split <;> simp
    · -- the resources still to be metered have other ids
      have hne : k.id a ≠ k.id r := by
        intro he
        rw [he] at hid
        exact (List.nodup_cons.mp hlisted.1).1 hid
      exact ⟨a,Store.mem_updateLastMetered.mpr ⟨a,ha,by simp [hne]⟩,.refl k a⟩
  | delete k id deletedAt eventID now f =>
    exact handleDelete_keeps (fun _ hf => h.final hf) (fun _ hc => hc.mark _ _ _ _ _)
  | restart => exact h.of_kept rfl rfl (fun _ a ha => ⟨a,ha,rfl⟩) trivial

theorem reachable_consistent {ok : State → Label → Prop} {s : State}
    (h : Reachable step initial ok s) : Consistent s := by
  refine h.invariant (P := Consistent) ?_ ?_
  · rintro s ⟨hr,-,hp⟩
    exact ⟨by simp [hr],by simp [uptime,Store.entries,hr],by rw [hp]; trivial⟩
  · exact fun s l t hs _ hst => hs.step (step_moves hst)

/-- The outcome of the insert for a resource whose checkpoint is updated next. -/
def Phase.outcome (k : Kind) (id : String) : Phase → Option Bool
  | .stored k' _ _ r _ ok => if k' = k ∧ k'.id r = id then some ok else none
  | _ => none

/-- For a resource that is not deleted, both statements of a sweep take effect or
neither does. Nothing is asked for other resources. -/
def paired (k : Kind) (id : String) (s : State) (l : Label) : Bool :=
  match l with
  | .update failed => (s.phase.outcome k id).all (failed != ·)
  | .restart => (s.phase.outcome k id).all (!·)
  | .delete k' id' _ _ _ _ => ¬ (k' = k ∧ id' = id)
  | _ => true

section Resource
variable {k : Kind} {id : String} {s t : State}

theorem pending_of_outcome (h : (s.phase.outcome k id).all (!·) = true) :
    s.phase.pending k id = none := by
  cases hp : s.phase with
  | idle => rfl
  | list k' now => rfl
  | pass k' now types todo => rfl
  | stored k' now types r todo ok =>
    cases ok with
    | false => rfl
    | true =>
      rw [hp] at h
      by_cases hk : k' = k ∧ k'.id r = id
      · simp [Phase.outcome,hk] at h
      · exact if_neg hk

/-- How far the stored intervals of a resource reach. -/
def reach (s : State) (k : Kind) (r : k.Record) : Int :=
  (s.phase.pending k (k.id r)).getD (periodStart k r)

def Tiled (k : Kind) (id : String) (s : State) : Prop :=
  ∀ r ∈ (s.store.table k).rows, k.id r = id →
    Spans MeteringEntry.periodStart MeteringEntry.periodEnd (k.createdAt r)
      (uptime k id s.store) ((s.phase.pending k id).getD (periodStart k r))

theorem periodStart_of_same {a b : k.Record} (h : SameTimes k a b) :
    periodStart k a = periodStart k b := by
  unfold periodStart
  rw [h.2.1,h.2.2]

theorem Tiled.frame (h : Tiled k id s) (hu : uptime k id t.store = uptime k id s.store)
    (hp : t.phase.pending k id = s.phase.pending k id)
    (hr : ∀ b ∈ (t.store.table k).rows, ∃ a ∈ (s.store.table k).rows, SameTimes k b a) :
    Tiled k id t := by
  intro b hb hid
  obtain ⟨a,ha,hs⟩ := hr b hb
  rw [hu,hp,hs.2.1,periodStart_of_same hs]
  exact h a ha (hs.1.symm.trans hid)

theorem Tiled.goto (h : Tiled k id s) {p : Phase} (hp : p.pending k id = s.phase.pending k id) :
    Tiled k id (s.goto p) :=
  h.frame rfl hp (fun b hb => ⟨b,hb,.refl _ b⟩)

theorem Consistent.pending_none (h : Consistent s)
    (hid : ∀ a ∈ (s.store.table k).rows, k.id a ≠ id) : s.phase.pending k id = none := by
  have hl := h.listed
  cases hp : s.phase with
  | idle => rfl
  | list k now => rfl
  | pass k now types todo => rfl
  | stored k' now types r todo ok =>
    cases ok with
    | false => rfl
    | true =>
      refine if_neg ?_
      rintro ⟨rfl,rfl⟩
      rw [hp] at hl
      obtain ⟨row,hr,hsame⟩ := hl.2 r List.mem_cons_self
      exact hid row hr hsame.1

theorem Tiled.upsert (hc : Consistent s) (h : Tiled k id s) {k' : Kind} (r : k'.Record) (now : Int) :
    Tiled k id (s.withStore (s.store.upsert k' now r)) := by
  intro b hb hid
  have hu : uptime k id (s.store.upsert k' now r) = uptime k id s.store := by
    rw [uptime,Store.upsert,Store.entries_setTable,uptime]
  simp only [State.withStore,hu]
  rcases Store.mem_upsert hb with ⟨a,ha,hs⟩ | ⟨-,hnone,-,hfresh⟩
  · rw [hs.2.1,periodStart_of_same hs]
    exact h a ha (hs.1.symm.trans hid)
  · -- a new resource: nothing is stored under its id
    rw [hid] at hfresh
    have hnil : uptime k id s.store = [] := by
      by_contra hne
      obtain ⟨a,ha,haid⟩ := hc.owned k id hne
      exact hfresh a ha haid
    rw [hc.pending_none hfresh,hnil]
    simp [Spans,periodStart,hnone]

theorem Tiled.meter (hc : Consistent s) (h : Tiled k id s) {k' : Kind} {now : Int}
    {types : InstanceTypes} {r : k'.Record} {todo : List k'.Record} {failed : Bool}
    (hp : s.phase = .pass k' now types (r :: todo)) (hn : periodStart k' r < now)
    (ht : t.store = s.store.addMetering s.nextID (s.entriesUntil k' r types failed now).1)
    (hph : t.phase = .stored k' now types r todo true) : Tiled k id t := by
  obtain ⟨e,⟨-,hes,hee⟩,hu⟩ := uptime_meter hc r types failed now
  have hl := hc.listed
  rw [hp] at hl
  obtain ⟨row,hrow,hsame⟩ := hl.2 r List.mem_cons_self
  intro b hb hid
  rw [ht,table_addMetering] at hb
  have hspan := h b hb hid
  simp only [hp,Phase.pending,Option.getD_none] at hspan
  rw [ht,hu,hph,Phase.pending]
  by_cases hk : k = k' ∧ id = k'.id r
  · obtain ⟨rfl,rfl⟩ := hk
    have hbr : SameTimes k b r := by
      rw [Table.key_injective hb hrow (hid.trans hsame.1.symm)]
      exact hsame
    rw [periodStart_of_same hbr] at hspan
    rw [if_pos ⟨rfl,rfl⟩,if_pos ⟨rfl,rfl⟩,Option.getD_some,← hee]
    exact hspan.snoc hes (by rw [hes,hee]; exact hn)
  · rw [if_neg hk,if_neg fun hk' => hk ⟨hk'.1.symm,hk'.2.symm⟩,List.append_nil,Option.getD_none]
    exact hspan

theorem Tiled.update (h : Tiled k id s) {k' : Kind} {now : Int} {types : InstanceTypes}
    {r : k'.Record} {todo : List k'.Record} {ok : Bool}
    (hp : s.phase = .stored k' now types r todo ok)
    (hok : (s.phase.outcome k id).all (false != ·) = true) :
    Tiled k id ((s.goto (resume k' now types todo)).withStore
      (s.store.updateLastMetered k' (k'.id r) now)) := by
  intro b hb hid
  obtain ⟨a,ha,rfl⟩ := Store.mem_updateLastMetered.mp hb
  have haid : k.id a = id := by
    split at hid
    · rwa [Kind.id_setMetered] at hid
    · exact hid
  have hspan := h a ha haid
  have hu : uptime k id (s.store.updateLastMetered k' (k'.id r) now) = uptime k id s.store := by
    rw [uptime,Store.updateLastMetered,Store.entries_setTable,uptime]
  simp only [State.withStore,State.goto,pending_resume,Option.getD_none,hu]
  rw [hp] at hok hspan
  by_cases hk : k' = k ∧ k'.id r = id
  · -- the checkpoint moves to where the stored intervals reach
    obtain ⟨rfl,rfl⟩ := hk
    have htrue : ok = true := by simpa [Phase.outcome] using hok
    subst htrue
    rw [if_pos ⟨rfl,haid⟩]
    simpa [Phase.pending,periodStart] using hspan
  · have hother : ¬ (k = k' ∧ k.id a = k'.id r) := by
      rintro ⟨rfl,hra⟩
      exact hk ⟨rfl,hra.symm.trans haid⟩
    have hpend : (Phase.stored k' now types r todo ok).pending k id = none := by
      cases ok with
      | false => rfl
      | true => exact if_neg hk
    rw [if_neg hother]
    rwa [hpend,Option.getD_none] at hspan

theorem uptime_final (hc : Consistent s) {k' : Kind} {id' : String} {d : Int} {r : k'.Record}
    (hne : ¬ (k' = k ∧ id' = id)) (types : InstanceTypes) (failed : Bool) (hid : k'.id r = id') :
    uptime k id (s.store.addMetering s.nextID (s.entriesUntil k' r types failed d).1) =
      uptime k id s.store := by
  obtain ⟨e,-,hu⟩ := uptime_meter hc r types failed d
  rw [hu,if_neg,List.append_nil]
  rintro ⟨rfl,rfl⟩
  exact hne ⟨rfl,hid.symm⟩

theorem uptime_mark (s : Store) (k' : Kind) (id' : String) (d : Int) (eventID : String) (now : Int) :
    uptime k id (s.markDeleted k' id' d eventID now) = uptime k id s := by
  rw [uptime,Store.markDeleted,Store.entries_setTable,uptime]

theorem Tiled.final {k' : Kind} {id' : String} {d : Int} (hc : Consistent s) (h : Tiled k id s)
    (hne : ¬ (k' = k ∧ id' = id)) (hf : Final s k' id' d t) : Tiled k id t := by
  cases hf with
  | none nextID cache hn => exact h
  | stored types failed hr hid =>
    exact h.frame (uptime_final hc hne types failed hid) rfl
      (fun b hb => ⟨b,by rwa [table_addMetering] at hb,.refl _ b⟩)

theorem Tiled.step {l : Label} (hc : Consistent s) (h : Tiled k id s)
    (hok : paired k id s l = true) (hm : Moves s l t) : Tiled k id t := by
  cases hm with
  | upsert k' r now => exact h.upsert hc r now
  | upsertInstanceType r now =>
    exact h.frame rfl rfl (fun b hb => ⟨b,by cases k <;> exact hb,.refl k b⟩)
  | upsertProject r now =>
    exact h.frame rfl rfl (fun b hb => ⟨b,by cases k <;> exact hb,.refl k b⟩)
  | sweep now hp => exact h.goto (by rw [hp]; rfl)
  | listFails typesFailed hp => exact h.goto (by rw [hp]; exact pending_after _ _ _ _)
  | list typesFailed hp => exact h.goto (by rw [hp]; exact pending_resume _ _ _ _ _ _)
  | skip f hp hn => exact h.goto (by rw [hp]; exact pending_resume _ _ _ _ _ _)
  | meterFails f hp hn => exact h.frame rfl (by rw [hp]; rfl) (fun b hb => ⟨b,hb,.refl _ b⟩)
  | meter f hp hn => exact h.meter hc hp hn rfl rfl
  | updateFails hp =>
    -- the insert has failed as well
    refine h.goto ?_
    rw [pending_of_outcome (by simpa [paired] using hok)]
    exact pending_resume _ _ _ _ _ _
  | update hp => exact h.update hp hok
  | delete k' id' deletedAt eventID now f =>
    exact handleDelete_keeps (fun _ hf => h.final hc (of_decide_eq_true hok) hf)
      (fun _ ht => ht.frame (uptime_mark _ _ _ _ _ _) rfl (fun b hb => Store.mem_markDeleted hb))
  | restart =>
    exact h.frame rfl (pending_of_outcome hok).symm (fun b hb => ⟨b,hb,.refl _ b⟩)

theorem reachable_tiled {ok : State → Label → Prop} (hok : ∀ s l, ok s l → paired k id s l = true)
    (h : Reachable step initial ok s) : Tiled k id s := by
  refine h.invariant_with (Q := Tiled k id) (fun s hs => reachable_consistent hs) ?_ ?_
  · rintro s ⟨-,hr,-⟩ r hmem
    simp [hr] at hmem
  · exact fun s l t hc _ hq hl hst => hq.step hc (hok s l hl) (step_moves hst)

end Resource

/-- The uptime intervals of a resource are disjoint and cover its life up to the
checkpoint, or up to the sweep time between the two statements of a sweep. -/
theorem metering_covers_life {s : State} {k : Kind} {r : k.Record}
    (h : Reachable step initial (fun s l => paired k (k.id r) s l = true) s)
    (hr : r ∈ (s.store.table k).rows) :
    (uptime k (k.id r) s.store).Pairwise (fun d e =>
        Disjoint (Set.Ico d.periodStart d.periodEnd) (Set.Ico e.periodStart e.periodEnd)) ∧
      (∀ t, (∃ e ∈ uptime k (k.id r) s.store, t ∈ Set.Ico e.periodStart e.periodEnd) ↔
        t ∈ Set.Ico (k.createdAt r) (reach s k r)) ∧
      (s.phase.pending k (k.id r) = none → reach s k r = periodStart k r) := by
  have hspan := reachable_tiled (fun _ _ hl => hl) h r hr rfl
  refine ⟨hspan.disjoint.imp (fun hle => ?_),hspan.covers,fun hp => by rw [reach,hp]; rfl⟩
  rw [Set.disjoint_left]
  intro t ht ht'
  exact absurd (ht.2.trans_le hle) (not_lt_of_ge ht'.1)

def instance1 (createdAt : Int) : ComputeInstanceRecord :=
  ⟨"vm-1","vm","t","p","","",2,4,"COMPUTE_INSTANCE_STATE_RUNNING",some [],createdAt,none,"",0,none⟩

def noResources : State := ⟨{},1,fun _ => none,.idle⟩

/-- The sweeps of the samples are a minute apart. -/
def minutes (n : Int) : Int := n*60*GoTime.nanosPerSecond

/-- Two sweeps of an instance; that nothing of it is lost does not depend on
another instance, whose insert fails in the second one and which is deleted. -/
theorem covered_in_run :
    ∃ s, Reachable step initial (fun s l => paired .computeInstance "vm-1" s l = true) s ∧
      ∃ r ∈ (s.store.table .computeInstance).rows, r.instanceID = "vm-1" ∧
        (uptime .computeInstance "vm-1" s.store).length = 2 ∧
        ∀ t, (∃ e ∈ uptime .computeInstance r.instanceID s.store,
            t ∈ Set.Ico e.periodStart e.periodEnd) ↔
          t ∈ Set.Ico r.createdAt (reach s .computeInstance r) := by
  obtain ⟨s,hs,r,hr,hid,hlen⟩ := Reachable.exists_of_checked step initial (paired .computeInstance "vm-1")
    noResources
    [.upsert .computeInstance (instance1 0) 0,
      .upsert .computeInstance { instance1 0 with instanceID := "vm-2" } 0,
      .sweep (minutes 1),.list false false,.meter {},.update false,.meter {},.update false,
      .list false false,.list false false,
      .sweep (minutes 2),.list false false,.meter {},.update false,.meter { insert := true },
      .update false,.delete .computeInstance "vm-2" (minutes 3) "e-1" (minutes 3) {}]
    (fun s => ∃ r ∈ (s.store.table .computeInstance).rows, r.instanceID = "vm-1" ∧
      (uptime .computeInstance "vm-1" s.store).length = 2)
    (fun _ _ h => h) ⟨rfl,fun k => by cases k <;> rfl,rfl⟩ (by decide +kernel)
  have hs' : Reachable step initial
      (fun s l => paired .computeInstance (Kind.id .computeInstance r) s l = true) s := by
    rw [Kind.id,hid]
    exact hs
  exact ⟨s,hs,r,hr,hid,hlen,(metering_covers_life hs' hr).2.1⟩

/-- An insert that fails, after which the checkpoint moves all the same, loses a
minute; a checkpoint that stays behind a stored interval has it metered twice. -/
theorem minute_lost_or_metered_twice :
    (∃ s, Reachable step initial anyStep s ∧ ∃ r ∈ (s.store.table .computeInstance).rows,
      r.createdAt < periodStart .computeInstance r ∧
        uptime .computeInstance r.instanceID s.store = []) ∧
    ∃ s, Reachable step initial anyStep s ∧ ∃ r ∈ (s.store.table .computeInstance).rows,
      ∃ d e, uptime .computeInstance r.instanceID s.store = [d,e] ∧ d.periodStart = e.periodStart ∧
        d.periodStart < d.periodEnd ∧ e.periodStart < e.periodEnd := by
  constructor
  · exact Reachable.exists_of_run step initial noResources
      [.upsert .computeInstance (instance1 0) 0,.sweep (minutes 1),.list false false,
        .meter { insert := true },.update false] _ ⟨rfl,fun k => by cases k <;> rfl,rfl⟩ (by decide +kernel)
  · obtain ⟨s,hs,r,hr,hlen,hall⟩ := Reachable.exists_of_run step initial noResources
      [.upsert .computeInstance (instance1 0) 0,.sweep (minutes 1),.list false false,.meter {},
        .restart,.sweep (minutes 2),.list false false,.meter {},.update false]
      (fun s => ∃ r ∈ (s.store.table .computeInstance).rows,
        (uptime .computeInstance r.instanceID s.store).length = 2 ∧
        ∀ p ∈ (uptime .computeInstance r.instanceID s.store).zip (uptime .computeInstance r.instanceID s.store).tail,
          p.1.periodStart = p.2.periodStart ∧ p.1.periodStart < p.1.periodEnd ∧ p.2.periodStart < p.2.periodEnd)
      ⟨rfl,fun k => by cases k <;> rfl,rfl⟩ (by decide +kernel)
    obtain ⟨d,e,hu⟩ := List.length_eq_two.mp hlen
    rw [hu] at hall
    exact ⟨s,hs,r,hr,d,e,hu,hall (d,e) (by simp)⟩

end CostConsumer.Metering
