import CostConsumer.Metering.Coverage
import CostConsumer.Rating.Arrivals
set_option autoImplicit false

/-!
The metering process among other writers of the database: the rows a step adds are
entries of an interval of a resource that has a row in the inventory.
-/

namespace CostConsumer.Inventory.Store
open Foundation

def Has (s : Store) (k : Kind) (id : String) : Prop := ((s.table k).find? id).isSome = true

def Keeps (s t : Store) : Prop := ∀ k id, s.Has k id → t.Has k id

variable {s t u : Store}

theorem Keeps.refl (s : Store) : s.Keeps s := fun _ _ h => h

theorem Keeps.trans (h : s.Keeps t) (h' : t.Keeps u) : s.Keeps u := fun k id hs => h' k id (h k id hs)

theorem keeps_of_tables (h : ∀ k, t.table k = s.table k) : s.Keeps t := by
  intro k id hs
  rwa [Has,h k]

theorem keeps_setTable {k : Kind} {t : Table String k.Record k.id}
    (h : ∀ id, ((s.table k).find? id).isSome = true → (t.find? id).isSome = true) :
    s.Keeps (s.setTable k t) := by
  intro k' id hs
  by_cases hk : k' = k
  · subst hk
    rw [Has,table_setTable]
    exact h id hs
  · rwa [Has,table_setTable_of_ne s hk]

theorem keeps_upsert (k : Kind) (now : Int) (r : k.Record) : s.Keeps (s.upsert k now r) := by
  refine keeps_setTable fun id h => ?_
  rw [Table.find?_upsert]
  split
  · rfl
  · exact h

theorem keeps_updateLastMetered (k : Kind) (id : String) (t : Int) :
    s.Keeps (s.updateLastMetered k id t) := by
  refine keeps_setTable fun id h => ?_
  rw [Table.find?_update,Option.isSome_map]
  exact h

theorem keeps_markDeleted (k : Kind) (id : String) (t : Int) (eventID : String) (now : Int) :
    s.Keeps (s.markDeleted k id t eventID now) := by
  refine keeps_setTable fun id h => ?_
  rw [Table.find?_update,Option.isSome_map]
  exact h

theorem has_of_mem {k : Kind} {r : k.Record} (h : r ∈ (s.table k).rows) : s.Has k (k.id r) := by
  rw [Has,Table.find?_eq_some.mpr ⟨h,rfl⟩]
  rfl

end CostConsumer.Inventory.Store

namespace CostConsumer.Metering
open Inventory Foundation

/-- An entry of an interval of a resource in the inventory. -/
def Metered (s : Store) (e : MeteringEntry) : Prop :=
  ∃ (k : Kind) (r : k.Record) (types : InstanceTypes) (projectID : String) (stop : Int),
    s.Has k (k.id r) ∧ e ∈ meters k r types projectID
      (GoTime.seconds (GoTime.sub stop (periodStart k r))) (periodStart k r) stop

theorem Metered.mono {s t : Store} {e : MeteringEntry} (h : Metered s e) (hk : s.Keeps t) :
    Metered t e := by
  obtain ⟨k,r,types,projectID,stop,hr,he⟩ := h
  exact ⟨k,r,types,projectID,stop,hk k _ hr,he⟩

theorem entriesUntil_metered {s : State} {k : Kind} {r : k.Record} (hr : s.store.Has k (k.id r))
    (types : InstanceTypes) (failed : Bool) (stop : Int) :
    ∀ e ∈ (s.entriesUntil k r types failed stop).1, Metered s.store e :=
  fun _ he => ⟨k,r,types,_,stop,hr,he⟩

/-- The resources a sweep has in hand are in the inventory. -/
def Phase.Known (s : Store) : Phase → Prop
  | .idle => True
  | .list _ _ => True
  | .pass k _ _ todo => ∀ r ∈ todo, s.Has k (k.id r)
  | .stored k _ _ r todo _ => ∀ r' ∈ r :: todo, s.Has k (k.id r')

theorem Phase.Known.mono {s t : Store} {p : Phase} (h : p.Known s) (hk : s.Keeps t) : p.Known t := by
  cases p with
  | idle => trivial
  | list k now => trivial
  | pass k now types todo => exact fun r hr => hk k _ (h r hr)
  | stored k now types r todo ok => exact fun r' hr => hk k _ (h r' hr)

theorem known_resume {s : Store} {k : Kind} {todo : List k.Record} (h : ∀ r ∈ todo, s.Has k (k.id r))
    (now : Int) (types : InstanceTypes) : (resume k now types todo).Known s := by
  cases todo with
  | nil => cases k <;> trivial
  | cons r todo => exact h

/-- A step that adds the rows of some entries, and may take more ids. -/
structure Inserts (s t : State) (es : List MeteringEntry) : Prop where
  rows : t.store.meteringEntries =
    (meteringRows s.nextID es).foldl Table.insert s.store.meteringEntries
  nextID : s.nextID + es.length ≤ t.nextID
  rates : t.store.rates = s.store.rates
  costs : t.store.costEntries = s.store.costEntries
  keeps : s.store.Keeps t.store
  metered : ∀ e ∈ es, Metered s.store e

theorem Inserts.none {s t : State} (hm : t.store.meteringEntries = s.store.meteringEntries)
    (hn : s.nextID ≤ t.nextID) (hr : t.store.rates = s.store.rates)
    (hc : t.store.costEntries = s.store.costEntries) (hk : s.store.Keeps t.store) : Inserts s t [] :=
  ⟨hm,hn,hr,hc,hk,by simp⟩

theorem Inserts.add {s t : State} {es : List MeteringEntry} (hs : t.store = s.store.addMetering s.nextID es)
    (hn : t.nextID = s.nextID + es.length) (he : ∀ e ∈ es, Metered s.store e) : Inserts s t es := by
  refine ⟨?_,hn.ge,?_,?_,?_,he⟩
  · rw [hs,Store.addMetering_eq]
  · rw [hs,Store.addMetering_eq]
  · rw [hs,Store.addMetering_eq]
  · rw [hs]
    exact Store.keeps_of_tables fun k => table_addMetering _ _ _ k

theorem Inserts.mark {s t : State} {es : List MeteringEntry} (h : Inserts s t es) (k : Kind)
    (id : String) (d : Int) (eventID : String) (now : Int) :
    Inserts s (t.withStore (t.store.markDeleted k id d eventID now)) es :=
  ⟨by simpa [State.withStore,Store.markDeleted] using h.rows,h.nextID,
    (by cases k <;> exact h.rates),(by cases k <;> exact h.costs),
    h.keeps.trans (Store.keeps_markDeleted k id d eventID now),h.metered⟩

theorem Final.inserts {s t : State} {k : Kind} {id : String} {deletedAt : Int}
    (h : Final s k id deletedAt t) : ∃ es, Inserts s t es := by
  cases h with
  | none nextID cache hn => exact ⟨[],.none rfl hn rfl rfl (.refl _)⟩
  | stored types failed hr hid =>
    exact ⟨_,.add rfl rfl (entriesUntil_metered (Store.has_of_mem hr) types failed deletedAt)⟩

theorem step_inserts {s t : State} {l : Label} (hk : s.phase.Known s.store) (h : step s l = some t) :
    (∃ es, Inserts s t es) ∧ t.phase.Known t.store := by
  cases step_moves h with
  | upsert k r now =>
    have hkeep := Store.keeps_upsert (s := s.store) k now r
    refine ⟨⟨[],.none ?_ (Nat.le_refl _) ?_ ?_ hkeep⟩,hk.mono hkeep⟩
    · simp [State.withStore,Store.upsert]
    · cases k <;> rfl
    · cases k <;> rfl
  | upsertInstanceType r now =>
    have hkeep : s.store.Keeps (s.store.upsertInstanceType now r) :=
      Store.keeps_of_tables fun k => by cases k <;> rfl
    exact ⟨⟨[],.none rfl (Nat.le_refl _) rfl rfl hkeep⟩,hk.mono hkeep⟩
  | upsertProject r now =>
    have hkeep : s.store.Keeps (s.store.upsertProject now r) :=
      Store.keeps_of_tables fun k => by cases k <;> rfl
    exact ⟨⟨[],.none rfl (Nat.le_refl _) rfl rfl hkeep⟩,hk.mono hkeep⟩
  | sweep now hp => exact ⟨⟨[],.none rfl (Nat.le_refl _) rfl rfl (.refl _)⟩,trivial⟩
  | @listFails k now typesFailed hp =>
    exact ⟨⟨[],.none rfl (Nat.le_refl _) rfl rfl (.refl _)⟩,by cases k <;> trivial⟩
  | list typesFailed hp =>
    refine ⟨⟨[],.none rfl (Nat.le_refl _) rfl rfl (.refl _)⟩,known_resume (fun r hr => ?_) _ _⟩
    exact Store.has_of_mem (List.mem_of_mem_filter hr)
  | skip f hp hn =>
    rw [hp] at hk
    exact ⟨⟨[],.none rfl (Nat.le_refl _) rfl rfl (.refl _)⟩,
      known_resume (fun r hr => hk r (List.mem_cons_of_mem _ hr)) _ _⟩
  | meterFails f hp hn =>
    rw [hp] at hk
    exact ⟨⟨[],.none rfl (Nat.le_add_right _ _) rfl rfl (.refl _)⟩,hk⟩
  | @meter k now types r todo f hp hn =>
    rw [hp] at hk
    have hmetered := entriesUntil_metered (hk r List.mem_cons_self) types f.project now
    have hkeep : s.store.Keeps
        (s.store.addMetering s.nextID (s.entriesUntil k r types f.project now).1) :=
      Store.keeps_of_tables fun k => table_addMetering _ _ _ k
    exact ⟨⟨_,.add rfl rfl hmetered⟩,fun r' hr => hkeep k _ (hk r' hr)⟩
  | updateFails hp =>
    rw [hp] at hk
    exact ⟨⟨[],.none rfl (Nat.le_refl _) rfl rfl (.refl _)⟩,
      known_resume (fun r hr => hk r (List.mem_cons_of_mem _ hr)) _ _⟩
  | @update k now types r todo ok hp =>
    rw [hp] at hk
    have hkeep := Store.keeps_updateLastMetered (s := s.store) k (k.id r) now
    refine ⟨⟨[],.none ?_ (Nat.le_refl _) ?_ ?_ hkeep⟩,
      known_resume (fun r' hr => hkeep k _ (hk r' (List.mem_cons_of_mem _ hr))) _ _⟩
    · simp [State.withStore,State.goto,Store.updateLastMetered]
    · cases k <;> rfl
    · cases k <;> rfl
  | delete k id deletedAt eventID now f =>
    refine handleDelete_keeps (P := fun t => (∃ es, Inserts s t es) ∧ t.phase.Known t.store)
      (fun u hu => ?_) (fun u hu => ?_)
    · obtain ⟨es,hes⟩ := hu.inserts
      have hphase : u.phase = s.phase := by cases hu <;> rfl
      exact ⟨⟨es,hes⟩,hphase ▸ hk.mono hes.keeps⟩
    · obtain ⟨⟨es,hes⟩,hu⟩ := hu
      exact ⟨⟨es,hes.mark k id deletedAt eventID now⟩,
        Phase.Known.mono hu (Store.keeps_markDeleted k id deletedAt eventID now)⟩
  | restart => exact ⟨⟨[],.none rfl (Nat.le_refl _) rfl rfl (.refl _)⟩,trivial⟩

end CostConsumer.Metering
