import CostConsumer.Foundation.Transition
import CostConsumer.Metering.Meters
set_option autoImplicit false

/-!
The metering process: a sweep lists the billable resources of each kind and, for
each of them, stores the entries of the elapsed interval and then moves the
checkpoint. Each store call is one step and may fail, and the process may be
restarted between two of them.
-/

namespace CostConsumer.Metering
open Inventory Foundation

/-- Where the sweep is: between sweeps, about to list the resources of a kind,
at the top of the loop over them, or between the two statements for one
resource, with the outcome of the first. -/
inductive Phase where
  | idle : Phase
  | list (k : Kind) (now : Int) : Phase
  | pass (k : Kind) (now : Int) (types : InstanceTypes) (todo : List k.Record) : Phase
  | stored (k : Kind) (now : Int) (types : InstanceTypes) (r : k.Record) (todo : List k.Record)
      (ok : Bool) : Phase

structure State where
  store : Store
  nextID : Nat
  projectCache : ProjectCache
  phase : Phase

structure MeterFaults where
  project : Bool := false
  insert : Bool := false

/-- Which calls fail while a watch DELETE is handled. -/
structure DeleteFaults where
  read : Bool := false
  types : Bool := false
  project : Bool := false
  insert : Bool := false
  mark : Bool := false

inductive Label where
  | upsert (k : Kind) (r : k.Record) (now : Int) : Label
  | upsertInstanceType (r : InstanceTypeRecord) (now : Int) : Label
  | upsertProject (r : ProjectRecord) (now : Int) : Label
  | sweep (now : Int) : Label
  | list (failed typesFailed : Bool) : Label
  | meter (f : MeterFaults) : Label
  | update (failed : Bool) : Label
  | delete (k : Kind) (id : String) (deletedAt : Int) (eventID : String) (now : Int)
      (f : DeleteFaults) : Label
  | restart : Label

def loadInstanceTypeMap (s : Store) (failed : Bool) : InstanceTypes :=
  if failed then none else some s.instanceTypes

def after : Kind → Int → Phase
  | .computeInstance, now => .list .cluster now
  | .cluster, now => .list .bareMetal now
  | .bareMetal, _ => .idle

def resume (k : Kind) (now : Int) (types : InstanceTypes) : List k.Record → Phase
  | [] => after k now
  | r :: todo => .pass k now types (r :: todo)

namespace State

def goto (s : State) (phase : Phase) : State := { s with phase }

def withStore (s : State) (store : Store) : State := { s with store }

/-- The entries of a resource from its checkpoint to `stop`, and the cache after
the project was looked up. -/
def entriesUntil (s : State) (k : Kind) (r : k.Record) (types : InstanceTypes) (failed : Bool)
    (stop : Int) : List MeteringEntry × ProjectCache :=
  let (projectID,cache) := resolveProject s.store failed s.projectCache (k.project r) (k.tenant r)
  (meters k r types projectID (GoTime.seconds (GoTime.sub stop (periodStart k r))) (periodStart k r)
    stop,cache)

/-- The insert of a batch. Ids are taken from the sequence even if it fails. -/
def insertBatch (s : State) (failed : Bool) (batch : List MeteringEntry × ProjectCache) :
    State × Bool :=
  let t := { s with nextID := s.nextID + batch.1.length, projectCache := batch.2 }
  if failed then (t,false)
  else match s.store.insertMeteringEntryBatch s.nextID batch.1 with
    | .ok store => (t.withStore store,true)
    | .error _ => (t,false)

/-- `MeterComputeInstanceFinal` and `MeterBareMetalInstanceFinal`; there is none
for clusters. The checkpoint is not moved. -/
def meterFinal (s : State) (k : Kind) (id : String) (deletedAt : Int) (f : DeleteFaults) : State :=
  if k = .cluster ∨ f.read then s
  else match (s.store.table k).find? id with
    | none => s
    | some r =>
      if k.state r ∉ billableStates k ∨ GoTime.sub deletedAt (periodStart k r) ≤ 0 then s
      else (s.insertBatch f.insert (s.entriesUntil k r (loadInstanceTypeMap s.store f.types)
        f.project deletedAt)).1

def handleDelete (s : State) (k : Kind) (id : String) (deletedAt : Int) (eventID : String)
    (now : Int) (f : DeleteFaults) : State :=
  let s := s.meterFinal k id deletedAt f
  if f.mark then s else s.withStore (s.store.markDeleted k id deletedAt eventID now)

end State

/-- A `Bool` of a label says that the call fails. -/
def step (s : State) (l : Label) : Option State :=
  match l, s.phase with
  | .upsert k r now, _ => some (s.withStore (s.store.upsert k now r))
  | .upsertInstanceType r now, _ => some (s.withStore (s.store.upsertInstanceType now r))
  | .upsertProject r now, _ =>
    some { s with
      store := s.store.upsertProject now r
      projectCache := Function.update s.projectCache r.tenant none }
  | .sweep now, .idle => some (s.goto (.list .computeInstance now))
  | .list failed typesFailed, .list k now =>
    some (if failed then s.goto (after k now)
      else s.goto (resume k now (loadInstanceTypeMap s.store typesFailed) (s.store.billable k)))
  | .meter f, .pass k now types (r :: todo) =>
    if GoTime.sub now (periodStart k r) ≤ 0 then some (s.goto (resume k now types todo))
    else
      let (t,ok) := s.insertBatch f.insert (s.entriesUntil k r types f.project now)
      some (t.goto (.stored k now types r todo ok))
  | .update failed, .stored k now types r todo _ =>
    let s := s.goto (resume k now types todo)
    some (if failed then s else s.withStore (s.store.updateLastMetered k (k.id r) now))
  | .delete k id deletedAt eventID now f, _ => some (s.handleDelete k id deletedAt eventID now f)
  | .restart, _ => some { s with projectCache := fun _ => none, phase := .idle }
  | _, _ => none

inductive Moves (s : State) : Label → State → Prop
  | upsert (k : Kind) (r : k.Record) (now : Int) :
      Moves s (.upsert k r now) (s.withStore (s.store.upsert k now r))
  | upsertInstanceType (r : InstanceTypeRecord) (now : Int) :
      Moves s (.upsertInstanceType r now) (s.withStore (s.store.upsertInstanceType now r))
  | upsertProject (r : ProjectRecord) (now : Int) :
      Moves s (.upsertProject r now)
        { s with
          store := s.store.upsertProject now r
          projectCache := Function.update s.projectCache r.tenant none }
  | sweep (now : Int) (hp : s.phase = .idle) :
      Moves s (.sweep now) (s.goto (.list .computeInstance now))
  | listFails {k : Kind} {now : Int} (typesFailed : Bool) (hp : s.phase = .list k now) :
      Moves s (.list true typesFailed) (s.goto (after k now))
  | list {k : Kind} {now : Int} (typesFailed : Bool) (hp : s.phase = .list k now) :
      Moves s (.list false typesFailed)
        (s.goto (resume k now (loadInstanceTypeMap s.store typesFailed) (s.store.billable k)))
  | skip {k : Kind} {now : Int} {types : InstanceTypes} {r : k.Record} {todo : List k.Record}
      (f : MeterFaults) (hp : s.phase = .pass k now types (r :: todo)) (hn : now ≤ periodStart k r) :
      Moves s (.meter f) (s.goto (resume k now types todo))
  | meterFails {k : Kind} {now : Int} {types : InstanceTypes} {r : k.Record} {todo : List k.Record}
      (f : MeterFaults) (hp : s.phase = .pass k now types (r :: todo)) (hn : periodStart k r < now) :
      Moves s (.meter f)
        { s with
          nextID := s.nextID + (s.entriesUntil k r types f.project now).1.length
          projectCache := (s.entriesUntil k r types f.project now).2
          phase := .stored k now types r todo false }
  | meter {k : Kind} {now : Int} {types : InstanceTypes} {r : k.Record} {todo : List k.Record}
      (f : MeterFaults) (hp : s.phase = .pass k now types (r :: todo)) (hn : periodStart k r < now) :
      Moves s (.meter f)
        { s with
          store := s.store.addMetering s.nextID (s.entriesUntil k r types f.project now).1
          nextID := s.nextID + (s.entriesUntil k r types f.project now).1.length
          projectCache := (s.entriesUntil k r types f.project now).2
          phase := .stored k now types r todo true }
  | updateFails {k : Kind} {now : Int} {types : InstanceTypes} {r : k.Record}
      {todo : List k.Record} {ok : Bool} (hp : s.phase = .stored k now types r todo ok) :
      Moves s (.update true) (s.goto (resume k now types todo))
  | update {k : Kind} {now : Int} {types : InstanceTypes} {r : k.Record} {todo : List k.Record}
      {ok : Bool} (hp : s.phase = .stored k now types r todo ok) :
      Moves s (.update false)
        ((s.goto (resume k now types todo)).withStore
          (s.store.updateLastMetered k (k.id r) now))
  | delete (k : Kind) (id : String) (deletedAt : Int) (eventID : String) (now : Int)
      (f : DeleteFaults) :
      Moves s (.delete k id deletedAt eventID now f)
        (s.handleDelete k id deletedAt eventID now f)
  | restart : Moves s .restart { s with projectCache := fun _ => none, phase := .idle }

theorem insertBatch_cases (s : State) (failed : Bool) (batch : List MeteringEntry × ProjectCache) :
    s.insertBatch failed batch =
        ({ s with nextID := s.nextID + batch.1.length, projectCache := batch.2 },false) ∨
      s.insertBatch failed batch =
        ({ s with
          store := s.store.addMetering s.nextID batch.1
          nextID := s.nextID + batch.1.length
          projectCache := batch.2 },true) := by
  unfold State.insertBatch
  cases failed with
  | true => exact .inl rfl
  | false =>
    cases h : s.store.insertMeteringEntryBatch s.nextID batch.1 with
    | error e => exact .inl (by simp)
    | ok store =>
      refine .inr ?_
      simp [State.withStore,Store.insertMeteringEntryBatch_ok h]

/-- What the final metering of a deleted resource leaves: the entries up to the
deletion, or at most ids that were taken for them. -/
inductive Final (s : State) (k : Kind) (id : String) (deletedAt : Int) : State → Prop
  | none (nextID : Nat) (cache : ProjectCache) (hn : s.nextID ≤ nextID) :
      Final s k id deletedAt { s with nextID, projectCache := cache }
  | stored {r : k.Record} (types : InstanceTypes) (failed : Bool) (hr : r ∈ (s.store.table k).rows)
      (hid : k.id r = id) :
      Final s k id deletedAt
        { s with
          store := s.store.addMetering s.nextID (s.entriesUntil k r types failed deletedAt).1
          nextID := s.nextID + (s.entriesUntil k r types failed deletedAt).1.length
          projectCache := (s.entriesUntil k r types failed deletedAt).2 }

theorem meterFinal_final (s : State) (k : Kind) (id : String) (deletedAt : Int) (f : DeleteFaults) :
    Final s k id deletedAt (s.meterFinal k id deletedAt f) := by
  have hnone : Final s k id deletedAt s := .none s.nextID s.projectCache (Nat.le_refl _)
  unfold State.meterFinal
  split
  · exact hnone
  · split
    · exact hnone
    · rename_i r hr
      obtain ⟨hmem,hid⟩ := Table.find?_eq_some.mp hr
      split
      · exact hnone
      · rcases insertBatch_cases s f.insert (s.entriesUntil k r (loadInstanceTypeMap s.store f.types)
          f.project deletedAt) with hb | hb
        · rw [hb]
          exact .none _ _ (Nat.le_add_right _ _)
        · rw [hb]
          exact .stored _ _ hmem hid

/-- The two statements of a deletion: the final metering, and the mark that is not
set when its update fails. -/
theorem handleDelete_keeps {P : State → Prop} {s : State} {k : Kind} {id : String} {deletedAt : Int}
    {eventID : String} {now : Int} {f : DeleteFaults}
    (hfinal : ∀ t, Final s k id deletedAt t → P t)
    (hmark : ∀ t, P t → P (t.withStore (t.store.markDeleted k id deletedAt eventID now))) :
    P (s.handleDelete k id deletedAt eventID now f) := by
  have h := hfinal _ (meterFinal_final s k id deletedAt f)
  unfold State.handleDelete
  dsimp only
  split
  · exact h
  · exact hmark _ h

theorem step_moves {s t : State} {l : Label} (h : step s l = some t) : Moves s l t := by
  unfold step at h
  split at h
  · cases h; exact .upsert _ _ _
  · cases h; exact .upsertInstanceType _ _
  · cases h; exact .upsertProject _ _
  · rename_i hp
    cases h; exact .sweep _ hp
  · rename_i failed typesFailed k now hp
    cases failed with
    | true => cases h; exact .listFails typesFailed hp
    | false => cases h; exact .list typesFailed hp
  · rename_i f k now types r todo hp
    by_cases hn : now ≤ periodStart k r
    · simp only [GoTime.sub_nonpos_iff,hn,if_true,Option.some.injEq] at h
      rw [← h]
      exact .skip f hp hn
    · simp only [GoTime.sub_nonpos_iff,hn,if_false,Option.some.injEq] at h
      rw [← h]
      rcases insertBatch_cases s f.insert (s.entriesUntil k r types f.project now) with hb | hb
      · rw [hb]
        exact .meterFails f hp (not_le.mp hn)
      · rw [hb]
        exact .meter f hp (not_le.mp hn)
  · rename_i failed k now types r todo ok hp
    cases failed with
    | true => cases h; exact .updateFails hp
    | false => cases h; exact .update hp
  · cases h; exact .delete _ _ _ _ _ _
  · cases h; exact .restart
  · cases h

/-- The machine starts with no resources and no metering entries. -/
def initial (s : State) : Prop :=
  s.store.meteringEntries.rows = [] ∧ (∀ k, (s.store.table k).rows = []) ∧ s.phase = .idle

end CostConsumer.Metering
