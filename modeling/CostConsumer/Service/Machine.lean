import CostConsumer.Ingest.Transactions
import CostConsumer.Metering.Machine
set_option autoImplicit false

/-!
The service as a whole: the metering process, the watcher and the reconciler, which
change the inventory, and the events that ingestion commits. The calls of an event
take effect together when its transaction commits.
-/

namespace CostConsumer.Service
open Inventory Foundation Metering Ingest

variable {δ : Type}

/-- `reconciled` is a resource that reconciliation no longer finds. -/
inductive Label where
  | meter (l : Metering.Label) : Label
  | upsertTenant (r : TenantRecord) (now : Int) : Label
  | reconciled (k : Kind) (id : String) (now : Int) : Label
  | event (ce : CloudEvent) (now : Int) : Label

/-- The calls of an event one after another, and what they wrote. -/
def runCalls (now : Int) :
    Metering.State → List Call → Except StoreError (Metering.State × List (Write Unit))
  | s, [] => .ok (s,[])
  | s, c :: calls =>
    let db : Database Unit := { toStore := s.store }
    let (projectID,cache) := c.project s.store false s.projectCache
    match c.write db now s.nextID projectID with
    | .error e => .error e
    | .ok w =>
      let t : Metering.State :=
        ⟨(w.toList.foldl Write.apply db).toStore,s.nextID + (c.entries projectID).length,cache,s.phase⟩
      match runCalls now t calls with
      | .error e => .error e
      | .ok (u,ws) => .ok (u,w.toList ++ ws)

def accepted (env : Env δ) (now : Int) (ce : CloudEvent) : Option (List Call) :=
  match validateCloudEvent env.decoder env.identify now ce, env.storable ce, env.handle ce with
  | .ok (), true, .ok calls => some calls
  | _, _, _ => none

theorem accepted_handle {env : Env δ} {now : Int} {ce : CloudEvent} {calls : List Call}
    (h : accepted env now ce = some calls) : env.handle ce = .ok calls := by
  unfold accepted at h
  split at h
  · rename_i hh
    rw [hh,Option.some.inj h]
  · cases h

def step (env : Env δ) (s : Metering.State) (l : Label) : Option Metering.State :=
  match l with
  | .meter l => Metering.step s l
  | .upsertTenant r now => some (s.withStore (s.store.upsertTenant now r))
  | .reconciled k id now => some (s.withStore (s.store.markDeleted k id now "reconcile" now))
  | .event ce now =>
    (accepted env now ce).bind fun calls => (runCalls now s calls).toOption.map (·.1)

inductive Moves (env : Env δ) (s : Metering.State) : Label → Metering.State → Prop
  | meter {l : Metering.Label} {t : Metering.State} (h : Metering.step s l = some t) :
      Moves env s (.meter l) t
  | upsertTenant (r : TenantRecord) (now : Int) :
      Moves env s (.upsertTenant r now) (s.withStore (s.store.upsertTenant now r))
  | reconciled (k : Kind) (id : String) (now : Int) :
      Moves env s (.reconciled k id now) (s.withStore (s.store.markDeleted k id now "reconcile" now))
  | event {ce : CloudEvent} {now : Int} {calls : List Call} {t : Metering.State}
      {ws : List (Write Unit)} (ha : accepted env now ce = some calls)
      (hr : runCalls now s calls = .ok (t,ws)) : Moves env s (.event ce now) t

theorem step_moves {env : Env δ} {s t : Metering.State} {l : Label} (h : step env s l = some t) :
    Moves env s l t := by
  cases l with
  | meter l => exact .meter h
  | upsertTenant r now =>
    cases h
    exact .upsertTenant r now
  | reconciled k id now =>
    cases h
    exact .reconciled k id now
  | event ce now =>
    obtain ⟨calls,ha,h⟩ := Option.bind_eq_some_iff.mp h
    cases hr : runCalls now s calls with
    | error e => simp [hr,Except.toOption] at h
    | ok p =>
      simp only [hr,Except.toOption,Option.map_some,Option.some.injEq] at h
      rw [← h]
      exact .event ha hr

theorem runCalls_first {now : Int} {s u : Metering.State} {c : Call} {calls : List Call}
    {ws : List (Write Unit)} (h : runCalls now s (c :: calls) = .ok (u,ws)) :
    ∃ (w : Option (Write Unit)) (rest : List (Write Unit)),
      c.write { toStore := s.store } now s.nextID (c.project s.store false s.projectCache).1 = .ok w ∧
      ws = w.toList ++ rest ∧
      runCalls now ⟨(w.toList.foldl Write.apply { toStore := s.store }).toStore,
        s.nextID + (c.entries (c.project s.store false s.projectCache).1).length,
        (c.project s.store false s.projectCache).2,s.phase⟩ calls = .ok (u,rest) := by
  unfold runCalls at h
  dsimp only at h
  split at h
  · cases h
  · rename_i w hw
    split at h
    · cases h
    · rename_i u' rest hr
      cases h
      exact ⟨w,rest,hw,rfl,hr⟩

theorem runCalls_cons {now : Int} {s u : Metering.State} {c : Call} {calls : List Call}
    {ws : List (Write Unit)} (h : runCalls now s (c :: calls) = .ok (u,ws)) :
    ∃ (projectID : String) (cache : ProjectCache) (w : Option (Write Unit)) (rest : List (Write Unit)),
      c.write { toStore := s.store } now s.nextID projectID = .ok w ∧ ws = w.toList ++ rest ∧
      runCalls now ⟨(w.toList.foldl Write.apply { toStore := s.store }).toStore,
        s.nextID + (c.entries projectID).length,cache,s.phase⟩ calls = .ok (u,rest) := by
  obtain ⟨w,rest,hw,hws,hr⟩ := runCalls_first h
  exact ⟨_,_,w,rest,hw,hws,hr⟩

theorem runCalls_performed {now : Int} {s u : Metering.State} {calls : List Call}
    {ws : List (Write Unit)} (h : runCalls now s calls = .ok (u,ws)) : Performed now calls ws := by
  induction calls generalizing s ws with
  | nil =>
    cases h
    exact .nil
  | cons c calls ih =>
    obtain ⟨projectID,cache,w,rest,hw,rfl,hr⟩ := runCalls_cons h
    exact Performed.cons hw (ih hr)

/-- An environment with a heartbeat of an instance and one of a cluster, and v1
events of the instance with the long and the short name of its state. -/
def sampleEnv : Env CloudEvent where
  decoder :=
    { peek := fun data =>
        if data = "vm" then some ⟨"acme","","vm-1","","",""⟩
        else if data = "cluster" then some ⟨"acme","","","cl-1","",""⟩
        else none
      meteringData := fun data =>
        if data = "vm" then
          some ⟨"vm-1","compute_instance","acme",none,none,"COMPUTE_INSTANCE_STATE_RUNNING",none,""⟩
        else if data = "short" then
          some ⟨"vm-1","compute_instance","acme",none,none,"RUNNING",none,""⟩
        else none
      computeInstance := fun data =>
        if data = "vm" then some ⟨60,120,240,"acme","vm-1","COMPUTE_INSTANCE_STATE_RUNNING",2,4⟩
        else none
      cluster := fun data =>
        if data = "cluster" then some ⟨60,0,"acme","cl-1","CLUSTER_STATE_READY","_control_plane"⟩
        else none
      model := fun _ => none
      vmInstanceType := fun _ => none
      clusterTemplate := fun _ => ""
      maasDimensions := fun _ => ⟨"","",0,0,0⟩ }
  customMetrics := []
  object := fun _ => none
  format := fun _ => ""
  parseFloat := fun _ => none
  digest := id
  digest_injective := Function.injective_id

def sampleEvent (type data : String) (time : Int) : CloudEvent :=
  ⟨"1.0",type,"collector","e-1",time,"","",data,"vm-1","compute_instance","acme","",""⟩

end CostConsumer.Service
