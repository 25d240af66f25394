import CostConsumer.Ingest.Unmarshal
import CostConsumer.Ingest.Usage
import CostConsumer.Service.Lifecycle
set_option autoImplicit false

namespace CostConsumer.Service
open Inventory Foundation Metering Ingest Resource

variable {δ : Type}

/-- The collector's heartbeats, and the v1 events. -/
inductive Producer where
  | heartbeat : Producer
  | lifecycle : Producer
  deriving DecidableEq, Repr

inductive About (env : Env δ) (ce : CloudEvent) : Producer → Kind → String → Prop
  | computeInstance {data : ComputeInstanceEventData} (ht : ce.type = eventTypeComputeInstance)
      (hdata : env.decoder.computeInstance ce.data = some data) :
      About env ce .heartbeat .computeInstance data.instanceID
  | cluster {data : ClusterEventData} (ht : ce.type = eventTypeCluster)
      (hdata : env.decoder.cluster ce.data = some data) :
      About env ce .heartbeat .cluster data.clusterID
  | osacComputeInstance {md : MeteringData} (hv1 : isOSACv1 ce = true)
      (hmd : env.decoder.meteringData ce.data = some md) (ht : md.resourceType = "compute_instance") :
      About env ce .lifecycle .computeInstance md.resourceID
  | osacClusterOrder {md : MeteringData} (hv1 : isOSACv1 ce = true)
      (hmd : env.decoder.meteringData ce.data = some md) (ht : md.resourceType = "cluster_order") :
      About env ce .lifecycle .cluster md.resourceID

/-- The columns an event can have a value for. -/
inductive Column where
  | tenant : Column
  | project : Column
  | instanceType : Column
  | template : Column
  | cores : Column
  | memoryGiB : Column
  | state : Column

/-- The payload of the event has a value for the column that is not null. The type of a v1
event says of a deleted resource which state it is in. -/
def carries (parse : String → Option Document) (render : Document → String) (ce : CloudEvent) :
    Producer → Column → Bool :=
  let ms := payload parse ce.data
  let bd := dimensions parse (ms.raw render "billing_dimensions")
  fun
  | _, .tenant => ms.has "tenant_id"
  | .heartbeat, .state => ms.has "state"
  | .heartbeat, .cores => ms.has "cores"
  | .heartbeat, .memoryGiB => ms.has "memory_gib"
  | .heartbeat, .template => ms.has "template"
  | .lifecycle, .state => ce.type = eventTypeResourceDeleted || ms.has "current_state"
  | .lifecycle, .project => ms.has "project_id"
  | .lifecycle, .instanceType => bd.has "instance_type"
  | .lifecycle, .template => bd.has "cluster_template" || ms.has "template_id"
  | _, _ => false

section Columns
variable (p : Producer) (carried : Column → Bool)

/-- Only the columns that are carried have changed, and those that say when and by which event
the row was updated; a heartbeat moves the checkpoint. -/
def OnlyCarried : (k : Kind) → k.Record → k.Record → Prop
  | .computeInstance, r, r' => r' =
      { r with
        tenant := if carried .tenant then r'.tenant else r.tenant
        project := if carried .project then r'.project else r.project
        instanceType := if carried .instanceType then r'.instanceType else r.instanceType
        cores := if carried .cores then r'.cores else r.cores
        memoryGiB := if carried .memoryGiB then r'.memoryGiB else r.memoryGiB
        state := if carried .state then r'.state else r.state
        lastEventID := r'.lastEventID, lastUpdated := r'.lastUpdated
        lastMeteredAt := if p = .heartbeat then r'.lastMeteredAt else r.lastMeteredAt }
  | .cluster, r, r' => r' =
      { r with
        tenant := if carried .tenant then r'.tenant else r.tenant
        template := if carried .template then r'.template else r.template
        state := if carried .state then r'.state else r.state
        lastEventID := r'.lastEventID, lastUpdated := r'.lastUpdated
        lastMeteredAt := if p = .heartbeat then r'.lastMeteredAt else r.lastMeteredAt }
  | .bareMetal, r, r' => r' = r

/-- The row has nothing in the columns that are overwritten without a value for them. -/
def Vacant : (k : Kind) → k.Record → Prop
  | .computeInstance, r => r.name = "" ∧ r.clusterID = "" ∧ r.labels = some [] ∧ r.deletedAt = none ∧
      (carried .tenant = false → r.tenant = "") ∧ (carried .project = false → r.project = "") ∧
      (carried .instanceType = false → r.instanceType = "") ∧ (carried .cores = false → r.cores = 0) ∧
      (carried .memoryGiB = false → r.memoryGiB = 0) ∧ (carried .state = false → r.state = "")
  | .cluster, r => r.name = "" ∧ r.nodeSets = some [] ∧ r.labels = some [] ∧ r.deletedAt = none ∧
      (carried .tenant = false → r.tenant = "") ∧ (carried .template = false → r.template = "") ∧
      (carried .state = false → r.state = "")
  | .bareMetal, _ => True

/-- A heartbeat of a cluster writes no row, and one of an instance only in a billable state. -/
def Writes (env : Env δ) (ce : CloudEvent) : Producer → Kind → Bool
  | .lifecycle, _ => true
  | .heartbeat, .computeInstance =>
      (env.decoder.computeInstance ce.data).any (·.state ∈ billableStates .computeInstance)
  | .heartbeat, _ => false

end Columns

section Store
variable {s t : Metering.State} {now : Int} {calls : List Call} {ws : List (Write Unit)}

theorem runCalls_upsert {k : Kind} {r : k.Record}
    (h : runCalls now s (.upsert k r :: calls) = .ok (t,ws)) : ∃ rest, runCalls now
      ⟨s.store.upsert k now r,s.nextID,s.projectCache,s.phase⟩ calls = .ok (t,rest) := by
  obtain ⟨w,rest,hw,-,hr⟩ := runCalls_first h
  cases hw
  exact ⟨rest,hr⟩

theorem runCalls_metered {entries : List MeteringEntry} {k : Kind} {id : String} {time : Int}
    (hrow : ((s.store.table k).find? id).isSome)
    (h : runCalls now s [.insertMetering entries,.updateLastMetered k id time] = .ok (t,ws)) :
    t.store = (s.store.addMetering s.nextID entries).updateLastMetered k id time := by
  obtain ⟨w,rest,hw,-,hr⟩ := runCalls_first h
  obtain ⟨w',rest',hw',-,hr'⟩ := runCalls_first hr
  cases hi : s.store.insertMeteringEntryBatch s.nextID entries with
  | error e => simp [Call.write,hi,Except.map] at hw
  | ok store =>
    simp only [Call.write,hi,Except.map,Except.ok.injEq] at hw
    subst hw
    rw [Option.toList_some,List.foldl_cons,List.foldl_nil] at hw'
    simp only [Call.write,Write.apply,table_addMetering,hrow,if_true,Except.ok.injEq] at hw'
    subst hw'
    cases hr'
    rfl

theorem find?_of_other_lock {w : Write Unit} {k : Kind} {id : String} (h : w.lock ≠ some (.resource k id))
    (db : Database Unit) : ((w.apply db).table k).find? id = (db.table k).find? id := by
  cases w with
  | receipt r => rfl
  | rawEvent e => rfl
  | upsert k' r now =>
    by_cases hk : k = k'
    · subst hk
      refine (Store.find?_upsert _ k now r id).trans (if_neg fun hid => h ?_)
      rw [Write.lock,hid]
    · exact congrArg (·.find? id) (Store.table_upsert_of_ne _ hk now r)
  | upsertModel r now => cases k <;> rfl
  | lastMetered k' id' time =>
    by_cases hk : k = k'
    · subst hk
      refine (Store.find?_updateLastMetered _ k id' time id).trans ?_
      cases hf : (db.table k).find? id with
      | none => rfl
      | some r =>
        have hid := (Table.find?_eq_some.mp hf).2
        rw [Option.map_some,if_neg fun hid' => h (by rw [Write.lock,← hid',hid])]
    · exact congrArg (·.find? id) (Store.table_setTable_of_ne _ hk _)
  | metering n entries => exact congrArg (·.find? id) (table_addMetering _ n entries k)

theorem runCalls_others {k : Kind} {id : String} (h : runCalls now s calls = .ok (t,ws))
    (hl : ∀ c ∈ calls, ∀ n projectID, (c.written now n projectID : Write Unit).lock ≠ some (.resource k id)) :
    (t.store.table k).find? id = (s.store.table k).find? id := by
  induction calls generalizing s ws with
  | nil =>
    cases h
    rfl
  | cons c calls ih =>
    obtain ⟨w,rest,hw,-,hr⟩ := runCalls_first h
    rw [ih hr fun c hc => hl c (List.mem_cons_of_mem _ hc)]
    rcases Call.write_ok hw with rfl | ⟨rfl,-⟩
    · exact find?_of_other_lock (hl c List.mem_cons_self _ _) _
    · rfl

end Store

section Rows
variable {env : Env δ} {s t : Metering.State} {ce : CloudEvent} {now : Int}

theorem event_runs (hst : step env s (.event ce now) = some t) :
    ∃ calls ws, env.handle ce = .ok calls ∧ runCalls now s calls = .ok (t,ws) := by
  cases step_moves hst with
  | event ha hr => exact ⟨_,_,accepted_handle ha,hr⟩

theorem upserted_row (now : Int) {k : Kind} {record r : k.Record} {id : String} (hid : k.id record = id)
    (hrow : (s.store.table k).find? id = some r) :
    ((s.store.upsert k now record).table k).find? id = some (k.merge now record r) := by
  rw [Store.find?_upsert,if_pos hid,hrow]
  rfl

theorem metered_row {store : Store} {k : Kind} {r : k.Record} {id : String} (n : Nat)
    (entries : List MeteringEntry) (time : Int) (hrow : (store.table k).find? id = some r) :
    (((store.addMetering n entries).updateLastMetered k id time).table k).find? id =
      some (k.setMetered time r) := by
  have hid := (Table.find?_eq_some.mp hrow).2
  rw [Store.find?_updateLastMetered,table_addMetering,hrow,Option.map_some,if_pos hid]

theorem heartbeat_row {k : Kind} {record r : k.Record} {id : String} {entries : List MeteringEntry}
    {time : Int} {ws : List (Write Unit)} (hid : k.id record = id)
    (hrow : (s.store.table k).find? id = some r)
    (hr : runCalls now s [.upsert k record,.insertMetering entries,.updateLastMetered k id time] = .ok (t,ws)) :
    (t.store.table k).find? id = some (k.setMetered time (k.merge now record r)) := by
  obtain ⟨rest,hr⟩ := runCalls_upsert hr
  have hmerged := upserted_row now hid hrow
  rw [runCalls_metered (Option.isSome_of_eq_some hmerged) hr]
  exact metered_row _ _ _ hmerged

theorem cluster_calls {data : ClusterEventData} {calls : List Call} (ht : ce.type = eventTypeCluster)
    (hdata : env.decoder.cluster ce.data = some data) (hh : env.handle ce = .ok calls) :
    calls = [] ∨ ∃ entries, calls =
      [.insertMetering entries,.updateLastMetered .cluster data.clusterID ce.time] := by
  rw [handle_cluster env ht,processClusterEvent,hdata] at hh
  dsimp only at hh
  split at hh
  · cases hh
    exact .inl rfl
  · split at hh
    · cases hh
    · cases hh
      exact .inr ⟨_,rfl⟩

theorem v1_upserts {md : MeteringData} {calls : List Call} (hv1 : isOSACv1 ce = true)
    (hmd : env.decoder.meteringData ce.data = some md) (hh : env.handle ce = .ok calls) :
    (md.resourceType = "compute_instance" → calls = processOSACComputeInstance env.decoder ce md) ∧
      (md.resourceType = "cluster_order" → calls = processOSACClusterOrder env.decoder ce md) := by
  rw [handle_v1 env hv1,processOSACResourceEvent,hmd] at hh
  dsimp only at hh
  constructor
  · intro ht
    rw [ht] at hh
    cases hh
    rfl
  · intro ht
    rw [ht] at hh
    cases hh
    rfl

end Rows

section Carried
variable {p : Producer} {carried : Column → Bool}

theorem kept_iff {α : Type} {c : Bool} {old new unset : α} (h : c = false → new = unset) :
    new = (if c then new else old) ↔ (c = false → old = unset) := by
  cases c with
  | false => simp [h rfl,eq_comm]
  | true => simp

theorem onlyCarried_refl (k : Kind) (r : k.Record) : OnlyCarried p carried k r r := by
  cases k <;> simp [OnlyCarried]

theorem onlyCarried_setMetered (k : Kind) (hk : k ≠ .bareMetal) (r : k.Record) (time : Int) :
    OnlyCarried .heartbeat carried k r (k.setMetered time r) := by
  cases k with
  | bareMetal => exact absurd rfl hk
  | _ => simp [OnlyCarried,Kind.setMetered]

theorem instance_iff (ce : CloudEvent) (r : ComputeInstanceRecord) (now createdAt : Int) (metered : Option Int)
    (hm : p = .heartbeat ∨ metered = r.lastMeteredAt) (instanceID : String)
    {tenant project instanceType state : String} {cores memoryGiB : Int}
    (htenant : carried .tenant = false → tenant = "") (hproject : carried .project = false → project = "")
    (htype : carried .instanceType = false → instanceType = "") (hcores : carried .cores = false → cores = 0)
    (hmemory : carried .memoryGiB = false → memoryGiB = 0) (hstate : carried .state = false → state = "") :
    OnlyCarried p carried .computeInstance r { Kind.merge .computeInstance now
        (eventInstance ce instanceID tenant project instanceType state cores memoryGiB createdAt) r with
        lastMeteredAt := metered } ↔ Vacant carried .computeInstance r := by
  have hmetered : metered = (if p = .heartbeat then metered else r.lastMeteredAt) := by
    rcases hm with rfl | rfl <;> simp
  cases r
  simp only [OnlyCarried,Vacant,Kind.merge,eventInstance,ComputeInstanceRecord.mk.injEq,kept_iff htenant,
    kept_iff hproject,kept_iff htype,kept_iff hcores,kept_iff hmemory,kept_iff hstate,true_and,
    marshalLabels_none,eq_comm (a := ""),eq_comm (a := some []),eq_comm (a := (none : Option Int))]
  constructor
  · rintro ⟨hn,ht,hpr,hc,hi,hcores,hmem,hs,hl,hd,-⟩
    exact ⟨hn,hc,hl,hd,ht,hpr,hi,hcores,hmem,hs⟩
  · rintro ⟨hn,hc,hl,hd,ht,hpr,hi,hcores,hmem,hs⟩
    exact ⟨hn,ht,hpr,hc,hi,hcores,hmem,hs,hl,hd,hmetered⟩

theorem cluster_iff (r : ClusterRecord) (now createdAt : Int) (clusterID eventID : String)
    {tenant template state : String} (htenant : carried .tenant = false → tenant = "")
    (htemplate : carried .template = false → template = "") (hstate : carried .state = false → state = "") :
    OnlyCarried .lifecycle carried .cluster r (Kind.merge .cluster now
        ⟨clusterID,"",tenant,template,marshalLabels none,state,marshalLabels none,createdAt,none,eventID,0,none⟩ r) ↔
      Vacant carried .cluster r := by
  cases r
  simp only [OnlyCarried,Vacant,Kind.merge,ClusterRecord.mk.injEq,kept_iff htenant,kept_iff htemplate,
    kept_iff hstate,true_and,and_true,marshalLabels_none,eq_comm (a := ""),eq_comm (a := some []),
    eq_comm (a := (none : Option Int)),reduceCtorEq,if_false]
  constructor
  · rintro ⟨hn,ht,hte,hsets,hs,hl,hd⟩
    exact ⟨hn,hsets,hl,hd,ht,hte,hs⟩
  · rintro ⟨hn,hsets,hl,hd,ht,hte,hs⟩
    exact ⟨hn,ht,hte,hsets,hs,hl,hd⟩

end Carried

section Rows
variable {env : Env δ} {parse : String → Option Document} {render : Document → String}
  {s t : Metering.State} {ce : CloudEvent} {now : Int}

theorem osacState_of_absent {parseFloat : String → Option Rat} {md : MeteringData}
    (hmd : md = meteringDataOf parseFloat render (payload parse ce.data))
    (h : carries parse render ce .lifecycle .state = false) : osacState ce md = "" := by
  obtain ⟨ht,hstate⟩ := Bool.or_eq_false_iff.mp h
  rw [osacState,if_neg (of_decide_eq_false ht),hmd]
  exact Members.text_of_absent hstate

theorem About.row {p : Producer} {k : Kind} {id : String} {r : k.Record}
    (ha : About (env.withJson parse render) ce p k id) (hrow : (s.store.table k).find? id = some r)
    (hst : step (env.withJson parse render) s (.event ce now) = some t) :
    ∃ r', (t.store.table k).find? id = some r' ∧ (OnlyCarried p (carries parse render ce p) k r r' ↔
      (Writes (env.withJson parse render) ce p k = true → Vacant (carries parse render ce p) k r)) := by
  obtain ⟨calls,ws,hh,hr⟩ := event_runs hst
  cases ha with
  | @computeInstance data ht hdata =>
    rcases computeInstance_calls ht hdata hh with ⟨hs,rfl⟩ | ⟨hs,rfl⟩
    · cases hr
      exact ⟨r,hrow,by simp [onlyCarried_refl,Writes,hdata,hs]⟩
    · have hw : Writes (env.withJson parse render) ce .heartbeat .computeInstance = true := by
        simp [Writes,hdata,hs]
      obtain rfl := decoded_payload hdata
      refine ⟨_,heartbeat_row rfl hrow hr,?_⟩
      simp only [hw,forall_const]
      exact instance_iff ce r now _ _ (.inl rfl) _ Members.text_of_absent (fun _ => rfl) (fun _ => rfl)
        Members.integer_of_absent Members.integer_of_absent Members.text_of_absent
  | cluster ht hdata =>
    rcases cluster_calls ht hdata hh with rfl | ⟨entries,rfl⟩
    · cases hr
      exact ⟨r,hrow,by simp [onlyCarried_refl,Writes]⟩
    · rw [runCalls_metered (Option.isSome_of_eq_some hrow) hr]
      exact ⟨_,metered_row _ _ _ hrow,by simp [onlyCarried_setMetered,Writes]⟩
  | @osacComputeInstance md hv1 hmd ht =>
    cases (v1_upserts hv1 hmd hh).1 ht
    obtain ⟨rest,hr⟩ := runCalls_upsert hr
    cases hr
    have hpayload := decoded_payload hmd
    refine ⟨_,upserted_row now rfl hrow,?_⟩
    simp only [Writes,forall_const]
    refine instance_iff ce r now ce.time r.lastMeteredAt (.inr rfl) md.resourceID (fun h => ?_) (fun h => ?_)
      (fun h => ?_) (fun _ => rfl) (fun _ => rfl) (fun h => osacState_of_absent hpayload h)
    · rw [hpayload]
      exact Members.text_of_absent h
    · rw [hpayload]
      exact congrArg (·.getD "") (Members.text?_of_absent h)
    · rw [hpayload]
      exact congrArg (·.getD "") (Members.text?_of_absent h)
  | @osacClusterOrder md hv1 hmd ht =>
    cases (v1_upserts hv1 hmd hh).2 ht
    obtain ⟨rest,hr⟩ := runCalls_upsert hr
    cases hr
    have hpayload := decoded_payload hmd
    refine ⟨_,upserted_row now rfl hrow,?_⟩
    simp only [Writes,forall_const]
    refine cluster_iff r now ce.time md.resourceID ce.id (fun h => ?_) (fun h => ?_)
      (fun h => osacState_of_absent hpayload h)
    · rw [hpayload]
      exact Members.text_of_absent h
    · obtain ⟨hdims,hid⟩ := Bool.or_eq_false_iff.mp h
      rw [hpayload]
      have hnone := congrArg (·.getD "") (Members.text?_of_absent hid)
      exact congrArg₂ (fun a b => firstText [a,b]) (Members.text_of_absent hdims) hnone

end Rows

theorem About.others {env : Env δ} {s t : Metering.State} {ce : CloudEvent} {now : Int} {p : Producer}
    {k k' : Kind} {id id' : String} (ha : About env ce p k id) (hne : ¬ (k' = k ∧ id' = id))
    (hst : step env s (.event ce now) = some t) :
    (t.store.table k').find? id' = (s.store.table k').find? id' := by
  obtain ⟨calls,ws,hh,hr⟩ := event_runs hst
  have hlock {l : Lock} (h : l = .resource k id) : some l ≠ some (.resource k' id') := by
    rintro he
    cases h.symm.trans (Option.some.inj he)
    exact hne ⟨rfl,rfl⟩
  refine runCalls_others hr fun c hc n projectID => ?_
  cases ha with
  | computeInstance ht hdata =>
    rcases computeInstance_calls ht hdata hh with ⟨-,rfl⟩ | ⟨-,rfl⟩
    · cases hc
    · simp only [List.mem_cons,List.not_mem_nil,or_false] at hc
      rcases hc with rfl | rfl | rfl
      · exact hlock rfl
      · exact Option.some_ne_none _ |>.symm
      · exact hlock rfl
  | cluster ht hdata =>
    rcases cluster_calls ht hdata hh with rfl | ⟨entries,rfl⟩
    · cases hc
    · simp only [List.mem_cons,List.not_mem_nil,or_false] at hc
      rcases hc with rfl | rfl
      · exact Option.some_ne_none _ |>.symm
      · exact hlock rfl
  | osacComputeInstance hv1 hmd ht =>
    rw [(v1_upserts hv1 hmd hh).1 ht] at hc
    rw [List.mem_singleton.mp hc]
    exact hlock rfl
  | osacClusterOrder hv1 hmd ht =>
    rw [(v1_upserts hv1 hmd hh).2 ht] at hc
    rw [List.mem_singleton.mp hc]
    exact hlock rfl

/-- An event changes no row but that of its resource, and of this one only what it carries if
and only if the columns that it overwrites without a value are empty. -/
theorem event_changes_only_carried_iff {env : Env δ} {parse : String → Option Document}
    {render : Document → String} {s t : Metering.State} {ce : CloudEvent} {now : Int}
    {p : Producer} {k : Kind} {id : String} {r : k.Record} (ha : About (env.withJson parse render) ce p k id)
    (hrow : (s.store.table k).find? id = some r)
    (hst : step (env.withJson parse render) s (.event ce now) = some t) :
    (∀ k' id', ¬ (k' = k ∧ id' = id) → (t.store.table k').find? id' = (s.store.table k').find? id') ∧
      ∃ r', (t.store.table k).find? id = some r' ∧ (OnlyCarried p (carries parse render ce p) k r r' ↔
        (Writes (env.withJson parse render) ce p k = true → Vacant (carries parse render ce p) k r)) :=
  ⟨fun _ _ hne => ha.others hne hst,ha.row hrow hst⟩

def namedInstance (name : String) : ComputeInstanceRecord :=
  ⟨"vm-1",name,"acme","","","",2,4,"COMPUTE_INSTANCE_STATE_RUNNING",some [],0,none,"",0,none⟩

def workers : ClusterRecord :=
  ⟨"cl-1","","acme","",some [("workers",⟨"large",3⟩)],"CLUSTER_STATE_READY",some [],0,none,"",0,none⟩

def holding (k : Kind) (r : k.Record) : Metering.State := ⟨({} : Store).upsert k 0 r,1,fun _ => none,.idle⟩

/-- A heartbeat with all its fields and one that has neither a tenant nor cores, and v1 events
of an instance and of a cluster order. -/
def frameJson (data : String) : Option Document :=
  let heartbeat : Members := [("instance_id",.text "vm-1"),("state",.text "COMPUTE_INSTANCE_STATE_RUNNING"),
    ("duration_seconds",.number "60"),("memory_gib",.number "4")]
  let order (resourceID resourceType : String) : Members := [("resource_id",.text resourceID),
    ("resource_type",.text resourceType),("tenant_id",.text "acme"),("current_state",.text "RUNNING")]
  if data = "vm" then some (.object ([("tenant_id",.text "acme"),("cores",.number "2")] ++ heartbeat))
  else if data = "bare" then some (.object heartbeat)
  else if data = "started" then some (.object (order "vm-1" "compute_instance"))
  else if data = "order" then some (.object (order "cl-1" "cluster_order"))
  else none

def frameEnv : Env CloudEvent :=
  { sampleEnv with parseFloat := fun literal => (parseInt literal).map fun n => n }.withJson frameJson fun _ => ""

abbrev frameCarries : CloudEvent → Producer → Column → Bool := carries frameJson fun _ => ""

def beat (data : String) : CloudEvent :=
  { sampleEvent eventTypeComputeInstance data (minutes 2) with subject := "acme" }

theorem heartbeat_keeps_nameless :
    ∃ t r', step frameEnv (holding .computeInstance (namedInstance "")) (.event (beat "vm") (minutes 2)) = some t ∧
      (t.store.table .computeInstance).find? "vm-1" = some r' ∧
      OnlyCarried .heartbeat (frameCarries (beat "vm") .heartbeat) .computeInstance (namedInstance "") r' := by
  cases hst : step frameEnv (holding .computeInstance (namedInstance "")) (.event (beat "vm") (minutes 2)) with
  | none => exact absurd hst (by decide +kernel)
  | some t =>
    have hdata : frameEnv.decoder.computeInstance (beat "vm").data =
        some ⟨60,0,0,"acme","vm-1","COMPUTE_INSTANCE_STATE_RUNNING",2,4⟩ := by decide +kernel
    obtain ⟨-,r',hr',hiff⟩ := event_changes_only_carried_iff (r := namedInstance "")
      (About.computeInstance rfl hdata) rfl hst
    refine ⟨t,r',rfl,hr',hiff.mpr fun _ => ⟨rfl,rfl,rfl,rfl,?_,fun _ => rfl,fun _ => rfl,?_,?_,?_⟩⟩
    all_goals exact fun h => absurd h (by decide +kernel)

/-- An accepted event for the only row, after which a column it does not carry has
changed. -/
def Overwrites (ce : CloudEvent) (k : Kind) (r : k.Record) : Prop :=
  ∃ p t r', About frameEnv ce p k (k.id r) ∧ step frameEnv (holding k r) (.event ce (minutes 2)) = some t ∧
    (t.store.table k).find? (k.id r) = some r' ∧ ¬ OnlyCarried p (frameCarries ce p) k r r'

theorem overwrites_of_not_vacant {ce : CloudEvent} {p : Producer} {k : Kind} {r : k.Record} {id : String}
    (ha : About frameEnv ce p k id) (hid : id = k.id r)
    (hrow : ((holding k r).store.table k).find? (k.id r) = some r)
    (hst : (step frameEnv (holding k r) (.event ce (minutes 2))).isSome) (hw : Writes frameEnv ce p k = true)
    (hno : ¬ Vacant (frameCarries ce p) k r) : Overwrites ce k r := by
  subst hid
  obtain ⟨t,ht⟩ := Option.isSome_iff_exists.mp hst
  obtain ⟨r',hr',hiff⟩ := About.row ha hrow ht
  exact ⟨p,t,r',ha,ht,hr',fun h => hno (hiff.mp h hw)⟩

theorem about_beat {data : String} {event : ComputeInstanceEventData}
    (h : frameEnv.decoder.computeInstance data = some event) :
    About frameEnv (beat data) .heartbeat .computeInstance event.instanceID := .computeInstance rfl h

def ordered : CloudEvent := { started "order" with osacResourceID := "cl-1", osacResourceType := "cluster_order" }

/-- A heartbeat erases the name, and turns labels that are null into an empty object; one that
has the tenant in its subject only erases the tenant; a v1 event erases the cores, and one of a
cluster order the node sets. -/
theorem events_erase_columns :
    Overwrites (beat "vm") .computeInstance (namedInstance "web") ∧
    Overwrites (beat "vm") .computeInstance { namedInstance "" with labels := none } ∧
    Overwrites (beat "bare") .computeInstance (namedInstance "") ∧
    Overwrites (started "started") .computeInstance (namedInstance "") ∧
    Overwrites ordered .cluster workers := by
  have hvm : frameEnv.decoder.computeInstance "vm" =
      some ⟨60,0,0,"acme","vm-1","COMPUTE_INSTANCE_STATE_RUNNING",2,4⟩ := by decide +kernel
  have hbare : frameEnv.decoder.computeInstance "bare" =
      some ⟨60,0,0,"","vm-1","COMPUTE_INSTANCE_STATE_RUNNING",0,4⟩ := by decide +kernel
  have hstarted : frameEnv.decoder.meteringData "started" =
      some ⟨"vm-1","compute_instance","acme",none,none,"RUNNING",none,""⟩ := by decide +kernel
  have horder : frameEnv.decoder.meteringData "order" =
      some ⟨"cl-1","cluster_order","acme",none,none,"RUNNING",none,""⟩ := by decide +kernel
  refine ⟨overwrites_of_not_vacant (about_beat hvm) rfl rfl (by decide +kernel) (by decide +kernel) fun h => ?_,
    overwrites_of_not_vacant (about_beat hvm) rfl rfl (by decide +kernel) (by decide +kernel) fun h => ?_,
    overwrites_of_not_vacant (about_beat hbare) rfl rfl (by decide +kernel) (by decide +kernel) fun h => ?_,
    overwrites_of_not_vacant (.osacComputeInstance rfl hstarted rfl) rfl rfl (by decide +kernel) rfl fun h => ?_,
    overwrites_of_not_vacant (.osacClusterOrder rfl horder rfl) rfl rfl (by decide +kernel) rfl fun h => ?_⟩
  · exact absurd h.1 (by decide)
  · exact absurd h.2.2.1 (by decide)
  · exact absurd (h.2.2.2.2.1 (by decide +kernel)) (by decide)
  · exact absurd (h.2.2.2.2.2.2.2.1 (by decide +kernel)) (by decide)
  · exact absurd h.2.1 (by decide)

end CostConsumer.Service
