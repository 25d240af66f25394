import CostConsumer.Ingest.Events
import CostConsumer.Metering.Meters
import Mathlib.Data.Prod.Lex
set_option autoImplicit false

namespace CostConsumer.Ingest
open Inventory Foundation Metering

variable {δ : Type}

/-- A row of `ingestion_receipts`; `payload` is the digest of the event. -/
structure Receipt (δ : Type) where
  eventSource : String
  eventID : String
  payload : δ
  receivedAt : Int
  deriving DecidableEq, Repr

abbrev Key := String ×ₗ String

def Receipt.key (r : Receipt δ) : Key := toLex (r.eventSource,r.eventID)
def CloudEvent.key (ce : CloudEvent) : Key := toLex (ce.source,ce.id)

structure RawEvent where
  eventID : String
  eventType : String
  eventSource : String
  eventTime : Int
  tenantID : String
  resourceType : String
  resourceID : String
  data : CloudEvent
  receivedAt : Int
  deriving DecidableEq, Repr

def RawEvent.key (e : RawEvent) : Key := toLex (e.eventSource,e.eventID)

structure Database (δ : Type) extends Store where
  receipts : Table Key (Receipt δ) Receipt.key := .empty
  rawEvents : List RawEvent := []

/-- The statements of a transaction that change a row. Ids of metering entries
are taken from the sequence when the statement runs. -/
inductive Write (δ : Type) where
  | receipt (r : Receipt δ) : Write δ
  | rawEvent (e : RawEvent) : Write δ
  | upsert (k : Kind) (r : k.Record) (now : Int) : Write δ
  | upsertModel (r : ModelRecord) (now : Int) : Write δ
  | lastMetered (k : Kind) (id : String) (t : Int) : Write δ
  | metering (id : Nat) (entries : List MeteringEntry) : Write δ

/-- The rows two transactions cannot both have written. -/
inductive Lock where
  | receipt (k : Key) : Lock
  | resource (k : Kind) (id : String) : Lock
  | model (id : String) : Lock
  deriving DecidableEq

namespace Write

def apply (db : Database δ) : Write δ → Database δ
  | receipt r => { db with receipts := db.receipts.insert r }
  | rawEvent e => { db with rawEvents := db.rawEvents ++ [e] }
  | upsert k r now => { db with toStore := db.toStore.upsert k now r }
  | upsertModel r now => { db with toStore := db.toStore.upsertModel now r }
  | lastMetered k id t => { db with toStore := db.toStore.updateLastMetered k id t }
  | metering id entries => { db with toStore := db.toStore.addMetering id entries }

def lock : Write δ → Option Lock
  | receipt r => some (.receipt r.key)
  | rawEvent _ => none
  | upsert k r _ => some (.resource k (k.id r))
  | upsertModel r _ => some (.model r.modelID)
  | lastMetered k id _ => some (.resource k id)
  | metering _ _ => none

end Write

/-- A call of a handler on the store. The entries of `meterForTenant` depend on
the project that is looked up for the tenant. -/
inductive Call where
  | insertRawEvent (e : RawEvent) : Call
  | upsert (k : Kind) (r : k.Record) : Call
  | upsertModel (r : ModelRecord) : Call
  | updateLastMetered (k : Kind) (id : String) (t : Int) : Call
  | insertMetering (entries : List MeteringEntry) : Call
  | meterForTenant (tenantID : String) (entries : String → List MeteringEntry) : Call

/-- A JSON value as decoded into an `interface{}`. -/
inductive Json where
  | null : Json
  | bool (b : Bool) : Json
  | number (q : Rat) : Json
  | string (s : String) : Json
  | array (vs : List Json) : Json
  | object (fields : List (String × Json)) : Json

structure MeterDef where
  meterName : String
  valueField : String
  unit : String
  deriving DecidableEq, Repr

structure MetricDef where
  eventType : String
  resourceType : String
  resourceIDField : String
  tenantIDField : String
  meters : List MeterDef
  deriving DecidableEq, Repr

/-- The configuration and the library functions the receiver depends on:
`object` decodes into a map, `format` is `%v`, and `parseFloat` gives finite
numbers only. `indexable` says whether the index entries for the texts of an event are
small enough, which depends on how they compress. No two contents have the same digest; for that, the data of an event
is its text as it is written again, and times are written in one zone. -/
structure Env (δ : Type) where
  decoder : Decoder
  customMetrics : List MetricDef
  object : String → Option (List (String × Json))
  format : Json → String
  parseFloat : String → Option Rat
  digest : CloudEvent → δ
  digest_injective : Function.Injective digest
  indexable : CloudEvent → Bool := fun _ => true

def lookupPath : List (String × Json) → List String → Option Json
  | _, [] => none
  | fields, [part] => fields.lookup part
  | fields, part :: parts =>
    match fields.lookup part with
    | some (.object next) => lookupPath next parts
    | _ => none

def extractField (data : List (String × Json)) (path : String) : Option Json :=
  let start := "data.".toList
  let cs := path.toList
  let cs := if start.isPrefixOf cs then cs.drop start.length else cs
  lookupPath data ((cs.splitOn '.').map String.ofList)

namespace Env

variable (env : Env δ)

def metricDef (eventType : String) : Option MetricDef :=
  env.customMetrics.find? (fun d => d.eventType = eventType)

def toText : Json → String
  | .string s => s
  | v => env.format v

def toFloat64 : Json → Option Rat
  | .number q => some q
  | .string s => env.parseFloat s
  | _ => none

def textField (data : List (String × Json)) (path : String) : String :=
  ((extractField data path).map env.toText).getD ""

/-- The classification of an event; custom metrics are asked when the built-in
one finds no resource or no tenant. -/
def identify (ce : CloudEvent) : Identity :=
  let identity := classifyEvent env.decoder ce
  if identity.2.1 = "" ∨ identity.2.2 = "" then
    match env.metricDef ce.type, env.object ce.data with
    | some d, some data =>
      (d.resourceType,env.textField data d.resourceIDField,env.textField data d.tenantIDField)
    | _, _ => identity
  else identity

end Env

/-- Errors that follow from the event. Of those of the store it is one: PostgreSQL refuses
to store the texts of the event. -/
inductive ProcessError where
  | unstorable : ProcessError
  | badData : ProcessError
  | badDuration (seconds : Rat) : ProcessError
  deriving DecidableEq, Repr

/-- Where an interval of a number of seconds that ends at the event starts. -/
def startOf (ce : CloudEvent) (seconds : Rat) : Int :=
  ce.time + GoTime.wrap (-GoTime.duration (seconds*GoTime.nanosPerSecond))

def eventInstance (ce : CloudEvent) (instanceID tenant project instanceType state : String)
    (cores memoryGiB createdAt : Int) : ComputeInstanceRecord :=
  ⟨instanceID,"",tenant,project,"",instanceType,cores,memoryGiB,state,marshalLabels none,createdAt,none,
    ce.id,0,none⟩

def eventModel (ce : CloudEvent) (modelID modelName tenant template state : String)
    (createdAt : Int) : ModelRecord :=
  ⟨modelID,modelName,modelName,tenant,"",template,state,marshalLabels none,createdAt,none,ce.id,0⟩

def meterMaaSEvent (usage : MaaSUsage) : List Call :=
  if isModelBillable usage.state then
    let periodStart :=
      usage.eventTime + GoTime.wrap (-GoTime.duration usage.durationSeconds*GoTime.nanosPerSecond)
    [.meterForTenant usage.tenantID
      (fun projectID => maasMeters usage projectID periodStart usage.eventTime)]
  else []

def processComputeInstanceEvent (dec : Decoder) (ce : CloudEvent) : Except ProcessError (List Call) :=
  match dec.computeInstance ce.data with
  | none => .error .badData
  | some data =>
    if data.state ∉ billableStates .computeInstance then .ok []
    else if data.durationSeconds ≤ 0 then .error (.badDuration data.durationSeconds)
    else
      let periodStart := startOf ce data.durationSeconds
      let entry (meterName : String) (value : Rat) (unit : String) : MeteringEntry :=
        newEntry "compute_instance" data.instanceID data.tenantID "" "" meterName value unit
          periodStart ce.time
      .ok [.upsert .computeInstance (eventInstance ce data.instanceID data.tenantID "" "" data.state
          data.cores data.memoryGiB periodStart),
        .insertMetering [entry "vm_uptime_seconds" data.durationSeconds "seconds",
          entry "vm_cpu_core_seconds" data.cpuCoreSeconds "core_seconds",
          entry "vm_memory_gib_seconds" data.memoryGiBSeconds "gib_seconds"],
        .updateLastMetered .computeInstance data.instanceID ce.time]

/-- No inventory record is written for a cluster. -/
def processClusterEvent (dec : Decoder) (ce : CloudEvent) : Except ProcessError (List Call) :=
  match dec.cluster ce.data with
  | none => .error .badData
  | some data =>
    if data.state ∉ billableStates .cluster then .ok []
    else if data.durationSeconds ≤ 0 then .error (.badDuration data.durationSeconds)
    else
      let entry (meterName : String) (value : Rat) (unit : String) : MeteringEntry :=
        newEntry "cluster" data.clusterID data.tenantID "" "" meterName value unit
          (startOf ce data.durationSeconds) ce.time
      .ok [.insertMetering
          ((if data.hostType = "_control_plane" then
            [entry "cluster_uptime_seconds" data.durationSeconds "seconds"] else []) ++
          if data.workerNodeSeconds > 0 then
            [entry "cluster_worker_node_seconds" data.workerNodeSeconds "node_seconds"] else []),
        .updateLastMetered .cluster data.clusterID ce.time]

/-- The tenant a subscription names: what precedes its first slash, without the
namespace's own beginning. -/
def subscriptionTenant (subscription : String) : String :=
  let cs := subscription.toList
  let ns := cs.takeWhile (· ≠ '/')
  let start := "ai-tenant-".toList
  if ns = [] ∨ ns.length = cs.length then ""
  else String.ofList (if start.isPrefixOf ns then ns.drop start.length else ns)

def firstText (texts : List String) : String := (texts.find? (· ≠ "")).getD ""

/-- The tenant of a model event, from the most to the least specific field. -/
def modelTenant (data : MaaSEventData) : String :=
  firstText [data.tenantID,data.organizationID,subscriptionTenant data.subscription,data.group,
    data.user]

def processModelEvent (dec : Decoder) (ce : CloudEvent) : Except ProcessError (List Call) :=
  match dec.model ce.data with
  | none => .error .badData
  | some data =>
    let orElse (a b : Int) := if b > 0 ∧ a = 0 then b else a
    let modelID := firstText [data.modelID,data.model]
    let tenantID := modelTenant data
    let state := firstText [data.state,"MODEL_STATE_RUNNING"]
    if data.durationSeconds < 0 then .error (.badDuration data.durationSeconds)
    else
      let durationSeconds : Rat :=
        if data.durationMs > 0 ∧ data.durationSeconds = 0 then data.durationMs/1000
        else data.durationSeconds
      .ok (.upsertModel (eventModel ce modelID (firstText [data.modelName,data.model]) tenantID
          data.template state (startOf ce durationSeconds)) ::
        meterMaaSEvent ⟨modelID,tenantID,data.user,state,orElse data.tokensIn data.promptTokens,
          orElse data.tokensOut data.completionTokens,orElse data.requests data.requestCount,ce.time,
          durationSeconds⟩)

def osacState (ce : CloudEvent) (md : MeteringData) : String :=
  if ce.type = eventTypeResourceDeleted then "DELETING" else md.currentState

def processOSACComputeInstance (dec : Decoder) (ce : CloudEvent) (md : MeteringData) : List Call :=
  [.upsert .computeInstance (eventInstance ce md.resourceID md.tenantID (md.projectID.getD "")
    ((dec.vmInstanceType md.billingDimensions).getD "") (osacState ce md) 0 0 ce.time)]

def processOSACClusterOrder (dec : Decoder) (ce : CloudEvent) (md : MeteringData) : List Call :=
  let template := firstText [dec.clusterTemplate md.billingDimensions,md.templateID.getD ""]
  [.upsert .cluster ⟨md.resourceID,"",md.tenantID,template,marshalLabels none,osacState ce md,marshalLabels none,
    ce.time,none,ce.id,0,none⟩]

/-- The usage has no state, so it is never billable and no entry is made. -/
def processOSACInference (dec : Decoder) (ce : CloudEvent) (md : MeteringData) : List Call :=
  let bd := dec.maasDimensions md.billingDimensions
  let modelID := firstText [bd.model,md.resourceID]
  let durationSeconds : Rat := match md.durationSeconds with
    | some d => d
    | none => if bd.durationMs > 0 then bd.durationMs/1000 else 0
  let tenantID := firstText [md.tenantID,bd.organizationID]
  .upsertModel (eventModel ce modelID bd.model tenantID "" "MODEL_STATE_RUNNING"
      (startOf ce durationSeconds)) ::
    meterMaaSEvent ⟨modelID,tenantID,"","",bd.promptTokens,bd.completionTokens,1,ce.time,
      durationSeconds⟩

def processOSACResourceEvent (dec : Decoder) (ce : CloudEvent) : Except ProcessError (List Call) :=
  match dec.meteringData ce.data with
  | none => .error .badData
  | some md =>
    if md.resourceType = "compute_instance" then .ok (processOSACComputeInstance dec ce md)
    else if md.resourceType = "cluster_order" then .ok (processOSACClusterOrder dec ce md)
    else if md.resourceType = "maas_inference" then .ok (processOSACInference dec ce md)
    else .ok []

namespace Env

variable (env : Env δ)

def processCustomMetric (d : MetricDef) (ce : CloudEvent) : Except ProcessError (List Call) :=
  match env.object ce.data with
  | none => .error .badData
  | some data =>
    let number (path : String) := (extractField data path).bind env.toFloat64
    let tenantID := env.textField data d.tenantIDField
    let periodStart := match number "duration_seconds" with
      | some q =>
        if q > 0 then ce.time + GoTime.wrap (-GoTime.duration q*GoTime.nanosPerSecond) else ce.time
      | none => ce.time
    .ok [.meterForTenant tenantID fun projectID => d.meters.filterMap fun m =>
      (number m.valueField).bind fun value =>
        if value ≤ 0 then none
        else some (newEntry d.resourceType (env.textField data d.resourceIDField) tenantID projectID ""
          m.meterName value m.unit periodStart ce.time)]

def handle (ce : CloudEvent) : Except ProcessError (List Call) :=
  if isOSACv1 ce then processOSACResourceEvent env.decoder ce
  else if ce.type = eventTypeComputeInstance then processComputeInstanceEvent env.decoder ce
  else if ce.type = eventTypeCluster then processClusterEvent env.decoder ce
  else if ce.type = eventTypeModel ∨ ce.type = eventTypeInferenceTokens then
    processModelEvent env.decoder ce
  else match env.metricDef ce.type with
    | some d => env.processCustomMetric d ce
    | none => .ok []

def rawEvent (now : Int) (ce : CloudEvent) : RawEvent :=
  let (resourceType,resourceID,tenantID) := env.identify ce
  ⟨ce.id,ce.type,ce.source,ce.time,tenantID,resourceType,resourceID,ce,now⟩

def storable (ce : CloudEvent) : Bool := ce.storable && env.indexable ce

/-- Texts that cannot be stored end the processing with its first statement at the latest,
the insert of the raw event. -/
def processEvent (now : Int) (ce : CloudEvent) : List Call × Option ProcessError :=
  if env.storable ce then
    match env.handle ce with
    | .ok calls => (.insertRawEvent (env.rawEvent now ce) :: calls,none)
    | .error e => ([.insertRawEvent (env.rawEvent now ce)],some e)
  else ([],some .unstorable)

def receipt (now : Int) (ce : CloudEvent) : Receipt δ := ⟨ce.source,ce.id,env.digest ce,now⟩

end Env

section Types
variable (env : Env δ) {ce : CloudEvent}

theorem not_v1_of_type {type : String} (ht : ce.type = type)
    (h : type ∈ [eventTypeComputeInstance,eventTypeCluster,eventTypeModel,eventTypeInferenceTokens]) :
    isOSACv1 ce = false := by
  have hall : ∀ type ∈ [eventTypeComputeInstance,eventTypeCluster,eventTypeModel,eventTypeInferenceTokens],
      (isOSACv1EventType type || type = eventTypeInferenceUsage) = false := by decide
  rw [isOSACv1,ht]
  exact hall type h

theorem handle_v1 (hv1 : isOSACv1 ce = true) :
    env.handle ce = processOSACResourceEvent env.decoder ce := by
  rw [Env.handle,if_pos hv1]

theorem handle_computeInstance (ht : ce.type = eventTypeComputeInstance) :
    env.handle ce = processComputeInstanceEvent env.decoder ce := by
  have hv1 := not_v1_of_type ht (by simp)
  rw [Env.handle,hv1,if_neg Bool.false_ne_true,if_pos ht]

theorem handle_cluster (ht : ce.type = eventTypeCluster) :
    env.handle ce = processClusterEvent env.decoder ce := by
  have hv1 := not_v1_of_type ht (by simp)
  rw [Env.handle,hv1,if_neg Bool.false_ne_true,ht,if_neg (by decide),if_pos rfl]

theorem handle_model (ht : ce.type = eventTypeModel ∨ ce.type = eventTypeInferenceTokens) :
    env.handle ce = processModelEvent env.decoder ce := by
  have hv1 : isOSACv1 ce = false := by
    rcases ht with ht | ht
    · exact not_v1_of_type ht (by simp)
    · exact not_v1_of_type ht (by simp)
  have hother : ce.type ≠ eventTypeComputeInstance ∧ ce.type ≠ eventTypeCluster := by
    rcases ht with ht | ht <;> rw [ht] <;> decide
  rw [Env.handle,hv1,if_neg Bool.false_ne_true,if_neg hother.1,if_neg hother.2,if_pos ht]

end Types

/-- What the handlers ask of the store, case by case. -/
inductive Handled (env : Env δ) (ce : CloudEvent) : List Call → Prop
  | nothing : Handled env ce []
  | computeInstance {data : ComputeInstanceEventData} (ht : ce.type = eventTypeComputeInstance)
      (hdata : env.decoder.computeInstance ce.data = some data)
      (hs : data.state ∈ billableStates .computeInstance) (hd : 0 < data.durationSeconds) :
      Handled env ce
        [.upsert .computeInstance (eventInstance ce data.instanceID data.tenantID "" "" data.state
            data.cores data.memoryGiB (startOf ce data.durationSeconds)),
          .insertMetering [newEntry "compute_instance" data.instanceID data.tenantID "" ""
              "vm_uptime_seconds" data.durationSeconds "seconds" (startOf ce data.durationSeconds) ce.time,
            newEntry "compute_instance" data.instanceID data.tenantID "" "" "vm_cpu_core_seconds"
              data.cpuCoreSeconds "core_seconds" (startOf ce data.durationSeconds) ce.time,
            newEntry "compute_instance" data.instanceID data.tenantID "" "" "vm_memory_gib_seconds"
              data.memoryGiBSeconds "gib_seconds" (startOf ce data.durationSeconds) ce.time],
          .updateLastMetered .computeInstance data.instanceID ce.time]
  | cluster {data : ClusterEventData} (ht : ce.type = eventTypeCluster)
      (hdata : env.decoder.cluster ce.data = some data) (hs : data.state ∈ billableStates .cluster)
      (hd : 0 < data.durationSeconds) :
      Handled env ce
        [.insertMetering
            ((if data.hostType = "_control_plane" then
              [newEntry "cluster" data.clusterID data.tenantID "" "" "cluster_uptime_seconds"
                data.durationSeconds "seconds" (startOf ce data.durationSeconds) ce.time] else []) ++
            if data.workerNodeSeconds > 0 then
              [newEntry "cluster" data.clusterID data.tenantID "" "" "cluster_worker_node_seconds"
                data.workerNodeSeconds "node_seconds" (startOf ce data.durationSeconds) ce.time] else []),
          .updateLastMetered .cluster data.clusterID ce.time]
  | model {data : MaaSEventData} {r : ModelRecord} {usage : MaaSUsage}
      (ht : ce.type = eventTypeModel ∨ ce.type = eventTypeInferenceTokens)
      (hdata : env.decoder.model ce.data = some data)
      (hid : r.modelID = firstText [data.modelID,data.model] ∧ usage.modelID = r.modelID)
      (htenant : r.tenant = modelTenant data ∧ usage.tenantID = r.tenant) :
      Handled env ce (.upsertModel r :: meterMaaSEvent usage)
  | osacComputeInstance {md : MeteringData} (hv1 : isOSACv1 ce = true)
      (hmd : env.decoder.meteringData ce.data = some md) (ht : md.resourceType = "compute_instance") :
      Handled env ce (processOSACComputeInstance env.decoder ce md)
  | osacClusterOrder {md : MeteringData} (hv1 : isOSACv1 ce = true)
      (hmd : env.decoder.meteringData ce.data = some md) (ht : md.resourceType = "cluster_order") :
      Handled env ce (processOSACClusterOrder env.decoder ce md)
  | osacInference {md : MeteringData} (hv1 : isOSACv1 ce = true)
      (hmd : env.decoder.meteringData ce.data = some md) (ht : md.resourceType = "maas_inference") :
      Handled env ce (processOSACInference env.decoder ce md)
  | customMetric {d : MetricDef} {data : List (String × Json)} {periodStart : Int}
      (hv1 : isOSACv1 ce = false)
      (ht : ce.type ∉ [eventTypeComputeInstance,eventTypeCluster,eventTypeModel,eventTypeInferenceTokens])
      (hdef : env.metricDef ce.type = some d) (hdata : env.object ce.data = some data) :
      Handled env ce [.meterForTenant (env.textField data d.tenantIDField) fun projectID =>
        d.meters.filterMap fun m => ((extractField data m.valueField).bind env.toFloat64).bind fun value =>
          if value ≤ 0 then none
          else some (newEntry d.resourceType (env.textField data d.resourceIDField)
            (env.textField data d.tenantIDField) projectID "" m.meterName value m.unit periodStart
            ce.time)]

section Handled
variable {env : Env δ} {ce : CloudEvent} {calls : List Call}

theorem processOSACResourceEvent_handled (hv1 : isOSACv1 ce = true)
    (h : processOSACResourceEvent env.decoder ce = .ok calls) : Handled env ce calls := by
  unfold processOSACResourceEvent at h
  split at h
  · cases h
  · rename_i md hmd
    split_ifs at h with hvm hcl hinf
    · cases h
      exact .osacComputeInstance hv1 hmd hvm
    · cases h
      exact .osacClusterOrder hv1 hmd hcl
    · cases h
      exact .osacInference hv1 hmd hinf
    · cases h
      exact .nothing

theorem processComputeInstanceEvent_handled (ht : ce.type = eventTypeComputeInstance)
    (h : processComputeInstanceEvent env.decoder ce = .ok calls) : Handled env ce calls := by
  unfold processComputeInstanceEvent at h
  split at h
  · cases h
  · rename_i data hdata
    split at h
    · cases h
      exact .nothing
    · rename_i hs
      split at h
      · cases h
      · rename_i hd
        cases h
        exact .computeInstance ht hdata (not_not.mp hs) (not_le.mp hd)

theorem processClusterEvent_handled (ht : ce.type = eventTypeCluster)
    (h : processClusterEvent env.decoder ce = .ok calls) : Handled env ce calls := by
  unfold processClusterEvent at h
  split at h
  · cases h
  · rename_i data hdata
    split at h
    · cases h
      exact .nothing
    · rename_i hs
      split at h
      · cases h
      · rename_i hd
        cases h
        exact .cluster ht hdata (not_not.mp hs) (not_le.mp hd)

theorem processModelEvent_handled (ht : ce.type = eventTypeModel ∨ ce.type = eventTypeInferenceTokens)
    (h : processModelEvent env.decoder ce = .ok calls) : Handled env ce calls := by
  unfold processModelEvent at h
  split at h
  · cases h
  · rename_i data hdata
    dsimp only at h
    split at h
    · cases h
    · cases h
      exact .model ht hdata ⟨rfl,rfl⟩ ⟨rfl,rfl⟩

theorem handle_handled (h : env.handle ce = .ok calls) : Handled env ce calls := by
  unfold Env.handle at h
  split_ifs at h with hv1 hvm hcl hmodel
  · exact processOSACResourceEvent_handled hv1 h
  · exact processComputeInstanceEvent_handled hvm h
  · exact processClusterEvent_handled hcl h
  · exact processModelEvent_handled hmodel h
  · split at h
    · rename_i d hdef
      unfold Env.processCustomMetric at h
      split at h
      · cases h
      · rename_i data hdata
        cases h
        exact .customMetric (Bool.eq_false_iff.mpr hv1) (by simpa [hvm,hcl] using hmodel) hdef hdata
    · cases h
      exact .nothing

theorem clusterEntries_owner {data : ClusterEventData} {e : MeteringEntry} {start : Int}
    (he : e ∈ (if data.hostType = "_control_plane" then
        [newEntry "cluster" data.clusterID data.tenantID "" "" "cluster_uptime_seconds"
          data.durationSeconds "seconds" start ce.time] else []) ++
      if data.workerNodeSeconds > 0 then
        [newEntry "cluster" data.clusterID data.tenantID "" "" "cluster_worker_node_seconds"
          data.workerNodeSeconds "node_seconds" start ce.time] else []) :
    (data.hostType = "_control_plane" ∨ data.workerNodeSeconds > 0) ∧ e.resourceType = "cluster" ∧
      e.resourceID = data.clusterID ∧ e.tenantID = data.tenantID := by
  simp only [List.mem_append,List.mem_ite_nil_right,List.mem_singleton] at he
  rcases he with ⟨hhost,rfl⟩ | ⟨hworker,rfl⟩
  · exact ⟨.inl hhost,rfl,rfl,rfl⟩
  · exact ⟨.inr hworker,rfl,rfl,rfl⟩

theorem customEntries_owner {d : MetricDef} {data : List (String × Json)} {projectID : String}
    {periodStart : Int} {e : MeteringEntry}
    (he : e ∈ d.meters.filterMap fun m =>
      ((extractField data m.valueField).bind env.toFloat64).bind fun value =>
        if value ≤ 0 then none
        else some (newEntry d.resourceType (env.textField data d.resourceIDField)
          (env.textField data d.tenantIDField) projectID "" m.meterName value m.unit periodStart
          ce.time)) :
    e.resourceType = d.resourceType ∧ e.resourceID = env.textField data d.resourceIDField ∧
      e.tenantID = env.textField data d.tenantIDField := by
  obtain ⟨m,-,hm⟩ := List.mem_filterMap.mp he
  obtain ⟨value,-,hm⟩ := Option.bind_eq_some_iff.mp hm
  split at hm
  · cases hm
  · cases hm
    exact ⟨rfl,rfl,rfl⟩

end Handled

end CostConsumer.Ingest
