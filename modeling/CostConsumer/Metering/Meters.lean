import CostConsumer.Inventory.Resources
import CostConsumer.Foundation.GoTime
set_option autoImplicit false

namespace CostConsumer.Metering
open Inventory Foundation

def newEntry (resourceType resourceID tenantID projectID instanceType meterName : String)
    (value : Rat) (unit : String) (periodStart periodEnd : Int) : MeteringEntry :=
  ⟨0,none,resourceType,resourceID,tenantID,projectID,"",instanceType,meterName,value,unit,
    periodStart,periodEnd⟩

/-- `loadInstanceTypeMap`: the catalog by id, or nothing if it could not be read. -/
abbrev InstanceTypes := Option (Table String InstanceTypeRecord (·.instanceTypeID))

/-- Cores and memory; the catalog is asked when the instance has no cores. -/
def sizes (inst : ComputeInstanceRecord) (types : InstanceTypes) : Int × Int :=
  if inst.cores = 0 ∧ inst.instanceType ≠ "" then
    match types.bind (·.find? inst.instanceType) with
    | some it => (it.cores,it.memoryGiB)
    | none => (inst.cores,inst.memoryGiB)
  else (inst.cores,inst.memoryGiB)

def computeInstanceMeters (inst : ComputeInstanceRecord) (types : InstanceTypes)
    (projectID : String) (durationSeconds : Rat) (periodStart periodEnd : Int) :
    List MeteringEntry :=
  let (cores,memGiB) := sizes inst types
  let entry := newEntry "compute_instance" inst.instanceID inst.tenant projectID inst.instanceType
  [entry "vm_uptime_seconds" durationSeconds "seconds" periodStart periodEnd,
    entry "vm_cpu_core_seconds" (cores*durationSeconds) "core_seconds" periodStart periodEnd,
    entry "vm_memory_gib_seconds" (memGiB*durationSeconds) "gib_seconds" periodStart periodEnd]

def clusterMeters (cl : ClusterRecord) (projectID : String) (durationSeconds : Rat)
    (periodStart periodEnd : Int) : List MeteringEntry :=
  let entry := newEntry "cluster" cl.clusterID cl.tenant projectID ""
  let nodeSets := cl.nodeSets.getD []
  let totalWorkerNodes := (nodeSets.map (·.2.size)).sum
  let totalWorkerNodeSeconds := (nodeSets.map (fun ns => ns.2.size*durationSeconds)).sum
  entry "cluster_uptime_seconds" durationSeconds "seconds" periodStart periodEnd ::
    ((if totalWorkerNodeSeconds > 0 then
      [entry "cluster_worker_node_seconds" totalWorkerNodeSeconds "node_seconds" periodStart periodEnd]
    else []) ++
    if totalWorkerNodes > 0 then
      [entry "cluster_worker_node_count" totalWorkerNodes "nodes" periodStart periodEnd]
    else [])

def bareMetalMeters (inst : BareMetalInstanceRecord) (projectID : String) (durationSeconds : Rat)
    (periodStart periodEnd : Int) : List MeteringEntry :=
  [newEntry "bare_metal" inst.instanceID inst.tenant projectID "" "bm_uptime_seconds"
    durationSeconds "seconds" periodStart periodEnd]

def resourceType : Kind → String
  | .computeInstance => "compute_instance"
  | .cluster => "cluster"
  | .bareMetal => "bare_metal"

def uptimeMeter : Kind → String
  | .computeInstance => "vm_uptime_seconds"
  | .cluster => "cluster_uptime_seconds"
  | .bareMetal => "bm_uptime_seconds"

def meters : (k : Kind) → k.Record → InstanceTypes → String → Rat → Int → Int → List MeteringEntry
  | .computeInstance, r, types => computeInstanceMeters r types
  | .cluster, r, _ => clusterMeters r
  | .bareMetal, r, _ => bareMetalMeters r

/-- Where the next interval of a resource starts. -/
def periodStart (k : Kind) (r : k.Record) : Int := (k.lastMeteredAt r).getD (k.createdAt r)

/-- The states `Is…Billable` accepts, which are more than the sweep's query has. -/
def billableStates : Kind → List String
  | .computeInstance => ["COMPUTE_INSTANCE_STATE_RUNNING","RUNNING"]
  | .cluster => ["CLUSTER_STATE_READY","CLUSTER_STATE_PROGRESSING","READY","PROGRESSING"]
  | .bareMetal => ["BARE_METAL_INSTANCE_STATE_RUNNING","RUNNING"]

structure MaaSUsage where
  modelID : String
  tenantID : String
  userID : String
  state : String
  tokensIn : Int
  tokensOut : Int
  requests : Int
  eventTime : Int
  durationSeconds : Rat
  deriving DecidableEq, Repr

def isModelBillable (state : String) : Bool := state ∈ ["MODEL_STATE_RUNNING","RUNNING"]

/-- The meters of an inference: those that count something. -/
def maasMeters (usage : MaaSUsage) (projectID : String) (periodStart periodEnd : Int) :
    List MeteringEntry :=
  let entry (meterName : String) (value : Int) (unit : String) : List MeteringEntry :=
    if value > 0 then
      [{ newEntry "model" usage.modelID usage.tenantID projectID "" meterName value unit periodStart
          periodEnd with userID := usage.userID }]
    else []
  entry "maas_tokens_in" usage.tokensIn "tokens" ++
    entry "maas_tokens_out" usage.tokensOut "tokens" ++
    entry "maas_requests" usage.requests "requests"

theorem maasMeters_owner {usage : MaaSUsage} {projectID : String} {periodStart periodEnd : Int}
    {e : MeteringEntry} (h : e ∈ maasMeters usage projectID periodStart periodEnd) :
    e.resourceType = "model" ∧ e.resourceID = usage.modelID ∧ e.tenantID = usage.tenantID := by
  have hif {c : Prop} [Decidable c] {d : MeteringEntry} (hd : e ∈ if c then [d] else []) : e = d := by
    split at hd
    · exact List.mem_singleton.mp hd
    · cases hd
  simp only [maasMeters,List.mem_append] at h
  rcases h with (h | h) | h <;>
    · rw [hif h]
      exact ⟨rfl,rfl,rfl⟩

abbrev ProjectCache := String → Option String

def defaultProjectForTenant (s : Store) (failed : Bool) (cache : ProjectCache) (tenantID : String) :
    String × ProjectCache :=
  if tenantID = "" then ("default",cache)
  else match cache tenantID with
    | some projectID => (projectID,cache)
    | none =>
      let found := if failed then "" else (s.projectOfTenant tenantID).getD ""
      let projectID := if found = "" then "default" else found
      (projectID,Function.update cache tenantID (some projectID))

def resolveProject (s : Store) (failed : Bool) (cache : ProjectCache) (project tenantID : String) :
    String × ProjectCache :=
  if project ≠ "" then (project,cache) else defaultProjectForTenant s failed cache tenantID

def isUptime (k : Kind) (id : String) (e : MeteringEntry) : Bool :=
  e.resourceType = resourceType k && e.resourceID = id && e.meterName = uptimeMeter k

def uptime (k : Kind) (id : String) (s : Store) : List MeteringEntry :=
  s.entries.filter (isUptime k id)

theorem resourceType_injective {k k' : Kind} (h : resourceType k = resourceType k') : k = k' := by
  cases k <;> cases k' <;> first | rfl | simp [resourceType] at h

theorem isUptime_first {k : Kind} {id : String} {e : MeteringEntry}
    (hr : e.resourceType = resourceType k) (hi : e.resourceID = id)
    (hm : e.meterName = uptimeMeter k) (k' : Kind) (id' : String) :
    isUptime k' id' e = decide (k' = k ∧ id' = id) := by
  by_cases hk : k' = k
  · subst hk
    simp [isUptime,hr,hi,hm,eq_comm]
  · have hne : ¬ resourceType k = resourceType k' := fun h => hk (resourceType_injective h).symm
    simp [isUptime,hr,hne,hk]

theorem isUptime_rest {k : Kind} {e : MeteringEntry} (hr : e.resourceType = resourceType k)
    (hm : e.meterName ≠ uptimeMeter k) (k' : Kind) (id' : String) : isUptime k' id' e = false := by
  by_cases hk : k' = k
  · subst hk
    simp [isUptime,hm]
  · have hne : ¬ resourceType k = resourceType k' := fun h => hk (resourceType_injective h).symm
    simp [isUptime,hr,hne]

/-- Of the entries of an interval the first is the uptime of the resource, and
none of the others is an uptime. -/
theorem meters_uptime (k : Kind) (r : k.Record) (types : InstanceTypes) (projectID : String)
    (duration : Rat) (start stop : Int) :
    ∃ e es, meters k r types projectID duration start stop = e :: es ∧
      (e.value = duration ∧ e.periodStart = start ∧ e.periodEnd = stop) ∧
      (∀ k' id', isUptime k' id' e = decide (k' = k ∧ id' = k.id r)) ∧
      ∀ d ∈ es, ∀ k' id', isUptime k' id' d = false := by
  cases k with
  | computeInstance =>
    refine ⟨_,_,rfl,⟨rfl,rfl,rfl⟩,isUptime_first rfl rfl rfl,?_⟩
    intro d hd
    simp only [List.mem_cons,List.not_mem_nil,or_false] at hd
    rcases hd with rfl | rfl
    · exact isUptime_rest (k := .computeInstance) rfl (by simp [newEntry,uptimeMeter])
    · exact isUptime_rest (k := .computeInstance) rfl (by simp [newEntry,uptimeMeter])
  | cluster =>
    refine ⟨_,_,rfl,⟨rfl,rfl,rfl⟩,isUptime_first rfl rfl rfl,?_⟩
    intro d hd
    rcases List.mem_append.mp hd with hd | hd
    · split at hd
      · rw [List.mem_singleton.mp hd]
        exact isUptime_rest (k := .cluster) rfl (by simp [newEntry,uptimeMeter])
      · cases hd
    · split at hd
      · rw [List.mem_singleton.mp hd]
        exact isUptime_rest (k := .cluster) rfl (by simp [newEntry,uptimeMeter])
      · cases hd
  | bareMetal =>
    refine ⟨_,_,rfl,⟨rfl,rfl,rfl⟩,isUptime_first rfl rfl rfl,?_⟩
    simp

theorem meters_owner {k : Kind} {r : k.Record} {types : InstanceTypes} {projectID : String}
    {duration : Rat} {start stop : Int} {e : MeteringEntry}
    (h : e ∈ meters k r types projectID duration start stop) :
    e.resourceType = resourceType k ∧ e.resourceID = k.id r := by
  cases k with
  | computeInstance =>
    simp only [meters,computeInstanceMeters,List.mem_cons,List.not_mem_nil,or_false] at h
    rcases h with rfl | rfl | rfl <;> exact ⟨rfl,rfl⟩
  | cluster =>
    simp only [meters,clusterMeters,List.mem_cons,List.mem_append] at h
    rcases h with rfl | h | h
    · exact ⟨rfl,rfl⟩
    · split at h
      · rw [List.mem_singleton.mp h]
        exact ⟨rfl,rfl⟩
      · cases h
    · split at h
      · rw [List.mem_singleton.mp h]
        exact ⟨rfl,rfl⟩
      · cases h
  | bareMetal =>
    rw [List.mem_singleton.mp h]
    exact ⟨rfl,rfl⟩

theorem meters_length (k : Kind) (r : k.Record) (types : InstanceTypes) (projectID : String)
    (duration : Rat) (start stop : Int) :
    (meters k r types projectID duration start stop).length ≤ 3 := by
  cases k with
  | computeInstance => exact le_refl 3
  | cluster =>
    simp only [meters,clusterMeters,List.length_cons,List.length_append]
    split <;> split <;> simp
  | bareMetal => exact (by decide : 1 ≤ 3)

theorem isUptime_row (k : Kind) (id : String) (n : Nat) (e : MeteringEntry) :
    isUptime k id (Store.meteringRow n e).toMeteringEntry = isUptime k id e := rfl

theorem uptime_addMetering {s : Store} {id : Nat} (hid : ∀ row ∈ s.meteringEntries.rows, row.id < id)
    (k : Kind) (r : k.Record) (types : InstanceTypes) (projectID : String) (duration : Rat)
    (start stop : Int) :
    ∃ e : MeteringEntry,
      (e.value = Numeric.stored 6 duration ∧ e.periodStart = start ∧ e.periodEnd = stop) ∧
      ∀ k' id', uptime k' id' (s.addMetering id (meters k r types projectID duration start stop)) =
        uptime k' id' s ++ if k' = k ∧ id' = k.id r then [e] else [] := by
  obtain ⟨e,es,hes,⟨hv,hs,he⟩,hfirst,hrest⟩ := meters_uptime k r types projectID duration start stop
  refine ⟨(Store.meteringRow id e).toMeteringEntry,⟨by rw [← hv]; rfl,hs,he⟩,fun k' id' => ?_⟩
  have hnone : (es.mapIdx (fun i d => (Store.meteringRow (id+(i+1)) d).toMeteringEntry)).filter
      (isUptime k' id') = [] := by
    rw [List.filter_eq_nil_iff]
    intro d hd
    obtain ⟨i,hi,rfl⟩ := List.mem_mapIdx.mp hd
    rw [isUptime_row,hrest es[i] (List.getElem_mem hi)]
    exact Bool.false_ne_true
  rw [uptime,hes,(Store.entries_addMetering _ hid).1,List.filter_append,List.mapIdx_cons,
    List.filter_cons,hnone]
  simp only [Nat.add_zero,isUptime_row,hfirst,decide_eq_true_eq,uptime]

end CostConsumer.Metering
