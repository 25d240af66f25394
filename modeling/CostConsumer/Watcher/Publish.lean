import CostConsumer.Ingest.Unmarshal
import CostConsumer.Watcher.Handle
set_option autoImplicit false

/-!
An event of the watch stream is either handled by the watcher or, when there is a
Kafka producer, published as JSON for the consumer, which takes every payload for a
CloudEvent. A payload of the watcher is none.
-/

namespace CostConsumer.Osac
open Foundation Document

section Marshal
variable (formatTime : Int → String)

def textMap : List (String × String) → Document := fun es => .object (es.map fun e => (e.1,.text e.2))

def marshalMetadata (m : Metadata) : Document :=
  .object (omitNone "creation_timestamp" (m.creationTimestamp.map (.text <| formatTime ·)) ++
    omitNone "deletion_timestamp" (m.deletionTimestamp.map (.text <| formatTime ·)) ++
    omitText "creator" m.creator ++ omitText "name" m.name ++ omitText "tenant" m.tenant ++
    omitEmpty "labels" textMap (m.labels.getD []) ++ omitEmpty "annotations" textMap m.annotations ++
    omitZero "version" m.version)

def marshalNodeSets (sets : List (String × ClusterNodeSet)) : Document :=
  .object (sets.map fun ns =>
    (ns.1,.object [("host_type",.text ns.2.hostType),("size",.number (toString ns.2.size))]))

def marshalCluster (cl : Cluster) : Document :=
  .object [("id",.text cl.id),("metadata",marshalMetadata formatTime cl.metadata),
    ("spec",.object (omitText "template" cl.spec.template ++
      omitEmpty "node_sets" marshalNodeSets (cl.spec.nodeSets.getD []) ++
      omitText "catalog_item" cl.spec.catalogItem)),
    ("status",.object (("state",.text cl.status.state) ::
      omitEmpty "node_sets" marshalNodeSets cl.status.nodeSets))]

def marshalReference (r : ResourceReference) : Document :=
  .object (omitText "id" r.id ++ omitText "name" r.name ++ omitText "project" r.project ++
    omitFalse "shared" r.shared)

def marshalDisk (d : ComputeInstanceDisk) : Document :=
  .object (omitNone "size_gib" (d.sizeGiB.map (.number <| toString ·)) ++
    [("storage_tier",marshalReference d.storageTier)])

def marshalComputeInstance (ci : ComputeInstance) : Document :=
  .object [("id",.text ci.id),("metadata",marshalMetadata formatTime ci.metadata),
    ("spec",.object ([("template",marshalReference ci.spec.template),
        ("catalog_item",marshalReference ci.spec.catalogItem)] ++
      omitNone "cores" (ci.spec.cores.map (.number <| toString ·)) ++
      omitNone "memory_gib" (ci.spec.memoryGib.map (.number <| toString ·)) ++
      [("instance_type",marshalReference ci.spec.instanceType)] ++
      omitEmpty "network_attachments"
        (fun as => .array (as.map fun a => .object [("subnet",marshalReference a)]))
        ci.spec.networkAttachments ++
      omitNone "boot_disk" (ci.spec.bootDisk.map marshalDisk) ++
      omitText "run_strategy" ci.spec.runStrategy ++
      [("disk_image",marshalReference ci.spec.diskImage)])),
    ("status",.object [("state",.text ci.status.state)])]

def marshalInstanceType (it : InstanceType) : Document :=
  .object [("id",.text it.id),("metadata",marshalMetadata formatTime it.metadata),
    ("spec",.object ([("cores",.number (toString it.spec.cores)),
      ("memory_gib",.number (toString it.spec.memoryGib))] ++ omitText "state" it.spec.state))]

def marshalBareMetalInstance (bm : BareMetalInstance) : Document :=
  .object [("id",.text bm.id),("metadata",marshalMetadata formatTime bm.metadata),
    ("spec",.object (omitText "catalog_item" bm.spec.catalogItem)),
    ("status",.object [("state",.text bm.status.state)])]

def marshalNamed (n : Named) : Document :=
  .object [("id",.text n.id),("metadata",marshalMetadata formatTime n.metadata)]

def eventMembers (e : Event) : Members :=
  [("id",.text e.id),("type",.text e.type)] ++
    omitNone "cluster" (e.cluster.map (marshalCluster formatTime)) ++
    omitNone "cluster_template" (e.clusterTemplate.map (marshalNamed formatTime)) ++
    omitNone "compute_instance" (e.computeInstance.map (marshalComputeInstance formatTime)) ++
    omitNone "compute_instance_template" (e.computeInstanceTemplate.map (marshalNamed formatTime)) ++
    omitNone "host_type" (e.hostType.map (marshalNamed formatTime)) ++
    omitNone "instance_type" (e.instanceType.map (marshalInstanceType formatTime)) ++
    omitNone "project" (e.project.map (marshalNamed formatTime)) ++
    omitNone "tenant" (e.tenant.map (marshalNamed formatTime)) ++
    omitNone "role" (e.role.map (marshalNamed formatTime)) ++
    omitNone "role_binding" (e.roleBinding.map (marshalNamed formatTime)) ++
    omitNone "bare_metal_instance" (e.bareMetalInstance.map (marshalBareMetalInstance formatTime))

def marshalEvent (e : Event) : Document := .object (eventMembers formatTime e)

end Marshal

end CostConsumer.Osac

namespace CostConsumer.Watcher
open Inventory Foundation Osac Ingest
open Metering (DeleteFaults)

variable {δ : Type}

def eventResourceType (e : Event) : String :=
  if e.computeInstance.isSome then "ComputeInstance"
  else if e.cluster.isSome then "Cluster"
  else if e.instanceType.isSome then "InstanceType"
  else if e.project.isSome then "Project"
  else if e.tenant.isSome then "Tenant"
  else if e.bareMetalInstance.isSome then "BareMetalInstance"
  else if e.hostType.isSome then "HostType"
  else if e.clusterTemplate.isSome then "ClusterTemplate"
  else if e.computeInstanceTemplate.isSome then "ComputeInstanceTemplate"
  else if e.role.isSome then "Role"
  else if e.roleBinding.isSome then "RoleBinding"
  else "Unknown"

/-- Resource id, tenant id and time. Projects and tenants have the time of their
handling, and a tenant is its own tenant. -/
def extractEventMeta (now : Int) (e : Event) : String × String × Int :=
  let timed (id : String) (m : Metadata) : String × String × Int := (id,m.tenant,createdAt now m)
  ((e.computeInstance.map fun ci => timed ci.id ci.metadata).or <|
    (e.cluster.map fun cl => timed cl.id cl.metadata).or <|
    (e.instanceType.map fun it => timed it.id it.metadata).or <|
    (e.bareMetalInstance.map fun bm => timed bm.id bm.metadata).or <|
    (e.project.map fun p => (p.id,p.metadata.tenant,now)).or <|
    e.tenant.map fun t => (t.id,t.id,now)).getD ("","",now)

/-- A row of `raw_events` that the watcher stores; `data` is the JSON of the event. -/
structure WatchedEvent where
  eventID : String
  eventType : String
  eventSource : String
  eventTime : Int
  tenantID : String
  resourceType : String
  resourceID : String
  data : Document
  receivedAt : Int

inductive RawRow where
  | ingested (e : RawEvent) : RawRow
  | watched (e : WatchedEvent) : RawRow

/-- The state of the service with what is stored about events. -/
structure World (δ : Type) where
  metering : Metering.State
  receipts : Table Key (Receipt δ) Receipt.key
  rawEvents : List RawRow

inductive Topic where
  | lifecycle : Topic
  | heartbeat : Topic
  | inference : Topic
  deriving DecidableEq, Repr

def hasSuffix (s suffix : String) : Bool := suffix.toList.isSuffixOf s.toList

/-- The topic and the key of a record; other types are not published. -/
def route (eventType resourceID tenantID : String) : Option (Topic × String) :=
  if eventType ∈ [eventTypeCreated,eventTypeUpdated,eventTypeDeleted] then some (.lifecycle,resourceID)
  else if eventType ∈ ["osac.resource.created.v1","osac.resource.started.v1","osac.resource.updated.v1",
      "osac.resource.suspended.v1","osac.resource.resumed.v1",eventTypeResourceDeleted] then
    some (.lifecycle,resourceID)
  else if eventType = "osac.resource.heartbeat.v1" then some (.heartbeat,resourceID)
  else if hasSuffix eventType ".compute_instance.lifecycle" ∨ hasSuffix eventType ".cluster.lifecycle" then
    some (.heartbeat,resourceID)
  else if eventType = eventTypeInferenceUsage ∨ hasSuffix eventType ".model.lifecycle" ∨
      eventType = eventTypeInferenceTokens then some (.inference,tenantID)
  else none

namespace World

/-- `processEvents` for one event; no value is an error, and nothing is written. -/
def processEvents [DecidableEq δ] (env : Env δ) (now : Int) (w : World δ) (ce : CloudEvent) :
    Option (World δ) :=
  match validateCloudEvent env.decoder env.identify now ce with
  | .error _ => none
  | .ok () => match w.receipts.find? ce.key with
    | some r => if r.payload = env.digest ce then some w else none
    | none => match env.storable ce, env.handle ce with
      | false, _ => none
      | true, .error _ => none
      | true, .ok calls => match Service.runCalls now w.metering calls with
        | .error _ => none
        | .ok (s,_) => some ⟨s,w.receipts.insert (env.receipt now ce),
            w.rawEvents ++ [.ingested (env.rawEvent now ce)]⟩

end World

section Direct
variable (env : Env δ) (formatTime : Int → String)

def storeRawEvent (now : Int) (e : Event) (w : World δ) : World δ :=
  let (resourceID,tenantID,eventTime) := extractEventMeta now e
  { w with rawEvents := w.rawEvents ++ [.watched ⟨e.id,e.type,"osac.fulfillment-service",eventTime,
    tenantID,eventResourceType e,resourceID,marshalEvent formatTime e,now⟩] }

def direct (now : Int) (f : DeleteFaults) (e : Event) (w : World δ) : World δ :=
  let w := storeRawEvent formatTime now e w
  match (handleEvent now f e).bind (Service.step env w.metering) with
  | some s => { w with metering := s }
  | none => w

theorem direct_rawEvents (now : Int) (f : DeleteFaults) (e : Event) (w : World δ) :
    (direct env formatTime now f e w).rawEvents.length = w.rawEvents.length + 1 := by
  unfold direct
  dsimp only
  split <;> simp [storeRawEvent]

theorem event_specversion (e : Event) : (eventMembers formatTime e).values "specversion" = [] := by
  refine Members.values_eq_nil ?_
  simp only [eventMembers,List.forall_mem_append]
  and_intros
  · simp only [List.forall_mem_cons]
    decide +kernel
  all_goals exact forall_omitNone (P := fun key => sameKey "specversion" key = false) (by decide +kernel) _

end Direct

def SameEffect (w w' : World δ) : Prop :=
  w.rawEvents = w'.rawEvents ∧ w.metering.store = w'.metering.store

section Handoff
variable [DecidableEq δ] (env : Env δ) (formatTime : Int → String) (parseTime : String → Option Int)
  (render : Document → String)

def processKafkaEvent (now : Int) (payload : Document) (w : World δ) : World δ :=
  ((payload.decode (cloudEventFields parseTime) (cloudEventOf parseTime render)).bind
    (w.processEvents env now)).getD w

/-- `handleEvent` with a producer, and the consumer's call for a published record. -/
def handoff (now consumed : Int) (e : Event) (w : World δ) : World δ :=
  let (resourceID,tenantID,_) := extractEventMeta now e
  match route e.type resourceID tenantID with
  | some _ => processKafkaEvent env parseTime render consumed (marshalEvent formatTime e) w
  | none => w

theorem processKafkaEvent_watch (now : Int) (e : Event) (w : World δ) :
    processKafkaEvent env parseTime render now (marshalEvent formatTime e) w = w := by
  unfold processKafkaEvent
  cases hd : (marshalEvent formatTime e).decode (cloudEventFields parseTime)
      (cloudEventOf parseTime render) with
  | none => rfl
  | some ce =>
    obtain ⟨ms,hms,-,rfl⟩ := Document.decode_eq_some.mp hd
    cases hms
    have hversion : (cloudEventOf parseTime render (eventMembers formatTime e)).specVersion = "" := by
      rw [cloudEventOf,Members.text,event_specversion]
      rfl
    have hinvalid : validateCloudEvent env.decoder env.identify now
        (cloudEventOf parseTime render (eventMembers formatTime e)) = .error .specVersion := by
      simp [validateCloudEvent,hversion]
    simp [World.processEvents,hinvalid]

theorem handoff_eq (now consumed : Int) (e : Event) (w : World δ) :
    handoff env formatTime parseTime render now consumed e w = w := by
  unfold handoff
  dsimp only
  split
  · exact processKafkaEvent_watch env formatTime parseTime render consumed e w
  · rfl

/-- No event of the watch stream has the same effect through Kafka as without it:
the watcher stores at least the raw event, the consumer nothing. -/
theorem handoff_loses_every_event (now consumed : Int) (f : DeleteFaults) (e : Event) (w : World δ) :
    ¬ SameEffect (handoff env formatTime parseTime render now consumed e w)
      (direct env formatTime now f e w) := by
  rintro ⟨hraw,-⟩
  have hlength := direct_rawEvents env formatTime now f e w
  rw [handoff_eq] at hraw
  rw [← hraw] at hlength
  omega

end Handoff

def createdEvent : Event where
  id := "e-1"
  type := eventTypeCreated
  computeInstance := some ⟨"vm-1",{ tenant := "acme" },{},⟨"COMPUTE_INSTANCE_STATE_RUNNING"⟩⟩

def emptyWorld : World CloudEvent := ⟨⟨{},1,fun _ => none,.idle⟩,.empty,[]⟩

theorem created_instance_lost :
    let published := handoff Service.sampleEnv (fun _ => "") (fun _ => none) (fun _ => "") 1 1 createdEvent
      emptyWorld
    let handled := direct Service.sampleEnv (fun _ => "") 1 {} createdEvent emptyWorld
    (handled.metering.store.table .computeInstance).rows.map (fun r => r.instanceID) = ["vm-1"] ∧
      handled.rawEvents.length = 1 ∧
      (published.metering.store.table .computeInstance).rows = [] ∧ published.rawEvents.length = 0 ∧
      ¬ SameEffect published handled := by
  have hhandled : (direct Service.sampleEnv (fun _ => "") 1 {} createdEvent emptyWorld).rawEvents.length = 1 := by
    decide +kernel
  have hpublished : (handoff Service.sampleEnv (fun _ => "") (fun _ => none) (fun _ => "") 1 1 createdEvent
      emptyWorld).rawEvents.length = 0 := by
    decide +kernel
  refine ⟨by decide +kernel,hhandled,by decide +kernel,hpublished,fun h => ?_⟩
  have hsame := congrArg List.length h.1
  rw [hhandled,hpublished] at hsame
  cases hsame

end CostConsumer.Watcher
