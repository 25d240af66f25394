import CostConsumer.Foundation.Document
import CostConsumer.Foundation.GoTime
import Mathlib.Data.Rat.Defs
set_option autoImplicit false

namespace CostConsumer.Ingest
open Foundation

structure CloudEvent where
  specVersion : String
  type : String
  source : String
  id : String
  time : Int
  subject : String
  dataContentType : String
  data : String
  osacResourceID : String
  osacResourceType : String
  osacTenant : String
  osacProject : String
  osacTrace : String
  deriving DecidableEq, Repr

def CloudEvent.texts (ce : CloudEvent) : List String :=
  [ce.specVersion,ce.type,ce.source,ce.id,ce.subject,ce.dataContentType,ce.osacResourceID,
    ce.osacResourceType,ce.osacTenant,ce.osacProject,ce.osacTrace]

/-- The event as JSON is a value `raw_events.data` takes. A NUL character is escaped in it as
`\u0000`, and neither this nor the character itself can be stored; the data stand in it as they
came. -/
def CloudEvent.storable (ce : CloudEvent) : Bool :=
  ce.texts.all (fun text => text.toList.all (·.toNat ≠ 0)) && Jsonb.takes ce.data

structure Peek where
  tenantID : String
  organizationID : String
  instanceID : String
  clusterID : String
  modelID : String
  model : String
  deriving DecidableEq, Repr

structure MeteringData where
  resourceID : String
  resourceType : String
  tenantID : String
  projectID : Option String
  templateID : Option String
  currentState : String
  durationSeconds : Option Rat
  billingDimensions : String
  deriving DecidableEq, Repr

structure MaasBillingDimensions where
  organizationID : String
  model : String
  promptTokens : Int
  completionTokens : Int
  durationMs : Int
  deriving DecidableEq, Repr

structure ComputeInstanceEventData where
  durationSeconds : Rat
  cpuCoreSeconds : Int
  memoryGiBSeconds : Int
  tenantID : String
  instanceID : String
  state : String
  cores : Int
  memoryGiB : Int
  deriving DecidableEq, Repr

structure ClusterEventData where
  durationSeconds : Rat
  workerNodeSeconds : Int
  tenantID : String
  clusterID : String
  state : String
  hostType : String
  deriving DecidableEq, Repr

structure MaaSEventData where
  tenantID : String
  modelID : String
  modelName : String
  template : String
  state : String
  tokensIn : Int
  tokensOut : Int
  requests : Int
  durationSeconds : Rat
  requestCount : Int
  user : String
  group : String
  subscription : String
  organizationID : String
  model : String
  promptTokens : Int
  completionTokens : Int
  durationMs : Int
  deriving DecidableEq, Repr

/-- `json.Unmarshal` into the types of the handlers; no value is an error. The
errors of the three kinds of billing dimensions are ignored, so these give the
fields that were decoded. -/
structure Decoder where
  peek : String → Option Peek
  meteringData : String → Option MeteringData
  computeInstance : String → Option ComputeInstanceEventData
  cluster : String → Option ClusterEventData
  model : String → Option MaaSEventData
  vmInstanceType : String → Option String
  clusterTemplate : String → String
  maasDimensions : String → MaasBillingDimensions

def eventTypeComputeInstance := "osac.compute_instance.lifecycle"
def eventTypeCluster := "osac.cluster.lifecycle"
def eventTypeModel := "osac.model.lifecycle"
def eventTypeInferenceTokens := "inference.tokens.used"
def eventTypeResourceDeleted := "osac.resource.deleted.v1"
def eventTypeInferenceUsage := "osac.inference.usage.v1"

def isOSACv1EventType (t : String) : Bool :=
  t ∈ ["osac.resource.created.v1",eventTypeResourceDeleted,"osac.resource.started.v1",
    "osac.resource.suspended.v1","osac.resource.resumed.v1","osac.resource.updated.v1",
    "osac.resource.heartbeat.v1"]

/-- The events whose identity is in the extensions of the envelope. -/
def isOSACv1 (ce : CloudEvent) : Bool :=
  isOSACv1EventType ce.type || ce.type = eventTypeInferenceUsage

abbrev Identity := String × String × String

def classifyEvent (dec : Decoder) (ce : CloudEvent) : Identity :=
  if isOSACv1 ce then
    (if ce.osacResourceType = "" then ce.type else ce.osacResourceType,ce.osacResourceID,
      ce.osacTenant)
  else match dec.peek ce.data with
    | none => (ce.type,"",ce.subject)
    | some peek =>
      let tenantID := if peek.tenantID = "" then peek.organizationID else peek.tenantID
      let tenantID := if tenantID = "" then ce.subject else tenantID
      if ce.type = eventTypeComputeInstance then ("ComputeInstance",peek.instanceID,tenantID)
      else if ce.type = eventTypeCluster then ("Cluster",peek.clusterID,tenantID)
      else if ce.type = eventTypeModel then ("Model",peek.modelID,tenantID)
      else if ce.type = eventTypeInferenceTokens then
        ("Model",if peek.modelID = "" then peek.model else peek.modelID,tenantID)
      else (ce.type,"",tenantID)

def maxEventAge : Int := 2*GoTime.nanosPerHour
def maxEventFuture : Int := 5*60*GoTime.nanosPerSecond
def maxIDLength : Nat := 256
def maxBatchEvents : Nat := 100

inductive ValidationError where
  | batchSize : ValidationError
  | specVersion : ValidationError
  | required : ValidationError
  | noData : ValidationError
  | tooOld (age : Int) : ValidationError
  | tooFuture (age : Int) : ValidationError
  | noIdentity : ValidationError
  | idTooLong : ValidationError
  | noExtensions : ValidationError
  | badOSACData : ValidationError
  | identityMismatch : ValidationError
  deriving DecidableEq, Repr

/-- The fields of a v1 event that have to agree with its envelope. -/
def validateOSACv1 (dec : Decoder) (ce : CloudEvent) : Except ValidationError Unit :=
  if ce.osacResourceID = "" ∨ ce.osacResourceType = "" ∨ ce.osacTenant = "" then
    .error .noExtensions
  else match dec.meteringData ce.data with
    | none => .error .badOSACData
    | some data =>
      if data.resourceID = "" ∨ data.resourceType = "" ∨ data.tenantID = "" ∨
          data.resourceID ≠ ce.osacResourceID ∨ data.resourceType ≠ ce.osacResourceType ∨
          data.tenantID ≠ ce.osacTenant then .error .identityMismatch
      else .ok ()

/-- `identify` is the classification, custom metrics included. -/
def validateCloudEvent (dec : Decoder) (identify : CloudEvent → Identity) (now : Int)
    (ce : CloudEvent) : Except ValidationError Unit :=
  let age := GoTime.sub now ce.time
  let (resourceType,resourceID,tenantID) := identify ce
  if ce.specVersion ≠ "1.0" then .error .specVersion
  else if ce.id = "" ∨ ce.type = "" ∨ ce.source = "" ∨ ce.time = 0 then .error .required
  else if ce.data = "" ∨ ce.data = "null" then .error .noData
  else if age > maxEventAge then .error (.tooOld age)
  else if age < -maxEventFuture then .error (.tooFuture age)
  else if resourceType = "" ∨ resourceID = "" ∨ tenantID = "" then .error .noIdentity
  else if resourceID.utf8ByteSize > maxIDLength ∨ tenantID.utf8ByteSize > maxIDLength then
    .error .idTooLong
  else if isOSACv1 ce then validateOSACv1 dec ce
  else .ok ()

def validateBatch (dec : Decoder) (identify : CloudEvent → Identity) (now : Int) :
    List CloudEvent → Except ValidationError Unit
  | [] => .ok ()
  | ce :: events =>
    match validateCloudEvent dec identify now ce with
    | .error e => .error e
    | .ok () => validateBatch dec identify now events

end CostConsumer.Ingest
