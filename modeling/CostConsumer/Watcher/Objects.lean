set_option autoImplicit false

namespace CostConsumer.Osac

/-- Labels and the node sets of a spec are `none` when the map is nil. -/
structure Metadata where
  creationTimestamp : Option Int := none
  deletionTimestamp : Option Int := none
  creator : String := ""
  name : String := ""
  tenant : String := ""
  labels : Option (List (String × String)) := none
  annotations : List (String × String) := []
  version : Int := 0
  deriving DecidableEq, Repr

structure ClusterNodeSet where
  hostType : String
  size : Int
  deriving DecidableEq, Repr

structure ClusterSpec where
  template : String := ""
  nodeSets : Option (List (String × ClusterNodeSet)) := none
  catalogItem : String := ""
  deriving DecidableEq, Repr

structure ClusterStatus where
  state : String
  nodeSets : List (String × ClusterNodeSet) := []
  deriving DecidableEq, Repr

structure Cluster where
  id : String
  metadata : Metadata
  spec : ClusterSpec
  status : ClusterStatus
  deriving DecidableEq, Repr

structure ResourceReference where
  id : String := ""
  name : String := ""
  project : String := ""
  shared : Bool := false
  deriving DecidableEq, Repr

structure ComputeInstanceDisk where
  sizeGiB : Option Int
  storageTier : ResourceReference
  deriving DecidableEq, Repr

structure ComputeInstanceSpec where
  template : ResourceReference := {}
  catalogItem : ResourceReference := {}
  cores : Option Int := none
  memoryGib : Option Int := none
  instanceType : ResourceReference := {}
  networkAttachments : List ResourceReference := []
  bootDisk : Option ComputeInstanceDisk := none
  runStrategy : String := ""
  diskImage : ResourceReference := {}
  deriving DecidableEq, Repr

structure ComputeInstanceStatus where
  state : String
  deriving DecidableEq, Repr

structure ComputeInstance where
  id : String
  metadata : Metadata
  spec : ComputeInstanceSpec
  status : ComputeInstanceStatus
  deriving DecidableEq, Repr

structure InstanceTypeSpec where
  cores : Int
  memoryGib : Int
  state : String := ""
  deriving DecidableEq, Repr

structure InstanceType where
  id : String
  metadata : Metadata
  spec : InstanceTypeSpec
  deriving DecidableEq, Repr

structure BareMetalInstanceSpec where
  catalogItem : String := ""
  deriving DecidableEq, Repr

structure BareMetalInstanceStatus where
  state : String
  deriving DecidableEq, Repr

structure BareMetalInstance where
  id : String
  metadata : Metadata
  spec : BareMetalInstanceSpec
  status : BareMetalInstanceStatus
  deriving DecidableEq, Repr

/-- Projects, tenants, roles and templates: an id and its metadata. -/
structure Named where
  id : String
  metadata : Metadata
  deriving DecidableEq, Repr

structure Event where
  id : String
  type : String
  cluster : Option Cluster := none
  clusterTemplate : Option Named := none
  computeInstance : Option ComputeInstance := none
  computeInstanceTemplate : Option Named := none
  hostType : Option Named := none
  instanceType : Option InstanceType := none
  project : Option Named := none
  tenant : Option Named := none
  role : Option Named := none
  roleBinding : Option Named := none
  bareMetalInstance : Option BareMetalInstance := none
  deriving DecidableEq, Repr

def eventTypeCreated := "EVENT_TYPE_OBJECT_CREATED"
def eventTypeUpdated := "EVENT_TYPE_OBJECT_UPDATED"
def eventTypeDeleted := "EVENT_TYPE_OBJECT_DELETED"

end CostConsumer.Osac
