import Mathlib.Data.Rat.Defs
set_option autoImplicit false

/-!
The records of the inventory database. `float64` and `decimal.Decimal` values
are exact rationals and instants are nanosecond counts.
-/

namespace CostConsumer.Inventory

/-- A JSONB column that holds a map, as the list of its entries; `none` is the JSON value
null, which a nil map is marshalled to. -/
abbrev JsonMap (α : Type) : Type := Option (List (String × α))

/-- A column that a record does not set is the empty object. `UpsertCluster` does the same
for the node sets. -/
def marshalLabels {α : Type} (labels : Option (JsonMap α)) : JsonMap α := labels.getD (some [])

@[simp] theorem marshalLabels_none {α : Type} : marshalLabels (none : Option (JsonMap α)) = some [] := rfl

@[simp] theorem marshalLabels_some {α : Type} (labels : JsonMap α) : marshalLabels (some labels) = labels := rfl

structure ComputeInstanceRecord where
  instanceID : String
  name : String
  tenant : String
  project : String
  clusterID : String
  instanceType : String
  cores : Int
  memoryGiB : Int
  state : String
  labels : JsonMap String
  createdAt : Int
  deletedAt : Option Int
  lastEventID : String
  lastUpdated : Int
  lastMeteredAt : Option Int
  deriving DecidableEq, Repr

structure NodeSet where
  hostType : String
  size : Int
  deriving DecidableEq, Repr

structure ClusterRecord where
  clusterID : String
  name : String
  tenant : String
  template : String
  nodeSets : JsonMap NodeSet
  state : String
  labels : JsonMap String
  createdAt : Int
  deletedAt : Option Int
  lastEventID : String
  lastUpdated : Int
  lastMeteredAt : Option Int
  deriving DecidableEq, Repr

structure BareMetalInstanceRecord where
  instanceID : String
  name : String
  tenant : String
  catalogItem : String
  state : String
  labels : JsonMap String
  createdAt : Int
  deletedAt : Option Int
  lastEventID : String
  lastUpdated : Int
  lastMeteredAt : Option Int
  deriving DecidableEq, Repr

structure ModelRecord where
  modelID : String
  name : String
  modelName : String
  tenant : String
  project : String
  template : String
  state : String
  labels : JsonMap String
  createdAt : Int
  deletedAt : Option Int
  lastEventID : String
  lastUpdated : Int
  deriving DecidableEq, Repr

structure InstanceTypeRecord where
  instanceTypeID : String
  name : String
  cores : Int
  memoryGiB : Int
  state : String
  lastUpdated : Int
  deriving DecidableEq, Repr

structure ProjectRecord where
  projectID : String
  name : String
  tenant : String
  labels : JsonMap String
  createdAt : Int
  deletedAt : Option Int
  lastUpdated : Int
  deriving DecidableEq, Repr

structure TenantRecord where
  tenantID : String
  name : String
  labels : JsonMap String
  createdAt : Int
  deletedAt : Option Int
  lastUpdated : Int
  deriving DecidableEq, Repr

structure MeteringEntry where
  id : Nat
  rawEventID : Option Nat
  resourceType : String
  resourceID : String
  tenantID : String
  projectID : String
  userID : String
  instanceType : String
  meterName : String
  value : Rat
  unit : String
  periodStart : Int
  periodEnd : Int
  deriving DecidableEq, Repr

structure MeteringRow extends MeteringEntry where
  ratedAt : Option Int
  deriving DecidableEq, Repr

structure Tier where
  upTo : Option Rat
  pricePerUnit : Rat
  deriving DecidableEq, Repr

structure RateRecord where
  id : Nat
  tenantID : Option String
  resourceType : String
  instanceType : String
  meterName : String
  kokuMetric : String
  costType : String
  pricePerUnit : Rat
  currency : String
  tiers : List Tier
  tierMode : String
  tierPeriod : String
  description : String
  effectiveFrom : Int
  effectiveTo : Option Int
  deriving DecidableEq, Repr

structure CostEntry where
  meteringEntryID : Nat
  rateID : Nat
  tenantID : String
  projectID : String
  userID : String
  resourceType : String
  resourceID : String
  meterName : String
  meteredValue : Rat
  costAmount : Rat
  currency : String
  periodStart : Int
  periodEnd : Int
  deriving DecidableEq, Repr

end CostConsumer.Inventory
