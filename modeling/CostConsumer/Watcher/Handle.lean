import CostConsumer.Service.Machine
import CostConsumer.Watcher.Objects
set_option autoImplicit false

/-!
What the watcher makes of an event of the watch stream, and reconciliation of what
the fulfillment service lists: the steps of the service they take.
-/

namespace CostConsumer.Watcher
open Inventory Service Osac
open Metering (DeleteFaults)

def createdAt (now : Int) (m : Metadata) : Int := m.creationTimestamp.getD now

def computeInstanceRecord (now : Int) (eventID : String) (ci : ComputeInstance) :
    ComputeInstanceRecord where
  instanceID := ci.id
  name := ci.metadata.name
  tenant := ci.metadata.tenant
  project := ""
  clusterID := ""
  instanceType := ci.spec.instanceType.id
  cores := ci.spec.cores.getD 0
  memoryGiB := ci.spec.memoryGib.getD 0
  state := ci.status.state
  labels := marshalLabels (some ci.metadata.labels)
  createdAt := createdAt now ci.metadata
  deletedAt := none
  lastEventID := eventID
  lastUpdated := now
  lastMeteredAt := none

def clusterRecord (now : Int) (eventID : String) (cl : Cluster) : ClusterRecord where
  clusterID := cl.id
  name := cl.metadata.name
  tenant := cl.metadata.tenant
  template := cl.spec.template
  nodeSets := marshalLabels <| some <| cl.spec.nodeSets.map fun sets =>
    sets.map fun ns => (ns.1,⟨ns.2.hostType,ns.2.size⟩)
  state := cl.status.state
  labels := marshalLabels (some cl.metadata.labels)
  createdAt := createdAt now cl.metadata
  deletedAt := none
  lastEventID := eventID
  lastUpdated := now
  lastMeteredAt := none

def bareMetalInstanceRecord (now : Int) (eventID : String) (bm : BareMetalInstance) :
    BareMetalInstanceRecord where
  instanceID := bm.id
  name := bm.metadata.name
  tenant := bm.metadata.tenant
  catalogItem := bm.spec.catalogItem
  state := bm.status.state
  labels := marshalLabels (some bm.metadata.labels)
  createdAt := createdAt now bm.metadata
  deletedAt := none
  lastEventID := eventID
  lastUpdated := now
  lastMeteredAt := none

def instanceTypeRecord (now : Int) (it : InstanceType) : InstanceTypeRecord :=
  ⟨it.id,it.metadata.name,it.spec.cores,it.spec.memoryGib,it.spec.state,now⟩

def projectRecord (now : Int) (p : Named) : ProjectRecord :=
  ⟨p.id,p.metadata.name,p.metadata.tenant,marshalLabels (some p.metadata.labels),createdAt now p.metadata,none,
    now⟩

def tenantRecord (now : Int) (t : Named) : TenantRecord :=
  ⟨t.id,t.metadata.name,marshalLabels (some t.metadata.labels),createdAt now t.metadata,none,now⟩

/-- The step of the first object an event carries, in the order of the source. -/
def handleCreateOrUpdate (now : Int) (e : Event) : Option Label :=
  (e.computeInstance.map fun ci =>
      .meter (.upsert .computeInstance (computeInstanceRecord now e.id ci) now)).or <|
  (e.cluster.map fun cl => .meter (.upsert .cluster (clusterRecord now e.id cl) now)).or <|
  (e.instanceType.map fun it => .meter (.upsertInstanceType (instanceTypeRecord now it) now)).or <|
  (e.bareMetalInstance.map fun bm =>
      .meter (.upsert .bareMetal (bareMetalInstanceRecord now e.id bm) now)).or <|
  (e.project.map fun p => .meter (.upsertProject (projectRecord now p) now)).or <|
  e.tenant.map fun t => .upsertTenant (tenantRecord now t) now

def deletedAt (now : Int) (m : Metadata) : Int := m.deletionTimestamp.getD now

def handleDelete (now : Int) (f : DeleteFaults) (e : Event) : Option Label :=
  let delete (k : Kind) (id : String) (m : Metadata) : Label :=
    .meter (.delete k id (deletedAt now m) e.id now f)
  (e.computeInstance.map fun ci => delete .computeInstance ci.id ci.metadata).or <|
  (e.cluster.map fun cl => delete .cluster cl.id cl.metadata).or <|
  e.bareMetalInstance.map fun bm => delete .bareMetal bm.id bm.metadata

def handleEvent (now : Int) (f : DeleteFaults) (e : Event) : Option Label :=
  if e.type = eventTypeCreated ∨ e.type = eventTypeUpdated then handleCreateOrUpdate now e
  else if e.type = eventTypeDeleted then handleDelete now f e
  else none

def deletion (e : Event) : Option (Kind × String × Metadata) :=
  if e.type = eventTypeDeleted then
    (e.computeInstance.map fun ci => (.computeInstance,ci.id,ci.metadata)).or <|
    (e.cluster.map fun cl => (.cluster,cl.id,cl.metadata)).or <|
    e.bareMetalInstance.map fun bm => (.bareMetal,bm.id,bm.metadata)
  else none

theorem handleEvent_deletion {e : Event} {k : Kind} {id : String} {m : Metadata}
    (h : deletion e = some (k,id,m)) (now : Int) (f : DeleteFaults) :
    handleEvent now f e = some (.meter (.delete k id (deletedAt now m) e.id now f)) := by
  unfold deletion at h
  split at h
  · rename_i ht
    have hne : ¬ (e.type = eventTypeCreated ∨ e.type = eventTypeUpdated) := by
      rw [ht]
      decide
    rw [handleEvent,if_neg hne,if_pos ht]
    simp only [Option.or_eq_some_iff,Option.map_eq_some_iff] at h
    rcases h with ⟨ci,hci,he⟩ | ⟨hci,⟨cl,hcl,he⟩ | ⟨hcl,bm,hbm,he⟩⟩
    · cases he
      simp [handleDelete,hci]
    · cases he
      simp only [Option.map_eq_none_iff] at hci
      simp [handleDelete,hci,hcl]
    · cases he
      simp only [Option.map_eq_none_iff] at hci hcl
      simp [handleDelete,hci,hcl,hbm]
  · cases h

def latest {α : Type} (id : α → String) : List α → List α
  | [] => []
  | a :: as => if as.any (fun b => id b = id a) then latest id as else a :: latest id as

/-- One kind of resource: what is listed and not known alive is upserted, and what
is known and no longer listed is marked. -/
def reconcile (k : Kind) (now : Int) (listed known : List k.Record) : List Label :=
  ((latest k.id listed).filter fun r => known.all fun r' => k.id r' ≠ k.id r).map
      (fun r => .meter (.upsert k r now)) ++
    (known.filter fun r => listed.all fun r' => k.id r' ≠ k.id r).map
      fun r => .reconciled k (k.id r) now

def reconcileComputeInstances (now : Int) (osac : List ComputeInstance) :
    List ComputeInstanceRecord → List Label :=
  reconcile .computeInstance now
    (osac.map fun ci => { computeInstanceRecord now "reconcile" ci with labels := marshalLabels none })

def reconcileClusters (now : Int) (osac : List Cluster) : List ClusterRecord → List Label :=
  reconcile .cluster now
    (osac.map fun cl =>
      { clusterRecord now "reconcile" cl with labels := marshalLabels none, nodeSets := marshalLabels none })

def reconcileBareMetalInstances (now : Int) (osac : List BareMetalInstance) :
    List BareMetalInstanceRecord → List Label :=
  reconcile .bareMetal now
    (osac.map fun bm => { bareMetalInstanceRecord now "reconcile" bm with labels := marshalLabels none })

theorem mem_latest {α : Type} {id : α → String} {a : α} {as : List α} (h : a ∈ latest id as) :
    a ∈ as := by
  induction as with
  | nil => exact h
  | cons b as ih =>
    unfold latest at h
    split at h
    · exact List.mem_cons_of_mem _ (ih h)
    · rcases List.mem_cons.mp h with rfl | h
      · exact List.mem_cons_self
      · exact List.mem_cons_of_mem _ (ih h)

def Alive : Label → Prop
  | .meter (.upsert k r _) => k.deletedAt r = none
  | _ => True

theorem handleEvent_alive {now : Int} {f : DeleteFaults} {e : Event} {l : Label}
    (h : handleEvent now f e = some l) : Alive l := by
  unfold handleEvent at h
  split at h
  · simp only [handleCreateOrUpdate,Option.or_eq_some_iff,Option.map_eq_some_iff] at h
    rcases h with ⟨-,-,rfl⟩ | ⟨-,⟨-,-,rfl⟩ | ⟨-,⟨-,-,rfl⟩ | ⟨-,⟨-,-,rfl⟩ | ⟨-,⟨-,-,rfl⟩ | ⟨-,-,-,rfl⟩⟩⟩⟩⟩ <;>
      trivial
  · split at h
    · simp only [handleDelete,Option.or_eq_some_iff,Option.map_eq_some_iff] at h
      rcases h with ⟨-,-,rfl⟩ | ⟨-,⟨-,-,rfl⟩ | ⟨-,-,-,rfl⟩⟩ <;> trivial
    · cases h

theorem reconcile_alive {k : Kind} {now : Int} {listed known : List k.Record} {l : Label}
    (hl : ∀ r ∈ listed, k.deletedAt r = none) (h : l ∈ reconcile k now listed known) : Alive l := by
  rcases List.mem_append.mp h with h | h
  · obtain ⟨r,hr,rfl⟩ := List.mem_map.mp h
    exact hl r (mem_latest (List.mem_of_mem_filter hr))
  · obtain ⟨r,-,rfl⟩ := List.mem_map.mp h
    trivial

end CostConsumer.Watcher
