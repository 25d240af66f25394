import CostConsumer.Inventory.Store
set_option autoImplicit false

namespace CostConsumer.Inventory
open Foundation

inductive Kind where
  | computeInstance : Kind
  | cluster : Kind
  | bareMetal : Kind
  deriving DecidableEq, Repr

abbrev Kind.Record : Kind → Type
  | .computeInstance => ComputeInstanceRecord
  | .cluster => ClusterRecord
  | .bareMetal => BareMetalInstanceRecord

namespace Kind

def id : (k : Kind) → k.Record → String
  | .computeInstance, r => r.instanceID
  | .cluster, r => r.clusterID
  | .bareMetal, r => r.instanceID

def tenant : (k : Kind) → k.Record → String
  | .computeInstance, r => r.tenant
  | .cluster, r => r.tenant
  | .bareMetal, r => r.tenant

def project : (k : Kind) → k.Record → String
  | .computeInstance, r => r.project
  | .cluster, _ => ""
  | .bareMetal, _ => ""

def state : (k : Kind) → k.Record → String
  | .computeInstance, r => r.state
  | .cluster, r => r.state
  | .bareMetal, r => r.state

def createdAt : (k : Kind) → k.Record → Int
  | .computeInstance, r => r.createdAt
  | .cluster, r => r.createdAt
  | .bareMetal, r => r.createdAt

def deletedAt : (k : Kind) → k.Record → Option Int
  | .computeInstance, r => r.deletedAt
  | .cluster, r => r.deletedAt
  | .bareMetal, r => r.deletedAt

def lastMeteredAt : (k : Kind) → k.Record → Option Int
  | .computeInstance, r => r.lastMeteredAt
  | .cluster, r => r.lastMeteredAt
  | .bareMetal, r => r.lastMeteredAt

def fresh : (k : Kind) → Int → k.Record → k.Record
  | .computeInstance, now, r => { r with lastUpdated := now, lastMeteredAt := none }
  | .cluster, now, r => { r with lastUpdated := now, lastMeteredAt := none }
  | .bareMetal, now, r => { r with lastUpdated := now, lastMeteredAt := none }

/-- What an upsert makes of the row that is there: the creation time and the
metering checkpoint are kept. -/
def merge : (k : Kind) → Int → k.Record → k.Record → k.Record
  | .computeInstance, now, r, old =>
    { r with
      instanceID := old.instanceID
      createdAt := old.createdAt
      lastUpdated := now
      lastMeteredAt := old.lastMeteredAt }
  | .cluster, now, r, old =>
    { r with
      clusterID := old.clusterID
      createdAt := old.createdAt
      lastUpdated := now
      lastMeteredAt := old.lastMeteredAt }
  | .bareMetal, now, r, old =>
    { r with
      instanceID := old.instanceID
      createdAt := old.createdAt
      lastUpdated := now
      lastMeteredAt := old.lastMeteredAt }

def setMetered : (k : Kind) → Int → k.Record → k.Record
  | .computeInstance, t, r => { r with lastMeteredAt := some t }
  | .cluster, t, r => { r with lastMeteredAt := some t }
  | .bareMetal, t, r => { r with lastMeteredAt := some t }

def setDeleted : (k : Kind) → Int → String → Int → k.Record → k.Record
  | .computeInstance, t, eventID, now, r =>
    { r with deletedAt := some t, lastEventID := eventID, lastUpdated := now }
  | .cluster, t, eventID, now, r =>
    { r with deletedAt := some t, lastEventID := eventID, lastUpdated := now }
  | .bareMetal, t, eventID, now, r =>
    { r with deletedAt := some t, lastEventID := eventID, lastUpdated := now }

/-- The states in the `WHERE` clause of the sweep's query. -/
def billedStates : Kind → List String
  | .computeInstance => ["COMPUTE_INSTANCE_STATE_RUNNING"]
  | .cluster => ["CLUSTER_STATE_READY","CLUSTER_STATE_PROGRESSING"]
  | .bareMetal => ["BARE_METAL_INSTANCE_STATE_RUNNING"]

variable (k : Kind)

@[simp] theorem id_fresh (now : Int) (r : k.Record) : k.id (k.fresh now r) = k.id r := by
  cases k <;> rfl

@[simp] theorem createdAt_fresh (now : Int) (r : k.Record) :
    k.createdAt (k.fresh now r) = k.createdAt r := by
  cases k <;> rfl

@[simp] theorem lastMeteredAt_fresh (now : Int) (r : k.Record) :
    k.lastMeteredAt (k.fresh now r) = none := by
  cases k <;> rfl

@[simp] theorem id_merge (now : Int) (r old : k.Record) : k.id (k.merge now r old) = k.id old := by
  cases k <;> rfl

@[simp] theorem createdAt_merge (now : Int) (r old : k.Record) :
    k.createdAt (k.merge now r old) = k.createdAt old := by
  cases k <;> rfl

@[simp] theorem lastMeteredAt_merge (now : Int) (r old : k.Record) :
    k.lastMeteredAt (k.merge now r old) = k.lastMeteredAt old := by
  cases k <;> rfl

@[simp] theorem id_setMetered (t : Int) (r : k.Record) : k.id (k.setMetered t r) = k.id r := by
  cases k <;> rfl

@[simp] theorem createdAt_setMetered (t : Int) (r : k.Record) :
    k.createdAt (k.setMetered t r) = k.createdAt r := by
  cases k <;> rfl

@[simp] theorem lastMeteredAt_setMetered (t : Int) (r : k.Record) :
    k.lastMeteredAt (k.setMetered t r) = some t := by
  cases k <;> rfl

@[simp] theorem id_setDeleted (t : Int) (eventID : String) (now : Int) (r : k.Record) :
    k.id (k.setDeleted t eventID now r) = k.id r := by
  cases k <;> rfl

@[simp] theorem createdAt_setDeleted (t : Int) (eventID : String) (now : Int) (r : k.Record) :
    k.createdAt (k.setDeleted t eventID now r) = k.createdAt r := by
  cases k <;> rfl

@[simp] theorem lastMeteredAt_setDeleted (t : Int) (eventID : String) (now : Int) (r : k.Record) :
    k.lastMeteredAt (k.setDeleted t eventID now r) = k.lastMeteredAt r := by
  cases k <;> rfl

@[simp] theorem deletedAt_fresh (now : Int) (r : k.Record) :
    k.deletedAt (k.fresh now r) = k.deletedAt r := by
  cases k <;> rfl

@[simp] theorem deletedAt_merge (now : Int) (r old : k.Record) :
    k.deletedAt (k.merge now r old) = k.deletedAt r := by
  cases k <;> rfl

@[simp] theorem deletedAt_setDeleted (t : Int) (eventID : String) (now : Int) (r : k.Record) :
    k.deletedAt (k.setDeleted t eventID now r) = some t := by
  cases k <;> rfl

end Kind

namespace Store

def table (s : Store) : (k : Kind) → Table String k.Record k.id
  | .computeInstance => s.computeInstances
  | .cluster => s.clusters
  | .bareMetal => s.bareMetalInstances

def setTable (s : Store) : (k : Kind) → Table String k.Record k.id → Store
  | .computeInstance, t => { s with computeInstances := t }
  | .cluster, t => { s with clusters := t }
  | .bareMetal, t => { s with bareMetalInstances := t }

variable (s : Store) (k : Kind)

@[simp] theorem table_setTable (t : Table String k.Record k.id) : (s.setTable k t).table k = t := by
  cases k <;> rfl

theorem table_setTable_of_ne {k k' : Kind} (h : k' ≠ k) (t : Table String k.Record k.id) :
    (s.setTable k t).table k' = s.table k' := by
  cases k <;> cases k' <;> first | rfl | exact absurd rfl h

@[simp] theorem meteringEntries_setTable (t : Table String k.Record k.id) :
    (s.setTable k t).meteringEntries = s.meteringEntries := by
  cases k <;> rfl

@[simp] theorem entries_setTable (t : Table String k.Record k.id) :
    (s.setTable k t).entries = s.entries := by
  cases k <;> rfl

def upsert (now : Int) (r : k.Record) : Store :=
  s.setTable k ((s.table k).upsert (k.fresh now r) (k.merge now r) (k.id_merge now r))

def updateLastMetered (id : String) (t : Int) : Store :=
  s.setTable k ((s.table k).update (fun r => if k.id r = id then k.setMetered t r else r)
    (fun r => by split <;> simp))

def markDeleted (id : String) (t : Int) (eventID : String) (now : Int) : Store :=
  s.setTable k ((s.table k).update
    (fun r => if k.id r = id ∧ k.deletedAt r = none then k.setDeleted t eventID now r else r)
    (fun r => by split <;> simp))

theorem find?_upsert (now : Int) (r : k.Record) (id : String) :
    ((s.upsert k now r).table k).find? id = if k.id r = id then
      some (((s.table k).find? id).elim (k.fresh now r) (k.merge now r)) else (s.table k).find? id := by
  rw [upsert,table_setTable,Table.find?_upsert,k.id_fresh]

theorem table_upsert_of_ne {k k' : Kind} (h : k' ≠ k) (now : Int) (r : k.Record) :
    (s.upsert k now r).table k' = s.table k' := table_setTable_of_ne s h _

theorem find?_markDeleted (id : String) (t : Int) (eventID : String) (now : Int) (id' : String) :
    ((s.markDeleted k id t eventID now).table k).find? id' = ((s.table k).find? id').map
      fun r => if k.id r = id ∧ k.deletedAt r = none then k.setDeleted t eventID now r else r := by
  rw [markDeleted,table_setTable,Table.find?_update]

theorem find?_updateLastMetered (id : String) (t : Int) (id' : String) :
    ((s.updateLastMetered k id t).table k).find? id' = ((s.table k).find? id').map
      fun r => if k.id r = id then k.setMetered t r else r := by
  rw [updateLastMetered,table_setTable,Table.find?_update]

def alive : List k.Record := (s.table k).rows.filter fun r => (k.deletedAt r).isNone

def listAliveComputeInstances : List ComputeInstanceRecord := s.alive .computeInstance
def listAliveClusters : List ClusterRecord := s.alive .cluster
def listAliveBareMetalInstances : List BareMetalInstanceRecord := s.alive .bareMetal

theorem mem_alive {s : Store} {k : Kind} {r : k.Record} :
    r ∈ s.alive k ↔ (s.table k).find? (k.id r) = some r ∧ k.deletedAt r = none := by
  simp [alive,Table.find?_eq_some]

theorem exists_alive {s : Store} {k : Kind} {id : String} :
    (∃ r ∈ s.alive k, k.id r = id) ↔ ∃ r, (s.table k).find? id = some r ∧ k.deletedAt r = none := by
  constructor
  · rintro ⟨r,hr,rfl⟩
    exact ⟨r,mem_alive.mp hr⟩
  · rintro ⟨r,hf,hd⟩
    have hid := (Table.find?_eq_some.mp hf).2
    exact ⟨r,mem_alive.mpr ⟨by rw [hid,hf],hd⟩,hid⟩

def billable : List k.Record :=
  (s.table k).rows.filter (fun r => (k.deletedAt r).isNone && (k.state r ∈ k.billedStates))

def upsertComputeInstance (now : Int) (r : ComputeInstanceRecord) : Store :=
  s.upsert .computeInstance now r
def upsertCluster (now : Int) (r : ClusterRecord) : Store := s.upsert .cluster now r
def upsertBareMetalInstance (now : Int) (r : BareMetalInstanceRecord) : Store :=
  s.upsert .bareMetal now r

def updateComputeInstanceLastMetered (id : String) (t : Int) : Store :=
  s.updateLastMetered .computeInstance id t
def updateClusterLastMetered (id : String) (t : Int) : Store := s.updateLastMetered .cluster id t
def updateBareMetalInstanceLastMetered (id : String) (t : Int) : Store :=
  s.updateLastMetered .bareMetal id t

def markComputeInstanceDeleted := s.markDeleted .computeInstance
def markClusterDeleted := s.markDeleted .cluster
def markBareMetalInstanceDeleted := s.markDeleted .bareMetal

def billableComputeInstances : List ComputeInstanceRecord := s.billable .computeInstance
def billableClusters : List ClusterRecord := s.billable .cluster
def billableBareMetalInstances : List BareMetalInstanceRecord := s.billable .bareMetal

def upsertModel (now : Int) (r : ModelRecord) : Store :=
  { s with
    models := s.models.upsert { r with lastUpdated := now }
      (fun old => { r with modelID := old.modelID, createdAt := old.createdAt, lastUpdated := now })
      (fun _ => rfl) }

def upsertInstanceType (now : Int) (r : InstanceTypeRecord) : Store :=
  { s with
    instanceTypes := s.instanceTypes.upsert { r with lastUpdated := now }
      (fun old => { r with instanceTypeID := old.instanceTypeID, lastUpdated := now })
      (fun _ => rfl) }

def upsertProject (now : Int) (r : ProjectRecord) : Store :=
  { s with
    projects := s.projects.upsert { r with lastUpdated := now }
      (fun old =>
        { r with projectID := old.projectID, createdAt := old.createdAt, lastUpdated := now })
      (fun _ => rfl) }

def upsertTenant (now : Int) (r : TenantRecord) : Store :=
  { s with
    tenants := s.tenants.upsert { r with lastUpdated := now }
      (fun old => { r with tenantID := old.tenantID, createdAt := old.createdAt, lastUpdated := now })
      (fun _ => rfl) }

theorem find?_upsertProject (now : Int) (r : ProjectRecord) (id : String) :
    (s.upsertProject now r).projects.find? id = if r.projectID = id then
      some ((s.projects.find? id).elim { r with lastUpdated := now } fun old =>
        { r with projectID := old.projectID, createdAt := old.createdAt, lastUpdated := now })
      else s.projects.find? id := by
  rw [upsertProject,Table.find?_upsert]

theorem find?_upsertTenant (now : Int) (r : TenantRecord) (id : String) :
    (s.upsertTenant now r).tenants.find? id = if r.tenantID = id then
      some ((s.tenants.find? id).elim { r with lastUpdated := now } fun old =>
        { r with tenantID := old.tenantID, createdAt := old.createdAt, lastUpdated := now })
      else s.tenants.find? id := by
  rw [upsertTenant,Table.find?_upsert]

end Store

/-- Two records of one resource with the same creation and checkpoint. -/
def SameTimes (k : Kind) (a b : k.Record) : Prop :=
  k.id a = k.id b ∧ k.createdAt a = k.createdAt b ∧ k.lastMeteredAt a = k.lastMeteredAt b

theorem SameTimes.refl (k : Kind) (a : k.Record) : SameTimes k a a := ⟨rfl,rfl,rfl⟩

namespace Store

variable {s : Store} {k k' : Kind}

theorem mem_upsert {now : Int} {r : k.Record} {b : k'.Record}
    (h : b ∈ ((s.upsert k now r).table k').rows) :
    (∃ a ∈ (s.table k').rows, SameTimes k' b a) ∨
      (k = k' ∧ k.id r = k'.id b) ∧ k'.lastMeteredAt b = none ∧ k'.createdAt b = k.createdAt r ∧
        ∀ a ∈ (s.table k').rows, k'.id a ≠ k'.id b := by
  by_cases hk : k' = k
  · subst hk
    rw [upsert,table_setTable] at h
    rcases Table.mem_upsert h with h | ⟨rfl,hfresh⟩ | ⟨a,ha,-,rfl⟩
    · exact .inl ⟨b,h,.refl k' b⟩
    · exact .inr ⟨by simp,by simp,by simp,hfresh⟩
    · exact .inl ⟨a,ha,by simp [SameTimes]⟩
  · rw [upsert,table_setTable_of_ne s hk] at h
    exact .inl ⟨b,h,.refl k' b⟩

theorem upsert_keeps (now : Int) (r : k.Record) {a : k'.Record} (h : a ∈ (s.table k').rows) :
    ∃ b ∈ ((s.upsert k now r).table k').rows, SameTimes k' b a := by
  by_cases hk : k' = k
  · subst hk
    rw [upsert,table_setTable]
    rcases Table.upsert_keeps (r := k'.fresh now r) (k'.id_merge now r) h with h | h
    · exact ⟨a,h,.refl k' a⟩
    · exact ⟨_,h,by simp [SameTimes]⟩
  · rw [upsert,table_setTable_of_ne s hk]
    exact ⟨a,h,.refl k' a⟩

theorem mem_updateLastMetered {id : String} {t : Int} {b : k'.Record} :
    b ∈ ((s.updateLastMetered k id t).table k').rows ↔
      ∃ a ∈ (s.table k').rows,
        b = if k' = k ∧ k'.id a = id then k'.setMetered t a else a := by
  by_cases hk : k' = k
  · subst hk
    simp only [updateLastMetered,table_setTable,Table.update_rows,List.mem_map,true_and,eq_comm]
  · rw [updateLastMetered,table_setTable_of_ne s hk]
    simp [hk]

theorem mem_markDeleted {id : String} {t : Int} {eventID : String} {now : Int} {b : k'.Record}
    (h : b ∈ ((s.markDeleted k id t eventID now).table k').rows) :
    ∃ a ∈ (s.table k').rows, SameTimes k' b a := by
  by_cases hk : k' = k
  · subst hk
    rw [markDeleted,table_setTable,Table.update_rows] at h
    obtain ⟨a,ha,rfl⟩ := List.mem_map.mp h
    exact ⟨a,ha,by split <;> simp [SameTimes]⟩
  · rw [markDeleted,table_setTable_of_ne s hk] at h
    exact ⟨b,h,.refl k' b⟩

theorem markDeleted_eq_self {id : String}
    (h : ∀ r ∈ (s.table k).rows, k.id r = id → k.deletedAt r ≠ none) (t : Int) (eventID : String)
    (now : Int) : s.markDeleted k id t eventID now = s := by
  have hsame : (s.table k).update
      (fun r => if k.id r = id ∧ k.deletedAt r = none then k.setDeleted t eventID now r else r)
      (fun r => by split <;> simp) = s.table k := by
    apply Table.ext
    rw [Table.update_rows]
    refine (List.map_congr_left fun r hr => if_neg fun hm => ?_).trans (List.map_id _)
    exact h r hr hm.1 hm.2
  rw [markDeleted,hsame]
  cases k <;> rfl

theorem markDeleted_keeps (id : String) (t : Int) (eventID : String) (now : Int) {a : k'.Record}
    (h : a ∈ (s.table k').rows) :
    ∃ b ∈ ((s.markDeleted k id t eventID now).table k').rows, SameTimes k' b a := by
  by_cases hk : k' = k
  · subst hk
    rw [markDeleted,table_setTable,Table.update_rows]
    exact ⟨_,List.mem_map_of_mem h,by split <;> simp [SameTimes]⟩
  · rw [markDeleted,table_setTable_of_ne s hk]
    exact ⟨a,h,.refl k' a⟩

variable (s)

/-- The query takes any project of the tenant; this is the first one. -/
def projectOfTenant (tenantID : String) : Option String :=
  (s.projects.rows.find? (fun p => p.tenant = tenantID)).map (·.projectID)

end Store

end CostConsumer.Inventory
