import CostConsumer.Reconciler.Reconcile
set_option autoImplicit false

namespace CostConsumer.Reconciler
open Foundation Inventory Service Watcher Osac
open Ingest (Env)
open Metering (DeleteFaults)

variable {δ : Type}

/-- An object of which the inventory keeps a row. -/
inductive Seen where
  | resource (k : Kind) (o : Object k) : Seen
  | project (p : Named) : Seen
  | tenant (t : Named) : Seen

namespace Seen

/-- The event that reports a change of the object. -/
def event (id : String) : Seen → Event
  | resource .computeInstance ci => { id, type := eventTypeUpdated, computeInstance := some ci }
  | resource .cluster cl => { id, type := eventTypeUpdated, cluster := some cl }
  | resource .bareMetal bm => { id, type := eventTypeUpdated, bareMetalInstance := some bm }
  | project p => { id, type := eventTypeUpdated, project := some p }
  | tenant t => { id, type := eventTypeUpdated, tenant := some t }

end Seen

def watchRecord : (k : Kind) → Int → String → Object k → k.Record
  | .computeInstance, now, id, ci => computeInstanceRecord now id ci
  | .cluster, now, id, cl => clusterRecord now id cl
  | .bareMetal, now, id, bm => bareMetalInstanceRecord now id bm

@[simp] theorem id_watchRecord (k : Kind) (now : Int) (id : String) (o : Object k) :
    k.id (watchRecord k now id o) = objectID k o := by
  cases k <;> rfl

def Seen.label (now : Int) (id : String) : Seen → Label
  | .resource k o => .meter (.upsert k (watchRecord k now id o) now)
  | .project p => .meter (.upsertProject (projectRecord now p) now)
  | .tenant t => .upsertTenant (tenantRecord now t) now

theorem handleEvent_seen (seen : Seen) (now : Int) (f : DeleteFaults) (id : String) :
    handleEvent now f (seen.event id) = some (seen.label now id) := by
  cases seen with
  | resource k o => cases k <;> rfl
  | project p => rfl
  | tenant t => rfl

/-- The same JSON value: null, or an object with the same members. -/
def SameMap {β : Type} : JsonMap β → JsonMap β → Prop
  | none, none => True
  | some m, some m' => ∀ key, m.lookup key = m'.lookup key
  | none, some _ => False
  | some _, none => False

theorem sameMap_empty {β : Type} {m : JsonMap β} : SameMap (some []) m ↔ m = some [] := by
  constructor
  · intro h
    match m, h with
    | some [], _ => rfl
    | some ((key,v) :: m), h => simpa [List.lookup_cons_self] using h key
  · rintro rfl key
    rfl

def SameRow : (k : Kind) → k.Record → k.Record → Prop
  | .computeInstance, r, r' => SameMap r.labels r'.labels ∧
      r = { r' with labels := r.labels, lastEventID := r.lastEventID, lastUpdated := r.lastUpdated }
  | .cluster, r, r' => SameMap r.labels r'.labels ∧ SameMap r.nodeSets r'.nodeSets ∧
      r = { r' with
        labels := r.labels, nodeSets := r.nodeSets, lastEventID := r.lastEventID
        lastUpdated := r.lastUpdated }
  | .bareMetal, r, r' => SameMap r.labels r'.labels ∧
      r = { r' with labels := r.labels, lastEventID := r.lastEventID, lastUpdated := r.lastUpdated }

def SameProject (r r' : ProjectRecord) : Prop :=
  SameMap r.labels r'.labels ∧ r = { r' with labels := r.labels, lastUpdated := r.lastUpdated }

def SameTenant (r r' : TenantRecord) : Prop :=
  SameMap r.labels r'.labels ∧ r = { r' with labels := r.labels, lastUpdated := r.lastUpdated }

def Seen.Agree (s t : Store) : Seen → Prop
  | .resource k o => ∃ r r', (s.table k).find? (objectID k o) = some r ∧
      (t.table k).find? (objectID k o) = some r' ∧ SameRow k r r'
  | .project p => ∃ r r', s.projects.find? p.id = some r ∧ t.projects.find? p.id = some r' ∧ SameProject r r'
  | .tenant t' => ∃ r r', s.tenants.find? t'.id = some r ∧ t.tenants.find? t'.id = some r' ∧ SameTenant r r'

def metadata : (k : Kind) → Object k → Metadata
  | .computeInstance, ci => ci.metadata
  | .cluster, cl => cl.metadata
  | .bareMetal, bm => bm.metadata

/-- The object has nothing that reconciliation leaves out. -/
def Bare : (k : Kind) → Object k → Prop
  | .computeInstance, ci => ci.metadata.labels = some []
  | .cluster, cl => cl.metadata.labels = some [] ∧ cl.spec.nodeSets = some []
  | .bareMetal, bm => bm.metadata.labels = some []

def UpToDate : (k : Kind) → k.Record → Object k → Prop
  | .computeInstance, r, ci => SameMap r.labels ci.metadata.labels ∧ r.name = ci.metadata.name ∧
      r.tenant = ci.metadata.tenant ∧ r.project = "" ∧ r.clusterID = "" ∧
      r.instanceType = ci.spec.instanceType.id ∧ r.cores = ci.spec.cores.getD 0 ∧
      r.memoryGiB = ci.spec.memoryGib.getD 0 ∧ r.state = ci.status.state
  | .cluster, r, cl => SameMap r.labels cl.metadata.labels ∧
      SameMap r.nodeSets (cl.spec.nodeSets.map fun sets => sets.map fun ns => (ns.1,⟨ns.2.hostType,ns.2.size⟩)) ∧
      r.name = cl.metadata.name ∧ r.tenant = cl.metadata.tenant ∧ r.template = cl.spec.template ∧
      r.state = cl.status.state
  | .bareMetal, r, bm => SameMap r.labels bm.metadata.labels ∧ r.name = bm.metadata.name ∧
      r.tenant = bm.metadata.tenant ∧ r.catalogItem = bm.spec.catalogItem ∧ r.state = bm.status.state

theorem upToDate_iff {k : Kind} {r : k.Record} {o : Object k} (now : Int) (id : String)
    (hd : k.deletedAt r = none) : SameRow k r (k.merge now (watchRecord k now id o) r) ↔ UpToDate k r o := by
  cases k with
  | computeInstance =>
    obtain ⟨_,_,_,_,_,_,_,_,_,_,_,_,_,_,_⟩ := r
    change _ = none at hd
    subst hd
    simp [SameRow,UpToDate,Kind.merge,watchRecord,computeInstanceRecord]
  | cluster =>
    obtain ⟨_,_,_,_,_,_,_,_,_,_,_,_⟩ := r
    change _ = none at hd
    subst hd
    simp [SameRow,UpToDate,Kind.merge,watchRecord,clusterRecord]
  | bareMetal =>
    obtain ⟨_,_,_,_,_,_,_,_,_,_,_⟩ := r
    change _ = none at hd
    subst hd
    simp [SameRow,UpToDate,Kind.merge,watchRecord,bareMetalInstanceRecord]

theorem bare_iff {k : Kind} {o : Object k} (r : k.Record) (at_ now : Int) (id : String) :
    SameRow k (k.merge at_ (record k at_ o) r) (k.merge now (watchRecord k now id o) r) ↔ Bare k o := by
  cases k <;> simp [SameRow,Bare,Kind.merge,record,watchRecord,computeInstanceRecord,clusterRecord,
    bareMetalInstanceRecord,sameMap_empty]

theorem createdAt_eq_iff {at_ now : Int} {m : Metadata} :
    createdAt at_ m = createdAt now m ↔ m.creationTimestamp ≠ none ∨ at_ = now := by
  cases h : m.creationTimestamp <;> simp [createdAt,h]

theorem fresh_iff {k : Kind} {o : Object k} (at_ now : Int) (id : String) :
    SameRow k (k.fresh at_ (record k at_ o)) (k.fresh now (watchRecord k now id o)) ↔
      Bare k o ∧ ((metadata k o).creationTimestamp ≠ none ∨ at_ = now) := by
  rw [← createdAt_eq_iff]
  cases k <;> simp [SameRow,Bare,Kind.fresh,record,watchRecord,computeInstanceRecord,clusterRecord,
    bareMetalInstanceRecord,sameMap_empty,metadata,and_assoc]

/-- When the two ways lead to the same row: what is not alive has nothing that
reconciliation leaves out, and what is alive is up to date, for reconciliation does
not touch it. A new row has the same creation time only if the object has one, or is
handled at the same time. -/
def Seen.InStep (before : Store) (at_ now : Int) : Seen → Prop
  | .resource k o =>
    match (before.table k).find? (objectID k o) with
    | none => Bare k o ∧ ((metadata k o).creationTimestamp ≠ none ∨ at_ = now)
    | some r => if k.deletedAt r = none then UpToDate k r o else Bare k o
  | .project p => p.metadata.labels = some [] ∧
      (before.projects.find? p.id ≠ none ∨ p.metadata.creationTimestamp ≠ none ∨ at_ = now)
  | .tenant t => t.metadata.labels = some [] ∧
      (before.tenants.find? t.id ≠ none ∨ t.metadata.creationTimestamp ≠ none ∨ at_ = now)

def Round.Sees {osac : (k : Kind) → List (Object k)} (r : Round osac) (at_ : Int) : Seen → Prop
  | .resource k o => o ∈ (r.pass k).order ∧ (r.pass k).time (objectID k o) = at_
  | .project p => (at_,p) ∈ r.projects ∧ (r.projects.map (·.2.id)).Nodup
  | .tenant t => (at_,t) ∈ r.tenants ∧ (r.tenants.map (·.2.id)).Nodup

def Seen.watched (now : Int) (id : String) (s : Store) : Seen → Store
  | .resource k o => s.upsert k now (watchRecord k now id o)
  | .project p => s.upsertProject now (projectRecord now p)
  | .tenant t => s.upsertTenant now (tenantRecord now t)

theorem step_label (env : Env δ) (seen : Seen) (now : Int) (id : String) (s : Metering.State) :
    ∃ u, Service.step env s (seen.label now id) = some u ∧ u.store = seen.watched now id s.store := by
  cases seen <;> exact ⟨_,rfl,rfl⟩

theorem both_some_iff {β : Type} {P : β → β → Prop} {x y : Option β} {a b : β} (hx : x = some a)
    (hy : y = some b) : (∃ r r', x = some r ∧ y = some r' ∧ P r r') ↔ P a b := by
  subst hx hy
  simp

section Rows
variable {osac : (k : Kind) → List (Object k)} {round : Round osac} {before after : Store}

theorem Round.Done.row (hd : round.Done before after) {k : Kind} {o : Object k}
    (ho : o ∈ (round.pass k).order) : (after.table k).find? (objectID k o) =
      match (before.table k).find? (objectID k o) with
      | none => some ((round.pass k).upserted o none)
      | some r => if k.deletedAt r = none then some r else some ((round.pass k).upserted o (some r)) := by
  have hc := hd.pass k
  cases hf : (before.table k).find? (objectID k o) with
  | none => rw [hc.revived o ho (by simp [Store.exists_alive,hf]),hf]
  | some r =>
    have hid := (Table.find?_eq_some.mp hf).2
    by_cases hdel : k.deletedAt r = none
    · have hrow := hc.kept r (Store.mem_alive.mpr ⟨by rw [hid,hf],hdel⟩)
        ((round.pass k).listed_iff.mp ⟨o,ho,hid.symm⟩)
      simp only [hdel,if_true]
      exact Table.find?_eq_some.mpr ⟨hrow,hid⟩
    · simp only [hdel,if_false]
      rw [hc.revived o ho (by simp [Store.exists_alive,hf,hdel]),hf]

theorem Round.Done.agree_iff (hd : round.Done before after) {seen : Seen} {at_ : Int}
    (hsees : round.Sees at_ seen) (now : Int) (id : String) :
    seen.Agree after (seen.watched now id before) ↔ seen.InStep before at_ now := by
  cases seen with
  | resource k o =>
    obtain ⟨ho,rfl⟩ := hsees
    have hrow := hd.row ho
    have hwatched := before.find?_upsert k now (watchRecord k now id o) (objectID k o)
    rw [id_watchRecord,if_pos rfl] at hwatched
    cases hf : (before.table k).find? (objectID k o) with
    | none =>
      rw [hf] at hrow hwatched
      rw [Seen.InStep,hf]
      exact (both_some_iff hrow hwatched).trans (fresh_iff _ now id)
    | some r =>
      rw [hf] at hrow hwatched
      rw [Seen.InStep,hf]
      by_cases hdel : k.deletedAt r = none
      · simp only [hdel,if_true] at hrow ⊢
        exact (both_some_iff hrow hwatched).trans (upToDate_iff now id hdel)
      · simp only [hdel,if_false] at hrow ⊢
        exact (both_some_iff hrow hwatched).trans (bare_iff r _ now id)
  | project p =>
    obtain ⟨hp,hnd⟩ := hsees
    have hrow := hd.projects hnd _ hp
    have hwatched := (before.find?_upsertProject now (projectRecord now p) p.id).trans (if_pos rfl)
    refine (both_some_iff hrow hwatched).trans ?_
    rw [Seen.InStep]
    cases before.projects.find? p.id with
    | none => simp [SameProject,upsertedProject,projectRecord,sameMap_empty,createdAt_eq_iff]
    | some r => simp [SameProject,upsertedProject,projectRecord,sameMap_empty]
  | tenant t =>
    obtain ⟨ht,hnd⟩ := hsees
    have hrow := hd.tenants hnd _ ht
    have hwatched := (before.find?_upsertTenant now (tenantRecord now t) t.id).trans (if_pos rfl)
    refine (both_some_iff hrow hwatched).trans ?_
    rw [Seen.InStep]
    cases before.tenants.find? t.id with
    | none => simp [SameTenant,upsertedTenant,tenantRecord,sameMap_empty,createdAt_eq_iff]
    | some r => simp [SameTenant,upsertedTenant,tenantRecord,sameMap_empty]

end Rows

/-- A reconciliation and an UPDATED event of an object it sees leave the same row if
and only if the object and the inventory are in step. -/
theorem watch_and_reconciliation_agree_iff (env : Env δ) {osac : (k : Kind) → List (Object k)}
    {round : Round osac} {seen : Seen} {at_ : Int} (hsees : round.Sees at_ seen) (s : Metering.State)
    (now : Int) (f : DeleteFaults) (id : String) :
    ∃ t u, round.reconcileAll env s = some t ∧
      (handleEvent now f (seen.event id)).bind (Service.step env s) = some u ∧
      (seen.Agree t.store u.store ↔ seen.InStep s.store at_ now) := by
  obtain ⟨t,ht,hd⟩ := round.done env s
  obtain ⟨u,hu,hstore⟩ := step_label env seen now id s
  refine ⟨t,u,ht,by rw [handleEvent_seen,Option.bind_some,hu],?_⟩
  rw [hstore]
  exact hd.agree_iff hsees now id

def Round.only (k : Kind) (o : Object k) (at_ : Int) :
    Round (fun k' => if h : k' = k then [h ▸ o] else []) where
  projects := []
  tenants := []
  instanceTypes := []
  pass k' := .atOnce k' _ at_

theorem only_sees (k : Kind) (o : Object k) (at_ : Int) : (Round.only k o at_).Sees at_ (.resource k o) := by
  simp [Round.Sees,Round.only,Pass.atOnce,latest]

def Round.onlyProject (p : Named) (at_ : Int) : Round (fun _ => []) where
  projects := [(at_,p)]
  tenants := []
  instanceTypes := []
  pass k := .atOnce k [] at_

theorem onlyProject_sees (p : Named) (at_ : Int) : (Round.onlyProject p at_).Sees at_ (.project p) :=
  ⟨List.mem_cons_self,List.nodup_singleton _⟩

def instanceIn (state : String) (labels : Option (List (String × String))) : ComputeInstance :=
  ⟨"vm-1",{ tenant := "acme", labels },{},⟨state⟩⟩

def runningWith : Option (List (String × String)) → ComputeInstance :=
  instanceIn "COMPUTE_INSTANCE_STATE_RUNNING"

def starting : Metering.State where
  store := ({} : Store).upsert .computeInstance 0
    (computeInstanceRecord 0 "e-0" (instanceIn "COMPUTE_INSTANCE_STATE_STARTING" (some [])))
  nextID := 1
  projectCache := fun _ => none
  phase := .idle

def unknown : Metering.State := ⟨{},1,fun _ => none,.idle⟩

/-- An instance with an empty map of labels that is not known yet, handled at the same time. -/
theorem new_instance_agrees : ∃ t u,
    (Round.only .computeInstance (runningWith (some [])) 5).reconcileAll sampleEnv unknown = some t ∧
    (handleEvent 5 {} ((Seen.resource .computeInstance (runningWith (some []))).event "e-1")).bind
      (Service.step sampleEnv unknown) = some u ∧
    (Seen.resource .computeInstance (runningWith (some []))).Agree t.store u.store := by
  obtain ⟨t,u,ht,hu,hiff⟩ := watch_and_reconciliation_agree_iff sampleEnv
    (only_sees .computeInstance (runningWith (some [])) 5) unknown 5 {} "e-1"
  exact ⟨t,u,ht,hu,hiff.mpr ⟨rfl,.inr rfl⟩⟩

/-- A reconciliation and an event, both at the same time, that leave different rows. -/
def Disagrees (seen : Seen) (before : Metering.State) : Prop :=
  ∃ (osac : (k : Kind) → List (Object k)) (round : Round osac) (t u : Metering.State),
    round.Sees 5 seen ∧ round.reconcileAll sampleEnv before = some t ∧
    (handleEvent 5 {} (seen.event "e-1")).bind (Service.step sampleEnv before) = some u ∧
    ¬ seen.Agree t.store u.store

theorem disagrees_of_not_inStep {osac : (k : Kind) → List (Object k)} {round : Round osac} {seen : Seen}
    {before : Metering.State} (hsees : round.Sees 5 seen) (hno : ¬ seen.InStep before.store 5 5) :
    Disagrees seen before := by
  obtain ⟨t,ht,hd⟩ := round.done sampleEnv before
  obtain ⟨u,hu,hstore⟩ := step_label sampleEnv seen 5 "e-1" before
  refine ⟨osac,round,t,u,hsees,ht,by rw [handleEvent_seen,Option.bind_some,hu],fun h => hno ?_⟩
  rw [hstore] at h
  exact (hd.agree_iff hsees 5 "e-1").mp h

/-- A state that has changed is not repaired, labels and node sets of what is new are
left out, the labels of a project are lost, and where there is no map the column is an empty
object instead of null. -/
theorem reconciliation_differs :
    Disagrees (.resource .computeInstance (runningWith (some []))) starting ∧
    Disagrees (.resource .computeInstance (runningWith (some [("env","prod")]))) unknown ∧
    Disagrees (.resource .cluster ⟨"cl-1",{},{ nodeSets := some [("workers",⟨"large",3⟩)] },
      { state := "CLUSTER_STATE_READY" }⟩) unknown ∧
    Disagrees (.project ⟨"p-1",{ labels := some [("env","prod")] }⟩) unknown ∧
    Disagrees (.resource .computeInstance (runningWith none)) unknown := by
  refine ⟨disagrees_of_not_inStep (only_sees _ _ _) fun h => ?_,
    disagrees_of_not_inStep (only_sees _ _ _) fun h => ?_,
    disagrees_of_not_inStep (only_sees _ _ _) fun h => ?_,
    disagrees_of_not_inStep (onlyProject_sees _ _) fun h => ?_,
    disagrees_of_not_inStep (only_sees _ _ _) fun h => ?_⟩
  · obtain ⟨-,-,-,-,-,-,-,-,hstate⟩ := h
    exact absurd hstate (by decide)
  · exact List.cons_ne_nil _ _ (Option.some.inj h.1)
  · exact List.cons_ne_nil _ _ (Option.some.inj h.1.2)
  · exact List.cons_ne_nil _ _ (Option.some.inj h.1)
  · exact absurd h.1 (Option.some_ne_none _).symm

end CostConsumer.Reconciler
