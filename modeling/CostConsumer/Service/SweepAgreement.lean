import CostConsumer.Service.Frame
import CostConsumer.Service.Inference
set_option autoImplicit false

namespace CostConsumer.Service
open Inventory Foundation Metering Ingest Resource

variable {δ : Type}

/-- The columns of `metering_entries` that say what is billed to whom. -/
structure Columns where
  tenantID : String
  projectID : String
  instanceType : String
  meterName : String
  value : Rat
  unit : String
  periodStart : Int
  periodEnd : Int
  deriving DecidableEq, Repr

def columns (e : MeteringEntry) : Columns :=
  ⟨e.tenantID,e.projectID,e.instanceType,e.meterName,e.value,e.unit,e.periodStart,e.periodEnd⟩

def unattributed (e : MeteringEntry) : Columns := { columns e with projectID := "" }

/-- The heartbeat is one for the row's next interval, and counts what the row's cores
and memory come to. -/
structure Implied (r : ComputeInstanceRecord) (stop : Int) (ce : CloudEvent)
    (data : ComputeInstanceEventData) : Prop where
  instanceID : data.instanceID = r.instanceID
  tenant : data.tenantID = r.tenant
  billable : data.state ∈ billableStates .computeInstance
  time : ce.time = stop
  duration : data.durationSeconds = GoTime.seconds (GoTime.sub stop (periodStart .computeInstance r))
  start : startOf ce data.durationSeconds = periodStart .computeInstance r
  cores : (data.cpuCoreSeconds : Rat) = r.cores*data.durationSeconds
  memory : (data.memoryGiBSeconds : Rat) = r.memoryGiB*data.durationSeconds

/-- Any inventory, and a process that has just been started. -/
def booted (s : Metering.State) : Prop := Fresh s ∧ s.projectCache = fun _ => none

section Projects
variable {cache : ProjectCache}

def Attributed (cache : ProjectCache) : Prop := ∀ tenantID, cache tenantID ≠ some ""

theorem attributed_none : Attributed fun _ => none := by
  intro tenantID h
  cases h

theorem Attributed.update (h : Attributed cache) (tenantID : String) {project : Option String}
    (hp : project ≠ some "") : Attributed (Function.update cache tenantID project) := by
  intro tenantID'
  rw [Function.update_apply]
  split
  · exact hp
  · exact h tenantID'

theorem defaultProjectForTenant_ne (s : Store) (failed : Bool) (tenantID : String) (h : Attributed cache) :
    (defaultProjectForTenant s failed cache tenantID).1 ≠ "" ∧
      Attributed (defaultProjectForTenant s failed cache tenantID).2 := by
  have hdefault : "default" ≠ "" := by decide
  unfold defaultProjectForTenant
  split
  · exact ⟨hdefault,h⟩
  · split
    · rename_i projectID hc
      exact ⟨fun he => h tenantID (he ▸ hc),h⟩
    · have hfound (found : String) : (if found = "" then "default" else found) ≠ "" := by
        split
        · exact hdefault
        · assumption
      exact ⟨hfound _,h.update tenantID fun he => hfound _ (Option.some.inj he)⟩

theorem resolveProject_ne (s : Store) (failed : Bool) (project tenantID : String) (h : Attributed cache) :
    (resolveProject s failed cache project tenantID).1 ≠ "" ∧
      Attributed (resolveProject s failed cache project tenantID).2 := by
  unfold resolveProject
  split
  · rename_i hp
    exact ⟨hp,h⟩
  · exact defaultProjectForTenant_ne s failed tenantID h

end Projects

section Cache
variable {env : Env δ} {s t : Metering.State}

theorem entriesUntil_cache {k : Kind} (r : k.Record) (types : InstanceTypes) (failed : Bool) (stop : Int)
    (h : Attributed s.projectCache) : Attributed (s.entriesUntil k r types failed stop).2 :=
  (resolveProject_ne s.store failed _ _ h).2

theorem insertBatch_cache (failed : Bool) (batch : List MeteringEntry × ProjectCache) :
    (s.insertBatch failed batch).1.projectCache = batch.2 := by
  rcases insertBatch_cases s failed batch with hb | hb <;> rw [hb]

theorem handleDelete_cache (k : Kind) (id : String) (deletedAt : Int) (eventID : String) (now : Int)
    (f : DeleteFaults) (h : Attributed s.projectCache) :
    Attributed (s.handleDelete k id deletedAt eventID now f).projectCache := by
  have hfinal : Attributed (s.meterFinal k id deletedAt f).projectCache := by
    unfold State.meterFinal
    split
    · exact h
    · split
      · exact h
      · split
        · exact h
        · rw [insertBatch_cache]
          exact entriesUntil_cache _ _ _ _ h
  unfold State.handleDelete
  dsimp only
  split
  · exact hfinal
  · exact hfinal

theorem meter_cache {l : Metering.Label} (h : Attributed s.projectCache) (hm : Metering.Moves s l t) :
    Attributed t.projectCache := by
  cases hm with
  | upsertProject r now => exact h.update r.tenant (by simp)
  | @meterFails k now types r todo f hp hn => exact entriesUntil_cache r types f.project now h
  | @meter k now types r todo f hp hn => exact entriesUntil_cache r types f.project now h
  | delete k id deletedAt eventID now f => exact handleDelete_cache k id deletedAt eventID now f h
  | restart => exact attributed_none
  | _ => exact h

theorem runCalls_cache {now : Int} {calls : List Call} {ws : List (Write Unit)}
    (h : Attributed s.projectCache) (hr : runCalls now s calls = .ok (t,ws)) : Attributed t.projectCache := by
  induction calls generalizing s ws with
  | nil =>
    cases hr
    exact h
  | cons c calls ih =>
    obtain ⟨w,rest,-,-,hr⟩ := runCalls_first hr
    refine ih ?_ hr
    cases c with
    | meterForTenant tenantID entries => exact (resolveProject_ne s.store false "" tenantID h).2
    | _ => exact h

theorem booted_attributed (h : Reachable (step env) booted anyStep s) :
    Fresh s ∧ Attributed s.projectCache := by
  refine h.invariant (P := fun s => Fresh s ∧ Attributed s.projectCache) ?_ ?_
  · rintro s ⟨hf,hc⟩
    exact ⟨hf,hc ▸ attributed_none⟩
  · rintro s l t ⟨hf,hc⟩ - hst
    refine ⟨(step_view env hf hst).1,?_⟩
    cases step_moves hst with
    | meter hm => exact meter_cache hc (Metering.step_moves hm)
    | upsertTenant r now => exact hc
    | reconciled k id now => exact hc
    | event ha hr => exact runCalls_cache hc hr

end Cache

section Entries
variable {s t : Metering.State} {now : Int}

theorem added_map {β : Type} {f : MeteringEntry → β} (hf : ∀ e n, f { e with id := n } = f e)
    {es : List MeteringEntry} (h : t.store.entries = s.store.entries ++
      es.mapIdx (fun i e => (Store.meteringRow (s.nextID+i) e).toMeteringEntry)) :
    (added s t).map f = es.map fun e => f { e with value := Numeric.stored 6 e.value } := by
  rw [added,h,List.drop_left,map_rows hf]

theorem heartbeat_entries {record : ComputeInstanceRecord} {es : List MeteringEntry} {time : Int}
    {ws : List (Write Unit)} (hf : Fresh s)
    (hr : runCalls now s [.upsert .computeInstance record,.insertMetering es,
      .updateLastMetered .computeInstance record.instanceID time] = .ok (t,ws)) :
    t.store.entries = s.store.entries ++
      es.mapIdx (fun i e => (Store.meteringRow (s.nextID+i) e).toMeteringEntry) := by
  obtain ⟨rest,hr⟩ := runCalls_upsert hr
  have hrow : (((s.store.upsert .computeInstance now record).table .computeInstance).find?
      record.instanceID).isSome := by
    rw [Store.find?_upsert]
    exact congrArg Option.isSome (if_pos rfl)
  rw [runCalls_metered hrow hr,Store.updateLastMetered,Store.entries_setTable,
    (Store.entries_addMetering es (by simpa [Store.upsert] using hf.ids)).1,Store.upsert,
    Store.entries_setTable]

theorem sweep_entries {f : MeterFaults} {k : Kind} {stop : Int} {types : InstanceTypes} {r : k.Record}
    {todo : List k.Record} (hf : Fresh s) (hp : s.phase = .pass k stop types (r :: todo))
    (hst : Metering.step s (.meter f) = some t) (hstored : t.phase = .stored k stop types r todo true) :
    t.store.entries = s.store.entries ++ (s.entriesUntil k r types f.project stop).1.mapIdx
      (fun i e => (Store.meteringRow (s.nextID+i) e).toMeteringEntry) := by
  cases Metering.step_moves hst with
  | skip f hp' hn =>
    cases hp.symm.trans hp'
    cases todo with
    | nil => cases k <;> cases hstored
    | cons r' todo => cases hstored
  | meterFails f hp' hn => cases hstored
  | meter f hp' hn =>
    cases hp.symm.trans hp'
    exact (Store.entries_addMetering _ hf.ids).1

theorem implied_iff {r : ComputeInstanceRecord} {stop : Int} {ce : CloudEvent}
    {data : ComputeInstanceEventData} (h : Implied r stop ce data) (types : InstanceTypes) (projectID : String) :
    (heartbeatEntries ce data).map (fun e => unattributed { e with value := Numeric.stored 6 e.value }) =
        (computeInstanceMeters r types projectID
          (GoTime.seconds (GoTime.sub stop (periodStart .computeInstance r))) (periodStart .computeInstance r)
          stop).map (fun e => unattributed { e with value := Numeric.stored 6 e.value }) ↔
      r.instanceType = "" := by
  rw [← h.duration]
  constructor
  · intro heq
    have hhead := congrArg (fun es => (es.map Columns.instanceType).head?) heq
    exact (Option.some.inj hhead).symm
  · intro hi
    have hsizes : sizes r types = (r.cores,r.memoryGiB) := by simp [sizes,hi]
    simp [heartbeatEntries,computeInstanceMeters,hsizes,unattributed,columns,newEntry,hi,h.tenant,h.time,
      h.start,h.cores,h.memory]

end Entries

/-- A heartbeat never stores what a sweep stores for the same interval of the row: its
entries have no project. Apart from this they are the same if and only if the row has
no instance type. -/
theorem heartbeat_never_matches_sweep {env : Env δ} {u t₁ t₂ : Metering.State}
    (h : Reachable (step env) booted anyStep u) {r : ComputeInstanceRecord} {todo : List ComputeInstanceRecord}
    {stop : Int} {types : InstanceTypes} {f : MeterFaults}
    (hp : u.phase = .pass .computeInstance stop types (r :: todo))
    (hsweep : step env u (.meter (.meter f)) = some t₂)
    (hstored : t₂.phase = .stored .computeInstance stop types r todo true) {ce : CloudEvent} {now : Int}
    {data : ComputeInstanceEventData} (ht : ce.type = eventTypeComputeInstance)
    (hdata : env.decoder.computeInstance ce.data = some data) (himplied : Implied r stop ce data)
    (hbeat : step env u (.event ce now) = some t₁) :
    (added u t₁).map columns ≠ (added u t₂).map columns ∧
      ((added u t₁).map unattributed = (added u t₂).map unattributed ↔ r.instanceType = "") := by
  obtain ⟨hf,hc⟩ := booted_attributed h
  obtain ⟨calls,ws,hh,hr⟩ := event_runs hbeat
  rcases computeInstance_calls ht hdata hh with ⟨hno,-⟩ | ⟨-,rfl⟩
  · exact absurd himplied.billable hno
  have hbeats := heartbeat_entries hf hr
  have hsweeps := sweep_entries hf hp hsweep hstored
  constructor
  · intro heq
    rw [added_map (fun _ _ => rfl) hbeats,added_map (fun _ _ => rfl) hsweeps] at heq
    have hhead := congrArg (fun es => (es.map Columns.projectID).head?) heq
    exact (resolveProject_ne u.store f.project r.project r.tenant hc).1 (Option.some.inj hhead).symm
  · rw [added_map (fun _ _ => rfl) hbeats,added_map (fun _ _ => rfl) hsweeps]
    exact implied_iff himplied types _

def typedInstance (instanceType : String) : ComputeInstanceRecord :=
  { namedInstance "" with instanceType }

def listed (instanceType : String) : Metering.State :=
  (holding .computeInstance (typedInstance instanceType)).goto
    (.pass .computeInstance (minutes 1) (some .empty) [typedInstance instanceType])

def minuteBeat : CloudEvent := sampleEvent eventTypeComputeInstance "vm" (minutes 1)

def minuteData : ComputeInstanceEventData := ⟨60,120,240,"acme","vm-1","COMPUTE_INSTANCE_STATE_RUNNING",2,4⟩

theorem listed_reachable (instanceType : String) :
    Reachable (step sampleEnv) booted anyStep (listed instanceType) := by
  have hb : booted (holding .computeInstance (typedInstance instanceType)) := by
    refine ⟨⟨fun row hr => ?_,trivial⟩,rfl⟩
    cases hr
  exact .append (.start hb) (show runLabels (step sampleEnv) _
    [.meter (.sweep (minutes 1)),.meter (.list false false)] = some (listed instanceType) from rfl)

theorem minute_implied (instanceType : String) :
    Implied (typedInstance instanceType) (minutes 1) minuteBeat minuteData := by
  refine ⟨rfl,rfl,by decide,rfl,?_,?_,?_,?_⟩
  · change (60 : Rat) = GoTime.seconds (GoTime.sub (minutes 1) 0)
    decide +kernel
  · change startOf minuteBeat 60 = 0
    decide +kernel
  · change ((120 : Int) : Rat) = (2 : Int)*60
    decide +kernel
  · change ((240 : Int) : Rat) = (4 : Int)*60
    decide +kernel

theorem minute_matches_but_project :
    ∃ t₁ t₂, step sampleEnv (listed "") (.event minuteBeat (minutes 1)) = some t₁ ∧
      step sampleEnv (listed "") (.meter (.meter {})) = some t₂ ∧
      (added (listed "") t₁).map columns ≠ (added (listed "") t₂).map columns ∧
      (added (listed "") t₁).map unattributed = (added (listed "") t₂).map unattributed := by
  obtain ⟨t₁,ht₁⟩ := Option.isSome_iff_exists.mp (show (step sampleEnv (listed "")
    (.event minuteBeat (minutes 1))).isSome by decide +kernel)
  obtain ⟨t₂,ht₂⟩ := Option.isSome_iff_exists.mp (show (step sampleEnv (listed "")
    (.meter (.meter {}))).isSome by decide +kernel)
  have hok : ((listed "").insertBatch false ((listed "").entriesUntil .computeInstance (typedInstance "")
      (some .empty) false (minutes 1))).2 = true := by decide +kernel
  have hphase : (listed "").phase = .pass .computeInstance (minutes 1) (some .empty) [typedInstance ""] := rfl
  have hstart : periodStart .computeInstance (typedInstance "") < minutes 1 := by decide
  have hstored := (step_meter (f := {}) hphase hstart ht₂).trans (congrArg _ hok)
  obtain ⟨hne,hiff⟩ := heartbeat_never_matches_sweep (listed_reachable "") hphase ht₂ hstored rfl rfl
    (minute_implied "") ht₁
  exact ⟨t₁,t₂,ht₁,ht₂,hne,hiff.mpr rfl⟩

/-- What a step stores, as far as the two ways differ. -/
def attribution (u : Metering.State) (l : Label) : Option (List (String × String × String × Rat)) :=
  (step sampleEnv u l).map fun t =>
    (added u t).map fun e => (e.projectID,e.instanceType,e.meterName,e.value)

/-- The minute of an instance with a type, metered by a heartbeat and by a sweep. -/
theorem heartbeat_lacks_project :
    Reachable (step sampleEnv) booted anyStep (listed "small") ∧
      Implied (typedInstance "small") (minutes 1) minuteBeat minuteData ∧
      attribution (listed "small") (.event minuteBeat (minutes 1)) = some
        [("","","vm_uptime_seconds",60),("","","vm_cpu_core_seconds",120),("","","vm_memory_gib_seconds",240)] ∧
      attribution (listed "small") (.meter (.meter {})) = some
        [("default","small","vm_uptime_seconds",60),("default","small","vm_cpu_core_seconds",120),
          ("default","small","vm_memory_gib_seconds",240)] :=
  ⟨listed_reachable "small",minute_implied "small",by decide +kernel,by decide +kernel⟩

end CostConsumer.Service
