import CostConsumer.Service.View
import CostConsumer.Watcher.Handle
set_option autoImplicit false

namespace CostConsumer.Service
open Inventory Foundation Metering Ingest Resource

variable {δ : Type}

def upsertsCall (k : Kind) (id : String) : Call → Bool
  | .upsert k' r => k' = k ∧ k'.id r = id
  | _ => false

def upserts (env : Env δ) (k : Kind) (id : String) : Label → Bool
  | .meter (.upsert k' r _) => k' = k ∧ k'.id r = id
  | .event ce now => ((accepted env now ce).getD []).any (upsertsCall k id)
  | _ => false

theorem call_upserts {c : Call} {db : Database δ} {now : Int} {n : Nat} {projectID : String}
    {w : Option (Write δ)} (hw : c.write db now n projectID = .ok w) (k : Kind) (id : String) :
    (w.toList.flatMap (effects k id)).any Effect.isUpsert = upsertsCall k id c ∧
      ∀ r, Effect.upsert r ∈ w.toList.flatMap (effects k id) →
        ∃ (k' : Kind) (record : k'.Record), c = .upsert k' record ∧ r = rowOf k' record := by
  rcases Call.write_ok hw with rfl | ⟨rfl,-,-,-,rfl,-⟩
  · rw [Option.toList_some,List.flatMap_singleton]
    cases c with
    | insertRawEvent e => exact ⟨rfl,by simp [Call.written,effects]⟩
    | upsert k' r =>
      by_cases hk : k' = k ∧ k'.id r = id
      · simp only [Call.written,effects,upsertsCall,if_pos hk,decide_eq_true hk]
        exact ⟨rfl,fun r' hr' => ⟨k',r,rfl,by simpa using hr'⟩⟩
      · simp only [Call.written,effects,upsertsCall,if_neg hk,decide_eq_false hk]
        exact ⟨rfl,by simp⟩
    | upsertModel r => exact ⟨rfl,by simp [Call.written,effects]⟩
    | updateLastMetered k' id' t =>
      by_cases hk : k' = k ∧ id' = id
      · simp only [Call.written,effects,if_pos hk]
        exact ⟨rfl,by simp⟩
      · simp only [Call.written,effects,if_neg hk]
        exact ⟨rfl,by simp⟩
    | insertMetering entries => exact ⟨rfl,by simp [Call.written,effects]⟩
    | meterForTenant tenantID entries => exact ⟨rfl,by simp [Call.written,effects]⟩
  · exact ⟨rfl,by simp⟩

theorem runCalls_upserts {now : Int} {s t : Metering.State} {calls : List Call} {ws : List (Write Unit)}
    (h : runCalls now s calls = .ok (t,ws)) (k : Kind) (id : String) :
    (ws.flatMap (effects k id)).any Effect.isUpsert = calls.any (upsertsCall k id) ∧
      ∀ r, Effect.upsert r ∈ ws.flatMap (effects k id) →
        ∃ (k' : Kind) (record : k'.Record), Call.upsert k' record ∈ calls ∧ r = rowOf k' record := by
  induction calls generalizing s ws with
  | nil =>
    cases h
    exact ⟨rfl,by simp⟩
  | cons c calls ih =>
    obtain ⟨projectID,cache,w,rest,hw,rfl,hrest⟩ := runCalls_cons h
    obtain ⟨h₁,h₂⟩ := call_upserts hw k id
    obtain ⟨h₃,h₄⟩ := ih hrest
    rw [List.flatMap_append,List.any_append,h₁,h₃,List.any_cons]
    refine ⟨rfl,fun r hr => ?_⟩
    rcases List.mem_append.mp hr with hr | hr
    · obtain ⟨k',record,rfl,he⟩ := h₂ r hr
      exact ⟨k',record,List.mem_cons_self,he⟩
    · obtain ⟨k',record,hmem,he⟩ := h₄ r hr
      exact ⟨k',record,List.mem_cons_of_mem _ hmem,he⟩

theorem label_isUpsert {env : Env δ} {s t : Metering.State} {l : Label} (h : step env s l = some t)
    (k : Kind) (id : String) : (label env k id s l).isUpsert = upserts env k id l := by
  cases step_moves h with
  | @meter l t hm =>
    cases l with
    | upsert k' r now =>
      by_cases hk : k' = k ∧ k'.id r = id
      · simp [label,effects,hk,upserts,Resource.Label.isUpsert,Effect.isUpsert]
      · simp only [label,effects,if_neg hk,upserts,decide_eq_false hk]
        rfl
    | upsertInstanceType r now => rfl
    | upsertProject r now => rfl
    | sweep now => rfl
    | list failed typesFailed =>
      simp only [label,upserts]
      split
      · split <;> rfl
      · rfl
    | meter f =>
      simp only [label,upserts]
      split
      · split <;> rfl
      · rfl
    | update failed =>
      simp only [label,upserts]
      split
      · split <;> rfl
      · rfl
    | delete k' id' d eventID now f =>
      simp only [label,upserts]
      split <;> rfl
    | restart => rfl
  | upsertTenant r now => rfl
  | reconciled k' id' now =>
    simp only [label,upserts]
    split <;> rfl
  | event ha hr =>
    simp only [label,ha,Option.map_some,hr,upserts,Option.getD_some]
    exact (runCalls_upserts hr k id).1

theorem meterMaaSEvent_upserts (usage : MaaSUsage) (k : Kind) (id : String) :
    (meterMaaSEvent usage).any (upsertsCall k id) = false := by
  unfold meterMaaSEvent
  split <;> rfl

theorem mem_upsertsCall {k : Kind} {r : k.Record} {calls : List Call} (h : .upsert k r ∈ calls) :
    calls.any (upsertsCall k (k.id r)) = true :=
  List.any_eq_true.mpr ⟨_,h,by simp [upsertsCall]⟩

theorem handle_alive {env : Env δ} {ce : CloudEvent} {calls : List Call} {k : Kind} {r : k.Record}
    (h : env.handle ce = .ok calls) (hc : .upsert k r ∈ calls) : k.deletedAt r = none := by
  cases handle_handled h with
  | computeInstance ht hdata hs hd =>
    cases (List.mem_cons.mp hc).resolve_right (by simp)
    rfl
  | osacComputeInstance hv1 hmd ht =>
    cases List.mem_singleton.mp hc
    rfl
  | osacClusterOrder hv1 hmd ht =>
    cases List.mem_singleton.mp hc
    rfl
  | model ht hdata hid htenant =>
    have hc' := (List.mem_cons.mp hc).resolve_left (by simp)
    cases (meterMaaSEvent_upserts _ k _).symm.trans (mem_upsertsCall hc')
  | osacInference hv1 hmd ht =>
    have hc' := (List.mem_cons.mp hc).resolve_left (by simp)
    cases (meterMaaSEvent_upserts _ k _).symm.trans (mem_upsertsCall hc')
  | _ => cases mem_upsertsCall hc

def entriesOf (k : Kind) (id : String) (s : Store) : List MeteringEntry :=
  s.entries.filter fun e => e.resourceType = resourceType k && e.resourceID = id

theorem sweep_spares {s t : Metering.State} {k : Kind} {id : String} {f : MeterFaults} (h : Fresh s)
    (hu : (view k id s).Unlisted) (hst : Metering.step s (.meter f) = some t) :
    entriesOf k id t.store = entriesOf k id s.store := by
  cases Metering.step_moves hst with
  | skip f hp hn => rfl
  | meterFails f hp hn => rfl
  | @meter k' now types r todo f hp hn =>
    have hne : ¬ (k' = k ∧ k'.id r = id) := fun hk => hu _ _ (listed_head k id hp hk)
    have hnone : ((s.entriesUntil k' r types f.project now).1.mapIdx (fun i e =>
        (Store.meteringRow (s.nextID+i) e).toMeteringEntry)).filter (fun e =>
          e.resourceType = resourceType k && e.resourceID = id) = [] := by
      rw [List.filter_eq_nil_iff]
      intro e he ho
      obtain ⟨i,hi,rfl⟩ := List.mem_mapIdx.mp he
      obtain ⟨htype,hid⟩ := meters_owner (List.getElem_mem hi)
      simp only [Store.meteringRow,htype,hid,Bool.and_eq_true,decide_eq_true_eq] at ho
      exact hne ⟨resourceType_injective ho.1,ho.2⟩
    rw [entriesOf,(Store.entries_addMetering _ h.ids).1,List.filter_append,hnone,List.append_nil,
      entriesOf]

/-- The steps for what reaches the service from outside: an event of the watch
stream, what reconciliation finds, an ingested event. -/
inductive Issued : Label → Prop
  | watch {now : Int} {f : DeleteFaults} {e : Osac.Event} {l : Label}
      (h : Watcher.handleEvent now f e = some l) : Issued l
  | reconcileComputeInstances {now : Int} {osac : List Osac.ComputeInstance}
      {known : List ComputeInstanceRecord} {l : Label}
      (h : l ∈ Watcher.reconcileComputeInstances now osac known) : Issued l
  | reconcileClusters {now : Int} {osac : List Osac.Cluster} {known : List ClusterRecord} {l : Label}
      (h : l ∈ Watcher.reconcileClusters now osac known) : Issued l
  | reconcileBareMetalInstances {now : Int} {osac : List Osac.BareMetalInstance}
      {known : List BareMetalInstanceRecord} {l : Label}
      (h : l ∈ Watcher.reconcileBareMetalInstances now osac known) : Issued l
  | event (ce : CloudEvent) (now : Int) : Issued (.event ce now)

theorem Issued.alive {l : Label} (h : Issued l) : Watcher.Alive l := by
  cases h with
  | watch h => exact Watcher.handleEvent_alive h
  | reconcileComputeInstances h =>
    refine Watcher.reconcile_alive (fun r hr => ?_) h
    obtain ⟨ci,-,rfl⟩ := List.mem_map.mp hr
    rfl
  | reconcileClusters h =>
    refine Watcher.reconcile_alive (fun r hr => ?_) h
    obtain ⟨cl,-,rfl⟩ := List.mem_map.mp hr
    rfl
  | reconcileBareMetalInstances h =>
    refine Watcher.reconcile_alive (fun r hr => ?_) h
    obtain ⟨bm,-,rfl⟩ := List.mem_map.mp hr
    rfl
  | event ce now => trivial

theorem upsert_revives {env : Env δ} {s t : Metering.State} {l : Label} {k : Kind} {id : String}
    (h : Fresh s) (hi : Issued l) (hu : upserts env k id l = true) (hst : step env s l = some t) :
    ∃ r, row k id t.store = some r ∧ r.deletedAt = none := by
  have ha := hi.alive
  cases step_moves hst with
  | @meter l t hm =>
    cases l with
    | upsert k' r now =>
      cases hm
      have hk : k' = k ∧ k'.id r = id := by simpa [upserts] using hu
      obtain ⟨rfl,rfl⟩ := hk
      have hv := view_upsert (δ := Unit) k' (k'.id r) s k' r now
      rw [effects,if_pos ⟨rfl,rfl⟩] at hv
      have hrow : row k' (k'.id r) (s.store.upsert k' now r) =
          some ((rowOf k' r).upserted (row k' (k'.id r) s.store)) := congrArg View.row hv
      refine ⟨_,hrow,?_⟩
      cases row k' (k'.id r) s.store with
      | none => exact ha
      | some old => exact ha
    | _ => cases hu
  | upsertTenant r now => cases hu
  | reconciled k' id' now => cases hu
  | @event ce now calls t ws hc hr =>
    simp only [upserts,hc,Option.getD_some] at hu
    obtain ⟨hany,hmem⟩ := runCalls_upserts hr k id
    have hv := (runCalls_view h hr).2 k id
    have hrow : row k id t.store =
        ((ws.flatMap (effects k id)).foldl View.apply (view k id s)).row := congrArg View.row hv
    rw [hrow]
    refine alive_of_upserts (.inl (hany.trans hu)) fun r hr => ?_
    obtain ⟨k',record,hcall,rfl⟩ := hmem r hr
    exact handle_alive (accepted_handle hc) hcall

theorem row_eq_some {k : Kind} {id : String} {s : Store} {r : Row} (h : row k id s = some r) :
    ∃ record, (s.table k).find? id = some record ∧ rowOf k record = r :=
  Option.map_eq_some_iff.mp h

theorem cluster_heartbeat_upserts (env : Env δ) (k : Kind) (id : String) {ce : CloudEvent} (now : Int)
    (h : ce.type = eventTypeCluster) : upserts env k id (.event ce now) = false := by
  rw [upserts]
  cases ha : accepted env now ce with
  | none => rfl
  | some calls =>
    have hv1 : ¬ isOSACv1 ce = true := by
      rw [isOSACv1,h]
      decide
    cases handle_handled (accepted_handle ha) with
    | computeInstance ht hdata hs hd => exact absurd (h.symm.trans ht) (by decide)
    | osacComputeInstance hv1' hmd ht => exact absurd hv1' hv1
    | osacClusterOrder hv1' hmd ht => exact absurd hv1' hv1
    | model ht hdata hid htenant => exact meterMaaSEvent_upserts _ k id
    | osacInference hv1' hmd ht => exact absurd hv1' hv1
    | _ => rfl

/-- A resource that is marked deleted stays so, with its deletion time, and no later
sweep meters it, whatever happens, until its row is upserted. A heartbeat of a
cluster never does that. Any upsert from outside takes the mark away, whatever
moment its event describes. -/
theorem deleted_until_upserted {env : Env δ} {s : Metering.State} {k : Kind} {id : String} {t : Int}
    {r : k.Record} (h : Reachable (step env) initial anyStep s)
    (hr : (s.store.table k).find? id = some r) (hd : k.deletedAt r = some t) :
    (∀ u, Reachable (step env) (· = s) (fun _ l => upserts env k id l = false) u →
      (∃ r', (u.store.table k).find? id = some r' ∧ k.deletedAt r' = some t) ∧
      ((∀ now start, stage k id s.phase ≠ .listed now start) → ∀ f u',
        step env u (.meter (.meter f)) = some u' →
          entriesOf k id u'.store = entriesOf k id u.store)) ∧
    (∀ (ce : CloudEvent) (now : Int), ce.type = eventTypeCluster →
      upserts env k id (.event ce now) = false) ∧
    ∀ l u, Issued l → upserts env k id l = true → step env s l = some u →
      ∃ r', (u.store.table k).find? id = some r' ∧ k.deletedAt r' = none := by
  have hfresh := reachable_fresh h
  refine ⟨fun u hu => ?_,fun ce now => cluster_heartbeat_upserts env k id now,?_⟩
  · have hrow : (view k id s).DeletedAt t := ⟨rowOf k r,by simp [view,row,hr],hd⟩
    -- the run from the mark on
    have hrun : Fresh u ∧ (view k id u).DeletedAt t ∧
        ((view k id s).Unlisted → (view k id u).Unlisted) := by
      refine hu.invariant (P := fun u => Fresh u ∧ (view k id u).DeletedAt t ∧
        ((view k id s).Unlisted → (view k id u).Unlisted)) ?_ ?_
      · rintro u rfl
        exact ⟨hfresh,hrow,fun hs => hs⟩
      · rintro u l v ⟨hf,hdel,hun⟩ hl hst
        obtain ⟨hf',hm⟩ := step_view env hf hst
        exact ⟨hf',hdel.moves ((label_isUpsert hst k id).trans hl) (hm k id),
          fun hs => (hun hs).moves hdel.not_alive (hm k id)⟩
    obtain ⟨hf,⟨r',hr',hd'⟩,hun⟩ := hrun
    obtain ⟨record,hrecord,rfl⟩ := row_eq_some hr'
    exact ⟨⟨record,hrecord,hd'⟩,fun hs f u' hst => sweep_spares hf (hun hs) hst⟩
  · intro l u hi hup hst
    obtain ⟨r',hr',hd'⟩ := upsert_revives hfresh hi hup hst
    obtain ⟨record,hrecord,rfl⟩ := row_eq_some hr'
    exact ⟨record,hrecord,hd'⟩

def runningVM : Osac.ComputeInstance :=
  ⟨"vm-1",{ creationTimestamp := some 0, tenant := "acme" },{},⟨"COMPUTE_INSTANCE_STATE_RUNNING"⟩⟩

def watchVM (type : String) (vm : Osac.ComputeInstance) (now : Int) : List Label :=
  (Watcher.handleEvent now {} { id := "e-1", type, computeInstance := some vm }).toList

def createdAndDeleted : List Label :=
  watchVM Osac.eventTypeCreated runningVM 0 ++
    watchVM Osac.eventTypeDeleted { runningVM with
      metadata := { runningVM.metadata with deletionTimestamp := some (minutes 60) } } (minutes 61)

theorem deleted_instance_in_run :
    ∃ s, Reachable (step sampleEnv) initial anyStep s ∧
      (∀ u, Reachable (step sampleEnv) (· = s)
          (fun _ l => upserts sampleEnv .computeInstance "vm-1" l = false) u →
        ∃ r, (u.store.table .computeInstance).find? "vm-1" = some r ∧
          r.deletedAt = some (minutes 60)) ∧
      ∀ l u, Issued l → upserts sampleEnv .computeInstance "vm-1" l = true →
        step sampleEnv s l = some u →
        ∃ r, (u.store.table .computeInstance).find? "vm-1" = some r ∧ r.deletedAt = none := by
  obtain ⟨s,hs,r,hr,hd⟩ := Reachable.exists_of_run (step sampleEnv) initial noResources createdAndDeleted
    (fun s => ∃ r, (s.store.table .computeInstance).find? "vm-1" = some r ∧ r.deletedAt = some (minutes 60))
    ⟨rfl,fun k => by cases k <;> rfl,rfl⟩ (by decide +kernel)
  obtain ⟨hstays,-,hback⟩ := deleted_until_upserted hs hr hd
  exact ⟨s,hs,fun u hu => (hstays u hu).1,hback⟩

/-- An hour after its deletion a heartbeat of the instance from before it is
ingested, or an update from before it is received: the next sweep meters it. -/
theorem stale_event_revives :
    ∃ s, Reachable (step sampleEnv) initial anyStep s ∧
      (∃ r, (s.store.table .computeInstance).find? "vm-1" = some r ∧
        r.deletedAt = some (minutes 60)) ∧
      ∀ stale ∈ [[.event (sampleEvent eventTypeComputeInstance "vm" (minutes 59)) (minutes 120)],
          watchVM Osac.eventTypeUpdated runningVM (minutes 120)],
        ∃ u, runLabels (step sampleEnv) s (stale ++ [.meter (.sweep (minutes 121)),
            .meter (.list false false),.meter (.meter {})]) = some u ∧
          (∃ r, (u.store.table .computeInstance).find? "vm-1" = some r ∧ r.deletedAt = none) ∧
          ∃ e ∈ uptime .computeInstance "vm-1" u.store, e.periodEnd = minutes 121 :=
  Reachable.exists_of_run (step sampleEnv) initial noResources createdAndDeleted _
    ⟨rfl,fun k => by cases k <;> rfl,rfl⟩ (by decide +kernel)

end CostConsumer.Service
