import CostConsumer.Service.BillableTime
set_option autoImplicit false

namespace CostConsumer.Resource
open Foundation

/-- The checkpoint a running sweep is going to set. -/
def Stage.next? : Stage → Option Int
  | .listed now start => if start < now then some now else none
  | .stored now _ => some now
  | _ => none

/-- A final metering up to a deletion time finds nothing to meter, now or after the
running sweep. -/
def Spent (states : List String) (deletion : Option Int) (v : View) : Prop :=
  ∀ r, v.row = some r → r.state ∈ states →
    ∃ d, deletion = some d ∧ d ≤ r.checkpoint ∧ ∀ now, v.stage.next? = some now → d ≤ now

def Gone (v : View) : Prop := ∀ r, v.row = some r → r.deletedAt ≠ none

section Spent
variable {states billed : List String} {deletion : Option Int} {v w : View} {l : Label}

theorem Gone.sweep (h : Gone v) (hm : Moves billed v l w) (hl : l.ofSweep = true) : Gone w := by
  cases hm with
  | @update now ok hs =>
    intro r' hr'
    obtain ⟨r,hr,rfl⟩ := Option.map_eq_some_iff.mp hr'
    exact h r hr
  | other => cases hl
  | write effects => cases hl
  | delete final marked => cases hl
  | mark u => cases hl
  | _ => exact h

theorem Spent.goto (h : Spent states deletion v) {stage : Stage}
    (hn : ∀ now, stage.next? = some now → v.stage.next? = some now) :
    Spent states deletion (v.goto stage) := by
  intro r hr hstate
  obtain ⟨d,hd,hle,hnext⟩ := h r hr hstate
  exact ⟨d,hd,hle,fun now hnow => hnext now (hn now hnow)⟩

theorem Spent.sweep (h : Spent states deletion v) (hg : Gone v) (hm : Moves billed v l w)
    (hl : l.ofSweep = true) : Spent states deletion w := by
  cases hm with
  | sweep now hs => exact h.goto (by simp [Stage.next?])
  | @list now r hs hr ha =>
    have hnone : r.deletedAt = none := by
      simp only [Row.aliveIn,Bool.and_eq_true,Option.isNone_iff_eq_none] at ha
      exact ha.1
    exact absurd hnone (hg r hr)
  | unlisted hs hr => exact h.goto (by simp [Stage.next?])
  | skip failed hs hn => exact h.goto (by simp [Stage.next?])
  | meter hs hn => exact h.goto (by simp [Stage.next?,hs,hn])
  | refused hs hn => exact h.goto (by simp [Stage.next?,hs,hn])
  | @update now ok hs =>
    intro r' hr' hstate
    obtain ⟨r,hr,rfl⟩ := Option.map_eq_some_iff.mp hr'
    obtain ⟨d,hd,hle,hnext⟩ := h r hr hstate
    refine ⟨d,hd,hnext now (by rw [hs]; rfl),fun u hu => ?_⟩
    cases hu
  | updateFails hs => exact h.goto (by simp [Stage.next?])
  | restart => exact h.goto (by simp [Stage.next?])
  | other => cases hl
  | write effects => cases hl
  | delete final marked => cases hl
  | mark u => cases hl

theorem Gone.of_marked {d : Int} (h : w.row = v.row.map (Row.marked d)) : Gone w := by
  intro r' hr'
  obtain ⟨r,-,rfl⟩ := Option.map_eq_some_iff.mp (h ▸ hr')
  exact Row.marked_deleted d r

theorem Spent.marked_iff {d : Int} (hrow : w.row = v.row.map (Row.marked d))
    (hstage : w.stage = v.stage) : Spent states deletion w ↔ Spent states deletion v := by
  constructor
  · intro h r hr hb
    have hspent := h (r.marked d) (by rw [hrow,hr,Option.map_some])
    rw [Row.marked_state,Row.marked_checkpoint,hstage] at hspent
    exact hspent hb
  · intro h r' hr' hb
    obtain ⟨r,hr,rfl⟩ := Option.map_eq_some_iff.mp (hrow ▸ hr')
    rw [Row.marked_state] at hb
    rw [Row.marked_checkpoint,hstage]
    exact h r hr hb

end Spent

end CostConsumer.Resource

namespace CostConsumer.Service
open Inventory Foundation Metering Ingest Resource

variable {δ : Type}

theorem uptime_delete_cluster (s : Metering.State) (id : String) (d : Int) (eventID : String) (now : Int) :
    uptime .cluster id (s.handleDelete .cluster id d eventID now {}).store =
      uptime .cluster id s.store := by
  simp [State.handleDelete,State.meterFinal,State.withStore,uptime,Store.markDeleted]

/-- Once a watch DELETE is handled, the uptime metered for a VM or bare metal instance
reaches from its creation to the deletion, or to the last checkpoint if that is later.
For a cluster it reaches to the last checkpoint. -/
theorem watch_delete_closes_meter (env : Env δ) {s : Metering.State} {k : Kind} {r : k.Record}
    {e : Osac.Event} {m : Osac.Metadata} {now : Int}
    (h : Reachable Metering.step initial (fun s l => exactTimes k (k.id r) s l = true) s)
    (hr : r ∈ (s.store.table k).rows) (hp : s.phase.pending k (k.id r) = none)
    (hb : k.state r ∈ billableStates k) (he : Watcher.deletion e = some (k,k.id r,m))
    (hd : k ≠ .cluster → Watcher.deletedAt now m % 1000 = 0 ∧
      Watcher.deletedAt now m - periodStart k r < exactDuration ∧
      ∀ entry ∈ (s.entriesUntil k r (some s.store.instanceTypes) false (Watcher.deletedAt now m)).1,
        Store.valueFits entry) :
    ∃ t, (Watcher.handleEvent now {} e).bind (step env s) = some t ∧
      Store.sumValues (uptime k (k.id r) t.store) =
        GoTime.seconds (if k = .cluster then periodStart k r
          else max (Watcher.deletedAt now m) (periodStart k r)) - GoTime.seconds (k.createdAt r) ∧
      ∀ e ∈ uptime k (k.id r) t.store, e.value = storedSeconds e.periodStart e.periodEnd := by
  have hx := reachable_exact h
  have hspan := reachable_tiled (fun _ _ hl => exactTimes_paired hl) h r hr rfl
  rw [hp,Option.getD_none] at hspan
  rw [Watcher.handleEvent_deletion he now {}]
  refine ⟨_,rfl,?_⟩
  by_cases hk : k = .cluster
  · subst hk
    rw [if_pos rfl,uptime_delete_cluster]
    exact ⟨sumValues_of_spans hspan hx.values,fun e he => (hx.values e he).float⟩
  · obtain ⟨hwhole,hmax,hf⟩ := hd hk
    rw [if_neg hk]
    exact sumValues_handleDelete (reachable_consistent h) hx hspan hr hk hb hwhole hmax hf e.id now

def deleteVM (deletionTimestamp : Option Int) : Osac.Event :=
  { id := "e-2", type := Osac.eventTypeDeleted,
    computeInstance := some { runningVM with
      metadata := { runningVM.metadata with deletionTimestamp } } }

/-- An instance that was swept after a minute and is deleted after another one. -/
theorem instance_meter_closed :
    ∃ s, Reachable Metering.step initial
        (fun s l => exactTimes .computeInstance "vm-1" s l = true) s ∧
      ∃ t, (Watcher.handleEvent (minutes 3) {} (deleteVM (some (minutes 2)))).bind
          (step sampleEnv s) = some t ∧
        Store.sumValues (uptime .computeInstance "vm-1" t.store) =
          GoTime.seconds (minutes 2) - GoTime.seconds 0 := by
  obtain ⟨s,hs,r,hr,hid,hpend,hlast,hcreated,hstate,hfits⟩ := Reachable.exists_of_checked Metering.step
    initial (exactTimes .computeInstance "vm-1") noResources
    [.upsert .computeInstance (Watcher.computeInstanceRecord 0 "e-1" runningVM) 0,.sweep (minutes 1),
      .list false false,.meter {},.update false,.list false false,.list false false]
    (fun s => ∃ r ∈ (s.store.table .computeInstance).rows, r.instanceID = "vm-1" ∧
      s.phase.pending .computeInstance "vm-1" = none ∧ r.lastMeteredAt = some (minutes 1) ∧
      r.createdAt = 0 ∧ r.state ∈ billableStates .computeInstance ∧
      ∀ e ∈ (s.entriesUntil .computeInstance r (some s.store.instanceTypes) false (minutes 2)).1,
        Store.valueFits e)
    (fun _ _ h => h) ⟨rfl,fun k => by cases k <;> rfl,rfl⟩ (by decide +kernel)
  have hkey : Kind.id .computeInstance r = "vm-1" := hid
  have hstart : periodStart .computeInstance r = minutes 1 := by
    simp [periodStart,Kind.lastMeteredAt,hlast]
  have hd : Watcher.deletedAt (minutes 3) { runningVM.metadata with
    deletionTimestamp := some (minutes 2) } = minutes 2 := rfl
  have he : Watcher.deletion (deleteVM (some (minutes 2))) =
      some (.computeInstance,Kind.id .computeInstance r,
        { runningVM.metadata with deletionTimestamp := some (minutes 2) }) := by
    rw [hkey]
    rfl
  have hs' : Reachable Metering.step initial
      (fun s l => exactTimes .computeInstance (Kind.id .computeInstance r) s l = true) s := by
    rw [hkey]
    exact hs
  obtain ⟨t,ht,hsum,-⟩ := watch_delete_closes_meter sampleEnv hs' hr (by rw [hkey]; exact hpend) hstate he
    (fun _ => by
      rw [hd,hstart]
      exact ⟨by decide,by decide,hfits⟩)
  refine ⟨s,hs,t,ht,?_⟩
  rw [hd,hstart,if_neg (by decide),max_eq_left (by decide),hkey] at hsum
  simpa only [Kind.createdAt,hcreated] using hsum

/-- A watch event of a cluster that exists since the beginning. -/
def clusterEvent (type : String) (deletionTimestamp : Option Int) : Osac.Event :=
  { id := "e-1", type,
    cluster := some ⟨"cl-1",{ creationTimestamp := some 0, deletionTimestamp, tenant := "acme" },{},
      { state := "CLUSTER_STATE_READY" }⟩ }

def sweepCluster (now : Int) : List Label :=
  [.meter (.sweep now),.meter (.list false false),.meter (.list false false),.meter (.meter {}),
    .meter (.update false),.meter (.list false false)]

/-- The ways to end the life of the instance after an hour: a DELETE with a time before
the last sweep, reconciliation and the v1 event after another half hour. -/
def endings : List (Int × List Label) :=
  [(minutes 30,(Watcher.handleEvent (minutes 61) {} (deleteVM (some (minutes 30)))).toList),
    (minutes 90,Watcher.reconcileComputeInstances (minutes 90) []
      [Watcher.computeInstanceRecord 0 "e-1" runningVM]),
    (minutes 90,[.event (sampleEvent eventTypeResourceDeleted "vm" (minutes 90)) (minutes 90)])]

/-- The hour up to the last sweep is all that is metered of a cluster that lived for
one and a half, and of an instance whose life ends in one of these ways. -/
theorem meter_not_closed :
    (∃ s, runLabels (step sampleEnv) noResources
        ((Watcher.handleEvent 0 {} (clusterEvent Osac.eventTypeCreated none)).toList ++
          sweepCluster (minutes 60) ++
          (Watcher.handleEvent (minutes 91) {}
            (clusterEvent Osac.eventTypeDeleted (some (minutes 90)))).toList) = some s ∧
      Store.sumValues (uptime .cluster "cl-1" s.store) = 3600 ∧ GoTime.seconds (minutes 90) = 5400) ∧
    ∀ ending ∈ endings, ∃ s, runLabels (step sampleEnv) noResources
        (watchVM Osac.eventTypeCreated runningVM 0 ++ sweepOne (minutes 60) ++ ending.2) = some s ∧
      Store.sumValues (uptime .computeInstance "vm-1" s.store) = 3600 ∧
      GoTime.seconds ending.1 ≠ 3600 := by
  constructor <;> decide +kernel

/-- What may follow the first delivery of a DELETE: the steps of sweeps without a
failure, and the same event again. -/
inductive Later where
  | sweep (now : Int) : Later
  | list : Later
  | meter : Later
  | update : Later
  | again (now : Int) : Later

def Later.isAgain : Later → Bool
  | .again _ => true
  | _ => false

def Later.labels (e : Osac.Event) : Later → List Label
  | .sweep now => [.meter (.sweep now)]
  | .list => [.meter (.list false false)]
  | .meter => [.meter (.meter {})]
  | .update => [.meter (.update false)]
  | .again now => (Watcher.handleEvent now {} e).toList

/-- Deliveries after the first one change neither the metering entries nor the
deletion time of the resource, wherever they come between the steps of sweeps. -/
def HarmlessAgain (env : Env δ) (e : Osac.Event) (k : Kind) (id : String) (s : Metering.State) : Prop :=
  ∀ (ls : List Later) (t : Metering.State),
    runLabels (step env) s (ls.flatMap (Later.labels e)) = some t →
    ∃ u, runLabels (step env) s ((ls.filter fun l => !l.isAgain).flatMap (Later.labels e)) = some u ∧
      u.store.entries = t.store.entries ∧
      (row k id u.store).map (·.deletedAt) = (row k id t.store).map (·.deletedAt)

section Again
variable {env : Env δ} {e : Osac.Event} {k : Kind} {id : String} {m : Osac.Metadata} {s t : Metering.State}

theorem handleDelete_spent (hg : Gone (view k id s))
    (hs : Spent (billableStates k) m.deletionTimestamp (view k id s)) (eventID : String) (now : Int) :
    s.handleDelete k id (Watcher.deletedAt now m) eventID now {} = s := by
  have hfinal : s.meterFinal k id (Watcher.deletedAt now m) {} = s := by
    unfold State.meterFinal
    split
    · rfl
    · split
      · rfl
      · rename_i r hr
        refine if_pos ?_
        by_cases hb : k.state r ∈ billableStates k
        · obtain ⟨d,hd,hle,-⟩ := hs (rowOf k r) (by simp [view,row,hr]) hb
          refine .inr ?_
          rw [GoTime.sub_nonpos_iff,Watcher.deletedAt,hd]
          exact hle
        · exact .inl hb
  have hmark (d : Int) : s.store.markDeleted k id d eventID now = s.store := by
    refine Store.markDeleted_eq_self (fun r hr hid => ?_) d eventID now
    exact hg (rowOf k r) (by simp [view,row,Table.find?_eq_some.mpr ⟨hr,hid⟩])
  rw [State.handleDelete,hfinal,hmark]
  rfl

theorem Later.labels_sweep {l : Later} (h : l.isAgain = false) :
    ∃ x, l.labels e = [x] ∧ ofSweep x = true := by
  cases l with
  | again now => cases h
  | _ => exact ⟨_,rfl,rfl⟩

theorem run_without_again (he : Watcher.deletion e = some (k,id,m)) (hf : Fresh s)
    (hg : Gone (view k id s)) (hs : Spent (billableStates k) m.deletionTimestamp (view k id s))
    {ls : List Later} (hr : runLabels (step env) s (ls.flatMap (Later.labels e)) = some t) :
    runLabels (step env) s ((ls.filter fun l => !l.isAgain).flatMap (Later.labels e)) = some t := by
  induction ls generalizing s with
  | nil => exact hr
  | cons l ls ih =>
    rw [List.flatMap_cons,runLabels_append] at hr
    cases hl : l.isAgain with
    | true =>
      rw [List.filter_cons_of_neg (by simp [hl])]
      cases l with
      | again now =>
        rw [Later.labels,Watcher.handleEvent_deletion he now {}] at hr
        obtain ⟨s₁,hs₁,hr⟩ := Option.bind_eq_some_iff.mp hr
        have hsame : s₁ = s := by
          cases hs₁
          exact handleDelete_spent hg hs e.id now
        exact ih hf hg hs (hsame ▸ hr)
      | _ => cases hl
    | false =>
      obtain ⟨x,hx,hsweep⟩ := l.labels_sweep (e := e) hl
      rw [List.filter_cons_of_pos (by simp [hl]),List.flatMap_cons,runLabels_append]
      rw [hx] at hr ⊢
      obtain ⟨s₁,hs₁,hr⟩ := Option.bind_eq_some_iff.mp hr
      have hst : step env s x = some s₁ := by simpa [runLabels] using hs₁
      obtain ⟨hf₁,hm⟩ := step_view env hf hst
      rw [hs₁,Option.bind_some]
      rcases @label_ofSweep _ env k id s x hsweep with hown | hother
      · exact ih hf₁ (hg.sweep (hm k id) hown) (hs.sweep hg (hm k id) hown) hr
      · have hv : view k id s₁ = view k id s := by
          have hm' := hm k id
          rw [hother] at hm'
          exact hm'.of_other
        exact ih hf₁ (hv ▸ hg) (hv ▸ hs) hr

theorem instanceTypes_addMetering (store : Store) (n : Nat) (entries : List MeteringEntry) :
    (store.addMetering n entries).instanceTypes = store.instanceTypes := by
  induction entries generalizing store n with
  | nil => rfl
  | cons entry entries ih => rw [Store.addMetering,ih]

def plain : Label → Bool
  | .meter (.sweep _) => true
  | .meter (.list failed typesFailed) => !failed && !typesFailed
  | .meter (.meter f) => !f.project && !f.insert
  | .meter (.update failed) => !failed
  | _ => false

theorem plain_later {l : Label} (h : plain l = true) (e : Osac.Event) :
    ∃ x : Later, x.isAgain = false ∧ x.labels e = [l] := by
  unfold plain at h
  split at h
  · exact ⟨.sweep _,rfl,rfl⟩
  · simp only [Bool.and_eq_true,Bool.not_eq_true'] at h
    obtain ⟨rfl,rfl⟩ := h
    exact ⟨.list,rfl,rfl⟩
  · rename_i f
    obtain ⟨project,insert⟩ := f
    simp only [Bool.and_eq_true,Bool.not_eq_true'] at h
    obtain ⟨rfl,rfl⟩ := h
    exact ⟨.meter,rfl,rfl⟩
  · simp only [Bool.not_eq_true'] at h
    subst h
    exact ⟨.update,rfl,rfl⟩
  · cases h

theorem plain_laters (e : Osac.Event)
    (h : Reachable (step env) (· = s) (fun _ l => plain l = true) t) :
    ∃ ls : List Later, (ls.filter fun l => !l.isAgain) = ls ∧
      runLabels (step env) s (ls.flatMap (Later.labels e)) = some t := by
  induction h with
  | start he => exact ⟨[],rfl,by rw [he]; rfl⟩
  | @next s' t' l _ hl hst ih =>
    obtain ⟨ls,hls,hr⟩ := ih
    obtain ⟨x,hx,hlabels⟩ := plain_later hl e
    refine ⟨ls ++ [x],?_,?_⟩
    · rw [List.filter_append,hls,List.filter_cons_of_pos (by simp [hx])]
      rfl
    · rw [List.flatMap_append,runLabels_append,hr,List.flatMap_singleton,hlabels]
      simp [runLabels,hst]

theorem plain_record (h : Reachable (step env) (· = s) (fun _ l => plain l = true) t) (hf : Fresh s)
    {r : k.Record} (hr : (s.store.table k).find? id = some r) :
    Fresh t ∧ t.store.instanceTypes = s.store.instanceTypes ∧
      ∃ r', (t.store.table k).find? id = some r' ∧ k.state r' = k.state r ∧ meters k r' = meters k r := by
  refine h.invariant (P := fun t => Fresh t ∧ t.store.instanceTypes = s.store.instanceTypes ∧
    ∃ r', (t.store.table k).find? id = some r' ∧ k.state r' = k.state r ∧ meters k r' = meters k r) ?_ ?_
  · rintro t rfl
    exact ⟨hf,rfl,r,hr,rfl,rfl⟩
  · rintro s' l t ⟨hf',ht,r',hr',hstate,hmeters⟩ hl hst
    refine ⟨(step_view env hf' hst).1,?_⟩
    cases step_moves hst with
    | @meter l t hm =>
      cases Metering.step_moves hm with
      | @meter k' now types r₀ todo f hp hn =>
        refine ⟨(instanceTypes_addMetering _ _ _).trans ht,r',?_,hstate,hmeters⟩
        rw [table_addMetering]
        exact hr'
      | @update k' now types r₀ todo ok hp =>
        have htypes : (s'.store.updateLastMetered k' (k'.id r₀) now).instanceTypes =
            s'.store.instanceTypes := by
          cases k' <;> rfl
        refine ⟨htypes.trans ht,?_⟩
        have hset : k.state (k.setMetered now r') = k.state r' ∧
            meters k (k.setMetered now r') = meters k r' := by
          cases k <;> exact ⟨rfl,rfl⟩
        change ∃ r'', ((s'.store.updateLastMetered k' (k'.id r₀) now).table k).find? id = some r'' ∧ _
        by_cases hk : k = k'
        · subst hk
          rw [Store.updateLastMetered,Store.table_setTable,Table.find?_update,hr',Option.map_some]
          refine ⟨_,rfl,?_⟩
          split
          · exact ⟨hset.1.trans hstate,hset.2.trans hmeters⟩
          · exact ⟨hstate,hmeters⟩
        · rw [Store.updateLastMetered,Store.table_setTable_of_ne _ hk]
          exact ⟨r',hr',hstate,hmeters⟩
      | upsert k' r₀ now => cases hl
      | upsertInstanceType r₀ now => cases hl
      | upsertProject r₀ now => cases hl
      | delete k' id' d eventID now f => cases hl
      | restart => cases hl
      | _ => exact ⟨ht,r',hr',hstate,hmeters⟩
    | upsertTenant r₀ now => cases hl
    | reconciled k' id' now => cases hl
    | event ha hr => cases hl

theorem update_done (env : Env δ) (k : Kind) (id : String) {k' : Kind} {now : Int}
    {types : InstanceTypes} {r : k'.Record} {todo : List k'.Record} {ok : Bool} (hp : s.phase = .stored k' now types r todo ok) :
    ∃ t, Reachable (step env) (· = s) (fun _ l => plain l = true) t ∧
      t.phase = resume k' now types todo ∧
      row k id t.store = if k' = k ∧ k'.id r = id then
        (row k id s.store).map (fun r => { r with lastMeteredAt := some now }) else row k id s.store := by
  have hst : step env s (.meter (.update false)) = some ((s.goto (resume k' now types todo)).withStore
      (s.store.updateLastMetered k' (k'.id r) now)) := by
    simp [step,Metering.step,hp,State.goto]
  exact ⟨_,.head rfl hst (.start rfl),rfl,row_updateLastMetered k id s.store k' (k'.id r) now⟩

theorem head_done (env : Env δ) (k : Kind) (id : String) {k' : Kind} {now : Int}
    {types : InstanceTypes} {r : k'.Record} {todo : List k'.Record} (hp : s.phase = .pass k' now types (r :: todo)) :
    ∃ t, Reachable (step env) (· = s) (fun _ l => plain l = true) t ∧
      t.phase = resume k' now types todo ∧
      row k id t.store = if (k' = k ∧ k'.id r = id) ∧ periodStart k' r < now then
        (row k id s.store).map (fun r => { r with lastMeteredAt := some now }) else row k id s.store := by
  by_cases hn : periodStart k' r < now
  · have hpos : ¬ GoTime.sub now (periodStart k' r) ≤ 0 := by
      rw [GoTime.sub_nonpos_iff]
      omega
    let batch := s.insertBatch false (s.entriesUntil k' r types false now)
    have hst : step env s (.meter (.meter {})) =
        some (batch.1.goto (.stored k' now types r todo batch.2)) := by
      simp only [step,Metering.step,hp,hpos,if_false,batch]
    have hrow : row k id batch.1.store = row k id s.store := by
      rcases insertBatch_cases s false (s.entriesUntil k' r types false now) with hb | hb
      · rw [show batch = _ from hb]
      · rw [show batch = _ from hb]
        exact row_addMetering k id _ _ _
    obtain ⟨t,ht,hph,hrow'⟩ := update_done env k id
      (s := batch.1.goto (.stored k' now types r todo batch.2)) rfl
    refine ⟨t,.head rfl hst ht,hph,?_⟩
    rw [hrow']
    simp only [hn,and_true,State.goto,hrow]
  · have hst : step env s (.meter (.meter {})) = some (s.goto (resume k' now types todo)) := by
      simp [step,Metering.step,hp,GoTime.sub_nonpos_iff,not_lt.mp hn]
    exact ⟨_,.head rfl hst (.start rfl),rfl,by rw [if_neg (fun h => hn h.2)]; rfl⟩

theorem pass_sets_checkpoint (env : Env δ) {now : Int} {types : InstanceTypes} {todo : List k.Record}
    (hp : s.phase = resume k now types todo) (hn : (listedIn k id k now todo).next? = some now) :
    ∃ t, Reachable (step env) (· = s) (fun _ l => plain l = true) t ∧
      row k id t.store = (row k id s.store).map (fun r => { r with lastMeteredAt := some now }) := by
  induction todo generalizing s with
  | nil =>
    rw [listedIn_off k id k now rfl List.not_mem_nil] at hn
    cases hn
  | cons r todo ih =>
    obtain ⟨t,ht,hph,hrow⟩ := head_done env k id hp
    by_cases hk : k.id r = id
    · rw [listedIn_head k id k now todo ⟨rfl,hk⟩] at hn
      have hlt : periodStart k r < now := by
        by_contra hge
        simp [Stage.next?,hge] at hn
      rw [if_pos ⟨⟨rfl,hk⟩,hlt⟩] at hrow
      exact ⟨t,ht,hrow⟩
    · rw [listedIn_tail k id k now todo (fun h => hk h.2)] at hn
      rw [if_neg (fun h => hk h.1.2)] at hrow
      obtain ⟨u,hu,hrow'⟩ := ih hph hn
      exact ⟨u,ht.trans hu,hrow'.trans (by rw [hrow])⟩

theorem sweep_sets_checkpoint (env : Env δ) {now : Int} (hn : (stage k id s.phase).next? = some now) :
    ∃ t, Reachable (step env) (· = s) (fun _ l => plain l = true) t ∧
      row k id t.store = (row k id s.store).map (fun r => { r with lastMeteredAt := some now }) := by
  have hlisted {k' : Kind} {now' : Int} {todo : List k'.Record}
      (h : (listedIn k id k' now' todo).next? = some now) : k' = k ∧ now' = now := by
    unfold listedIn at h
    split at h
    · rename_i hk
      split at h
      · simp only [Stage.next?] at h
        split at h
        · exact ⟨hk,Option.some.inj h⟩
        · cases h
      · cases h
    · split at h <;> cases h
  cases hp : s.phase with
  | idle =>
    rw [hp] at hn
    cases hn
  | list k' now' =>
    rw [hp,stage] at hn
    split at hn <;> cases hn
  | pass k' now' types todo =>
    rw [hp,stage] at hn
    obtain ⟨rfl,rfl⟩ := hlisted hn
    cases todo with
    | nil =>
      rw [listedIn_off k' id k' now' rfl List.not_mem_nil] at hn
      cases hn
    | cons r todo =>
      have hp' : s.phase = resume k' now' types (r :: todo) := hp
      exact pass_sets_checkpoint env hp' hn
  | stored k' now' types r todo ok =>
    rw [hp,stage] at hn
    obtain ⟨t,ht,hph,hrow⟩ := update_done env k id hp
    by_cases hk : k' = k ∧ k'.id r = id
    · rw [if_pos hk] at hn hrow
      cases hn
      exact ⟨t,ht,hrow⟩
    · rw [if_neg hk] at hn hrow
      obtain ⟨rfl,rfl⟩ := hlisted hn
      obtain ⟨u,hu,hrow'⟩ := pass_sets_checkpoint env hph hn
      exact ⟨u,ht.trans hu,hrow'.trans (by rw [hrow])⟩

/-- The final entries of a record from a checkpoint on fit their column; without a
deletion time those of a moment. -/
def FinalFits (k : Kind) (types : InstanceTypes) (deletion : Option Int) (r : k.Record) (start : Int) :
    Prop :=
  ∀ entry ∈ meters k r types "" (GoTime.seconds (GoTime.sub (deletion.getD (start+1)) start)) start
    (deletion.getD (start+1)), Store.valueFits entry

theorem FinalFits.entriesUntil {types : InstanceTypes} {deletion : Option Int} {r : k.Record}
    (hk : k ≠ .cluster) (h : FinalFits k types deletion r (periodStart k r)) (failed : Bool) :
    ∀ entry ∈ (s.entriesUntil k r types failed (deletion.getD (periodStart k r + 1))).1,
      Store.valueFits entry := by
  -- the project is not part of a value
  cases k with
  | cluster => exact absurd rfl hk
  | computeInstance =>
    simpa [FinalFits,State.entriesUntil,meters,computeInstanceMeters,Store.valueFits,newEntry] using h
  | bareMetal =>
    simpa [FinalFits,State.entriesUntil,meters,bareMetalMeters,Store.valueFits,newEntry] using h

theorem handleDelete_stores (hf : Fresh s) (hk : k ≠ .cluster) {r : k.Record}
    (hr : (s.store.table k).find? id = some r) (hb : k.state r ∈ billableStates k) {d : Int}
    (hd : periodStart k r < d)
    (hfits : ∀ entry ∈ (s.entriesUntil k r (some s.store.instanceTypes) false d).1, Store.valueFits entry)
    (eventID : String) (now : Int) :
    (s.handleDelete k id d eventID now {}).store.entries ≠ s.store.entries := by
  have hlen := meters_length k r (some s.store.instanceTypes)
    (resolveProject s.store false s.projectCache (k.project r) (k.tenant r)).1
    (GoTime.seconds (GoTime.sub d (periodStart k r))) (periodStart k r) d
  obtain ⟨first,rest,hes,-⟩ := meters_uptime k r (some s.store.instanceTypes)
    (resolveProject s.store false s.projectCache (k.project r) (k.tenant r)).1
    (GoTime.seconds (GoTime.sub d (periodStart k r))) (periodStart k r) d
  have hins := Store.insertMeteringEntryBatch_of_fits s.store s.nextID
    (by simp only [State.entriesUntil]; omega) hfits
  have hentries : (s.handleDelete k id d eventID now {}).store.entries =
      (s.store.addMetering s.nextID
        (s.entriesUntil k r (some s.store.instanceTypes) false d).1).entries := by
    have hgt : ¬ d ≤ periodStart k r := not_le.mpr hd
    simp [State.handleDelete,State.meterFinal,hk,hr,hb,GoTime.sub_nonpos_iff,hgt,State.insertBatch,
      loadInstanceTypeMap,hins,State.withStore,Store.markDeleted]
  rw [hentries,(Store.entries_addMetering _ hf.ids).1]
  intro hsame
  simp [State.entriesUntil,hes] at hsame

theorem handleDelete_record {r : k.Record} (hr : (s.store.table k).find? id = some r) (d : Int)
    (eventID : String) (now : Int) :
    (s.handleDelete k id d eventID now {}).store.instanceTypes = s.store.instanceTypes ∧
      ∃ r', ((s.handleDelete k id d eventID now {}).store.table k).find? id = some r' ∧
        meters k r' = meters k r := by
  have hfinal : (s.meterFinal k id d {}).store.instanceTypes = s.store.instanceTypes ∧
      (s.meterFinal k id d {}).store.table k = s.store.table k := by
    have hf := meterFinal_final s k id d {}
    generalize s.meterFinal k id d {} = t at hf
    cases hf with
    | none nextID cache hn => exact ⟨rfl,rfl⟩
    | stored types failed hr hid => exact ⟨instanceTypes_addMetering _ _ _,table_addMetering _ _ _ _⟩
  have hset : meters k (k.setDeleted d eventID now r) = meters k r := by
    cases k <;> rfl
  refine ⟨?_,?_⟩
  · refine Eq.trans ?_ hfinal.1
    cases k <;> rfl
  · change ∃ r', (((s.meterFinal k id d {}).store.markDeleted k id d eventID now).table k).find? id =
      some r' ∧ _
    rw [Store.markDeleted,Store.table_setTable,Table.find?_update,hfinal.2,hr,Option.map_some]
    refine ⟨_,rfl,?_⟩
    split
    · exact hset
    · rfl

theorem not_harmless (he : Watcher.deletion e = some (k,id,m)) (hk : k ≠ .cluster) (hf : Fresh s)
    (hh : HarmlessAgain env e k id s)
    (hu : Reachable (step env) (· = s) (fun _ l => plain l = true) t) {r r' : k.Record}
    (hr : (s.store.table k).find? id = some r) (hb : k.state r ∈ billableStates k)
    (hr' : (t.store.table k).find? id = some r')
    (hfits : FinalFits k (some s.store.instanceTypes) m.deletionTimestamp r (periodStart k r')) :
    ¬ periodStart k r' < m.deletionTimestamp.getD (periodStart k r' + 1) := by
  intro hlt
  obtain ⟨hft,htypes,r'',hr'',hstate,hmeters⟩ := plain_record hu hf hr
  cases hr'.symm.trans hr''
  obtain ⟨ls,hls,hrun⟩ := plain_laters e hu
  -- the event again, at a moment after the checkpoint
  let now := periodStart k r' + 1
  have hagain : runLabels (step env) s ((ls ++ [Later.again now]).flatMap (Later.labels e)) =
      some (t.handleDelete k id (m.deletionTimestamp.getD now) e.id now {}) := by
    rw [List.flatMap_append,runLabels_append,hrun,List.flatMap_singleton,Later.labels,
      Watcher.handleEvent_deletion he now {}]
    rfl
  obtain ⟨u,hu',hentries,-⟩ := hh _ _ hagain
  rw [List.filter_append,hls,List.filter_cons_of_neg (by simp [Later.isAgain]),List.filter_nil,
    List.append_nil,hrun] at hu'
  cases hu'
  have hfits' : FinalFits k (some t.store.instanceTypes) m.deletionTimestamp r' (periodStart k r') := by
    rw [FinalFits,htypes,hmeters]
    exact hfits
  exact handleDelete_stores hft hk hr' (hstate ▸ hb) hlt (hfits'.entriesUntil hk false) e.id now
    hentries.symm

/-- The moments at which the event may come again: at once, and after the sweep that
has the resource in hand. -/
theorem spent_of_harmless (he : Watcher.deletion e = some (k,id,m)) (hk : k ≠ .cluster) (hf : Fresh s)
    (hh : HarmlessAgain env e k id s)
    (hfits : ∀ r, (s.store.table k).find? id = some r → ∀ start,
      start = periodStart k r ∨ (stage k id s.phase).next? = some start →
        FinalFits k (some s.store.instanceTypes) m.deletionTimestamp r start) :
    Spent (billableStates k) m.deletionTimestamp (view k id s) := by
  intro r hr hb
  obtain ⟨record,hrecord,rfl⟩ := row_eq_some hr
  have hatonce := not_harmless he hk hf hh (.start rfl) hrecord hb hrecord
    (hfits record hrecord _ (.inl rfl))
  cases hd : m.deletionTimestamp with
  | none =>
    rw [hd,Option.getD_none] at hatonce
    exact absurd (Int.lt_succ _) hatonce
  | some d =>
    rw [hd,Option.getD_some] at hatonce
    refine ⟨d,rfl,not_lt.mp hatonce,fun now hnext => ?_⟩
    obtain ⟨t,ht,hrow⟩ := sweep_sets_checkpoint env hnext
    rw [show row k id s.store = _ from hr,Option.map_some] at hrow
    obtain ⟨record',hrecord',hrow'⟩ := row_eq_some hrow
    have hstart : periodStart k record' = now := congrArg Row.checkpoint hrow'
    have hafter := not_harmless he hk hf hh ht hrecord hb hrecord'
      (by rw [hstart]; exact hfits record hrecord now (.inr hnext))
    rw [hstart,hd,Option.getD_some] at hafter
    exact not_lt.mp hafter

end Again

/-- A DELETE that is delivered again is harmless if and only if a final metering finds
nothing to meter: there is no row in a billable state, or the event carries a deletion
time that is not after the checkpoint, and not after the one a running sweep sets. -/
theorem duplicate_delete_harmless_iff {env : Env δ} {s s₁ : Metering.State} {e : Osac.Event} {k : Kind}
    {id : String} {m : Osac.Metadata} {now : Int} (h : Reachable (step env) initial anyStep s)
    (he : Watcher.deletion e = some (k,id,m)) (hk : k ≠ .cluster)
    (hfirst : (Watcher.handleEvent now {} e).bind (step env s) = some s₁)
    (hfits : ∀ r, (s.store.table k).find? id = some r → ∀ start,
      start = periodStart k r ∨ (stage k id s.phase).next? = some start →
        FinalFits k (some s.store.instanceTypes) m.deletionTimestamp r start) :
    HarmlessAgain env e k id s₁ ↔
      Spent (billableStates k) m.deletionTimestamp (view k id s) := by
  have hf := reachable_fresh h
  rw [Watcher.handleEvent_deletion he now {},Option.bind_some] at hfirst
  have hf₁ := (step_view env hf hfirst).1
  cases hfirst
  -- the first delivery marks the row and moves no checkpoint
  obtain ⟨final,hview,-⟩ := handleDelete_view k id hf k id (Watcher.deletedAt now m) e.id now {}
  rw [if_pos ⟨⟨rfl,rfl⟩,rfl⟩] at hview
  have hrow : (view k id (s.handleDelete k id (Watcher.deletedAt now m) e.id now {})).row =
      (view k id s).row.map (Row.marked (Watcher.deletedAt now m)) := congrArg View.row hview
  have hstage : (view k id (s.handleDelete k id (Watcher.deletedAt now m) e.id now {})).stage =
      (view k id s).stage := by
    rw [hview]
    rfl
  rw [← Spent.marked_iff hrow hstage]
  constructor
  · intro hh
    refine spent_of_harmless he hk hf₁ hh fun r₁ hr₁ start hstart => ?_
    have hrow₁ : some (rowOf k r₁) = (row k id s.store).map (Row.marked (Watcher.deletedAt now m)) := by
      rw [← show _ = (row k id s.store).map _ from hrow]
      simp [view,row,hr₁]
    obtain ⟨r,hr,hmarked⟩ := Option.map_eq_some_iff.mp hrow₁.symm
    obtain ⟨record,hrecord,rfl⟩ := row_eq_some hr
    have hcheckpoint : periodStart k r₁ = periodStart k record := by
      have hc := congrArg Row.checkpoint hmarked
      rw [Row.marked_checkpoint] at hc
      exact hc.symm
    obtain ⟨htypes,record₁,hrecord₁,hmeters⟩ :=
      handleDelete_record hrecord (Watcher.deletedAt now m) e.id now
    cases hr₁.symm.trans hrecord₁
    rw [FinalFits,htypes,hmeters]
    rw [hcheckpoint,show stage k id _ = stage k id s.phase from hstage] at hstart
    exact hfits record hrecord start hstart
  · intro hs ls t hr
    exact ⟨t,run_without_again he hf₁ (.of_marked hrow) hs hr,rfl,rfl⟩

/-- An instance that was swept after its deletion time may be deleted again. -/
theorem delete_again_after_sweep :
    ∃ s s₁, Reachable (step sampleEnv) initial anyStep s ∧
      (Watcher.handleEvent (minutes 3) {} (deleteVM (some (minutes 1)))).bind (step sampleEnv s) = some s₁ ∧
      HarmlessAgain sampleEnv (deleteVM (some (minutes 1))) .computeInstance "vm-1" s₁ := by
  have he : Watcher.deletion (deleteVM (some (minutes 1))) = some (.computeInstance,"vm-1",
      { runningVM.metadata with deletionTimestamp := some (minutes 1) }) := rfl
  obtain ⟨s,hs,r,hr,hstart,hnext,hfits⟩ := Reachable.exists_of_run (step sampleEnv) initial noResources
    (watchVM Osac.eventTypeCreated runningVM 0 ++ sweepOne (minutes 2))
    (fun s => ∃ r, (s.store.table .computeInstance).find? "vm-1" = some r ∧
      periodStart .computeInstance r = minutes 2 ∧ (stage .computeInstance "vm-1" s.phase).next? = none ∧
      ∀ entry ∈ meters .computeInstance r (some s.store.instanceTypes) "" (GoTime.seconds (GoTime.sub
        (minutes 1) (minutes 2))) (minutes 2) (minutes 1), Store.valueFits entry)
    ⟨rfl,fun k => by cases k <;> rfl,rfl⟩ (by decide +kernel)
  have hfirst : (Watcher.handleEvent (minutes 3) {} (deleteVM (some (minutes 1)))).bind
      (step sampleEnv s) = some (s.handleDelete .computeInstance "vm-1" (minutes 1) "e-2" (minutes 3) {}) := by
    rw [Watcher.handleEvent_deletion he]
    rfl
  refine ⟨s,_,hs,hfirst,(duplicate_delete_harmless_iff hs he (by decide) hfirst ?_).mpr ?_⟩
  · intro r' hr' start hor
    cases hr.symm.trans hr'
    rcases hor with rfl | hnext'
    · rw [hstart]
      exact hfits
    · exact absurd (hnext.symm.trans hnext') (by simp)
  · intro row hrow _
    obtain ⟨record,hrecord,rfl⟩ := row_eq_some hrow
    cases hr.symm.trans hrecord
    refine ⟨minutes 1,rfl,?_,fun now hnow => absurd (hnext.symm.trans hnow) (by simp)⟩
    change minutes 1 ≤ periodStart .computeInstance r
    rw [hstart]
    decide

/-- The instance is swept after a minute, and its DELETE is received after two minutes
and after three. -/
def deletedTwice (deletionTimestamp : Option Int) : List Label :=
  watchVM Osac.eventTypeCreated runningVM 0 ++ sweepOne (minutes 1) ++
    (Watcher.handleEvent (minutes 2) {} (deleteVM deletionTimestamp)).toList ++
    (Watcher.handleEvent (minutes 3) {} (deleteVM deletionTimestamp)).toList

/-- Without a deletion time the last minute is metered up to each delivery, and with
one it is metered twice. -/
theorem delete_again_metered_twice :
    (∃ s, runLabels (step sampleEnv) noResources (deletedTwice none) = some s ∧
      (uptime .computeInstance "vm-1" s.store).map (fun e => (e.periodStart,e.periodEnd)) =
        [(0,minutes 1),(minutes 1,minutes 2),(minutes 1,minutes 3)]) ∧
    ∃ s, runLabels (step sampleEnv) noResources (deletedTwice (some (minutes 2))) = some s ∧
      (uptime .computeInstance "vm-1" s.store).map (fun e => (e.periodStart,e.periodEnd)) =
        [(0,minutes 1),(minutes 1,minutes 2),(minutes 1,minutes 2)] := by
  constructor <;> decide +kernel

end CostConsumer.Service
