import CostConsumer.Service.Lifecycle
set_option autoImplicit false

/-!
Heartbeats and the sweep meter the same resources. Their intervals do not overlap
as long as a heartbeat starts at the checkpoint or after it and finds no sweep with
the resource in hand.
-/

namespace CostConsumer.Resource
open Foundation

/-- The sweep has read the row and not moved its checkpoint yet. -/
def Stage.held : Stage → Bool
  | .listed _ _ => true
  | .stored _ _ => true
  | _ => false

/-- The sweep has stored an interval and not moved the checkpoint yet. -/
def Stage.pending : Stage → Option Int
  | .stored now true => some now
  | _ => none

def View.reach (v : View) (r : Row) : Int := v.stage.pending.getD r.checkpoint

/-- The intervals were stored in order and end at the checkpoint or before it. -/
structure Ordered (v : View) : Prop where
  pairwise : v.uptime.Pairwise (fun i j => i.stop ≤ j.start)
  reach : ∀ r, v.row = some r → ∀ i ∈ v.uptime, i.stop ≤ v.reach r
  absent : v.row = none → v.uptime = [] ∧ v.stage.held = false
  listed : ∀ now start, v.stage = .listed now start → ∀ r, v.row = some r → r.checkpoint = start
  stored : ∀ now ok, v.stage = .stored now ok → ∀ r, v.row = some r → r.checkpoint < now

section Ordered
variable {billed : List String} {v w : View} {l : Label}

theorem Stage.not_listed {stage : Stage} (h : stage.held = false) (now start : Int) :
    stage ≠ .listed now start := by
  rintro rfl
  cases h

theorem Stage.not_stored {stage : Stage} (h : stage.held = false) (now : Int) (ok : Bool) :
    stage ≠ .stored now ok := by
  rintro rfl
  cases h

theorem Stage.not_pending {stage : Stage} (h : stage.held = false) : stage.pending = none := by
  cases stage with
  | off => rfl
  | ahead now => rfl
  | listed now start => rfl
  | stored now ok => cases h

theorem reach_of_not_pending (h : v.stage.pending = none) (r : Row) : v.reach r = r.checkpoint := by
  rw [View.reach,h,Option.getD_none]

theorem Ordered.of_row (h : Ordered v) (hs : w.stage = v.stage) (hu : w.uptime = v.uptime)
    (hr : ∀ r', w.row = some r' → ∃ r, v.row = some r ∧ r'.checkpoint = r.checkpoint)
    (hn : w.row = none → v.row = none) : Ordered w := by
  refine ⟨hu ▸ h.pairwise,fun r' hr' i hi => ?_,fun he => ?_,?_,?_⟩
  · obtain ⟨r,hrow,hc⟩ := hr r' hr'
    rw [View.reach,hs,hc]
    exact h.reach r hrow i (hu ▸ hi)
  · rw [hu,hs]
    exact h.absent (hn he)
  · intro now start hst r' hr'
    obtain ⟨r,hrow,hc⟩ := hr r' hr'
    exact hc.trans (h.listed now start (hs ▸ hst) r hrow)
  · intro now ok hst r' hr'
    obtain ⟨r,hrow,hc⟩ := hr r' hr'
    exact hc ▸ h.stored now ok (hs ▸ hst) r hrow

theorem Ordered.upsert (h : Ordered v) (r : Row) : Ordered (v.apply (.upsert r)) := by
  cases hr : v.row with
  | none =>
    obtain ⟨hu,hs⟩ := h.absent hr
    refine ⟨h.pairwise,fun r' _ i hi => ?_,fun he => absurd he (by simp [View.apply]),?_,?_⟩
    · simp [View.apply,hu] at hi
    · exact fun now start he => absurd he (Stage.not_listed hs now start)
    · exact fun now ok he => absurd he (Stage.not_stored hs now ok)
  | some old =>
    refine h.of_row rfl rfl (fun r' hr' => ⟨old,hr,?_⟩) (fun he => absurd he (by simp [View.apply]))
    simp only [View.apply,hr,Option.some.injEq] at hr'
    rw [← hr']
    rfl

theorem Ordered.heartbeat (h : Ordered v) {r : Row} {is : List Interval} {t : Int}
    (hheld : v.stage.held = false) (hr : v.row = some r) (hle : r.checkpoint ≤ t)
    (hp : is.Pairwise (fun i j => i.stop ≤ j.start))
    (his : ∀ i ∈ is, r.checkpoint ≤ i.start ∧ i.stop ≤ t) :
    Ordered ((v.apply (.metered is)).apply (.checkpoint t)) := by
  have hpend := Stage.not_pending hheld
  have hreach := h.reach r hr
  simp only [reach_of_not_pending hpend] at hreach
  refine ⟨?_,fun r' hr' i hi => ?_,fun he => absurd he (by simp [View.apply,hr]),?_,?_⟩
  · exact List.pairwise_append.mpr ⟨h.pairwise,hp,fun i hi j hj => (hreach i hi).trans (his j hj).1⟩
  · simp only [View.apply,hr,Option.map_some,Option.some.injEq] at hr'
    rw [reach_of_not_pending (by exact hpend),← hr']
    rcases List.mem_append.mp hi with hi | hi
    · exact (hreach i hi).trans hle
    · exact (his i hi).2
  · exact fun now start hs => absurd hs (Stage.not_listed hheld now start)
  · exact fun now ok hs => absurd hs (Stage.not_stored hheld now ok)

theorem Ordered.goto (h : Ordered v) {stage : Stage} (hheld : stage.held = false)
    (hp : v.stage.pending = none) : Ordered (v.goto stage) := by
  refine ⟨h.pairwise,fun r hr i hi => ?_,fun hr => ⟨(h.absent hr).1,hheld⟩,?_,?_⟩
  · rw [reach_of_not_pending (Stage.not_pending hheld),← reach_of_not_pending hp]
    exact h.reach r hr i hi
  · exact fun now start hs => absurd hs (Stage.not_listed hheld now start)
  · exact fun now ok hs => absurd hs (Stage.not_stored hheld now ok)

theorem Ordered.row_of_held (h : Ordered v) (hs : v.stage.held = true) : ∃ r, v.row = some r := by
  cases hr : v.row with
  | none => exact absurd ((h.absent hr).2.symm.trans hs) Bool.false_ne_true
  | some r => exact ⟨r,rfl⟩

theorem Ordered.list (h : Ordered v) {now : Int} {r : Row} (hp : v.stage.pending = none)
    (hr : v.row = some r) : Ordered (v.goto (.listed now r.checkpoint)) := by
  refine ⟨h.pairwise,fun r' hr' i hi => ?_,fun he => absurd (hr.symm.trans he) (by simp),?_,?_⟩
  · rw [reach_of_not_pending rfl,← reach_of_not_pending hp]
    exact h.reach r' hr' i hi
  · intro now' start hst r' hr'
    cases hst
    rw [Option.some.inj (hr.symm.trans hr')]
  · intro now' ok hst
    cases hst

theorem Ordered.meter (h : Ordered v) {now start : Int} (hs : v.stage = .listed now start)
    (hn : start < now) :
    Ordered ⟨v.row,.stored now true,v.uptime ++ [storedUptime start now]⟩ := by
  obtain ⟨r,hr⟩ := h.row_of_held (by rw [hs]; rfl)
  have hc := h.listed now start hs r hr
  have hreach := h.reach r hr
  simp only [reach_of_not_pending (show v.stage.pending = none by rw [hs]; rfl),hc] at hreach
  refine ⟨?_,fun r' hr' i hi => ?_,fun he => absurd (hr.symm.trans he) (by simp),?_,?_⟩
  · refine List.pairwise_append.mpr ⟨h.pairwise,List.pairwise_singleton _ _,fun i hi j hj => ?_⟩
    rw [List.mem_singleton.mp hj]
    exact hreach i hi
  · change i.stop ≤ now
    rcases List.mem_append.mp hi with hi | hi
    · exact (hreach i hi).trans hn.le
    · rw [List.mem_singleton.mp hi]
      exact le_refl _
  · intro now' start' hst
    cases hst
  · intro now' ok hst r' hr'
    cases hst
    rw [← Option.some.inj (hr.symm.trans hr'),hc]
    exact hn

theorem Ordered.refuse (h : Ordered v) {now start : Int} (hs : v.stage = .listed now start)
    (hn : start < now) : Ordered (v.goto (.stored now false)) := by
  obtain ⟨r,hr⟩ := h.row_of_held (by rw [hs]; rfl)
  have hpend : v.stage.pending = none := by rw [hs]; rfl
  refine ⟨h.pairwise,fun r' hr' i hi => ?_,fun he => absurd (hr.symm.trans he) (by simp),?_,?_⟩
  · rw [reach_of_not_pending rfl,← reach_of_not_pending hpend]
    exact h.reach r' hr' i hi
  · intro now' start' hst
    cases hst
  · intro now' ok hst r' hr'
    cases hst
    rw [h.listed now start hs r' hr']
    exact hn

theorem Ordered.update (h : Ordered v) {now : Int} {ok : Bool} (hs : v.stage = .stored now ok) :
    Ordered ((v.apply (.checkpoint now)).goto .off) := by
  obtain ⟨r,hr⟩ := h.row_of_held (by rw [hs]; rfl)
  have hlt := h.stored now ok hs r hr
  refine ⟨h.pairwise,fun r' hr' i hi => ?_,fun he => absurd he (by simp [View.goto,View.apply,hr]),
    ?_,?_⟩
  · simp only [View.goto,View.apply,hr,Option.map_some,Option.some.injEq] at hr'
    rw [reach_of_not_pending rfl,← hr']
    have hle := h.reach r hr i hi
    rw [View.reach,hs] at hle
    cases ok with
    | true => exact hle
    | false => exact hle.trans hlt.le
  · intro now' start' hst
    cases hst
  · intro now' ok' hst
    cases hst

/-- The steps of a sweep keep the order: an interval that is stored has its
checkpoint moved next, and the resource is not deleted. -/
theorem Ordered.moves (h : Ordered v) (hm : Moves billed v l w)
    (hw : ∀ effects, l = .write effects → Ordered (effects.foldl View.apply v))
    (hd : ∀ t, l ≠ .delete t) (hu : l = .update true ∨ l = .restart → v.stage.pending = none) :
    Ordered w := by
  cases hm with
  | other => exact h
  | write effects => exact hw effects rfl
  | sweep now hs => exact h.goto rfl (by rw [hs]; rfl)
  | list hs hr ha => exact h.list (by rw [hs]; rfl) hr
  | unlisted hs hr => exact h.goto rfl (by rw [hs]; rfl)
  | skip failed hs hn => exact h.goto rfl (by rw [hs]; rfl)
  | meter hs hn => exact h.meter hs hn
  | refused hs hn => exact h.refuse hs hn
  | update hs => exact h.update hs
  | updateFails hs => exact h.goto rfl (hu (.inl rfl))
  | delete final marked => exact absurd rfl (hd _)
  | mark t =>
    refine h.of_row rfl rfl (fun r' hr' => ?_) (fun he => by simpa using he)
    obtain ⟨r,hr,rfl⟩ := Option.map_eq_some_iff.mp hr'
    exact ⟨r,hr,Row.marked_checkpoint t r⟩
  | restart => exact h.goto rfl (hu (.inr rfl))

end Ordered

end CostConsumer.Resource

namespace CostConsumer.Service
open Inventory Foundation Metering Ingest Resource

variable {δ : Type}

/-- A heartbeat that is recorded for the resource finds no sweep that has it in
hand, and starts at its checkpoint or after it; one that records no uptime ends
there or after it. Other events do not store uptime for it. -/
def timelyEvent (env : Env δ) (k : Kind) (id : String) (s : Metering.State) (ce : CloudEvent) : Bool :=
  if isOSACv1 ce then true
  else if ce.type = eventTypeComputeInstance then
    (env.decoder.computeInstance ce.data).all fun data =>
      (k = .computeInstance ∧ data.instanceID = id ∧ data.state ∈ billableStates .computeInstance) →
        (stage k id s.phase).held = false ∧
        (row k id s.store).all fun r => r.checkpoint ≤ startOf ce data.durationSeconds
  else if ce.type = eventTypeCluster then
    (env.decoder.cluster ce.data).all fun data =>
      (k = .cluster ∧ data.clusterID = id ∧ data.state ∈ billableStates .cluster) →
        (stage k id s.phase).held = false ∧
        (row k id s.store).any fun r => r.checkpoint ≤
          if data.hostType = "_control_plane" then startOf ce data.durationSeconds else ce.time
  else if ce.type = eventTypeModel ∨ ce.type = eventTypeInferenceTokens then true
  else (env.metricDef ce.type).all fun d => d.resourceType ≠ resourceType k

/-- The resource is not deleted, and an interval that a sweep has stored for it has
its checkpoint moved next. -/
def timely (env : Env δ) (k : Kind) (id : String) (s : Metering.State) : Label → Bool
  | .event ce _ => timelyEvent env k id s ce
  | .meter (.delete k' id' _ _ _ _) => ¬ (k' = k ∧ id' = id)
  | .meter (.update failed) => failed → (stage k id s.phase).pending = none
  | .meter .restart => (stage k id s.phase).pending = none
  | _ => true

def Mild (effects : List Effect) : Prop := ∀ e ∈ effects, e = .metered [] ∨ ∃ r, e = .upsert r

theorem Mild.ordered {es : List Effect} (h : Mild es) {v : View} (hv : Ordered v) :
    Ordered (es.foldl View.apply v) := by
  induction es generalizing v with
  | nil => exact hv
  | cons e es ih =>
    refine ih (fun e' he' => h e' (List.mem_cons_of_mem _ he')) ?_
    rcases h e List.mem_cons_self with rfl | ⟨r,rfl⟩
    · simpa [View.apply] using hv
    · exact hv.upsert r

/-- A call whose effects on a resource are mild, whatever project it finds. -/
def MildCall (k : Kind) (id : String) (c : Call) : Prop :=
  ∀ now n projectID, Mild (effects k id (c.written now n projectID : Write Unit))

theorem runCalls_mild {now : Int} {s t : Metering.State} {calls : List Call} {ws : List (Write Unit)}
    {k : Kind} {id : String} (hf : Fresh s) (hr : runCalls now s calls = .ok (t,ws))
    (hm : ∀ c ∈ calls, MildCall k id c) (h : Ordered (view k id s)) : Ordered (view k id t) := by
  induction calls generalizing s ws with
  | nil =>
    cases hr
    exact h
  | cons c calls ih =>
    obtain ⟨projectID,s₁,rest,hf₁,hv,hrest⟩ := runCalls_next hf hr
    refine ih hf₁ hrest (fun c' hc' => hm c' (List.mem_cons_of_mem _ hc')) ?_
    rw [hv]
    exact (hm c List.mem_cons_self _ _ _).ordered h

section Mild
variable {k : Kind} {id : String}

theorem mild_upsert (k' : Kind) (r : k'.Record) : MildCall k id (.upsert k' r) := by
  intro now n projectID e he
  simp only [Call.written,effects] at he
  split at he
  · exact .inr ⟨_,List.mem_singleton.mp he⟩
  · cases he

theorem mild_upsertModel (r : ModelRecord) : MildCall k id (.upsertModel r) := by
  intro now n projectID e he
  cases he

theorem mild_updateLastMetered {k' : Kind} {id' : String} (t : Int) (h : ¬ (k' = k ∧ id' = id)) :
    MildCall k id (.updateLastMetered k' id' t) := by
  intro now n projectID e he
  simp [Call.written,effects,h] at he

theorem mild_entries {entries : List MeteringEntry} (h : ∀ e ∈ entries, isUptime k id e = false) :
    (entries.filter (isUptime k id)).map storedInterval = [] := by
  rw [List.map_eq_nil_iff,List.filter_eq_nil_iff]
  intro e he
  rw [h e he]
  exact Bool.false_ne_true

theorem mild_insertMetering {entries : List MeteringEntry} (h : ∀ e ∈ entries, isUptime k id e = false) :
    MildCall k id (.insertMetering entries) := by
  intro now n projectID e he
  simp only [Call.written,effects,mild_entries h] at he
  exact .inl (List.mem_singleton.mp he)

theorem mild_meterForTenant {tenantID : String} {entries : String → List MeteringEntry}
    (h : ∀ projectID, ∀ e ∈ entries projectID, isUptime k id e = false) :
    MildCall k id (.meterForTenant tenantID entries) := by
  intro now n projectID e he
  simp only [Call.written,effects,mild_entries (h projectID)] at he
  exact .inl (List.mem_singleton.mp he)

theorem not_uptime_of_type {e : MeteringEntry} (h : e.resourceType ≠ resourceType k) :
    isUptime k id e = false := by
  simp [isUptime,h]

theorem not_uptime_of_owner {k' : Kind} {id' : String} {e : MeteringEntry}
    (ht : e.resourceType = resourceType k') (hi : e.resourceID = id') (hk : ¬ (k' = k ∧ id' = id)) :
    isUptime k id e = false := by
  by_cases hkind : k' = k
  · have hid : id' ≠ id := fun hid => hk ⟨hkind,hid⟩
    simp [isUptime,hi,hid]
  · exact not_uptime_of_type fun he => hkind (resourceType_injective (ht.symm.trans he))

theorem mild_heartbeat {k' : Kind} {id' : String} {entries : List MeteringEntry} {t : Int}
    (hk : ¬ (k' = k ∧ id' = id))
    (he : ∀ e ∈ entries, e.resourceType = resourceType k' ∧ e.resourceID = id') :
    ∀ c ∈ [.insertMetering entries,.updateLastMetered k' id' t], MildCall k id c := by
  refine List.forall_mem_cons.mpr ⟨?_,List.forall_mem_singleton.mpr (mild_updateLastMetered t hk)⟩
  exact mild_insertMetering fun e hmem => not_uptime_of_owner (he e hmem).1 (he e hmem).2 hk

theorem mild_meterMaaSEvent (usage : MaaSUsage) : ∀ c ∈ meterMaaSEvent usage, MildCall k id c := by
  unfold meterMaaSEvent
  split
  · intro c hc
    rw [List.mem_singleton.mp hc]
    refine mild_meterForTenant fun projectID e he => not_uptime_of_type ?_
    rw [(maasMeters_owner he).1]
    cases k <;> decide
  · intro c hc
    cases hc

end Mild

theorem startOf_le (ce : CloudEvent) {seconds : Rat} (h : 0 < seconds) : startOf ce seconds ≤ ce.time := by
  have hback := GoTime.wrap_neg_duration_nonpos (mul_nonneg h.le
    (by norm_num [GoTime.nanosPerSecond] : (0 : Rat) ≤ GoTime.nanosPerSecond))
  unfold startOf
  omega

theorem metered_view {k : Kind} {id : String} {s t : Metering.State} {now time : Int}
    {entries : List MeteringEntry} {ws : List (Write Unit)} (hf : Fresh s)
    (hr : runCalls now s [.insertMetering entries,.updateLastMetered k id time] = .ok (t,ws)) :
    view k id t = ((view k id s).apply
      (.metered ((entries.filter (isUptime k id)).map storedInterval))).apply (.checkpoint time) := by
  obtain ⟨p₁,s₁,rest₁,hf₁,hv₁,hr₁⟩ := runCalls_next hf hr
  obtain ⟨p₂,s₂,rest₂,-,hv₂,hr₂⟩ := runCalls_next hf₁ hr₁
  cases hr₂
  rw [hv₂,hv₁]
  simp only [Call.written,effects,and_self,if_true]
  rfl

section Events
variable {env : Env δ} {k : Kind} {id : String} {s t : Metering.State} {ce : CloudEvent} {now : Int}
  {calls : List Call} {ws : List (Write Unit)}

theorem timely_computeInstance {data : ComputeInstanceEventData}
    (ht : ce.type = eventTypeComputeInstance) (hdata : env.decoder.computeInstance ce.data = some data)
    (hs : data.state ∈ billableStates .computeInstance)
    (h : timelyEvent env .computeInstance data.instanceID s ce = true) :
    (stage .computeInstance data.instanceID s.phase).held = false ∧
      ∀ r, row .computeInstance data.instanceID s.store = some r →
        r.checkpoint ≤ startOf ce data.durationSeconds := by
  have hv1 : isOSACv1 ce = false := by
    rw [isOSACv1,ht]
    decide
  simp only [timelyEvent,hv1,ht,Bool.false_eq_true,if_false,if_true,hdata,Option.all_some,hs,and_self,
    forall_const,decide_eq_true_eq] at h
  refine ⟨h.1,fun r hr => ?_⟩
  rw [hr] at h
  exact of_decide_eq_true h.2

theorem timely_cluster {data : ClusterEventData} (ht : ce.type = eventTypeCluster)
    (hdata : env.decoder.cluster ce.data = some data) (hs : data.state ∈ billableStates .cluster)
    (h : timelyEvent env .cluster data.clusterID s ce = true) :
    (stage .cluster data.clusterID s.phase).held = false ∧
      ∃ r, row .cluster data.clusterID s.store = some r ∧ r.checkpoint ≤
        if data.hostType = "_control_plane" then startOf ce data.durationSeconds else ce.time := by
  have hv1 : isOSACv1 ce = false := by
    rw [isOSACv1,ht]
    decide
  have hne : ¬ eventTypeCluster = eventTypeComputeInstance := by decide
  simp only [timelyEvent,hv1,ht,hne,Bool.false_eq_true,if_false,if_true,hdata,Option.all_some,hs,
    and_self,forall_const,decide_eq_true_eq] at h
  obtain ⟨r,hr,hle⟩ := (Option.any_eq_true _ _).mp h.2
  exact ⟨h.1,r,hr,of_decide_eq_true hle⟩

theorem timely_customMetric {d : MetricDef} (hv1 : isOSACv1 ce = false)
    (ht : ce.type ∉ [eventTypeComputeInstance,eventTypeCluster,eventTypeModel,eventTypeInferenceTokens])
    (hdef : env.metricDef ce.type = some d) (h : timelyEvent env k id s ce = true) :
    d.resourceType ≠ resourceType k := by
  simp only [List.mem_cons,List.not_mem_nil,or_false,not_or] at ht
  simpa [timelyEvent,hv1,ht,hdef] using h

/-- The heartbeat of a resource: upsert, interval, checkpoint. An upsert keeps a
checkpoint that is there. -/
theorem ordered_computeInstance {data : ComputeInstanceEventData} {entries : List MeteringEntry}
    (hf : Fresh s) (h : Ordered (view .computeInstance data.instanceID s))
    (hd : 0 < data.durationSeconds)
    (hr : runCalls now s [.upsert .computeInstance (eventInstance ce data.instanceID data.tenantID "" ""
        data.state data.cores data.memoryGiB (startOf ce data.durationSeconds)),
      .insertMetering entries,.updateLastMetered .computeInstance data.instanceID ce.time] = .ok (t,ws))
    (he : (entries.filter (isUptime .computeInstance data.instanceID)).map storedInterval =
      [⟨startOf ce data.durationSeconds,ce.time,Numeric.stored 6 data.durationSeconds⟩])
    (hheld : (stage .computeInstance data.instanceID s.phase).held = false)
    (hstart : ∀ r, row .computeInstance data.instanceID s.store = some r →
      r.checkpoint ≤ startOf ce data.durationSeconds) :
    Ordered (view .computeInstance data.instanceID t) := by
  obtain ⟨p,s₁,rest,hf₁,hv,hr₁⟩ := runCalls_next hf hr
  have hv₁ : view .computeInstance data.instanceID s₁ =
      (view .computeInstance data.instanceID s).apply
        (.upsert ⟨startOf ce data.durationSeconds,none,none,data.state⟩) := by
    rw [hv,Call.written,effects,if_pos ⟨rfl,rfl⟩]
    rfl
  rw [metered_view hf₁ hr₁,hv₁,he]
  have hkept : (Row.upserted ⟨startOf ce data.durationSeconds,none,none,data.state⟩
      (view .computeInstance data.instanceID s).row).checkpoint ≤ startOf ce data.durationSeconds := by
    cases hrow : (view .computeInstance data.instanceID s).row with
    | none => exact le_refl _
    | some r => exact hstart r hrow
  refine (h.upsert _).heartbeat hheld rfl (hkept.trans (startOf_le ce hd)) (List.pairwise_singleton _ _) ?_
  intro i hi
  rw [List.mem_singleton.mp hi]
  exact ⟨hkept,le_refl _⟩

/-- The heartbeat of a cluster stores uptime for its control plane only, and moves
the checkpoint in any case. -/
theorem ordered_cluster {data : ClusterEventData} {entries : List MeteringEntry} {r : Row}
    (hf : Fresh s) (h : Ordered (view .cluster data.clusterID s)) (hd : 0 < data.durationSeconds)
    (hr : runCalls now s [.insertMetering entries,.updateLastMetered .cluster data.clusterID ce.time] =
      .ok (t,ws))
    (he : (entries.filter (isUptime .cluster data.clusterID)).map storedInterval =
      if data.hostType = "_control_plane" then
        [⟨startOf ce data.durationSeconds,ce.time,Numeric.stored 6 data.durationSeconds⟩]
      else [])
    (hheld : (stage .cluster data.clusterID s.phase).held = false)
    (hrow : row .cluster data.clusterID s.store = some r)
    (hstart : r.checkpoint ≤
      if data.hostType = "_control_plane" then startOf ce data.durationSeconds else ce.time) :
    Ordered (view .cluster data.clusterID t) := by
  have hle := startOf_le ce hd
  rw [metered_view hf hr,he]
  by_cases hhost : data.hostType = "_control_plane"
  · rw [if_pos hhost] at hstart ⊢
    refine h.heartbeat hheld hrow (hstart.trans hle) (List.pairwise_singleton _ _) fun i hi => ?_
    rw [List.mem_singleton.mp hi]
    exact ⟨hstart,le_refl _⟩
  · rw [if_neg hhost] at hstart ⊢
    exact h.heartbeat hheld hrow hstart .nil (by simp)

theorem ordered_event (hf : Fresh s) (h : Ordered (view k id s)) (ha : accepted env now ce = some calls)
    (hr : runCalls now s calls = .ok (t,ws)) (hl : timelyEvent env k id s ce = true) :
    Ordered (view k id t) := by
  cases handle_handled (accepted_handle ha) with
  | nothing => exact runCalls_mild hf hr (by simp) h
  | @computeInstance data ht hdata hs hd =>
    by_cases hk : .computeInstance = k ∧ data.instanceID = id
    · obtain ⟨rfl,rfl⟩ := hk
      obtain ⟨hheld,hstart⟩ := timely_computeInstance ht hdata hs hl
      exact ordered_computeInstance hf h hd hr
        (by simp [newEntry,isUptime,resourceType,uptimeMeter,storedInterval]) hheld hstart
    · refine runCalls_mild hf hr (List.forall_mem_cons.mpr ⟨mild_upsert _ _,mild_heartbeat hk ?_⟩) h
      simp [newEntry,resourceType]
  | @cluster data ht hdata hs hd =>
    by_cases hk : .cluster = k ∧ data.clusterID = id
    · obtain ⟨rfl,rfl⟩ := hk
      obtain ⟨hheld,r,hrow,hstart⟩ := timely_cluster ht hdata hs hl
      refine ordered_cluster hf h hd hr ?_ hheld hrow hstart
      by_cases hw : data.workerNodeSeconds > 0 <;> by_cases hhost : data.hostType = "_control_plane" <;>
        simp [newEntry,isUptime,resourceType,uptimeMeter,storedInterval,hw,hhost]
    · refine runCalls_mild hf hr (mild_heartbeat hk fun e he => ?_) h
      obtain ⟨-,htype,hcluster,-⟩ := clusterEntries_owner he
      exact ⟨htype,hcluster⟩
  | model ht hdata hid htenant =>
    exact runCalls_mild hf hr (List.forall_mem_cons.mpr ⟨mild_upsertModel _,mild_meterMaaSEvent _⟩) h
  | osacComputeInstance hv1 hmd ht =>
    exact runCalls_mild hf hr (List.forall_mem_singleton.mpr (mild_upsert _ _)) h
  | osacClusterOrder hv1 hmd ht =>
    exact runCalls_mild hf hr (List.forall_mem_singleton.mpr (mild_upsert _ _)) h
  | osacInference hv1 hmd ht =>
    exact runCalls_mild hf hr (List.forall_mem_cons.mpr ⟨mild_upsertModel _,mild_meterMaaSEvent _⟩) h
  | customMetric hv1 ht hdef hdata =>
    have htype := timely_customMetric hv1 ht hdef hl
    refine runCalls_mild hf hr (List.forall_mem_singleton.mpr (mild_meterForTenant fun projectID e he => ?_)) h
    rw [← (customEntries_owner he).1] at htype
    exact not_uptime_of_type htype

end Events

theorem ordered_step {env : Env δ} {k : Kind} {id : String} {s t : Metering.State} {l : Label}
    (hf : Fresh s) (h : Ordered (view k id s)) (hl : timely env k id s l = true)
    (hst : step env s l = some t) : Ordered (view k id t) := by
  have hm := (step_view env hf hst).2 k id
  have hseen := label_seen env k id s l
  generalize label env k id s l = r at hm hseen
  cases hseen with
  | upsert k' r now =>
    refine h.moves hm (fun es he => ?_) (by simp) (by simp)
    rw [← Resource.Label.write.inj he]
    exact (mild_upsert k' r now s.nextID "").ordered h
  | event ce now ws =>
    cases step_moves hst with
    | event ha hr => exact ordered_event hf h ha hr hl
  | delete d eventID now f => exact absurd ⟨rfl,rfl⟩ (of_decide_eq_true hl)
  | update failed =>
    have hu : failed = true → (view k id s).stage.pending = none := of_decide_eq_true hl
    exact h.moves hm (by simp) (by simp) (fun he => hu (by simpa using he))
  | restart => exact h.moves hm (by simp) (by simp) (fun _ => of_decide_eq_true hl)
  | _ => exact h.moves hm (by simp) (by simp) (by simp)

/-- In a run whose steps are all timely for a resource, its uptime intervals do not
overlap, whether heartbeats or sweeps stored them. -/
theorem uptime_disjoint {env : Env δ} {s : Metering.State} {k : Kind} {id : String}
    (h : Reachable (step env) initial (fun s l => timely env k id s l = true) s) :
    (uptime k id s.store).Pairwise (fun d e =>
      Disjoint (Set.Ico d.periodStart d.periodEnd) (Set.Ico e.periodStart e.periodEnd)) := by
  have hord : Ordered (view k id s) := by
    refine h.invariant_with (Q := fun s => Ordered (view k id s)) (fun s hs => reachable_fresh hs) ?_
      (fun s l t hf _ hq hl hst => ordered_step hf hq hl hst)
    intro s hs
    rw [(fresh_initial hs).2]
    exact ⟨.nil,by simp,by simp [Stage.held],by simp,by simp⟩
  have hpair := hord.pairwise
  rw [view,intervals,List.pairwise_map] at hpair
  refine hpair.imp fun {d e} hle => ?_
  rw [Set.disjoint_left]
  intro x hx hx'
  exact absurd (hx.2.trans_le hle) (not_lt_of_ge hx'.1)

def sweepOne (now : Int) : List Label :=
  [.meter (.sweep now),.meter (.list false false),.meter (.meter {}),.meter (.update false),
    .meter (.list false false),.meter (.list false false)]

def heartbeatVM (time now : Int) : Label := .event (sampleEvent eventTypeComputeInstance "vm" time) now

theorem heartbeats_between_sweeps :
    ∃ s, Reachable (step sampleEnv) initial
        (fun s l => timely sampleEnv .computeInstance "vm-1" s l = true) s ∧
      (uptime .computeInstance "vm-1" s.store).length = 4 ∧
      (uptime .computeInstance "vm-1" s.store).Pairwise (fun d e =>
        Disjoint (Set.Ico d.periodStart d.periodEnd) (Set.Ico e.periodStart e.periodEnd)) := by
  obtain ⟨s,hs,hlen⟩ := Reachable.exists_of_checked (step sampleEnv) initial
    (timely sampleEnv .computeInstance "vm-1") noResources
    (watchVM Osac.eventTypeCreated runningVM 0 ++ sweepOne (minutes 1) ++
      [heartbeatVM (minutes 2) (minutes 2),heartbeatVM (minutes 3) (minutes 3)] ++ sweepOne (minutes 4))
    (fun s => (uptime .computeInstance "vm-1" s.store).length = 4) (fun _ _ h => h)
    ⟨rfl,fun k => by cases k <;> rfl,rfl⟩ (by decide +kernel)
  exact ⟨s,hs,hlen,uptime_disjoint hs⟩

/-- The only heartbeat of an instance is received after a sweep that metered its
minute: it is stored again and takes the checkpoint back, and the next sweep stores
the rest of the hour again. -/
theorem late_heartbeat_overlaps :
    ∃ s, runLabels (step sampleEnv) noResources
        (watchVM Osac.eventTypeCreated runningVM 0 ++ sweepOne (minutes 60) ++
          [heartbeatVM (minutes 30) (minutes 61)] ++ sweepOne (minutes 62)) = some s ∧
      (uptime .computeInstance "vm-1" s.store).map (fun e => (e.periodStart,e.periodEnd)) =
        [(0,minutes 60),(minutes 29,minutes 30),(minutes 30,minutes 62)] := by
  decide +kernel

end CostConsumer.Service
