import CostConsumer.Ingest.Identity
set_option autoImplicit false

/-!
The values that ingestion stores. Most meters are stored only if they count
something; the counts of a compute instance's heartbeat are stored as they are.
-/

namespace CostConsumer.Ingest
open Inventory Foundation Metering

variable {δ : Type}

/-- The rows a statement adds to `metering_entries`. -/
def Write.stored : Write δ → List MeteringEntry
  | metering id entries => entries.mapIdx fun i e => (Store.meteringRow (id+i) e).toMeteringEntry
  | _ => []

def Block.stored (b : Block δ) : List MeteringEntry := b.writes.flatMap Write.stored

/-- The heartbeat of a billable instance reports no negative count. -/
def CountsUp (env : Env δ) (ce : CloudEvent) : Prop :=
  ce.type = eventTypeComputeInstance → ∀ data, env.decoder.computeInstance ce.data = some data →
    data.state ∈ billableStates .computeInstance → 0 ≤ data.cpuCoreSeconds ∧ 0 ≤ data.memoryGiBSeconds

def heartbeatEntries (ce : CloudEvent) (data : ComputeInstanceEventData) : List MeteringEntry :=
  let entry (meterName : String) (value : Rat) (unit : String) : MeteringEntry :=
    newEntry "compute_instance" data.instanceID data.tenantID "" "" meterName value unit
      (startOf ce data.durationSeconds) ce.time
  [entry "vm_uptime_seconds" data.durationSeconds "seconds",
    entry "vm_cpu_core_seconds" data.cpuCoreSeconds "core_seconds",
    entry "vm_memory_gib_seconds" data.memoryGiBSeconds "gib_seconds"]

section Producers
variable {env : Env δ} {ce : CloudEvent} {calls : List Call} {projectID : String}

theorem maasMeters_pos {usage : MaaSUsage} {periodStart periodEnd : Int} {e : MeteringEntry}
    (he : e ∈ maasMeters usage projectID periodStart periodEnd) : 0 < e.value := by
  have hif {value : Int} {d : MeteringEntry} (hd : d.value = value)
      (he : e ∈ if value > 0 then [d] else []) : 0 < e.value := by
    split at he
    · rename_i hpos
      rw [List.mem_singleton.mp he,hd]
      exact_mod_cast hpos
    · cases he
  simp only [maasMeters,List.mem_append] at he
  rcases he with (he | he) | he
  · exact hif rfl he
  · exact hif rfl he
  · exact hif rfl he

theorem meterMaaSEvent_pos {usage : MaaSUsage} {c : Call} (hc : c ∈ meterMaaSEvent usage)
    {e : MeteringEntry} (he : e ∈ c.entries projectID) : 0 < e.value := by
  unfold meterMaaSEvent at hc
  split at hc
  · rw [List.mem_singleton.mp hc] at he
    exact maasMeters_pos he
  · cases hc

theorem computeInstance_calls {data : ComputeInstanceEventData} (ht : ce.type = eventTypeComputeInstance)
    (hdata : env.decoder.computeInstance ce.data = some data) (hh : env.handle ce = .ok calls) :
    data.state ∉ billableStates .computeInstance ∧ calls = [] ∨
      data.state ∈ billableStates .computeInstance ∧ calls =
        [.upsert .computeInstance (eventInstance ce data.instanceID data.tenantID "" "" data.state
            data.cores data.memoryGiB (startOf ce data.durationSeconds)),
          .insertMetering (heartbeatEntries ce data),
          .updateLastMetered .computeInstance data.instanceID ce.time] := by
  rw [handle_computeInstance env ht,processComputeInstanceEvent,hdata] at hh
  dsimp only at hh
  split at hh
  · rename_i hs
    cases hh
    exact .inl ⟨hs,rfl⟩
  · rename_i hs
    split at hh
    · cases hh
    · cases hh
      exact .inr ⟨not_not.mp hs,rfl⟩

theorem Handled.nonneg (h : Handled env ce calls) (hce : CountsUp env ce) {c : Call} (hc : c ∈ calls)
    {e : MeteringEntry} (he : e ∈ c.entries projectID) : 0 ≤ e.value := by
  cases h with
  | nothing => cases hc
  | @computeInstance data ht hdata hs hd =>
    obtain ⟨hcores,hmemory⟩ := hce ht data hdata hs
    simp only [List.mem_cons,List.not_mem_nil,or_false] at hc
    rcases hc with rfl | rfl | rfl
    · cases he
    · simp only [Call.entries,List.mem_cons,List.not_mem_nil,or_false] at he
      rcases he with rfl | rfl | rfl
      · exact hd.le
      · exact Int.cast_nonneg hcores
      · exact Int.cast_nonneg hmemory
    · cases he
  | @cluster data ht hdata hs hd =>
    simp only [List.mem_cons,List.not_mem_nil,or_false] at hc
    rcases hc with rfl | rfl
    · simp only [Call.entries,List.mem_append,List.mem_ite_nil_right,List.mem_singleton] at he
      rcases he with ⟨-,rfl⟩ | ⟨hworker,rfl⟩
      · exact hd.le
      · exact Int.cast_nonneg (le_of_lt hworker)
    · cases he
  | model ht hdata hid htenant =>
    rcases List.mem_cons.mp hc with rfl | hc
    · cases he
    · exact (meterMaaSEvent_pos hc he).le
  | osacComputeInstance hv1 hmd ht =>
    rw [List.mem_singleton.mp hc] at he
    cases he
  | osacClusterOrder hv1 hmd ht =>
    rw [List.mem_singleton.mp hc] at he
    cases he
  | osacInference hv1 hmd ht =>
    rcases List.mem_cons.mp hc with rfl | hc
    · cases he
    · exact (meterMaaSEvent_pos hc he).le
  | customMetric hv1 ht hdef hdata =>
    rw [List.mem_singleton.mp hc] at he
    obtain ⟨m,-,hm⟩ := List.mem_filterMap.mp he
    obtain ⟨value,-,hm⟩ := Option.bind_eq_some_iff.mp hm
    split at hm
    · cases hm
    · rename_i hpos
      cases hm
      exact (not_le.mp hpos).le

end Producers

section Blocks
variable {env : Env δ} {now : Int} {b : Block δ} {calls : List Call}

theorem Call.stored_written (c : Call) (id : Nat) (projectID : String) :
    (c.written now id projectID : Write δ).stored = (c.entries projectID).mapIdx
      fun i e => (Store.meteringRow (id+i) e).toMeteringEntry := by
  cases c <;> rfl

theorem Block.Complete.stored_from (h : b.Complete env now) (hh : env.handle b.event = .ok calls)
    {e : MeteringEntry} (he : e ∈ b.stored) :
    ∃ c ∈ calls, ∃ projectID, ∃ d ∈ c.entries projectID, e.value = Numeric.stored 6 d.value := by
  obtain ⟨calls',ws,hh',hws,hp⟩ := h.calls
  cases hh.symm.trans hh'
  rw [Block.stored,hws] at he
  obtain ⟨w,hw,he⟩ := List.mem_flatMap.mp he
  rcases List.mem_cons.mp hw with rfl | hw
  · cases he
  · obtain ⟨c,hc,id,projectID,rfl⟩ := hp.written.1 w hw
    rw [Call.stored_written] at he
    obtain ⟨i,hi,rfl⟩ := List.mem_mapIdx.mp he
    rcases List.mem_cons.mp hc with rfl | hc
    · cases hi
    · exact ⟨c,hc,projectID,_,List.getElem_mem hi,rfl⟩

theorem Block.Complete.stored_to (h : b.Complete env now) (hh : env.handle b.event = .ok calls)
    {entries : List MeteringEntry} (hc : .insertMetering entries ∈ calls) {d : MeteringEntry}
    (hd : d ∈ entries) : ∃ e ∈ b.stored, e.value = Numeric.stored 6 d.value := by
  obtain ⟨calls',ws,hh',hws,hp⟩ := h.calls
  cases hh.symm.trans hh'
  rcases hp.written.2 _ (List.mem_cons_of_mem _ hc) with ⟨id,projectID,hw⟩ | ⟨k,resourceID,t,he⟩
  · obtain ⟨i,hi,rfl⟩ := List.mem_iff_getElem.mp hd
    refine ⟨(Store.meteringRow (id+i) entries[i]).toMeteringEntry,?_,rfl⟩
    refine List.mem_flatMap.mpr ⟨_,hws ▸ List.mem_cons_of_mem _ hw,?_⟩
    exact List.mem_mapIdx.mpr ⟨i,hi,rfl⟩
  · cases he

theorem Block.Complete.countsUp (h : b.Complete env now) (hpos : ∀ e ∈ b.stored, 0 ≤ e.value) :
    CountsUp env b.event := by
  intro ht data hdata hs
  obtain ⟨calls,-,hh,-,-⟩ := h.calls
  rcases computeInstance_calls ht hdata hh with ⟨hno,-⟩ | ⟨-,rfl⟩
  · exact absurd hs hno
  have hcount {n : Int} {d : MeteringEntry} (hd : d ∈ heartbeatEntries b.event data) (hn : d.value = n) :
      0 ≤ n := by
    obtain ⟨e,he,hv⟩ := h.stored_to hh (List.mem_cons_of_mem _ List.mem_cons_self) hd
    have hle := hpos e he
    rw [hv,hn,Numeric.stored_intCast] at hle
    exact_mod_cast hle
  exact ⟨hcount (List.mem_cons_of_mem _ List.mem_cons_self) rfl,
    hcount (List.mem_cons_of_mem _ (List.mem_cons_of_mem _ List.mem_cons_self)) rfl⟩

theorem CountsUp.stored_nonneg (hce : CountsUp env b.event) (h : b.Complete env now)
    {e : MeteringEntry} (he : e ∈ b.stored) : 0 ≤ e.value := by
  obtain ⟨calls,-,hh,-,-⟩ := h.calls
  obtain ⟨c,hc,projectID,d,hd,hv⟩ := h.stored_from hh he
  rw [hv]
  exact Numeric.Column.stored_nonneg ((handle_handled hh).nonneg hce hc hd)

end Blocks

/-- Whatever requests ingestion has committed, an event has stored no negative value
if and only if it is not a heartbeat with a negative count. -/
theorem usage_nonneg_iff [DecidableEq δ] {env : Env δ} {base : Database δ} {s : State δ}
    (h : Reachable (step env) (initial base) anyStep s) {n : Nat} {tx : Tx δ}
    (hc : (n,tx) ∈ s.sessions.commits) {b : Block δ} (hb : b ∈ tx.blocks) :
    (∀ e ∈ b.stored, 0 ≤ e.value) ↔ CountsUp env b.event := by
  have hcomplete := (reachable_ingested h).complete tx (List.mem_map.mpr ⟨(n,tx),hc,rfl⟩) b hb
  exact ⟨hcomplete.countsUp,fun hce e he => hce.stored_nonneg hcomplete he⟩

def countJson (data : String) : Option Document :=
  some (.object [("tenant_id",.text "acme"),("instance_id",.text "vm-1"),("state",.text "RUNNING"),
    ("duration_seconds",.number "60"),("cpu_core_seconds",.number data),
    ("memory_gib_seconds",.number "240"),("cores",.number "2"),("memory_gib",.number "4")])

def countEnv : Env CloudEvent :=
  { heartbeatEnv with parseFloat := fun literal => (parseInt literal).map fun n => n }.withJson
    countJson fun _ => ""

theorem heartbeat_counts_up :
    ∃ s, Reachable (step countEnv) (initial {}) anyStep s ∧
      ∃ c ∈ s.sessions.commits, ∃ b ∈ c.2.blocks, b.event = jsonHeartbeat "120" ∧
        ∀ e ∈ b.stored, 0 ≤ e.value := by
  obtain ⟨s,hs,c,hc,b,hb,he⟩ := Reachable.exists_of_run (step countEnv) (initial {}) emptyState
    (committedHeartbeat "120")
    (fun s => ∃ c ∈ s.sessions.commits, ∃ b ∈ c.2.blocks, b.event = jsonHeartbeat "120")
    ⟨rfl,rfl,rfl,rfl⟩ (by decide +kernel)
  have hcounts : (countEnv.decoder.computeInstance (jsonHeartbeat "120").data).all
      (fun data => 0 ≤ data.cpuCoreSeconds ∧ 0 ≤ data.memoryGiBSeconds) = true := by decide +kernel
  refine ⟨s,hs,c,hc,b,hb,he,(usage_nonneg_iff hs hc hb).mpr fun ht data hdata _ => ?_⟩
  rw [← he,hdata] at hcounts
  exact of_decide_eq_true hcounts

theorem negative_usage_stored :
    ∃ s, Reachable (step countEnv) (initial {}) anyStep s ∧
      s.responses.map (·.error) = [none] ∧ s.db.entries.map (·.value) = [60,-7200,240] ∧
      ∃ c ∈ s.sessions.commits, ∃ b ∈ c.2.blocks, ∃ e ∈ b.stored, e.value < 0 :=
  Reachable.exists_of_run (step countEnv) (initial {}) emptyState (committedHeartbeat "-7200") _
    ⟨rfl,rfl,rfl,rfl⟩ (by decide +kernel)

end CostConsumer.Ingest
