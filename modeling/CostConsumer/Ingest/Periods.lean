import CostConsumer.Ingest.Process
import Mathlib.Algebra.Order.Floor.Ring
import Mathlib.Data.Rat.Floor
set_option autoImplicit false

/-!
The period of an entry that an inference or a custom metric makes. The declared duration is cut
to whole seconds before it is multiplied, in 64 bits.
-/

namespace CostConsumer.Ingest
open Inventory Foundation Metering

variable {δ : Type}

def nanos (seconds : Rat) : Int := ⌊seconds*GoTime.nanosPerSecond⌋

def WholeSeconds (seconds : Rat) : Prop :=
  nanos seconds % GoTime.nanosPerSecond = 0 ∧ nanos seconds ≤ GoTime.maxDuration

theorem duration_eq {q : Rat} (h : 0 ≤ q) :
    GoTime.duration q = if ⌊q⌋ ≤ GoTime.maxDuration then ⌊q⌋ else GoTime.minDuration := by
  have hfloor : q.num.tdiv q.den = ⌊q⌋ := by
    rw [Rat.floor_def',Int.tdiv_eq_ediv_of_nonneg (Rat.num_nonneg.mpr h)]
  have hpos : 0 ≤ ⌊q⌋ := Int.floor_nonneg.mpr h
  unfold GoTime.duration
  rw [hfloor]
  refine if_congr ⟨fun hr => hr.2,fun hr => ⟨?_,hr⟩⟩ rfl rfl
  unfold GoTime.minDuration
  omega

theorem nanos_bounds (q : Rat) :
    ⌊q⌋*GoTime.nanosPerSecond ≤ nanos q ∧ nanos q < (⌊q⌋+1)*GoTime.nanosPerSecond := by
  have hpos : (0 : Rat) < GoTime.nanosPerSecond := by norm_num [GoTime.nanosPerSecond]
  constructor
  · refine Int.le_floor.mpr ?_
    push_cast
    exact mul_le_mul_of_nonneg_right (Int.floor_le q) hpos.le
  · refine Int.floor_lt.mpr ?_
    push_cast
    exact mul_lt_mul_of_pos_right (Int.lt_floor_add_one q) hpos

theorem back_eq_iff {q : Rat} (h : 0 < q) :
    -GoTime.wrap (-GoTime.duration q*GoTime.nanosPerSecond) = nanos q ↔ WholeSeconds q := by
  obtain ⟨hlow,hhigh⟩ := nanos_bounds q
  have hpos : 0 ≤ ⌊q⌋ := Int.floor_nonneg.mpr h.le
  have hb := GoTime.wrap_bounds (-⌊q⌋*GoTime.nanosPerSecond)
  unfold WholeSeconds
  rw [duration_eq h.le]
  split
  · by_cases hfit : ⌊q⌋*GoTime.nanosPerSecond ≤ GoTime.maxDuration
    · rw [GoTime.wrap_of_bounds]
      · unfold GoTime.nanosPerSecond GoTime.maxDuration at *
        omega
      · unfold GoTime.nanosPerSecond GoTime.maxDuration GoTime.minDuration at *
        omega
      · unfold GoTime.nanosPerSecond GoTime.maxDuration at *
        omega
    · unfold GoTime.nanosPerSecond GoTime.maxDuration GoTime.minDuration at *
      omega
  · rename_i hbig
    have hzero : GoTime.wrap (-GoTime.minDuration*GoTime.nanosPerSecond) = 0 := by decide
    rw [hzero]
    unfold GoTime.nanosPerSecond GoTime.maxDuration at *
    omega

def Env.declaredDuration (env : Env δ) (ce : CloudEvent) : Option Rat :=
  if ce.type = eventTypeModel ∨ ce.type = eventTypeInferenceTokens then
    (env.decoder.model ce.data).map fun data =>
      if data.durationMs > 0 ∧ data.durationSeconds = 0 then data.durationMs/1000 else data.durationSeconds
  else (env.object ce.data).bind fun data => (extractField data "duration_seconds").bind env.toFloat64

def Call.tenantEntries (projectID : String) : Call → List MeteringEntry
  | .meterForTenant _ entries => entries projectID
  | _ => []

def meteredEntries (projectID : String) (calls : List Call) : List MeteringEntry :=
  calls.flatMap (Call.tenantEntries projectID)

theorem mem_meteredEntries {projectID : String} {calls : List Call} {e : MeteringEntry}
    (h : e ∈ meteredEntries projectID calls) :
    ∃ tenantID entries, .meterForTenant tenantID entries ∈ calls ∧ e ∈ entries projectID := by
  obtain ⟨c,hc,he⟩ := List.mem_flatMap.mp h
  cases c with
  | meterForTenant tenantID entries => exact ⟨tenantID,entries,hc,he⟩
  | _ => cases he

theorem maasMeters_period {usage : MaaSUsage} {projectID : String} {periodStart periodEnd : Int}
    {e : MeteringEntry} (h : e ∈ maasMeters usage projectID periodStart periodEnd) :
    e.periodStart = periodStart ∧ e.periodEnd = periodEnd := by
  simp only [maasMeters,List.mem_append,List.mem_ite_nil_right,List.mem_singleton] at h
  rcases h with (⟨-,rfl⟩ | ⟨-,rfl⟩) | ⟨-,rfl⟩ <;> exact ⟨rfl,rfl⟩

section Periods
variable {env : Env δ} {ce : CloudEvent} {calls : List Call} {tenantID projectID : String}
  {entries : String → List MeteringEntry} {e : MeteringEntry} {q : Rat}

theorem meterMaaSEvent_period {usage : MaaSUsage} (hc : .meterForTenant tenantID entries ∈ meterMaaSEvent usage)
    (he : e ∈ entries projectID) :
    e.periodStart = usage.eventTime +
        GoTime.wrap (-GoTime.duration usage.durationSeconds*GoTime.nanosPerSecond) ∧
      e.periodEnd = usage.eventTime := by
  unfold meterMaaSEvent at hc
  split at hc
  · cases List.mem_singleton.mp hc
    exact maasMeters_period he
  · cases hc

theorem processModelEvent_period (h : processModelEvent env.decoder ce = .ok calls)
    (hc : .meterForTenant tenantID entries ∈ calls) (he : e ∈ entries projectID)
    (ht : ce.type = eventTypeModel ∨ ce.type = eventTypeInferenceTokens)
    (hq : env.declaredDuration ce = some q) :
    e.periodStart = ce.time + GoTime.wrap (-GoTime.duration q*GoTime.nanosPerSecond) ∧
      e.periodEnd = ce.time := by
  unfold processModelEvent at h
  rw [Env.declaredDuration,if_pos ht] at hq
  split at h
  · cases h
  · rename_i data hdata
    rw [hdata,Option.map_some,Option.some.injEq] at hq
    dsimp only at h
    split at h
    · cases h
    · cases h
      have hmeter := (List.mem_cons.mp hc).resolve_left (by simp)
      rw [← hq]
      exact meterMaaSEvent_period hmeter he

theorem processOSACResourceEvent_unmetered (h : processOSACResourceEvent env.decoder ce = .ok calls) :
    .meterForTenant tenantID entries ∉ calls := by
  unfold processOSACResourceEvent at h
  split at h
  · cases h
  · split_ifs at h <;> cases h
    · simp [processOSACComputeInstance]
    · simp [processOSACClusterOrder]
    · simp [processOSACInference,meterMaaSEvent,isModelBillable]
    · simp

theorem processComputeInstanceEvent_unmetered (h : processComputeInstanceEvent env.decoder ce = .ok calls) :
    .meterForTenant tenantID entries ∉ calls := by
  unfold processComputeInstanceEvent at h
  split at h
  · cases h
  · split_ifs at h <;> cases h <;> simp

theorem processClusterEvent_unmetered (h : processClusterEvent env.decoder ce = .ok calls) :
    .meterForTenant tenantID entries ∉ calls := by
  unfold processClusterEvent at h
  split at h
  · cases h
  · split_ifs at h <;> cases h <;> simp

theorem processCustomMetric_period {d : MetricDef} (h : env.processCustomMetric d ce = .ok calls)
    (hc : .meterForTenant tenantID entries ∈ calls) (he : e ∈ entries projectID)
    (ht : ¬ (ce.type = eventTypeModel ∨ ce.type = eventTypeInferenceTokens))
    (hq : env.declaredDuration ce = some q) (hpos : 0 < q) :
    e.periodStart = ce.time + GoTime.wrap (-GoTime.duration q*GoTime.nanosPerSecond) ∧
      e.periodEnd = ce.time := by
  unfold Env.processCustomMetric at h
  rw [Env.declaredDuration,if_neg ht] at hq
  split at h
  · cases h
  · rename_i data hdata
    rw [hdata,Option.bind_some] at hq
    simp only [hq,gt_iff_lt,hpos,if_true] at h
    cases h
    cases List.mem_singleton.mp hc
    obtain ⟨m,-,hm⟩ := List.mem_filterMap.mp he
    obtain ⟨value,-,hm⟩ := Option.bind_eq_some_iff.mp hm
    split at hm
    · cases hm
    · cases hm
      exact ⟨rfl,rfl⟩

theorem handle_period (h : env.handle ce = .ok calls) (hc : .meterForTenant tenantID entries ∈ calls)
    (he : e ∈ entries projectID) (hq : env.declaredDuration ce = some q) (hpos : 0 < q) :
    e.periodStart = ce.time + GoTime.wrap (-GoTime.duration q*GoTime.nanosPerSecond) ∧
      e.periodEnd = ce.time := by
  unfold Env.handle at h
  split_ifs at h with hv1 hvm hcl hmodel
  · exact absurd hc (processOSACResourceEvent_unmetered h)
  · exact absurd hc (processComputeInstanceEvent_unmetered h)
  · exact absurd hc (processClusterEvent_unmetered h)
  · exact processModelEvent_period h hc he hmodel hq
  · split at h
    · exact processCustomMetric_period h hc he hmodel hq hpos
    · cases h
      cases hc

/-- The entries of an accepted inference or custom metric end at the event and have the declared
length if and only if that is a whole number of seconds that fits a duration. -/
theorem metered_period_iff (h : env.handle ce = .ok calls) (he : e ∈ meteredEntries projectID calls)
    (hq : env.declaredDuration ce = some q) (hpos : 0 < q) :
    (e.periodEnd = ce.time ∧ e.periodEnd - e.periodStart = nanos q ∧ e.periodStart ≤ e.periodEnd) ↔
      WholeSeconds q := by
  obtain ⟨tenantID,entries,hc,he⟩ := mem_meteredEntries he
  obtain ⟨hstart,hend⟩ := handle_period h hc he hq hpos
  have hn : 0 ≤ nanos q :=
    Int.floor_nonneg.mpr (mul_nonneg hpos.le (by norm_num [GoTime.nanosPerSecond]))
  rw [← back_eq_iff hpos]
  constructor
  · rintro ⟨-,hlen,-⟩
    omega
  · intro hlen
    exact ⟨hend,by omega,by omega⟩

end Periods

section Samples

def tenTokens (seconds : Rat) (ms : Int) : MaaSEventData :=
  ⟨"acme","m","m","","",10,0,0,seconds,0,"","","","","",0,0,ms⟩

def durationEnv : Env CloudEvent where
  decoder :=
    { peek := fun _ => some ⟨"acme","","","","m",""⟩
      meteringData := fun _ => none
      computeInstance := fun _ => none
      cluster := fun _ => none
      model := fun data =>
        if data = "90 s" then some (tenTokens 90 0)
        else if data = "1500 ms" then some (tenTokens 0 1500)
        else if data = "292 years" then some (tenTokens 9223372037 0)
        else none
      vmInstanceType := fun _ => none
      clusterTemplate := fun _ => ""
      maasDimensions := fun _ => ⟨"","",0,0,0⟩ }
  customMetrics := [⟨"gpu","gpu","id","tenant",[⟨"gpu_seconds","used","seconds"⟩]⟩]
  object := fun _ => some [("id",.string "g"),("tenant",.string "acme"),("used",.number 3),
    ("duration_seconds",.number (5/2))]
  format := fun _ => ""
  parseFloat := fun _ => none
  digest := id
  digest_injective := Function.injective_id

def usageEvent (type data : String) : CloudEvent :=
  ⟨"1.0",type,"gateway","e-1",GoTime.date 2026 2 1,"","",data,"","","","",""⟩

def durationCalls (type data : String) : List Call :=
  ((durationEnv.handle (usageEvent type data)).toOption).getD []

def accepted (type data : String) : Bool :=
  (validateCloudEvent durationEnv.decoder durationEnv.identify (GoTime.date 2026 2 1)
    (usageEvent type data)).isOk

def periodOf (type data : String) : List (Int × Int) :=
  (meteredEntries "" (durationCalls type data)).map (fun e => (e.periodEnd,e.periodEnd - e.periodStart))

theorem metered_period_of_minutes :
    accepted eventTypeModel "90 s" ∧ ∃ calls, durationEnv.handle (usageEvent eventTypeModel "90 s") = .ok calls ∧
      ∃ e ∈ meteredEntries "" calls, e.periodEnd = GoTime.date 2026 2 1 ∧
        e.periodEnd - e.periodStart = nanos 90 ∧ e.periodStart ≤ e.periodEnd := by
  have hok : durationEnv.handle (usageEvent eventTypeModel "90 s") =
      .ok (durationCalls eventTypeModel "90 s") := rfl
  obtain ⟨e,he⟩ := List.exists_mem_of_ne_nil (meteredEntries "" (durationCalls eventTypeModel "90 s"))
    (by decide +kernel)
  exact ⟨by decide +kernel,_,hok,e,he,(metered_period_iff hok he (q := 90) rfl (by decide)).mpr (by
    constructor <;> decide +kernel)⟩

/-- A second and a half is metered as one second, two and a half as two, and after 292 years
an interval starts past its end. -/
theorem metered_period_cut :
    accepted eventTypeModel "1500 ms" ∧ accepted "gpu" "2.5 s" ∧ accepted eventTypeModel "292 years" ∧
    durationEnv.declaredDuration (usageEvent eventTypeModel "1500 ms") = some (3/2) ∧
    periodOf eventTypeModel "1500 ms" = [(GoTime.date 2026 2 1,1000000000)] ∧
    durationEnv.declaredDuration (usageEvent "gpu" "2.5 s") = some (5/2) ∧
    periodOf "gpu" "2.5 s" = [(GoTime.date 2026 2 1,2000000000)] ∧
    durationEnv.declaredDuration (usageEvent eventTypeModel "292 years") = some 9223372037 ∧
    periodOf eventTypeModel "292 years" = [(GoTime.date 2026 2 1,-9223372036709551616)] := by
  decide +kernel

end Samples

end CostConsumer.Ingest
