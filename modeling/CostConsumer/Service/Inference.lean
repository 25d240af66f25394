import CostConsumer.Metering.Coverage
import CostConsumer.Service.View
set_option autoImplicit false

/-!
Inferences are reported in three formats that meet in one metering function. The
gateway's format and the mock format lead to equal entries; the usage of a v1 event
has no state and is never metered.
-/

namespace CostConsumer.Service
open Inventory Foundation Metering Ingest

variable {δ : Type}

structure Report where
  tenantID : String
  modelID : String
  promptTokens : Int
  completionTokens : Int
  requests : Int
  deriving DecidableEq, Repr

/-- The gateway's count takes precedence, that of the mock format is the fallback. -/
def reportedTokens (gateway mock : Int) : Int := if gateway > 0 then gateway else mock

def legacyReport (data : MaaSEventData) : Report :=
  ⟨modelTenant data,firstText [data.modelID,data.model],
    reportedTokens data.promptTokens data.tokensIn,
    reportedTokens data.completionTokens data.tokensOut,
    if data.requests > 0 then data.requests else if data.requestCount > 0 then data.requestCount else 1⟩

def usageReport (dec : Decoder) (md : MeteringData) : Report :=
  let bd := dec.maasDimensions md.billingDimensions
  ⟨firstText [md.tenantID,bd.organizationID],firstText [bd.model,md.resourceID],bd.promptTokens,
    bd.completionTokens,1⟩

def modelState (data : MaaSEventData) : String := firstText [data.state,"MODEL_STATE_RUNNING"]

inductive Reports (env : Env δ) (ce : CloudEvent) : Report → Prop
  | tokensUsed {data : MaaSEventData} (ht : ce.type = eventTypeInferenceTokens)
      (hdata : env.decoder.model ce.data = some data) : Reports env ce (legacyReport data)
  | lifecycle {data : MaaSEventData} (ht : ce.type = eventTypeModel)
      (hdata : env.decoder.model ce.data = some data) (hs : isModelBillable (modelState data) = true) :
      Reports env ce (legacyReport data)
  | usage {md : MeteringData} (ht : ce.type = eventTypeInferenceUsage)
      (hmd : env.decoder.meteringData ce.data = some md) (hr : md.resourceType = "maas_inference") :
      Reports env ce (usageReport env.decoder md)

def added (s t : Metering.State) : List MeteringEntry := t.store.entries.drop s.store.entries.length

def Single (meterName : String) (value : Int) (u : Report) (es : List MeteringEntry) : Prop :=
  ∃ e, es.filter (fun e => e.meterName = meterName) = [e] ∧ e.resourceType = "model" ∧
    e.tenantID = u.tenantID ∧ e.resourceID = u.modelID ∧ e.value = value

def Conserved (u : Report) (es : List MeteringEntry) : Prop :=
  Single "maas_tokens_in" u.promptTokens u es ∧ Single "maas_tokens_out" u.completionTokens u es

def anonymous (e : MeteringEntry) : MeteringEntry :=
  { e with id := 0, userID := "", periodStart := 0, periodEnd := 0 }

/-- The counts of the two formats do not contradict each other. -/
def agree (gateway mock : Int) : Bool := gateway ≤ 0 || mock = 0 || mock = gateway

/-- An event of the gateway's or the mock format whose state is absent or billable and
whose token counts do not contradict each other. -/
def plainUsage (env : Env δ) (ce : CloudEvent) : Bool :=
  ce.type ≠ eventTypeInferenceUsage && (env.decoder.model ce.data).any fun data =>
    isModelBillable (modelState data) && agree data.promptTokens data.tokensIn &&
      agree data.completionTokens data.tokensOut

def counted (env : Env δ) (ce : CloudEvent) : Bool :=
  (env.decoder.model ce.data).any fun data =>
    data.requests > 0 || data.requests = 0 && data.requestCount > 0

/-- The entry of a meter, if it counts something, without user and period. -/
def line (u : Report) (projectID meterName : String) (value : Int) (unit : String) :
    List MeteringEntry :=
  if value > 0 then [newEntry "model" u.modelID u.tenantID projectID "" meterName value unit 0 0] else []

def lines (u : Report) (projectID : String) (tokensIn tokensOut requests : Int) : List MeteringEntry :=
  line u projectID "maas_tokens_in" tokensIn "tokens" ++
    line u projectID "maas_tokens_out" tokensOut "tokens" ++
    line u projectID "maas_requests" requests "requests"

section Lines
variable {u : Report} {projectID : String} {a b r : Int}

theorem single_anonymous {meterName : String} {value : Int} {es : List MeteringEntry} :
    Single meterName value u (es.map anonymous) ↔ Single meterName value u es := by
  have hcomp : (fun e : MeteringEntry => decide (e.meterName = meterName)) ∘ anonymous =
      fun e => decide (e.meterName = meterName) := rfl
  unfold Single
  rw [List.filter_map,hcomp]
  constructor
  · rintro ⟨e,he,hrest⟩
    obtain ⟨d,hd,rfl⟩ := List.map_eq_singleton_iff.mp he
    exact ⟨d,hd,hrest⟩
  · rintro ⟨e,he,hrest⟩
    exact ⟨anonymous e,by rw [he,List.map_singleton],hrest⟩

theorem conserved_anonymous {es : List MeteringEntry} :
    Conserved u (es.map anonymous) ↔ Conserved u es :=
  and_congr single_anonymous single_anonymous

theorem filter_line (meterName name : String) (value : Int) (unit : String) :
    (line u projectID name value unit).filter (fun e => e.meterName = meterName) =
      if name = meterName then line u projectID name value unit else [] := by
  unfold line
  by_cases hv : value > 0
  · by_cases hn : name = meterName <;> simp [hv,hn,newEntry]
  · simp [hv]

theorem single_iff {es : List MeteringEntry} {meterName unit : String} {n : Int} (hn : 0 < n)
    (h : es.filter (fun e => e.meterName = meterName) = line u projectID meterName a unit) :
    Single meterName n u es ↔ a = n := by
  unfold Single
  rw [h,line]
  split
  · simp [newEntry]
  · rename_i ha
    simp only [List.nil_eq,List.cons_ne_self,false_and,exists_false,false_iff]
    omega

theorem conserved_lines (hp : 0 < u.promptTokens) (hc : 0 < u.completionTokens) :
    Conserved u (lines u projectID a b r) ↔ a = u.promptTokens ∧ b = u.completionTokens := by
  have hin : (lines u projectID a b r).filter (fun e => e.meterName = "maas_tokens_in") =
      line u projectID "maas_tokens_in" a "tokens" := by simp [lines,filter_line]
  have hout : (lines u projectID a b r).filter (fun e => e.meterName = "maas_tokens_out") =
      line u projectID "maas_tokens_out" b "tokens" := by simp [lines,filter_line]
  exact and_congr (single_iff hp hin) (single_iff hc hout)

theorem lines_requests {r' : Int} :
    lines u projectID a b r = lines u projectID a b r' ↔ (0 < r ∨ 0 < r' → r = r') := by
  unfold lines
  rw [List.append_cancel_left_eq]
  unfold line
  split
  · split
    · rename_i h h'
      simp [newEntry,h]
    · simp
      omega
  · split
    · simp
      omega
    · simp
      omega

end Lines

section Events
variable {env : Env δ} {s t : Metering.State} {ce : CloudEvent} {now : Int}

theorem map_rows {β : Type} {f : MeteringEntry → β} (hf : ∀ e n, f { e with id := n } = f e)
    (es : List MeteringEntry) (n : Nat) :
    (es.mapIdx (fun i e => (Store.meteringRow (n+i) e).toMeteringEntry)).map f =
      es.map (fun e => f { e with value := Numeric.stored 6 e.value }) := by
  induction es generalizing n with
  | nil => rfl
  | cons e es ih =>
    rw [Store.rows_cons,List.map_cons,List.map_cons,ih]
    exact congrArg (· :: _) (hf { e with value := Numeric.stored 6 e.value } n)

theorem maasMeters_anonymous (usage : MaaSUsage) (projectID : String) (start stop : Int) (n : Nat)
    {u : Report} (htenant : usage.tenantID = u.tenantID) (hid : usage.modelID = u.modelID) :
    ((maasMeters usage projectID start stop).mapIdx
        (fun i e => (Store.meteringRow (n+i) e).toMeteringEntry)).map anonymous =
      lines u projectID usage.tokensIn usage.tokensOut usage.requests := by
  have hline {meterName unit : String} {value : Int} :
      (if value > 0 then [{ newEntry "model" usage.modelID usage.tenantID projectID "" meterName value unit
          start stop with userID := usage.userID }] else []).map
        (fun e => anonymous { e with value := Numeric.stored 6 e.value }) =
      line u projectID meterName value unit := by
    unfold line
    split
    · simp [anonymous,newEntry,Numeric.stored_intCast,htenant,hid]
    · rfl
  rw [map_rows fun _ _ => rfl,maasMeters,List.map_append,List.map_append,hline,hline,hline]
  rfl

def projectOf (s : Metering.State) (tenantID : String) : String :=
  (resolveProject s.store false s.projectCache "" tenantID).1

theorem added_inference (hf : Fresh s) {r : ModelRecord} {usage : MaaSUsage} {ws : List (Write Unit)}
    {u : Report} (htenant : usage.tenantID = u.tenantID) (hid : usage.modelID = u.modelID)
    (hr : runCalls now s (.upsertModel r :: meterMaaSEvent usage) = .ok (t,ws)) :
    (added s t).map anonymous = if isModelBillable usage.state then
      lines u (projectOf s u.tenantID) usage.tokensIn usage.tokensOut usage.requests else [] := by
  unfold meterMaaSEvent at hr
  split at hr
  · rename_i hb
    rw [if_pos hb]
    obtain ⟨w,rest,hw,-,hr⟩ := runCalls_first hr
    cases hw
    obtain ⟨w,rest,hw,-,hr⟩ := runCalls_first hr
    cases hr
    rcases Call.write_ok hw with rfl | ⟨-,k,id,time,he,-⟩
    · have hentries := (Store.entries_addMetering (s := s.store.upsertModel now r)
        (maasMeters usage (projectOf s usage.tenantID)
          (usage.eventTime + GoTime.wrap (-GoTime.duration usage.durationSeconds*GoTime.nanosPerSecond))
          usage.eventTime) hf.ids).1
      rw [← htenant,← maasMeters_anonymous usage (projectOf s usage.tenantID) _ _ s.nextID htenant hid]
      congr 1
      exact (congrArg (List.drop s.store.entries.length) hentries).trans List.drop_left
    · cases he
  · rename_i hb
    rw [if_neg hb]
    cases hr
    simp [added,Write.apply,Store.entries,Store.upsertModel]

theorem not_conserved_nil (u : Report) : ¬ Conserved u [] := by
  rintro ⟨⟨e,he,-⟩,-⟩
  cases he

theorem handle_legacy {data : MaaSEventData} {calls : List Call}
    (ht : ce.type = eventTypeModel ∨ ce.type = eventTypeInferenceTokens)
    (hdata : env.decoder.model ce.data = some data) (h : env.handle ce = .ok calls) :
    ∃ r start, calls = .upsertModel r :: meterMaaSEvent ⟨firstText [data.modelID,data.model],
      modelTenant data,data.user,modelState data,
      if data.promptTokens > 0 ∧ data.tokensIn = 0 then data.promptTokens else data.tokensIn,
      if data.completionTokens > 0 ∧ data.tokensOut = 0 then data.completionTokens else data.tokensOut,
      if data.requestCount > 0 ∧ data.requests = 0 then data.requestCount else data.requests,ce.time,
      start⟩ := by
  rw [handle_model env ht,processModelEvent,hdata] at h
  dsimp only at h
  split at h
  · cases h
  · cases h
    exact ⟨_,_,rfl⟩

theorem handle_usage {md : MeteringData} {calls : List Call} (ht : ce.type = eventTypeInferenceUsage)
    (hmd : env.decoder.meteringData ce.data = some md) (hr : md.resourceType = "maas_inference")
    (h : env.handle ce = .ok calls) : calls = processOSACInference env.decoder ce md := by
  have hv1 : isOSACv1 ce = true := by simp [isOSACv1,ht]
  rw [handle_v1 env hv1,processOSACResourceEvent,hmd] at h
  simp only [hr,if_true] at h
  cases h
  rfl

theorem tokens_eq_iff (gateway mock : Int) (h : 0 < reportedTokens gateway mock) :
    (if gateway > 0 ∧ mock = 0 then gateway else mock) = reportedTokens gateway mock ↔
      agree gateway mock = true := by
  unfold reportedTokens at *
  simp only [agree,Bool.or_eq_true,decide_eq_true_eq]
  split_ifs at * <;> omega

structure Outcome (env : Env δ) (ce : CloudEvent) (u : Report) (projectID : String)
    (es : List MeteringEntry) (usage : MaaSUsage) : Prop where
  entries : es.map anonymous = if isModelBillable usage.state then
    lines u projectID usage.tokensIn usage.tokensOut usage.requests else []
  plain : plainUsage env ce = true ↔ isModelBillable usage.state = true ∧
    usage.tokensIn = u.promptTokens ∧ usage.tokensOut = u.completionTokens
  counts : plainUsage env ce = true → (counted env ce = true ↔ 0 < usage.requests)
  requests : plainUsage env ce = true → counted env ce = true → usage.requests = u.requests

theorem outcome_legacy (hf : Fresh s) {data : MaaSEventData}
    (ht : ce.type = eventTypeModel ∨ ce.type = eventTypeInferenceTokens)
    (hdata : env.decoder.model ce.data = some data) (hp : 0 < (legacyReport data).promptTokens)
    (hc : 0 < (legacyReport data).completionTokens) (hst : step env s (.event ce now) = some t) :
    ∃ usage, Outcome env ce (legacyReport data) (projectOf s (modelTenant data)) (added s t) usage := by
  have hne : ce.type ≠ eventTypeInferenceUsage := by
    rcases ht with ht | ht <;> rw [ht] <;> decide
  cases step_moves hst with
  | event ha hr =>
    obtain ⟨r,start,rfl⟩ := handle_legacy ht hdata (accepted_handle ha)
    refine ⟨_,added_inference hf rfl rfl hr,?_,fun _ => ?_,fun _ hcount => ?_⟩
    · have hin := tokens_eq_iff data.promptTokens data.tokensIn hp
      have hout := tokens_eq_iff data.completionTokens data.tokensOut hc
      simp only [legacyReport,plainUsage,hdata,Option.any_some,hin,hout]
      simp [hne,and_assoc]
    · simp only [counted,hdata,Option.any_some,Bool.or_eq_true,Bool.and_eq_true,decide_eq_true_eq]
      split_ifs <;> omega
    · simp only [counted,hdata,Option.any_some,Bool.or_eq_true,Bool.and_eq_true,decide_eq_true_eq] at hcount
      simp only [legacyReport]
      split_ifs <;> omega

theorem outcome_usage (hf : Fresh s) {md : MeteringData} (ht : ce.type = eventTypeInferenceUsage)
    (hmd : env.decoder.meteringData ce.data = some md) (hrt : md.resourceType = "maas_inference")
    (hst : step env s (.event ce now) = some t) :
    ∃ usage, Outcome env ce (usageReport env.decoder md)
      (projectOf s (usageReport env.decoder md).tenantID) (added s t) usage := by
  have hplain : plainUsage env ce = false := by simp [plainUsage,ht]
  cases step_moves hst with
  | event ha hr =>
    obtain rfl := handle_usage ht hmd hrt (accepted_handle ha)
    refine ⟨_,added_inference hf rfl rfl hr,?_,?_,?_⟩
    · simp [hplain,isModelBillable]
    · simp [hplain]
    · simp [hplain]

theorem outcome (hf : Fresh s) {u : Report} (hu : Reports env ce u) (hp : 0 < u.promptTokens)
    (hc : 0 < u.completionTokens) (hst : step env s (.event ce now) = some t) :
    ∃ usage, Outcome env ce u (projectOf s u.tenantID) (added s t) usage := by
  cases hu with
  | tokensUsed ht hdata => exact outcome_legacy hf (.inr ht) hdata hp hc hst
  | lifecycle ht hdata hs => exact outcome_legacy hf (.inl ht) hdata hp hc hst
  | usage ht hmd hrt => exact outcome_usage hf ht hmd hrt hst

theorem Outcome.conserved {u : Report} {projectID : String} {es : List MeteringEntry}
    {usage : MaaSUsage} (h : Outcome env ce u projectID es usage) (hp : 0 < u.promptTokens)
    (hc : 0 < u.completionTokens) : Conserved u es ↔ plainUsage env ce = true := by
  rw [← conserved_anonymous,h.entries,h.plain]
  split
  · rename_i hb
    rw [conserved_lines hp hc]
    simp [hb]
  · rename_i hb
    simp [hb,not_conserved_nil]

/-- Two events that report the same inference, in whatever formats, store its tokens
and equal entries up to user and period exactly if both are plain and both have a
request count or neither has one. -/
theorem tokens_conserved_iff {t₁ t₂ : Metering.State} {ce₁ ce₂ : CloudEvent} {now₁ now₂ : Int}
    {u : Report} (hs : Reachable (step env) initial anyStep s) (h₁ : Reports env ce₁ u)
    (h₂ : Reports env ce₂ u) (hp : 0 < u.promptTokens) (hc : 0 < u.completionTokens)
    (hst₁ : step env s (.event ce₁ now₁) = some t₁) (hst₂ : step env s (.event ce₂ now₂) = some t₂) :
    (Conserved u (added s t₁) ∧ Conserved u (added s t₂) ∧
        (added s t₁).map anonymous = (added s t₂).map anonymous) ↔
      plainUsage env ce₁ = true ∧ plainUsage env ce₂ = true ∧ counted env ce₁ = counted env ce₂ := by
  obtain ⟨usage₁,ho₁⟩ := outcome (reachable_fresh hs) h₁ hp hc hst₁
  obtain ⟨usage₂,ho₂⟩ := outcome (reachable_fresh hs) h₂ hp hc hst₂
  rw [ho₁.conserved hp hc,ho₂.conserved hp hc]
  refine and_congr_right fun hplain₁ => and_congr_right fun hplain₂ => ?_
  obtain ⟨hb₁,hin₁,hout₁⟩ := ho₁.plain.mp hplain₁
  obtain ⟨hb₂,hin₂,hout₂⟩ := ho₂.plain.mp hplain₂
  have hpos₁ := ho₁.counts hplain₁
  have hpos₂ := ho₂.counts hplain₂
  -- the tokens are the same, so the lists differ in the requests if in anything
  rw [ho₁.entries,ho₂.entries,if_pos hb₁,if_pos hb₂,hin₁,hin₂,hout₁,hout₂,lines_requests]
  constructor
  · intro heq
    rw [Bool.eq_iff_iff,hpos₁,hpos₂]
    omega
  · intro heq hpos
    rw [← hpos₁,← hpos₂,heq,or_self] at hpos
    exact (ho₁.requests hplain₁ (heq.trans hpos)).trans (ho₂.requests hplain₂ hpos).symm

end Events

def gatewayData : MaaSEventData :=
  ⟨"","","","","",0,0,0,0,1,"jdoe","","","acme","llama",1500,800,3200⟩

def mockData : MaaSEventData :=
  ⟨"acme","llama","llama","","MODEL_STATE_RUNNING",1500,800,0,3,1,"","","","","",0,0,0⟩

def usageData : MeteringData :=
  ⟨"llama","maas_inference","acme",none,none,"",none,"dimensions"⟩

def inferenceEnv : Env CloudEvent :=
  { sampleEnv with
    decoder :=
      { sampleEnv.decoder with
        peek := fun data =>
          if data = "gateway" then some ⟨"","acme","","","","llama"⟩
          else if data = "mock" then some ⟨"acme","","","","llama",""⟩
          else none
        model := fun data =>
          if data = "gateway" then some gatewayData else if data = "mock" then some mockData else none
        meteringData := fun data => if data = "v1" then some usageData else none
        maasDimensions := fun _ => ⟨"","llama",1500,800,3200⟩ } }

def inferenceEvent (type data : String) : CloudEvent :=
  ⟨"1.0",type,"gateway","e-1",minutes 1,"jdoe","",data,"llama","maas_inference","acme","",""⟩

def inferenceReport : Report := ⟨"acme","llama",1500,800,1⟩

theorem gateway_and_mock_agree :
    ∃ t₁ t₂,
      step inferenceEnv noResources (.event (inferenceEvent eventTypeInferenceTokens "gateway") (minutes 2))
        = some t₁ ∧
      step inferenceEnv noResources (.event (inferenceEvent eventTypeModel "mock") (minutes 2)) = some t₂ ∧
      Conserved inferenceReport (added noResources t₁) ∧
      Conserved inferenceReport (added noResources t₂) ∧
      (added noResources t₁).map anonymous = (added noResources t₂).map anonymous := by
  have hg : (step inferenceEnv noResources
      (.event (inferenceEvent eventTypeInferenceTokens "gateway") (minutes 2))).isSome = true := by
    decide +kernel
  have hm : (step inferenceEnv noResources
      (.event (inferenceEvent eventTypeModel "mock") (minutes 2))).isSome = true := by
    decide +kernel
  obtain ⟨t₁,h₁⟩ := Option.isSome_iff_exists.mp hg
  obtain ⟨t₂,h₂⟩ := Option.isSome_iff_exists.mp hm
  have hr₁ : Reports inferenceEnv (inferenceEvent eventTypeInferenceTokens "gateway") inferenceReport :=
    @Reports.tokensUsed _ inferenceEnv _ gatewayData rfl rfl
  have hr₂ : Reports inferenceEnv (inferenceEvent eventTypeModel "mock") inferenceReport :=
    @Reports.lifecycle _ inferenceEnv _ mockData rfl rfl rfl
  have hstart : Reachable (step inferenceEnv) initial anyStep noResources :=
    .start ⟨rfl,fun k => by cases k <;> rfl,rfl⟩
  exact ⟨t₁,t₂,h₁,h₂,(tokens_conserved_iff hstart hr₁ hr₂ (by decide) (by decide) h₁ h₂).mpr (by decide)⟩

/-- The same inference as a v1 event is accepted, and nothing is stored for it. -/
theorem usage_not_metered :
    Reports inferenceEnv (inferenceEvent eventTypeInferenceUsage "v1") inferenceReport ∧
    ∃ t, step inferenceEnv noResources (.event (inferenceEvent eventTypeInferenceUsage "v1") (minutes 2))
        = some t ∧ t.store.entries = [] ∧ ¬ Conserved inferenceReport (added noResources t) := by
  obtain ⟨t,ht,hnone⟩ : ∃ t, step inferenceEnv noResources
      (.event (inferenceEvent eventTypeInferenceUsage "v1") (minutes 2)) = some t ∧ t.store.entries = [] := by
    decide +kernel
  refine ⟨@Reports.usage _ inferenceEnv _ usageData rfl rfl rfl,t,ht,hnone,?_⟩
  rw [added,hnone]
  exact not_conserved_nil _

end CostConsumer.Service
