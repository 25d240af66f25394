import CostConsumer.Ingest.ExactlyOnce
import CostConsumer.Ingest.Unmarshal
set_option autoImplicit false

/-!
The identity of an event is derived twice, once for validation and the raw event and
once more by the handler. When the two agree, all that an event writes carries the
tenant and the resource of its raw event.
-/

namespace CostConsumer.Ingest
open Inventory Foundation Metering

variable {δ : Type}

/-- The rows of a statement are of a tenant and a resource. A checkpoint is no row of
its own. -/
def Write.Carries (tenantID resourceID : String) : Write δ → Prop
  | upsert k r _ => k.tenant r = tenantID ∧ k.id r = resourceID
  | upsertModel r _ => r.tenant = tenantID ∧ r.modelID = resourceID
  | metering _ entries => ∀ e ∈ entries, e.tenantID = tenantID ∧ e.resourceID = resourceID
  | _ => True

/-- All rows written for an event are of the tenant and the resource of its raw event,
which are not empty. -/
def KeepsIdentity (ws : List (Write δ)) : Prop :=
  ∃ e, ws.filterMap Write.rawEvent? = [e] ∧ e.tenantID ≠ "" ∧ e.resourceID ≠ "" ∧
    ∀ w ∈ ws, w.Carries e.tenantID e.resourceID

/-- The built-in classification finds a resource and a tenant. -/
def classified (env : Env δ) (ce : CloudEvent) : Bool :=
  (classifyEvent env.decoder ce).2.1 ≠ "" && (classifyEvent env.decoder ce).2.2 ≠ ""

/-- A classified event has to be `plain`. For any other a custom definition of its
type has named the resource and the tenant that its handler finds. -/
def Named (env : Env δ) (ce : CloudEvent) (resourceID tenantID : String) (plain : Prop) : Prop :=
  if classified env ce then plain
  else ∃ d fields, env.metricDef ce.type = some d ∧ env.object ce.data = some fields ∧
    env.textField fields d.resourceIDField = resourceID ∧
    env.textField fields d.tenantIDField = tenantID

/-- When the two derivations agree, for every family of events that writes a row. -/
structure Agrees (env : Env δ) (ce : CloudEvent) : Prop where
  computeInstance : ∀ data, ce.type = eventTypeComputeInstance →
    env.decoder.computeInstance ce.data = some data → data.state ∈ billableStates .computeInstance →
    Named env ce data.instanceID data.tenantID (data.tenantID ≠ "")
  cluster : ∀ data, ce.type = eventTypeCluster → env.decoder.cluster ce.data = some data →
    data.state ∈ billableStates .cluster →
    data.hostType = "_control_plane" ∨ data.workerNodeSeconds > 0 →
    Named env ce data.clusterID data.tenantID (data.tenantID ≠ "")
  model : ∀ data, ce.type = eventTypeModel ∨ ce.type = eventTypeInferenceTokens →
    env.decoder.model ce.data = some data →
    Named env ce (firstText [data.modelID,data.model]) (modelTenant data)
      (data.tenantID ≠ "" ∨ data.organizationID ≠ "" ∨ modelTenant data = ce.subject)
  inference : ∀ md, isOSACv1 ce = true → env.decoder.meteringData ce.data = some md →
    md.resourceType = "maas_inference" →
    (env.decoder.maasDimensions md.billingDimensions).model = "" ∨
      (env.decoder.maasDimensions md.billingDimensions).model = md.resourceID

theorem ite_error_eq_ok {ε α : Type} {c : Prop} [Decidable c] {e : ε} {x : Except ε α} {a : α} :
    (if c then .error e else x) = .ok a ↔ ¬ c ∧ x = .ok a := by
  split <;> simp [*]

section Validated
variable {env : Env δ} {now : Int} {ce : CloudEvent}

theorem validated_identity (h : validateCloudEvent env.decoder env.identify now ce = .ok ()) :
    ((env.identify ce).2.1 ≠ "" ∧ (env.identify ce).2.2 ≠ "") ∧
      (isOSACv1 ce = true → validateOSACv1 env.decoder ce = .ok ()) := by
  simp only [validateCloudEvent,ite_error_eq_ok] at h
  obtain ⟨-,-,-,-,-,hid,-,hosac⟩ := h
  simp only [not_or] at hid
  refine ⟨hid.2,fun hv1 => ?_⟩
  rwa [if_pos hv1] at hosac

theorem validated_osac {md : MeteringData} (h : validateOSACv1 env.decoder ce = .ok ())
    (hmd : env.decoder.meteringData ce.data = some md) :
    (ce.osacResourceID ≠ "" ∧ ce.osacTenant ≠ "") ∧ md.resourceID = ce.osacResourceID ∧
      md.tenantID = ce.osacTenant := by
  simp only [validateOSACv1,hmd,ite_error_eq_ok,not_or,not_not,ne_eq] at h
  obtain ⟨⟨hid,-,htenant⟩,⟨-,-,-,hid',-,htenant'⟩,-⟩ := h
  exact ⟨⟨hid,htenant⟩,hid',htenant'⟩

theorem identify_iff {resourceID tenantID : String} {plain : Prop}
    (h : (env.identify ce).2.1 ≠ "" ∧ (env.identify ce).2.2 ≠ "")
    (hplain : classified env ce = true → ((classifyEvent env.decoder ce).2.2 = tenantID ∧
      (classifyEvent env.decoder ce).2.1 = resourceID ↔ plain)) :
    (env.identify ce).2.2 = tenantID ∧ (env.identify ce).2.1 = resourceID ↔
      Named env ce resourceID tenantID plain := by
  unfold Named
  by_cases hc : classified env ce = true
  · have hid : env.identify ce = classifyEvent env.decoder ce := by
      simp only [classified,Bool.and_eq_true,decide_eq_true_eq] at hc
      simp only [Env.identify,hc.1,hc.2,or_self,if_false]
    rw [if_pos hc,hid]
    exact hplain hc
  · have hincomplete : (classifyEvent env.decoder ce).2.1 = "" ∨ (classifyEvent env.decoder ce).2.2 = "" := by
      simp only [classified,Bool.and_eq_true,decide_eq_true_eq,not_and_or,not_not] at hc
      exact hc
    rw [if_neg hc]
    rw [Env.identify,if_pos hincomplete] at h ⊢
    split at h
    · rename_i d fields hd hf
      simp only [hd,hf]
      simp [and_comm]
    · exact absurd h (by tauto)

end Validated

section Classified
variable {env : Env δ} {parse : String → Option Document} {render : Document → String} {ce : CloudEvent}

theorem firstText_cons (a : String) (as : List String) :
    firstText (a :: as) = if a = "" then firstText as else a := by
  by_cases ha : a = "" <;> simp [firstText,ha]

@[simp] theorem firstText_skip (as : List String) : firstText ("" :: as) = firstText as := by
  rw [firstText_cons,if_pos rfl]

theorem firstText_of_ne {a : String} (h : a ≠ "") (as : List String) : firstText (a :: as) = a := by
  rw [firstText_cons,if_neg h]

@[simp] theorem firstText_singleton (a : String) : firstText [a] = a := by
  rw [firstText_cons]
  split
  · rename_i ha
    rw [ha]
    rfl
  · rfl

theorem classifyEvent_peek {dec : Decoder} {peek : Peek} (hv1 : isOSACv1 ce = false)
    (hp : dec.peek ce.data = some peek) :
    (classifyEvent dec ce).2.2 = firstText [peek.tenantID,peek.organizationID,ce.subject] ∧
      (classifyEvent dec ce).2.1 =
        if ce.type = eventTypeComputeInstance then peek.instanceID
        else if ce.type = eventTypeCluster then peek.clusterID
        else if ce.type = eventTypeModel then peek.modelID
        else if ce.type = eventTypeInferenceTokens then firstText [peek.modelID,peek.model]
        else "" := by
  have htenant : (if (if peek.tenantID = "" then peek.organizationID else peek.tenantID) = "" then ce.subject
      else if peek.tenantID = "" then peek.organizationID else peek.tenantID) =
      firstText [peek.tenantID,peek.organizationID,ce.subject] := by
    simp only [firstText_cons peek.tenantID,firstText_cons peek.organizationID,firstText_singleton]
    by_cases ht : peek.tenantID = "" <;> simp [ht]
  simp only [classifyEvent,hv1,hp,Bool.false_eq_true,if_false,htenant,firstText_cons peek.modelID,
    firstText_singleton]
  split_ifs <;> simp

theorem classified_peek (hv1 : isOSACv1 ce = false) (hc : classified env ce = true) :
    ∃ peek, env.decoder.peek ce.data = some peek := by
  cases hp : env.decoder.peek ce.data with
  | none => simp [classified,classifyEvent,hv1,hp] at hc
  | some peek => exact ⟨peek,rfl⟩

theorem classified_complete (hc : classified env ce = true) :
    (classifyEvent env.decoder ce).2.1 ≠ "" ∧ (classifyEvent env.decoder ce).2.2 ≠ "" := by
  simpa [classified] using hc

theorem firstText_eq_head {a : String} {as : List String} (h : firstText (a :: as) ≠ "") :
    firstText (a :: as) = a ↔ a ≠ "" := by
  rw [firstText_cons] at h ⊢
  split
  · rename_i ha
    rw [if_pos ha] at h
    simp [ha,h]
  · rename_i ha
    simp [ha]

theorem plain_computeInstance {data : ComputeInstanceEventData} (ht : ce.type = eventTypeComputeInstance)
    (hdata : (env.withJson parse render).decoder.computeInstance ce.data = some data)
    (hc : classified (env.withJson parse render) ce = true) :
    (classifyEvent (env.withJson parse render).decoder ce).2.2 = data.tenantID ∧
      (classifyEvent (env.withJson parse render).decoder ce).2.1 = data.instanceID ↔
      data.tenantID ≠ "" := by
  have hv1 := not_v1_of_type ht (by simp)
  obtain ⟨peek,hp⟩ := classified_peek hv1 hc
  obtain ⟨htenant,hid⟩ := classifyEvent_peek hv1 hp
  obtain ⟨hi,hte⟩ := peek_computeInstance hp hdata
  have hne := (classified_complete hc).2
  rw [htenant,hte] at hne ⊢
  rw [hid,if_pos ht,firstText_eq_head hne]
  simp [hi]

theorem plain_cluster {data : ClusterEventData} (ht : ce.type = eventTypeCluster)
    (hdata : (env.withJson parse render).decoder.cluster ce.data = some data)
    (hc : classified (env.withJson parse render) ce = true) :
    (classifyEvent (env.withJson parse render).decoder ce).2.2 = data.tenantID ∧
      (classifyEvent (env.withJson parse render).decoder ce).2.1 = data.clusterID ↔
      data.tenantID ≠ "" := by
  have hv1 := not_v1_of_type ht (by simp)
  obtain ⟨peek,hp⟩ := classified_peek hv1 hc
  obtain ⟨htenant,hid⟩ := classifyEvent_peek hv1 hp
  obtain ⟨hi,hte⟩ := peek_cluster hp hdata
  have hne := (classified_complete hc).2
  have hother : ce.type ≠ eventTypeComputeInstance := by
    rw [ht]
    decide
  rw [htenant,hte] at hne ⊢
  rw [hid,if_neg hother,if_pos ht,firstText_eq_head hne]
  simp [hi]

theorem classified_model {peek : Peek} (ht : ce.type = eventTypeModel ∨ ce.type = eventTypeInferenceTokens)
    (hp : env.decoder.peek ce.data = some peek) (hc : classified env ce = true) :
    (classifyEvent env.decoder ce).2.1 = firstText [peek.modelID,peek.model] := by
  have hid := (classified_complete hc).1
  rcases ht with ht | ht
  · have hv1 := not_v1_of_type ht (by simp)
    have hother : ce.type ≠ eventTypeComputeInstance ∧ ce.type ≠ eventTypeCluster := by
      rw [ht]
      decide
    rw [(classifyEvent_peek hv1 hp).2,if_neg hother.1,if_neg hother.2,if_pos ht] at hid ⊢
    rw [firstText_of_ne hid]
  · have hv1 := not_v1_of_type ht (by simp)
    have hother : ce.type ≠ eventTypeComputeInstance ∧ ce.type ≠ eventTypeCluster ∧
        ce.type ≠ eventTypeModel := by
      rw [ht]
      decide
    rw [(classifyEvent_peek hv1 hp).2,if_neg hother.1,if_neg hother.2.1,if_neg hother.2.2,if_pos ht]

/-- The handler of a model event has fallbacks for the tenant that the classification
does not have, and does not look at the subject. -/
theorem plain_model {data : MaaSEventData}
    (ht : ce.type = eventTypeModel ∨ ce.type = eventTypeInferenceTokens)
    (hdata : (env.withJson parse render).decoder.model ce.data = some data)
    (hc : classified (env.withJson parse render) ce = true) :
    (classifyEvent (env.withJson parse render).decoder ce).2.2 = modelTenant data ∧
      (classifyEvent (env.withJson parse render).decoder ce).2.1 = firstText [data.modelID,data.model] ↔
      data.tenantID ≠ "" ∨ data.organizationID ≠ "" ∨ modelTenant data = ce.subject := by
  have hv1 : isOSACv1 ce = false := by
    rcases ht with ht | ht
    · exact not_v1_of_type ht (by simp)
    · exact not_v1_of_type ht (by simp)
  obtain ⟨peek,hp⟩ := classified_peek hv1 hc
  obtain ⟨hi,hm,hte,ho⟩ := peek_model hp hdata
  rw [classified_model ht hp hc,(classifyEvent_peek hv1 hp).1,hi,hm,hte,ho]
  by_cases h₁ : data.tenantID = ""
  · by_cases h₂ : data.organizationID = ""
    · simp [h₁,h₂,eq_comm]
    · simp [modelTenant,h₁,h₂,firstText_of_ne h₂]
  · simp [modelTenant,h₁,firstText_of_ne h₁]

end Classified

section Blocks
variable {env : Env δ} {now : Int} {cs : List Call} {ws : List (Write δ)} {b : Block δ}

theorem Performed.written (h : Performed now cs ws) :
    (∀ w ∈ ws, ∃ c ∈ cs, ∃ id projectID, w = c.written now id projectID) ∧
      ∀ c ∈ cs, (∃ id projectID, c.written now id projectID ∈ ws) ∨
        ∃ k resourceID t, c = .updateLastMetered k resourceID t := by
  induction h with
  | nil => simp
  | @snoc cs ws c w db id projectID hp hw ih =>
    obtain ⟨hfrom,hto⟩ := ih
    refine ⟨fun w' hw' => ?_,fun c' hc' => ?_⟩
    · rcases List.mem_append.mp hw' with hmem | hmem
      · obtain ⟨c',hc',hrest⟩ := hfrom w' hmem
        exact ⟨c',List.mem_append_left _ hc',hrest⟩
      · rcases Call.write_ok hw with rfl | ⟨rfl,-⟩
        · exact ⟨c,by simp,id,projectID,by simpa using hmem⟩
        · cases hmem
    · rcases List.mem_append.mp hc' with hmem | hmem
      · rcases hto c' hmem with ⟨id',projectID',hw'⟩ | hcheck
        · exact .inl ⟨id',projectID',List.mem_append_left _ hw'⟩
        · exact .inr hcheck
      · rw [List.mem_singleton.mp hmem]
        rcases Call.write_ok hw with rfl | ⟨-,k,resourceID,t,he,-⟩
        · exact .inl ⟨id,projectID,by simp⟩
        · exact .inr ⟨k,resourceID,t,he⟩

theorem Block.Complete.keepsIdentity {calls : List Call} (h : b.Complete env now)
    (hh : env.handle b.event = .ok calls)
    (hid : (env.identify b.event).2.1 ≠ "" ∧ (env.identify b.event).2.2 ≠ "")
    (hall : ∀ c ∈ calls, ∀ id projectID, (c.written now id projectID : Write δ).Carries
      (env.identify b.event).2.2 (env.identify b.event).2.1) : KeepsIdentity b.writes := by
  refine ⟨env.rawEvent now b.event,h.rawEvents,hid.2,hid.1,fun w hw => ?_⟩
  obtain ⟨calls',ws,hh',hws,hp⟩ := h.calls
  rw [hh] at hh'
  cases hh'
  rw [hws] at hw
  rcases List.mem_cons.mp hw with rfl | hw
  · trivial
  · obtain ⟨c,hc,id,projectID,rfl⟩ := hp.written.1 w hw
    rcases List.mem_cons.mp hc with rfl | hc
    · trivial
    · exact hall c hc id projectID

theorem KeepsIdentity.call {calls : List Call} (hk : KeepsIdentity b.writes) (h : b.Complete env now)
    (hh : env.handle b.event = .ok calls) {c : Call} (hc : c ∈ calls)
    (hrow : ∀ k resourceID t, c ≠ .updateLastMetered k resourceID t) :
    ∃ id projectID, (c.written now id projectID : Write δ).Carries (env.identify b.event).2.2
      (env.identify b.event).2.1 := by
  obtain ⟨e,he,-,-,hall⟩ := hk
  rw [h.rawEvents,List.singleton_inj] at he
  subst he
  obtain ⟨calls',ws,hh',hws,hp⟩ := h.calls
  rw [hh] at hh'
  cases hh'
  rcases hp.written.2 c (List.mem_cons_of_mem _ hc) with ⟨id,projectID,hw⟩ | ⟨k,resourceID,t,he⟩
  · exact ⟨id,projectID,hall _ (hws ▸ List.mem_cons_of_mem _ hw)⟩
  · exact absurd he (hrow k resourceID t)

end Blocks

section Agreement
variable {env : Env δ} {now : Int} {ce : CloudEvent} {calls : List Call}

theorem calls_computeInstance {data : ComputeInstanceEventData} (ht : ce.type = eventTypeComputeInstance)
    (hdata : env.decoder.computeInstance ce.data = some data)
    (hs : data.state ∈ billableStates .computeInstance) (h : env.handle ce = .ok calls) :
    ∃ r, .upsert .computeInstance r ∈ calls ∧ r.tenant = data.tenantID ∧
      r.instanceID = data.instanceID := by
  rw [handle_computeInstance env ht,processComputeInstanceEvent,hdata] at h
  simp only [hs,not_true_eq_false,if_false] at h
  split at h
  · cases h
  · cases h
    exact ⟨_,List.mem_cons_self,rfl,rfl⟩

theorem calls_cluster {data : ClusterEventData} (ht : ce.type = eventTypeCluster)
    (hdata : env.decoder.cluster ce.data = some data) (hs : data.state ∈ billableStates .cluster)
    (hany : data.hostType = "_control_plane" ∨ data.workerNodeSeconds > 0)
    (h : env.handle ce = .ok calls) :
    ∃ entries, .insertMetering entries ∈ calls ∧
      ∃ e ∈ entries, e.tenantID = data.tenantID ∧ e.resourceID = data.clusterID := by
  rw [handle_cluster env ht,processClusterEvent,hdata] at h
  simp only [hs,not_true_eq_false,if_false] at h
  split at h
  · cases h
  · cases h
    refine ⟨_,List.mem_cons_self,?_⟩
    rcases hany with hhost | hworker
    · rw [if_pos hhost]
      exact ⟨_,List.mem_append_left _ List.mem_cons_self,rfl,rfl⟩
    · rw [if_pos hworker]
      exact ⟨_,List.mem_append_right _ List.mem_cons_self,rfl,rfl⟩

theorem calls_model {data : MaaSEventData}
    (ht : ce.type = eventTypeModel ∨ ce.type = eventTypeInferenceTokens)
    (hdata : env.decoder.model ce.data = some data) (h : env.handle ce = .ok calls) :
    ∃ r, .upsertModel r ∈ calls ∧ r.tenant = modelTenant data ∧
      r.modelID = firstText [data.modelID,data.model] := by
  rw [handle_model env ht,processModelEvent,hdata] at h
  dsimp only at h
  split at h
  · cases h
  · cases h
    exact ⟨_,List.mem_cons_self,rfl,rfl⟩

theorem calls_inference {md : MeteringData} (hv1 : isOSACv1 ce = true)
    (hmd : env.decoder.meteringData ce.data = some md) (hr : md.resourceType = "maas_inference")
    (h : env.handle ce = .ok calls) :
    ∃ r, .upsertModel r ∈ calls ∧ r.modelID =
      firstText [(env.decoder.maasDimensions md.billingDimensions).model,md.resourceID] := by
  rw [handle_v1 env hv1,processOSACResourceEvent,hmd] at h
  simp only [hr,if_true] at h
  cases h
  exact ⟨_,List.mem_cons_self,rfl⟩

theorem identify_v1 {md : MeteringData}
    (hv : validateCloudEvent env.decoder env.identify now ce = .ok ()) (hv1 : isOSACv1 ce = true)
    (hmd : env.decoder.meteringData ce.data = some md) :
    (env.identify ce).2.1 = md.resourceID ∧ (env.identify ce).2.2 = md.tenantID ∧ md.tenantID ≠ "" := by
  obtain ⟨⟨hid,htenant⟩,hid',htenant'⟩ := validated_osac ((validated_identity hv).2 hv1) hmd
  have hclass : classifyEvent env.decoder ce =
      (if ce.osacResourceType = "" then ce.type else ce.osacResourceType,ce.osacResourceID,ce.osacTenant) := by
    rw [classifyEvent,if_pos hv1]
  have hident : env.identify ce = classifyEvent env.decoder ce := by
    simp only [Env.identify,hclass,hid,htenant,or_self,if_false]
  rw [hident,hclass,hid',htenant']
  exact ⟨rfl,rfl,htenant⟩

theorem firstText_pair_eq {a b : String} : firstText [a,b] = b ↔ a = "" ∨ a = b := by
  by_cases ha : a = ""
  · simp [ha]
  · rw [firstText_of_ne ha]
    simp [ha]

theorem identify_custom {d : MetricDef} {data : List (String × Json)} (hv1 : isOSACv1 ce = false)
    (ht : ce.type ∉ [eventTypeComputeInstance,eventTypeCluster,eventTypeModel,eventTypeInferenceTokens])
    (hdef : env.metricDef ce.type = some d) (hdata : env.object ce.data = some data) :
    env.identify ce =
      (d.resourceType,env.textField data d.resourceIDField,env.textField data d.tenantIDField) := by
  simp only [List.mem_cons,List.not_mem_nil,or_false,not_or] at ht
  have hnone : (classifyEvent env.decoder ce).2.1 = "" := by
    simp only [classifyEvent,hv1,ht.1,ht.2.1,ht.2.2.1,ht.2.2.2,Bool.false_eq_true,if_false]
    split <;> rfl
  simp only [Env.identify,hnone,true_or,if_true,hdef,hdata]

end Agreement

section Kept
variable {env : Env δ} {parse : String → Option Document} {render : Document → String} {now now' : Int}
  {b : Block δ}

theorem KeepsIdentity.agrees (hb : b.Complete (env.withJson parse render) now)
    (hv : validateCloudEvent (env.withJson parse render).decoder (env.withJson parse render).identify now'
      b.event = .ok ()) (hk : KeepsIdentity b.writes) : Agrees (env.withJson parse render) b.event := by
  obtain ⟨calls,-,hh,-,-⟩ := hb.calls
  have hid := (validated_identity hv).1
  have hcall {c : Call} := @KeepsIdentity.call _ _ _ _ _ hk hb hh c
  refine ⟨fun data ht hdata hs => ?_,fun data ht hdata hs hany => ?_,fun data ht hdata => ?_,
    fun md hv1 hmd hr => ?_⟩
  · obtain ⟨r,hmem,htenant,hrid⟩ := calls_computeInstance ht hdata hs hh
    obtain ⟨id,projectID,hcarries⟩ := hcall hmem (by simp)
    refine (identify_iff hid (plain_computeInstance ht hdata)).mp ?_
    exact ⟨hcarries.1.symm.trans htenant,hcarries.2.symm.trans hrid⟩
  · obtain ⟨entries,hmem,e,he,htenant,hrid⟩ := calls_cluster ht hdata hs hany hh
    obtain ⟨id,projectID,hcarries⟩ := hcall hmem (by simp)
    obtain ⟨htenant',hrid'⟩ := hcarries e he
    refine (identify_iff hid (plain_cluster ht hdata)).mp ?_
    exact ⟨htenant'.symm.trans htenant,hrid'.symm.trans hrid⟩
  · obtain ⟨r,hmem,htenant,hrid⟩ := calls_model ht hdata hh
    obtain ⟨id,projectID,hcarries⟩ := hcall hmem (by simp)
    refine (identify_iff hid (plain_model ht hdata)).mp ?_
    exact ⟨hcarries.1.symm.trans htenant,hcarries.2.symm.trans hrid⟩
  · obtain ⟨r,hmem,hrid⟩ := calls_inference hv1 hmd hr hh
    obtain ⟨id,projectID,hcarries⟩ := hcall hmem (by simp)
    obtain ⟨hres,-,-⟩ := identify_v1 hv hv1 hmd
    exact firstText_pair_eq.mp (hrid.symm.trans (hcarries.2.trans hres))

theorem meterMaaSEvent_carries (usage : MaaSUsage) (now : Int) {c : Call} (hc : c ∈ meterMaaSEvent usage)
    (id : Nat) (projectID : String) :
    (c.written now id projectID : Write δ).Carries usage.tenantID usage.modelID := by
  unfold meterMaaSEvent at hc
  split at hc
  · rw [List.mem_singleton.mp hc]
    intro e he
    obtain ⟨-,hid,htenant⟩ := maasMeters_owner he
    exact ⟨htenant,hid⟩
  · cases hc

theorem Agrees.keepsIdentity (hb : b.Complete (env.withJson parse render) now)
    (hv : validateCloudEvent (env.withJson parse render).decoder (env.withJson parse render).identify now'
      b.event = .ok ()) (ha : Agrees (env.withJson parse render) b.event) : KeepsIdentity b.writes := by
  obtain ⟨calls,-,hh,-,-⟩ := hb.calls
  have hid := (validated_identity hv).1
  refine hb.keepsIdentity hh hid fun c hc id projectID => ?_
  cases handle_handled hh with
  | nothing => cases hc
  | @computeInstance data ht hdata hs hd =>
    obtain ⟨htenant,hres⟩ := (identify_iff hid (plain_computeInstance ht hdata)).mpr
      (ha.computeInstance data ht hdata hs)
    rw [htenant,hres]
    simp only [List.mem_cons,List.not_mem_nil,or_false] at hc
    rcases hc with rfl | rfl | rfl
    · exact ⟨rfl,rfl⟩
    · intro e he
      simp only [List.mem_cons,List.not_mem_nil,or_false] at he
      rcases he with rfl | rfl | rfl <;> exact ⟨rfl,rfl⟩
    · trivial
  | @cluster data ht hdata hs hd =>
    simp only [List.mem_cons,List.not_mem_nil,or_false] at hc
    rcases hc with rfl | rfl
    · intro e he
      obtain ⟨hany,-,hcluster,hdata'⟩ := clusterEntries_owner he
      obtain ⟨htenant,hres⟩ := (identify_iff hid (plain_cluster ht hdata)).mpr
        (ha.cluster data ht hdata hs hany)
      rw [htenant,hres]
      exact ⟨hdata',hcluster⟩
    · trivial
  | @model data r usage ht hdata hi htn =>
    obtain ⟨htenant,hres⟩ := (identify_iff hid (plain_model ht hdata)).mpr (ha.model data ht hdata)
    rw [htenant,hres,← hi.1,← htn.1]
    rcases List.mem_cons.mp hc with rfl | hc
    · exact ⟨rfl,rfl⟩
    · rw [← hi.2,← htn.2]
      exact meterMaaSEvent_carries usage now hc id projectID
  | @osacComputeInstance md hv1 hmd ht =>
    obtain ⟨hres,htenant,-⟩ := identify_v1 hv hv1 hmd
    rw [List.mem_singleton.mp hc,htenant,hres]
    exact ⟨rfl,rfl⟩
  | @osacClusterOrder md hv1 hmd ht =>
    obtain ⟨hres,htenant,-⟩ := identify_v1 hv hv1 hmd
    rw [List.mem_singleton.mp hc,htenant,hres]
    exact ⟨rfl,rfl⟩
  | @osacInference md hv1 hmd ht =>
    obtain ⟨hres,htenant,hne⟩ := identify_v1 hv hv1 hmd
    have hmodel := firstText_pair_eq.mpr (ha.inference md hv1 hmd ht)
    have howner := firstText_of_ne hne [((env.withJson parse render).decoder.maasDimensions
      md.billingDimensions).organizationID]
    rw [htenant,hres]
    rcases List.mem_cons.mp hc with rfl | hc
    · exact ⟨howner,hmodel⟩
    · have hcarries := meterMaaSEvent_carries (δ := δ) _ now hc id projectID
      rwa [howner,hmodel] at hcarries
  | @customMetric d data periodStart hv1 ht hdef hdata =>
    rw [List.mem_singleton.mp hc,identify_custom hv1 ht hdef hdata]
    intro e he
    obtain ⟨-,hres,htenant⟩ := customEntries_owner he
    exact ⟨htenant,hres⟩

end Kept

/-- The events a transaction still has to claim and those it has claimed were valid
when its request came. -/
def Tx.Valid (env : Env δ) (tx : Tx δ) : Prop :=
  ∀ ce ∈ tx.todo ++ tx.claimed, validateCloudEvent env.decoder env.identify tx.now ce = .ok ()

section Valid
variable {env : Env δ} {tx : Tx δ} {ce : CloudEvent} {todo : List CloudEvent}

theorem validateBatch_ok {dec : Decoder} {identify : CloudEvent → Identity} {now : Int}
    {events : List CloudEvent} (h : validateBatch dec identify now events = .ok ()) :
    ∀ ce ∈ events, validateCloudEvent dec identify now ce = .ok () := by
  induction events with
  | nil => simp
  | cons e events ih =>
    unfold validateBatch at h
    split at h
    · cases h
    · rename_i hv
      intro ce hce
      rcases List.mem_cons.mp hce with rfl | hce
      · exact hv
      · exact ih h ce hce

theorem Tx.Valid.new {request : Request} {now : Int} (h : request.validate env now = .ok ()) :
    (Tx.new request now : Tx δ).Valid env := by
  have hbatch : validateBatch env.decoder env.identify now request.events = .ok () := by
    cases request with
    | single ce => exact h
    | batch events =>
      simp only [Request.validate,ite_error_eq_ok] at h
      exact h.2
  intro ce hce
  rw [Tx.new,Tx.claimed,Tx.blocks] at hce
  exact validateBatch_ok hbatch ce (by simpa using hce)

theorem Tx.Valid.skip (h : tx.Valid env) (ht : tx.todo = ce :: todo) : (tx.skip ce todo).Valid env := by
  intro e he
  refine h e ?_
  rw [ht]
  exact List.mem_cons_of_mem _ he

theorem Tx.Valid.claim (h : tx.Valid env) (hc : tx.current = none) (ht : tx.todo = ce :: todo) :
    (tx.claim env ce todo).Valid env := by
  intro e he
  refine h e ?_
  rw [Tx.claimed_claim env tx ce todo hc] at he
  rw [ht]
  have htodo : (tx.claim env ce todo).todo = todo := rfl
  simp only [htodo,List.mem_append,List.mem_cons,List.not_mem_nil,or_false] at he ⊢
  tauto

theorem Tx.Valid.of_claimed {tx' : Tx δ} (h : tx.Valid env) (ht : tx'.todo = tx.todo)
    (hn : tx'.now = tx.now) (hc : tx'.claimed = tx.claimed) : tx'.Valid env := by
  intro e he
  rw [ht,hc] at he
  rw [hn]
  exact h e he

end Valid

section Runs
variable {env : Env δ} {base : Database δ} {s t : State δ}

def Checked (env : Env δ) (s : State δ) : Prop :=
  ∀ p ∈ s.sessions.active ++ s.sessions.commits, p.2.Valid env

theorem Checked.set {n : Nat} {tx : Tx δ} (h : Checked env s) (htx : tx.Valid env) :
    Checked env (s.withTx n tx) := by
  intro p hp
  rcases List.mem_append.mp hp with hp | hp
  · obtain ⟨q,hq,rfl⟩ := List.mem_map.mp hp
    split
    · exact htx
    · exact h q (List.mem_append_left _ hq)
  · exact h p (List.mem_append_right _ hp)

theorem Checked.moves (h : Checked env s) (hm : Moves env s t) : Checked env t := by
  have hopen {n : Nat} {tx : Tx δ} (hf : s.sessions.find? n = some tx) : tx.Valid env :=
    h (n,tx) (List.mem_append_left _ (Sessions.mem_of_find? hf))
  have hdrop {n : Nat} {p : Nat × Tx δ} (hp : p ∈ (s.sessions.drop n).active) : p.2.Valid env :=
    h p (List.mem_append_left _ (List.mem_filter.mp hp).1)
  cases hm with
  | refuse request he => exact h
  | start hv =>
    intro p hp
    simp only [Sessions.start,List.mem_append,List.mem_singleton] at hp
    rcases hp with (hp | rfl) | hp
    · exact h p (List.mem_append_left _ hp)
    · exact .new hv
    · exact h p (List.mem_append_right _ hp)
  | skip hf hc ht hr hd => exact h.set ((hopen hf).skip ht)
  | claim hf hc ht hr hl => exact h.set ((hopen hf).claim hc ht)
  | proceed nextID cache hf hc hcs hw hl =>
    exact h.set ((hopen hf).of_claimed rfl rfl (by simp [Tx.claimed,Tx.blocks,Tx.proceed,hc]))
  | finish hf hc hcs hfails =>
    exact h.set ((hopen hf).of_claimed rfl rfl (by simp [Tx.claimed,Tx.blocks,Tx.finish,hc]))
  | fail nextID cache hf he =>
    intro p hp
    rcases List.mem_append.mp hp with hp | hp
    · exact hdrop hp
    · exact h p (List.mem_append_right _ hp)
  | commit hf hc ht he =>
    intro p hp
    rcases List.mem_append.mp hp with hp | hp
    · exact hdrop hp
    · rcases List.mem_append.mp hp with hp | hp
      · exact h p (List.mem_append_right _ hp)
      · rw [List.mem_singleton.mp hp]
        exact hopen hf

variable [DecidableEq δ]

theorem reachable_checked (h : Reachable (step env) (initial base) anyStep s) : Checked env s := by
  refine Reachable.invariant (P := Checked env) ?_ (fun s l t hs _ hst => hs.moves (step_moves hst)) h
  rintro s ⟨-,-,hs,-⟩
  rw [Checked,hs]
  simp

/-- Whatever requests ingestion has committed, the rows written for an event carry the
tenant and the resource of its raw event exactly if the two derivations agree on it. -/
theorem identity_kept_iff {parse : String → Option Document} {render : Document → String}
    (h : Reachable (step (env.withJson parse render)) (initial base) anyStep s) {n : Nat} {tx : Tx δ}
    (hc : (n,tx) ∈ s.sessions.commits) {b : Block δ} (hb : b ∈ tx.blocks) :
    KeepsIdentity b.writes ↔ Agrees (env.withJson parse render) b.event := by
  have hcomplete := (reachable_ingested h).complete tx (List.mem_map.mpr ⟨(n,tx),hc,rfl⟩) b hb
  have hvalid := reachable_checked h (n,tx) (List.mem_append_right _ hc) b.event
    (List.mem_append_right _ (List.mem_map_of_mem hb))
  exact ⟨KeepsIdentity.agrees hcomplete hvalid,Agrees.keepsIdentity hcomplete hvalid⟩

end Runs

def heartbeatJson (data : String) : Option Document :=
  let fields : Members := [("instance_id",.text "vm-1"),("state",.text "RUNNING"),
    ("duration_seconds",.number "60"),("cpu_core_seconds",.number "120"),
    ("memory_gib_seconds",.number "240"),("cores",.number "2"),("memory_gib",.number "4")]
  if data = "full" then some (.object (("tenant_id",.text "acme") :: fields))
  else if data = "bare" then some (.object fields)
  else none

def jsonEnv : Env CloudEvent :=
  { heartbeatEnv with parseFloat := fun literal => (parseInt literal).map fun n => n }.withJson
    heartbeatJson fun _ => ""

def jsonHeartbeat (data : String) : CloudEvent := { heartbeat "acme" with data }

def committedHeartbeat (data : String) : List Label :=
  .submit (.single (jsonHeartbeat data)) heartbeatTime false :: heartbeatSteps 0 ++ [.commit 0 .committed]

theorem jsonHeartbeat_agrees : Agrees jsonEnv (jsonHeartbeat "full") := by
  have htenant : (jsonEnv.decoder.computeInstance (jsonHeartbeat "full").data).map (·.tenantID) =
      some "acme" := by decide +kernel
  have hclassified : classified jsonEnv (jsonHeartbeat "full") = true := by decide +kernel
  refine ⟨fun data ht hdata hs => ?_,fun data ht => ?_,fun data ht => ?_,fun md hv1 => ?_⟩
  · rw [Named,if_pos hclassified]
    rw [hdata,Option.map_some,Option.some.injEq] at htenant
    rw [htenant]
    decide
  · exact absurd ht (by decide)
  · exact absurd ht (by decide)
  · exact absurd hv1 (by decide)

theorem heartbeat_keeps_identity :
    ∃ s, Reachable (step jsonEnv) (initial {}) anyStep s ∧
      ∃ c ∈ s.sessions.commits, ∃ b ∈ c.2.blocks, b.event = jsonHeartbeat "full" ∧
        KeepsIdentity b.writes := by
  obtain ⟨s,hs,c,hc,b,hb,he⟩ := Reachable.exists_of_run (step jsonEnv) (initial {}) emptyState
    (committedHeartbeat "full")
    (fun s => ∃ c ∈ s.sessions.commits, ∃ b ∈ c.2.blocks, b.event = jsonHeartbeat "full")
    ⟨rfl,rfl,rfl,rfl⟩ (by decide +kernel)
  exact ⟨s,hs,c,hc,b,hb,he,(identity_kept_iff hs hc hb).mpr (he ▸ jsonHeartbeat_agrees)⟩

theorem KeepsIdentity.tenant_ne {ws : List (Write δ)} (h : KeepsIdentity ws) {id : Nat}
    {entries : List MeteringEntry} (hw : .metering id entries ∈ ws) : ∀ e ∈ entries, e.tenantID ≠ "" := by
  obtain ⟨raw,-,htenant,-,hall⟩ := h
  intro e he
  rw [(hall _ hw e he).1]
  exact htenant

def Write.tenantless : Write δ → Bool
  | metering _ entries => entries.any (·.tenantID = "")
  | _ => false

theorem Write.tenantless_eq {w : Write δ} (h : w.tenantless = true) :
    ∃ id entries, w = .metering id entries ∧ ∃ e ∈ entries, e.tenantID = "" := by
  cases w with
  | metering id entries =>
    simp only [tenantless,List.any_eq_true,decide_eq_true_eq] at h
    exact ⟨id,entries,rfl,h⟩
  | _ => cases h

/-- Validation takes the subject for the tenant; the instance and the entries get
none. -/
theorem subject_tenant_lost :
    ∃ s, Reachable (step jsonEnv) (initial {}) anyStep s ∧
      s.db.rawEvents.map (fun e => (e.tenantID,e.resourceID)) = [("acme","vm-1")] ∧
      s.db.entries.map (fun e => (e.tenantID,e.resourceID)) = [("","vm-1"),("","vm-1"),("","vm-1")] ∧
      ∃ c ∈ s.sessions.commits, ∃ b ∈ c.2.blocks, ¬ KeepsIdentity b.writes := by
  obtain ⟨s,hs,hraw,hentries,c,hc,b,hb,w,hw,hless⟩ := Reachable.exists_of_run (step jsonEnv) (initial {})
    emptyState (committedHeartbeat "bare")
    (fun s => s.db.rawEvents.map (fun e => (e.tenantID,e.resourceID)) = [("acme","vm-1")] ∧
      s.db.entries.map (fun e => (e.tenantID,e.resourceID)) = [("","vm-1"),("","vm-1"),("","vm-1")] ∧
      ∃ c ∈ s.sessions.commits, ∃ b ∈ c.2.blocks, ∃ w ∈ b.writes, Write.tenantless w = true)
    ⟨rfl,rfl,rfl,rfl⟩ (by decide +kernel)
  obtain ⟨id,entries,rfl,e,he,hempty⟩ := Write.tenantless_eq hless
  exact ⟨s,hs,hraw,hentries,c,hc,b,hb,fun hk => hk.tenant_ne hw e he hempty⟩

end CostConsumer.Ingest
