import CostConsumer.Ingest.Identity
set_option autoImplicit false

namespace CostConsumer.Ingest
open Inventory Foundation Metering

variable {δ : Type}

/-- A value that the column of a metering entry takes. -/
def Fits (value : Rat) : Prop := Numeric.Fits 18 6 value

instance (value : Rat) : Decidable (Fits value) := inferInstanceAs (Decidable (Numeric.Fits _ _ _))

def ComputeInstanceEventData.Meterable (data : ComputeInstanceEventData) : Prop :=
  data.state ∈ billableStates .computeInstance → 0 < data.durationSeconds ∧
    Fits data.durationSeconds ∧ Fits data.cpuCoreSeconds ∧ Fits data.memoryGiBSeconds

def ClusterEventData.Meterable (data : ClusterEventData) : Prop :=
  data.state ∈ billableStates .cluster → 0 < data.durationSeconds ∧
    (data.hostType = "_control_plane" → Fits data.durationSeconds) ∧
    (0 < data.workerNodeSeconds → Fits data.workerNodeSeconds)

/-- The counts of an inference, each under its own name or that of the gateway. -/
def MaaSEventData.counts (data : MaaSEventData) : List Int :=
  let orElse (a b : Int) := if b > 0 ∧ a = 0 then b else a
  [orElse data.tokensIn data.promptTokens,orElse data.tokensOut data.completionTokens,
    orElse data.requests data.requestCount]

def MaaSEventData.Meterable (data : MaaSEventData) : Prop :=
  0 ≤ data.durationSeconds ∧ (isModelBillable (firstText [data.state,"MODEL_STATE_RUNNING"]) →
    ∀ n ∈ data.counts, 0 < n → Fits n)

def Env.customValues (env : Env δ) (d : MetricDef) (data : List (String × Json)) : List Rat :=
  d.meters.filterMap fun m => ((extractField data m.valueField).bind env.toFloat64).filter (0 < ·)

/-- An event whose texts can be stored, and whose data its handler decodes and meters.
Validation has decoded the data of a v1 event. -/
def Processable (env : Env δ) (ce : CloudEvent) : Prop :=
  env.storable ce = true ∧
  if isOSACv1 ce then True
  else if ce.type = eventTypeComputeInstance then
    ∃ data ∈ env.decoder.computeInstance ce.data, data.Meterable
  else if ce.type = eventTypeCluster then ∃ data ∈ env.decoder.cluster ce.data, data.Meterable
  else if ce.type = eventTypeModel ∨ ce.type = eventTypeInferenceTokens then
    ∃ data ∈ env.decoder.model ce.data, data.Meterable
  else ∀ d ∈ env.metricDef ce.type, ∀ data ∈ env.object ce.data,
    (env.customValues d data).length ≤ 5461 ∧ ∀ value ∈ env.customValues d data, Fits value

def Insertable (entries : List MeteringEntry) : Prop :=
  12*entries.length ≤ 65535 ∧ ∀ e ∈ entries, Fits e.value

theorem insertable_iff_values (entries : List MeteringEntry) : Insertable entries ↔
    12*(entries.map (·.value)).length ≤ 65535 ∧ ∀ value ∈ entries.map (·.value), Fits value := by
  simp [Insertable]

theorem insertMeteringEntryBatch_isOk_iff (s : Store) (id : Nat) (entries : List MeteringEntry) :
    (∃ t, s.insertMeteringEntryBatch id entries = .ok t) ↔ Insertable entries := by
  constructor
  · rintro ⟨t,h⟩
    unfold Store.insertMeteringEntryBatch at h
    split at h
    · simp [Insertable]
    · unfold Store.insertMeteringEntry at h
      split at h
      · rename_i hfits
        exact ⟨by simp,List.forall_mem_singleton.mpr hfits⟩
      · cases h
    · split_ifs at h with hlen hfits
      · exact ⟨by omega,fun e he => of_decide_eq_true (List.all_eq_true.mp hfits e he)⟩
  · exact fun h => ⟨_,s.insertMeteringEntryBatch_of_fits id h.1 h.2⟩

theorem Call.write_isOk_iff (db : Database δ) (now : Int) (id : Nat) (projectID : String) (c : Call) :
    (∃ w, c.write db now id projectID = .ok w) ↔ Insertable (c.entries projectID) := by
  have hmap {α β : Type} (x : Except StoreError α) (b : β) :
      (∃ w, x.map (fun _ => b) = .ok w) ↔ ∃ a, x = .ok a := by
    cases x <;> simp [Except.map]
  cases c with
  | insertMetering entries =>
    rw [write,hmap,insertMeteringEntryBatch_isOk_iff]
    rfl
  | meterForTenant tenantID entries =>
    rw [write,hmap,insertMeteringEntryBatch_isOk_iff]
    rfl
  | _ => simp [write,entries,Insertable]

/-- The handler succeeds, and the database rejects none of its calls. -/
def Goes (result : Except ProcessError (List Call)) : Prop :=
  ∃ calls, result = .ok calls ∧ ∀ c ∈ calls, ∀ projectID, Insertable (c.entries projectID)

@[simp] theorem goes_error (e : ProcessError) : ¬ Goes (.error e) := by
  rintro ⟨calls,h,-⟩
  cases h

@[simp] theorem goes_ok (calls : List Call) :
    Goes (.ok calls) ↔ ∀ c ∈ calls, ∀ projectID, Insertable (c.entries projectID) := by
  simp [Goes]

@[simp] theorem insertable_nil : Insertable [] := by simp [Insertable]

section Handlers
variable {env : Env δ} {dec : Decoder} {ce : CloudEvent}

theorem processComputeInstanceEvent_goes_iff :
    Goes (processComputeInstanceEvent dec ce) ↔
      ∃ data ∈ dec.computeInstance ce.data, data.Meterable := by
  unfold processComputeInstanceEvent
  cases dec.computeInstance ce.data with
  | none => simp
  | some data =>
    by_cases hs : data.state ∈ billableStates .computeInstance
    · by_cases hd : data.durationSeconds ≤ 0
      · simp [ComputeInstanceEventData.Meterable,hs,hd]
      · simp [ComputeInstanceEventData.Meterable,hs,hd,Call.entries,Insertable,newEntry,lt_of_not_ge hd]
    · simp [ComputeInstanceEventData.Meterable,hs]

theorem processClusterEvent_goes_iff :
    Goes (processClusterEvent dec ce) ↔ ∃ data ∈ dec.cluster ce.data, data.Meterable := by
  unfold processClusterEvent
  cases dec.cluster ce.data with
  | none => simp
  | some data =>
    by_cases hs : data.state ∈ billableStates .cluster
    · by_cases hd : data.durationSeconds ≤ 0
      · simp [ClusterEventData.Meterable,hs,hd]
      · by_cases hhost : data.hostType = "_control_plane" <;>
          by_cases hworker : 0 < data.workerNodeSeconds <;>
          simp [ClusterEventData.Meterable,hs,hd,hhost,hworker,Call.entries,Insertable,newEntry,
            lt_of_not_ge hd]
    · simp [ClusterEventData.Meterable,hs]

theorem maasMeters_insertable_iff (usage : MaaSUsage) (projectID : String) (periodStart periodEnd : Int) :
    Insertable (maasMeters usage projectID periodStart periodEnd) ↔
      ∀ n ∈ [usage.tokensIn,usage.tokensOut,usage.requests], 0 < n → Fits n := by
  unfold maasMeters
  by_cases hin : 0 < usage.tokensIn <;> by_cases hout : 0 < usage.tokensOut <;>
    by_cases hreq : 0 < usage.requests <;> simp [Insertable,newEntry,hin,hout,hreq]

theorem meterMaaSEvent_insertable_iff (usage : MaaSUsage) :
    (∀ c ∈ meterMaaSEvent usage, ∀ projectID, Insertable (c.entries projectID)) ↔
      (isModelBillable usage.state → ∀ n ∈ [usage.tokensIn,usage.tokensOut,usage.requests], 0 < n → Fits n) := by
  unfold meterMaaSEvent
  split
  · rename_i hbill
    simp only [List.mem_singleton,forall_eq,Call.entries,maasMeters_insertable_iff,hbill,forall_const]
  · rename_i hbill
    simp [hbill]

theorem processModelEvent_goes_iff :
    Goes (processModelEvent dec ce) ↔ ∃ data ∈ dec.model ce.data, data.Meterable := by
  unfold processModelEvent
  cases dec.model ce.data with
  | none => simp
  | some data =>
    dsimp only
    split
    · rename_i hd
      simp [MaaSEventData.Meterable,not_le.mpr hd]
    · rename_i hd
      simp only [goes_ok,List.forall_mem_cons,meterMaaSEvent_insertable_iff]
      simp [MaaSEventData.Meterable,MaaSEventData.counts,not_lt.mp hd,Call.entries]

theorem processCustomMetric_goes_iff {d : MetricDef} :
    Goes (env.processCustomMetric d ce) ↔ ∃ data ∈ env.object ce.data,
      (env.customValues d data).length ≤ 5461 ∧ ∀ value ∈ env.customValues d data, Fits value := by
  unfold Env.processCustomMetric
  cases env.object ce.data with
  | none => simp
  | some data =>
    have hvalues (projectID : String) (periodStart : Int) : (d.meters.filterMap fun m =>
        ((extractField data m.valueField).bind env.toFloat64).bind fun value =>
          if value ≤ 0 then none
          else some (newEntry d.resourceType (env.textField data d.resourceIDField)
            (env.textField data d.tenantIDField) projectID "" m.meterName value m.unit periodStart
            ce.time)).map (·.value) = env.customValues d data := by
      rw [List.map_filterMap,Env.customValues]
      refine List.filterMap_congr fun m _ => ?_
      cases (extractField data m.valueField).bind env.toFloat64 with
      | none => rfl
      | some value =>
        by_cases hv : value ≤ 0
        · simp [hv,Option.filter,not_lt.mpr hv]
        · simp [hv,Option.filter,newEntry,lt_of_not_ge hv]
    simp only [goes_ok,List.mem_singleton,forall_eq,Call.entries,insertable_iff_values,hvalues,
      forall_const,Option.mem_def,Option.some.injEq,exists_eq_left']
    exact and_congr_left' (by omega)

theorem processOSACResourceEvent_goes (h : validateOSACv1 dec ce = .ok ()) :
    Goes (processOSACResourceEvent dec ce) := by
  cases hmd : dec.meteringData ce.data with
  | none => simp [validateOSACv1,hmd,ite_error_eq_ok] at h
  | some md =>
    simp only [processOSACResourceEvent,hmd]
    split_ifs
    · simp [processOSACComputeInstance,Call.entries]
    · simp [processOSACClusterOrder,Call.entries]
    · simp [processOSACInference,Call.entries,meterMaaSEvent,isModelBillable]
    · simp

theorem validated_object {now : Int} (h : validateCloudEvent env.decoder env.identify now ce = .ok ())
    (hv1 : ¬ isOSACv1 ce = true) (hvm : ce.type ≠ eventTypeComputeInstance)
    (hcl : ce.type ≠ eventTypeCluster)
    (hmodel : ¬ (ce.type = eventTypeModel ∨ ce.type = eventTypeInferenceTokens)) :
    ∃ data, env.object ce.data = some data := by
  obtain ⟨⟨hid,-⟩,-⟩ := validated_identity h
  have hclass : (classifyEvent env.decoder ce).2.1 = "" := by
    obtain ⟨hm,hi⟩ := not_or.mp hmodel
    unfold classifyEvent
    rw [if_neg hv1]
    split
    · rfl
    · simp only [if_neg hvm,if_neg hcl,if_neg hm,if_neg hi]
  cases hobj : env.object ce.data with
  | some data => exact ⟨data,rfl⟩
  | none =>
    refine absurd ?_ hid
    unfold Env.identify
    simp only [hclass,true_or,if_true]
    split
    · rename_i hdata
      rw [hobj] at hdata
      cases hdata
    · exact hclass

/-- The condition is exact: an accepted event is of this kind if and only if its texts can be
stored, its handler succeeds and the database rejects none of its calls. -/
theorem processable_iff {now : Int} (h : validateCloudEvent env.decoder env.identify now ce = .ok ()) :
    Processable env ce ↔ env.storable ce = true ∧ Goes (env.handle ce) := by
  unfold Processable Env.handle
  refine and_congr_right fun _ => ?_
  split_ifs with hv1 hvm hcl hmodel
  · exact iff_of_true trivial (processOSACResourceEvent_goes ((validated_identity h).2 hv1))
  · exact processComputeInstanceEvent_goes_iff.symm
  · exact processClusterEvent_goes_iff.symm
  · exact processModelEvent_goes_iff.symm
  · obtain ⟨data,hdata⟩ := validated_object h hv1 hvm hcl hmodel
    cases env.metricDef ce.type with
    | none => simp
    | some d => simp [processCustomMetric_goes_iff,hdata]

end Handlers

/-- The steps in which PostgreSQL does not fail. -/
def Label.undisturbed : Label → Bool
  | .submit _ _ failed => !failed
  | .claim _ failed => !failed
  | .call _ fault => fault.isNone
  | .finish _ => true
  | .commit _ outcome => outcome = .committed
  | .abort _ => false

inductive Answers (env : Env δ) (s : State δ) : Response → Prop
  | invalid {request : Request} {e : ValidationError} :
      Answers env s ⟨none,request,some (.validation e)⟩
  | collision {n : Nat} {request : Request} : Answers env s ⟨some n,request,some .collision⟩
  | success {n : Nat} {request : Request} : Answers env s ⟨some n,request,none⟩
  | rejected {n : Nat} {tx : Tx δ} {cur : Current δ} {c : Call} {calls : List Call} {e : StoreError}
      {projectID : String} (hf : s.sessions.find? n = some tx) (hc : tx.current = some cur)
      (hcs : cur.calls = c :: calls)
      (hw : c.write (tx.write s.db) tx.now s.nextID projectID = .error e) :
      Answers env s ⟨some n,tx.request,some .store⟩
  | failed {n : Nat} {tx : Tx δ} {cur : Current δ} {e : ProcessError}
      (hf : s.sessions.find? n = some tx) (hc : tx.current = some cur) (hfails : cur.fails = some e) :
      Answers env s ⟨some n,tx.request,some (.process e)⟩

section Runs
variable [DecidableEq δ] {env : Env δ} {base : Database δ} {s t : State δ} {l : Label} {r : Response}

theorem State.claim_answers {n : Nat} {tx : Tx δ} {ce : CloudEvent} {todo : List CloudEvent}
    (h : s.claim env n tx ce todo = some t) :
    t.responses = s.responses ∨ t.responses = s.responses ++ [⟨some n,tx.request,some .collision⟩] := by
  unfold State.claim at h
  split at h
  · split at h
    · cases h
      exact .inl rfl
    · cases h
      exact .inr rfl
  · split at h
    · cases h
    · cases h
      exact .inl rfl

omit [DecidableEq δ] in
theorem State.call_answers {n : Nat} {tx : Tx δ} {cur : Current δ} {c : Call} {calls : List Call}
    (h : s.call n tx cur c calls none = some t) :
    t.responses = s.responses ∨ t.responses = s.responses ++ [⟨some n,tx.request,some .store⟩] ∧
      ∃ projectID e, c.write (tx.write s.db) tx.now s.nextID projectID = .error e := by
  simp only [State.call,Option.isSome_none,Bool.false_eq_true,if_false] at h
  split at h
  · rename_i hw
    cases h
    exact .inr ⟨rfl,_,_,hw⟩
  · split at h
    · cases h
    · cases h
      exact .inl rfl

theorem step_answers (h : step env s l = some t) (hl : l.undisturbed = true)
    (hr : t.responses = s.responses ++ [r]) : Answers env s r := by
  have hnone (hrs : t.responses = s.responses) : False := by simp [hrs] at hr
  have hlast {r' : Response} (hrs : t.responses = s.responses ++ [r']) : r' = r := by
    simpa [hrs] using hr
  cases l with
  | submit request now failed =>
    simp only [step,Option.some.injEq] at h
    unfold State.submit at h
    split at h
    · subst h
      rw [← hlast rfl]
      exact .invalid
    · rw [if_neg (by simpa [Label.undisturbed] using hl)] at h
      subst h
      exact (hnone rfl).elim
  | claim n failed =>
    have hf : failed = false := by simpa [Label.undisturbed] using hl
    subst hf
    obtain ⟨tx,hf,h⟩ := Option.bind_eq_some_iff.mp h
    split at h
    · rw [if_neg Bool.false_ne_true] at h
      rcases State.claim_answers h with hrs | hrs
      · exact (hnone hrs).elim
      · rw [← hlast hrs]
        exact .collision
    · cases h
  | call n fault =>
    have hf : fault = none := by simpa [Label.undisturbed] using hl
    subst hf
    obtain ⟨tx,hf,h⟩ := Option.bind_eq_some_iff.mp h
    split at h
    · rename_i cur hc
      split at h
      · rename_i c calls hcs
        rcases State.call_answers h with hrs | ⟨hrs,projectID,e,hw⟩
        · exact (hnone hrs).elim
        · rw [← hlast hrs]
          exact .rejected hf hc hcs hw
      · cases h
    · cases h
  | finish n =>
    obtain ⟨tx,hf,h⟩ := Option.bind_eq_some_iff.mp h
    split at h
    · rename_i cur hc
      split at h
      · cases h
        exact (hnone rfl).elim
      · rename_i hfails
        cases h
        rw [← hlast rfl]
        exact .failed hf hc hfails
      · cases h
    · cases h
  | commit n outcome =>
    have ho : outcome = .committed := by simpa [Label.undisturbed] using hl
    subst ho
    obtain ⟨tx,hf,h⟩ := Option.bind_eq_some_iff.mp h
    split at h
    · cases h
      rw [← hlast rfl]
      exact .success
    · rename_i ho
      cases ho
    · rename_i ho
      cases ho
    · cases h
  | abort n => cases hl

omit [DecidableEq δ] in
theorem Current.Under.goes {now : Int} {cur : Current δ} (h : cur.Under env now)
    (hs : env.storable cur.event = true) (hgoes : Goes (env.handle cur.event)) :
    cur.fails = none ∧ ∀ c ∈ cur.calls, ∀ projectID, Insertable (c.entries projectID) := by
  obtain ⟨hfails,made,hmade,-⟩ := h
  obtain ⟨calls,hok,hins⟩ := hgoes
  have hprocess : env.processEvent now cur.event =
      (.insertRawEvent (env.rawEvent now cur.event) :: calls,none) := by
    rw [Env.processEvent,if_pos hs,hok]
  rw [hprocess] at hfails hmade
  dsimp only at hmade
  refine ⟨hfails,fun c hc projectID => ?_⟩
  have hmem : c ∈ .insertRawEvent (env.rawEvent now cur.event) :: calls :=
    hmade ▸ List.mem_append_right _ hc
  rcases List.mem_cons.mp hmem with rfl | hmem
  · exact insertable_nil
  · exact hins c hmem projectID

theorem current_goes (h : Reachable (step env) (initial base) anyStep s) {n : Nat} {tx : Tx δ}
    {cur : Current δ} (hf : s.sessions.find? n = some tx) (hc : tx.current = some cur)
    (hp : ∀ ce ∈ tx.request.events, Processable env ce) :
    cur.fails = none ∧ ∀ c ∈ cur.calls, ∀ projectID, Insertable (c.entries projectID) := by
  have hgood : Good env s.db tx := (reachable_safe h).of_find? hf
  have hclaimed : cur.event ∈ tx.claimed :=
    List.mem_map.mpr ⟨cur.toBlock,by simp [Tx.blocks,hc],rfl⟩
  have hmem : cur.event ∈ tx.request.events := by
    rw [hgood.split]
    exact List.mem_append_left _ ((Once.accept_fresh hgood.accepted).2 _ hclaimed).1
  have hvalid := reachable_checked h (n,tx) (List.mem_append_left _ (Sessions.mem_of_find? hf))
    cur.event (List.mem_append_right _ hclaimed)
  obtain ⟨hs,hgoes⟩ := (processable_iff hvalid).mp (hp _ hmem)
  exact (hgood.current cur hc).goes hs hgoes

/-- However requests interleave and fail: a request with processable data only is answered with
success, 400 or 409, except in a step in which PostgreSQL fails. -/
theorem payload_never_fails (h : Reachable (step env) (initial base) anyStep s)
    (hst : step env s l = some t) (hl : l.undisturbed = true) (hr : t.responses = s.responses ++ [r])
    (hp : ∀ ce ∈ r.request.events, Processable env ce) :
    ∀ e ∈ r.error, (∃ v, e = .validation v) ∧ e.status = 400 ∨ e = .collision ∧ e.status = 409 := by
  intro e he
  cases step_answers hst hl hr with
  | invalid =>
    cases he
    exact .inl ⟨⟨_,rfl⟩,rfl⟩
  | collision =>
    cases he
    exact .inr ⟨rfl,rfl⟩
  | success => cases he
  | rejected hf hc hcs hw =>
    obtain ⟨-,hins⟩ := current_goes h hf hc hp
    obtain ⟨w,hok⟩ := (Call.write_isOk_iff _ _ _ _ _).mpr (hins _ (hcs ▸ List.mem_cons_self) _)
    rw [hok] at hw
    cases hw
  | failed hf hc hfails =>
    obtain ⟨hnone,-⟩ := current_goes h hf hc hp
    rw [hnone] at hfails
    cases hfails

end Runs

theorem heartbeat_processable {subject : String}
    (hs : heartbeatEnv.storable (heartbeat subject) = true) : Processable heartbeatEnv (heartbeat subject) := by
  have ht : (heartbeat subject).type = eventTypeComputeInstance := rfl
  have hv1 := not_v1_of_type ht (by simp)
  unfold Processable
  rw [hv1,if_neg Bool.false_ne_true,if_pos ht]
  exact ⟨hs,⟨60,120,240,"acme","vm-1","RUNNING",2,4⟩,rfl,fun _ => by decide +kernel⟩

/-- A heartbeat is committed, and another content for its identity is answered with 409. -/
theorem payload_never_fails_collision :
    ∃ s t r, Reachable (step heartbeatEnv) (initial {}) anyStep s ∧
      step heartbeatEnv s (.claim 1 false) = some t ∧ t.responses = s.responses ++ [r] ∧
      r.error = some .collision ∧
      ∀ e ∈ r.error, (∃ v, e = .validation v) ∧ e.status = 400 ∨ e = .collision ∧ e.status = 409 := by
  obtain ⟨s,hs,t,hst,hr⟩ := Reachable.exists_of_run (step heartbeatEnv) (initial {}) emptyState
    (.submit (.batch [heartbeat ""]) heartbeatTime false :: heartbeatSteps 0 ++
      [.commit 0 .committed,.submit (.batch [heartbeat "x"]) heartbeatTime false])
    (fun s => ∃ t, step heartbeatEnv s (.claim 1 false) = some t ∧
      t.responses = s.responses ++ [⟨some 1,.batch [heartbeat "x"],some .collision⟩])
    ⟨rfl,rfl,rfl,rfl⟩ (by decide +kernel)
  refine ⟨s,t,_,hs,hst,hr,rfl,payload_never_fails hs hst rfl hr ?_⟩
  simpa [Request.events] using heartbeat_processable (by decide)

def noteData (note : String) : String :=
  "\x7b\"tenant_id\":\"acme\",\"instance_id\":\"vm-1\",\"state\":\"RUNNING\",\"duration_seconds\":60," ++
    "\"note\":\"" ++ note ++ "\"\x7d"

def payloadJson (data : String) : Option Document :=
  let vm (fields : Members) : Option Document := some (.object
    ([("tenant_id",.text "acme"),("instance_id",.text "vm-1"),("state",.text "RUNNING")] ++ fields))
  if data = "cores" then vm [("duration_seconds",.number "60"),("cores",.text "two")]
  else if data = "no duration" then vm []
  else if data = noteData "\\u0000" then vm [("duration_seconds",.number "60"),("note",.text "\x00")]
  else if data = noteData "\\ud800" then vm [("duration_seconds",.number "60"),("note",.text "\ufffd")]
  else if data = "tokens" then
    some (.object [("tenant_id",.text "acme"),("model_id",.text "m"),("tokens_in",.number "1000000000000")])
  else none

def payloadEnv : Env CloudEvent :=
  { heartbeatEnv with parseFloat := fun literal => (parseInt literal).map fun n => n }.withJson
    payloadJson fun _ => ""

def payloadEvent (type data : String) : CloudEvent := { heartbeat "" with type, data }

def payloadAnswer (type data : String) (steps : List Label) : Option (List (Option IngestError × Option Nat)) :=
  (runLabels (step payloadEnv) emptyState
    (.submit (.batch [payloadEvent type data]) heartbeatTime false :: steps)).map fun s =>
    s.responses.map fun r => (r.error,r.error.map IngestError.status)

/-- All of them pass validation, and all are answered with 500 though PostgreSQL did not fail:
data that the handler cannot decode or meter, a value and texts that PostgreSQL does not store. -/
theorem payload_answered_500 :
    payloadAnswer eventTypeComputeInstance "cores" [.claim 0 false,.call 0 none,.finish 0] =
      some [(some (.process .badData),some 500)] ∧
    payloadAnswer eventTypeComputeInstance "no duration" [.claim 0 false,.call 0 none,.finish 0] =
      some [(some (.process (.badDuration 0)),some 500)] ∧
    payloadAnswer eventTypeModel "tokens" [.claim 0 false,.call 0 none,.call 0 none,.call 0 none] =
      some [(some .store,some 500)] ∧
    payloadAnswer eventTypeComputeInstance (noteData "\\u0000") [.claim 0 false,.finish 0] =
      some [(some (.process .unstorable),some 500)] ∧
    payloadAnswer eventTypeComputeInstance (noteData "\\ud800") [.claim 0 false,.finish 0] =
      some [(some (.process .unstorable),some 500)] := by
  refine ⟨?_,?_,?_,?_,?_⟩ <;> decide +kernel

end CostConsumer.Ingest
