import CostConsumer.Quota.Admin
import Mathlib.Algebra.Order.BigOperators.Group.List
set_option autoImplicit false

namespace CostConsumer.Quota.Admin
open Foundation Numeric Billing

def counts (clock : Int) (tenantID meterName : String) (q : QuotaRecord) : Bool :=
  q.tenantID = tenantID && q.meterName = meterName && q.projectID ≠ "" && q.notEnded clock

def projectTotal (rows : List QuotaRecord) (clock : Int) (tenantID meterName : String) : Rat :=
  sumLimits (rows.filter (counts clock tenantID meterName))

theorem counts_iff {clock : Int} {tenantID meterName : String} {q : QuotaRecord} :
    counts clock tenantID meterName q = true ↔
      q.tenantID = tenantID ∧ q.meterName = meterName ∧ q.projectID ≠ "" ∧ q.notEnded clock = true := by
  simp [counts,and_assoc]

theorem sumLimits_append (rows rows' : List QuotaRecord) :
    sumLimits (rows ++ rows') = sumLimits rows + sumLimits rows' := by
  simp [sumLimits]

theorem sumLimits_cons (q : QuotaRecord) (rows : List QuotaRecord) :
    sumLimits (q :: rows) = q.limitValue.value + sumLimits rows := by
  simp [sumLimits]

theorem sumLimits_sublist {rows rows' : List QuotaRecord} (h : rows.Sublist rows')
    (hn : ∀ q ∈ rows', 0 ≤ q.limitValue.value) : sumLimits rows ≤ sumLimits rows' := by
  refine (h.map _).sum_le_sum fun v hv => ?_
  obtain ⟨q,hq,rfl⟩ := List.mem_map.mp hv
  exact hn q hq

theorem sumLimits_scaled (rows : List QuotaRecord) : ∃ n : Int, sumLimits rows*10^6 = n := by
  induction rows with
  | nil => exact ⟨0,by simp [sumLimits]⟩
  | cons q rows ih =>
    obtain ⟨n,hn⟩ := ih
    refine ⟨q.limitValue.units+n,?_⟩
    rw [sumLimits_cons,add_mul,hn,q.limitValue.value_scaled]
    push_cast
    rfl

theorem sumLimits_add_stored {rows : List QuotaRecord} {x : Rat} {limit : Column 18 6}
    (h : sumLimits rows + x ≤ limit.value) : sumLimits rows + stored 6 x ≤ limit.value := by
  obtain ⟨n,hn⟩ := sumLimits_scaled rows
  have hx : x*10^6 ≤ (limit.units-n : Int) := by
    have := mul_le_mul_of_nonneg_right h (by positivity : (0 : Rat) ≤ 10^6)
    rw [add_mul,hn,limit.value_scaled] at this
    push_cast
    linarith
  have hs := stored_le hx
  rw [Int.cast_sub,sub_div,← limit.value_scaled,← hn,mul_div_cancel_right₀ _ (by positivity),
    mul_div_cancel_right₀ _ (by positivity)] at hs
  linarith

section Replace
variable {rows rows' : List QuotaRecord} {row : QuotaRecord}

theorem projectLimitSum_eq (rows : List QuotaRecord) (clock : Int) (tenantID meterName : String) (id : Nat) :
    projectLimitSum rows clock tenantID meterName id =
      sumLimits ((rows.filter (fun q => q.id ≠ id)).filter (counts clock tenantID meterName)) := by
  rw [projectLimitSum,projectRows,List.filter_filter]
  rfl

theorem projectTotal_replace (h : Table.Replaces (·.id) rows rows' row) (clock : Int)
    (tenantID meterName : String) :
    projectTotal rows' clock tenantID meterName =
      projectLimitSum rows clock tenantID meterName row.id +
        if counts clock tenantID meterName row then row.limitValue.value else 0 := by
  obtain ⟨pre,post,rfl,hrest⟩ := h
  rw [projectTotal,projectLimitSum_eq,hrest,List.filter_append,List.filter_append,List.filter_cons,
    sumLimits_append,sumLimits_append]
  split
  · rw [sumLimits_cons]
    ring
  · ring

theorem mem_replace (h : Table.Replaces (·.id) rows rows' row) {q : QuotaRecord} (hq : q ∈ rows') :
    q = row ∨ q ∈ rows ∧ q.id ≠ row.id := by
  obtain ⟨pre,post,rfl,hrest⟩ := h
  have hmem : q = row ∨ q ∈ pre ++ post := by
    simpa [or_left_comm] using hq
  rcases hmem with rfl | hmem
  · exact .inl rfl
  · rw [← hrest] at hmem
    simpa using Or.inr (List.mem_filter.mp hmem)

end Replace

def Request.read (r : Request) : Option (Rat × Rat) :=
  match r.stage with
  | .write read => read
  | _ => none

/-- A row that is about to be written leaves enough for the project limits. A tenant's
limit is not below the limits of its projects. A project's limit is not negative, and
unless it is 0, its check was against a limit that no limit of the tenant is below
and a sum that the other limits do not exceed. -/
def Fits (rows : List QuotaRecord) (clock : Int) (read : Option (Rat × Rat)) (row : QuotaRecord) : Prop :=
  if row.projectID = "" then
    projectLimitSum rows clock row.tenantID row.meterName row.id ≤ row.limitValue.value
  else
    0 ≤ row.limitValue.value ∧ (0 < row.limitValue.value →
      ∀ t ∈ tenantRows rows clock row.tenantID row.meterName, t.id ≠ row.id →
        ∃ p ∈ read, p.1 ≤ t.limitValue.value ∧
          projectLimitSum rows clock row.tenantID row.meterName row.id ≤ p.2)

instance (rows : List QuotaRecord) (clock : Int) (read : Option (Rat × Rat)) (row : QuotaRecord) :
    Decidable (Fits rows clock read row) := by
  unfold Fits
  infer_instance

/-- Rows that are in effect when they are written, or will be, fit. -/
def Allotted (s : State) : Label → Prop
  | .write n _ => ∀ r ∈ s.requests[n]?, ∀ row ∈ r.row? s, row.notEnded s.clock = true →
      Fits s.quotas.rows s.clock r.read row
  | _ => True

instance (s : State) (l : Label) : Decidable (Allotted s l) := by
  unfold Allotted
  split <;> infer_instance

/-- Every limit of a tenant covers the limits of its projects, now and until they end. -/
structure Covered (rows : List QuotaRecord) (clock : Int) : Prop where
  nonneg : ∀ q ∈ rows, q.projectID ≠ "" → q.notEnded clock = true → 0 ≤ q.limitValue.value
  covered : ∀ t ∈ rows, t.projectID = "" → t.notEnded clock = true →
    projectTotal rows clock t.tenantID t.meterName ≤ t.limitValue.value

theorem Covered.counted {rows : List QuotaRecord} {clock : Int} (h : Covered rows clock)
    {tenantID meterName : String} : ∀ q ∈ rows.filter (counts clock tenantID meterName),
      0 ≤ q.limitValue.value := by
  intro q hq
  obtain ⟨hmem,hc⟩ := List.mem_filter.mp hq
  obtain ⟨-,-,hp,he⟩ := counts_iff.mp hc
  exact h.nonneg q hmem hp he

theorem notEnded_of_le {q : QuotaRecord} {clock now : Int} (hle : clock ≤ now)
    (h : q.notEnded now = true) : q.notEnded clock = true := by
  cases hto : q.effectiveTo with
  | none => simp [QuotaRecord.notEnded,hto]
  | some stop =>
    simp only [QuotaRecord.notEnded,hto,Option.all_some,decide_eq_true_eq] at h ⊢
    omega

theorem Covered.later {rows : List QuotaRecord} {clock now : Int} (h : Covered rows clock)
    (hle : clock ≤ now) : Covered rows now := by
  refine ⟨fun q hq hp he => h.nonneg q hq hp (notEnded_of_le hle he),fun t ht hp he => ?_⟩
  have hsub : (rows.filter (counts now t.tenantID t.meterName)).Sublist
      (rows.filter (counts clock t.tenantID t.meterName)) := by
    refine List.monotone_filter_right rows fun q hq => ?_
    obtain ⟨h₁,h₂,h₃,h₄⟩ := counts_iff.mp hq
    exact counts_iff.mpr ⟨h₁,h₂,h₃,notEnded_of_le hle h₄⟩
  exact (sumLimits_sublist hsub h.counted).trans (h.covered t ht hp (notEnded_of_le hle he))

theorem Covered.others {rows : List QuotaRecord} {clock : Int} (h : Covered rows clock)
    {tenantID meterName : String} (id : Nat) :
    projectLimitSum rows clock tenantID meterName id ≤ projectTotal rows clock tenantID meterName := by
  rw [projectLimitSum_eq]
  exact sumLimits_sublist (List.filter_sublist.filter _) h.counted

structure QuotaBody.Writes (q : QuotaBody) (row : QuotaRecord) : Prop where
  limitValue : row.limitValue.value = stored 6 q.limitValue
  tenantID : row.tenantID = q.tenantID
  meterName : row.meterName = q.meterName
  unit : row.unit = q.unit
  period : row.period = q.period

theorem row?_writes {s : State} {r : Request} {row : QuotaRecord} (h : r.row? s = some row) :
    r.quota.Writes row := by
  obtain ⟨v,hv,h⟩ := Option.bind_eq_some_iff.mp h
  have hlimit := Column.value_of_store hv
  split at h
  · cases h
    exact ⟨hlimit,rfl,rfl,rfl,rfl⟩
  · obtain ⟨q,-,rfl⟩ := Option.map_eq_some_iff.mp h
    exact ⟨hlimit,rfl,rfl,rfl,rfl⟩

theorem Request.Valid.checked_read {r : Request} (h : r.Valid) {p : Rat × Rat} (hp : p ∈ r.read) :
    p.2 + r.quota.limitValue ≤ p.1 := by
  unfold Request.read at hp
  split at hp
  · rename_i read hs
    exact h.checked p.1 p.2 (by rw [hs,Option.mem_def.mp hp])
  · cases hp

theorem Covered.replace {rows rows' : List QuotaRecord} {clock : Int} {r : Request} {row : QuotaRecord}
    (h : Covered rows clock) (hr : Table.Replaces (·.id) rows rows' row) (hv : r.Valid)
    (hlimit : row.limitValue.value = stored 6 r.quota.limitValue)
    (hfits : row.notEnded clock = true → Fits rows clock r.read row) : Covered rows' clock := by
  refine ⟨fun q hq hp he => ?_,fun t ht hp he => ?_⟩
  · rcases mem_replace hr hq with rfl | ⟨hq,-⟩
    · have hf := hfits he
      rw [Fits,if_neg hp] at hf
      exact hf.1
    · exact h.nonneg q hq hp he
  · rw [projectTotal_replace hr]
    rcases mem_replace hr ht with rfl | ⟨ht,hne⟩
    · have hf := hfits he
      rw [Fits,if_pos hp] at hf
      rwa [if_neg (by simp [counts,hp]),add_zero]
    · have hothers := (h.others row.id).trans (h.covered t ht hp he)
      split
      · -- the written row is one of the projects that `t` is for
        rename_i hc
        obtain ⟨h₁,h₂,h₃,h₄⟩ := counts_iff.mp hc
        have hf := hfits h₄
        rw [Fits,if_neg h₃,h₁,h₂] at hf
        rcases hf.1.eq_or_lt with hz | hpos
        · rwa [← hz,add_zero]
        · have ht' : t ∈ tenantRows rows clock t.tenantID t.meterName :=
            List.mem_filter.mpr ⟨ht,by simp [hp,he]⟩
          obtain ⟨p,hread,hlow,hsum⟩ := hf.2 hpos t ht' hne
          have hchecked := hv.checked_read hread
          rw [hlimit]
          refine sumLimits_add_stored ?_
          rw [← projectLimitSum]
          linarith
      · rwa [add_zero]

theorem Covered.endQuota {quotas : Quotas} {clock : Int} (h : Covered quotas.rows clock) (id : Nat) :
    Covered (endQuota quotas id clock).rows clock := by
  have hkept : ∀ q ∈ (Admin.endQuota quotas id clock).rows, q.notEnded clock = true → q ∈ quotas.rows := by
    intro q hq he
    obtain ⟨q',hq',-,rfl⟩ := Table.mem_updateWhere (f := endAt clock) (fun _ => rfl) hq
    split at he
    · simp [QuotaRecord.notEnded,endAt] at he
    · rename_i hd
      rwa [if_neg hd]
  refine ⟨fun q hq hp he => h.nonneg q (hkept q hq he) hp he,fun t ht hp he => ?_⟩
  have hsub : ((Admin.endQuota quotas id clock).rows.filter (counts clock t.tenantID t.meterName)).Sublist
      (quotas.rows.filter (counts clock t.tenantID t.meterName)) :=
    Table.updateWhere_selection (fun q => by simp [counts,QuotaRecord.notEnded,endAt]) quotas _ _
  exact (sumLimits_sublist hsub h.counted).trans (h.covered t (hkept t ht he) hp he)

theorem Covered.moves {s t : State} {l : Label} (h : Covered s.quotas.rows s.clock) (hs : Sound s)
    (hok : Allotted s l) (hm : Moves s l t) : Covered t.quotas.rows t.clock := by
  cases hm with
  | tick hle => exact h.later hle
  | keep hq hc _ =>
    rw [hq,hc]
    exact h
  | delete hq hc _ =>
    rw [hq,hc]
    exact h.endQuota _
  | put hr hread hrow hq hc _ =>
    rw [hc]
    exact h.replace (hq hs) (hs.2 _ (List.mem_of_getElem? hr)) (row?_writes hrow).limitValue (hok _ hr _ hrow)

theorem reachable_covered {s : State} (h : Reachable step initial Allotted s) :
    Covered s.quotas.rows s.clock := by
  refine h.invariant_with (Q := fun s => Covered s.quotas.rows s.clock) (fun _ => reachable_sound)
    (fun s hi => ?_) fun _ _ _ hs _ hc hok hst => hc.moves hs hok (step_moves hst)
  rw [hi.1]
  exact ⟨by simp [Table.empty],by simp [Table.empty]⟩

/-- If quotas are written with room for what is already promised, the limits of a
tenant's projects never add up to more than the limit of the tenant. -/
theorem no_project_overcommit {s : State} (h : Reachable step initial Allotted s) {t : QuotaRecord}
    (ht : t ∈ s.quotas.rows) (hlevel : t.projectID = "") (hactive : t.activeAt s.clock = true) :
    sumLimits (s.quotas.rows.filter fun q => q.tenantID = t.tenantID && q.meterName = t.meterName &&
      q.projectID ≠ "" && q.activeAt s.clock) ≤ t.limitValue.value := by
  have hcovered := reachable_covered h
  have hsub : (s.quotas.rows.filter fun q => q.tenantID = t.tenantID && q.meterName = t.meterName &&
      q.projectID ≠ "" && q.activeAt s.clock).Sublist
      (s.quotas.rows.filter (counts s.clock t.tenantID t.meterName)) := by
    refine List.monotone_filter_right _ fun q hq => ?_
    simp only [Bool.and_eq_true,decide_eq_true_eq] at hq
    exact counts_iff.mpr ⟨hq.1.1.1,hq.1.1.2,hq.1.2,QuotaRecord.notEnded_of_activeAt hq.2⟩
  exact (sumLimits_sublist hsub hcovered.counted).trans
    (hcovered.covered t ht hlevel (QuotaRecord.notEnded_of_activeAt hactive))

def body (projectID : String) (limitValue : Rat) : Except String QuotaBody :=
  .ok ⟨"","acme",projectID,"","cpu",limitValue,"cores","","",[],0,none⟩

def emptyStore : State := ⟨.empty,1,0,[],[]⟩

theorem emptyStore_initial : initial emptyStore := ⟨rfl,rfl,rfl⟩

/-- A request from start to end, with nothing else under way. -/
def createFor (projectID : String) (limitValue : Rat) : List Label :=
  [.create 5 (body projectID limitValue)] ++
    (if projectID = "" then [] else [.readLimit 0 false,.readSum 0 false]) ++ [.write 0 .committed]

/-- A limit of 100 is shared out as 60 and 40, and the 60 are later taken back. -/
theorem no_project_overcommit_in_run : ∃ s t, Reachable step initial Allotted s ∧ t ∈ s.quotas.rows ∧
    t.projectID = "" ∧ t.activeAt s.clock = true ∧
    sumLimits (s.quotas.rows.filter fun q => q.tenantID = t.tenantID && q.meterName = t.meterName &&
      q.projectID ≠ "" && q.activeAt s.clock) ≤ t.limitValue.value := by
  obtain ⟨s,hs,t,ht,hlevel,hactive⟩ := Reachable.exists_of_checked step initial
    (fun s l => decide (Allotted s l)) emptyStore
    (createFor "" 100 ++ createFor "web" 60 ++ createFor "db" 40 ++
      [.tick 10,.update 10 1 (body "" 120),.write 0 .committed,.delete 2 .committed])
    (fun s => ∃ t ∈ s.quotas.rows, t.projectID = "" ∧ t.activeAt s.clock = true)
    (fun _ _ h => of_decide_eq_true h) emptyStore_initial (by decide +kernel)
  exact ⟨s,t,hs,ht,hlevel,hactive,no_project_overcommit hs ht hlevel hactive⟩

/-- A run that ends with no request under way and with project limits that add up
to more than the limit of the tenant. -/
def Overcommits (run : List Label) : Prop :=
  ∃ s, runLabels step emptyStore run = some s ∧ Reachable step initial anyStep s ∧ s.requests = [] ∧
    ∃ t ∈ s.quotas.rows, t.projectID = "" ∧ t.activeAt s.clock = true ∧ t.limitValue.value <
      sumLimits (s.quotas.rows.filter fun q => q.tenantID = t.tenantID && q.meterName = t.meterName &&
        q.projectID ≠ "" && q.activeAt s.clock)

/-- The tenant's limit is lowered below what its projects have; it is set after what
they have; and two requests for 60 of 100 both make their check before either writes. -/
theorem project_limits_overcommitted :
    Overcommits (createFor "" 100 ++ createFor "web" 80 ++
      [.tick 10,.update 10 1 (body "" 50),.write 0 .committed]) ∧
    Overcommits ([.create 5 (body "web" 80),.readLimit 0 false,.write 0 .committed] ++ createFor "" 50 ++
      [.tick 10]) ∧
    Overcommits (createFor "" 100 ++ [.create 5 (body "web" 60),.create 5 (body "db" 60),
      .readLimit 0 false,.readLimit 1 false,.readSum 0 false,.readSum 1 false,.write 0 .committed,
      .write 0 .committed,.tick 10]) :=
  ⟨Reachable.run_end emptyStore_initial (by decide +kernel),Reachable.run_end emptyStore_initial (by decide +kernel),
    Reachable.run_end emptyStore_initial (by decide +kernel)⟩

structure WellFormed (q : QuotaRecord) : Prop where
  tenantID : q.tenantID ≠ ""
  meterName : q.meterName ≠ ""
  unit : q.unit ≠ ""
  limitValue : 0 < q.limitValue.value
  period : ∀ now, ∃ window, resolvePeriod q.period now = .ok window

/-- The limit that is written does not round to 0, nor is it below; an update has a
tenant, a meter and a unit. -/
def Filled (s : State) : Label → Prop
  | .write n _ => ∀ r ∈ s.requests[n]?, ∀ row ∈ r.row? s, 0 < row.limitValue.value ∧
      (r.target ≠ none → row.tenantID ≠ "" ∧ row.meterName ≠ "" ∧ row.unit ≠ "")
  | _ => True

instance (s : State) (l : Label) : Decidable (Filled s l) := by
  unfold Filled
  split <;> infer_instance

theorem Request.Valid.wellFormed {s : State} {r : Request} {row : QuotaRecord} (h : r.Valid)
    (hrow : r.row? s = some row) (hlimit : 0 < row.limitValue.value)
    (hfields : r.target ≠ none → row.tenantID ≠ "" ∧ row.meterName ≠ "" ∧ row.unit ≠ "") :
    WellFormed row := by
  have hw := row?_writes hrow
  obtain ⟨p,hp⟩ := h.period
  have hresolved : ∀ now, ∃ window, resolvePeriod row.period now = .ok window :=
    fun now => ⟨p.window now,by rw [resolvePeriod_eq,hw.period,hp]; rfl⟩
  by_cases htarget : r.target = none
  · obtain ⟨h₁,h₂,h₃,-⟩ := h.created htarget
    exact ⟨hw.tenantID ▸ h₁,hw.meterName ▸ h₂,hw.unit ▸ h₃,hlimit,hresolved⟩
  · obtain ⟨h₁,h₂,h₃⟩ := hfields htarget
    exact ⟨h₁,h₂,h₃,hlimit,hresolved⟩

theorem wellFormed_moves {s t : State} {l : Label} (h : ∀ q ∈ s.quotas.rows, WellFormed q) (hs : Sound s)
    (hok : Filled s l) (hm : Moves s l t) : ∀ q ∈ t.quotas.rows, WellFormed q := by
  cases hm with
  | tick _ => exact h
  | keep hq _ _ =>
    rw [hq]
    exact h
  | delete hq _ _ =>
    rw [hq]
    intro q hmem
    obtain ⟨q',hq',-,rfl⟩ := Table.mem_updateWhere (f := endAt s.clock) (fun _ => rfl) hmem
    have hw := h q' hq'
    split
    · exact ⟨hw.tenantID,hw.meterName,hw.unit,hw.limitValue,hw.period⟩
    · exact hw
  | put hr _ hrow hq _ _ =>
    intro q hmem
    rcases mem_replace (hq hs) hmem with rfl | ⟨hmem,-⟩
    · obtain ⟨hlimit,hfields⟩ := hok _ hr _ hrow
      exact (hs.2 _ (List.mem_of_getElem? hr)).wellFormed hrow hlimit hfields
    · exact h q hmem

/-- If limits do not round to 0 and updates have the fields that creations must have,
all stored quotas are well formed. -/
theorem quotas_wellFormed {s : State} (h : Reachable step initial Filled s) {q : QuotaRecord}
    (hq : q ∈ s.quotas.rows) : WellFormed q := by
  refine h.invariant_with (Q := fun s => ∀ q ∈ s.quotas.rows, WellFormed q) (fun _ => reachable_sound)
    (fun s hi => ?_) (fun _ _ _ hs _ hw hok hst => wellFormed_moves hw hs hok (step_moves hst)) q hq
  rw [hi.1]
  simp [Table.empty]

theorem quotas_wellFormed_in_run : ∃ s q, Reachable step initial Filled s ∧ q ∈ s.quotas.rows ∧
    WellFormed q := by
  obtain ⟨s,hs,hsome⟩ := Reachable.exists_of_checked step initial (fun s l => decide (Filled s l)) emptyStore
    (createFor "" 100 ++ createFor "web" 60 ++
      [.update 10 1 (body "" 120),.create 10 (body "" 0),.write 0 .committed,.delete 2 .committed])
    (fun s => s.quotas.rows ≠ []) (fun _ _ h => of_decide_eq_true h) emptyStore_initial (by decide +kernel)
  obtain ⟨q,hq⟩ := List.exists_mem_of_ne_nil _ hsome
  exact ⟨s,q,hs,hq,quotas_wellFormed hs hq⟩

def StoresMalformed (run : List Label) : Prop :=
  ∃ s, runLabels step emptyStore run = some s ∧ Reachable step initial anyStep s ∧
    ∃ q ∈ s.quotas.rows, ¬ WellFormed q

theorem storesMalformed_of_run {run : List Label}
    (h : ∃ s, runLabels step emptyStore run = some s ∧ ∃ q ∈ s.quotas.rows, q.limitValue.value ≤ 0) :
    StoresMalformed run := by
  obtain ⟨s,hr,hs,q,hq,hle⟩ := Reachable.run_end emptyStore_initial h
  exact ⟨s,hr,hs,q,hq,fun hw => absurd hw.limitValue (not_lt.mpr hle)⟩

/-- An update with the body of an empty JSON object, and a creation with a limit below
half of the smallest unit. -/
theorem stored_quota_malformed :
    StoresMalformed (createFor "" 100 ++
      [.update 10 1 (.ok ⟨"","","","","",0,"","","",[],0,none⟩),.write 0 .committed]) ∧
    StoresMalformed (createFor "" (1/10000000)) :=
  ⟨storesMalformed_of_run (by decide +kernel),storesMalformed_of_run (by decide +kernel)⟩

end CostConsumer.Quota.Admin
