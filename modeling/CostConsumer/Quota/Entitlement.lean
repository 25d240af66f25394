import CostConsumer.Quota.Readers
import Mathlib.Algebra.Order.BigOperators.Group.List
import Mathlib.Data.Finset.Max
set_option autoImplicit false

/-!
The check before a request is let through. It compares the sum of all limits of a
tenant with the sum of all its metered values, whatever their meters, units and
periods.
-/

namespace CostConsumer.Quota
open Inventory Foundation Numeric Billing GoTime

structure Entitlement where
  hasAccess : Bool
  balance : Rat
  usage : Rat
  overage : Rat
  deriving DecidableEq

def maxFloat64 : Rat := (2^53-1)*2^971

namespace Tables

/-- A quota whose period does not resolve, or whose sum cannot be read, counts for
nothing. -/
def addQuota (db : Tables) (f : Calls) (customerID : String) (now : Int) (total : Rat × Rat)
    (q : QuotaRecord) : Rat × Rat :=
  match q.window now with
  | .error _ => total
  | .ok v =>
    if f.sum q.id then total
    else (total.1 + q.limitValue.value,
      total.2 + db.store.meteringSum customerID q.meterName v.1 v.2)

def getEntitlementValue (db : Tables) (f : Calls) (customerID : String) (now : Int) : Entitlement :=
  let quotas := if f.quotas then [] else db.quotasForTenant customerID now
  if quotas = [] then ⟨true,maxFloat64,0,0⟩
  else
    let (totalLimit,totalUsage) := quotas.foldl (db.addQuota f customerID now) (0,0)
    let balance := totalLimit - totalUsage
    { hasAccess := totalUsage < totalLimit,
      balance := if balance < 0 then 0 else balance,
      usage := totalUsage,
      overage := if balance < 0 then -balance else 0 }

end Tables

def gated (quotas : List QuotaRecord) (now : Int) : List (QuotaRecord × Int × Int) :=
  quotas.filterMap (fun q =>
    match q.window now with
    | .error _ => none
    | .ok v => some (q,v))

def totalLimit (rs : List (QuotaRecord × Int × Int)) : Rat := (rs.map (·.1.limitValue.value)).sum

def totalUsage (s : Store) (tenantID : String) (rs : List (QuotaRecord × Int × Int)) : Rat :=
  (rs.map (fun r => s.meteringSum tenantID r.1.meterName r.2.1 r.2.2)).sum

theorem mem_gated {quotas : List QuotaRecord} {now : Int} {q : QuotaRecord} {v : Int × Int} :
    (q,v) ∈ gated quotas now ↔ q ∈ quotas ∧ q.window now = .ok v := by
  simp only [gated,List.mem_filterMap]
  constructor
  · rintro ⟨q',hq',h⟩
    split at h
    · cases h
    · rename_i hv
      cases h
      exact ⟨hq',hv⟩
  · rintro ⟨hq,hv⟩
    exact ⟨q,hq,by simp [hv]⟩

theorem totals_eq (db : Tables) (customerID : String) (now : Int) (quotas : List QuotaRecord)
    (total : Rat × Rat) :
    quotas.foldl (db.addQuota {} customerID now) total =
      (total.1 + totalLimit (gated quotas now),
        total.2 + totalUsage db.store customerID (gated quotas now)) := by
  induction quotas generalizing total with
  | nil => simp [gated,totalLimit,totalUsage]
  | cons q quotas ih =>
    rw [List.foldl_cons,ih]
    cases hv : q.window now with
    | error e => simp [Tables.addQuota,gated,hv]
    | ok v => simp [Tables.addQuota,gated,hv,totalLimit,totalUsage,add_assoc]

theorem hasAccess_iff {db : Tables} {customerID : String} {now : Int} {q : QuotaRecord}
    (hq : q ∈ db.quotasForTenant customerID now) :
    (db.getEntitlementValue {} customerID now).hasAccess = true ↔
      totalUsage db.store customerID (gated (db.quotasForTenant customerID now) now) <
        totalLimit (gated (db.quotasForTenant customerID now) now) := by
  simp [Tables.getEntitlementValue,List.ne_nil_of_mem hq,totals_eq]

section Overdraft
variable {s : Store} {tenantID : String} {rs : List (QuotaRecord × Int × Int)}

theorem totalUsage_addReading {e : MeteringEntry}
    (h : ∀ row ∈ s.meteringEntries.rows, row.id < e.id) :
    totalUsage (addReading s e) tenantID rs = totalUsage s tenantID rs +
      rs.countP (fun r => e.tenantID = tenantID ∧ e.meterName = r.1.meterName ∧
        inPeriod r.2.1 r.2.2 e.periodStart e.periodEnd = true) • e.value := by
  rw [← sum_ite_eq_countP]
  simp only [totalUsage,meteringSum_addReading h,List.sum_map_add,decide_eq_true_eq]

theorem exists_overdraft {q : QuotaRecord} {v : Int × Int} (hq : (q,v) ∈ rs)
    (ht : q.tenantID = tenantID) {id : Nat} (hid : ∀ row ∈ s.meteringEntries.rows, row.id < id)
    (projectID : String) :
    ∃ x, totalUsage (addReading s (readingFor q v id projectID x)) tenantID rs < totalLimit rs := by
  obtain ⟨k,hk,hsum⟩ : ∃ k : Nat, 0 < k ∧ ∀ x,
      totalUsage (addReading s (readingFor q v id projectID x)) tenantID rs =
        totalUsage s tenantID rs + k*x := by
    refine ⟨rs.countP (fun r => q.tenantID = tenantID ∧ q.meterName = r.1.meterName ∧
      inPeriod r.2.1 r.2.2 v.1 v.2 = true),?_,fun x => ?_⟩
    · exact List.countP_pos_iff.mpr ⟨(q,v),hq,by simp [ht,inPeriod_self]⟩
    · rw [totalUsage_addReading hid,nsmul_eq_mul]
      rfl
  have hk' : (k : Rat) ≠ 0 := by exact_mod_cast hk.ne'
  refine ⟨(totalLimit rs - totalUsage s tenantID rs - 1)/k,?_⟩
  rw [hsum,mul_div_cancel₀ _ hk']
  linarith

end Overdraft

def Counted (quotas : Table Nat QuotaRecord (·.id)) (tenantID : String) (now : Int) (q : QuotaRecord)
    (v : Int × Int) : Prop :=
  q ∈ quotas.rows ∧ q.tenantID = tenantID ∧ q.activeAt now = true ∧ q.window now = .ok v

/-- A quota the status endpoint reports as exhausted closes the gate, whatever was
metered and charged. -/
def GateRespects (quotas : Table Nat QuotaRecord (·.id)) (tenantID : String) (now : Int) : Prop :=
  ∀ db : Tables, db.quotas = quotas → ∀ q ∈ db.quotasForTenant tenantID now, ∀ st,
    db.status {} tenantID now q = some st → st.limit.value ≤ st.consumed →
      (db.getEntitlementValue {} tenantID now).hasAccess = false

def gatedFor (quotas : Table Nat QuotaRecord (·.id)) (tenantID : String) (now : Int) :
    List (QuotaRecord × Int × Int) :=
  gated (Tables.quotasForTenant { quotas } tenantID now) now

section Gate
variable {quotas : Table Nat QuotaRecord (·.id)} {tenantID : String} {now : Int}

theorem mem_gatedFor {q : QuotaRecord} {v : Int × Int} :
    (q,v) ∈ gatedFor quotas tenantID now ↔ Counted quotas tenantID now q v := by
  rw [gatedFor,mem_gated,Tables.mem_quotasForTenant,Counted]
  tauto

theorem gateRespects_iff :
    GateRespects quotas tenantID now ↔ ∀ s q v, Counted quotas tenantID now q v →
      q.limitValue.value ≤ q.statusConsumed s tenantID v →
        totalLimit (gatedFor quotas tenantID now) ≤
          totalUsage s tenantID (gatedFor quotas tenantID now) := by
  have hopen : ∀ db : Tables, db.quotas = quotas → ∀ {q},
      q ∈ db.quotasForTenant tenantID now →
        ((db.getEntitlementValue {} tenantID now).hasAccess = false ↔
          totalLimit (gatedFor quotas tenantID now) ≤
            totalUsage db.store tenantID (gatedFor quotas tenantID now)) := by
    rintro db rfl q hq
    rw [← Bool.not_eq_true,hasAccess_iff hq,not_lt]
    rfl
  constructor
  · intro h s q v hq hle
    obtain ⟨hmem,hv⟩ := mem_gated.mp (mem_gatedFor.mpr hq)
    obtain ⟨st,hst,hlimit,hconsumed⟩ := Tables.status_some ⟨s,quotas,.empty⟩ hv
    exact (hopen ⟨s,quotas,.empty⟩ rfl hmem).mp
      (h _ rfl q hmem st hst (hlimit ▸ hconsumed ▸ hle))
  · intro h db hdb q hq st hst hle
    rw [hopen db hdb hq]
    cases hv : q.window now with
    | error e => simp [Tables.status,hv] at hst
    | ok v =>
      obtain ⟨st',hst',hlimit,hconsumed⟩ := db.status_some hv
      rw [hst,Option.some.injEq] at hst'
      subst hst'
      subst hdb
      exact h db.store q v (mem_gatedFor.mp (mem_gated.mpr ⟨hq,hv⟩)) (hlimit ▸ hconsumed ▸ hle)

theorem GateRespects.not_overdrawn (h : GateRespects quotas tenantID now) {q q' : QuotaRecord}
    {v v' : Int × Int} (hq : Counted quotas tenantID now q v)
    (hq' : Counted quotas tenantID now q' v') {s : Store}
    (hs : ∀ row ∈ s.meteringEntries.rows, row.id < 2) (projectID : String)
    (hle : ∀ x, q.limitValue.value ≤
      q.statusConsumed (addReading s (readingFor q' v' 2 projectID x)) tenantID v) : False := by
  obtain ⟨x,hx⟩ := exists_overdraft (mem_gatedFor.mpr hq') hq'.2.1 hs projectID
  exact absurd hx (not_lt.mpr (gateRespects_iff.mp h _ q v hq (hle x)))

theorem GateRespects.usage (h : GateRespects quotas tenantID now) {q : QuotaRecord}
    {v : Int × Int} (hq : Counted quotas tenantID now q v) : isBudget q.unit = false := by
  obtain ⟨-,rfl,-⟩ := id hq
  by_contra hb
  refine h.not_overdrawn hq hq (s := { costEntries := [chargeFor q v q.limitValue.value] })
    (by simp [Table.empty]) "" fun x => ?_
  rw [QuotaRecord.statusConsumed,if_pos (by simpa using hb)]
  exact (spent_chargeFor q v q.limitValue.value).ge

theorem oneReading_ids (q : QuotaRecord) (v : Int × Int) (projectID : String) (value : Rat) :
    ∀ row ∈ (oneReading q v projectID value).meteringEntries.rows, row.id < 2 := by
  simp [oneReading,addReading,Table.insert,Table.empty,Table.insertRow,readingFor]

theorem GateRespects.tenantLevel (h : GateRespects quotas tenantID now) {q : QuotaRecord}
    {v : Int × Int} (hq : Counted quotas tenantID now q v) : q.projectID = "" := by
  have hu := h.usage hq
  obtain ⟨-,rfl,-⟩ := id hq
  by_contra hp
  refine h.not_overdrawn hq hq (oneReading_ids q v q.projectID q.limitValue.value) "" fun x => ?_
  rw [QuotaRecord.statusConsumed,if_neg (by simp [hu]),if_pos hp,
    meteringSumByProject_addReading (oneReading_ids q v q.projectID q.limitValue.value),
    meteringSumByProject_oneReading,if_pos rfl,if_neg (fun h => hp h.2.1.symm),add_zero]

theorem GateRespects.covers (h : GateRespects quotas tenantID now) {q q' : QuotaRecord}
    {v v' : Int × Int} (hq : Counted quotas tenantID now q v)
    (hq' : Counted quotas tenantID now q' v') :
    q'.meterName = q.meterName ∧ inPeriod v.1 v.2 v'.1 v'.2 = true := by
  have hu := h.usage hq
  have hp := h.tenantLevel hq
  obtain ⟨-,rfl,-⟩ := id hq
  by_contra hne
  refine h.not_overdrawn hq hq' (oneReading_ids q v "" q.limitValue.value) "" fun x => ?_
  rw [QuotaRecord.statusConsumed,if_neg (by simp [hu]),if_neg (not_not.mpr hp),
    meteringSum_addReading (oneReading_ids q v "" q.limitValue.value),meteringSum_oneReading,
    if_neg (fun h => hne h.2),add_zero]

theorem GateRespects.window_eq (h : GateRespects quotas tenantID now) {q q' : QuotaRecord}
    {v v' : Int × Int} (hq : Counted quotas tenantID now q v)
    (hq' : Counted quotas tenantID now q' v') : v' = v := by
  have h₁ := (h.covers hq hq').2
  have h₂ := (h.covers hq' hq).2
  simp only [inPeriod,decide_eq_true_eq] at h₁ h₂
  exact Prod.ext (le_antisymm h₂.1 h₁.1) (le_antisymm h₁.2 h₂.2)

theorem GateRespects.limit_eq (h : GateRespects quotas tenantID now) {q q' : QuotaRecord}
    {v v' : Int × Int} (hq : Counted quotas tenantID now q v)
    (hq' : Counted quotas tenantID now q' v') : q'.limitValue = q.limitValue := by
  obtain ⟨⟨m,vm⟩,hm,hmin⟩ := (gatedFor quotas tenantID now).toFinset.exists_min_image
    (fun r => r.1.limitValue.value) ⟨(q,v),List.mem_toFinset.mpr (mem_gatedFor.mpr hq)⟩
  have hm := mem_gatedFor.mp (List.mem_toFinset.mp hm)
  have hmin : ∀ r ∈ gatedFor quotas tenantID now, m.limitValue.value ≤ r.1.limitValue.value :=
    fun r hr => hmin r (List.mem_toFinset.mpr hr)
  have hu := h.usage hm
  have hp := h.tenantLevel hm
  have husage : totalUsage (oneReading m vm "" m.limitValue.value) tenantID
      (gatedFor quotas tenantID now) =
        ((gatedFor quotas tenantID now).map (fun _ => m.limitValue.value)).sum := by
    refine congrArg List.sum (List.map_congr_left fun r hr => ?_)
    have hr := mem_gatedFor.mp hr
    rw [(h.covers hm hr).1,h.window_eq hm hr,← hm.2.1]
    exact meteringSum_oneReading m vm "" m.limitValue.value
  have htotal := gateRespects_iff.mp h (oneReading m vm "" m.limitValue.value) m vm hm (by
    rw [QuotaRecord.statusConsumed,if_neg (by simp [hu]),if_neg (not_not.mpr hp),← hm.2.1]
    exact (meteringSum_oneReading m vm "" m.limitValue.value).ge)
  rw [husage] at htotal
  have hall : ∀ r ∈ gatedFor quotas tenantID now, r.1.limitValue = m.limitValue := by
    intro r hr
    refine Column.value_injective (le_antisymm ?_ (hmin r hr))
    by_contra hlt
    exact absurd (List.sum_lt_sum _ _ hmin ⟨r,hr,not_le.mp hlt⟩) (not_lt.mpr htotal)
  exact (hall _ (mem_gatedFor.mpr hq')).trans (hall _ (mem_gatedFor.mpr hq)).symm

end Gate

/-- The check respects every quota of a tenant iff they are all the same: usage of
the whole tenant, on one meter, in one window, with one limit. -/
theorem gate_respects_quotas (quotas : Table Nat QuotaRecord (·.id)) (tenantID : String) (now : Int) :
    GateRespects quotas tenantID now ↔ ∀ q v q' v', Counted quotas tenantID now q v →
      Counted quotas tenantID now q' v' → isBudget q.unit = false ∧ q.projectID = "" ∧
        q'.meterName = q.meterName ∧ v' = v ∧ q'.limitValue = q.limitValue := by
  constructor
  · intro h q v q' v' hq hq'
    exact ⟨h.usage hq,h.tenantLevel hq,(h.covers hq hq').1,h.window_eq hq hq',h.limit_eq hq hq'⟩
  · intro h
    refine gateRespects_iff.mpr fun s q v hq hle => List.sum_le_sum fun r hr => ?_
    obtain ⟨hu,hp,hmeter,hwindow,hlimit⟩ := h q v r.1 r.2 hq (mem_gatedFor.mp hr)
    rw [QuotaRecord.statusConsumed,if_neg (by simp [hu]),if_neg (not_not.mpr hp)] at hle
    rw [hmeter,hwindow,hlimit]
    exact hle

/-- The tokens of a month are used up, and nothing else is metered: the limit of
another meter keeps the gate open. -/
theorem gate_open_when_exhausted :
    ∃ db : Tables, ∃ q ∈ db.quotasForTenant "t" 0, ∃ st, db.status {} "t" 0 q = some st ∧
      st.limit.value = 1000 ∧ st.consumed = 1500 ∧
      (db.getEntitlementValue {} "t" 0).hasAccess = true := by
  let db : Tables := ⟨oneReading (monthlyQuota 1 "" "tokens_in" "tokens") firstMonth "" 1500,
    (Table.empty.insert (monthlyQuota 1 "" "tokens_in" "tokens")).insert
      (monthlyQuota 2 "" "tokens_out" "tokens"),.empty⟩
  obtain ⟨st,hst,hlimit,hconsumed⟩ : ∃ st, db.status {} "t" 0 (monthlyQuota 1 "" "tokens_in" "tokens") = some st ∧
      st.limit.value = 1000 ∧ st.consumed = 1500 := by decide +kernel
  exact ⟨db,monthlyQuota 1 "" "tokens_in" "tokens",by decide +kernel,st,hst,hlimit,hconsumed,
    by decide +kernel⟩

end CostConsumer.Quota
