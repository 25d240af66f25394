import CostConsumer.Billing.Windows
import CostConsumer.Ingest.Machine
import CostConsumer.Inventory.Store
import Mathlib.Data.List.Dedup
set_option autoImplicit false

namespace CostConsumer.Quota
open Inventory Foundation Numeric Billing

structure QuotaRecord where
  id : Nat
  name : String
  tenantID : String
  projectID : String
  resourceType : String
  meterName : String
  limitValue : Column 18 6
  unit : String
  period : String
  policy : String
  thresholds : List Rat
  effectiveFrom : Int
  effectiveTo : Option Int
  deriving DecidableEq

namespace QuotaRecord

def activeAt (q : QuotaRecord) (at_ : Int) : Bool :=
  q.effectiveFrom ≤ at_ && q.effectiveTo.all (at_ < ·)

def notEnded (q : QuotaRecord) (clock : Int) : Bool := q.effectiveTo.all (clock < ·)

theorem notEnded_of_activeAt {q : QuotaRecord} {clock : Int} (h : q.activeAt clock = true) :
    q.notEnded clock = true := (Bool.and_eq_true _ _ ▸ h).2

/-- Every reader takes an empty period for a month. -/
def billingPeriod (q : QuotaRecord) : String := if q.period = "" then "monthly" else q.period

def window (q : QuotaRecord) (now : Int) : Except PeriodError (Int × Int) :=
  resolvePeriod q.billingPeriod now

def label (q : QuotaRecord) (now : Int) : String := periodLabel q.billingPeriod now

end QuotaRecord

inductive AlertState where
  | firing : AlertState
  deriving DecidableEq, Repr

structure AlertRecord where
  tenantID : String
  meterName : String
  thresholdPct : Rat
  consumed : Column 18 6
  limitValue : Column 18 6
  period : String
  state : AlertState
  firedAt : Int
  deriving DecidableEq

def AlertRecord.key (a : AlertRecord) : String × String × Rat × String :=
  (a.tenantID,a.meterName,a.thresholdPct,a.period)

structure AlertTable where
  rows : List AlertRecord
  unique : (rows.map (·.key)).Nodup

namespace AlertTable

def empty : AlertTable := ⟨[],List.nodup_nil⟩

theorem unique_snoc {t : AlertTable} {a : AlertRecord} (h : a.key ∉ t.rows.map (·.key)) :
    ((t.rows ++ [a]).map (·.key)).Nodup := by
  rw [List.map_append,List.nodup_append]
  refine ⟨t.unique,List.nodup_singleton _,fun k hk k' hk' heq => h ?_⟩
  have hka : k' = a.key := List.mem_singleton.mp hk'
  rw [← hka,← heq]
  exact hk

/-- `ON CONFLICT DO NOTHING`: the table, and whether there is a new row. -/
def insert (t : AlertTable) (a : AlertRecord) : AlertTable × Bool :=
  if h : a.key ∈ t.rows.map (·.key) then (t,false) else (⟨t.rows ++ [a],unique_snoc h⟩,true)

theorem insert_of_mem {t : AlertTable} {a : AlertRecord} (h : a.key ∈ t.rows.map (·.key)) :
    t.insert a = (t,false) := dif_pos h

theorem key_mem_insert (t : AlertTable) (a : AlertRecord) :
    a.key ∈ (t.insert a).1.rows.map (·.key) := by
  unfold insert
  split
  · assumption
  · simp

theorem mem_insert {t : AlertTable} {a b : AlertRecord} (h : b ∈ (t.insert a).1.rows) :
    b ∈ t.rows ∨ b = a := by
  unfold insert at h
  split at h
  · exact .inl h
  · simpa using h

theorem subset_insert (t : AlertTable) (a : AlertRecord) : t.rows ⊆ (t.insert a).1.rows := by
  unfold insert
  split
  · exact fun _ h => h
  · exact List.subset_append_left _ _

end AlertTable

structure Tables where
  store : Store := {}
  quotas : Table Nat QuotaRecord (·.id) := .empty
  alerts : AlertTable := .empty

namespace Tables

/-- The rows of one tenant in effect; those of one meter come in table order. -/
def quotasForTenant (db : Tables) (tenantID : String) (at_ : Int) : List QuotaRecord :=
  (db.quotas.rows.filter (fun q => q.tenantID = tenantID && q.activeAt at_)).insertionSort
    (fun q q' => q.meterName ≤ q'.meterName)

def listQuotas (db : Tables) (tenantID : String) (now : Int) : List QuotaRecord :=
  (db.quotas.rows.filter (fun q => q.activeAt now &&
      (tenantID = "" || q.tenantID = tenantID))).insertionSort
    (fun q q' => q.tenantID < q'.tenantID ∨ q.tenantID = q'.tenantID ∧ q.meterName ≤ q'.meterName)

def allTenantsWithQuotas (db : Tables) (at_ : Int) : List String :=
  ((db.quotas.rows.filter (·.activeAt at_)).map (·.tenantID)).dedup

theorem mem_quotasForTenant {db : Tables} {tenantID : String} {at_ : Int} {q : QuotaRecord} :
    q ∈ db.quotasForTenant tenantID at_ ↔
      q ∈ db.quotas.rows ∧ q.tenantID = tenantID ∧ q.activeAt at_ = true := by
  simp [quotasForTenant]

theorem mem_allTenantsWithQuotas {db : Tables} {at_ : Int} {q : QuotaRecord}
    (hq : q ∈ db.quotas.rows) (ha : q.activeAt at_ = true) :
    q.tenantID ∈ db.allTenantsWithQuotas at_ := by
  simpa [allTenantsWithQuotas] using ⟨q,⟨hq,ha⟩,rfl⟩

/-- The row is written with the database's own clock; `none` is an error. An
answer can get lost after the row was written. -/
def insertAlert (alerts : AlertTable) (outcome : Ingest.CommitOutcome) (clock : Int)
    (tenantID meterName : String) (thresholdPct consumed limitValue : Rat)
    (period : String) : AlertTable × Option Bool :=
  match Column.store consumed, Column.store limitValue with
  | none, _ => (alerts,none)
  | _, none => (alerts,none)
  | some consumed, some limitValue =>
    let (written,inserted) := alerts.insert
      ⟨tenantID,meterName,thresholdPct,consumed,limitValue,period,.firing,clock⟩
    match outcome with
    | .committed => (written,some inserted)
    | .refused => (alerts,none)
    | .answerLost => (written,none)

def alertsForTenantMeter (db : Tables) (tenantID meterName period : String) : List AlertRecord :=
  (db.alerts.rows.filter (fun a => a.tenantID = tenantID && a.meterName = meterName &&
    a.period = period)).insertionSort (fun a a' => a.thresholdPct ≤ a'.thresholdPct)

end Tables

end CostConsumer.Quota
