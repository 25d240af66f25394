import CostConsumer.Foundation.Table
import CostConsumer.Foundation.Numeric
import CostConsumer.Inventory.Models
import Mathlib.Data.List.Sort
import Mathlib.Data.String.Basic
import Mathlib.Algebra.BigOperators.Group.List.Basic
set_option autoImplicit false

namespace CostConsumer.Inventory
open Foundation

structure Store where
  computeInstances : Table String ComputeInstanceRecord (·.instanceID) := .empty
  clusters : Table String ClusterRecord (·.clusterID) := .empty
  bareMetalInstances : Table String BareMetalInstanceRecord (·.instanceID) := .empty
  models : Table String ModelRecord (·.modelID) := .empty
  instanceTypes : Table String InstanceTypeRecord (·.instanceTypeID) := .empty
  projects : Table String ProjectRecord (·.projectID) := .empty
  tenants : Table String TenantRecord (·.tenantID) := .empty
  meteringEntries : Table Nat MeteringRow (·.id) := .empty
  rates : List RateRecord := []
  costEntries : List CostEntry := []

/-- Why PostgreSQL rejects a well-formed statement: more than 65535 parameters,
or a value that does not fit its column. -/
inductive StoreError where
  | tooManyParameters : StoreError
  | numericOverflow : StoreError
  deriving DecidableEq, Repr

/-- The filter of every sum over a billing window. -/
def inPeriod (fromT toT periodStart periodEnd : Int) : Bool :=
  fromT ≤ periodStart ∧ periodEnd ≤ toT

namespace Store

def getComputeInstance (s : Store) (instanceID : String) : Option ComputeInstanceRecord :=
  s.computeInstances.find? instanceID

def tenantTier (s : Store) (failed : Bool) (tenantID : String) : String :=
  if tenantID = "" ∨ failed then "standard"
  else match s.tenants.find? tenantID with
    | none => "standard"
    | some t =>
      let label (key : String) := t.labels.bind (·.lookup key)
      let tier := ((label "cost-mgmt/tier").or (label "tier")).getD ""
      if tier = "" then "standard" else tier

def unratedMeteringEntries (s : Store) (limit : Nat) : List MeteringEntry :=
  ((s.meteringEntries.rows.filter (fun r => r.ratedAt.isNone)).map (·.toMeteringEntry)).take limit

def markRow (ids : List Nat) (now : Int) (r : MeteringRow) : MeteringRow :=
  if r.id ∈ ids then { r with ratedAt := some now } else r

theorem markRow_entry (ids : List Nat) (now : Int) (r : MeteringRow) :
    (markRow ids now r).toMeteringEntry = r.toMeteringEntry := by
  unfold markRow
  split <;> rfl

def markTable (ids : List Nat) (now : Int) (t : Table Nat MeteringRow (·.id)) :
    Table Nat MeteringRow (·.id) :=
  t.update (markRow ids now) (fun r => congrArg MeteringEntry.id (markRow_entry ids now r))

def markMeteringEntriesRated (s : Store) (ids : List Nat) (now : Int) : Store :=
  { s with meteringEntries := markTable ids now s.meteringEntries }

def tenantRank (r : RateRecord) : Nat := if r.tenantID.getD "" ≠ "" then 0 else 1

def rateOrder (a b : RateRecord) : Prop :=
  a.resourceType < b.resourceType ∨ a.resourceType = b.resourceType ∧
    (a.meterName < b.meterName ∨ a.meterName = b.meterName ∧ tenantRank a ≤ tenantRank b)

instance : DecidableRel rateOrder := fun _ _ => inferInstanceAs (Decidable (_ ∨ _))

/-- Rates in effect at a time. Rows that compare equal come in table order. -/
def allActiveRates (s : Store) (at_ : Int) : List RateRecord :=
  (s.rates.filter (fun r => r.effectiveFrom ≤ at_ && r.effectiveTo.all (at_ < ·))).insertionSort
    rateOrder

def costFits (e : CostEntry) : Prop := Numeric.Fits 18 10 e.costAmount

instance (e : CostEntry) : Decidable (costFits e) := inferInstanceAs (Decidable (Numeric.Fits _ _ _))

def addCosts (s : Store) (entries : List CostEntry) : Store :=
  { s with costEntries := s.costEntries ++ entries }

def insertCostEntry (s : Store) (e : CostEntry) : Except StoreError Store :=
  if costFits e then .ok (s.addCosts [e]) else .error .numericOverflow

/-- One statement with 13 parameters a row; all rows are written or none. -/
def insertCostEntryBatch (s : Store) : List CostEntry → Except StoreError Store
  | [] => .ok s
  | [e] => s.insertCostEntry e
  | entries =>
    if 13*entries.length > 65535 then .error .tooManyParameters
    else if entries.all (costFits ·) then .ok (s.addCosts entries)
    else .error .numericOverflow

theorem insertCostEntryBatch_ok {s t : Store} {entries : List CostEntry}
    (h : s.insertCostEntryBatch entries = .ok t) : t = s.addCosts entries := by
  unfold insertCostEntryBatch at h
  split at h
  · cases h; simp [addCosts]
  · unfold insertCostEntry at h
    split at h
    · cases h; rfl
    · cases h
  · split at h
    · cases h
    · split at h
      · cases h; rfl
      · cases h

theorem insertCostEntryBatch_of_fits {s : Store} {entries : List CostEntry}
    (hn : 13*entries.length ≤ 65535) (hf : ∀ e ∈ entries, costFits e) :
    s.insertCostEntryBatch entries = .ok (s.addCosts entries) := by
  unfold insertCostEntryBatch
  split
  · simp [addCosts]
  · rename_i e
    rw [insertCostEntry,if_pos (hf e List.mem_cons_self)]
  · have ha : entries.all (costFits ·) = true := by simpa using hf
    rw [if_neg (by omega),if_pos ha]

def valueFits (e : MeteringEntry) : Prop := Numeric.Fits 18 6 e.value

instance (e : MeteringEntry) : Decidable (valueFits e) :=
  inferInstanceAs (Decidable (Numeric.Fits _ _ _))

/-- The row of an entry: the id comes from the sequence, the value is rounded to
its column. -/
def meteringRow (id : Nat) (e : MeteringEntry) : MeteringRow :=
  ⟨{ e with id, value := Numeric.stored 6 e.value },none⟩

def addMetering (s : Store) : Nat → List MeteringEntry → Store
  | _, [] => s
  | id, e :: es =>
    addMetering { s with meteringEntries := s.meteringEntries.insert (meteringRow id e) } (id+1) es

def insertMeteringEntry (s : Store) (id : Nat) (e : MeteringEntry) : Except StoreError Store :=
  if valueFits e then .ok (s.addMetering id [e]) else .error .numericOverflow

/-- One statement with 12 parameters a row; all rows are written or none. -/
def insertMeteringEntryBatch (s : Store) (id : Nat) : List MeteringEntry → Except StoreError Store
  | [] => .ok s
  | [e] => s.insertMeteringEntry id e
  | entries =>
    if 12*entries.length > 65535 then .error .tooManyParameters
    else if entries.all (valueFits ·) then .ok (s.addMetering id entries)
    else .error .numericOverflow

theorem insertMeteringEntryBatch_ok {s t : Store} {id : Nat} {entries : List MeteringEntry}
    (h : s.insertMeteringEntryBatch id entries = .ok t) : t = s.addMetering id entries := by
  unfold insertMeteringEntryBatch at h
  split at h
  · cases h; rfl
  · unfold insertMeteringEntry at h
    split at h
    · cases h; rfl
    · cases h
  · split at h
    · cases h
    · split at h
      · cases h; rfl
      · cases h

theorem insertMeteringEntryBatch_of_fits (s : Store) (id : Nat) {entries : List MeteringEntry}
    (hn : 12*entries.length ≤ 65535) (hf : ∀ e ∈ entries, valueFits e) :
    s.insertMeteringEntryBatch id entries = .ok (s.addMetering id entries) := by
  unfold insertMeteringEntryBatch
  split
  · rfl
  · rename_i e
    rw [insertMeteringEntry,if_pos (hf e List.mem_cons_self)]
  · have ha : entries.all (valueFits ·) = true := by simpa using hf
    rw [if_neg (by omega),if_pos ha]

def sumValues (rows : List MeteringEntry) : Rat := (rows.map (·.value)).sum
def sumCosts (rows : List CostEntry) : Rat := (rows.map (·.costAmount)).sum

def entries (s : Store) : List MeteringEntry := s.meteringEntries.rows.map (·.toMeteringEntry)

def meteringSum (s : Store) (tenantID meterName : String) (fromT toT : Int) : Rat :=
  sumValues (s.entries.filter (fun e => e.tenantID = tenantID && e.meterName = meterName &&
    inPeriod fromT toT e.periodStart e.periodEnd))

def meteringSumByProject (s : Store) (tenantID projectID meterName : String) (fromT toT : Int) : Rat :=
  sumValues (s.entries.filter (fun e => e.tenantID = tenantID && e.projectID = projectID &&
    e.meterName = meterName && inPeriod fromT toT e.periodStart e.periodEnd))

def meteringSumBefore (s : Store) (tenantID meterName : String) (fromT toT : Int) (beforeID : Nat) :
    Rat :=
  sumValues (s.entries.filter (fun e => e.tenantID = tenantID && e.meterName = meterName &&
    inPeriod fromT toT e.periodStart e.periodEnd && e.id < beforeID))

def costSum (s : Store) (tenantID meterName : String) (fromT toT : Int) : Rat :=
  sumCosts (s.costEntries.filter (fun c => c.tenantID = tenantID && c.meterName = meterName &&
    inPeriod fromT toT c.periodStart c.periodEnd))

def tenantCostSum (s : Store) (tenantID : String) (fromT toT : Int) : Rat :=
  sumCosts (s.costEntries.filter (fun c => c.tenantID = tenantID &&
    inPeriod fromT toT c.periodStart c.periodEnd))

theorem rows_cons (id : Nat) (e : MeteringEntry) (es : List MeteringEntry) :
    (e :: es).mapIdx (fun i e => (meteringRow (id+i) e).toMeteringEntry) =
      (meteringRow id e).toMeteringEntry ::
        es.mapIdx (fun i e => (meteringRow (id+1+i) e).toMeteringEntry) := by
  simp [List.mapIdx_cons,Nat.add_assoc,Nat.add_comm 1]

theorem entries_addMetering {s : Store} {id : Nat} (es : List MeteringEntry)
    (h : ∀ row ∈ s.meteringEntries.rows, row.id < id) :
    (s.addMetering id es).entries =
        s.entries ++ es.mapIdx (fun i e => (meteringRow (id+i) e).toMeteringEntry) ∧
      ∀ row ∈ (s.addMetering id es).meteringEntries.rows, row.id < id + es.length := by
  induction es generalizing s id with
  | nil => exact ⟨by simp [addMetering],h⟩
  | cons e es ih =>
    have hlast : (s.meteringEntries.insert (meteringRow id e)).rows =
        s.meteringEntries.rows ++ [meteringRow id e] := Table.insert_last h
    obtain ⟨h₁,h₂⟩ := @ih { s with
      meteringEntries := s.meteringEntries.insert (meteringRow id e) } (id+1) (by
        intro row hr
        rw [hlast] at hr
        rcases List.mem_append.mp hr with hr | hr
        · exact (h row hr).trans (Nat.lt_succ_self id)
        · rw [List.mem_singleton.mp hr]
          exact Nat.lt_succ_self id)
    refine ⟨?_,fun row hr => ?_⟩
    · rw [addMetering,h₁,rows_cons]
      simp [entries,hlast]
    · have := h₂ row hr
      simp only [List.length_cons]
      omega

theorem entries_mark (s : Store) (ids : List Nat) (now : Int) :
    (s.markMeteringEntriesRated ids now).entries = s.entries := by
  simp [entries,markMeteringEntriesRated,markTable,Function.comp_def,markRow_entry]

end Store

end CostConsumer.Inventory
