import CostConsumer.Foundation.Aggregate
import CostConsumer.Foundation.Float64
import CostConsumer.Quota.Store
set_option autoImplicit false

namespace CostConsumer.Quota
open Inventory Foundation Numeric Billing GoTime

def isBudgetUnit (unit : String) : Bool :=
  unit ∈ ["USD","EUR","GBP","JPY","CNY","CHF","CAD","AUD"]

def isBudget (unit : String) : Bool := isBudgetUnit unit

def thresholdLevels : List Rat := [50,70,90,100]

namespace QuotaRecord

def levels (q : QuotaRecord) : List Rat :=
  if q.thresholds = [] then thresholdLevels else q.thresholds.map Float64.round

/-- What a budget has spent; a budget without a meter covers all of them. -/
def spent (q : QuotaRecord) (s : Store) (tenantID : String) (v : Int × Int) : Rat :=
  if q.meterName = "" ∨ q.meterName = "*" then s.tenantCostSum tenantID v.1 v.2
  else s.costSum tenantID q.meterName v.1 v.2

def sweepConsumed (q : QuotaRecord) (s : Store) (tenantID : String) (v : Int × Int) : Rat :=
  if isBudgetUnit q.unit then q.spent s tenantID v
  else s.meteringSum tenantID q.meterName v.1 v.2

def statusConsumed (q : QuotaRecord) (s : Store) (tenantID : String) (v : Int × Int) : Rat :=
  if isBudget q.unit then q.spent s tenantID v
  else if q.projectID ≠ "" then
    s.meteringSumByProject tenantID q.projectID q.meterName v.1 v.2
  else s.meteringSum tenantID q.meterName v.1 v.2

def listConsumed (q : QuotaRecord) (s : Store) (v : Int × Int) : Rat :=
  s.meteringSum q.tenantID q.meterName v.1 v.2

def pct (q : QuotaRecord) (consumed : Rat) : Rat :=
  if 0 < q.limitValue.value then Float64.percent consumed q.limitValue.value else 0

/-- `math.Round(pct*100) / 100`. -/
def percentage (q : QuotaRecord) (consumed : Rat) : Rat :=
  Float64.round (roundHalfAway (Float64.round (q.pct consumed*100))/100)

def reached (q : QuotaRecord) (consumed : Rat) : List (String × Bool) :=
  Float64.textMap (fun t => decide (t ≤ q.pct consumed)) q.levels

end QuotaRecord

/-- Which calls of a request fail; those about one quota go by its id. -/
structure Calls where
  quotas : Bool := false
  sum : Nat → Bool := fun _ => false
  alerts : Nat → Bool := fun _ => false

structure QuotaStatus where
  meterName : String
  unit : String
  limit : Column 18 6
  consumed : Rat
  percentage : Rat
  thresholds : List (String × Bool)
  alerts : List AlertRecord
  deriving DecidableEq

structure QuotaWithStatus where
  quota : QuotaRecord
  consumed : Rat
  percentage : Rat
  thresholds : List (String × Bool)
  deriving DecidableEq

structure TenantStatus where
  tenantID : String
  period : String
  quotas : List QuotaStatus
  projects : List (String × List QuotaStatus)
  deriving DecidableEq

inductive QuotaError where
  | tenantRequired : QuotaError
  | tenantTooLong : QuotaError
  | queryFailed : QuotaError
  | listFailed : QuotaError
  deriving DecidableEq, Repr

def QuotaError.message : QuotaError → String
  | tenantRequired => "tenant_id required"
  | tenantTooLong => "tenant_id exceeds maximum length"
  | queryFailed => "failed to query quotas"
  | listFailed => "failed to list quotas"

def QuotaError.status : QuotaError → Nat
  | tenantRequired => 400
  | tenantTooLong => 400
  | _ => 500

def maxIDLength : Nat := 256

namespace Tables

/-- A quota in the status of its tenant; one whose period does not resolve is left
out. A sum that could not be read counts as zero. -/
def status (db : Tables) (f : Calls) (tenantID : String) (now : Int) (q : QuotaRecord) :
    Option QuotaStatus :=
  match q.window now with
  | .error _ => none
  | .ok v =>
    let consumed := if f.sum q.id then 0 else q.statusConsumed db.store tenantID v
    some {
      meterName := q.meterName, unit := q.unit, limit := q.limitValue, consumed,
      percentage := q.percentage consumed, thresholds := q.reached consumed,
      alerts := if f.alerts q.id then []
        else db.alertsForTenantMeter tenantID q.meterName (q.label now) }

def getQuotaStatus (db : Tables) (f : Calls) (tenantID : String) (now : Int) :
    Except QuotaError TenantStatus :=
  if tenantID = "" then .error .tenantRequired
  else if maxIDLength < tenantID.utf8ByteSize then .error .tenantTooLong
  else if f.quotas then .error .queryFailed
  else
    let quotas := db.quotasForTenant tenantID now
    let labels := (quotas.filter (fun q => (q.window now).toBool)).map (·.label now)
    let statuses := quotas.filterMap (fun q => (db.status f tenantID now q).map (q.projectID,·))
    .ok {
      tenantID,
      period := (labels.find? (· ≠ "")).getD (periodLabel "monthly" now),
      quotas := (statuses.filter (·.1 = "")).map (·.2),
      projects := (groupBy (·.1) (statuses.filter (·.1 ≠ ""))).map (fun g => (g.1,g.2.map (·.2))) }

def withStatus (db : Tables) (f : Calls) (now : Int) (q : QuotaRecord) : Option QuotaWithStatus :=
  match q.window now with
  | .error _ => none
  | .ok v =>
    let consumed := if f.sum q.id then 0 else q.listConsumed db.store v
    some {
      quota := q, consumed, percentage := q.percentage consumed,
      thresholds := q.reached consumed }

/-- `ListQuotas` with `status=true`; the store's clock is read before the
handler's. -/
def listQuotasWithStatus (db : Tables) (f : Calls) (tenantID : String) (listed now : Int) :
    Except QuotaError (List QuotaWithStatus) :=
  if f.quotas then .error .listFailed
  else .ok ((db.listQuotas tenantID listed).filterMap (db.withStatus f now))

theorem status_some (db : Tables) {tenantID : String} {now : Int} {q : QuotaRecord} {v : Int × Int}
    (hv : q.window now = .ok v) : ∃ st, db.status {} tenantID now q = some st ∧
      st.limit = q.limitValue ∧ st.consumed = q.statusConsumed db.store tenantID v := by
  rw [status,hv]
  exact ⟨_,rfl,rfl,by simp⟩

theorem status_in_response {db : Tables} {f : Calls} {tenantID : String} {now : Int} {q : QuotaRecord}
    {st : QuotaStatus} {r : TenantStatus} (hq : q ∈ db.quotasForTenant tenantID now)
    (hst : db.status f tenantID now q = some st)
    (hr : db.getQuotaStatus f tenantID now = .ok r) :
    q.projectID = "" ∧ st ∈ r.quotas ∨ ∃ g ∈ r.projects, g.1 = q.projectID ∧ st ∈ g.2 := by
  unfold getQuotaStatus at hr
  split at hr
  · cases hr
  split at hr
  · cases hr
  split at hr
  · cases hr
  have hmem : (q.projectID,st) ∈ (db.quotasForTenant tenantID now).filterMap
      (fun q => (db.status f tenantID now q).map (q.projectID,·)) :=
    List.mem_filterMap.mpr ⟨q,hq,by rw [hst]; rfl⟩
  cases hr
  by_cases hp : q.projectID = ""
  · left
    exact ⟨hp,List.mem_map.mpr ⟨_,List.mem_filter.mpr ⟨hmem,by simpa using hp⟩,rfl⟩⟩
  · right
    have hrow : (q.projectID,st) ∈ ((db.quotasForTenant tenantID now).filterMap
        (fun q => (db.status f tenantID now q).map (q.projectID,·))).filter (·.1 ≠ "") :=
      List.mem_filter.mpr ⟨hmem,by simpa using hp⟩
    obtain ⟨g,hg,hkey,hrow⟩ := mem_groupBy (·.1) hrow
    exact ⟨_,List.mem_map_of_mem hg,hkey,List.mem_map.mpr ⟨_,hrow,rfl⟩⟩

theorem withStatus_in_response {db : Tables} {f : Calls} {tenantID : String} {listed now : Int}
    {q : QuotaRecord} {item : QuotaWithStatus} {items : List QuotaWithStatus}
    (hq : q ∈ db.quotas.rows) (ha : q.activeAt listed = true)
    (ht : tenantID = "" ∨ q.tenantID = tenantID) (hitem : db.withStatus f now q = some item)
    (h : db.listQuotasWithStatus f tenantID listed now = .ok items) : item ∈ items := by
  unfold listQuotasWithStatus at h
  split at h
  · cases h
  · cases h
    refine List.mem_filterMap.mpr ⟨q,?_,hitem⟩
    simpa [listQuotas,hq,ha] using ht

def Agree (db : Tables) (q : QuotaRecord) (now : Int) : Prop :=
  ∀ v, q.window now = .ok v →
    (db.status {} q.tenantID now q).map (·.consumed) =
        some (q.sweepConsumed db.store q.tenantID v) ∧
      (db.withStatus {} now q).map (·.consumed) = some (q.sweepConsumed db.store q.tenantID v)

theorem agree_iff {db : Tables} {q : QuotaRecord} {now : Int} {v : Int × Int}
    (hv : q.window now = .ok v) :
    db.Agree q now ↔
      q.statusConsumed db.store q.tenantID v = q.sweepConsumed db.store q.tenantID v ∧
        q.listConsumed db.store v = q.sweepConsumed db.store q.tenantID v := by
  simp [Agree,status,withStatus,hv]

end Tables

section Contents
variable (q : QuotaRecord) (v : Int × Int)

def chargeFor (cost : Rat) : CostEntry :=
  ⟨0,0,q.tenantID,"","","","",q.meterName,0,cost,q.unit,v.1,v.2⟩

def readingFor (id : Nat) (projectID : String) (value : Rat) : MeteringEntry where
  id := id
  rawEventID := none
  resourceType := ""
  resourceID := ""
  tenantID := q.tenantID
  projectID := projectID
  userID := ""
  instanceType := ""
  meterName := q.meterName
  value := value
  unit := q.unit
  periodStart := v.1
  periodEnd := v.2

theorem inPeriod_self : inPeriod v.1 v.2 v.1 v.2 = true := by simp [inPeriod]

end Contents

def addReading (s : Store) (e : MeteringEntry) : Store :=
  { s with meteringEntries := s.meteringEntries.insert ⟨e,none⟩ }

section Readings
variable {s : Store} {e : MeteringEntry}

theorem entries_addReading (h : ∀ row ∈ s.meteringEntries.rows, row.id < e.id) :
    (addReading s e).entries = s.entries ++ [e] := by
  simp [addReading,Store.entries,Table.insert_last (r := (⟨e,none⟩ : MeteringRow)) h]

theorem sumValues_snoc (p : MeteringEntry → Bool) (es : List MeteringEntry) (e : MeteringEntry) :
    Store.sumValues ((es ++ [e]).filter p) =
      Store.sumValues (es.filter p) + if p e = true then e.value else 0 := by
  rw [List.filter_append,List.filter_cons,List.filter_nil]
  split <;> simp [Store.sumValues]

theorem meteringSum_addReading (h : ∀ row ∈ s.meteringEntries.rows, row.id < e.id)
    (tenantID meterName : String) (v : Int × Int) :
    (addReading s e).meteringSum tenantID meterName v.1 v.2 =
      s.meteringSum tenantID meterName v.1 v.2 +
        if e.tenantID = tenantID ∧ e.meterName = meterName ∧
          inPeriod v.1 v.2 e.periodStart e.periodEnd = true then e.value else 0 := by
  rw [Store.meteringSum,entries_addReading h,sumValues_snoc]
  simp [Store.meteringSum,and_assoc]

theorem meteringSumByProject_addReading (h : ∀ row ∈ s.meteringEntries.rows, row.id < e.id)
    (tenantID projectID meterName : String) (v : Int × Int) :
    (addReading s e).meteringSumByProject tenantID projectID meterName v.1 v.2 =
      s.meteringSumByProject tenantID projectID meterName v.1 v.2 +
        if e.tenantID = tenantID ∧ e.projectID = projectID ∧ e.meterName = meterName ∧
          inPeriod v.1 v.2 e.periodStart e.periodEnd = true then e.value else 0 := by
  rw [Store.meteringSumByProject,entries_addReading h,sumValues_snoc]
  simp [Store.meteringSumByProject,and_assoc]

end Readings

section Contents
variable (q : QuotaRecord) (v : Int × Int)

theorem spent_chargeFor (cost : Rat) :
    q.spent { costEntries := [chargeFor q v cost] } q.tenantID v = cost := by
  unfold QuotaRecord.spent
  split <;> simp [Store.tenantCostSum,Store.costSum,Store.sumCosts,chargeFor,inPeriod_self]

def oneReading (projectID : String) (value : Rat) : Store := addReading {} (readingFor q v 1 projectID value)

theorem meteringSum_oneReading (projectID : String) (value : Rat) :
    (oneReading q v projectID value).meteringSum q.tenantID q.meterName v.1 v.2 = value := by
  rw [oneReading,meteringSum_addReading (by simp [Table.empty])]
  simp [readingFor,inPeriod_self,Store.meteringSum,Store.entries,Table.empty,Store.sumValues]

theorem meteringSumByProject_oneReading (projectID other : String) (value : Rat) :
    (oneReading q v projectID value).meteringSumByProject q.tenantID other q.meterName v.1 v.2 =
      if projectID = other then value else 0 := by
  rw [oneReading,meteringSumByProject_addReading (by simp [Table.empty])]
  simp [readingFor,inPeriod_self,Store.meteringSumByProject,Store.entries,Table.empty,Store.sumValues]

end Contents

/-- The readers agree about a quota in every store iff it is no budget and not
one of a project. -/
theorem readers_agree {q : QuotaRecord} {now : Int} {v : Int × Int} (ha : q.activeAt now = true)
    (hv : q.window now = .ok v) :
    (∀ db : Tables, q ∈ db.quotasForTenant q.tenantID now → db.Agree q now) ↔
      isBudgetUnit q.unit = false ∧ q.projectID = "" := by
  have hmem : ∀ s : Store, q ∈ Tables.quotasForTenant ⟨s,Table.empty.insert q,.empty⟩ q.tenantID now :=
    fun s => Tables.mem_quotasForTenant.mpr ⟨by simp [Table.insert,Table.empty,Table.insertRow],rfl,ha⟩
  constructor
  · intro h
    have hstore := fun s => (Tables.agree_iff hv).mp (h _ (hmem s))
    have hunit : isBudgetUnit q.unit = false := by
      by_contra hb
      have hlist := (hstore { costEntries := [chargeFor q v 1] }).2
      rw [QuotaRecord.sweepConsumed,if_pos (by simpa using hb),spent_chargeFor] at hlist
      simp [QuotaRecord.listConsumed,Store.meteringSum,Store.entries,Table.empty,Store.sumValues]
        at hlist
    refine ⟨hunit,?_⟩
    by_contra hp
    have hstatus := (hstore (oneReading q v "" 1)).1
    rw [QuotaRecord.sweepConsumed,if_neg (by simp [hunit]),meteringSum_oneReading,
      QuotaRecord.statusConsumed,if_neg (by simp [isBudget,hunit]),if_pos hp,
      meteringSumByProject_oneReading,if_neg (Ne.symm hp)] at hstatus
    norm_num at hstatus
  · rintro ⟨hunit,hp⟩ db -
    rw [Tables.agree_iff hv]
    simp [QuotaRecord.sweepConsumed,QuotaRecord.statusConsumed,QuotaRecord.listConsumed,isBudget,
      hunit,hp]

def monthlyQuota (id : Nat) (projectID meterName unit : String) : QuotaRecord :=
  ⟨id,"","t",projectID,"",meterName,⟨1000*10^6,by decide⟩,unit,"monthly","deny",[],0,none⟩

def firstMonth : Int × Int := (0,31*nanosPerDay)

theorem readers_agree_about_tokens :
    (monthlyQuota 1 "" "tokens" "tokens").window 0 = .ok firstMonth ∧
      ∀ db : Tables, monthlyQuota 1 "" "tokens" "tokens" ∈ db.quotasForTenant "t" 0 →
        db.Agree (monthlyQuota 1 "" "tokens" "tokens") 0 :=
  ⟨by decide +kernel,(readers_agree (q := monthlyQuota 1 "" "tokens" "tokens") (v := firstMonth)
    (by decide) (by decide +kernel)).mpr ⟨by decide,rfl⟩⟩

/-- A budget of 1000 dollars of which 10 are spent is listed as untouched, and the
tokens of another project count against that of a project when alerts are fired. -/
theorem readers_disagree :
    (∃ db : Tables, ∃ q ∈ db.quotasForTenant "t" 0, q.window 0 = .ok firstMonth ∧
      q.sweepConsumed db.store "t" firstMonth = 10 ∧
      (db.status {} "t" 0 q).map (·.consumed) = some 10 ∧
      (db.withStatus {} 0 q).map (·.consumed) = some 0) ∧
    ∃ db : Tables, ∃ q ∈ db.quotasForTenant "t" 0, q.window 0 = .ok firstMonth ∧
      q.sweepConsumed db.store "t" firstMonth = 7 ∧
      (db.status {} "t" 0 q).map (·.consumed) = some 0 ∧
      (db.withStatus {} 0 q).map (·.consumed) = some 7 := by
  refine ⟨⟨⟨{ costEntries := [chargeFor (monthlyQuota 1 "" "*" "USD") firstMonth 10] },
    Table.empty.insert (monthlyQuota 1 "" "*" "USD"),.empty⟩,
    monthlyQuota 1 "" "*" "USD",?_,?_,?_,?_,?_⟩,
    ⟨⟨oneReading (monthlyQuota 1 "p" "tokens" "tokens") firstMonth "other" 7,
      Table.empty.insert (monthlyQuota 1 "p" "tokens" "tokens"),.empty⟩,
    monthlyQuota 1 "p" "tokens" "tokens",?_,?_,?_,?_,?_⟩⟩
  all_goals decide +kernel

end CostConsumer.Quota
