import CostConsumer.Foundation.Transition
import CostConsumer.Quota.Readers
set_option autoImplicit false

/-!
Alerts. `evaluateThresholds` visits every quota in effect; of all quotas of a
tenant with one meter, and of all sweeps in a window, the first that reaches a
level is the one the alert is about.
-/

namespace CostConsumer.Quota
open Inventory Foundation Numeric Billing GoTime

/-- How the calls of a sweep end, and the database's clock at its inserts. Those
about one quota go by its id. -/
structure SweepCalls where
  tenants : Bool := false
  quotas : String → Bool := fun _ => false
  sum : Nat → Bool := fun _ => false
  insert : Nat → Rat → Ingest.CommitOutcome := fun _ _ => .committed
  clock : Nat → Rat → Int := fun _ _ => 0

/-- `fired` is the sweep's own counter; `errors` counts the calls that failed. -/
structure Evaluation where
  alerts : AlertTable
  fired : Nat := 0
  errors : Nat := 0

namespace Tables

def fire (f : SweepCalls) (tenantID : String) (now : Int) (q : QuotaRecord) (consumed : Rat)
    (e : Evaluation) (threshold : Rat) : Evaluation :=
  if threshold ≤ Float64.percent consumed q.limitValue.value then
    match insertAlert e.alerts (f.insert q.id threshold) (f.clock q.id threshold) tenantID
        q.meterName threshold (Float64.sent consumed) (Float64.sent q.limitValue.value) (q.label now) with
    | (alerts,none) => { e with alerts, errors := e.errors + 1 }
    | (alerts,some inserted) => { e with alerts, fired := if inserted then e.fired + 1 else e.fired }
  else e

def evaluateQuota (db : Tables) (f : SweepCalls) (tenantID : String) (now : Int) (e : Evaluation)
    (q : QuotaRecord) : Evaluation :=
  match q.window now with
  | .error _ => e
  | .ok v =>
    if f.sum q.id then { e with errors := e.errors + 1 }
    else
      let consumed := q.sweepConsumed db.store tenantID v
      if consumed = 0 ∨ q.limitValue.value ≤ 0 then e
      else q.levels.foldl (fire f tenantID now q consumed) e

def evaluateTenant (db : Tables) (f : SweepCalls) (now : Int) (e : Evaluation) (tenantID : String) :
    Evaluation :=
  if f.quotas tenantID then { e with errors := e.errors + 1 }
  else (db.quotasForTenant tenantID now).foldl (db.evaluateQuota f tenantID now) e

def evaluateThresholds (db : Tables) (f : SweepCalls) (now : Int) : Evaluation :=
  if f.tenants then ⟨db.alerts,0,1⟩
  else (db.allTenantsWithQuotas now).foldl (db.evaluateTenant f now) ⟨db.alerts,0,0⟩

end Tables

instance : Preorder Evaluation where
  le e e' := e.alerts.rows ⊆ e'.alerts.rows ∧ e.errors ≤ e'.errors
  le_refl e := ⟨fun _ h => h,le_rfl⟩
  le_trans e e' e'' h h' := ⟨fun _ ha => h'.1 (h.1 ha),h.2.trans h'.2⟩

structure RecordedFor (db : Tables) (now : Int) (a : AlertRecord) (q : QuotaRecord) (v : Int × Int) :
    Prop where
  mem : q ∈ db.quotas.rows
  active : q.activeAt now = true
  window : q.window now = .ok v
  tenant : a.tenantID = q.tenantID
  meter : a.meterName = q.meterName
  limit : a.limitValue.value = stored 6 (Float64.sent q.limitValue.value)
  period : a.period = q.label now
  level : a.thresholdPct ∈ q.levels
  positive : 0 < q.limitValue.value
  consumed : a.consumed.value = stored 6 (Float64.sent (q.sweepConsumed db.store q.tenantID v))
  reached : a.thresholdPct ≤ Float64.percent (q.sweepConsumed db.store q.tenantID v) q.limitValue.value

/-- The exact percentage is at most a rounding error below the level. -/
theorem RecordedFor.nearly {db : Tables} {now : Int} {a : AlertRecord} {q : QuotaRecord} {v : Int × Int}
    (h : RecordedFor db now a q v) : a.thresholdPct ≤
      q.sweepConsumed db.store q.tenantID v/q.limitValue.value*100 +
        |q.sweepConsumed db.store q.tenantID v/q.limitValue.value*100| * 2^(-50 : Int) := by
  have herr := (abs_le.mp (Float64.abs_percent_sub_le (q.sweepConsumed db.store q.tenantID v)
    q.limitValue.value)).2
  linarith [h.reached]

section Sweep
variable {db : Tables} {f : SweepCalls} {tenantID : String} {now : Int} {q : QuotaRecord}
  {consumed threshold : Rat}

theorem insertAlert_cases (alerts : AlertTable) (outcome : Ingest.CommitOutcome) (clock : Int)
    (tenantID meterName : String) (thresholdPct consumed limitValue : Rat) (period : String) :
    Tables.insertAlert alerts outcome clock tenantID meterName thresholdPct consumed limitValue
        period = (alerts,none) ∨
      ∃ c l, Column.value c = stored 6 consumed ∧ Column.value l = stored 6 limitValue ∧ ∃ done,
        Tables.insertAlert alerts outcome clock tenantID meterName thresholdPct consumed limitValue
          period = ((alerts.insert
            ⟨tenantID,meterName,thresholdPct,c,l,period,.firing,clock⟩).1,done) := by
  unfold Tables.insertAlert
  cases hc : (Column.store consumed : Option (Column 18 6)) with
  | none => exact .inl rfl
  | some c =>
    cases hl : (Column.store limitValue : Option (Column 18 6)) with
    | none => exact .inl rfl
    | some l =>
      cases outcome with
      | committed => exact .inr ⟨c,l,Column.value_of_store hc,Column.value_of_store hl,_,rfl⟩
      | refused => exact .inl rfl
      | answerLost => exact .inr ⟨c,l,Column.value_of_store hc,Column.value_of_store hl,_,rfl⟩

/-- A row that a sweep writes for a quota and a level. -/
def IsAlert (tenantID : String) (now : Int) (q : QuotaRecord) (consumed threshold : Rat)
    (a : AlertRecord) : Prop :=
  ∃ c l clock, Column.value c = stored 6 (Float64.sent consumed) ∧
    Column.value l = stored 6 (Float64.sent q.limitValue.value) ∧
    a = ⟨tenantID,q.meterName,threshold,c,l,q.label now,.firing,clock⟩

theorem fire_cases (f : SweepCalls) (tenantID : String) (now : Int) (q : QuotaRecord)
    (consumed : Rat) (e : Evaluation) (threshold : Rat) :
    (¬ threshold ≤ Float64.percent consumed q.limitValue.value ∧
        Tables.fire f tenantID now q consumed e threshold = e) ∨
      threshold ≤ Float64.percent consumed q.limitValue.value ∧
        (Tables.fire f tenantID now q consumed e threshold = { e with errors := e.errors + 1 } ∨
          ∃ a, IsAlert tenantID now q consumed threshold a ∧
            (Tables.fire f tenantID now q consumed e threshold).alerts = (e.alerts.insert a).1 ∧
            e.errors ≤ (Tables.fire f tenantID now q consumed e threshold).errors) := by
  unfold Tables.fire
  by_cases ht : threshold ≤ Float64.percent consumed q.limitValue.value
  · refine .inr ⟨ht,?_⟩
    rw [if_pos ht]
    rcases insertAlert_cases e.alerts (f.insert q.id threshold) (f.clock q.id threshold) tenantID
      q.meterName threshold (Float64.sent consumed) (Float64.sent q.limitValue.value) (q.label now) with
      h | ⟨c,l,hc,hl,done,h⟩
    · left
      rw [h]
    · right
      rw [h]
      cases done with
      | none => exact ⟨_,⟨c,l,_,hc,hl,rfl⟩,rfl,Nat.le_succ _⟩
      | some inserted => exact ⟨_,⟨c,l,_,hc,hl,rfl⟩,rfl,le_rfl⟩
  · exact .inl ⟨ht,if_neg ht⟩

theorem le_fire (e : Evaluation) (threshold : Rat) :
    e ≤ Tables.fire f tenantID now q consumed e threshold := by
  rcases fire_cases f tenantID now q consumed e threshold with
    ⟨-,h⟩ | ⟨-,h | ⟨a,-,halerts,herrors⟩⟩
  · exact h.ge
  · rw [h]
    exact ⟨fun _ ha => ha,Nat.le_succ _⟩
  · exact ⟨halerts ▸ AlertTable.subset_insert _ _,herrors⟩

theorem le_evaluateQuota (e : Evaluation) (q : QuotaRecord) :
    e ≤ db.evaluateQuota f tenantID now e q := by
  unfold Tables.evaluateQuota
  split
  · exact le_rfl
  · split
    · exact ⟨fun _ ha => ha,Nat.le_succ _⟩
    · simp only
      split
      · exact le_rfl
      · exact le_foldl le_fire _ e

theorem le_evaluateTenant (e : Evaluation) (tenantID : String) :
    e ≤ db.evaluateTenant f now e tenantID := by
  unfold Tables.evaluateTenant
  split
  · exact ⟨fun _ ha => ha,Nat.le_succ _⟩
  · exact le_foldl le_evaluateQuota _ e

theorem le_evaluateThresholds : ⟨db.alerts,0,0⟩ ≤ db.evaluateThresholds f now := by
  unfold Tables.evaluateThresholds
  split
  · exact ⟨fun _ ha => ha,Nat.zero_le _⟩
  · exact le_foldl le_evaluateTenant _ _

theorem fire_records {e : Evaluation} (ht : threshold ≤ Float64.percent consumed q.limitValue.value)
    (herr : (Tables.fire f tenantID now q consumed e threshold).errors = 0) :
    ∃ a ∈ (Tables.fire f tenantID now q consumed e threshold).alerts.rows,
      a.key = (tenantID,q.meterName,threshold,q.label now) := by
  rcases fire_cases f tenantID now q consumed e threshold with
    ⟨hn,-⟩ | ⟨-,h | ⟨a,⟨c,l,clock,-,-,rfl⟩,halerts,-⟩⟩
  · exact absurd ht hn
  · rw [h] at herr
    cases herr
  · rw [halerts]
    exact List.mem_map.mp (AlertTable.key_mem_insert e.alerts _)

theorem records_of_le {k : String × String × Rat × String} {e e' : Evaluation} (h : e ≤ e')
    (herr : e'.errors = 0) (hk : e.errors = 0 → ∃ a ∈ e.alerts.rows, a.key = k) :
    ∃ a ∈ e'.alerts.rows, a.key = k := by
  obtain ⟨a,ha,hak⟩ := hk (Nat.le_zero.mp (herr ▸ h.2))
  exact ⟨a,h.1 ha,hak⟩

theorem evaluateQuota_records {e : Evaluation} {v : Int × Int} (hv : q.window now = .ok v)
    (hl : 0 < q.limitValue.value) (hc : q.sweepConsumed db.store tenantID v ≠ 0)
    (hlevel : threshold ∈ q.levels)
    (ht : threshold ≤ Float64.percent (q.sweepConsumed db.store tenantID v) q.limitValue.value)
    (herr : (db.evaluateQuota f tenantID now e q).errors = 0) :
    ∃ a ∈ (db.evaluateQuota f tenantID now e q).alerts.rows,
      a.key = (tenantID,q.meterName,threshold,q.label now) := by
  simp only [Tables.evaluateQuota,hv] at herr ⊢
  split at herr
  · cases herr
  · rename_i hsum
    have hgo : ¬ (q.sweepConsumed db.store tenantID v = 0 ∨ q.limitValue.value ≤ 0) :=
      not_or.mpr ⟨hc,not_le.mpr hl⟩
    rw [if_neg hgo] at herr
    rw [if_neg hsum,if_neg hgo]
    obtain ⟨e₁,h₁⟩ := exists_le_foldl le_fire hlevel e
    exact records_of_le h₁ herr (fire_records ht)

theorem evaluateThresholds_records (herr : (db.evaluateThresholds f now).errors = 0)
    (hq : q ∈ db.quotas.rows) (ha : q.activeAt now = true) {v : Int × Int}
    (hv : q.window now = .ok v) (hl : 0 < q.limitValue.value)
    (hc : q.sweepConsumed db.store q.tenantID v ≠ 0) (hlevel : threshold ∈ q.levels)
    (ht : threshold ≤ Float64.percent (q.sweepConsumed db.store q.tenantID v) q.limitValue.value) :
    ∃ a ∈ (db.evaluateThresholds f now).alerts.rows,
      a.key = (q.tenantID,q.meterName,threshold,q.label now) := by
  unfold Tables.evaluateThresholds at herr ⊢
  split at herr
  · cases herr
  · rename_i htenants
    rw [if_neg htenants]
    obtain ⟨e₁,h₁⟩ := exists_le_foldl (f := db.evaluateTenant f now) le_evaluateTenant
      (Tables.mem_allTenantsWithQuotas hq ha) ⟨db.alerts,0,0⟩
    refine records_of_le h₁ herr fun herr₁ => ?_
    unfold Tables.evaluateTenant at herr₁ ⊢
    split at herr₁
    · cases herr₁
    · rename_i hquotas
      rw [if_neg hquotas]
      obtain ⟨e₂,h₂⟩ := exists_le_foldl (f := db.evaluateQuota f q.tenantID now) le_evaluateQuota
        (Tables.mem_quotasForTenant.mpr ⟨hq,rfl,ha⟩) e₁
      exact records_of_le h₂ herr₁ (evaluateQuota_records hv hl hc hlevel ht)

def Recorded (db : Tables) (now : Int) (alerts : AlertTable) : Prop :=
  ∀ q ∈ db.quotas.rows, q.activeAt now = true → ∀ v, q.window now = .ok v → 0 < q.limitValue.value →
    q.sweepConsumed db.store q.tenantID v ≠ 0 → ∀ threshold ∈ q.levels,
      threshold ≤ Float64.percent (q.sweepConsumed db.store q.tenantID v) q.limitValue.value →
        (q.tenantID,q.meterName,threshold,q.label now) ∈ alerts.rows.map (·.key)

theorem fire_recorded {e : Evaluation} (h : threshold ≤ Float64.percent consumed q.limitValue.value →
      (tenantID,q.meterName,threshold,q.label now) ∈ e.alerts.rows.map (·.key)) :
    (Tables.fire f tenantID now q consumed e threshold).alerts = e.alerts := by
  rcases fire_cases f tenantID now q consumed e threshold with
    ⟨-,he⟩ | ⟨ht,he | ⟨a,⟨c,l,clock,-,-,rfl⟩,halerts,-⟩⟩
  · rw [he]
  · rw [he]
  · rw [halerts,AlertTable.insert_of_mem (h ht)]

theorem evaluateQuota_recorded {e : Evaluation} (h : Recorded db now e.alerts)
    (hq : q ∈ db.quotasForTenant tenantID now) :
    (db.evaluateQuota f tenantID now e q).alerts = e.alerts := by
  obtain ⟨hmem,rfl,hact⟩ := Tables.mem_quotasForTenant.mp hq
  unfold Tables.evaluateQuota
  split
  · rfl
  · rename_i v hv
    split
    · rfl
    · simp only
      split
      · rfl
      · rename_i hgo
        obtain ⟨hc,hl⟩ := not_or.mp hgo
        refine List.foldlRecOn q.levels (motive := fun e' : Evaluation => e'.alerts = e.alerts) _ rfl
          fun e' he' t ht => ?_
        rw [fire_recorded,he']
        rw [he']
        exact h q hmem hact v hv (not_le.mp hl) hc t ht

theorem evaluateThresholds_recorded (h : Recorded db now db.alerts) :
    (db.evaluateThresholds f now).alerts = db.alerts := by
  unfold Tables.evaluateThresholds
  split
  · rfl
  · refine List.foldlRecOn _ (motive := fun e : Evaluation => e.alerts = db.alerts) _ rfl fun e he tenantID _ => ?_
    unfold Tables.evaluateTenant
    split
    · exact he
    · refine List.foldlRecOn _ (motive := fun e : Evaluation => e.alerts = db.alerts) _ he fun e' he' q hq => ?_
      rw [evaluateQuota_recorded (he' ▸ h) hq,he']

theorem fire_new {e : Evaluation} {a : AlertRecord}
    (ha : a ∈ (Tables.fire f tenantID now q consumed e threshold).alerts.rows) :
    a ∈ e.alerts.rows ∨ threshold ≤ Float64.percent consumed q.limitValue.value ∧
      IsAlert tenantID now q consumed threshold a := by
  rcases fire_cases f tenantID now q consumed e threshold with
    ⟨-,h⟩ | ⟨ht,h | ⟨b,hb,halerts,-⟩⟩
  · exact .inl (h ▸ ha)
  · rw [h] at ha
    exact .inl ha
  · rw [halerts] at ha
    exact (AlertTable.mem_insert ha).imp_right fun heq => ⟨ht,by rw [heq]; exact hb⟩

/-- Every alert of a sweep was there before or is recorded for a quota in effect. -/
def Traced (db : Tables) (now : Int) (e : Evaluation) : Prop :=
  ∀ a ∈ e.alerts.rows, a ∈ db.alerts.rows ∨ ∃ q v, RecordedFor db now a q v

theorem traced_evaluateQuota {e : Evaluation} (he : Traced db now e)
    (hq : q ∈ db.quotasForTenant tenantID now) :
    Traced db now (db.evaluateQuota f tenantID now e q) := by
  obtain ⟨hmem,rfl,hact⟩ := Tables.mem_quotasForTenant.mp hq
  unfold Tables.evaluateQuota
  split
  · exact he
  · rename_i v hv
    split
    · exact he
    · simp only
      split
      · exact he
      · rename_i hgo
        refine List.foldlRecOn q.levels _ he fun e he t ht a ha => ?_
        rcases fire_new ha with ha | ⟨hreached,c,l,clock,hc,hl,rfl⟩
        · exact he a ha
        · exact .inr ⟨q,v,hmem,hact,hv,rfl,rfl,hl,rfl,ht,not_le.mp (not_or.mp hgo).2,hc,hreached⟩

theorem traced_evaluateThresholds : Traced db now (db.evaluateThresholds f now) := by
  have hstart : ∀ fired errors, Traced db now ⟨db.alerts,fired,errors⟩ := fun _ _ _ ha => .inl ha
  unfold Tables.evaluateThresholds
  split
  · exact hstart 0 1
  · refine List.foldlRecOn _ _ (hstart 0 0) fun e he tenantID _ => ?_
    unfold Tables.evaluateTenant
    split
    · exact he
    · exact List.foldlRecOn _ _ he fun e he q hq => traced_evaluateQuota he hq

end Sweep

/-- `sweeps` is a history: the tables each sweep found, and its time. -/
structure State where
  db : Tables
  sweeps : List (Tables × Int)

/-- Between sweeps anything may be metered, charged or set as a quota. -/
inductive Label where
  | change (store : Store) (quotas : Table Nat QuotaRecord (·.id)) : Label
  | evaluate (f : SweepCalls) (now : Int) : Label

def step (s : State) : Label → Option State
  | .change store quotas => some { s with db := { s.db with store, quotas } }
  | .evaluate f now => some {
      db := { s.db with alerts := (s.db.evaluateThresholds f now).alerts },
      sweeps := s.sweeps ++ [(s.db,now)] }

def initial (s : State) : Prop := s.db.alerts.rows = [] ∧ s.sweeps = []

/-- Every alert was recorded by one of the sweeps, for a quota in effect. -/
def Sourced (s : State) : Prop :=
  ∀ a ∈ s.db.alerts.rows, ∃ w ∈ s.sweeps, ∃ q v, RecordedFor w.1 w.2 a q v

theorem step_sourced {s t : State} {l : Label} (hs : Sourced s) (h : step s l = some t) :
    Sourced t := by
  cases l with
  | change store quotas =>
    cases h
    exact hs
  | evaluate f now =>
    cases h
    intro a ha
    rcases traced_evaluateThresholds a ha with ha | hnew
    · obtain ⟨w,hw,hrec⟩ := hs a ha
      exact ⟨w,List.mem_append_left _ hw,hrec⟩
    · exact ⟨(s.db,now),List.mem_append_right _ (List.mem_singleton_self _),hnew⟩

theorem reachable_sourced {ok : State → Label → Prop} {s : State} (h : Reachable step initial ok s) :
    Sourced s := by
  refine h.invariant (fun s hi a ha => ?_) (fun s l t hs _ hst => step_sourced hs hst)
  rw [hi.1] at ha
  cases ha

/-- After a sweep without failures there is an alert for every level a quota has
reached. Unless the period is weekly, it was recorded in the quota's window, for
the limit of a quota with the same tenant and meter that had reached the level. -/
theorem alerts_complete {s t : State} (h : Reachable step initial anyStep s) {f : SweepCalls}
    {now : Int} (hst : step s (.evaluate f now) = some t)
    (herr : (s.db.evaluateThresholds f now).errors = 0) {q : QuotaRecord}
    (hq : q ∈ s.db.quotas.rows) (ha : q.activeAt now = true) {v : Int × Int}
    (hv : q.window now = .ok v) (hl : 0 < q.limitValue.value)
    (hc : q.sweepConsumed s.db.store q.tenantID v ≠ 0) {threshold : Rat}
    (hlevel : threshold ∈ q.levels)
    (ht : threshold ≤ Float64.percent (q.sweepConsumed s.db.store q.tenantID v) q.limitValue.value) :
    ∃ a ∈ t.db.alerts.rows, a.key = (q.tenantID,q.meterName,threshold,q.label now) ∧
      (q.billingPeriod ≠ "weekly" → ∃ w ∈ t.sweeps, v.1 ≤ w.2 ∧ w.2 < v.2 ∧
        ∃ p, RecordedFor w.1 w.2 a p v) := by
  have hsource := step_sourced (reachable_sourced h) hst
  cases hst
  obtain ⟨a,hmem,hkey⟩ := evaluateThresholds_records herr hq ha hv hl hc hlevel ht
  refine ⟨a,hmem,hkey,fun hweekly => ?_⟩
  obtain ⟨w,hw,p,v',hrec⟩ := hsource a hmem
  have hlabel : q.label now = p.label w.2 := by
    rw [← hrec.period]
    exact (congrArg (fun k => k.2.2.2) hkey).symm
  have hwindow : v = v' := resolvePeriod_of_label hweekly hv hrec.window hlabel
  subst hwindow
  obtain ⟨hstart,hstop⟩ := resolvePeriod_contains hrec.window
  exact ⟨w,hw,hstart,hstop,p,hrec⟩

theorem step_keeps {s t : State} {l : Label} (h : step s l = some t) :
    s.db.alerts.rows ⊆ t.db.alerts.rows := by
  cases l with
  | change store quotas =>
    cases h
    exact fun _ ha => ha
  | evaluate f now =>
    cases h
    exact le_evaluateThresholds.1

theorem run_keeps {s t : State} (h : Reachable step (· = s) anyStep t) :
    s.db.alerts.rows ⊆ t.db.alerts.rows := by
  refine h.invariant (P := fun t => s.db.alerts.rows ⊆ t.db.alerts.rows) ?_ ?_
  · rintro _ rfl
    exact fun _ ha => ha
  · intro t l u hs _ hst a ha
    exact step_keeps hst (hs ha)

/-- Alerts are unique and stay as they are. Each was recorded by a sweep, for a quota in effect
then that had reached the level up to a rounding error. A sweep without failures leaves nothing
to add to one at the same time. -/
theorem alerts_sound {s : State} (h : Reachable step initial anyStep s) :
    (s.db.alerts.rows.map (·.key)).Nodup ∧
    (∀ t, Reachable step (· = s) anyStep t → s.db.alerts.rows ⊆ t.db.alerts.rows) ∧
    (∀ a ∈ s.db.alerts.rows, ∃ w ∈ s.sweeps, ∃ q v, RecordedFor w.1 w.2 a q v ∧
      a.thresholdPct ≤ q.sweepConsumed w.1.store q.tenantID v/q.limitValue.value*100 +
        |q.sweepConsumed w.1.store q.tenantID v/q.limitValue.value*100| * 2^(-50 : Int)) ∧
    ∀ f now t, step s (.evaluate f now) = some t → (s.db.evaluateThresholds f now).errors = 0 →
      ∀ f' u, step t (.evaluate f' now) = some u → u.db.alerts.rows = t.db.alerts.rows := by
  refine ⟨s.db.alerts.unique,fun t ht => run_keeps ht,fun a ha => ?_,?_⟩
  · obtain ⟨w,hw,q,v,hrec⟩ := reachable_sourced h a ha
    exact ⟨w,hw,q,v,hrec,hrec.nearly⟩
  intro f now t ht herr f' u hu
  cases ht
  cases hu
  have hrec : Recorded s.db now (s.db.evaluateThresholds f now).alerts := by
    intro q hq ha v hv hl hc threshold hlevel hreached
    exact List.mem_map.mpr (evaluateThresholds_records herr hq ha hv hl hc hlevel hreached)
  exact congrArg AlertTable.rows (@evaluateThresholds_recorded
    { s.db with alerts := (s.db.evaluateThresholds f now).alerts } f' now hrec)

def manyTokens (quotas : Table Nat QuotaRecord (·.id)) : Tables :=
  ⟨oneReading (monthlyQuota 1 "" "tokens" "tokens") firstMonth "" 1500,quotas,.empty⟩

theorem alerts_sound_for_tokens :
    ∃ s, Reachable step initial anyStep s ∧ s.db.alerts.rows.length = 4 ∧
      (s.db.alerts.rows.map (·.key)).Nodup ∧
      ∀ a ∈ s.db.alerts.rows, ∃ w ∈ s.sweeps, ∃ q v, RecordedFor w.1 w.2 a q v := by
  obtain ⟨s,hs,hfour⟩ := Reachable.exists_of_run step initial
    ⟨manyTokens (Table.empty.insert (monthlyQuota 1 "" "tokens" "tokens")),[]⟩
    [.evaluate {} 0,.evaluate {} 0] (fun s => s.db.alerts.rows.length = 4) ⟨rfl,rfl⟩ (by decide +kernel)
  obtain ⟨hkeys,-,hrec,-⟩ := alerts_sound hs
  refine ⟨s,hs,hfour,hkeys,fun a ha => ?_⟩
  obtain ⟨w,hw,q,v,h,-⟩ := hrec a ha
  exact ⟨w,hw,q,v,h⟩

/-- Less than nine tenths of the limit were used, and `float64` makes 90 percent of them. -/
theorem alert_below_level :
    ∃ s, Reachable step initial anyStep s ∧ ∃ a ∈ s.db.alerts.rows, a.thresholdPct = 90 ∧
      ∃ q ∈ s.db.quotas.rows, a.meterName = q.meterName ∧
        q.sweepConsumed s.db.store "t" firstMonth/q.limitValue.value*100 < 90 := by
  let q : QuotaRecord := { monthlyQuota 1 "" "tokens" "tokens" with
    limitValue := ⟨3995791293986068,by decide⟩ }
  exact Reachable.exists_of_run step initial
    ⟨⟨oneReading q firstMonth "" (3596212164587461/10^6),Table.empty.insert q,.empty⟩,[]⟩
    [.evaluate {} 0] _ ⟨rfl,rfl⟩ (by decide +kernel)

theorem alerts_complete_for_tokens :
    ∃ t, step ⟨manyTokens (Table.empty.insert (monthlyQuota 1 "" "tokens" "tokens")),[]⟩
        (.evaluate {} 0) = some t ∧
      ∃ a ∈ t.db.alerts.rows, a.tenantID = "t" ∧ a.meterName = "tokens" ∧ a.thresholdPct = 50 ∧
        ∃ w ∈ t.sweeps, firstMonth.1 ≤ w.2 ∧ w.2 < firstMonth.2 ∧
          ∃ p, RecordedFor w.1 w.2 a p firstMonth := by
  obtain ⟨a,ha,hkey,hrec⟩ := alerts_complete
    (s := ⟨manyTokens (Table.empty.insert (monthlyQuota 1 "" "tokens" "tokens")),[]⟩) (f := {})
    (q := monthlyQuota 1 "" "tokens" "tokens") (v := firstMonth) (.start ⟨rfl,rfl⟩)
    (show step _ (.evaluate _ 0) = some _ from rfl) (by decide +kernel) (by decide +kernel)
    (by decide) (by decide +kernel) (by decide +kernel) (by decide +kernel)
    (show (50 : Rat) ∈ _ by decide +kernel) (by decide +kernel)
  exact ⟨_,rfl,a,ha,congrArg (·.1) hkey,congrArg (·.2.1) hkey,congrArg (·.2.2.1) hkey,
    hrec (by decide)⟩

/-- A limit of 2000 next to one of 1000: half of it is used up, and the only alert
about that names the other limit. Of a limit of 99.9 nine tenths are used up, which are
less than 90 percent in `float64`. A year later a week has the label of the first week,
and no alert is recorded in it. -/
theorem alert_missing :
    (∃ db : Tables, (db.evaluateThresholds {} 0).errors = 0 ∧
      ∃ q ∈ db.quotasForTenant "t" 0, q.window 0 = .ok firstMonth ∧ q.limitValue.value = 2000 ∧
        50 ∈ q.levels ∧ 50 ≤ q.sweepConsumed db.store "t" firstMonth/q.limitValue.value*100 ∧
        (db.evaluateThresholds {} 0).alerts.rows ≠ [] ∧
        ∀ a ∈ (db.evaluateThresholds {} 0).alerts.rows, a.limitValue ≠ q.limitValue) ∧
    (∃ db : Tables, (db.evaluateThresholds {} 0).errors = 0 ∧
      ∃ q ∈ db.quotasForTenant "t" 0, q.window 0 = .ok firstMonth ∧ 0 < q.limitValue.value ∧
        90 ∈ q.levels ∧ 90 ≤ q.sweepConsumed db.store "t" firstMonth/q.limitValue.value*100 ∧
        ∀ a ∈ (db.evaluateThresholds {} 0).alerts.rows, a.thresholdPct ≠ 90) ∧
    ∃ s, Reachable step initial anyStep s ∧
      ∃ now, (s.db.evaluateThresholds { clock := fun _ _ => now } now).errors = 0 ∧
        ∃ q ∈ s.db.quotasForTenant "t" now, ∃ v, q.window now = .ok v ∧ 0 < q.limitValue.value ∧
          50 ∈ q.levels ∧ 50 ≤ q.sweepConsumed s.db.store "t" v/q.limitValue.value*100 ∧
          ∀ a ∈ (s.db.evaluateThresholds { clock := fun _ _ => now } now).alerts.rows,
            a.firedAt < v.1 := by
  refine ⟨?_,?_,?_⟩
  · exact ⟨manyTokens ((Table.empty.insert (monthlyQuota 1 "" "tokens" "tokens")).insert
        { monthlyQuota 2 "" "tokens" "tokens" with limitValue := ⟨2000*10^6,by decide⟩ }),
      by decide +kernel,
      { monthlyQuota 2 "" "tokens" "tokens" with limitValue := ⟨2000*10^6,by decide⟩ },
      by decide +kernel,by decide +kernel,by decide +kernel,by decide +kernel,by decide +kernel,
      by decide +kernel,by decide +kernel⟩
  · let q : QuotaRecord := { monthlyQuota 1 "" "tokens" "tokens" with
      limitValue := ⟨99900000,by decide⟩ }
    exact ⟨⟨oneReading q firstMonth "" (8991/100),Table.empty.insert q,.empty⟩,
      by decide +kernel,q,by decide +kernel,by decide +kernel,by decide +kernel,by decide +kernel,
      by decide +kernel,by decide +kernel⟩
  · let q : QuotaRecord := { monthlyQuota 1 "" "tokens" "tokens" with period := "weekly" }
    let week : Int → Int × Int := fun start => (start*10^9,start*10^9 + 7*nanosPerDay)
    -- the Mondays 2024-01-01 and 2024-12-30
    let first := week 63839664000
    let last := week 63871113600
    let store := addReading (oneReading q first "" 600) (readingFor q last 2 "" 600)
    obtain ⟨s,hs,herr,hq,hv,hpct,hold⟩ := Reachable.exists_of_run step initial
      ⟨⟨store,Table.empty.insert q,.empty⟩,[]⟩
      [.evaluate { clock := fun _ _ => first.1 } first.1]
      (fun s => (s.db.evaluateThresholds { clock := fun _ _ => last.1 } last.1).errors = 0 ∧
        q ∈ s.db.quotasForTenant "t" last.1 ∧ q.window last.1 = .ok last ∧
        50 ≤ q.sweepConsumed s.db.store "t" last/q.limitValue.value*100 ∧
        ∀ a ∈ (s.db.evaluateThresholds { clock := fun _ _ => last.1 } last.1).alerts.rows,
          a.firedAt < last.1)
      ⟨rfl,rfl⟩ (by decide +kernel)
    exact ⟨s,hs,last.1,herr,q,hq,last,hv,by decide +kernel,by decide +kernel,hpct,hold⟩

end CostConsumer.Quota
