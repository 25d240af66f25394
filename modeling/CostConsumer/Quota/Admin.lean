import CostConsumer.Foundation.Newest
import CostConsumer.Quota.Store
set_option autoImplicit false

/-!
The quota API as a system: any number of requests that create, change and delete
quotas. A request is checked when it comes in, then makes the two queries of the
overcommit check, then writes. Each of these is a step of its own and may fail.
-/

namespace CostConsumer.Quota.Admin
open Inventory Foundation Numeric Billing Ingest

/-- The decoded body of a request. The id in it is not read, and a missing
`effective_from` is the zero time. -/
structure QuotaBody where
  name : String
  tenantID : String
  projectID : String
  resourceType : String
  meterName : String
  limitValue : Rat
  unit : String
  period : String
  policy : String
  thresholds : List Rat
  effectiveFrom : Int
  effectiveTo : Option Int
  deriving DecidableEq

inductive QuotaError where
  | invalidJSON (err : String) : QuotaError
  | required : QuotaError
  | notPositive : QuotaError
  | invalidPeriod (err : PeriodError) : QuotaError
  | overcommit (projectSum limitValue tenantLimit : Rat) : QuotaError
  | createFailed : QuotaError
  | storeFailed : QuotaError
  | notFound (id : Nat) : QuotaError
  | notFoundOrDeleted (id : Nat) : QuotaError
  deriving DecidableEq

/-- The format of the message; its arguments are those of the error. -/
def QuotaError.format : QuotaError → String
  | invalidJSON _ => "invalid JSON: %s"
  | required => "tenant_id, meter_name, and unit are required"
  | notPositive => "limit_value must be positive"
  | invalidPeriod _ => "invalid period: %s"
  | overcommit _ _ _ => "project limits would exceed tenant limit: %.2f + %.2f > %.2f"
  | createFailed => "failed to create quota"
  | storeFailed => "%s"
  | notFound _ => "quota %d not found"
  | notFoundOrDeleted _ => "quota %d not found or already deleted"

def QuotaError.status : QuotaError → Nat
  | createFailed => 500
  | storeFailed | notFound _ | notFoundOrDeleted _ => 404
  | _ => 400

def createQuota (now : Int) : Except String QuotaBody → Except QuotaError QuotaBody
  | .error err => .error (.invalidJSON err)
  | .ok q =>
    if q.tenantID = "" ∨ q.meterName = "" ∨ q.unit = "" then .error .required
    else if q.limitValue ≤ 0 then .error .notPositive
    else
      let period := if q.period = "" then "monthly" else q.period
      match resolvePeriod period now with
      | .error err => .error (.invalidPeriod err)
      | .ok _ => .ok { q with
          period, policy := if q.policy = "" then "deny" else q.policy,
          effectiveFrom := if q.effectiveFrom = 0 then now else q.effectiveFrom }

/-- `UpdateQuota` up to its overcommit check: of the fields only the period is looked at. -/
def updateQuota (now : Int) : Except String QuotaBody → Except QuotaError QuotaBody
  | .error err => .error (.invalidJSON err)
  | .ok q =>
    if q.period = "" then .ok q
    else match resolvePeriod q.period now with
    | .error err => .error (.invalidPeriod err)
    | .ok _ => .ok q

abbrev Quotas := Table Nat QuotaRecord (·.id)

def projectRows (rows : List QuotaRecord) (clock : Int) (tenantID meterName : String) (excludeID : Nat) :
    List QuotaRecord :=
  rows.filter fun q => q.tenantID = tenantID && q.meterName = meterName && q.projectID ≠ "" &&
    q.notEnded clock && q.id ≠ excludeID

def sumLimits (rows : List QuotaRecord) : Rat := (rows.map (·.limitValue.value)).sum

def projectLimitSum (rows : List QuotaRecord) (clock : Int) (tenantID meterName : String)
    (excludeID : Nat) : Rat := sumLimits (projectRows rows clock tenantID meterName excludeID)

def tenantRows (rows : List QuotaRecord) (clock : Int) (tenantID meterName : String) :
    List QuotaRecord :=
  rows.filter fun q => q.tenantID = tenantID && q.meterName = meterName && q.projectID = "" &&
    q.notEnded clock

/-- Without a row, and on every error, the limit is 0. -/
def tenantQuotaLimit (failed : Bool) (rows : List QuotaRecord) (clock : Int)
    (tenantID meterName : String) : Rat :=
  if failed then 0
  else ((newest (·.effectiveFrom) (tenantRows rows clock tenantID meterName)).map
    (·.limitValue.value)).getD 0

def QuotaBody.row (q : QuotaBody) (id : Nat) (limitValue : Column 18 6) : QuotaRecord :=
  { q with id, limitValue }

def QuotaBody.change (q : QuotaBody) (limitValue : Column 18 6) (row : QuotaRecord) : QuotaRecord :=
  { q.row row.id limitValue with effectiveFrom := row.effectiveFrom, effectiveTo := row.effectiveTo }

def QuotaBody.writeTo (q : QuotaBody) (quotas : Quotas) (id : Nat) (limitValue : Column 18 6) : Quotas :=
  quotas.updateWhere (·.id = id) (q.change limitValue) (fun _ => rfl)

def deletable (id : Nat) (row : QuotaRecord) : Bool := row.id = id && row.effectiveTo = none

def endAt (clock : Int) (row : QuotaRecord) : QuotaRecord := { row with effectiveTo := some clock }

def endQuota (quotas : Quotas) (id : Nat) (clock : Int) : Quotas :=
  quotas.updateWhere (deletable id) (endAt clock) (fun _ => rfl)

/-- Where a request is: before the first query of the overcommit check, with the
tenant's limit, or before its write. `read` is what the check compared, if it did:
the tenant's limit and the sum of the project limits. -/
inductive Stage where
  | limit : Stage
  | sum (tenantLimit : Rat) : Stage
  | write (read : Option (Rat × Rat)) : Stage
  deriving DecidableEq

/-- A request to create a quota, or to change the one with an id. -/
structure Request where
  target : Option Nat
  quota : QuotaBody
  stage : Stage
  deriving DecidableEq

/-- The id that the sum leaves out; no quota has the id 0. -/
def Request.excludeID (r : Request) : Nat := r.target.getD 0

inductive Answer where
  | created (id : Nat) (q : QuotaBody) : Answer
  | updated : Answer
  | deleted : Answer
  | failed (e : QuotaError) : Answer
  deriving DecidableEq

/-- `clock` is that of the database, `nextID` the sequence of the ids. -/
structure State where
  quotas : Quotas
  nextID : Nat
  clock : Int
  requests : List Request
  answers : List Answer

/-- A request comes in with the clock of the API; requests under way go by their
position. A `Bool` says that the query fails. -/
inductive Label where
  | tick (now : Int) : Label
  | create (now : Int) (body : Except String QuotaBody) : Label
  | update (now : Int) (id : Nat) (body : Except String QuotaBody) : Label
  | delete (id : Nat) (outcome : CommitOutcome) : Label
  | readLimit (n : Nat) (failed : Bool) : Label
  | readSum (n : Nat) (failed : Bool) : Label
  | write (n : Nat) (outcome : CommitOutcome) : Label

namespace State

def answer (s : State) (a : Answer) : State := { s with answers := s.answers ++ [a] }

def accept (s : State) (r : Request) : State := { s with requests := s.requests ++ [r] }

def proceed (s : State) (n : Nat) (r : Request) (stage : Stage) : State :=
  { s with requests := s.requests.set n { r with stage } }

def close (s : State) (n : Nat) (a : Answer) : State :=
  { s.answer a with requests := s.requests.eraseIdx n }

def withQuotas (s : State) (quotas : Quotas) : State := { s with quotas }

/-- The sequence moves on whether or not a row is inserted. -/
def skipID (s : State) : State := { s with nextID := s.nextID+1 }

def upsertQuota (s : State) (outcome : CommitOutcome) (q : QuotaBody) :
    State × Except QuotaError Nat :=
  let id := s.nextID
  let s := s.skipID
  match Column.store q.limitValue with
  | none => (s,.error .createFailed)
  | some v =>
    let written := s.withQuotas (s.quotas.insert (q.row id v))
    match outcome with
    | .committed => (written,.ok id)
    | .refused => (s,.error .createFailed)
    | .answerLost => (written,.error .createFailed)

def updateQuota (s : State) (outcome : CommitOutcome) (id : Nat) (q : QuotaBody) :
    State × Except QuotaError Unit :=
  match Column.store q.limitValue with
  | none => (s,.error .storeFailed)
  | some v =>
    let written := s.withQuotas (q.writeTo s.quotas id v)
    match outcome with
    | .committed => (written,if (s.quotas.find? id).isSome then .ok () else .error (.notFound id))
    | .refused => (s,.error .storeFailed)
    | .answerLost => (written,.error .storeFailed)

def softDeleteQuota (s : State) (outcome : CommitOutcome) (id : Nat) : State × Except QuotaError Unit :=
  let written := s.withQuotas (endQuota s.quotas id s.clock)
  match outcome with
  | .committed =>
    (written,if s.quotas.rows.any (deletable id) then .ok () else .error (.notFoundOrDeleted id))
  | .refused => (s,.error .storeFailed)
  | .answerLost => (written,.error .storeFailed)

end State

def Answer.ofUpdate : Except QuotaError Unit → Answer
  | .ok _ => .updated
  | .error e => .failed e

def Answer.ofDelete : Except QuotaError Unit → Answer
  | .ok _ => .deleted
  | .error e => .failed e

/-- The first query of `validateProjectOvercommit`: a limit of 0 ends the check. -/
def afterLimit (tenantLimit : Rat) : Stage := if tenantLimit = 0 then .write none else .sum tenantLimit

def step (s : State) : Label → Option State
  | .tick now => if s.clock ≤ now then some { s with clock := now } else none
  | .create now body =>
    some (match createQuota now body with
    | .error e => s.answer (.failed e)
    | .ok q => s.accept ⟨none,q,if q.projectID = "" then .write none else .limit⟩)
  | .update now id body =>
    some (match Admin.updateQuota now body with
    | .error e => s.answer (.failed e)
    | .ok q =>
      s.accept ⟨some id,q,if q.projectID ≠ "" ∧ 0 < q.limitValue then .limit else .write none⟩)
  | .delete id outcome =>
    let (t,res) := s.softDeleteQuota outcome id
    some (t.answer (.ofDelete res))
  | .readLimit n failed =>
    match s.requests[n]? with
    | some r =>
      if r.stage = .limit then
        some (s.proceed n r (afterLimit
          (tenantQuotaLimit failed s.quotas.rows s.clock r.quota.tenantID r.quota.meterName)))
      else none
    | none => none
  | .readSum n failed =>
    match s.requests[n]? with
    | some r =>
      match r.stage with
      | .sum tenantLimit =>
        if failed then some (s.proceed n r (.write none))
        else
          let projectSum :=
            projectLimitSum s.quotas.rows s.clock r.quota.tenantID r.quota.meterName r.excludeID
          if projectSum + r.quota.limitValue > tenantLimit then
            some (s.close n (.failed (.overcommit projectSum r.quota.limitValue tenantLimit)))
          else some (s.proceed n r (.write (some (tenantLimit,projectSum))))
      | _ => none
    | none => none
  | .write n outcome =>
    match s.requests[n]? with
    | some r =>
      match r.stage, r.target with
      | .write _, none =>
        let (t,res) := s.upsertQuota outcome r.quota
        some (t.close n (match res with
          | .ok id => .created id r.quota
          | .error e => .failed e))
      | .write _, some id =>
        let (t,res) := s.updateQuota outcome id r.quota
        some (t.close n (.ofUpdate res))
      | _, _ => none
    | none => none

def initial (s : State) : Prop := s.quotas = .empty ∧ s.nextID = 1 ∧ s.requests = []

def Request.row? (r : Request) (s : State) : Option QuotaRecord :=
  (Column.store r.quota.limitValue).bind fun v =>
    match r.target with
    | none => some (r.quota.row s.nextID v)
    | some id => (s.quotas.find? id).map (r.quota.change v)

structure Request.Valid (r : Request) : Prop where
  period : ∃ p, parsePeriod r.quota.period = .ok p
  created : r.target = none →
    r.quota.tenantID ≠ "" ∧ r.quota.meterName ≠ "" ∧ r.quota.unit ≠ "" ∧ 0 < r.quota.limitValue
  checked : ∀ tenantLimit projectSum, r.stage = .write (some (tenantLimit,projectSum)) →
    projectSum + r.quota.limitValue ≤ tenantLimit

def Sound (s : State) : Prop :=
  (∀ q ∈ s.quotas.rows, q.id < s.nextID) ∧ ∀ r ∈ s.requests, r.Valid

/-- What a step does to the quotas, case by case. -/
inductive Moves (s : State) : Label → State → Prop
  | tick {now : Int} (h : s.clock ≤ now) : Moves s (.tick now) { s with clock := now }
  | keep {l : Label} {t : State} (hq : t.quotas = s.quotas) (hc : t.clock = s.clock)
      (hs : Sound s → Sound t) : Moves s l t
  | delete {id : Nat} {outcome : CommitOutcome} {t : State}
      (hq : t.quotas = endQuota s.quotas id s.clock) (hc : t.clock = s.clock)
      (hs : Sound s → Sound t) : Moves s (.delete id outcome) t
  | put {n : Nat} {outcome : CommitOutcome} {t : State} {r : Request} {read : Option (Rat × Rat)}
      {row : QuotaRecord} (hr : s.requests[n]? = some r) (hread : r.stage = .write read)
      (hrow : r.row? s = some row)
      (hq : Sound s → Table.Replaces (·.id) s.quotas.rows t.quotas.rows row) (hc : t.clock = s.clock)
      (hs : Sound s → Sound t) : Moves s (.write n outcome) t

theorem createQuota_valid {now : Int} {body : Except String QuotaBody} {q : QuotaBody} {stage : Stage}
    (h : createQuota now body = .ok q) (hstage : ∀ read, stage ≠ .write (some read)) :
    (⟨none,q,stage⟩ : Request).Valid := by
  cases body with
  | error err => cases h
  | ok b =>
    simp only [createQuota] at h
    split at h
    · cases h
    rename_i hreq
    split at h
    · cases h
    rename_i hpos
    split at h
    · cases h
    rename_i w hw
    cases h
    obtain ⟨p,hp,-⟩ := resolvePeriod_ok hw
    simp only [not_or] at hreq
    exact ⟨⟨p,hp⟩,fun _ => ⟨hreq.1,hreq.2.1,hreq.2.2,not_le.mp hpos⟩,fun _ _ hs => absurd hs (hstage _)⟩

theorem updateQuota_valid {now : Int} {body : Except String QuotaBody} {q : QuotaBody} {stage : Stage}
    (id : Nat) (h : updateQuota now body = .ok q) (hstage : ∀ read, stage ≠ .write (some read)) :
    (⟨some id,q,stage⟩ : Request).Valid := by
  refine ⟨?_,(fun hn => by cases hn),fun _ _ hs => absurd hs (hstage _)⟩
  cases body with
  | error err => cases h
  | ok b =>
    simp only [updateQuota] at h
    split at h
    · rename_i hp
      cases h
      exact ⟨.monthly,by rw [parsePeriod,if_pos (.inr hp)]⟩
    split at h
    · cases h
    rename_i w hw
    cases h
    obtain ⟨p,hp,-⟩ := resolvePeriod_ok hw
    exact ⟨p,hp⟩

theorem Sound.accept {s : State} {r : Request} (h : Sound s) (hr : r.Valid) : Sound (s.accept r) := by
  refine ⟨h.1,fun r' hr' => ?_⟩
  rcases List.mem_append.mp hr' with hr' | hr'
  · exact h.2 r' hr'
  · rw [List.mem_singleton.mp hr']
    exact hr

theorem Sound.proceed {s : State} {n : Nat} {r : Request} {stage : Stage} (h : Sound s)
    (hr : s.requests[n]? = some r) (hstage : ∀ tenantLimit projectSum,
      stage = .write (some (tenantLimit,projectSum)) → projectSum + r.quota.limitValue ≤ tenantLimit) :
    Sound (s.proceed n r stage) := by
  refine ⟨h.1,fun r' hr' => ?_⟩
  rcases List.mem_or_eq_of_mem_set hr' with hr' | rfl
  · exact h.2 r' hr'
  · have hv := h.2 r (List.mem_of_getElem? hr)
    exact ⟨hv.period,hv.created,hstage⟩

theorem Sound.close {s : State} (h : Sound s) (n : Nat) (a : Answer) : Sound (s.close n a) :=
  ⟨h.1,fun r hr => h.2 r (List.mem_of_mem_eraseIdx hr)⟩

theorem Sound.withQuotas {s : State} {quotas : Quotas} (h : Sound s)
    (hq : ∀ q ∈ quotas.rows, ∃ q' ∈ s.quotas.rows, q'.id = q.id) : Sound (s.withQuotas quotas) := by
  refine ⟨fun q hmem => ?_,h.2⟩
  obtain ⟨q',hq',hid⟩ := hq q hmem
  exact hid ▸ h.1 q' hq'

theorem Sound.updateWhere {s : State} (h : Sound s) (p : QuotaRecord → Bool)
    {f : QuotaRecord → QuotaRecord} (hf : ∀ q, (f q).id = q.id) :
    Sound (s.withQuotas (s.quotas.updateWhere p f hf)) := by
  refine h.withQuotas fun q hq => ?_
  obtain ⟨q',hq',hid,-⟩ := Table.mem_updateWhere hf hq
  exact ⟨q',hq',hid⟩

theorem Sound.endQuota {s : State} (h : Sound s) (id : Nat) :
    Sound (s.withQuotas (endQuota s.quotas id s.clock)) := h.updateWhere _ _

theorem Sound.writeTo {s : State} (h : Sound s) (q : QuotaBody) (id : Nat) (v : Column 18 6) :
    Sound (s.withQuotas (q.writeTo s.quotas id v)) := h.updateWhere _ _

theorem Sound.skipID {s : State} (h : Sound s) : Sound s.skipID :=
  ⟨fun q hq => Nat.lt_succ_of_lt (h.1 q hq),h.2⟩

theorem Sound.insert {s : State} (h : Sound s) (q : QuotaBody) (v : Column 18 6) :
    Sound (s.skipID.withQuotas (s.quotas.insert (q.row s.nextID v))) := by
  refine ⟨fun q' hq' => ?_,h.2⟩
  rcases Table.mem_insertRow hq' with rfl | hq'
  · exact Nat.lt_succ_self _
  · exact h.skipID.1 q' hq'

theorem upsertQuota_cases (s : State) (outcome : CommitOutcome) (q : QuotaBody) :
    (s.upsertQuota outcome q).1 = s.skipID ∨
    ∃ v, Column.store q.limitValue = some v ∧
      (s.upsertQuota outcome q).1 = s.skipID.withQuotas (s.quotas.insert (q.row s.nextID v)) := by
  unfold State.upsertQuota
  cases Column.store q.limitValue with
  | none => exact .inl rfl
  | some v =>
    cases outcome with
    | committed => exact .inr ⟨v,rfl,rfl⟩
    | refused => exact .inl rfl
    | answerLost => exact .inr ⟨v,rfl,rfl⟩

theorem updateQuota_cases (s : State) (outcome : CommitOutcome) (id : Nat) (q : QuotaBody) :
    (s.updateQuota outcome id q).1 = s ∨
    ∃ v, Column.store q.limitValue = some v ∧
      (s.updateQuota outcome id q).1 = s.withQuotas (q.writeTo s.quotas id v) := by
  unfold State.updateQuota
  cases Column.store q.limitValue with
  | none => exact .inl rfl
  | some v =>
    cases outcome with
    | committed => exact .inr ⟨v,rfl,rfl⟩
    | refused => exact .inl rfl
    | answerLost => exact .inr ⟨v,rfl,rfl⟩

section Write
variable {s : State} {n : Nat} {outcome : CommitOutcome} {r : Request} {read : Option (Rat × Rat)}

theorem row?_create {v : Column 18 6} (hv : Column.store r.quota.limitValue = some v)
    (htarget : r.target = none) : r.row? s = some (r.quota.row s.nextID v) := by
  rw [Request.row?,hv,Option.bind_some,htarget]

theorem row?_update {v : Column 18 6} {id : Nat} {row : QuotaRecord}
    (hv : Column.store r.quota.limitValue = some v) (htarget : r.target = some id)
    (hf : s.quotas.find? id = some row) : r.row? s = some (r.quota.change v row) := by
  rw [Request.row?,hv,Option.bind_some,htarget]
  exact congrArg (Option.map _) hf

theorem moves_create (hr : s.requests[n]? = some r) (hread : r.stage = .write read)
    (htarget : r.target = none) (a : Answer) :
    Moves s (.write n outcome) ((s.upsertQuota outcome r.quota).1.close n a) := by
  rcases upsertQuota_cases s outcome r.quota with h | ⟨v,hv,h⟩
  · rw [h]
    exact .keep rfl rfl fun hs => hs.skipID.close n a
  · rw [h]
    exact .put hr hread (row?_create hv htarget) (fun hs => Table.insert_replaces hs.1) rfl
      fun hs => (hs.insert r.quota v).close n a

theorem moves_update {id : Nat} (hr : s.requests[n]? = some r) (hread : r.stage = .write read)
    (htarget : r.target = some id) (a : Answer) :
    Moves s (.write n outcome) ((s.updateQuota outcome id r.quota).1.close n a) := by
  rcases updateQuota_cases s outcome id r.quota with h | ⟨v,hv,h⟩
  · rw [h]
    exact .keep rfl rfl fun hs => hs.close n a
  · rw [h]
    cases hf : s.quotas.find? id with
    | none =>
      have hid := Table.find?_eq_none.mp hf
      refine .keep ?_ rfl fun hs => (hs.writeTo r.quota id v).close n a
      exact Table.updateWhere_of_none (fun q hq => decide_eq_false (hid q hq)) (r.quota.change v) fun _ => rfl
    | some row =>
      exact .put hr hread (row?_update hv htarget hf)
        (fun _ => Table.updateWhere_replaces hf (r.quota.change v) fun _ => rfl) rfl
        fun hs => (hs.writeTo r.quota id v).close n a

end Write

theorem step_moves {s t : State} {l : Label} (h : step s l = some t) : Moves s l t := by
  cases l with
  | tick now =>
    simp only [step] at h
    split at h
    · rename_i hle
      cases h
      exact .tick hle
    · cases h
  | create now body =>
    cases h
    cases hc : createQuota now body with
    | error e => exact .keep rfl rfl id
    | ok q => exact .keep rfl rfl fun hs => hs.accept (createQuota_valid hc (by intro; split <;> simp))
  | update now id body =>
    cases h
    cases hc : updateQuota now body with
    | error e => exact .keep rfl rfl fun hs => hs
    | ok q => exact .keep rfl rfl fun hs => hs.accept (updateQuota_valid id hc (by intro; split <;> simp))
  | delete id outcome =>
    cases h
    cases outcome with
    | committed => exact .delete rfl rfl fun hs => hs.endQuota id
    | refused => exact .keep rfl rfl fun hs => hs
    | answerLost => exact .delete rfl rfl fun hs => hs.endQuota id
  | readLimit n failed =>
    simp only [step] at h
    split at h
    · rename_i r hr
      split at h
      · cases h
        refine .keep rfl rfl fun hs => hs.proceed hr fun _ _ hw => ?_
        unfold afterLimit at hw
        split at hw <;> cases hw
      · cases h
    · cases h
  | readSum n failed =>
    simp only [step] at h
    split at h
    · rename_i r hr
      split at h
      · rename_i tenantLimit hstage
        split at h
        · cases h
          exact .keep rfl rfl fun hs => hs.proceed hr fun _ _ hw => nomatch hw
        split at h
        · cases h
          exact .keep rfl rfl fun hs => hs.close n _
        · rename_i hle
          cases h
          refine .keep rfl rfl fun hs => hs.proceed hr fun _ _ hw => ?_
          cases hw
          exact not_lt.mp hle
      · cases h
    · cases h
  | write n outcome =>
    simp only [step] at h
    split at h
    · rename_i r hr
      split at h
      · rename_i read hread htarget
        cases h
        exact moves_create hr hread htarget _
      · rename_i read id hread htarget
        cases h
        exact moves_update hr hread htarget _
      · cases h
    · cases h

theorem Moves.sound {s t : State} {l : Label} (hm : Moves s l t) (h : Sound s) : Sound t := by
  cases hm with
  | tick _ => exact h
  | keep _ _ hs => exact hs h
  | delete _ _ hs => exact hs h
  | put _ _ _ _ _ hs => exact hs h

theorem Sound.initial {s : State} (h : initial s) : Sound s := by
  obtain ⟨hq,-,hr⟩ := h
  exact ⟨by simp [hq,Table.empty],by simp [hr]⟩

theorem reachable_sound {ok : State → Label → Prop} {s : State} (h : Reachable step initial ok s) :
    Sound s := h.invariant (fun _ => .initial) fun _ _ _ hs _ hst => (step_moves hst).sound hs

end CostConsumer.Quota.Admin
