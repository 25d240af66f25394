import CostConsumer.Foundation.Filling
import CostConsumer.Quota.Admin
set_option autoImplicit false

/-!
The start of the consumer as far as it seeds the database: `SeedDefaultRates`, then
`SeedDefaultQuotas`. Each makes a count and, if the table is empty, one insert after the
other. Calls may fail, and the process may end between any two of them.
-/

namespace CostConsumer.Rating.Seed
open Inventory Foundation Numeric
open Ingest (CommitOutcome)
open Quota (QuotaRecord)
open Quota.Admin (QuotaBody)

def perHour (rate : Rat) : Rat := stored 16 (rate/3600)
def perMillion (rate : Rat) : Rat := stored 16 (rate/1000000)

def rate (now : Int) (resourceType meterName kokuMetric costType : String) (pricePerUnit : Rat) :
    RateRecord where
  id := 0
  tenantID := none
  resourceType := resourceType
  instanceType := ""
  meterName := meterName
  kokuMetric := kokuMetric
  costType := costType
  pricePerUnit := pricePerUnit
  currency := "USD"
  tiers := []
  tierMode := ""
  tierPeriod := ""
  description := ""
  effectiveFrom := now
  effectiveTo := none

def defaultRates (now : Int) : List RateRecord := [
  rate now "compute_instance" "vm_uptime_seconds" "vm_cost_per_hour" "Infrastructure" (perHour (1/100)),
  rate now "compute_instance" "vm_cpu_core_seconds" "cpu_core_request_per_hour" "Supplementary"
    (perHour (5/1000)),
  { rate now "compute_instance" "vm_memory_gib_seconds" "memory_gb_request_per_hour" "Supplementary" 0 with
    tierMode := "cumulative", tierPeriod := "monthly",
    tiers := [⟨some 20,0⟩,⟨some 120,8/100⟩,⟨none,7/100⟩],
    description := "First 20 GiB free/month, then graduated" },
  rate now "cluster" "cluster_uptime_seconds" "cluster_cost_per_hour" "Infrastructure" (perHour (1/2)),
  rate now "cluster" "cluster_worker_node_seconds" "node_cost_per_hour" "Infrastructure" (perHour (1/10)),
  { rate now "model" "maas_tokens_in" "" "Supplementary" 0 with
    tierMode := "cumulative", tierPeriod := "monthly",
    tiers := [⟨some 1000000,0⟩,⟨none,perMillion (1/2)⟩],
    description := "First 1M tokens free/month, then $0.50/M" },
  { rate now "model" "maas_tokens_out" "" "Supplementary" (perMillion (3/2)) with
    description := "Completion/output tokens (includes reasoning)" },
  rate now "model" "maas_requests" "" "Supplementary" (perMillion 5),
  rate now "bare_metal" "bm_uptime_seconds" "node_cost_per_hour" "Infrastructure" (perHour (5/100))]

def tenants : List String := ["tenant-acme","tenant-globex","tenant-initech","shared"]

structure QuotaDef where
  meterName : String
  limit : Rat
  unit : String

def defs : List QuotaDef := [
  ⟨"vm_cpu_core_seconds",360000,"core_seconds"⟩,
  ⟨"vm_memory_gib_seconds",1440000,"gib_seconds"⟩,
  ⟨"vm_uptime_seconds",86400,"seconds"⟩,
  ⟨"maas_tokens_in",10000000,"tokens"⟩,
  ⟨"maas_tokens_out",5000000,"tokens"⟩,
  ⟨"maas_requests",100000,"requests"⟩,
  ⟨"*",5000,"USD"⟩]

def quota (now : Int) (tenant : String) (d : QuotaDef) : QuotaBody where
  name := ""
  tenantID := tenant
  projectID := ""
  resourceType := ""
  meterName := d.meterName
  limitValue := d.limit
  unit := d.unit
  period := "monthly"
  policy := ""
  thresholds := []
  effectiveFrom := now
  effectiveTo := none

def defaultQuotas (now : Int) : List QuotaBody := tenants.flatMap fun tenant => defs.map (quota now tenant)

/-- Where the process is: not running, before a count, with rows left to insert, or past
the seeding. -/
inductive Phase where
  | down : Phase
  | rateCount : Phase
  | seedRates (rest : List RateRecord) : Phase
  | quotaCount : Phase
  | seedQuotas (rest : List QuotaBody) : Phase
  | up : Phase
  deriving DecidableEq

/-- `clean` says that all store calls of this start have succeeded so far, and `seeded`
that a start has run both functions with all its calls succeeding. -/
structure State where
  rates : List RateRecord
  nextRate : Nat
  admin : Quota.Admin.State
  phase : Phase
  clean : Bool
  seeded : Bool

/-- A count comes with the clock that is read after it. -/
inductive Label where
  | start : Label
  | rateCount (failed : Bool) (now : Int) : Label
  | upsertRate (outcome : CommitOutcome) : Label
  | quotaCount (failed : Bool) (now : Int) : Label
  | upsertQuota (outcome : CommitOutcome) : Label
  | crash : Label

namespace State

def goto (s : State) (phase : Phase) : State := { s with phase }

def exit (s : State) : State := { s with phase := .down, clean := false }

def start (s : State) : State := { s with phase := .rateCount, clean := true }

def finish (s : State) : State := { s with phase := .up, seeded := s.seeded || s.clean }

def withRate (s : State) (r : RateRecord) : State := { s with rates := s.rates ++ [r] }

/-- `UpsertRate` takes every error for a row that is there already: it returns the id 0
and no error. The table has no key but the id, so no row ever is. -/
def upsertRate (s : State) (outcome : CommitOutcome) (r : RateRecord) : State × Nat :=
  let id := s.nextRate
  let s := { s with nextRate := id+1 }
  match Column.store (p := 18) (s := 10) r.pricePerUnit with
  | none => (s,0)
  | some v =>
    let written := s.withRate { r with id, pricePerUnit := v.value }
    match outcome with
    | .committed => (written,id)
    | .refused => (s,0)
    | .answerLost => (written,0)

/-- The loop of `SeedDefaultRates` goes on whatever became of the row. -/
def seedRate (s : State) (outcome : CommitOutcome) (r : RateRecord) (rest : List RateRecord) : State :=
  { (s.upsertRate outcome r).1 with
    phase := if rest = [] then .quotaCount else .seedRates rest
    clean := s.clean && outcome = .committed }

def nextQuota (s : State) (rest : List QuotaBody) : State :=
  if rest = [] then s.finish else s.goto (.seedQuotas rest)

/-- The loop of `SeedDefaultQuotas` ends with the first error, and so does the process. -/
def seedQuota (s : State) (outcome : CommitOutcome) (q : QuotaBody) (rest : List QuotaBody) : State :=
  let t := { s with admin := (s.admin.upsertQuota outcome q).1 }
  match (s.admin.upsertQuota outcome q).2 with
  | .error _ => t.exit
  | .ok _ => t.nextQuota rest

end State

def step (s : State) : Label → Option State
  | .start => if s.phase = .down then some s.start else none
  | .rateCount failed now =>
    if s.phase = .rateCount then
      some (if failed then s.exit
        else if s.rates.length > 0 then s.goto .quotaCount
        else s.goto (.seedRates (defaultRates now)))
    else none
  | .upsertRate outcome => match s.phase with
    | .seedRates (r :: rest) => some (s.seedRate outcome r rest)
    | _ => none
  | .quotaCount failed now =>
    if s.phase = .quotaCount then
      some (if failed then s.exit
        else if s.admin.quotas.rows.length > 0 then s.finish
        else s.goto (.seedQuotas (defaultQuotas now)))
    else none
  | .upsertQuota outcome => match s.phase with
    | .seedQuotas (q :: rest) => some (s.seedQuota outcome q rest)
    | _ => none
  | .crash => some s.exit

def initial : State where
  rates := []
  nextRate := 1
  admin := ⟨.empty,1,0,[],[]⟩
  phase := .down
  clean := false
  seeded := false

inductive Moves (s : State) : Label → State → Prop
  | start (hp : s.phase = .down) : Moves s .start s.start
  | rateCountFailed (now : Int) (hp : s.phase = .rateCount) : Moves s (.rateCount true now) s.exit
  | ratesThere (now : Int) (hp : s.phase = .rateCount) (hr : s.rates ≠ []) :
      Moves s (.rateCount false now) (s.goto .quotaCount)
  | noRates (now : Int) (hp : s.phase = .rateCount) (hr : s.rates = []) :
      Moves s (.rateCount false now) (s.goto (.seedRates (defaultRates now)))
  | upsertRate {r : RateRecord} {rest : List RateRecord} (outcome : CommitOutcome)
      (hp : s.phase = .seedRates (r :: rest)) : Moves s (.upsertRate outcome) (s.seedRate outcome r rest)
  | quotaCountFailed (now : Int) (hp : s.phase = .quotaCount) : Moves s (.quotaCount true now) s.exit
  | quotasThere (now : Int) (hp : s.phase = .quotaCount) (hq : s.admin.quotas.rows ≠ []) :
      Moves s (.quotaCount false now) s.finish
  | noQuotas (now : Int) (hp : s.phase = .quotaCount) (hq : s.admin.quotas.rows = []) :
      Moves s (.quotaCount false now) (s.goto (.seedQuotas (defaultQuotas now)))
  | upsertQuota {q : QuotaBody} {rest : List QuotaBody} (outcome : CommitOutcome)
      (hp : s.phase = .seedQuotas (q :: rest)) : Moves s (.upsertQuota outcome) (s.seedQuota outcome q rest)
  | crash : Moves s .crash s.exit

theorem step_moves {s t : State} {l : Label} (h : step s l = some t) : Moves s l t := by
  unfold step at h
  cases l with
  | start =>
    obtain ⟨hp,ht⟩ := Option.ite_none_right_eq_some.mp h
    cases ht
    exact .start hp
  | rateCount failed now =>
    obtain ⟨hp,ht⟩ := Option.ite_none_right_eq_some.mp h
    cases failed with
    | true => cases ht; exact .rateCountFailed now hp
    | false =>
      by_cases hr : s.rates = []
      · simp only [hr,Bool.false_eq_true,if_false,List.length_nil,gt_iff_lt,Nat.lt_irrefl] at ht
        cases ht
        exact .noRates now hp hr
      · simp only [Bool.false_eq_true,if_false,gt_iff_lt,List.length_pos_iff.mpr hr,if_true] at ht
        cases ht
        exact .ratesThere now hp hr
  | upsertRate outcome =>
    dsimp only at h
    split at h
    · rename_i r rest hp
      cases h
      exact .upsertRate outcome hp
    · cases h
  | quotaCount failed now =>
    obtain ⟨hp,ht⟩ := Option.ite_none_right_eq_some.mp h
    cases failed with
    | true => cases ht; exact .quotaCountFailed now hp
    | false =>
      by_cases hq : s.admin.quotas.rows = []
      · simp only [hq,Bool.false_eq_true,if_false,List.length_nil,gt_iff_lt,Nat.lt_irrefl] at ht
        cases ht
        exact .noQuotas now hp hq
      · simp only [Bool.false_eq_true,if_false,gt_iff_lt,List.length_pos_iff.mpr hq,if_true] at ht
        cases ht
        exact .quotasThere now hp hq
  | upsertQuota outcome =>
    dsimp only at h
    split at h
    · rename_i q rest hp
      cases h
      exact .upsertQuota outcome hp
    · cases h
  | crash => cases h; exact .crash

/-- A row without what differs from start to start. -/
def undated (r : RateRecord) : RateRecord := { r with id := 0, effectiveFrom := 0 }

def undatedQuota (row : QuotaRecord) : QuotaBody :=
  { row with limitValue := row.limitValue.value, effectiveFrom := 0 }

/-- What the table has of a default, its price and its limit rounded to their columns. -/
def storedRate (r : RateRecord) : RateRecord :=
  { r with id := 0, effectiveFrom := 0, pricePerUnit := stored 10 r.pricePerUnit }

def storedQuota (q : QuotaBody) : QuotaBody :=
  { q with limitValue := stored 6 q.limitValue, effectiveFrom := 0 }

def rateRows : List RateRecord := (defaultRates 0).map storedRate
def quotaRows : List QuotaBody := (defaultQuotas 0).map storedQuota

def State.Complete (s : State) : Prop :=
  (∀ r ∈ rateRows, ∃ row ∈ s.rates, undated row = r) ∧
    ∀ q ∈ quotaRows, ∃ row ∈ s.admin.quotas.rows, undatedQuota row = q

def Phase.ratesLeft : Phase → List RateRecord
  | .seedRates rest => rest
  | _ => []

def Phase.quotasLeft : Phase → List QuotaBody
  | .seedQuotas rest => rest
  | _ => []

def State.rateFill (s : State) : Fill RateRecord :=
  ⟨s.rates.map undated,s.phase.ratesLeft.map storedRate⟩

def State.quotaFill (s : State) : Fill QuotaBody :=
  ⟨s.admin.quotas.rows.map undatedQuota,s.phase.quotasLeft.map storedQuota⟩

def Label.rateMoves : Label → List Move
  | .rateCount false _ => [.begin]
  | .upsertRate .refused => [.skip]
  | .upsertRate _ => [.write]
  | .crash => [.stop]
  | _ => []

def Label.quotaMoves : Label → List Move
  | .quotaCount false _ => [.begin]
  | .upsertQuota .committed => [.write]
  | .upsertQuota .refused => [.stop]
  -- the row is written, and the process ends
  | .upsertQuota .answerLost => [.write,.stop]
  | .crash => [.stop]
  | _ => []

theorem rate_fits {now : Int} {r : RateRecord} (h : r ∈ defaultRates now) : Fits 18 10 r.pricePerUnit := by
  have hall : ∀ p ∈ (defaultRates 0).map (·.pricePerUnit), Fits 18 10 p := by decide +kernel
  exact hall _ (List.mem_map_of_mem (f := (·.pricePerUnit)) h)

theorem quota_fits {now : Int} {q : QuotaBody} (h : q ∈ defaultQuotas now) : Fits 18 6 q.limitValue := by
  have hall : ∀ p ∈ (defaultQuotas 0).map (·.limitValue), Fits 18 6 p := by decide +kernel
  exact hall _ (List.mem_map_of_mem (f := (·.limitValue)) h)

theorem defaultRates_stored (now : Int) : (defaultRates now).map storedRate = rateRows := rfl

theorem defaultQuotas_stored (now : Int) : (defaultQuotas now).map storedQuota = quotaRows := rfl

/-- The rows left to insert are defaults, and the quotas have ids from the sequence. -/
structure Sound (s : State) : Prop where
  rates : ∃ now, s.phase.ratesLeft <:+ defaultRates now
  quotas : ∃ now, s.phase.quotasLeft <:+ defaultQuotas now
  admin : Quota.Admin.Sound s.admin

section Insert
variable {s : State} {outcome : CommitOutcome} {r : RateRecord}

theorem upsertRate_refused (s : State) (r : RateRecord) :
    (s.upsertRate .refused r).1 = { s with nextRate := s.nextRate+1 } := by
  unfold State.upsertRate
  cases Column.store (p := 18) (s := 10) r.pricePerUnit with
  | none => rfl
  | some v => rfl

theorem upsertRate_written (ho : outcome ≠ .refused) (hf : Fits 18 10 r.pricePerUnit) :
    ∃ row, undated row = storedRate r ∧
      (s.upsertRate outcome r).1 = { s with nextRate := s.nextRate+1, rates := s.rates ++ [row] } := by
  unfold State.upsertRate
  cases hv : Column.store (p := 18) (s := 10) r.pricePerUnit with
  | none => simp [Column.store,hf] at hv
  | some v =>
    refine ⟨{ r with id := s.nextRate, pricePerUnit := v.value },?_,?_⟩
    · rw [undated,storedRate,Column.value_of_store hv]
    · cases outcome with
      | committed => rfl
      | refused => exact absurd rfl ho
      | answerLost => rfl

theorem upsertRate_admin (s : State) (outcome : CommitOutcome) (r : RateRecord) :
    (s.upsertRate outcome r).1.admin = s.admin ∧ (s.upsertRate outcome r).1.seeded = s.seeded := by
  unfold State.upsertRate
  cases Column.store (p := 18) (s := 10) r.pricePerUnit with
  | none => exact ⟨rfl,rfl⟩
  | some v => cases outcome <;> exact ⟨rfl,rfl⟩

end Insert

theorem ratesLeft_next (rest : List RateRecord) :
    (if rest = [] then Phase.quotaCount else .seedRates rest).ratesLeft = rest := by
  split
  · rename_i hnil
    exact hnil.symm
  · rfl

theorem seedRate_fill {s : State} {r : RateRecord} {rest : List RateRecord}
    (hp : s.phase = .seedRates (r :: rest)) (hf : Fits 18 10 r.pricePerUnit) (outcome : CommitOutcome) :
    (s.seedRate outcome r rest).rateFill = s.rateFill.moves rateRows (Label.upsertRate outcome).rateMoves := by
  by_cases ho : outcome = .refused
  · subst ho
    simp only [State.rateFill,State.seedRate,upsertRate_refused,ratesLeft_next]
    simp [Label.rateMoves,Fill.moves,Fill.move,hp,Phase.ratesLeft]
  · obtain ⟨row,hrow,hs⟩ := upsertRate_written (s := s) ho hf
    have hmoves : (Label.upsertRate outcome).rateMoves = [.write] := by
      cases outcome with
      | committed => rfl
      | refused => exact absurd rfl ho
      | answerLost => rfl
    simp only [State.rateFill,State.seedRate,hs,ratesLeft_next,hmoves]
    simp [Fill.moves,Fill.move,hp,Phase.ratesLeft,hrow]

section NextQuota
variable (s : State) (rest : List QuotaBody)

theorem nextQuota_cases : s.nextQuota rest = s.finish ∧ rest = [] ∨
    s.nextQuota rest = s.goto (.seedQuotas rest) := by
  unfold State.nextQuota
  split
  · rename_i hnil
    exact .inl ⟨rfl,hnil⟩
  · exact .inr rfl

@[simp] theorem nextQuota_admin : (s.nextQuota rest).admin = s.admin := by
  rcases nextQuota_cases s rest with ⟨h,-⟩ | h <;> rw [h] <;> rfl

@[simp] theorem nextQuota_rates : (s.nextQuota rest).rates = s.rates := by
  rcases nextQuota_cases s rest with ⟨h,-⟩ | h <;> rw [h] <;> rfl

@[simp] theorem nextQuota_ratesLeft : (s.nextQuota rest).phase.ratesLeft = [] := by
  rcases nextQuota_cases s rest with ⟨h,-⟩ | h <;> rw [h] <;> rfl

@[simp] theorem nextQuota_quotasLeft : (s.nextQuota rest).phase.quotasLeft = rest := by
  rcases nextQuota_cases s rest with ⟨h,hr⟩ | h
  · rw [h,hr]
    rfl
  · rw [h]
    rfl

end NextQuota

theorem seedQuota_cases {s : State} {q : QuotaBody} (hf : Fits 18 6 q.limitValue)
    (ha : Quota.Admin.Sound s.admin) (rest : List QuotaBody) (outcome : CommitOutcome) :
    ∃ admin, Quota.Admin.Sound admin ∧
      (outcome = .refused ∧ admin.quotas = s.admin.quotas ∧
          s.seedQuota outcome q rest = State.exit { s with admin } ∨
      ∃ row, undatedQuota row = storedQuota q ∧ admin.quotas.rows = s.admin.quotas.rows ++ [row] ∧
        (outcome = .answerLost ∧ s.seedQuota outcome q rest = State.exit { s with admin } ∨
          outcome = .committed ∧ s.seedQuota outcome q rest = State.nextQuota { s with admin } rest)) := by
  unfold State.seedQuota Quota.Admin.State.upsertQuota
  cases hv : Column.store (p := 18) (s := 6) q.limitValue with
  | none => simp [Column.store,hf] at hv
  | some v =>
    have hrow : undatedQuota (q.row s.admin.nextID v) = storedQuota q := by
      rw [undatedQuota,storedQuota,← Column.value_of_store hv]
      rfl
    have hinsert : (s.admin.quotas.insert (q.row s.admin.nextID v)).rows =
        s.admin.quotas.rows ++ [q.row s.admin.nextID v] := Table.insert_last ha.1
    cases outcome with
    | committed => exact ⟨_,ha.insert q v,.inr ⟨_,hrow,hinsert,.inr ⟨rfl,rfl⟩⟩⟩
    | refused => exact ⟨_,ha.skipID,.inl ⟨rfl,rfl,rfl⟩⟩
    | answerLost => exact ⟨_,ha.insert q v,.inr ⟨_,hrow,hinsert,.inl ⟨rfl,rfl⟩⟩⟩

theorem rateFill_same {s t : State} (hr : t.rates = s.rates) (hs : s.phase.ratesLeft = [])
    (ht : t.phase.ratesLeft = []) : t.rateFill = s.rateFill := by
  rw [State.rateFill,State.rateFill,hr,hs,ht]

theorem quotaFill_same {s t : State} (hq : t.admin.quotas = s.admin.quotas) (hs : s.phase.quotasLeft = [])
    (ht : t.phase.quotasLeft = []) : t.quotaFill = s.quotaFill := by
  rw [State.quotaFill,State.quotaFill,hq,hs,ht]

theorem Sound.rate_fits {s : State} (h : Sound s) {r : RateRecord} {rest : List RateRecord}
    (hp : s.phase = .seedRates (r :: rest)) : Fits 18 10 r.pricePerUnit := by
  obtain ⟨now,hrest⟩ := h.rates
  rw [hp] at hrest
  exact Seed.rate_fits (hrest.subset List.mem_cons_self)

theorem Sound.quota_fits {s : State} (h : Sound s) {q : QuotaBody} {rest : List QuotaBody}
    (hp : s.phase = .seedQuotas (q :: rest)) : Fits 18 6 q.limitValue := by
  obtain ⟨now,hrest⟩ := h.quotas
  rw [hp] at hrest
  exact Seed.quota_fits (hrest.subset List.mem_cons_self)

theorem Moves.rateFill {s t : State} {l : Label} (h : Moves s l t) (hs : Sound s) :
    t.rateFill = s.rateFill.moves rateRows l.rateMoves := by
  cases h with
  | start hp => exact rateFill_same rfl (by rw [hp]; rfl) rfl
  | rateCountFailed now hp => exact rateFill_same rfl (by rw [hp]; rfl) rfl
  | ratesThere now hp hr =>
    have hsome : s.rateFill.written ≠ [] := by simpa [State.rateFill] using hr
    have hsame : (s.goto .quotaCount).rateFill = s.rateFill := rateFill_same rfl (by rw [hp]; rfl) rfl
    rw [hsame]
    exact (Fill.move_begin_of_some hsome).symm
  | noRates now hp hr =>
    simp [Label.rateMoves,Fill.moves,Fill.move,State.rateFill,State.goto,Phase.ratesLeft,hr,
      defaultRates_stored]
  | upsertRate outcome hp => exact seedRate_fill hp (hs.rate_fits hp) outcome
  | quotaCountFailed now hp => exact rateFill_same rfl (by rw [hp]; rfl) rfl
  | quotasThere now hp hq => exact rateFill_same rfl (by rw [hp]; rfl) rfl
  | noQuotas now hp hq => exact rateFill_same rfl (by rw [hp]; rfl) rfl
  | @upsertQuota q rest outcome hp =>
    obtain ⟨admin,-,h⟩ := seedQuota_cases (hs.quota_fits hp) hs.admin rest outcome
    rcases h with ⟨-,-,ht⟩ | ⟨row,-,-,⟨-,ht⟩ | ⟨-,ht⟩⟩
    · rw [ht]
      exact rateFill_same rfl (by rw [hp]; rfl) rfl
    · rw [ht]
      exact rateFill_same rfl (by rw [hp]; rfl) rfl
    · rw [ht]
      exact rateFill_same (nextQuota_rates _ _) (by rw [hp]; rfl) (nextQuota_ratesLeft _ _)
  | crash => rfl

theorem seedRate_admin (s : State) (outcome : CommitOutcome) (r : RateRecord) (rest : List RateRecord) :
    (s.seedRate outcome r rest).admin = s.admin := (upsertRate_admin s outcome r).1

theorem seedRate_quotasLeft (s : State) (outcome : CommitOutcome) (r : RateRecord) (rest : List RateRecord) :
    (s.seedRate outcome r rest).phase.quotasLeft = [] := by
  simp only [State.seedRate]
  split
  · rfl
  · rfl

theorem Moves.quotaFill {s t : State} {l : Label} (h : Moves s l t) (hs : Sound s) :
    t.quotaFill = s.quotaFill.moves quotaRows l.quotaMoves := by
  cases h with
  | start hp => exact quotaFill_same rfl (by rw [hp]; rfl) rfl
  | rateCountFailed now hp => exact quotaFill_same rfl (by rw [hp]; rfl) rfl
  | ratesThere now hp hr => exact quotaFill_same rfl (by rw [hp]; rfl) rfl
  | noRates now hp hr => exact quotaFill_same rfl (by rw [hp]; rfl) rfl
  | upsertRate outcome hp =>
    exact quotaFill_same (congrArg _ (seedRate_admin _ _ _ _)) (by rw [hp]; rfl) (seedRate_quotasLeft _ _ _ _)
  | quotaCountFailed now hp => exact quotaFill_same rfl (by rw [hp]; rfl) rfl
  | quotasThere now hp hq =>
    have hsome : s.quotaFill.written ≠ [] := by simpa [State.quotaFill] using hq
    have hsame : s.finish.quotaFill = s.quotaFill := quotaFill_same rfl (by rw [hp]; rfl) rfl
    rw [hsame]
    exact (Fill.move_begin_of_some hsome).symm
  | noQuotas now hp hq =>
    simp [Label.quotaMoves,Fill.moves,Fill.move,State.quotaFill,State.goto,Phase.quotasLeft,hq,
      defaultQuotas_stored]
  | @upsertQuota q rest outcome hp =>
    obtain ⟨admin,-,h⟩ := seedQuota_cases (hs.quota_fits hp) hs.admin rest outcome
    rcases h with ⟨rfl,hq,ht⟩ | ⟨row,hrow,hq,⟨rfl,ht⟩ | ⟨rfl,ht⟩⟩
    · rw [ht]
      simp [Label.quotaMoves,Fill.moves,Fill.move,State.quotaFill,State.exit,Phase.quotasLeft,hq]
    · rw [ht]
      simp [Label.quotaMoves,Fill.moves,Fill.move,State.quotaFill,State.exit,Phase.quotasLeft,hq,hrow,hp]
    · have hleft : s.phase.quotasLeft = q :: rest := by
        rw [hp]
        rfl
      rw [ht]
      simp [Label.quotaMoves,Fill.moves,Fill.move,State.quotaFill,hq,hrow,hleft]
  | crash => rfl

theorem Sound.idle {s t : State} (h : Sound s) (hadmin : t.admin = s.admin) (hr : t.phase.ratesLeft = [])
    (hq : t.phase.quotasLeft = []) : Sound t :=
  ⟨⟨0,hr ▸ List.nil_suffix⟩,⟨0,hq ▸ List.nil_suffix⟩,hadmin ▸ h.admin⟩

theorem Sound.moves {s t : State} {l : Label} (hs : Sound s) (h : Moves s l t) : Sound t := by
  cases h with
  | start hp => exact hs.idle rfl rfl rfl
  | rateCountFailed now hp => exact hs.idle rfl rfl rfl
  | ratesThere now hp hr => exact hs.idle rfl rfl rfl
  | noRates now hp hr => exact ⟨⟨now,List.suffix_refl _⟩,⟨0,List.nil_suffix⟩,hs.admin⟩
  | @upsertRate r rest outcome hp =>
    obtain ⟨now,hrest⟩ := hs.rates
    rw [hp] at hrest
    refine ⟨⟨now,?_⟩,⟨0,?_⟩,?_⟩
    · have hleft : (s.seedRate outcome r rest).phase.ratesLeft = rest := ratesLeft_next rest
      rw [hleft]
      exact (List.suffix_cons r rest).trans hrest
    · rw [seedRate_quotasLeft]
      exact List.nil_suffix
    · rw [seedRate_admin]
      exact hs.admin
  | quotaCountFailed now hp => exact hs.idle rfl rfl rfl
  | quotasThere now hp hq => exact hs.idle rfl rfl rfl
  | noQuotas now hp hq => exact ⟨⟨0,List.nil_suffix⟩,⟨now,List.suffix_refl _⟩,hs.admin⟩
  | @upsertQuota q rest outcome hp =>
    obtain ⟨admin,ha,h⟩ := seedQuota_cases (hs.quota_fits hp) hs.admin rest outcome
    rcases h with ⟨-,-,ht⟩ | ⟨row,-,-,⟨-,ht⟩ | ⟨-,ht⟩⟩
    · rw [ht]
      exact ⟨⟨0,List.nil_suffix⟩,⟨0,List.nil_suffix⟩,ha⟩
    · rw [ht]
      exact ⟨⟨0,List.nil_suffix⟩,⟨0,List.nil_suffix⟩,ha⟩
    · obtain ⟨now,hrest⟩ := hs.quotas
      rw [hp] at hrest
      rw [ht]
      refine ⟨⟨0,?_⟩,⟨now,?_⟩,?_⟩
      · rw [nextQuota_ratesLeft]
        exact List.nil_suffix
      · rw [nextQuota_quotasLeft]
        exact (List.suffix_cons q rest).trans hrest
      · rw [nextQuota_admin]
        exact ha
  | crash => exact hs.idle rfl rfl rfl

def Phase.pastRates : Phase → Bool
  | .quotaCount | .seedQuotas _ | .up => true
  | _ => false

/-- What a start has done whose calls have all succeeded: no table is empty behind it. -/
structure Progress (s : State) : Prop where
  clean : s.clean = true → s.phase.pastRates = true → s.rates ≠ []
  seeded : s.seeded = true → (s.rates ≠ [] ∧ s.admin.quotas.rows ≠ []) ∧
    s.phase.ratesLeft = [] ∧ s.phase.quotasLeft = []

theorem Progress.exit {s : State} (h : Progress s) : Progress s.exit :=
  ⟨fun hc => (Bool.false_ne_true hc).elim,fun hs => ⟨(h.seeded hs).1,rfl,rfl⟩⟩

theorem Progress.unseeded {s : State} (h : s.seeded = false)
    (hclean : s.clean = true → s.phase.pastRates = true → s.rates ≠ []) : Progress s :=
  ⟨hclean,fun hs => (Bool.false_ne_true (h.symm.trans hs)).elim⟩

theorem Progress.moves {s t : State} {l : Label} (h : Progress s) (hs : Sound s) (hm : Moves s l t) :
    Progress t := by
  cases hm with
  | start hp => exact ⟨fun _ hpast => (Bool.false_ne_true hpast).elim,fun hs => ⟨(h.seeded hs).1,rfl,rfl⟩⟩
  | rateCountFailed now hp => exact h.exit
  | ratesThere now hp hr => exact ⟨fun _ _ => hr,fun hs => ⟨(h.seeded hs).1,rfl,rfl⟩⟩
  | noRates now hp hr =>
    exact ⟨fun _ hpast => (Bool.false_ne_true hpast).elim,fun hs => absurd hr (h.seeded hs).1.1⟩
  | @upsertRate r rest outcome hp =>
    constructor
    · intro hclean _
      obtain ⟨-,ho⟩ : s.clean = true ∧ outcome = .committed := by simpa [State.seedRate] using hclean
      have hne : outcome ≠ .refused := by
        rw [ho]
        nofun
      obtain ⟨row,-,hrow⟩ := upsertRate_written (s := s) hne (hs.rate_fits hp)
      simp [State.seedRate,hrow]
    · intro hseeded
      have hleft := (h.seeded ((upsertRate_admin s outcome r).2.symm.trans hseeded)).2.1
      rw [hp] at hleft
      cases hleft
  | quotaCountFailed now hp => exact h.exit
  | quotasThere now hp hq =>
    have hpast : s.phase.pastRates = true := by
      rw [hp]
      rfl
    refine ⟨fun hclean _ => h.clean hclean hpast,fun hseeded => ⟨?_,rfl,rfl⟩⟩
    rcases Bool.or_eq_true_iff.mp hseeded with hseeded | hclean
    · exact (h.seeded hseeded).1
    · exact ⟨h.clean hclean hpast,hq⟩
  | noQuotas now hp hq =>
    exact ⟨fun hclean _ => h.clean hclean (by rw [hp]; rfl),fun hseeded => absurd hq (h.seeded hseeded).1.2⟩
  | @upsertQuota q rest outcome hp =>
    have hpast : s.phase.pastRates = true := by
      rw [hp]
      rfl
    have hnot : s.seeded = false := by
      by_contra hseeded
      have hleft := (h.seeded (Bool.not_eq_false _ ▸ hseeded)).2.2
      rw [hp] at hleft
      cases hleft
    obtain ⟨admin,-,hcases⟩ := seedQuota_cases (hs.quota_fits hp) hs.admin rest outcome
    rcases hcases with ⟨-,-,ht⟩ | ⟨row,-,hq,⟨-,ht⟩ | ⟨-,ht⟩⟩
    · rw [ht]
      exact .unseeded hnot fun hclean => (Bool.false_ne_true hclean).elim
    · rw [ht]
      exact .unseeded hnot fun hclean => (Bool.false_ne_true hclean).elim
    · rw [ht]
      rcases nextQuota_cases { s with admin } rest with ⟨hn,-⟩ | hn
      · rw [hn]
        refine ⟨fun hclean _ => h.clean hclean hpast,fun hseeded => ⟨⟨?_,?_⟩,rfl,rfl⟩⟩
        · have hclean : s.clean = true := by simpa [State.finish,hnot] using hseeded
          exact h.clean hclean hpast
        · simp [State.finish,hq]
      · rw [hn]
        exact .unseeded hnot fun hclean _ => h.clean hclean hpast
  | crash => exact h.exit

/-- The step leaves no table with some of the defaults: each of its inserts comes after
all before it, and no row is left out of a table that has one. -/
def Whole (s : State) (l : Label) : Prop :=
  s.rateFill.WholeAll rateRows l.rateMoves ∧ s.quotaFill.WholeAll quotaRows l.quotaMoves

instance (s : State) (l : Label) : Decidable (Whole s l) := inferInstanceAs (Decidable (_ ∧ _))

structure Good (s : State) : Prop where
  rates : s.rateFill.Good rateRows
  quotas : s.quotaFill.Good quotaRows

def Lost (s : State) : Prop := s.rateFill.Lost rateRows ∨ s.quotaFill.Lost quotaRows

section Step
variable {s t : State} {l : Label}

theorem Good.moves (h : Good s) (hs : Sound s) (hm : Moves s l t) (hw : Whole s l) : Good t :=
  ⟨hm.rateFill hs ▸ h.rates.moves hw.1,hm.quotaFill hs ▸ h.quotas.moves hw.2⟩

theorem Good.lost (h : Good s) (hs : Sound s) (hm : Moves s l t) (hw : ¬ Whole s l) : Lost t := by
  unfold Lost
  rw [hm.rateFill hs,hm.quotaFill hs]
  rcases not_and_or.mp hw with hw | hw
  · exact .inl (h.rates.lost_moves hw)
  · exact .inr (h.quotas.lost_moves hw)

theorem Lost.moves (h : Lost s) (hs : Sound s) (hm : Moves s l t) : Lost t := by
  unfold Lost
  rw [hm.rateFill hs,hm.quotaFill hs]
  exact h.imp (·.moves l.rateMoves) (·.moves l.quotaMoves)

end Step

def wholeStep (s : State) (l : Label) : Bool := decide (Whole s l)

theorem Good.run {ls : List Label} {s t : State} (h : Good s) (hs : Sound s)
    (hr : runLabels step s ls = some t) :
    runChecked step wholeStep s ls = some t ∧ Sound t ∧ Good t ∨
      runChecked step wholeStep s ls = none ∧ Sound t ∧ Lost t := by
  refine runLabels_checked_or (P := fun s => Sound s ∧ Good s) (Q := fun s => Sound s ∧ Lost s)
    ?_ ?_ ?_ ⟨hs,h⟩ hr
  · intro s l t ⟨hs,h⟩ hw hst
    have hm := step_moves hst
    exact ⟨hs.moves hm,h.moves hs hm (of_decide_eq_true hw)⟩
  · intro s l t ⟨hs,h⟩ hw hst
    have hm := step_moves hst
    exact ⟨hs.moves hm,h.lost hs hm (of_decide_eq_false hw)⟩
  · intro s l t ⟨hs,h⟩ hst
    have hm := step_moves hst
    exact ⟨hs.moves hm,h.moves hs hm⟩

theorem initial_sound : Sound initial := by
  refine ⟨⟨0,List.nil_suffix⟩,⟨0,List.nil_suffix⟩,?_⟩
  simp [Quota.Admin.Sound,initial,Table.empty]

theorem initial_good : Good initial := ⟨⟨List.nil_suffix,.inl rfl⟩,⟨List.nil_suffix,.inl rfl⟩⟩

theorem initial_progress : Progress initial := .unseeded rfl fun hclean => (Bool.false_ne_true hclean).elim

theorem run_progress {ls : List Label} {s : State} (hr : runLabels step initial ls = some s) : Progress s := by
  have hreach : Reachable step (· = initial) anyStep s := .append (.start rfl) hr
  refine (hreach.invariant (P := fun s => Sound s ∧ Progress s) ?_ ?_).2
  · rintro s rfl
    exact ⟨initial_sound,initial_progress⟩
  · intro s l t h _ hst
    exact ⟨h.1.moves (step_moves hst),h.2.moves h.1 (step_moves hst)⟩

theorem rateRows_nodup : rateRows.Nodup := by
  refine List.Nodup.of_map (·.meterName) ?_
  decide

theorem quotaRows_nodup : quotaRows.Nodup := by
  refine List.Nodup.of_map (fun q => (q.tenantID,q.meterName)) ?_
  decide

theorem complete_iff (s : State) :
    s.Complete ↔ rateRows ⊆ s.rateFill.written ∧ quotaRows ⊆ s.quotaFill.written := by
  simp only [State.Complete,State.rateFill,State.quotaFill,List.subset_def,List.mem_map]

/-- Once a start has run with all its store calls succeeding, all defaults are present
exactly if no step before or after has left a table with only some of them. -/
theorem seeding_complete_iff {ls : List Label} {s : State} (h : runLabels step initial ls = some s)
    (hs : s.seeded = true) : s.Complete ↔ runChecked step wholeStep initial ls = some s := by
  obtain ⟨⟨hr,hq⟩,hrl,hql⟩ := (run_progress h).seeded hs
  rw [complete_iff]
  rcases initial_good.run initial_sound h with ⟨hrun,-,hgood⟩ | ⟨hrun,-,hlost⟩
  · refine iff_of_true ⟨?_,?_⟩ hrun
    · rw [hgood.rates.complete (by simpa [State.rateFill] using hr) (by simp [State.rateFill,hrl])]
      exact List.Subset.refl _
    · rw [hgood.quotas.complete (by simpa [State.quotaFill] using hq) (by simp [State.quotaFill,hql])]
      exact List.Subset.refl _
  · refine iff_of_false ?_ (by rw [hrun]; nofun)
    rintro ⟨hrates,hquotas⟩
    rcases hlost with hlost | hlost
    · exact hlost.incomplete rateRows_nodup hrates
    · exact hlost.incomplete quotaRows_nodup hquotas

def seedQuotasRun (now : Int) : List Label :=
  .quotaCount false now :: List.replicate 28 (.upsertQuota .committed)

/-- A start that cannot count the rates, then one without an error. -/
def retriedRun : List Label :=
  .start :: .rateCount true 5 :: .start :: .rateCount false 6 ::
    (List.replicate 9 (.upsertRate .committed) ++ seedQuotasRun 7)

theorem seeding_complete_retried :
    ∃ s, runLabels step initial retriedRun = some s ∧ s.seeded = true ∧ s.Complete := by
  have hchecked : (runChecked step wholeStep initial retriedRun).any (·.seeded) = true := by decide +kernel
  obtain ⟨s,hs,hseeded⟩ := (Option.any_eq_true _ _).mp hchecked
  have hrun := runLabels_of_checked hs
  exact ⟨s,hrun,hseeded,(seeding_complete_iff hrun hseeded).mpr hs⟩

theorem incomplete_of_missing {ls : List Label} {meterName : String}
    (hm : meterName ∈ rateRows.map (·.meterName))
    (h : ((runLabels step initial ls).any fun s =>
      s.seeded && s.rates.all fun row => row.meterName ≠ meterName) = true) :
    ∃ s, runLabels step initial ls = some s ∧ s.seeded = true ∧ ¬ s.Complete := by
  obtain ⟨s,hs,hp⟩ := (Option.any_eq_true _ _).mp h
  obtain ⟨hseeded,hmissing⟩ := (Bool.and_eq_true _ _).mp hp
  refine ⟨s,hs,hseeded,fun hcomplete => ?_⟩
  obtain ⟨r,hr,rfl⟩ := List.mem_map.mp hm
  obtain ⟨row,hrow,rfl⟩ := hcomplete.1 r hr
  exact absurd rfl (of_decide_eq_true (List.all_eq_true.mp hmissing row hrow))

/-- The process ends after the first rate; the next start takes the rates for seeded. -/
def interruptedRun : List Label :=
  .start :: .rateCount false 5 :: .upsertRate .committed :: .crash ::
    .start :: .rateCount false 6 :: seedQuotasRun 7

/-- The insert of the first rate fails, and the loop goes on; the next start makes no insert. -/
def passedOverRun : List Label :=
  .start :: .rateCount false 5 :: .upsertRate .refused ::
    (List.replicate 8 (.upsertRate .committed) ++
      (seedQuotasRun 6 ++ [.crash,.start,.rateCount false 7,.quotaCount false 8]))

theorem seeding_incomplete :
    (∃ s, runLabels step initial interruptedRun = some s ∧ s.seeded = true ∧ ¬ s.Complete) ∧
      ∃ s, runLabels step initial passedOverRun = some s ∧ s.seeded = true ∧ ¬ s.Complete := by
  constructor
  · exact incomplete_of_missing (show "maas_requests" ∈ _ by decide) (by decide +kernel)
  · exact incomplete_of_missing (show "vm_uptime_seconds" ∈ _ by decide) (by decide +kernel)

end CostConsumer.Rating.Seed
