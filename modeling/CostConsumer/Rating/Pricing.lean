import CostConsumer.Inventory.Store
import CostConsumer.Billing.Period
set_option autoImplicit false

namespace CostConsumer.Rating
open Inventory Billing

def tierLoop : List Tier → Rat → Rat → Rat → Rat
  | [], cost, _, _ => cost
  | tier :: tiers, cost, remaining, prev =>
    if remaining ≤ 0 then cost
    else
      let tierSize := match tier.upTo with
        | some upTo => upTo - prev
        | none => remaining
      let consumed := if tierSize > remaining then remaining else tierSize
      tierLoop tiers (cost + consumed*tier.pricePerUnit) (remaining - consumed)
        (tier.upTo.getD prev)

def applyTieredRate (value : Rat) (tiers : List Tier) : Rat := tierLoop tiers 0 value 0

def applyTieredRateCumulative (value priorUsage : Rat) (tiers : List Tier) : Rat :=
  applyTieredRate (priorUsage + value) tiers - applyTieredRate priorUsage tiers

def applyRate (value : Rat) (rate : RateRecord) : Rat :=
  if rate.tiers ≠ [] then applyTieredRate value rate.tiers else value*rate.pricePerUnit

def applyRateCumulative (value priorUsage : Rat) (rate : RateRecord) : Rat :=
  if rate.tiers = [] then value*rate.pricePerUnit
  else applyTieredRateCumulative value priorUsage rate.tiers

theorem applyTieredRate_zero (tiers : List Tier) : applyTieredRate 0 tiers = 0 := by
  cases tiers with
  | nil => rfl
  | cons tier tiers => simp [applyTieredRate,tierLoop]

structure RateKey where
  tenant : String
  instanceType : String
  resourceType : String
  meterName : String
  deriving DecidableEq, Repr

def rateKey (r : RateRecord) : RateKey :=
  ⟨r.tenantID.getD "",r.instanceType,r.resourceType,r.meterName⟩

abbrev RateIndex := List (RateKey × RateRecord)

def buildRateIndex (rates : List RateRecord) : RateIndex :=
  rates.foldl (fun idx r =>
    match idx.lookup (rateKey r) with
    | some _ => idx
    | none => idx ++ [(rateKey r,r)]) []

def matchRate (idx : RateIndex) (tenantID instanceType resourceType meterName : String) :
    Option RateRecord :=
  (idx.lookup ⟨tenantID,instanceType,resourceType,meterName⟩).or
    ((idx.lookup ⟨"",instanceType,resourceType,meterName⟩).or
      ((idx.lookup ⟨tenantID,"",resourceType,meterName⟩).or
        (idx.lookup ⟨"","",resourceType,meterName⟩)))

structure PricingInput where
  instanceType : String
  tenantTier : String
  tenantID : String
  resourceType : String
  meterName : String
  value : Rat
  deriving DecidableEq, Repr

structure PricingOutput where
  costAmount : Rat
  effectiveRate : Rat
  currency : String
  description : String
  pricePerHour : Rat
  discountPct : Rat
  deriving DecidableEq, Repr

/-- `Engine.EvaluateRate`; the decision graphs themselves are third-party code.
No output is an evaluation error. -/
abbrev RuleEngine := String → PricingInput → Option PricingOutput

/-- Which of the queries made while one entry is priced fail. -/
structure Faults where
  computeInstance : Bool := false
  tenantTier : Bool := false
  meteringSum : Bool := false
  deriving DecidableEq, Repr

def ruleResult (rules : Option RuleEngine) (s : Store) (f : Faults) (me : MeteringEntry) :
    Option PricingOutput :=
  match rules with
  | none => none
  | some evaluateRate =>
    if me.resourceType ≠ "compute_instance" ∨ me.meterName ≠ "vm_uptime_seconds" then none
    else
      let inst := if f.computeInstance then none else s.getComputeInstance me.resourceID
      let (instanceType,tenantTier) := match inst with
        | none => ("","")
        | some inst => (inst.instanceType,s.tenantTier f.tenantTier me.tenantID)
      evaluateRate "compute-pricing.json"
        ⟨instanceType,tenantTier,me.tenantID,me.resourceType,me.meterName,me.value⟩

def costEntry (me : MeteringEntry) (rateID : Nat) (cost : Rat) (currency : String) : CostEntry where
  meteringEntryID := me.id
  rateID := rateID
  tenantID := me.tenantID
  projectID := me.projectID
  userID := me.userID
  resourceType := me.resourceType
  resourceID := me.resourceID
  meterName := me.meterName
  meteredValue := me.value
  costAmount := cost
  currency := currency
  periodStart := me.periodStart
  periodEnd := me.periodEnd

def tryRuleEngine (rules : Option RuleEngine) (s : Store) (f : Faults) (me : MeteringEntry) :
    Option CostEntry :=
  (ruleResult rules s f me).map (fun output => costEntry me 0 output.costAmount output.currency)

structure AccumKey where
  tenant : String
  meter : String
  period : String
  deriving DecidableEq, Repr

abbrev PriorUsage := AccumKey → Option Rat

def tierPeriod (rate : RateRecord) : String :=
  if rate.tierPeriod = "" then "monthly" else rate.tierPeriod

def accumKey (me : MeteringEntry) (rate : RateRecord) : AccumKey :=
  ⟨me.tenantID,me.meterName,periodLabel (tierPeriod rate) me.periodEnd⟩

/-- The billing window of an entry whose rate accumulates. A rate without tiers,
of another mode or with an invalid `tier_period` does not. -/
def cumulativeWindow (rate : RateRecord) (me : MeteringEntry) : Option (Int × Int) :=
  if rate.tiers ≠ [] ∧ rate.tierMode = "cumulative" then
    (resolvePeriod (tierPeriod rate) me.periodEnd).toOption
  else none

/-- The usage an entry is priced after: cached, or summed up in the database. A
failed sum counts as 0. -/
def priorUsage (s : Store) (f : Faults) (cache : PriorUsage) (me : MeteringEntry)
    (rate : RateRecord) (window : Int × Int) : Rat :=
  match cache (accumKey me rate) with
  | some prior => prior
  | none => if f.meteringSum then 0
      else s.meteringSumBefore me.tenantID me.meterName window.1 window.2 me.id

def rateCost (s : Store) (f : Faults) (cache : PriorUsage) (me : MeteringEntry)
    (rate : RateRecord) : Rat × PriorUsage :=
  match cumulativeWindow rate me with
  | some window =>
    let prior := priorUsage s f cache me rate window
    (applyRateCumulative me.value prior rate,
      Function.update cache (accumKey me rate) (some (prior + me.value)))
  | none => (applyRate me.value rate,cache)

end CostConsumer.Rating
