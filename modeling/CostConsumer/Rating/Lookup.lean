import CostConsumer.Rating.Pricing
set_option autoImplicit false

namespace CostConsumer.Inventory.Store

/-- `CASE WHEN tenant_id = $4 THEN 0 ELSE 1 END`; NULL is not equal to anything. -/
def tenantMiss (tenantID : String) (r : RateRecord) : Nat := if r.tenantID = some tenantID then 0 else 1

def typeMiss (instanceType : String) (r : RateRecord) : Nat := if r.instanceType = instanceType then 0 else 1

def findOrder (tenantID instanceType : String) (a b : RateRecord) : Prop :=
  tenantMiss tenantID a < tenantMiss tenantID b ∨
    tenantMiss tenantID a = tenantMiss tenantID b ∧ typeMiss instanceType a ≤ typeMiss instanceType b

instance (tenantID instanceType : String) : DecidableRel (findOrder tenantID instanceType) :=
  fun _ _ => inferInstanceAs (Decidable (_ ∨ _))

instance (tenantID instanceType : String) : Std.Total (findOrder tenantID instanceType) :=
  ⟨fun a b => by unfold findOrder; omega⟩

instance (tenantID instanceType : String) : IsTrans RateRecord (findOrder tenantID instanceType) :=
  ⟨fun a b c => by unfold findOrder; omega⟩

def findWhere (tenantID resourceType instanceType meterName : String) (at_ : Int) (r : RateRecord) : Bool :=
  r.resourceType = resourceType && r.meterName = meterName &&
    (r.effectiveFrom ≤ at_ && r.effectiveTo.all (at_ < ·)) &&
    (r.tenantID = some tenantID || r.tenantID = none || r.tenantID = some "") &&
    (r.instanceType = instanceType || r.instanceType = "")

def findRate (s : Store) (tenantID resourceType instanceType meterName : String) (at_ : Int) :
    Option RateRecord :=
  ((s.rates.filter (findWhere tenantID resourceType instanceType meterName at_)).insertionSort
    (findOrder tenantID instanceType)).head?

theorem mem_allActiveRates {s : Store} {at_ : Int} {r : RateRecord} :
    r ∈ s.allActiveRates at_ ↔ r ∈ s.rates ∧ r.effectiveFrom ≤ at_ ∧ r.effectiveTo.all (at_ < ·) = true := by
  simp [allActiveRates]

end CostConsumer.Inventory.Store

namespace CostConsumer.Rating
open Inventory

inductive Scope where
  | tenantAndType : Scope
  | typeOnly : Scope
  | tenantOnly : Scope
  | anyone : Scope
  deriving DecidableEq, Repr

def isGlobal (r : RateRecord) : Bool := r.tenantID = none || r.tenantID = some ""

def inScope (tenantID instanceType resourceType meterName : String) (c : Scope) (r : RateRecord) : Bool :=
  r.resourceType = resourceType && r.meterName = meterName && match c with
    | .tenantAndType => r.tenantID = some tenantID && r.instanceType = instanceType
    | .typeOnly => isGlobal r && r.instanceType = instanceType
    | .tenantOnly => r.tenantID = some tenantID && r.instanceType = ""
    | .anyone => isGlobal r && r.instanceType = ""

/-- The order of the classes in the guide to rates. -/
def precedence : List Scope := [.tenantAndType,.typeOnly,.tenantOnly,.anyone]

def Scope.key (tenantID instanceType resourceType meterName : String) : Scope → RateKey
  | .tenantAndType => ⟨tenantID,instanceType,resourceType,meterName⟩
  | .typeOnly => ⟨"",instanceType,resourceType,meterName⟩
  | .tenantOnly => ⟨tenantID,"",resourceType,meterName⟩
  | .anyone => ⟨"","",resourceType,meterName⟩

def rateFor (rates : List RateRecord) (k : RateKey) : Option RateRecord := rates.find? (rateKey · = k)

theorem foldl_lookup {step : RateIndex → RateRecord → RateIndex} {k : RateKey}
    (hstep : ∀ idx r, (step idx r).lookup k = (idx.lookup k).or (if rateKey r = k then some r else none))
    (rates : List RateRecord) (idx : RateIndex) :
    (rates.foldl step idx).lookup k = (idx.lookup k).or (rateFor rates k) := by
  induction rates generalizing idx with
  | nil => exact (Option.or_none).symm
  | cons r rates ih =>
    rw [List.foldl_cons,ih,hstep,Option.or_assoc,rateFor,rateFor]
    by_cases hk : rateKey r = k
    · rw [List.find?_cons_of_pos (by simpa using hk),if_pos hk,Option.some_or]
    · rw [List.find?_cons_of_neg (by simpa using hk),if_neg hk,Option.none_or]

theorem lookup_buildRateIndex (rates : List RateRecord) (k : RateKey) :
    (buildRateIndex rates).lookup k = rateFor rates k := by
  refine foldl_lookup (fun idx r => ?_) rates []
  by_cases hk : rateKey r = k
  · rw [if_pos hk,hk]
    cases hl : idx.lookup k with
    | some r' => simp [hl]
    | none => simp [List.lookup_append,hl]
  · rw [if_neg hk,Option.or_none]
    cases hl : idx.lookup (rateKey r) with
    | some r' => rfl
    | none =>
      have hone : List.lookup k [(rateKey r,r)] = none := by
        rw [List.lookup_cons,beq_eq_false_iff_ne.mpr (Ne.symm hk)]
        rfl
      simp only [List.lookup_append,hone,Option.or_none]

section Scopes
variable {tenantID instanceType resourceType meterName : String}

theorem isGlobal_iff (r : RateRecord) : isGlobal r = true ↔ r.tenantID.getD "" = "" := by
  cases h : r.tenantID <;> simp [isGlobal,h]

theorem tenant_iff (ht : tenantID ≠ "") (r : RateRecord) :
    r.tenantID = some tenantID ↔ r.tenantID.getD "" = tenantID := by
  cases h : r.tenantID with
  | none => simpa using ht.symm
  | some t => simp

theorem inScope_iff (ht : tenantID ≠ "") (c : Scope) (r : RateRecord) :
    inScope tenantID instanceType resourceType meterName c r = true ↔
      rateKey r = c.key tenantID instanceType resourceType meterName := by
  cases c <;>
  · simp only [inScope,Bool.and_eq_true,decide_eq_true_eq,isGlobal_iff,tenant_iff ht,Scope.key,rateKey,
      RateKey.mk.injEq]
    tauto

theorem find?_inScope (ht : tenantID ≠ "") (rates : List RateRecord) (c : Scope) :
    rates.find? (inScope tenantID instanceType resourceType meterName c) =
      rateFor rates (c.key tenantID instanceType resourceType meterName) := by
  unfold rateFor
  congr 1
  funext r
  rw [Bool.eq_iff_iff,inScope_iff ht,decide_eq_true_eq]

theorem findSome?_cons_or {α β : Type} (f : α → Option β) (a : α) (l : List α) :
    (a :: l).findSome? f = (f a).or (l.findSome? f) := by
  rw [List.findSome?_cons]
  cases f a <;> rfl

theorem matchRate_eq (ht : tenantID ≠ "") (rates : List RateRecord) :
    matchRate (buildRateIndex rates) tenantID instanceType resourceType meterName =
      precedence.findSome? fun c =>
        rates.find? (inScope tenantID instanceType resourceType meterName c) := by
  simp only [find?_inScope ht,precedence,Scope.key,matchRate,lookup_buildRateIndex,findSome?_cons_or,
    List.findSome?_nil,Option.or_none]

/-- The index gives the first rate of the first class that has any, and nothing if all
four are empty. -/
theorem matchRate_takes_precedence (ht : tenantID ≠ "") (rates : List RateRecord) :
    (matchRate (buildRateIndex rates) tenantID instanceType resourceType meterName =
      precedence.findSome? fun c =>
        rates.find? (inScope tenantID instanceType resourceType meterName c)) ∧
    (matchRate (buildRateIndex rates) tenantID instanceType resourceType meterName = none ↔
      ∀ c, ∀ r ∈ rates, inScope tenantID instanceType resourceType meterName c r = false) := by
  refine ⟨matchRate_eq ht rates,?_⟩
  rw [matchRate_eq ht]
  simp only [List.findSome?_eq_none_iff,List.find?_eq_none,Bool.not_eq_true]
  constructor
  · intro h c
    exact h c (by cases c <;> decide)
  · exact fun h c _ => h c

end Scopes

def rateOf (id : Nat) (tenantID : Option String) (instanceType : String) : RateRecord :=
  ⟨id,tenantID,"compute_instance",instanceType,"vm_uptime_seconds","","Infrastructure",id,"USD",[],"","","",0,none⟩

theorem matchRate_takes_type_first :
    matchRate (buildRateIndex [rateOf 4 none "",rateOf 3 (some "acme") "",rateOf 2 (some "") "m5",
      rateOf 5 none "m5"]) "acme" "m5" "compute_instance" "vm_uptime_seconds" = some (rateOf 2 (some "") "m5") :=
  ((matchRate_takes_precedence (by decide) _).1).trans (by decide +kernel)

def Scope.tenantMiss : Scope → Nat
  | .tenantAndType => 0
  | .tenantOnly => 0
  | .typeOnly => 1
  | .anyone => 1

def Scope.typeMiss (instanceType : String) : Scope → Nat
  | .tenantAndType => 0
  | .typeOnly => 0
  | .tenantOnly => if instanceType = "" then 0 else 1
  | .anyone => if instanceType = "" then 0 else 1

/-- The classes in the order of the query: a rate of the tenant for all instance types
comes before one of the instance type for all tenants. -/
def queryOrder : List Scope := [.tenantAndType,.tenantOnly,.typeOnly,.anyone]

theorem queryOrder_sorted (instanceType : String) : queryOrder.Pairwise fun c c' =>
    c.tenantMiss < c'.tenantMiss ∨
      c.tenantMiss = c'.tenantMiss ∧ c.typeMiss instanceType ≤ c'.typeMiss instanceType := by
  simp [queryOrder,Scope.tenantMiss,Scope.typeMiss]

section Query
variable {s : Store} {at_ : Int} {tenantID instanceType resourceType meterName : String} {r : RateRecord}

theorem tenantMiss_of_key (ht : tenantID ≠ "") {c : Scope}
    (h : rateKey r = c.key tenantID instanceType resourceType meterName) :
    Store.tenantMiss tenantID r = c.tenantMiss := by
  have htenant : r.tenantID.getD "" = (c.key tenantID instanceType resourceType meterName).tenant :=
    congrArg RateKey.tenant h
  simp only [Store.tenantMiss,tenant_iff ht,htenant]
  cases c <;> simp [Scope.key,Scope.tenantMiss,ht.symm]

theorem typeMiss_of_key {c : Scope} (h : rateKey r = c.key tenantID instanceType resourceType meterName) :
    Store.typeMiss instanceType r = c.typeMiss instanceType := by
  have htype : r.instanceType = (c.key tenantID instanceType resourceType meterName).instanceType :=
    congrArg RateKey.instanceType h
  rw [Store.typeMiss,htype]
  cases c <;> simp [Scope.key,Scope.typeMiss,eq_comm]

theorem key_of_misses {c c' : Scope} (htenant : c.tenantMiss = c'.tenantMiss)
    (htype : c.typeMiss instanceType = c'.typeMiss instanceType) :
    c.key tenantID instanceType resourceType meterName =
      c'.key tenantID instanceType resourceType meterName := by
  by_cases hi : instanceType = "" <;> cases c <;> cases c' <;>
    simp_all [Scope.tenantMiss,Scope.typeMiss,Scope.key]

theorem findWhere_iff (ht : tenantID ≠ "") :
    r ∈ s.rates.filter (Store.findWhere tenantID resourceType instanceType meterName at_) ↔
      r ∈ s.allActiveRates at_ ∧ ∃ c, rateKey r = Scope.key tenantID instanceType resourceType meterName c := by
  have hscope : (∃ c, rateKey r = Scope.key tenantID instanceType resourceType meterName c) ↔
      r.resourceType = resourceType ∧ r.meterName = meterName ∧
        (r.tenantID = some tenantID ∨ isGlobal r = true) ∧
          (r.instanceType = instanceType ∨ r.instanceType = "") := by
    simp only [tenant_iff ht,isGlobal_iff]
    constructor
    · rintro ⟨c,hc⟩
      cases c <;>
      · simp only [rateKey,Scope.key,RateKey.mk.injEq] at hc
        tauto
    · rintro ⟨hres,hmeter,ht | ht,hi | hi⟩
      · exact ⟨.tenantAndType,by rw [rateKey,ht,hi,hres,hmeter]; rfl⟩
      · exact ⟨.tenantOnly,by rw [rateKey,ht,hi,hres,hmeter]; rfl⟩
      · exact ⟨.typeOnly,by rw [rateKey,ht,hi,hres,hmeter]; rfl⟩
      · exact ⟨.anyone,by rw [rateKey,ht,hi,hres,hmeter]; rfl⟩
  rw [hscope,Store.mem_allActiveRates,List.mem_filter]
  simp only [Store.findWhere,isGlobal,Bool.and_eq_true,Bool.or_eq_true,decide_eq_true_eq,or_assoc]
  constructor
  · rintro ⟨hmem,⟨⟨⟨hres,hmeter⟩,hactive⟩,ht⟩,hi⟩
    exact ⟨⟨hmem,hactive⟩,hres,hmeter,ht,hi⟩
  · rintro ⟨⟨hmem,hactive⟩,hres,hmeter,ht,hi⟩
    exact ⟨hmem,⟨⟨⟨hres,hmeter⟩,hactive⟩,ht⟩,hi⟩

theorem findRate_some (ht : tenantID ≠ "")
    (h : s.findRate tenantID resourceType instanceType meterName at_ = some r) :
    (r ∈ s.allActiveRates at_ ∧ ∃ c, rateKey r = Scope.key tenantID instanceType resourceType meterName c) ∧
      ∀ r' ∈ s.allActiveRates at_, ∀ c, rateKey r' = Scope.key tenantID instanceType resourceType meterName c →
        Store.findOrder tenantID instanceType r r' := by
  obtain ⟨rest,hrest⟩ := List.head?_eq_some_iff.mp h
  have hmem : ∀ r', r' ∈ r :: rest ↔
      r' ∈ s.rates.filter (Store.findWhere tenantID resourceType instanceType meterName at_) := by
    intro r'
    rw [← hrest,List.mem_insertionSort]
  have hsorted := List.pairwise_insertionSort (Store.findOrder tenantID instanceType)
    (s.rates.filter (Store.findWhere tenantID resourceType instanceType meterName at_))
  rw [hrest] at hsorted
  refine ⟨(findWhere_iff ht).mp ((hmem r).mp List.mem_cons_self),fun r' hr' c hc => ?_⟩
  rcases List.mem_cons.mp ((hmem r').mpr ((findWhere_iff ht).mpr ⟨hr',c,hc⟩)) with rfl | hin
  · exact .inr ⟨rfl,le_rfl⟩
  · exact (List.pairwise_cons.mp hsorted).1 r' hin

theorem findRate_none (ht : tenantID ≠ "")
    (h : s.findRate tenantID resourceType instanceType meterName at_ = none) :
    ∀ r ∈ s.allActiveRates at_, ∀ c, rateKey r ≠ Scope.key tenantID instanceType resourceType meterName c := by
  intro r hr c hc
  have hin : r ∈ (s.rates.filter (Store.findWhere tenantID resourceType instanceType meterName at_)).insertionSort
      (Store.findOrder tenantID instanceType) := by
    rw [List.mem_insertionSort]
    exact (findWhere_iff ht).mpr ⟨hr,c,hc⟩
  rw [List.head?_eq_none_iff.mp h] at hin
  cases hin

theorem rateFor_eq_some {rates : List RateRecord} (hu : (rates.map rateKey).Nodup) {k : RateKey} :
    rateFor rates k = some r ↔ r ∈ rates ∧ rateKey r = k := by
  unfold rateFor
  constructor
  · intro h
    exact ⟨List.mem_of_find?_eq_some h,by simpa using List.find?_some h⟩
  · rintro ⟨hr,rfl⟩
    cases hf : rates.find? (rateKey · = rateKey r) with
    | none => simpa using List.find?_eq_none.mp hf r hr
    | some r' =>
      have hkey : rateKey r' = rateKey r := by simpa using List.find?_some hf
      rw [List.inj_on_of_nodup_map hu (List.mem_of_find?_eq_some hf) hr hkey]

theorem rateFor_eq_none {rates : List RateRecord} {k : RateKey} :
    rateFor rates k = none ↔ ∀ r ∈ rates, rateKey r ≠ k := by
  simp [rateFor]

theorem findRate_eq (ht : tenantID ≠ "") (hu : ((s.allActiveRates at_).map rateKey).Nodup) :
    s.findRate tenantID resourceType instanceType meterName at_ =
      queryOrder.findSome? fun c =>
        rateFor (s.allActiveRates at_) (c.key tenantID instanceType resourceType meterName) := by
  cases h : s.findRate tenantID resourceType instanceType meterName at_ with
  | none =>
    refine (List.findSome?_eq_none_iff.mpr fun c _ => rateFor_eq_none.mpr fun r hr => ?_).symm
    exact findRate_none ht h r hr c
  | some r =>
    obtain ⟨⟨hr,c,hc⟩,hfirst⟩ := findRate_some ht h
    have hfound : rateFor (s.allActiveRates at_)
        (Scope.key tenantID instanceType resourceType meterName c) = some r :=
      (rateFor_eq_some hu).mpr ⟨hr,hc⟩
    cases hq : queryOrder.findSome? fun c =>
        rateFor (s.allActiveRates at_) (c.key tenantID instanceType resourceType meterName) with
    | none =>
      have hnone := List.findSome?_eq_none_iff.mp hq c (by cases c <;> decide)
      rw [hfound] at hnone
      cases hnone
    | some r' =>
      obtain ⟨before,c',after,hsplit,hfound',hbefore⟩ := List.findSome?_eq_some_iff.mp hq
      obtain ⟨hr',hc'⟩ := (rateFor_eq_some hu).mp hfound'
      have hle := hfirst r' hr' c' hc'
      rw [Store.findOrder,tenantMiss_of_key ht hc,tenantMiss_of_key ht hc',typeMiss_of_key hc,
        typeMiss_of_key hc'] at hle
      -- the class of the row is not before the first one that has a rate
      have hge : c'.tenantMiss < c.tenantMiss ∨
          c'.tenantMiss = c.tenantMiss ∧ c'.typeMiss instanceType ≤ c.typeMiss instanceType := by
        have hmem : c ∈ before ++ c' :: after := hsplit ▸ (by cases c <;> decide)
        have hsorted := hsplit ▸ queryOrder_sorted instanceType
        rcases List.mem_append.mp hmem with hin | hin
        · have hnone := hbefore c hin
          rw [hfound] at hnone
          cases hnone
        · rcases List.mem_cons.mp hin with rfl | hin
          · exact .inr ⟨rfl,le_rfl⟩
          · exact (List.pairwise_cons.mp (List.pairwise_append.mp hsorted).2.1).1 c hin
      have hkey : c.key tenantID instanceType resourceType meterName =
          c'.key tenantID instanceType resourceType meterName :=
        key_of_misses (by omega) (by omega)
      rw [hkey,hfound'] at hfound
      exact hfound.symm

theorem rateFor_none_iff (ht : tenantID ≠ "") (c : Scope) :
    rateFor (s.allActiveRates at_) (c.key tenantID instanceType resourceType meterName) = none ↔
      ∀ r ∈ s.allActiveRates at_, inScope tenantID instanceType resourceType meterName c r = false := by
  rw [rateFor_eq_none]
  refine forall₂_congr fun r _ => ?_
  rw [← Bool.not_eq_true,inScope_iff ht]

/-- Where no two active rates have the same tenant, instance type, resource type and
meter, the query and the index give the same rate unless the tenant has no rate for the
instance type, but there are one for all its instance types and one for the instance
type of all tenants. Both find a rate or none does. -/
theorem findRate_agrees_iff (ht : tenantID ≠ "") (hu : ((s.allActiveRates at_).map rateKey).Nodup) :
    (s.findRate tenantID resourceType instanceType meterName at_ =
        matchRate (buildRateIndex (s.allActiveRates at_)) tenantID instanceType resourceType meterName ↔
      ¬ ((∀ r ∈ s.allActiveRates at_,
            inScope tenantID instanceType resourceType meterName .tenantAndType r = false) ∧
          (∃ r ∈ s.allActiveRates at_, inScope tenantID instanceType resourceType meterName .typeOnly r = true) ∧
          ∃ r ∈ s.allActiveRates at_, inScope tenantID instanceType resourceType meterName .tenantOnly r = true)) ∧
    (s.findRate tenantID resourceType instanceType meterName at_ = none ↔
      matchRate (buildRateIndex (s.allActiveRates at_)) tenantID instanceType resourceType meterName = none) := by
  have hsome : ∀ c, (∃ r ∈ s.allActiveRates at_,
      inScope tenantID instanceType resourceType meterName c r = true) ↔
      rateFor (s.allActiveRates at_) (c.key tenantID instanceType resourceType meterName) ≠ none := by
    intro c
    rw [ne_eq,rateFor_none_iff ht]
    simp
  rw [findRate_eq ht hu,matchRate_eq ht,← rateFor_none_iff ht,hsome,hsome]
  simp only [find?_inScope ht,precedence,queryOrder,findSome?_cons_or,List.findSome?_nil,Option.or_none]
  cases hboth : rateFor (s.allActiveRates at_)
      (Scope.key tenantID instanceType resourceType meterName .tenantAndType) with
  | some r => simp
  | none =>
    cases htype : rateFor (s.allActiveRates at_)
        (Scope.key tenantID instanceType resourceType meterName .typeOnly) with
    | none => simp
    | some r =>
      cases htenant : rateFor (s.allActiveRates at_)
          (Scope.key tenantID instanceType resourceType meterName .tenantOnly) with
      | none => simp
      | some r' =>
        -- they are two rates: one is of the tenant
        have hne : r' ≠ r := by
          rintro rfl
          have hk := ((rateFor_eq_some hu).mp htype).2.symm.trans ((rateFor_eq_some hu).mp htenant).2
          exact ht (congrArg RateKey.tenant hk).symm
        simp [hne]

end Query

def ratesOf (rates : List RateRecord) : Store := { rates }

theorem findRate_agrees_on_sku :
    (ratesOf [rateOf 4 none "",rateOf 2 none "m5",rateOf 1 (some "acme") "m5"]).findRate
        "acme" "compute_instance" "m5" "vm_uptime_seconds" 0 =
      matchRate (buildRateIndex ((ratesOf [rateOf 4 none "",rateOf 2 none "m5",rateOf 1 (some "acme") "m5"]).allActiveRates
        0)) "acme" "m5" "compute_instance" "vm_uptime_seconds" :=
  (findRate_agrees_iff (by decide) (by decide +kernel)).1.mpr (by decide +kernel)

/-- A price for m5 instances and an override of the tenant for all its instances: the
sweep takes the first, the query the second. -/
theorem findRate_prefers_tenant :
    (((ratesOf [rateOf 2 none "m5",rateOf 3 (some "acme") ""]).allActiveRates 0).map rateKey).Nodup ∧
    (ratesOf [rateOf 2 none "m5",rateOf 3 (some "acme") ""]).findRate
      "acme" "compute_instance" "m5" "vm_uptime_seconds" 0 = some (rateOf 3 (some "acme") "") ∧
    matchRate (buildRateIndex ((ratesOf [rateOf 2 none "m5",rateOf 3 (some "acme") ""]).allActiveRates 0))
      "acme" "m5" "compute_instance" "vm_uptime_seconds" = some (rateOf 2 none "m5") := by
  decide +kernel

end CostConsumer.Rating
