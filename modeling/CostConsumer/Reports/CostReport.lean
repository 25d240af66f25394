import CostConsumer.Foundation.Aggregate
import CostConsumer.Billing.Windows
import CostConsumer.Rating.Backlog
set_option autoImplicit false

/-!
The cost report, and what a run of billing windows counts: an entry inside one
window is counted there, an entry across a boundary is counted nowhere.
-/

namespace CostConsumer.Reports
open Inventory Foundation Billing

structure CostReportRow where
  date : String
  group : String
  entries : Nat
  cost : Rat
  infrastructureCost : Rat
  supplementaryCost : Rat
  currency : String
  deriving DecidableEq, Repr

def groupCol (groupBy : String) (ce : CostEntry) : String :=
  match groupBy with
  | "resource_type" => ce.resourceType
  | "meter" => ce.meterName
  | "resource" => ce.resourceID
  | "project" => ce.projectID
  | "user" => ce.userID
  | _ => ce.tenantID

/-- The columns of `GROUP BY`; the date is there for a daily resolution. -/
structure ReportKey where
  date : Option Int
  group : String
  currency : String
  deriving DecidableEq, Repr

def reportKey (groupBy resolution : String) (ce : CostEntry) : ReportKey where
  date := if resolution = "daily" then some (GoTime.utcDay ce.periodStart) else none
  group := groupCol groupBy ce
  currency := ce.currency

def reportWhere (tenantID resourceType : String) (ce : CostEntry) : Bool :=
  (tenantID = "" || ce.tenantID = tenantID) && (resourceType = "" || ce.resourceType = resourceType)

def costType (rates : List RateRecord) (ce : CostEntry) : Option String :=
  (rates.find? (fun r => r.id = ce.rateID)).map (·.costType)

def costOfType (rates : List RateRecord) (type : String) (ce : CostEntry) : Rat :=
  if costType rates ce = some type then ce.costAmount else 0

def reportRow (rates : List RateRecord) (g : ReportKey × List CostEntry) : CostReportRow where
  date := (g.1.date.map (fun d => String.ofList (GoTime.formatDate (d*GoTime.nanosPerDay)))).getD ""
  group := g.1.group
  entries := g.2.length
  cost := Store.sumCosts g.2
  infrastructureCost := (g.2.map (costOfType rates "Infrastructure")).sum
  supplementaryCost := (g.2.map (costOfType rates "Supplementary")).sum
  currency := g.1.currency

def reportOrder (a b : ReportKey × CostReportRow) : Prop :=
  a.1.date.getD 0 < b.1.date.getD 0 ∨ a.1.date.getD 0 = b.1.date.getD 0 ∧ b.2.cost ≤ a.2.cost

instance : DecidableRel reportOrder := fun _ _ => inferInstanceAs (Decidable (_ ∨ _))

def costReport (s : Store) (tenantID resourceType groupBy resolution : String) (fromT toT : Int) :
    List CostReportRow :=
  let selected := s.costEntries.filter (fun ce =>
    inPeriod fromT toT ce.periodStart ce.periodEnd && reportWhere tenantID resourceType ce)
  let groups := Foundation.groupBy (reportKey groupBy resolution) selected
  ((groups.map (fun g => (g.1,reportRow s.rates g))).insertionSort reportOrder).map (·.2)

section Sums
variable {M : Type} [AddCommMonoid M]

theorem costReport_sum (column : CostReportRow → M) (x : CostEntry → M) {s : Store}
    (h : ∀ g, column (reportRow s.rates g) = (g.2.map x).sum)
    (tenantID resourceType groupBy resolution group currency : String) (fromT toT : Int) :
    (((costReport s tenantID resourceType groupBy resolution fromT toT).filter (fun r =>
        r.group = group && r.currency = currency)).map column).sum =
      ((s.costEntries.filter (fun ce =>
        reportWhere tenantID resourceType ce && groupCol groupBy ce = group &&
          ce.currency = currency && inPeriod fromT toT ce.periodStart ce.periodEnd)).map x).sum := by
  unfold costReport
  generalize hsel : s.costEntries.filter (fun ce => inPeriod fromT toT ce.periodStart ce.periodEnd &&
    reportWhere tenantID resourceType ce) = selected
  have hperm := List.perm_insertionSort reportOrder
    ((Foundation.groupBy (reportKey groupBy resolution) selected).map
      (fun g => (g.1,reportRow s.rates g)))
  rw [(((hperm.map (·.2)).filter _).map column).sum_eq]
  have hgroups := sum_groupBy (reportKey groupBy resolution)
    (fun k => k.group = group && k.currency = currency) x selected
  simp only [List.map_map,List.filter_map,Function.comp_def,h]
  refine hgroups.trans ?_
  rw [← hsel,List.filter_filter]
  congr 2
  apply List.filter_congr
  intro ce _
  simp only [reportKey]
  ac_rfl

/-- The window of the start of `[a,b]` holds it. -/
def within (period : String) (a b : Int) : Bool :=
  (resolvePeriod period a).toOption.any (fun v => b ≤ v.2)

/-- The windows cover `[a,b]`, and it is not an empty period between two of them. -/
def Covered (ws : List (Int × Int)) (a b : Int) : Prop :=
  a ≤ b ∧ (∃ v ∈ ws, v.1 ≤ a) ∧ (∃ v ∈ ws, b ≤ v.2) ∧
    (a = b → ¬ ((∃ v ∈ ws, v.2 = a) ∧ ∃ v ∈ ws, v.1 = a))

instance (ws : List (Int × Int)) (a b : Int) : Decidable (Covered ws a b) :=
  inferInstanceAs (Decidable (_ ∧ _))

theorem windows_count {period : String} {t : Int} {n : Nat} {ws : List (Int × Int)}
    (hws : windowsFrom period t n = .ok ws) {a b : Int} (h : Covered ws a b) :
    ws.countP (fun v => inPeriod v.1 v.2 a b) = if within period a b then 1 else 0 := by
  obtain ⟨hab,⟨v,hv,hva⟩,⟨u,hu,hub⟩,hz⟩ := h
  cases n with
  | zero => cases hws; simp at hv
  | succ n =>
    obtain ⟨p,hp⟩ := windowsFrom_parse hws
    rw [windowsFrom_eq hp] at hws
    cases hws
    have hin : within period a b = decide (b ≤ p.tiling.finish a) := by
      unfold within
      rw [resolvePeriod_eq,hp]
      rfl
    have hcount := p.tiling.holds_count (n := n+1) ((p.tiling.run_bounds hv).1.trans hva) hab
      (hub.trans (p.tiling.run_bounds hu).2) (Nat.succ_pos n)
      (fun hi => hz hi.1 (p.tiling.inner_mem hi.2))
    rw [hin]
    simp only [decide_eq_true_eq]
    exact hcount

theorem windows_sum {period : String} {t : Int} {n : Nat} {ws : List (Int × Int)}
    (hws : windowsFrom period t n = .ok ws) {α : Type} {rows : List α}
    {periodStart periodEnd : α → Int}
    (h : ∀ x ∈ rows, Covered ws (periodStart x) (periodEnd x)) (sel : α → Bool) (f : α → M) :
    (ws.map (fun v => ((rows.filter (fun x =>
        sel x && inPeriod v.1 v.2 (periodStart x) (periodEnd x))).map f).sum)).sum =
      ((rows.filter (fun x => sel x && within period (periodStart x) (periodEnd x))).map f).sum := by
  refine sum_selections_once (fun x hx => ?_) f
  cases hs : sel x with
  | false => simp
  | true =>
    simp only [Bool.true_and]
    exact windows_count hws (h x hx)

end Sums

/-- Over a run of consecutive windows an entry is counted once if its period
lies in one window and never if it crosses a boundary, and all four sums add up
to the totals of the entries counted. -/
theorem windows_count_contained {period : String} {t : Int} {n : Nat} {ws : List (Int × Int)}
    (hws : windowsFrom period t n = .ok ws) (s : Store)
    (hm : ∀ e ∈ s.entries, Covered ws e.periodStart e.periodEnd)
    (hc : ∀ c ∈ s.costEntries, Covered ws c.periodStart c.periodEnd) :
    (∀ e ∈ s.entries, ws.countP (fun v => inPeriod v.1 v.2 e.periodStart e.periodEnd) =
      if within period e.periodStart e.periodEnd then 1 else 0) ∧
    (∀ c ∈ s.costEntries, ws.countP (fun v => inPeriod v.1 v.2 c.periodStart c.periodEnd) =
      if within period c.periodStart c.periodEnd then 1 else 0) ∧
    (∀ tenantID meterName, (ws.map (fun v => s.meteringSum tenantID meterName v.1 v.2)).sum =
      Store.sumValues (s.entries.filter (fun e => e.tenantID = tenantID &&
        e.meterName = meterName && within period e.periodStart e.periodEnd))) ∧
    (∀ tenantID meterName, (ws.map (fun v => s.costSum tenantID meterName v.1 v.2)).sum =
      Store.sumCosts (s.costEntries.filter (fun c => c.tenantID = tenantID &&
        c.meterName = meterName && within period c.periodStart c.periodEnd))) ∧
    (∀ tenantID, (ws.map (fun v => s.tenantCostSum tenantID v.1 v.2)).sum =
      Store.sumCosts (s.costEntries.filter (fun c => c.tenantID = tenantID &&
        within period c.periodStart c.periodEnd))) ∧
    ∀ tenantID resourceType groupBy resolution group currency,
      let rows := fun v : Int × Int =>
        (costReport s tenantID resourceType groupBy resolution v.1 v.2).filter (fun r =>
          r.group = group && r.currency = currency)
      let counted := s.costEntries.filter (fun c => reportWhere tenantID resourceType c &&
        groupCol groupBy c = group && c.currency = currency &&
          within period c.periodStart c.periodEnd)
      (ws.map (fun v => ((rows v).map (·.entries)).sum)).sum = counted.length ∧
      (ws.map (fun v => ((rows v).map (·.cost)).sum)).sum = Store.sumCosts counted := by
  refine ⟨fun e he => windows_count hws (hm e he),fun c hc' => windows_count hws (hc c hc'),
    fun tenantID meterName => windows_sum hws hm _ _,fun tenantID meterName => windows_sum hws hc _ _,
    fun tenantID => windows_sum hws hc _ _,?_⟩
  intro tenantID resourceType groupBy resolution group currency
  constructor
  · simp only [costReport_sum CostReportRow.entries (fun _ => 1) (fun g => by simp [reportRow])]
    rw [windows_sum hws hc]
    simp
  · simp only [costReport_sum CostReportRow.cost CostEntry.costAmount (fun g => rfl)]
    exact windows_sum hws hc _ _

section Crossing
open Rating

def twoMonths : List (Int × Int) :=
  [(GoTime.date 2026 1 1,february),(february,GoTime.date 2026 3 1)]

def crossingCharged : Store :=
  { crossing with costEntries := crossing.entries.map (fun e => costEntry e 7 e.value "USD") }

theorem crossing_contained_counted :
    windowsFrom "monthly" (february - hours 1) 2 = .ok twoMonths ∧
      (twoMonths.map (fun v => crossingCharged.costSum "t" "maas_tokens_in" v.1 v.2)).sum =
        Store.sumCosts (crossingCharged.costEntries.filter (fun c => c.tenantID = "t" &&
          c.meterName = "maas_tokens_in" && within "monthly" c.periodStart c.periodEnd)) := by
  have hws : windowsFrom "monthly" (february - hours 1) 2 = .ok twoMonths := by decide +kernel
  exact ⟨hws,(windows_count_contained hws crossingCharged (by decide +kernel)
    (by decide +kernel)).2.2.2.1 "t" "maas_tokens_in"⟩

/-- January and February cover both entries, but the one from January into
February is in neither sum. -/
theorem crossing_counted_nowhere :
    windowsFrom "monthly" (february - hours 1) 2 = .ok twoMonths ∧
      (∀ e ∈ crossingCharged.entries, Covered twoMonths e.periodStart e.periodEnd) ∧
      (∃ e ∈ crossingCharged.entries,
        twoMonths.countP (fun v => inPeriod v.1 v.2 e.periodStart e.periodEnd) = 0) ∧
      (twoMonths.map (fun v => crossingCharged.meteringSum "t" "maas_tokens_in" v.1 v.2)).sum ≠
        Store.sumValues crossingCharged.entries ∧
      (twoMonths.map (fun v => crossingCharged.tenantCostSum "t" v.1 v.2)).sum ≠
        Store.sumCosts crossingCharged.costEntries := by
  decide +kernel

end Crossing

end CostConsumer.Reports
