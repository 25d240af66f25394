import CostConsumer.Reports.CostReport
import CostConsumer.Rating.Origin
set_option autoImplicit false

namespace CostConsumer.Reports
open Inventory Foundation Billing

/-- A row of `cost_entries ce LEFT JOIN rates r ON ce.rate_id = r.id`. -/
abbrev JoinedEntry := CostEntry × Option RateRecord

def joinedCost (type : String) (e : JoinedEntry) : Rat :=
  if e.2.map (·.costType) = some type then e.1.costAmount else 0

def joinedRow (g : ReportKey × List JoinedEntry) : CostReportRow where
  date := (g.1.date.map (fun d => String.ofList (GoTime.formatDate (d*GoTime.nanosPerDay)))).getD ""
  group := g.1.group
  entries := g.2.length
  cost := (g.2.map (·.1.costAmount)).sum
  infrastructureCost := (g.2.map (joinedCost "Infrastructure")).sum
  supplementaryCost := (g.2.map (joinedCost "Supplementary")).sum
  currency := g.1.currency

def costReportQuery (s : Store) (tenantID resourceType groupBy resolution : String) (fromT toT : Int) :
    List CostReportRow :=
  let joined := leftJoin (fun ce r => r.id = ce.rateID) s.costEntries s.rates
  let selected := joined.filter (fun e =>
    inPeriod fromT toT e.1.periodStart e.1.periodEnd && reportWhere tenantID resourceType e.1)
  let groups := Foundation.groupBy (fun e => reportKey groupBy resolution e.1) selected
  ((groups.map (fun g => (g.1,joinedRow g))).insertionSort reportOrder).map (·.2)

theorem costReportQuery_eq {s : Store} (hr : (s.rates.map (·.id)).Nodup)
    (tenantID resourceType groupBy resolution : String) (fromT toT : Int) :
    costReportQuery s tenantID resourceType groupBy resolution fromT toT =
      costReport s tenantID resourceType groupBy resolution fromT toT := by
  have hunique : ∀ ce : CostEntry, s.rates.Pairwise (fun r r' =>
      ¬ (decide (r.id = ce.rateID) = true ∧ decide (r'.id = ce.rateID) = true)) := by
    intro ce
    refine (List.pairwise_map.mp hr).imp fun {r r'} hne h => hne ?_
    exact (of_decide_eq_true h.1).trans (of_decide_eq_true h.2).symm
  have hrow : ∀ g : ReportKey × List CostEntry,
      joinedRow (g.1,g.2.map (fun ce => (ce,s.rates.find? (fun r => r.id = ce.rateID)))) =
        reportRow s.rates g := by
    intro g
    simp only [joinedRow,List.map_map,List.length_map,Function.comp_def]
    rfl
  unfold costReportQuery costReport
  simp only [leftJoin_unique hunique,List.filter_map,groupBy_map,List.map_map,Function.comp_def,hrow]

section Sums
variable {M : Type} [AddCommMonoid M]

theorem costReport_total (column : CostReportRow → M) (x : CostEntry → M) {s : Store}
    (h : ∀ g, column (reportRow s.rates g) = (g.2.map x).sum)
    (tenantID resourceType groupBy resolution : String) (fromT toT : Int) :
    ((costReport s tenantID resourceType groupBy resolution fromT toT).map column).sum =
      ((s.costEntries.filter (fun ce => inPeriod fromT toT ce.periodStart ce.periodEnd &&
        reportWhere tenantID resourceType ce)).map x).sum := by
  unfold costReport
  generalize s.costEntries.filter _ = selected
  have hperm := List.perm_insertionSort reportOrder
    ((Foundation.groupBy (reportKey groupBy resolution) selected).map
      (fun g => (g.1,reportRow s.rates g)))
  have hgroups := sum_groupBy (reportKey groupBy resolution) (fun _ => true) x selected
  simp only [List.filter_true] at hgroups
  rw [((hperm.map (·.2)).map column).sum_eq]
  simp only [List.map_map,Function.comp_def,h]
  exact hgroups

end Sums

/-- The total cost and the number of entries are those of the selected entries, whatever
they are grouped by. -/
theorem totals_independent_of_grouping {s : Store} (hr : (s.rates.map (·.id)).Nodup)
    (tenantID resourceType groupBy resolution : String) (fromT toT : Int) :
    let rows := costReportQuery s tenantID resourceType groupBy resolution fromT toT
    let selected := s.costEntries.filter (fun ce =>
      inPeriod fromT toT ce.periodStart ce.periodEnd && reportWhere tenantID resourceType ce)
    (rows.map (·.cost)).sum = Store.sumCosts selected ∧ (rows.map (·.entries)).sum = selected.length := by
  simp only [costReportQuery_eq hr]
  constructor
  · exact costReport_total CostReportRow.cost CostEntry.costAmount (fun _ => rfl) ..
  · rw [costReport_total CostReportRow.entries (fun _ => 1) (fun g => by simp [reportRow])]
    simp

theorem totals_of_crossing :
    let rows := costReportQuery crossingCharged "" "" "meter" "daily" (GoTime.date 2026 1 1)
      (GoTime.date 2026 3 1)
    (rows.map (·.cost)).sum = 200 ∧ (rows.map (·.entries)).sum = 2 := by
  have h := totals_independent_of_grouping (s := crossingCharged) (by decide) "" "" "meter" "daily"
    (GoTime.date 2026 1 1) (GoTime.date 2026 3 1)
  exact ⟨h.1.trans (by decide +kernel),h.2.trans (by decide +kernel)⟩

structure ReportParams where
  tenantID : Option String := none
  resourceType : Option String := none
  groupBy : Option String := none
  resolution : Option String := none
  fromTime : Option String := none
  toTime : Option String := none
  period : Option String := none

structure TimeParser where
  rfc3339 : String → Option Int
  date : String → Option Int
  month : String → Option Int

inductive ReportError where
  | fromFormat : ReportError
  | toFormat : ReportError
  | periodFormat : ReportError
  | query : ReportError
  deriving DecidableEq, Repr

def ReportError.status : ReportError → Nat
  | .query => 500
  | _ => 400

def TimeParser.time (parser : TimeParser) (text : String) : Option Int :=
  (parser.rfc3339 text).or (parser.date text)

def ReportParams.range (params : ReportParams) (parser : TimeParser) (now : Int) :
    Except ReportError (Int × Int) :=
  if params.fromTime.getD "" ≠ "" then
    match parser.time (params.fromTime.getD "") with
    | none => .error .fromFormat
    | some periodStart =>
      if params.toTime.getD "" ≠ "" then
        match parser.time (params.toTime.getD "") with
        | none => .error .toFormat
        | some periodEnd => .ok (periodStart,periodEnd)
      else .ok (periodStart,now)
  else
    let period := params.period.getD ""
    let period := if period = "" then String.ofList (GoTime.formatMonth now) else period
    match parser.month period with
    | none => .error .periodFormat
    | some periodStart => .ok (periodStart,GoTime.addDate periodStart 0 1 0)

structure KokuCostLayer where
  value : Rat := 0
  units : String := ""
  deriving DecidableEq, Repr

structure KokuCostBlock where
  raw : KokuCostLayer := {}
  markup : KokuCostLayer := {}
  usage : KokuCostLayer
  total : KokuCostLayer
  deriving DecidableEq, Repr

structure KokuCostTotal where
  cost : KokuCostBlock
  infrastructure : KokuCostBlock
  supplementary : KokuCostBlock
  costUnits : String
  deriving DecidableEq, Repr

def buildKokuTotal (cost infraCost suppCost : Rat) (currency : String) : KokuCostTotal where
  cost := { usage := ⟨cost,currency⟩, total := ⟨cost,currency⟩ }
  infrastructure := { usage := ⟨infraCost,currency⟩, total := ⟨infraCost,currency⟩ }
  supplementary := { usage := ⟨suppCost,currency⟩, total := ⟨suppCost,currency⟩ }
  costUnits := currency

structure CostReportResponse where
  total : KokuCostTotal
  groupBy : String
  resolution : String
  data : List CostReportRow
  deriving DecidableEq, Repr

def reportTotals (rows : List CostReportRow) : Rat × Rat × Rat :=
  rows.foldl (fun t row =>
    (t.1+row.cost,t.2.1+row.infrastructureCost,t.2.2+row.supplementaryCost)) (0,0,0)

def getCostReport (parser : TimeParser) (now : Int) (failed : Bool) (s : Store) (params : ReportParams) :
    Except ReportError CostReportResponse :=
  match params.range parser now with
  | .error e => .error e
  | .ok (periodStart,periodEnd) =>
    if failed then .error .query
    else
      let groupBy := params.groupBy.getD "tenant"
      let resolution := params.resolution.getD ""
      let rows := costReportQuery s (params.tenantID.getD "") (params.resourceType.getD "") groupBy resolution
        periodStart periodEnd
      let totals := reportTotals rows
      .ok ⟨buildKokuTotal totals.1 totals.2.1 totals.2.2 "USD",groupBy,resolution,rows⟩

theorem reportTotals_eq (rows : List CostReportRow) :
    reportTotals rows = ((rows.map (·.cost)).sum,(rows.map (·.infrastructureCost)).sum,
      (rows.map (·.supplementaryCost)).sum) := by
  have hfold : ∀ t : Rat × Rat × Rat, rows.foldl (fun t row =>
      (t.1+row.cost,t.2.1+row.infrastructureCost,t.2.2+row.supplementaryCost)) t =
      (t.1+(rows.map (·.cost)).sum,t.2.1+(rows.map (·.infrastructureCost)).sum,
        t.2.2+(rows.map (·.supplementaryCost)).sum) := by
    induction rows with
    | nil => simp
    | cons row rows ih => simp [ih,add_assoc]
  rw [reportTotals,hfold]
  simp

def ReportParams.selected (params : ReportParams) (range : Int × Int) (s : Store) : List CostEntry :=
  s.costEntries.filter (fun ce => inPeriod range.1 range.2 ce.periodStart ce.periodEnd &&
    reportWhere (params.tenantID.getD "") (params.resourceType.getD "") ce)

def ReportParams.group (params : ReportParams) (range : Int × Int) (s : Store) (key : ReportKey) :
    List CostEntry :=
  (params.selected range s).filter (fun ce =>
    reportKey (params.groupBy.getD "tenant") (params.resolution.getD "") ce = key)

/-- The components add up to the cost, which is a sum of amounts in one currency. -/
def AddsUp (cost infrastructure supplementary : Rat) (currency : String) (entries : List CostEntry) : Prop :=
  cost = infrastructure+supplementary ∧ cost = Store.sumCosts entries ∧ ∀ ce ∈ entries, ce.currency = currency

def ruleCost (entries : List CostEntry) : Rat := Store.sumCosts (entries.filter (fun ce => ce.rateID = 0))

theorem costOfType_add {rates : List RateRecord} (hr : Rating.RatesOK rates) {ce : CostEntry}
    (hce : Rating.Priced rates ce) :
    costOfType rates "Infrastructure" ce + costOfType rates "Supplementary" ce =
      if ce.rateID = 0 then 0 else ce.costAmount := by
  cases hf : rates.find? (fun r => r.id = ce.rateID) with
  | none =>
    have hzero : ce.rateID = 0 := by
      rcases hce with h | ⟨r,hm,hid,-⟩
      · exact h
      · exact absurd hid.symm (by simpa using List.find?_eq_none.mp hf r hm)
    have htype : costType rates ce = none := by rw [costType,hf,Option.map_none]
    simp [costOfType,htype,hzero]
  | some r =>
    have hm := List.mem_of_find?_eq_some hf
    have hid : r.id = ce.rateID := by simpa using List.find?_some hf
    have hpos := hr.pos r hm
    rw [if_neg (by omega)]
    have htype : costType rates ce = some r.costType := by rw [costType,hf,Option.map_some]
    rcases hr.types r hm with ht | ht <;> simp [costOfType,htype,ht]

theorem components_add {rates : List RateRecord} (hr : Rating.RatesOK rates) {entries : List CostEntry}
    (h : ∀ ce ∈ entries, Rating.Priced rates ce) :
    (entries.map (costOfType rates "Infrastructure")).sum +
      (entries.map (costOfType rates "Supplementary")).sum + ruleCost entries = Store.sumCosts entries := by
  induction entries with
  | nil => simp [ruleCost,Store.sumCosts]
  | cons ce entries ih =>
    have hce := costOfType_add hr (h ce List.mem_cons_self)
    have hrest := ih fun ce hce => h ce (List.mem_cons_of_mem _ hce)
    have hrule : ruleCost (ce :: entries) = (if ce.rateID = 0 then ce.costAmount else 0) + ruleCost entries := by
      by_cases hz : ce.rateID = 0 <;> simp [ruleCost,Store.sumCosts,hz]
    rw [hrule]
    simp only [Store.sumCosts,List.map_cons,List.sum_cons] at *
    split at hce
    · rename_i hz
      rw [if_pos hz]
      linarith
    · rename_i hz
      rw [if_neg hz]
      linarith

theorem addsUp_iff {rates : List RateRecord} (hr : Rating.RatesOK rates) {entries : List CostEntry}
    (h : ∀ ce ∈ entries, Rating.Priced rates ce) (currency : String) :
    AddsUp (Store.sumCosts entries) (entries.map (costOfType rates "Infrastructure")).sum
        (entries.map (costOfType rates "Supplementary")).sum currency entries ↔
      ruleCost entries = 0 ∧ ∀ ce ∈ entries, ce.currency = currency := by
  have hadd := components_add hr h
  constructor
  · rintro ⟨hsum,-,hc⟩
    exact ⟨by linarith,hc⟩
  · rintro ⟨hz,hc⟩
    exact ⟨by linarith,rfl,hc⟩

theorem mem_costReport {s : Store} {tenantID resourceType groupBy resolution : String} {fromT toT : Int}
    {row : CostReportRow} (h : row ∈ costReport s tenantID resourceType groupBy resolution fromT toT) :
    ∃ key, row = reportRow s.rates (key,(s.costEntries.filter (fun ce =>
      inPeriod fromT toT ce.periodStart ce.periodEnd && reportWhere tenantID resourceType ce)).filter
        (fun ce => reportKey groupBy resolution ce = key)) := by
  obtain ⟨p,hp,rfl⟩ := List.mem_map.mp h
  obtain ⟨g,hg,rfl⟩ := List.mem_map.mp ((List.mem_insertionSort reportOrder).mp hp)
  obtain ⟨key,-,rfl⟩ := List.mem_map.mp hg
  exact ⟨key,rfl⟩

/-- In what a rater filled, the printed total adds up and is in the currency printed with it
if the rule engine's entries cost nothing together and all entries are in USD. Rows are in one
currency each, and only the rule engine's entries are missing from their components. -/
theorem report_adds_up_iff {s : Store} (hs : Rating.Filled s) {parser : TimeParser} {now : Int}
    {params : ReportParams} {range : Int × Int} (hrange : params.range parser now = .ok range) :
    ∃ response, getCostReport parser now false s params = .ok response ∧
      let total := response.total
      (AddsUp total.cost.total.value total.infrastructure.total.value total.supplementary.total.value
          total.costUnits (params.selected range s) ↔
        ruleCost (params.selected range s) = 0 ∧ ∀ ce ∈ params.selected range s, ce.currency = "USD") ∧
      ∀ row ∈ response.data, ∃ key : ReportKey, row.group = key.group ∧ row.currency = key.currency ∧
        (AddsUp row.cost row.infrastructureCost row.supplementaryCost row.currency
            (params.group range s key) ↔ ruleCost (params.group range s key) = 0) := by
  obtain ⟨hr,hpriced⟩ := hs.fromRates
  have hsel : ∀ ce ∈ params.selected range s, Rating.Priced s.rates ce :=
    fun ce hce => hpriced ce (List.mem_of_mem_filter hce)
  simp only [getCostReport,hrange,reportTotals_eq,costReportQuery_eq hr.nodup,
    costReport_total CostReportRow.cost CostEntry.costAmount (fun _ => rfl),
    costReport_total CostReportRow.infrastructureCost (costOfType s.rates "Infrastructure") (fun _ => rfl),
    costReport_total CostReportRow.supplementaryCost (costOfType s.rates "Supplementary") (fun _ => rfl)]
  refine ⟨_,rfl,addsUp_iff hr hsel "USD",fun row hrow => ?_⟩
  obtain ⟨key,rfl⟩ := mem_costReport hrow
  refine ⟨key,rfl,rfl,?_⟩
  have hgroup : ∀ ce ∈ params.group range s key, ce.currency = key.currency := by
    intro ce hce
    have hkey := of_decide_eq_true (List.mem_filter.mp hce).2
    rw [← hkey]
    rfl
  have hrows := @addsUp_iff s.rates hr (params.group range s key)
    (fun ce hce => hsel ce (List.mem_of_mem_filter hce)) key.currency
  exact hrows.trans (and_iff_left hgroup)

section Mixed
open Rating

def euroRate : RateRecord := { freeTier with id := 8, tenantID := some "u", currency := "EUR" }

def ruledRater : Rater := ⟨3,by decide,some (fun _ _ => some ⟨1,1,"USD","",1,0⟩)⟩

def uptime : MeteringEntry :=
  { tokens 0 3600 (february + hours 1) (february + hours 2) with
    resourceType := "compute_instance", meterName := "vm_uptime_seconds" }

def ratesOpening : State := ⟨{ rates := [freeTier,euroRate] },1,[],.idle,[],[]⟩

def chargeBoth (r : Rater) (e e' : MeteringEntry) : List Label :=
  [.allocate e,.commit 1,.allocate e',.commit 2,.begin r february false,.fetch false,.price {},.price {},
    .insert false]

def keepsRates (_ : State) : Label → Bool
  | .alter _ _ _ => false
  | _ => true

theorem keepsRates_added (s : State) (l : Label) (h : keepsRates s l = true) : ratesAdded s l := by
  cases l with
  | alter rates instances tenants => cases h
  | _ => trivial

def februaryParser : TimeParser :=
  ⟨fun _ => none,fun _ => none,fun text => if text = "2026-02" then some february else none⟩

def februaryReport (s : Store) : Except ReportError CostReportResponse :=
  getCostReport februaryParser february false s {}

theorem filled_report {l : List Label} {P : Store → CostReportResponse → Prop}
    (h : ∃ t, runChecked step keepsRates ratesOpening l = some t ∧
      ∃ response, (februaryReport t.store).toOption = some response ∧ P t.store response) :
    ∃ s, Filled s ∧ ∃ response, februaryReport s = .ok response ∧ P s response := by
  have hrates : RatesOK ratesOpening.store.rates := ⟨by decide,by decide,by decide⟩
  obtain ⟨t,ht,response,hr,hp⟩ := Reachable.exists_of_checked step
    (fun t => initial t ∧ RatesOK t.store.rates) keepsRates ratesOpening l _
    keepsRates_added ⟨⟨rfl,rfl,rfl,rfl,rfl,rfl⟩,hrates⟩ h
  refine ⟨t.store,⟨t,rfl,ht⟩,response,?_,hp⟩
  cases hreport : februaryReport t.store with
  | error e => rw [hreport] at hr; cases hr
  | ok r => rw [hreport] at hr; cases hr; rfl

def someTokens (tenant : String) : MeteringEntry :=
  { tokens 0 150 (february + hours 1) (february + hours 2) with tenantID := tenant }

/-- An entry of the rule engine is in neither component. Dollars and euros are added up
and printed as dollars. -/
theorem report_totals_mixed :
    (∃ s, Filled s ∧ ∃ response, februaryReport s = .ok response ∧ response.total.cost.total = ⟨51,"USD"⟩ ∧
      response.total.infrastructure.total = ⟨0,"USD"⟩ ∧
      response.total.supplementary.total = ⟨50,"USD"⟩) ∧
    ∃ s, Filled s ∧ ∃ response, februaryReport s = .ok response ∧
      s.costEntries.map (fun ce => (ce.costAmount,ce.currency)) = [(50,"USD"),(50,"EUR")] ∧
      response.total.cost.total = ⟨100,"USD"⟩ := by
  constructor
  · exact filled_report (l := chargeBoth ruledRater (someTokens "t") uptime) (by decide +kernel)
  · exact filled_report (l := chargeBoth smallRater (someTokens "t") (someTokens "u")) (by decide +kernel)

theorem report_adds_up_in_run :
    ∃ s, Filled s ∧ ∃ response, februaryReport s = .ok response ∧
      let total := response.total
      total.cost.total = ⟨100,"USD"⟩ ∧
      AddsUp total.cost.total.value total.infrastructure.total.value total.supplementary.total.value
        total.costUnits (ReportParams.selected {} (february,GoTime.date 2026 3 1) s) := by
  obtain ⟨s,hs,response,hr,hcost,hcond⟩ := filled_report
    (l := chargeBoth smallRater (someTokens "t") (someTokens "v"))
    (P := fun s r => r.total.cost.total = ⟨100,"USD"⟩ ∧
      ruleCost (ReportParams.selected {} (february,GoTime.date 2026 3 1) s) = 0 ∧
      ∀ ce ∈ ReportParams.selected {} (february,GoTime.date 2026 3 1) s, ce.currency = "USD")
    (by decide +kernel)
  have hrange : ReportParams.range {} februaryParser february = .ok (february,GoTime.date 2026 3 1) := by
    decide +kernel
  obtain ⟨response',hr',hiff,-⟩ := report_adds_up_iff hs hrange
  cases hr.symm.trans hr'
  exact ⟨s,hs,response,hr,hcost,hiff.mpr hcond⟩

end Mixed

end CostConsumer.Reports
