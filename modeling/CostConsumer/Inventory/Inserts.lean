import CostConsumer.Foundation.Insert
import CostConsumer.Inventory.Store
set_option autoImplicit false

/-!
The statements that write metering and cost entries, as text and arguments. Many
entries go into one statement, whose placeholders are numbered by the loop that
builds it.
-/

namespace CostConsumer.Inventory
open Foundation Foundation.Sql

inductive Value where
  | bigint : Option Nat → Value
  | text : String → Value
  | numeric : Rat → Value
  | timestamptz : Int → Value
  deriving DecidableEq, Repr

namespace Calls

def insertMeteringEntry (entry : MeteringEntry) : Call Value where
  query := "
		INSERT INTO metering_entries
			(raw_event_id, resource_type, resource_id, tenant_id, project_id, user_id, instance_type, meter_name, value, unit, period_start, period_end)
		VALUES ($1, $2, $3, $4, $5, $6, $7, $8, $9, $10, $11, $12)
	"
  args := [.bigint entry.rawEventID,.text entry.resourceType,.text entry.resourceID,.text entry.tenantID,
    .text entry.projectID,.text entry.userID,.text entry.instanceType,.text entry.meterName,
    .numeric entry.value,.text entry.unit,.timestamptz entry.periodStart,.timestamptz entry.periodEnd]

def insertCostEntry (entry : CostEntry) : Call Value where
  query := "
		INSERT INTO cost_entries
			(metering_entry_id, rate_id, tenant_id, project_id, user_id, resource_type, resource_id, meter_name,
			 metered_value, cost_amount, currency, period_start, period_end)
		VALUES ($1, $2, $3, $4, $5, $6, $7, $8, $9, $10, $11, $12, $13)
	"
  args := [.bigint (some entry.meteringEntryID),.bigint (some entry.rateID),.text entry.tenantID,
    .text entry.projectID,.text entry.userID,.text entry.resourceType,.text entry.resourceID,
    .text entry.meterName,.numeric entry.meteredValue,.numeric entry.costAmount,.text entry.currency,
    .timestamptz entry.periodStart,.timestamptz entry.periodEnd]

section Loop

variable {α : Type}

/-- The loop of both batches, from entry `i` on: `numbers` are the arguments of the
format for a row whose placeholders come after `base`. -/
def appendRows (format : String) (width : Nat) (numbers : Nat → List Nat) (args : α → List Value) :
    Nat → List α → Call Value → Call Value
  | _, [], call => call
  | i, e :: es, call =>
    appendRows format width numbers args (i+1) es
      { query := (if i > 0 then call.query ++ ", " else call.query) ++
          String.ofList (sprintf format.toList (numbers (i*width))),
        args := call.args ++ args e }

def insertBatch (single : α → Call Value) (header format : String) (width : Nat)
    (numbers : Nat → List Nat) (args : α → List Value) : List α → Option (Call Value)
  | [] => none
  | [entry] => some (single entry)
  | entries => some (appendRows format width numbers args 0 entries ⟨header,[]⟩)

end Loop

def insertMeteringEntryBatch : List MeteringEntry → Option (Call Value) :=
  insertBatch insertMeteringEntry
    "INSERT INTO metering_entries (raw_event_id, resource_type, resource_id, tenant_id, project_id, user_id, instance_type, meter_name, value, unit, period_start, period_end) VALUES "
    "($%d,$%d,$%d,$%d,$%d,$%d,$%d,$%d,$%d,$%d,$%d,$%d)" 12
    (fun base => [base+1,base+2,base+3,base+4,base+5,base+6,base+7,base+8,base+9,base+10,base+11,
      base+12])
    (fun e => [.bigint e.rawEventID,.text e.resourceType,.text e.resourceID,.text e.tenantID,
      .text e.projectID,.text e.userID,.text e.instanceType,.text e.meterName,.numeric e.value,
      .text e.unit,.timestamptz e.periodStart,.timestamptz e.periodEnd])

def insertCostEntryBatch : List CostEntry → Option (Call Value) :=
  insertBatch insertCostEntry
    "INSERT INTO cost_entries (metering_entry_id, rate_id, tenant_id, project_id, user_id, resource_type, resource_id, meter_name, metered_value, cost_amount, currency, period_start, period_end) VALUES "
    "($%d,$%d,$%d,$%d,$%d,$%d,$%d,$%d,$%d,$%d,$%d,$%d,$%d)" 13
    (fun base => [base+1,base+2,base+3,base+4,base+5,base+6,base+7,base+8,base+9,base+10,base+11,
      base+12,base+13])
    (fun e => [.bigint (some e.meteringEntryID),.bigint (some e.rateID),.text e.tenantID,
      .text e.projectID,.text e.userID,.text e.resourceType,.text e.resourceID,.text e.meterName,
      .numeric e.meteredValue,.numeric e.costAmount,.text e.currency,.timestamptz e.periodStart,
      .timestamptz e.periodEnd])

end Calls

def MeteringEntry.columns (e : MeteringEntry) : List (String × Value) :=
  [("raw_event_id",.bigint e.rawEventID),("resource_type",.text e.resourceType),
    ("resource_id",.text e.resourceID),("tenant_id",.text e.tenantID),("project_id",.text e.projectID),
    ("user_id",.text e.userID),("instance_type",.text e.instanceType),("meter_name",.text e.meterName),
    ("value",.numeric e.value),("unit",.text e.unit),("period_start",.timestamptz e.periodStart),
    ("period_end",.timestamptz e.periodEnd)]

def CostEntry.columns (e : CostEntry) : List (String × Value) :=
  [("metering_entry_id",.bigint (some e.meteringEntryID)),("rate_id",.bigint (some e.rateID)),
    ("tenant_id",.text e.tenantID),("project_id",.text e.projectID),("user_id",.text e.userID),
    ("resource_type",.text e.resourceType),("resource_id",.text e.resourceID),
    ("meter_name",.text e.meterName),("metered_value",.numeric e.meteredValue),
    ("cost_amount",.numeric e.costAmount),("currency",.text e.currency),
    ("period_start",.timestamptz e.periodStart),("period_end",.timestamptz e.periodEnd)]

namespace Calls

section Loop

variable {α : Type} {format : String} {width : Nat} {numbers : Nat → List Nat} (args : α → List Value)

theorem appendRows_args (i : Nat) (es : List α) (call : Call Value) :
    (appendRows format width numbers args i es call).args = call.args ++ (es.map args).flatten := by
  induction es generalizing i call with
  | nil => simp [appendRows]
  | cons e es ih => simp [appendRows,ih]

variable (hw : width ≠ 0)
  (hf : ∀ base, sprintf format.toList (numbers base) = tupleText (List.range' (base+1) width))

include hw hf

theorem scan_row (i : Nat) :
    scan .nothing (sprintf format.toList (numbers (i*width))) =
      some (tupleTokens (List.range' (i*width+1) width),.nothing) := by
  rw [hf]
  exact scan_tuple (by rwa [Ne,List.range'_eq_nil_iff])

theorem scan_appendRows {i : Nat} (hi : 0 < i) (es : List α) (call : Call Value) {ts : List Token}
    (hc : scan .nothing call.query.toList = some (ts,.nothing)) :
    scan .nothing (appendRows format width numbers args i es call).query.toList =
      some (ts ++ (numbered width i es.length).flatMap (fun row => .comma :: tupleTokens row),.nothing) := by
  induction es generalizing i call ts with
  | nil => simpa [appendRows,numbered] using hc
  | cons e es ih =>
    have hsep : scan .nothing ", ".toList = some ([.comma],.nothing) := rfl
    have hrow := scan_append (scan_append hc hsep) (scan_row hw hf i)
    rw [appendRows,if_pos hi,List.length_cons,numbered,List.flatMap_cons,← List.append_assoc]
    refine ih (Nat.succ_pos i) _ ?_
    simpa using hrow

theorem tokens_appendRows {header : String} {ts : List Token} {es : List α}
    (hh : scan .nothing header.toList = some (ts,.nothing)) (hes : es ≠ []) :
    tokens (appendRows format width numbers args 0 es ⟨header,[]⟩).query =
      some (ts ++ rowTokens (numbered width 0 es.length)) := by
  obtain ⟨e,es,rfl⟩ := List.exists_cons_of_ne_nil hes
  have hfirst := scan_append hh (scan_row hw hf 0)
  rw [← String.toList_ofList (l := sprintf _ _),← String.toList_append] at hfirst
  have hrest := scan_appendRows args hw hf Nat.one_pos es ⟨_,args e⟩ hfirst
  rw [List.append_assoc] at hrest
  exact tokens_of_scan hrest

end Loop

section Batch

variable {α : Type}

/-- A batch insert fits the single insert into `columns`: the texts name the same
columns, the format has a placeholder for each, and the arguments are the same. -/
structure Fits (table : String) (columns : List String) (single : α → Call Value)
    (header format : String) (numbers : Nat → List Nat) (args : α → List Value) : Prop where
  some_columns : columns ≠ []
  query : ∀ e, tokens (single e).query =
    some (headerTokens table columns ++ rowTokens (numbered columns.length 0 1))
  width : ∀ e, (single e).args.length = columns.length
  header : scan .nothing header.toList = some (headerTokens table columns,.nothing)
  format : ∀ base, sprintf format.toList (numbers base) =
    tupleText (List.range' (base+1) columns.length)
  args : ∀ e, args e = (single e).args

variable {table : String} {columns : List String} {single : α → Call Value} {header format : String}
  {numbers : Nat → List Nat} {args : α → List Value}

theorem Fits.numbers_single (h : Fits table columns single header format numbers args) (e : α) :
    (single e).Numbers table columns [(single e).args] where
  query := h.query e
  args := by simp
  some_columns := h.some_columns
  some_rows := List.cons_ne_nil _ _
  width := by simpa using h.width e

theorem Fits.numbers_batch (h : Fits table columns single header format numbers args) {es : List α}
    {call : Call Value}
    (hc : insertBatch single header format columns.length numbers args es = some call) :
    call.Numbers table columns (es.map fun e => (single e).args) := by
  unfold insertBatch at hc
  split at hc
  · cases hc
  · cases hc
    exact h.numbers_single _
  · rename_i hne _
    cases hc
    have hw : columns.length ≠ 0 := Nat.ne_of_gt (List.length_pos_of_ne_nil h.some_columns)
    refine ⟨?_,?_,h.some_columns,by simpa using hne,?_⟩
    · rw [List.length_map]
      exact tokens_appendRows args hw h.format h.header hne
    · rw [appendRows_args,List.nil_append,funext h.args]
    · simpa using fun e _ => h.width e

theorem insertBatch_eq_none {width : Nat} {es : List α} :
    insertBatch single header format width numbers args es = none ↔ es = [] := by
  unfold insertBatch
  split
  · simp
  · simp
  · rename_i hne _
    simpa using hne

def perform {ρ ε : Type} (accept : String → List (String × Value) → Except ε ρ) (call : Option (Call Value))
    (db : String → List ρ) : Except (Failure ε) (String → List ρ) :=
  match call with
  | none => .ok db
  | some call => exec accept call db

/-- What a batch insert is to the single one, for the entries `es` with the rows `row`:
their statement numbers its arguments from 1 on, and whatever the database stores
of a row or refuses of it, the batch adds the rows that the single inserts add one after
the other. -/
structure InsertsAs (single : α → Call Value) (batch : List α → Option (Call Value)) (width : Nat)
    (table : String) (row : α → List (String × Value)) (es : List α) : Prop where
  nothing : batch es = none ↔ es = []
  numbered : ∀ call, batch es = some call →
    placeholders call.query = some (List.range' 1 (width*es.length)) ∧
      call.args.length = width*es.length
  rows : ∀ {ρ ε : Type} (accept : String → List (String × Value) → Except ε ρ) (db : String → List ρ),
    perform accept (batch es) db = insertRows accept table (es.map row) db
  singles : ∀ {ρ ε : Type} (accept : String → List (String × Value) → Except ε ρ) (db : String → List ρ),
    perform accept (batch es) db = es.foldlM (fun db e => exec accept (single e) db) db

theorem Fits.insertsAs (h : Fits table columns single header format numbers args)
    {row : α → List (String × Value)} (hr : ∀ e, columns.zip (single e).args = row e)
    (hle : columns.length ≤ 65535) {es : List α} (hes : columns.length*es.length ≤ 65535) :
    InsertsAs single (insertBatch single header format columns.length numbers args) columns.length table row
      es := by
  have hone : ∀ {ρ ε : Type} (accept : String → List (String × Value) → Except ε ρ) (e : α)
      (db : String → List ρ), exec accept (single e) db = insertRows accept table [row e] db := by
    intro ρ ε accept e db
    have hexec := (h.numbers_single e).exec_eq (by simpa using hle) accept db
    rwa [List.map_singleton,hr] at hexec
  have hall : ∀ {ρ ε : Type} (accept : String → List (String × Value) → Except ε ρ) (db : String → List ρ),
      perform accept (insertBatch single header format columns.length numbers args es) db =
        insertRows accept table (es.map row) db := by
    intro ρ ε accept db
    cases hc : insertBatch single header format columns.length numbers args es with
    | none =>
      rw [insertBatch_eq_none.mp hc,List.map_nil,insertRows_nil]
      rfl
    | some call =>
      have hexec := (h.numbers_batch hc).exec_eq (by rwa [List.length_map]) accept db
      rw [List.map_map,show (columns.zip ∘ fun e => (single e).args) = row from funext hr] at hexec
      exact hexec
  refine ⟨insertBatch_eq_none,fun call hc => ?_,hall,fun accept db => ?_⟩
  · have hn := h.numbers_batch hc
    have hp := hn.placeholders_eq
    have ha := hn.length_args
    rw [List.length_map] at hp ha
    exact ⟨hp,ha⟩
  · simp only [hall,hone,foldlM_insertRows]

theorem Fits.perform_many (h : Fits table columns single header format numbers args) {es : List α}
    (hes : 65535 < columns.length*es.length) {ρ ε : Type}
    (accept : String → List (String × Value) → Except ε ρ) (db : String → List ρ) :
    perform accept (insertBatch single header format columns.length numbers args es) db =
      .error .parameters := by
  cases hc : insertBatch single header format columns.length numbers args es with
  | none => simp [insertBatch_eq_none.mp hc] at hes
  | some call => exact (h.numbers_batch hc).exec_many (by rwa [List.length_map]) accept db

end Batch

def meteringColumns : List String :=
  ["raw_event_id","resource_type","resource_id","tenant_id","project_id","user_id","instance_type",
    "meter_name","value","unit","period_start","period_end"]

def costColumns : List String :=
  ["metering_entry_id","rate_id","tenant_id","project_id","user_id","resource_type","resource_id",
    "meter_name","metered_value","cost_amount","currency","period_start","period_end"]

theorem zip_meteringColumns (e : MeteringEntry) :
    meteringColumns.zip (insertMeteringEntry e).args = e.columns := rfl

theorem zip_costColumns (e : CostEntry) : costColumns.zip (insertCostEntry e).args = e.columns := rfl

set_option maxRecDepth 4000 in
theorem insertMeteringEntryBatch_fits :
    ∃ header format numbers args,
      insertMeteringEntryBatch =
          insertBatch insertMeteringEntry header format meteringColumns.length numbers args ∧
        Fits "metering_entries" meteringColumns insertMeteringEntry header format numbers args :=
  ⟨_,_,_,_,rfl,List.cons_ne_nil _ _,fun _ => tokens_of_scan (scan_literal rfl rfl),fun _ => rfl,
    scan_literal rfl rfl,fun _ => rfl,fun _ => rfl⟩

set_option maxRecDepth 4000 in
theorem insertCostEntryBatch_fits :
    ∃ header format numbers args,
      insertCostEntryBatch =
          insertBatch insertCostEntry header format costColumns.length numbers args ∧
        Fits "cost_entries" costColumns insertCostEntry header format numbers args :=
  ⟨_,_,_,_,rfl,List.cons_ne_nil _ _,fun _ => tokens_of_scan (scan_literal rfl rfl),fun _ => rfl,
    scan_literal rfl rfl,fun _ => rfl,fun _ => rfl⟩

theorem insertMeteringEntryBatch_insertsAs {es : List MeteringEntry} (hes : 12*es.length ≤ 65535) :
    InsertsAs insertMeteringEntry insertMeteringEntryBatch 12 "metering_entries" MeteringEntry.columns
      es := by
  obtain ⟨header,format,numbers,args,hb,hfit⟩ := insertMeteringEntryBatch_fits
  rw [hb]
  exact hfit.insertsAs zip_meteringColumns (by decide) hes

theorem insertCostEntryBatch_insertsAs {es : List CostEntry} (hes : 13*es.length ≤ 65535) :
    InsertsAs insertCostEntry insertCostEntryBatch 13 "cost_entries" CostEntry.columns es := by
  obtain ⟨header,format,numbers,args,hb,hfit⟩ := insertCostEntryBatch_fits
  rw [hb]
  exact hfit.insertsAs zip_costColumns (by decide) hes

theorem insertMeteringEntryBatch_many {es : List MeteringEntry} (hes : 65535 < 12*es.length) {ρ ε : Type}
    {accept : String → List (String × Value) → Except ε ρ} {db : String → List ρ} :
    perform accept (insertMeteringEntryBatch es) db = .error .parameters := by
  obtain ⟨header,format,numbers,args,hb,hfit⟩ := insertMeteringEntryBatch_fits
  rw [hb]
  exact hfit.perform_many hes accept db

theorem insertCostEntryBatch_many {es : List CostEntry} (hes : 65535 < 13*es.length) {ρ ε : Type}
    {accept : String → List (String × Value) → Except ε ρ} {db : String → List ρ} :
    perform accept (insertCostEntryBatch es) db = .error .parameters := by
  obtain ⟨header,format,numbers,args,hb,hfit⟩ := insertCostEntryBatch_fits
  rw [hb]
  exact hfit.perform_many hes accept db

theorem batches_insert_as_singles :
    (∀ es : List MeteringEntry, 12*es.length ≤ 65535 →
      InsertsAs insertMeteringEntry insertMeteringEntryBatch 12 "metering_entries" MeteringEntry.columns es) ∧
    ∀ es : List CostEntry, 13*es.length ≤ 65535 →
      InsertsAs insertCostEntry insertCostEntryBatch 13 "cost_entries" CostEntry.columns es :=
  ⟨fun _ => insertMeteringEntryBatch_insertsAs,fun _ => insertCostEntryBatch_insertsAs⟩

def tokensIn (id : Nat) (value : Rat) : MeteringEntry where
  id := id
  rawEventID := none
  resourceType := "model"
  resourceID := "m"
  tenantID := "t"
  projectID := "p"
  userID := "u"
  instanceType := ""
  meterName := "maas_tokens_in"
  value := value
  unit := "tokens"
  periodStart := 0
  periodEnd := 3600000000000

def tokensCost (id : Nat) (value cost : Rat) : CostEntry where
  meteringEntryID := id
  rateID := 1
  tenantID := "t"
  projectID := "p"
  userID := "u"
  resourceType := "model"
  resourceID := "m"
  meterName := "maas_tokens_in"
  meteredValue := value
  costAmount := cost
  currency := "USD"
  periodStart := 0
  periodEnd := 3600000000000

theorem two_entries_insert_as_singles :
    InsertsAs insertMeteringEntry insertMeteringEntryBatch 12 "metering_entries" MeteringEntry.columns
        [tokensIn 1 100,tokensIn 2 50] ∧
      InsertsAs insertCostEntry insertCostEntryBatch 13 "cost_entries" CostEntry.columns
        [tokensCost 1 100 2,tokensCost 2 50 1] :=
  ⟨batches_insert_as_singles.1 _ (by decide),batches_insert_as_singles.2 _ (by decide)⟩

end Calls

namespace Store

def storeCell (table : String) : String × Value → Except StoreError (String × Value)
  | (column,.numeric v) =>
    if table = "metering_entries" ∧ column = "value" then
      if Numeric.Fits 18 6 v then .ok (column,.numeric (Numeric.stored 6 v)) else .error .numericOverflow
    else if table = "cost_entries" ∧ column = "metered_value" then
      if Numeric.Fits 18 6 v then .ok (column,.numeric (Numeric.stored 6 v)) else .error .numericOverflow
    else if table = "cost_entries" ∧ column = "cost_amount" then
      if Numeric.Fits 18 10 v then .ok (column,.numeric (Numeric.stored 10 v)) else .error .numericOverflow
    else .ok (column,.numeric v)
  | cell => .ok cell

def storeRow (table : String) (row : List (String × Value)) : Except StoreError (List (String × Value)) :=
  row.mapM (storeCell table)

/-- The columns of a cost entry as the table keeps them. -/
def storedCost (e : CostEntry) : CostEntry :=
  { e with meteredValue := Numeric.stored 6 e.meteredValue, costAmount := Numeric.stored 10 e.costAmount }

def meteredFits (e : CostEntry) : Prop := Numeric.Fits 18 6 e.meteredValue

instance (e : CostEntry) : Decidable (meteredFits e) := inferInstanceAs (Decidable (Numeric.Fits _ _ _))

/-- The batch insert with the rounding of both numeric columns. The store's own insert
neither rounds nor looks at the metered value, which the rater copies from a row. -/
def storeCostEntryBatch (s : Store) (es : List CostEntry) : Except StoreError Store :=
  if 13*es.length ≤ 65535 ∧ ¬ ∀ e ∈ es, meteredFits e then .error .numericOverflow
  else s.insertCostEntryBatch (es.map storedCost)

def tables (s : Store) (table : String) : List (List (String × Value)) :=
  if table = "metering_entries" then s.entries.map MeteringEntry.columns
  else if table = "cost_entries" then s.costEntries.map CostEntry.columns
  else []

theorem storeRow_metering (e : MeteringEntry) :
    storeRow "metering_entries" e.columns =
      if valueFits e then .ok { e with value := Numeric.stored 6 e.value }.columns
      else .error .numericOverflow := by
  unfold valueFits
  by_cases h : Numeric.Fits 18 6 e.value <;>
    simp [storeRow,MeteringEntry.columns,storeCell,h,bind,Except.bind,pure,Except.pure]

theorem storeRow_cost (e : CostEntry) :
    storeRow "cost_entries" e.columns =
      if meteredFits e ∧ costFits e then .ok (storedCost e).columns else .error .numericOverflow := by
  unfold meteredFits costFits
  by_cases hm : Numeric.Fits 18 6 e.meteredValue <;> by_cases hc : Numeric.Fits 18 10 e.costAmount <;>
    simp [storeRow,CostEntry.columns,storedCost,storeCell,hm,hc,bind,Except.bind,pure,Except.pure]

theorem costFits_storedCost (e : CostEntry) : costFits (storedCost e) ↔ costFits e := Numeric.fits_stored

theorem addMetering_costEntries (s : Store) (id : Nat) (es : List MeteringEntry) :
    (s.addMetering id es).costEntries = s.costEntries := by
  induction es generalizing s id with
  | nil => rfl
  | cons e es ih => rw [addMetering,ih]

theorem tables_addMetering {s : Store} {id : Nat} (es : List MeteringEntry)
    (h : ∀ row ∈ s.meteringEntries.rows, row.id < id) :
    (s.addMetering id es).tables =
      Function.update s.tables "metering_entries" (s.tables "metering_entries" ++
        es.map (fun e => { e with value := Numeric.stored 6 e.value }.columns)) := by
  funext table
  by_cases ht : table = "metering_entries"
  · subst ht
    rw [Function.update_self,tables,if_pos rfl,tables,if_pos rfl,(entries_addMetering es h).1,List.map_append]
    congr 1
    conv_rhs => rw [← List.zipIdx_map_fst 0 es,List.map_map]
    rw [List.mapIdx_eq_zipIdx_map,List.map_map]
    rfl
  · rw [Function.update_of_ne ht,tables,if_neg ht,tables,if_neg ht,addMetering_costEntries]

theorem tables_addCosts (s : Store) (es : List CostEntry) :
    (s.addCosts es).tables =
      Function.update s.tables "cost_entries" (s.tables "cost_entries" ++ es.map CostEntry.columns) := by
  funext table
  by_cases ht : table = "cost_entries"
  · subst ht
    rw [Function.update_self]
    simp [tables,addCosts]
  · rw [Function.update_of_ne ht]
    simp [tables,ht,addCosts,entries]

theorem insertMeteringEntryBatch_eq (s : Store) (id : Nat) (es : List MeteringEntry) :
    s.insertMeteringEntryBatch id es =
      if 12*es.length > 65535 then .error .tooManyParameters
      else if es.all (valueFits ·) then .ok (s.addMetering id es) else .error .numericOverflow := by
  unfold insertMeteringEntryBatch
  split
  · rfl
  · rename_i e
    simp [insertMeteringEntry]
  · rfl

theorem insertCostEntryBatch_eq (s : Store) (es : List CostEntry) :
    s.insertCostEntryBatch es =
      if 13*es.length > 65535 then .error .tooManyParameters
      else if es.all (costFits ·) then .ok (s.addCosts es) else .error .numericOverflow := by
  unfold insertCostEntryBatch
  split
  · simp [addCosts]
  · rename_i e
    simp [insertCostEntry]
  · rfl

def outcome : Except StoreError Store → Except (Failure StoreError) (String → List (List (String × Value)))
  | .ok s => .ok s.tables
  | .error .tooManyParameters => .error .parameters
  | .error .numericOverflow => .error (.refused .numericOverflow)

theorem perform_insertMeteringEntryBatch {s : Store} {id : Nat} (es : List MeteringEntry)
    (h : ∀ row ∈ s.meteringEntries.rows, row.id < id) :
    Calls.perform storeRow (Calls.insertMeteringEntryBatch es) s.tables =
      outcome (s.insertMeteringEntryBatch id es) := by
  rw [insertMeteringEntryBatch_eq]
  by_cases hes : 12*es.length > 65535
  · rw [if_pos hes,Calls.insertMeteringEntryBatch_many hes]
    rfl
  · rw [if_neg hes,(Calls.insertMeteringEntryBatch_insertsAs (Nat.le_of_not_lt hes)).rows,
      insertRows_of_check storeRow_metering,← tables_addMetering es h]
    split <;> rfl

theorem storeCostEntryBatch_eq (s : Store) (es : List CostEntry) :
    s.storeCostEntryBatch es =
      if 13*es.length > 65535 then .error .tooManyParameters
      else if es.all (fun e => decide (meteredFits e ∧ costFits e)) then .ok (s.addCosts (es.map storedCost))
      else .error .numericOverflow := by
  unfold storeCostEntryBatch
  rw [insertCostEntryBatch_eq,List.length_map]
  by_cases hlen : 13*es.length > 65535
  · rw [if_neg (fun h => absurd h.1 (Nat.not_le_of_lt hlen)),if_pos hlen,if_pos hlen]
  · rw [if_neg hlen,if_neg hlen]
    by_cases hm : ∀ e ∈ es, meteredFits e
    · rw [if_neg (fun h => h.2 hm)]
      congr 1
      simp only [List.all_map,List.all_eq_true,Function.comp_apply,decide_eq_true_eq,costFits_storedCost,
        eq_iff_iff]
      exact ⟨fun h e he => ⟨hm e he,h e he⟩,fun h e he => (h e he).2⟩
    · rw [if_pos ⟨Nat.le_of_not_lt hlen,hm⟩,if_neg]
      simp only [List.all_eq_true,decide_eq_true_eq]
      exact fun h => hm fun e he => (h e he).1

theorem perform_insertCostEntryBatch (s : Store) (es : List CostEntry) :
    Calls.perform storeRow (Calls.insertCostEntryBatch es) s.tables =
      outcome (s.storeCostEntryBatch es) := by
  rw [storeCostEntryBatch_eq]
  by_cases hes : 13*es.length > 65535
  · rw [if_pos hes,Calls.insertCostEntryBatch_many hes]
    rfl
  · rw [if_neg hes,(Calls.insertCostEntryBatch_insertsAs (Nat.le_of_not_lt hes)).rows,
      insertRows_of_check storeRow_cost]
    have hadd := tables_addCosts s (es.map storedCost)
    rw [List.map_map] at hadd
    split
    · exact congrArg Except.ok hadd.symm
    · rfl

end Store

end CostConsumer.Inventory
