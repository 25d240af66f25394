import CostConsumer.Foundation.Float64
import CostConsumer.Rating.Backlog
import CostConsumer.Rating.Machine
import CostConsumer.Wallet.Store
set_option autoImplicit false

/-!
Wallets as a system: the wallet API, the rater that writes cost entries, and any
number of `DeductWallets` sweeps. Every store call is a step of its own, may
fail, and interleaves with the steps of the others.
-/

namespace CostConsumer.Wallet
open Inventory Foundation Numeric

structure CreateWalletRequest where
  tenantID : String
  projectID : String
  currency : String
  thresholds : List Rat
  deriving DecidableEq, Repr

structure TopUp where
  walletID : String
  amount : Rat
  externalRef : String
  deriving DecidableEq, Repr

inductive Endpoint where
  | topUp : Endpoint
  | adjust : Endpoint
  deriving DecidableEq, Repr

inductive WalletError where
  | tenantRequired : WalletError
  | notPositive : WalletError
  | zero : WalletError
  | notImplemented : WalletError
  | idRequired : WalletError
  | notFound : WalletError
  deriving DecidableEq, Repr

def WalletError.message : WalletError → String
  | tenantRequired => "tenant_id is required"
  | notPositive => "amount must be positive"
  | zero => "amount must be non-zero"
  | notImplemented => "negative adjustments not yet implemented"
  | idRequired => "wallet_id or tenant_id required"
  | notFound => "wallet not found"

def WalletError.status : WalletError → Nat
  | notImplemented => 501
  | notFound => 404
  | _ => 400

def CreateWalletRequest.wallet (req : CreateWalletRequest) (id : String) (now : Int) :
    Except WalletError WalletRecord :=
  if req.tenantID = "" then .error .tenantRequired
  else .ok {
    id, tenantID := req.tenantID, projectID := req.projectID,
    currency := if req.currency = "" then "USD" else req.currency,
    balance := 0, balanceFloor := 0, referenceBalance := 0,
    lifecycleState := .active, thresholds := req.thresholds, createdAt := now }

def Endpoint.validate (amount : Rat) : Endpoint → Except WalletError Unit
  | topUp => if amount ≤ 0 then .error .notPositive else .ok ()
  | adjust =>
    if amount = 0 then .error .zero else if 0 < amount then .ok () else .error .notImplemented

theorem Endpoint.validate_ok {amount : Rat} {e : Endpoint} (h : e.validate amount = .ok ()) :
    0 < amount := by
  cases e with
  | topUp =>
    by_contra hn
    simp [validate,not_lt.mp hn] at h
  | adjust =>
    by_contra hn
    simp [validate,hn] at h
    split at h <;> cases h

inductive BalanceStatus where
  | ok : BalanceStatus
  | depleted : BalanceStatus
  deriving DecidableEq, Repr

structure WalletStatus where
  walletID : String
  tenantID : String
  currency : String
  balance : Money
  referenceBalance : Money
  remainingPct : Rat
  balanceFloor : Money
  balanceStatus : BalanceStatus
  withinBalance : Bool
  thresholds : List (String × Bool)
  deriving DecidableEq

def WalletRecord.remainingPct (w : WalletRecord) : Rat :=
  if w.referenceBalance.value = 0 then 0
  else stored 16 (w.balance.value/w.referenceBalance.value)*100

def WalletRecord.levels (w : WalletRecord) : List Rat :=
  if w.thresholds = [] then [50,25,10,0] else w.thresholds

def WalletRecord.status (w : WalletRecord) : WalletStatus where
  walletID := w.id
  tenantID := w.tenantID
  currency := w.currency
  balance := w.balance
  referenceBalance := w.referenceBalance
  remainingPct := stored 2 w.remainingPct
  balanceFloor := w.balanceFloor
  balanceStatus := if w.balance.value ≤ w.balanceFloor.value then .depleted else .ok
  withinBalance := w.balance.value > w.balanceFloor.value
  thresholds := Float64.textMap (fun t => decide (w.remainingPct ≤ t)) w.levels

/-- An id is tried as that of a wallet, then as that of a tenant; the `Bool`s
say that these calls fail. -/
def Books.getWalletStatus (b : Books) (failed failedForTenant : Bool) (id : String) :
    Except WalletError WalletStatus :=
  if id = "" then .error .idRequired
  else match (if failed then none else b.getWallet id).or
      (if failedForTenant then none else b.getWalletForTenant id) with
    | none => .error .notFound
    | some w => .ok w.status

def CostRow.remaining (r : CostRow) : Rat := r.costAmount - r.walletApplied.value

def WalletRecord.available (w : WalletRecord) : Rat := w.balance.value - w.balanceFloor.value

/-- What the inner loop does with an entry. A wallet that could not be read
again is nil, and the next use of it a panic. -/
inductive Turn where
  | skip : Turn
  | panic : Turn
  | depleted : Turn
  | deduct (w : WalletRecord) (amount : Rat) : Turn

def turn (wallet : Option WalletRecord) (ce : CostRow) : Turn :=
  if ce.remaining ≤ 0 then .skip
  else match wallet with
    | none => .panic
    | some w =>
      if w.available ≤ 0 then .depleted
      else .deduct w (if ce.remaining > w.available then w.available else ce.remaining)

/-- Where a sweep is: between sweeps, at the top of the loop over tenants, with
the tenant's wallet, in the loop over its entries, or past a deduction. -/
inductive Sweep where
  | idle : Sweep
  | tenants (todo : List String) : Sweep
  | listing (tenantID : String) (w : WalletRecord) (todo : List String) : Sweep
  | paying (wallet : Option WalletRecord) (entries : List CostRow) (todo : List String) : Sweep
  | refreshing (walletID : String) (entries : List CostRow) (todo : List String) : Sweep

namespace Sweep

def next : List String → Sweep
  | [] => idle
  | todo => tenants todo

def resume (wallet : Option WalletRecord) (entries : List CostRow) (todo : List String) : Sweep :=
  match entries with
  | [] => next todo
  | entries => paying wallet entries todo

/-- The entries a sweep has read and not yet passed. -/
def entries : Sweep → List CostRow
  | paying _ entries _ => entries
  | refreshing _ entries _ => entries
  | _ => []

def wallet? : Sweep → Option WalletRecord
  | listing _ w _ => some w
  | paying wallet _ _ => wallet
  | _ => none

@[simp] theorem entries_next (todo : List String) : (next todo).entries = [] := by
  cases todo <;> rfl

@[simp] theorem wallet_next (todo : List String) : (next todo).wallet? = none := by
  cases todo <;> rfl

@[simp] theorem entries_resume (wallet : Option WalletRecord) (es : List CostRow)
    (todo : List String) : (resume wallet es todo).entries = es := by
  cases es with
  | nil => exact entries_next todo
  | cons e es => rfl

theorem wallet_resume {wallet : Option WalletRecord} {es : List CostRow} {todo : List String}
    {w : WalletRecord} (h : (resume wallet es todo).wallet? = some w) : wallet = some w := by
  cases es with
  | nil => simp [resume] at h
  | cons e es => exact h

end Sweep

/-- `requests` are the top-ups that have passed the check for duplicates and
have not run their transaction. `credited` is a history: the top-ups whose
transaction took effect. -/
structure State where
  rating : Rating.State
  books : Books
  sweeps : Nat → Sweep
  requests : List TopUp
  credited : List TopUp

/-- Sweeps carry the number of their rater; a `Bool` says that the call fails. -/
inductive Label where
  | rating (l : Rating.Label) : Label
  | create (req : CreateWalletRequest) (id : String) (now : Int) (failed : Bool) : Label
  | request (endpoint : Endpoint) (req : TopUp) (failed : Bool) : Label
  | credit (i : Nat) (f : Faults) : Label
  | begin (n : Nat) (failed : Bool) : Label
  | wallet (n : Nat) (failed : Bool) : Label
  | list (n : Nat) (failed : Bool) : Label
  | pay (n : Nat) (f : Faults) : Label
  | refresh (n : Nat) (failed : Bool) : Label
  | crash (n : Nat) : Label

namespace State

def costs (s : State) : List CostEntry := s.rating.store.costEntries

def goto (s : State) (n : Nat) (p : Sweep) : State :=
  { s with sweeps := Function.update s.sweeps n p }

def create (s : State) (req : CreateWalletRequest) (id : String) (now : Int) (failed : Bool) :
    State :=
  match req.wallet id now with
  | .error _ => s
  | .ok w =>
    if failed then s
    else match s.books.createWallet w with
      | none => s
      | some books => { s with books }

def request (s : State) (endpoint : Endpoint) (req : TopUp) (failed : Bool) : State :=
  match endpoint.validate req.amount with
  | .error _ => s
  | .ok () =>
    if s.books.alreadyApplied failed req.walletID req.externalRef then s
    else { s with requests := s.requests ++ [req] }

/-- A transaction that took effect has left a row. -/
def credit (s : State) (i : Nat) (f : Faults) (req : TopUp) : State :=
  let (books,_) := s.books.topUpWallet f req.walletID req.amount req.externalRef
  { s with
    books,
    requests := s.requests.eraseIdx i,
    credited := if books.ledger = s.books.ledger then s.credited else s.credited ++ [req] }

def pay (s : State) (n : Nat) (f : Faults) (wallet : Option WalletRecord) (ce : CostRow)
    (rest : List CostRow) (todo : List String) : State :=
  match turn wallet ce with
  | .skip => s.goto n (.resume wallet rest todo)
  | .panic => s.goto n .idle
  | .depleted => s.goto n (.next todo)
  | .deduct w amount =>
    match s.books.deductFromWallet s.costs f w.id ce.id amount with
    | (books,none) => { s with books }.goto n (.resume wallet rest todo)
    | (books,some _) => { s with books }.goto n (.refreshing w.id rest todo)

end State

def step (s : State) : Label → Option State
  | .rating l => (Rating.step s.rating l).map (fun rating => { s with rating })
  | .create req id now failed => some (s.create req id now failed)
  | .request endpoint req failed => some (s.request endpoint req failed)
  | .credit i f => (s.requests[i]?).map (s.credit i f)
  | .begin n failed =>
    match s.sweeps n with
    | .idle =>
      some (s.goto n (if failed then .idle else .next s.books.allTenantsWithWallets))
    | _ => none
  | .wallet n failed =>
    match s.sweeps n with
    | .tenants (tenantID :: todo) =>
      match s.books.getWalletForTenant tenantID with
      | none => some (s.goto n (.next todo))
      | some w =>
        some (s.goto n (if failed ∨ w.lifecycleState ≠ .active then .next todo
          else .listing tenantID w todo))
    | _ => none
  | .list n failed =>
    match s.sweeps n with
    | .listing tenantID w todo =>
      some (s.goto n (if failed then .next todo
        else .resume (some w) (s.books.unappliedCostEntries s.costs tenantID) todo))
    | _ => none
  | .pay n f =>
    match s.sweeps n with
    | .paying wallet (ce :: rest) todo => some (s.pay n f wallet ce rest todo)
    | _ => none
  | .refresh n failed =>
    match s.sweeps n with
    | .refreshing walletID entries todo =>
      some (s.goto n (.resume (if failed then none else s.books.getWallet walletID) entries todo))
    | _ => none
  | .crash n => some (s.goto n .idle)

inductive Next (s : State) (n : Nat) : Label → Sweep → Prop
  | stop (l : Label) : Next s n l .idle
  | begin : Next s n (.begin n false) (.next s.books.allTenantsWithWallets)
  | pass {l : Label} {todo : List String} (hp : s.sweeps n ≠ .idle) : Next s n l (.next todo)
  | wallet {tenantID : String} {todo : List String} {w : WalletRecord}
      (hp : s.sweeps n = .tenants (tenantID :: todo))
      (hw : s.books.getWalletForTenant tenantID = some w) (hl : w.lifecycleState = .active) :
      Next s n (.wallet n false) (.listing tenantID w todo)
  | list {tenantID : String} {todo : List String} {w : WalletRecord}
      (hp : s.sweeps n = .listing tenantID w todo) :
      Next s n (.list n false)
        (.resume (some w) (s.books.unappliedCostEntries s.costs tenantID) todo)
  | skip {wallet : Option WalletRecord} {ce : CostRow} {rest : List CostRow} {todo : List String}
      (f : Faults) (hp : s.sweeps n = .paying wallet (ce :: rest) todo) :
      Next s n (.pay n f) (.resume wallet rest todo)
  | refresh {walletID : String} {entries : List CostRow} {todo : List String} (failed : Bool)
      (hp : s.sweeps n = .refreshing walletID entries todo) :
      Next s n (.refresh n failed)
        (.resume (if failed then none else s.books.getWallet walletID) entries todo)

inductive Moves (s : State) : Label → State → Prop
  | rating {l : Rating.Label} {rating : Rating.State} (h : Rating.Moves s.rating l rating) :
      Moves s (.rating l) { s with rating }
  | reject (l : Label) : Moves s l s
  | create {req : CreateWalletRequest} {id : String} {now : Int} {w : WalletRecord}
      (hw : req.wallet id now = .ok w) (hid : s.books.getWallet w.id = none) :
      Moves s (.create req id now false)
        { s with books := { s.books with wallets := s.books.wallets.insert w } }
  | request {endpoint : Endpoint} {req : TopUp} {failed : Bool} (ha : 0 < req.amount)
      (hd : s.books.alreadyApplied failed req.walletID req.externalRef = false) :
      Moves s (.request endpoint req failed) { s with requests := s.requests ++ [req] }
  | creditFails {i : Nat} {f : Faults} {req : TopUp} (hr : s.requests[i]? = some req) :
      Moves s (.credit i f) { s with requests := s.requests.eraseIdx i }
  | credit {i : Nat} {f : Faults} {req : TopUp} {books : Books} {e : WalletLedgerEntry}
      (hr : s.requests[i]? = some req)
      (hc : s.books.ToppedUp req.walletID req.amount req.externalRef books e) :
      Moves s (.credit i f)
        { s with
          books,
          requests := s.requests.eraseIdx i,
          credited := s.credited ++ [req] }
  | sweep {n : Nat} {l : Label} {p : Sweep} (h : Next s n l p) : Moves s l (s.goto n p)
  | deduct {n : Nat} {f : Faults} {w : WalletRecord} {ce : CostRow} {rest : List CostRow}
      {todo : List String} {amount : Rat} {books : Books} {e : WalletLedgerEntry} {p : Sweep}
      (hs : s.sweeps n = .paying (some w) (ce :: rest) todo)
      (ht : turn (some w) ce = .deduct w amount)
      (hd : s.books.Deducted s.costs w.id ce.id amount books e)
      (hp : p = .refreshing w.id rest todo ∨
        f.commit = .answerLost ∧ p = .resume (some w) rest todo) :
      Moves s (.pay n f) ({ s with books }.goto n p)

theorem turn_deduct {wallet : Option WalletRecord} {ce : CostRow} {w : WalletRecord} {amount : Rat}
    (h : turn wallet ce = .deduct w amount) : wallet = some w ∧ 0 < amount ∧
      amount ≤ ce.remaining ∧ amount ≤ w.available ∧
      (amount = ce.remaining ∨ amount = w.available) := by
  unfold turn at h
  split at h
  · cases h
  rename_i hr
  cases wallet with
  | none => cases h
  | some v =>
    simp only at h
    split at h
    · cases h
    rename_i ha
    split at h
    · rename_i hlt
      cases h
      exact ⟨rfl,not_le.mp ha,hlt.le,le_rfl,.inr rfl⟩
    · rename_i hlt
      cases h
      exact ⟨rfl,not_le.mp hr,le_rfl,not_lt.mp hlt,.inl rfl⟩

theorem turn_skip {w : WalletRecord} {ce : CostRow} (h : turn (some w) ce = .skip) :
    ce.remaining ≤ 0 := by
  by_contra hpos
  unfold turn at h
  rw [if_neg hpos] at h
  simp only at h
  split at h <;> cases h

theorem turn_depleted {w : WalletRecord} {ce : CostRow} (h : turn (some w) ce = .depleted) :
    w.available ≤ 0 := by
  by_contra hpos
  unfold turn at h
  split at h
  · cases h
  · simp only [if_neg hpos] at h
    cases h

theorem turn_panic {wallet : Option WalletRecord} {ce : CostRow} (h : turn wallet ce = .panic) :
    wallet = none ∧ 0 < ce.remaining := by
  unfold turn at h
  split at h
  · cases h
  rename_i hpos
  cases wallet with
  | none => exact ⟨rfl,not_le.mp hpos⟩
  | some w =>
    simp only at h
    split at h <;> cases h

theorem turn_rich {w : WalletRecord} {ce : CostRow} (hw : 0 < w.available) (hce : 0 < ce.remaining) :
    turn (some w) ce = .deduct w (if ce.remaining > w.available then w.available else ce.remaining) := by
  simp [turn,not_le.mpr hce,not_le.mpr hw]

theorem moves_create (s : State) (req : CreateWalletRequest) (id : String) (now : Int)
    (failed : Bool) : Moves s (.create req id now failed) (s.create req id now failed) := by
  unfold State.create
  cases hw : req.wallet id now with
  | error e => exact .reject _
  | ok w =>
    cases failed with
    | true => exact .reject _
    | false =>
      simp only [Bool.false_eq_true,if_false,Books.createWallet]
      cases hf : s.books.wallets.find? w.id with
      | some v => exact .reject _
      | none => exact .create hw hf

theorem moves_request (s : State) (endpoint : Endpoint) (req : TopUp) (failed : Bool) :
    Moves s (.request endpoint req failed) (s.request endpoint req failed) := by
  unfold State.request
  cases hv : endpoint.validate req.amount with
  | error e => exact .reject _
  | ok u =>
    cases hd : s.books.alreadyApplied failed req.walletID req.externalRef with
    | true => exact .reject _
    | false => exact .request (Endpoint.validate_ok hv) hd

theorem moves_credit {s : State} {i : Nat} {req : TopUp} (f : Faults)
    (hr : s.requests[i]? = some req) : Moves s (.credit i f) (s.credit i f req) := by
  unfold State.credit
  rcases s.books.topUpWallet_cases f req.walletID req.amount req.externalRef with
    h | ⟨b,e,hc,h⟩
  · simp only [h,if_true]
    exact .creditFails hr
  · have hgrown : b.ledger ≠ s.books.ledger := by
      obtain ⟨w,w',hm,-⟩ := hc.moved
      simp [hm.ledger]
    rcases h with h | ⟨-,h⟩ <;> simp only [h,hgrown,if_false] <;> exact .credit hr hc

theorem moves_pay {s : State} {n : Nat} {wallet : Option WalletRecord} {ce : CostRow}
    {rest : List CostRow} {todo : List String} (f : Faults)
    (hp : s.sweeps n = .paying wallet (ce :: rest) todo) :
    Moves s (.pay n f) (s.pay n f wallet ce rest todo) := by
  unfold State.pay
  cases ht : turn wallet ce with
  | skip => exact .sweep (.skip f hp)
  | panic => exact .sweep (.stop _)
  | depleted => exact .sweep (.pass (by simp [hp]))
  | deduct w amount =>
    obtain ⟨rfl,-⟩ := turn_deduct ht
    rcases s.books.deductFromWallet_cases s.costs f w.id ce.id amount with h | ⟨b,e,hd,h | ⟨hf,h⟩⟩
    · simp only [h]
      exact .sweep (.skip f hp)
    · simp only [h]
      exact .deduct hp ht hd (.inl rfl)
    · simp only [h]
      exact .deduct hp ht hd (.inr ⟨hf,rfl⟩)

theorem step_moves {s t : State} {l : Label} (h : step s l = some t) : Moves s l t := by
  cases l with
  | rating l =>
    obtain ⟨r,hr,rfl⟩ := Option.map_eq_some_iff.mp h
    exact .rating (Rating.step_moves hr)
  | create req id now failed => cases h; exact moves_create s req id now failed
  | request endpoint req failed => cases h; exact moves_request s endpoint req failed
  | credit i f =>
    obtain ⟨req,hr,rfl⟩ := Option.map_eq_some_iff.mp h
    exact moves_credit f hr
  | begin n failed =>
    simp only [step] at h
    split at h
    · cases failed with
      | true => cases h; exact .sweep (.stop _)
      | false => cases h; exact .sweep .begin
    · cases h
  | wallet n failed =>
    simp only [step] at h
    split at h
    · rename_i tenantID todo hp
      cases hw : s.books.getWalletForTenant tenantID with
      | none =>
        rw [hw] at h
        cases h; exact .sweep (.pass (by simp [hp]))
      | some w =>
        rw [hw] at h
        by_cases hc : failed ∨ w.lifecycleState ≠ .active
        · simp only [hc,if_true,Option.some.injEq] at h
          rw [← h]
          exact .sweep (.pass (by simp [hp]))
        · simp only [hc,if_false,Option.some.injEq] at h
          rw [← h]
          obtain ⟨hf,hl⟩ := not_or.mp hc
          cases Bool.eq_false_iff.mpr hf
          exact .sweep (.wallet hp hw (not_not.mp hl))
    · cases h
  | list n failed =>
    simp only [step] at h
    split at h
    · rename_i hp
      cases failed with
      | true => cases h; exact .sweep (.pass (by simp [hp]))
      | false => cases h; exact .sweep (.list hp)
    · cases h
  | pay n f =>
    simp only [step] at h
    split at h
    · rename_i hp
      cases h; exact moves_pay f hp
    · cases h
  | refresh n failed =>
    simp only [step] at h
    split at h
    · rename_i hp
      cases h; exact .sweep (.refresh failed hp)
    · cases h
  | crash n => cases h; exact .sweep (.stop _)

def State.deduction (s : State) : Label → Option (WalletRecord × CostRow × Rat)
  | .pay n _ =>
    match s.sweeps n with
    | .paying wallet (ce :: _) _ =>
      match turn wallet ce with
      | .deduct w amount => some (w,ce,amount)
      | _ => none
    | _ => none
  | _ => none

theorem deduction_eq {s : State} {n : Nat} {w : WalletRecord} {ce : CostRow} {rest : List CostRow}
    {todo : List String} {amount : Rat} (f : Faults)
    (hp : s.sweeps n = .paying (some w) (ce :: rest) todo)
    (ht : turn (some w) ce = .deduct w amount) :
    s.deduction (.pay n f) = some (w,ce,amount) := by
  simp [State.deduction,hp,ht]

/-- The machine starts without wallets, whatever was metered and rated before. -/
def initial (s : State) : Prop :=
  s.books.wallets.rows = [] ∧ s.books.ledger = [] ∧ (∀ id, s.books.applied id = 0) ∧
    (∀ n, s.sweeps n = .idle) ∧ s.requests = [] ∧ s.credited = []

def CostRow.Of (costs : List CostEntry) (r : CostRow) : Prop :=
  ∃ i e, costs[i]? = some e ∧ r.id = i+1 ∧
    r.toCostEntry = { e with costAmount := stored 10 e.costAmount }

theorem CostRow.Of.append {costs : List CostEntry} {r : CostRow} (h : r.Of costs)
    (new : List CostEntry) : r.Of (costs ++ new) := by
  obtain ⟨i,e,hi,hid,he⟩ := h
  exact ⟨i,e,List.getElem?_append_left (List.getElem?_eq_some_iff.mp hi).1 ▸ hi,hid,he⟩

theorem CostRow.Of.of_append {costs new : List CostEntry} {r : CostRow} (h : r.Of (costs ++ new)) :
    r.Of costs ∨ costs.length < r.id ∧ ∃ e ∈ new, r.tenantID = e.tenantID := by
  obtain ⟨i,e,hi,hid,he⟩ := h
  by_cases hlt : i < costs.length
  · rw [List.getElem?_append_left hlt] at hi
    exact .inl ⟨i,e,hi,hid,he⟩
  · rw [List.getElem?_append_right (not_lt.mp hlt)] at hi
    exact .inr ⟨by omega,e,List.mem_of_getElem? hi,by rw [he]⟩

theorem CostRow.Of.id_mem {costs : List CostEntry} {r : CostRow} (h : r.Of costs) :
    0 < r.id ∧ r.id ≤ costs.length := by
  obtain ⟨i,e,hi,hid,-⟩ := h
  have := (List.getElem?_eq_some_iff.mp hi).1
  omega

theorem CostRow.Of.entry_eq {costs : List CostEntry} {r r' : CostRow} (h : r.Of costs)
    (h' : r'.Of costs) (hid : r.id = r'.id) : r.toCostEntry = r'.toCostEntry := by
  obtain ⟨i,e,hi,hr,he⟩ := h
  obtain ⟨j,e',hj,hr',he'⟩ := h'
  obtain rfl : i = j := by omega
  rw [hi,Option.some.injEq] at hj
  rw [he,he',hj]

namespace Books

theorem mem_costRows {b : Books} {costs : List CostEntry} {r : CostRow} :
    r ∈ b.costRows costs ↔ r.Of costs ∧ r.walletApplied = b.applied r.id := by
  simp only [costRows,List.mem_mapIdx,costRow]
  constructor
  · rintro ⟨i,hi,rfl⟩
    exact ⟨⟨i,_,List.getElem?_eq_getElem hi,rfl,rfl⟩,rfl⟩
  · rintro ⟨⟨i,e,hi,hid,he⟩,ha⟩
    obtain ⟨hlt,hget⟩ := List.getElem?_eq_some_iff.mp hi
    refine ⟨i,hlt,?_⟩
    cases r
    simp_all

theorem mem_unapplied {b : Books} {costs : List CostEntry} {tenantID : String} {r : CostRow} :
    r ∈ b.unappliedCostEntries costs tenantID ↔
      r ∈ b.costRows costs ∧ r.tenantID = tenantID ∧ r.walletApplied.value < r.costAmount := by
  simp [unappliedCostEntries]

end Books

/-- The cost entries a step of the rater writes, unless the insert fails. -/
def written (s : Rating.State) : Rating.Label → List CostEntry
  | .insert _ =>
    match s.phase with
    | .pricing w => w.batch.costEntries
    | _ => []
  | _ => []

theorem costs_written {s t : Rating.State} {l : Rating.Label} (h : Rating.Moves s l t) :
    t.store.costEntries = s.store.costEntries ∨
      t.store.costEntries = s.store.costEntries ++ written s l := by
  cases h with
  | insert hp ht hc =>
    rw [written,hp]
    exact .inr rfl
  | _ => exact .inl rfl

theorem costs_grow {s t : Rating.State} {l : Rating.Label} (h : Rating.Moves s l t) :
    ∃ new, t.store.costEntries = s.store.costEntries ++ new := by
  rcases costs_written h with h | h
  · exact ⟨[],by rw [h,List.append_nil]⟩
  · exact ⟨_,h⟩

theorem Next.entries {s : State} {n : Nat} {l : Label} {p : Sweep} (h : Next s n l p) {r : CostRow}
    (hr : r ∈ p.entries) : r ∈ (s.sweeps n).entries ∨
      ∃ tenantID, r ∈ s.books.unappliedCostEntries s.costs tenantID := by
  cases h with
  | stop l => cases hr
  | begin => simp at hr
  | pass hp => simp at hr
  | wallet hp hw hl => cases hr
  | list hp => exact .inr ⟨_,by simpa using hr⟩
  | skip f hp =>
    rw [Sweep.entries_resume] at hr
    rw [hp]
    exact .inl (List.mem_cons_of_mem _ hr)
  | refresh failed hp =>
    rw [Sweep.entries_resume] at hr
    rw [hp]
    exact .inl hr

@[simp] theorem goto_books (s : State) (n : Nat) (p : Sweep) : (s.goto n p).books = s.books := rfl

@[simp] theorem goto_sweeps (s : State) (n m : Nat) (p : Sweep) :
    (s.goto n p).sweeps m = if m = n then p else s.sweeps m := by
  simp [State.goto,Function.update_apply]

theorem Moves.keeps {s t : State} {l : Label} (h : Moves s l t) {id : String} {v : WalletRecord}
    (hv : s.books.getWallet id = some v) : ∃ v', t.books.getWallet id = some v' ∧ v'.Same v := by
  cases h with
  | @create req id' now w hw hid =>
    have hfind := Table.find?_insert hid id
    rw [if_neg (fun heq => by rw [heq,hv] at hid; cases hid)] at hfind
    exact ⟨v,hfind.trans hv,.refl v⟩
  | credit hr hc =>
    obtain ⟨w,w',hm,-⟩ := hc.moved
    exact hm.keeps hv
  | deduct hp ht hd hnext =>
    obtain ⟨w,w',hm,-⟩ := hd.moved
    exact hm.keeps hv
  | _ => exact ⟨v,hv,.refl v⟩

theorem Moves.grows {s t : State} {l : Label} (h : Moves s l t) {r : CostRow} (hr : r.Of s.costs) :
    r.Of t.costs := by
  cases h with
  | rating h =>
    obtain ⟨new,hnew⟩ := costs_grow h
    exact State.costs.eq_1 _ ▸ hnew ▸ hr.append new
  | _ => exact hr

theorem entries_paid {w : WalletRecord} {rest : List CostRow} {todo : List String} {p : Sweep}
    {c : Prop} (h : p = .refreshing w.id rest todo ∨ c ∧ p = .resume (some w) rest todo) :
    p.entries = rest := by
  rcases h with rfl | ⟨-,rfl⟩
  · rfl
  · exact Sweep.entries_resume _ _ _

/-- Whatever a sweep has in hand is a row of the table. -/
def Read (s : State) : Prop := ∀ n, ∀ r ∈ (s.sweeps n).entries, r.Of s.costs

theorem Read.head {s : State} {n : Nat} {wallet : Option WalletRecord} {ce : CostRow}
    {rest : List CostRow} {todo : List String} (h : Read s)
    (hp : s.sweeps n = .paying wallet (ce :: rest) todo) : ce.Of s.costs :=
  h n ce (by rw [hp]; exact List.mem_cons_self)

theorem step_read {s t : State} {l : Label} (h : Moves s l t) (hs : Read s) : Read t := by
  have hold : ∀ n, ∀ r ∈ (s.sweeps n).entries, r.Of t.costs := fun n r hr => h.grows (hs n r hr)
  cases h with
  | @sweep n l p h =>
    intro m r hr
    rw [goto_sweeps] at hr
    split at hr
    · rcases h.entries hr with hr | ⟨tenantID,hr⟩
      · exact hs n r hr
      · exact (Books.mem_costRows.mp (Books.mem_unapplied.mp hr).1).1
    · exact hs m r hr
  | @deduct n f w ce rest todo amount books e p hp ht hd hnext =>
    intro m r hr
    rw [goto_sweeps] at hr
    split at hr
    · rw [entries_paid hnext] at hr
      refine hs n r ?_
      rw [hp]
      exact List.mem_cons_of_mem _ hr
    · exact hs m r hr
  | _ => exact hold

theorem run_read {init : State → Prop} {ok : State → Label → Prop} {s : State}
    (hi : ∀ s, init s → ∀ n, s.sweeps n = .idle) (h : Reachable step init ok s) : Read s := by
  refine h.invariant (fun s h₀ n r hr => ?_) (fun s l t hs _ hst => step_read (step_moves hst) hs)
  rw [hi s h₀ n] at hr
  cases hr

theorem reachable_read {ok : State → Label → Prop} {s : State} (h : Reachable step initial ok s) :
    Read s := run_read (fun _ hi => hi.2.2.2.1) h

/-- The machine with nothing metered or rated either. -/
def empty (s : State) : Prop := initial s ∧ Rating.initial s.rating

def opening (price : Rat) (currency : String) : State where
  rating :=
    ⟨{ rates := [{ Rating.freeTier with tiers := [], pricePerUnit := price, currency }] },
      1,[],.idle,[],[]⟩
  books := {}
  sweeps := fun _ => .idle
  requests := []
  credited := []

theorem opening_empty (price : Rat) (currency : String) : empty (opening price currency) :=
  ⟨⟨rfl,rfl,fun _ => rfl,fun _ => rfl,rfl,rfl⟩,⟨rfl,rfl,rfl,rfl,rfl,rfl⟩⟩

def chargeToken : List Label :=
  [.rating (.allocate (Rating.tokens 0 1 0 1)),.rating (.commit 1),
    .rating (.begin ⟨10,by decide,none⟩ 0 false),.rating (.fetch false),.rating (.price {}),
    .rating (.insert false),.rating (.mark false 0)]

def fundWallet (amount : Rat) : List Label :=
  [.create ⟨"t","","USD",[]⟩ "w" 0 false,.request .topUp ⟨"w",amount,"r"⟩ false,.credit 0 {}]

def payOnce (n : Nat) : List Label :=
  [.begin n false,.wallet n false,.list n false,.pay n {},.refresh n false]

end CostConsumer.Wallet
