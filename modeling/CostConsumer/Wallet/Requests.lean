import CostConsumer.Wallet.Ledger
set_option autoImplicit false

namespace CostConsumer.Wallet
open Inventory Foundation Numeric

def TopUp.carries (walletID externalRef : String) (req : TopUp) : Bool :=
  req.walletID = walletID && req.externalRef = externalRef

def WalletLedgerEntry.carries (walletID externalRef : String) (e : WalletLedgerEntry) : Bool :=
  e.entryType = .topUp && e.walletID = walletID && e.externalRef = some externalRef

namespace State

def topUpRows (s : State) (walletID externalRef : String) : Nat :=
  s.books.ledger.countP (WalletLedgerEntry.carries walletID externalRef)

def credits (s : State) (walletID externalRef : String) : Nat :=
  s.credited.countP (TopUp.carries walletID externalRef)

/-- The requests between their check and their transaction. -/
def underWay (s : State) (walletID externalRef : String) : Nat :=
  s.requests.countP (TopUp.carries walletID externalRef)

end State

/-- The check of a request succeeds, and no other one with its reference is
between check and transaction. -/
def oneAtATime (s : State) : Label → Bool
  | .request _ req failed =>
    req.externalRef = "" || !failed && s.underWay req.walletID req.externalRef = 0
  | _ => true

theorem no_rows_of_check {s : State} {walletID externalRef : String} (hne : externalRef ≠ "")
    (h : s.books.alreadyApplied false walletID externalRef = false) :
    s.topUpRows walletID externalRef = 0 := by
  simp only [Books.alreadyApplied,hne,ne_eq,not_false_eq_true,decide_true,Bool.not_false,
    Bool.true_and,List.any_eq_false,Bool.and_eq_true,decide_eq_true_eq] at h
  rw [State.topUpRows,List.countP_eq_zero]
  intro e he hc
  simp only [WalletLedgerEntry.carries,Bool.and_eq_true,decide_eq_true_eq] at hc
  exact h e he ⟨hc.1.2,hc.2⟩

theorem countP_eraseIdx {α : Type} {l : List α} {i : Nat} {a : α} (p : α → Bool)
    (h : l[i]? = some a) : l.countP p = (l.eraseIdx i).countP p + if p a = true then 1 else 0 := by
  obtain ⟨hi,ha⟩ := List.getElem?_eq_some_iff.mp h
  have hperm := (List.getElem_cons_eraseIdx_perm hi).countP_eq p
  rw [← hperm,List.countP_cons,ha]

/-- One row for every credit, and for every reference at most one request that
could add another. -/
structure Filed (s : State) : Prop where
  rows : ∀ walletID externalRef, s.topUpRows walletID externalRef = s.credits walletID externalRef
  once : ∀ walletID externalRef, externalRef ≠ "" →
    s.topUpRows walletID externalRef + s.underWay walletID externalRef ≤ 1

theorem filed_credit {s : State} {i : Nat} {req : TopUp} {books : Books} {e : WalletLedgerEntry}
    (hr : s.requests[i]? = some req)
    (hc : s.books.ToppedUp req.walletID req.amount req.externalRef books e) (hs : Filed s) :
    Filed { s with books, requests := s.requests.eraseIdx i, credited := s.credited ++ [req] } := by
  obtain ⟨w,w',hm,-⟩ := hc.moved
  obtain ⟨hid,htype,-,-,href⟩ := hc.entry
  have hcarries : ∀ walletID externalRef,
      e.carries walletID externalRef = req.carries walletID externalRef := by
    intro walletID externalRef
    simp [WalletLedgerEntry.carries,TopUp.carries,hid,htype,href]
  constructor
  · intro walletID externalRef
    have := hs.rows walletID externalRef
    simp only [State.topUpRows,State.credits,hm.ledger,List.countP_append,List.countP_singleton,
      hcarries] at this ⊢
    rw [this]
  · intro walletID externalRef hne
    have hone := hs.once walletID externalRef hne
    have herase := countP_eraseIdx (TopUp.carries walletID externalRef) hr
    simp only [State.topUpRows,State.underWay,hm.ledger,List.countP_append,List.countP_singleton,
      hcarries] at hone ⊢
    omega

theorem step_filed {s t : State} {l : Label} (h : Moves s l t) (hl : oneAtATime s l = true)
    (hs : Filed s) : Filed t := by
  cases h with
  | @request endpoint req failed ha hd =>
    refine ⟨hs.rows,fun walletID externalRef hne => ?_⟩
    have hone := hs.once walletID externalRef hne
    simp only [State.topUpRows,State.underWay,List.countP_append,List.countP_singleton] at hone ⊢
    by_cases hc : req.carries walletID externalRef = true
    · -- the check has found no row, and nobody else is under way
      have heq := hc
      simp only [TopUp.carries,Bool.and_eq_true,decide_eq_true_eq] at heq
      obtain ⟨rfl,rfl⟩ := heq
      simp only [oneAtATime,hne,decide_false,Bool.false_or,Bool.and_eq_true,Bool.not_eq_true',
        decide_eq_true_eq] at hl
      obtain ⟨rfl,hnone⟩ := hl
      have hrows := no_rows_of_check hne hd
      simp only [State.topUpRows,State.underWay] at hrows hnone
      rw [if_pos hc]
      omega
    · rw [if_neg hc]
      omega
  | @creditFails i f req hr =>
    refine ⟨hs.rows,fun walletID externalRef hne => ?_⟩
    have hone := hs.once walletID externalRef hne
    have herase := countP_eraseIdx (TopUp.carries walletID externalRef) hr
    simp only [State.topUpRows,State.underWay] at hone ⊢
    omega
  | credit hr hc => exact filed_credit hr hc hs
  | @deduct n f w ce rest todo amount books e p hp ht hd hnext =>
    obtain ⟨v,v',hm,-⟩ := hd.moved
    obtain ⟨-,htype,-⟩ := hd.entry
    have hrows : ∀ walletID externalRef, State.topUpRows ({ s with books }.goto n p) walletID
        externalRef = s.topUpRows walletID externalRef := by
      intro walletID externalRef
      simp [State.topUpRows,hm.ledger,WalletLedgerEntry.carries,htype]
    constructor
    · intro walletID externalRef
      rw [hrows]
      exact hs.rows walletID externalRef
    · intro walletID externalRef hne
      rw [hrows]
      exact hs.once walletID externalRef hne
  | _ => exact ⟨hs.rows,hs.once⟩

/-- As long as requests with one reference come one at a time and their checks
succeed, a reference is credited at most once. -/
theorem topUp_once {s : State} (h : Reachable step initial (fun s l => oneAtATime s l = true) s)
    (walletID : String) {externalRef : String} (hne : externalRef ≠ "") :
    s.topUpRows walletID externalRef ≤ 1 ∧ s.credits walletID externalRef ≤ 1 := by
  have hs : Filed s := by
    refine h.invariant (fun s hi => ?_) (fun s l t hs hl hst => step_filed (step_moves hst) hl hs)
    obtain ⟨-,hledger,-,-,hreq,hcred⟩ := hi
    constructor
    · intro walletID externalRef
      rw [State.topUpRows,State.credits,hledger,hcred]
      rfl
    · intro walletID externalRef _
      rw [State.topUpRows,State.underWay,hledger,hreq]
      exact Nat.zero_le 1
  have hrows := hs.rows walletID externalRef
  have hone := hs.once walletID externalRef hne
  omega

theorem topUp_once_in_run :
    ∃ s, Reachable step initial (fun s l => oneAtATime s l = true) s ∧
      s.topUpRows "w" "r" = 1 ∧ s.topUpRows "w" "r" ≤ 1 ∧ s.credits "w" "r" ≤ 1 := by
  obtain ⟨s,hs,hp⟩ := Reachable.exists_of_checked step initial oneAtATime (opening 1 "USD")
    (fundWallet 10 ++ [.request .topUp ⟨"w",10,"r"⟩ false])
    (fun s => s.topUpRows "w" "r" = 1) (fun _ _ h => h) (opening_empty _ _).1 (by decide +kernel)
  exact ⟨s,hs,hp,topUp_once hs "w" (by decide)⟩

/-- A request that is sent twice: both copies pass the check before the first
transaction; or the check of the second one fails and counts as passed. -/
theorem topUp_twice :
    (∃ s, Reachable step empty anyStep s ∧
      s.topUpRows "w" "r" = 2 ∧ s.credits "w" "r" = 2 ∧
        s.books.wallets.rows.map (·.balance.value) = [20]) ∧
    ∃ s, Reachable step empty anyStep s ∧
      s.topUpRows "w" "r" = 2 ∧ s.credits "w" "r" = 2 ∧
        s.books.wallets.rows.map (·.balance.value) = [20] := by
  constructor
  · exact Reachable.exists_of_run step empty (opening 1 "USD")
      [.create ⟨"t","","USD",[]⟩ "w" 0 false,.request .topUp ⟨"w",10,"r"⟩ false,
        .request .topUp ⟨"w",10,"r"⟩ false,.credit 0 {},.credit 0 {}] _ (opening_empty _ _)
      (by decide +kernel)
  · exact Reachable.exists_of_run step empty (opening 1 "USD")
      (fundWallet 10 ++ [.request .topUp ⟨"w",10,"r"⟩ true,.credit 0 {}]) _ (opening_empty _ _)
      (by decide +kernel)

end CostConsumer.Wallet
