import CostConsumer.Foundation.Newest
import CostConsumer.Ingest.Machine
import CostConsumer.Inventory.Store
set_option autoImplicit false

/-!
Wallets and their ledger: the tables, the statements and the two transactions
that move money. A transaction holds the lock of its wallet's row from its first
statement on, so transactions on one wallet take effect one after another.
-/

namespace CostConsumer.Wallet
open Inventory Foundation Numeric

abbrev Money := Column 18 6

inductive LifecycleState where
  | active : LifecycleState
  | frozen : LifecycleState
  | closed : LifecycleState
  deriving DecidableEq, Repr

structure WalletRecord where
  id : String
  tenantID : String
  projectID : String
  currency : String
  balance : Money
  balanceFloor : Money
  referenceBalance : Money
  lifecycleState : LifecycleState
  thresholds : List Rat
  createdAt : Int
  deriving DecidableEq

/-- Two rows of one wallet, apart from its money. -/
def WalletRecord.Same (v w : WalletRecord) : Prop :=
  v = { w with balance := v.balance, referenceBalance := v.referenceBalance }

theorem WalletRecord.Same.congr {α : Type} {v w : WalletRecord} (h : v.Same w) (f : WalletRecord → α)
    (hf : ∀ w b r, f { w with balance := b, referenceBalance := r } = f w) : f v = f w := by
  unfold Same at h
  rw [h,hf]

theorem WalletRecord.Same.id {v w : WalletRecord} (h : v.Same w) : v.id = w.id :=
  h.congr _ (fun _ _ _ => rfl)

theorem WalletRecord.Same.tenantID {v w : WalletRecord} (h : v.Same w) : v.tenantID = w.tenantID :=
  h.congr _ (fun _ _ _ => rfl)

theorem WalletRecord.Same.balanceFloor {v w : WalletRecord} (h : v.Same w) :
    v.balanceFloor = w.balanceFloor := h.congr _ (fun _ _ _ => rfl)

theorem WalletRecord.Same.refl (w : WalletRecord) : w.Same w := rfl

theorem WalletRecord.Same.trans {u v w : WalletRecord} (h : u.Same v) (h' : v.Same w) : u.Same w := by
  unfold Same at h h' ⊢
  rw [h,h']

inductive EntryType where
  | topUp : EntryType
  | deduction : EntryType
  deriving DecidableEq, Repr

structure WalletLedgerEntry where
  walletID : String
  entryType : EntryType
  amount : Money
  balanceAfter : Money
  currency : String
  costEntryID : Option Nat
  externalRef : Option String
  deriving DecidableEq

structure CostRow extends CostEntry where
  id : Nat
  walletApplied : Money
  deriving DecidableEq

/-- The ledger is kept in the order of its ids. `applied` is the column
`wallet_applied` of the cost entry with an id; entries are numbered from 1. -/
structure Books where
  wallets : Table String WalletRecord (·.id) := .empty
  ledger : List WalletLedgerEntry := []
  applied : Nat → Money := fun _ => 0

namespace Books

def createWallet (b : Books) (w : WalletRecord) : Option Books :=
  if (b.wallets.find? w.id).isSome then none else some { b with wallets := b.wallets.insert w }

def getWallet (b : Books) (id : String) : Option WalletRecord := b.wallets.find? id

def activeOf (b : Books) (tenantID : String) : List WalletRecord :=
  b.wallets.rows.filter (fun w => w.tenantID = tenantID && w.lifecycleState = .active)

def getWalletForTenant (b : Books) (tenantID : String) : Option WalletRecord :=
  newest (·.createdAt) (b.activeOf tenantID)

def allTenantsWithWallets (b : Books) : List String :=
  ((b.wallets.rows.filter (fun w => w.lifecycleState = .active)).map (·.tenantID)).dedup

def costRow (b : Books) (id : Nat) (e : CostEntry) : CostRow :=
  { e with costAmount := stored 10 e.costAmount, id, walletApplied := b.applied id }

def costRows (b : Books) (costs : List CostEntry) : List CostRow :=
  costs.mapIdx (fun i e => b.costRow (i+1) e)

def unappliedCostEntries (b : Books) (costs : List CostEntry) (tenantID : String) : List CostRow :=
  ((b.costRows costs).filter (fun r => r.tenantID = tenantID &&
    r.walletApplied.value < r.costAmount)).insertionSort (fun r r' => r.periodStart ≤ r'.periodStart)

theorem replace_id (w v : WalletRecord) : (if v.id = w.id then w else v).id = v.id := by
  split
  · rename_i h
    exact h.symm
  · rfl

def setWallet (b : Books) (w : WalletRecord) : Books :=
  { b with wallets := b.wallets.update (fun v => if v.id = w.id then w else v) (replace_id w) }

def credit (walletID : String) (amount : Rat) (b : Books) : Option (Books × Money) := do
  let w ← b.getWallet walletID
  let balance ← Column.store (w.balance.value + amount)
  let referenceBalance ← Column.store (w.referenceBalance.value + amount)
  return (b.setWallet { w with balance, referenceBalance },balance)

def debit (walletID : String) (amount : Rat) (b : Books) : Option (Books × Money) := do
  let w ← b.getWallet walletID
  guard (w.lifecycleState = .active)
  let balance ← Column.store (w.balance.value - amount)
  return (b.setWallet { w with balance },balance)

def applyCost (costs : List CostEntry) (costEntryID : Nat) (amount : Rat) (b : Books) :
    Option (Books × Unit) :=
  if 0 < costEntryID ∧ costEntryID ≤ costs.length then do
    let a ← Column.store ((b.applied costEntryID).value + amount)
    return ({ b with applied := Function.update b.applied costEntryID a },())
  else some (b,())

def record (walletID : String) (entryType : EntryType) (amount : Rat) (balanceAfter : Money)
    (costEntryID : Option Nat) (externalRef : Option String) (b : Books) :
    Option (Books × WalletLedgerEntry) := do
  let w ← b.getWallet walletID
  let amount ← Column.store amount
  let entry : WalletLedgerEntry :=
    ⟨walletID,entryType,amount,balanceAfter,w.currency,costEntryID,externalRef⟩
  return ({ b with ledger := b.ledger ++ [entry] },entry)

end Books

/-- A transaction with its view of the tables. After a failed statement every
other one fails too. -/
structure Tx where
  view : Books
  aborted : Bool := false

def Tx.exec {α : Type} (tx : Tx) (failed : Bool) (statement : Books → Option (Books × α)) :
    Tx × Option α :=
  if tx.aborted then (tx,none)
  else if failed then ({ tx with aborted := true },none)
  else match statement tx.view with
    | none => ({ tx with aborted := true },none)
    | some (view,a) => ({ tx with view },some a)

/-- The tables after a commit, and the entry unless the commit reports an error. -/
def Tx.commit (tx : Tx) (b : Books) (outcome : Ingest.CommitOutcome) (entry : WalletLedgerEntry) :
    Books × Option WalletLedgerEntry :=
  match outcome with
  | .committed => (tx.view,some entry)
  | .refused => (b,none)
  | .answerLost => (tx.view,none)

/-- Which statements of a transaction fail, and how its commit ends. -/
structure Faults where
  begin : Bool := false
  update : Bool := false
  apply : Bool := false
  insert : Bool := false
  commit : Ingest.CommitOutcome := .committed
  deriving DecidableEq

namespace Books

/-- The check of `TopUpWallet`, which runs outside the transaction: an error
counts as no such row. -/
def alreadyApplied (b : Books) (failed : Bool) (walletID externalRef : String) : Bool :=
  externalRef ≠ "" && !failed &&
    b.ledger.any (fun e => e.walletID = walletID && e.externalRef = some externalRef)

def topUpWallet (b : Books) (f : Faults) (walletID : String) (amount : Rat) (externalRef : String) :
    Books × Option WalletLedgerEntry :=
  if f.begin then (b,none)
  else match Tx.exec ⟨b,false⟩ f.update (credit walletID amount) with
    | (_,none) => (b,none)
    | (tx,some newBalance) =>
      match tx.exec f.insert (record walletID .topUp amount newBalance none (some externalRef)) with
      | (_,none) => (b,none)
      | (tx,some entry) => tx.commit b f.commit entry

def deductFromWallet (b : Books) (costs : List CostEntry) (f : Faults) (walletID : String)
    (costEntryID : Nat) (amount : Rat) : Books × Option WalletLedgerEntry :=
  if f.begin then (b,none)
  else match Tx.exec ⟨b,false⟩ f.update (debit walletID amount) with
    | (_,none) => (b,none)
    | (tx,some newBalance) =>
      -- the error of this statement is not looked at
      let (tx,_) := tx.exec f.apply (applyCost costs costEntryID amount)
      match tx.exec f.insert
          (record walletID .deduction (-amount) newBalance (some costEntryID) none) with
      | (_,none) => (b,none)
      | (tx,some entry) => tx.commit b f.commit entry

end Books

theorem Tx.exec_some {α : Type} {tx tx' : Tx} {failed : Bool}
    {statement : Books → Option (Books × α)} {a : α} (h : tx.exec failed statement = (tx',some a)) :
    tx.aborted = false ∧ failed = false ∧ statement tx.view = some (tx'.view,a) := by
  unfold exec at h
  split at h
  · cases h
  · rename_i ha
    split at h
    · cases h
    · rename_i hf
      cases hs : statement tx.view with
      | none => simp [hs] at h
      | some v =>
        simp only [hs,Prod.mk.injEq,Option.some.injEq] at h
        obtain ⟨rfl,rfl⟩ := h
        exact ⟨by simpa using ha,by simpa using hf,rfl⟩

theorem Tx.exec_none {α : Type} {tx : Tx} {failed : Bool} {statement : Books → Option (Books × α)}
    (h : (tx.exec failed statement).2 = none) : (tx.exec failed statement).1.aborted = true := by
  unfold exec at h ⊢
  split
  · assumption
  · rename_i ha
    rw [if_neg ha] at h
    split
    · rfl
    · rename_i hf
      rw [if_neg hf] at h
      cases hs : statement tx.view with
      | none => rfl
      | some v => simp [hs] at h

namespace Books

def post (b : Books) (w : WalletRecord) (e : WalletLedgerEntry) : Books :=
  { b.setWallet w with ledger := b.ledger ++ [e] }

inductive ToppedUp (b : Books) (walletID : String) (amount : Rat) (externalRef : String) :
    Books → WalletLedgerEntry → Prop
  | intro {w : WalletRecord} {balance referenceBalance a : Money}
      (hw : b.getWallet walletID = some w)
      (hb : balance.value = stored 6 (w.balance.value + amount))
      (hr : referenceBalance.value = stored 6 (w.referenceBalance.value + amount))
      (ha : a.value = stored 6 amount) :
      ToppedUp b walletID amount externalRef
        (b.post { w with balance, referenceBalance }
          ⟨walletID,.topUp,a,balance,w.currency,none,some externalRef⟩)
        ⟨walletID,.topUp,a,balance,w.currency,none,some externalRef⟩

inductive Deducted (b : Books) (costs : List CostEntry) (walletID : String) (costEntryID : Nat)
    (amount : Rat) : Books → WalletLedgerEntry → Prop
  | intro {w : WalletRecord} {balance a c : Money}
      (hw : b.getWallet walletID = some w)
      (hl : w.lifecycleState = .active)
      (hb : balance.value = stored 6 (w.balance.value - amount))
      (hc : 0 < costEntryID ∧ costEntryID ≤ costs.length →
        c.value = stored 6 ((b.applied costEntryID).value + amount))
      (ha : a.value = stored 6 (-amount)) :
      Deducted b costs walletID costEntryID amount
        { b.post { w with balance }
            ⟨walletID,.deduction,a,balance,w.currency,some costEntryID,none⟩ with
          applied := Function.update b.applied costEntryID c }
        ⟨walletID,.deduction,a,balance,w.currency,some costEntryID,none⟩

theorem getWallet_setWallet (b : Books) (w : WalletRecord) (id : String) :
    (b.setWallet w).getWallet id = (b.getWallet id).map (fun v => if v.id = w.id then w else v) :=
  b.wallets.find?_update _ (replace_id w) id

theorem getWallet_id {b : Books} {id : String} {w : WalletRecord} (h : b.getWallet id = some w) :
    w.id = id := (Table.find?_eq_some.mp h).2

theorem getWallet_mem {b : Books} {id : String} {w : WalletRecord} (h : b.getWallet id = some w) :
    w ∈ b.wallets.rows := (Table.find?_eq_some.mp h).1

theorem getWallet_of_mem {b : Books} {w : WalletRecord} (h : w ∈ b.wallets.rows) :
    b.getWallet w.id = some w := Table.find?_eq_some.mpr ⟨h,rfl⟩

theorem getWalletForTenant_some {b : Books} {tenantID : String} {w : WalletRecord}
    (h : b.getWalletForTenant tenantID = some w) :
    w ∈ b.wallets.rows ∧ w.tenantID = tenantID ∧ w.lifecycleState = .active := by
  simpa only [activeOf,List.mem_filter,Bool.and_eq_true,decide_eq_true_eq] using mem_of_newest h

/-- A movement of money: the row of one wallet changes and the ledger grows by one
row. -/
structure Moved (b b' : Books) (w w' : WalletRecord) (e : WalletLedgerEntry) : Prop where
  found : b.getWallet w'.id = some w
  wallets : b'.wallets = (b.setWallet w').wallets
  ledger : b'.ledger = b.ledger ++ [e]
  entry : e.walletID = w'.id
  after : e.balanceAfter = w'.balance
  kept : w'.Same w

namespace Moved
variable {b b' : Books} {w w' v : WalletRecord} {e : WalletLedgerEntry}

theorem eq_of_found (h : Moved b b' w w' e) (hv : b.getWallet w'.id = some v) : v = w :=
  Option.some.inj (hv.symm.trans h.found)

theorem getWallet (h : Moved b b' w w' e) (id : String) :
    b'.getWallet id = if id = w'.id then some w' else b.getWallet id := by
  have hset := b.getWallet_setWallet w' id
  rw [Books.getWallet,← h.wallets] at hset
  rw [Books.getWallet,hset]
  by_cases hid : id = w'.id
  · rw [if_pos hid,hid,h.found,Option.map_some,if_pos (getWallet_id h.found)]
  · rw [if_neg hid]
    cases hv : b.getWallet id with
    | none => rfl
    | some v => rw [Option.map_some,if_neg (by rw [getWallet_id hv]; exact hid)]

theorem mem (h : Moved b b' w w' e) (hv : v ∈ b'.wallets.rows) :
    v = w' ∨ v ∈ b.wallets.rows ∧ v.id ≠ w'.id := by
  have hget := h.getWallet v.id
  rw [getWallet_of_mem hv] at hget
  split at hget
  · exact .inl (Option.some.inj hget)
  · rename_i hne
    exact .inr ⟨getWallet_mem hget.symm,hne⟩

theorem keeps (h : Moved b b' w w' e) {id : String} (hv : b.getWallet id = some v) :
    ∃ v', b'.getWallet id = some v' ∧ v'.Same v := by
  rw [h.getWallet]
  by_cases hid : id = w'.id
  · rw [hid] at hv
    exact ⟨w',if_pos hid,h.eq_of_found hv ▸ h.kept⟩
  · exact ⟨v,(if_neg hid).trans hv,.refl v⟩

end Moved

section Effects
variable {b b' : Books} {costs : List CostEntry} {walletID externalRef : String} {costEntryID : Nat}
  {amount : Rat} {e : WalletLedgerEntry}

theorem ToppedUp.moved (h : b.ToppedUp walletID amount externalRef b' e) :
    ∃ w w', Moved b b' w w' e ∧ w'.id = walletID ∧
      w'.balance.value = stored 6 (w.balance.value + amount) ∧
      w'.referenceBalance.value = stored 6 (w.referenceBalance.value + amount) := by
  cases h with
  | intro hw hb hr ha =>
    have hid := getWallet_id hw
    exact ⟨_,_,⟨hid ▸ hw,rfl,rfl,hid.symm,rfl,rfl⟩,hid,hb,hr⟩

theorem ToppedUp.applied (h : b.ToppedUp walletID amount externalRef b' e) :
    b'.applied = b.applied := by
  cases h; rfl

theorem ToppedUp.entry (h : b.ToppedUp walletID amount externalRef b' e) :
    e.walletID = walletID ∧ e.entryType = .topUp ∧ e.amount.value = stored 6 amount ∧
      e.costEntryID = none ∧ e.externalRef = some externalRef := by
  cases h with
  | intro hw hb hr ha => exact ⟨rfl,rfl,ha,rfl,rfl⟩

theorem Deducted.moved (h : b.Deducted costs walletID costEntryID amount b' e) :
    ∃ w w', Moved b b' w w' e ∧ w'.id = walletID ∧ w.lifecycleState = .active ∧
      w'.balance.value = stored 6 (w.balance.value - amount) ∧
      w'.referenceBalance = w.referenceBalance := by
  cases h with
  | intro hw hl hb hc ha =>
    have hid := getWallet_id hw
    exact ⟨_,_,⟨hid ▸ hw,rfl,rfl,hid.symm,rfl,rfl⟩,hid,hl,hb,rfl⟩

theorem Deducted.applied (h : b.Deducted costs walletID costEntryID amount b' e)
    (hid : 0 < costEntryID ∧ costEntryID ≤ costs.length) :
    ∃ c, Column.value c = stored 6 ((b.applied costEntryID).value + amount) ∧
      b'.applied = Function.update b.applied costEntryID c := by
  cases h with
  | intro hw hl hb hc ha => exact ⟨_,hc hid,rfl⟩

theorem Deducted.entry (h : b.Deducted costs walletID costEntryID amount b' e) :
    e.walletID = walletID ∧ e.entryType = .deduction ∧ e.amount.value = stored 6 (-amount) ∧
      e.costEntryID = some costEntryID ∧ e.externalRef = none := by
  cases h with
  | intro hw hl hb hc ha => exact ⟨rfl,rfl,ha,rfl,rfl⟩

end Effects

section Transactions
variable {b b' : Books} {costs : List CostEntry} {walletID : String} {amount : Rat}

theorem credit_some {newBalance : Money} (h : b.credit walletID amount = some (b',newBalance)) :
    ∃ w r, b.getWallet walletID = some w ∧
      newBalance.value = stored 6 (w.balance.value + amount) ∧
      Column.value r = stored 6 (w.referenceBalance.value + amount) ∧
      b' = b.setWallet { w with balance := newBalance, referenceBalance := r } := by
  simp only [credit,bind,Option.bind_eq_some_iff,pure,Option.some.injEq,Prod.mk.injEq] at h
  obtain ⟨w,hw,balance,hb,r,hr,rfl,rfl⟩ := h
  exact ⟨w,r,hw,Column.value_of_store hb,Column.value_of_store hr,rfl⟩

theorem debit_some {newBalance : Money} (h : b.debit walletID amount = some (b',newBalance)) :
    ∃ w, b.getWallet walletID = some w ∧ w.lifecycleState = .active ∧
      newBalance.value = stored 6 (w.balance.value - amount) ∧
      b' = b.setWallet { w with balance := newBalance } := by
  simp only [debit,bind,Option.bind_eq_some_iff,guard,pure,Option.some.injEq,Prod.mk.injEq] at h
  obtain ⟨w,hw,u,hl,balance,hb,rfl,rfl⟩ := h
  have hl : w.lifecycleState = .active := by
    by_contra hne
    simp [hne,failure] at hl
  exact ⟨w,hw,hl,Column.value_of_store hb,rfl⟩

theorem record_some {entryType : EntryType} {balanceAfter : Money} {costEntryID : Option Nat}
    {externalRef : Option String} {e : WalletLedgerEntry}
    (h : b.record walletID entryType amount balanceAfter costEntryID externalRef = some (b',e)) :
    ∃ w a, b.getWallet walletID = some w ∧ Column.value a = stored 6 amount ∧
      e = ⟨walletID,entryType,a,balanceAfter,w.currency,costEntryID,externalRef⟩ ∧
      b' = { b with ledger := b.ledger ++ [e] } := by
  simp only [record,bind,Option.bind_eq_some_iff,pure,Option.some.injEq,Prod.mk.injEq] at h
  obtain ⟨w,hw,a,ha,rfl,rfl⟩ := h
  exact ⟨w,a,hw,Column.value_of_store ha,rfl,rfl⟩

theorem applyCost_some {costEntryID : Nat} (h : b.applyCost costs costEntryID amount = some (b',())) :
    ∃ c, (0 < costEntryID ∧ costEntryID ≤ costs.length →
        Column.value c = stored 6 ((b.applied costEntryID).value + amount)) ∧
      b' = { b with applied := Function.update b.applied costEntryID c } := by
  unfold applyCost at h
  split at h
  · simp only [bind,Option.bind_eq_some_iff,pure,Option.some.injEq,Prod.mk.injEq] at h
    obtain ⟨c,hc,rfl,-⟩ := h
    exact ⟨c,fun _ => Column.value_of_store hc,rfl⟩
  · rename_i hid
    cases h
    exact ⟨b.applied costEntryID,fun h => absurd h hid,by rw [Function.update_eq_self]⟩

theorem commit_cases (tx : Tx) (b : Books) (outcome : Ingest.CommitOutcome) (e : WalletLedgerEntry) :
    tx.commit b outcome e = (b,none) ∨ tx.commit b outcome e = (tx.view,some e) ∨
      outcome = .answerLost ∧ tx.commit b outcome e = (tx.view,none) := by
  cases outcome with
  | committed => exact .inr (.inl rfl)
  | refused => exact .inl rfl
  | answerLost => exact .inr (.inr ⟨rfl,rfl⟩)

/-- A top-up has no effect and reports an error, or writes and reports its row,
or writes and the answer is lost. -/
theorem topUpWallet_cases (b : Books) (f : Faults) (walletID : String) (amount : Rat)
    (externalRef : String) :
    b.topUpWallet f walletID amount externalRef = (b,none) ∨
      ∃ b' e, ToppedUp b walletID amount externalRef b' e ∧
        (b.topUpWallet f walletID amount externalRef = (b',some e) ∨
          f.commit = .answerLost ∧ b.topUpWallet f walletID amount externalRef = (b',none)) := by
  unfold topUpWallet
  split
  · exact .inl rfl
  · split
    · exact .inl rfl
    · rename_i tx newBalance hupdate
      split
      · exact .inl rfl
      · rename_i tx' e hinsert
        obtain ⟨-,-,hcredit⟩ := Tx.exec_some hupdate
        obtain ⟨-,-,hrecord⟩ := Tx.exec_some hinsert
        obtain ⟨w,r,hw,hb,hr,hview⟩ := credit_some hcredit
        obtain ⟨v,a,hv,ha,he,hview'⟩ := record_some hrecord
        have hcur : v.currency = w.currency := by
          rw [hview,getWallet_setWallet,hw,Option.map_some,if_pos rfl] at hv
          cases hv; rfl
        have hpost : ToppedUp b walletID amount externalRef tx'.view e := by
          rw [hview',he,hcur,hview]
          exact .intro hw hb hr ha
        rcases commit_cases tx' b f.commit e with hc | hc | hc
        · exact .inl hc
        · exact .inr ⟨_,_,hpost,.inl hc⟩
        · exact .inr ⟨_,_,hpost,.inr hc⟩

theorem deductFromWallet_cases (b : Books) (costs : List CostEntry) (f : Faults) (walletID : String)
    (costEntryID : Nat) (amount : Rat) :
    b.deductFromWallet costs f walletID costEntryID amount = (b,none) ∨
      ∃ b' e, Deducted b costs walletID costEntryID amount b' e ∧
        (b.deductFromWallet costs f walletID costEntryID amount = (b',some e) ∨
          f.commit = .answerLost ∧
            b.deductFromWallet costs f walletID costEntryID amount = (b',none)) := by
  unfold deductFromWallet
  split
  · exact .inl rfl
  · split
    · exact .inl rfl
    · rename_i tx newBalance hupdate
      generalize happly : tx.exec f.apply (applyCost costs costEntryID amount) = applied
      obtain ⟨tx',done⟩ := applied
      simp only
      split
      · exact .inl rfl
      · rename_i tx'' e hinsert
        obtain ⟨-,-,hdebit⟩ := Tx.exec_some hupdate
        obtain ⟨hopen,-,hrecord⟩ := Tx.exec_some hinsert
        cases done with
        | none =>
          -- the insert would have failed
          have := Tx.exec_none (congrArg Prod.snd happly)
          rw [happly] at this
          rw [hopen] at this
          cases this
        | some u =>
          obtain ⟨-,-,happlied⟩ := Tx.exec_some happly
          obtain ⟨w,hw,hl,hb,hview⟩ := debit_some hdebit
          obtain ⟨c,hc,hview'⟩ := applyCost_some happlied
          obtain ⟨v,a,hv,ha,he,hview''⟩ := record_some hrecord
          have hcur : v.currency = w.currency := by
            rw [hview'] at hv
            change tx.view.getWallet walletID = some v at hv
            rw [hview,getWallet_setWallet,hw,Option.map_some,if_pos rfl] at hv
            cases hv; rfl
          have hpost : Deducted b costs walletID costEntryID amount tx''.view e := by
            rw [hview] at hc hview'
            rw [hview'',he,hcur,hview']
            exact .intro hw hl hb hc ha
          rcases commit_cases tx'' b f.commit e with hc | hc | hc
          · exact .inl hc
          · exact .inr ⟨_,_,hpost,.inl hc⟩
          · exact .inr ⟨_,_,hpost,.inr hc⟩

theorem applyCost_ok {costEntryID : Nat} {c : Money}
    (hc : Column.store ((b.applied costEntryID).value + amount) = some c) :
    ∃ applied, b.applyCost costs costEntryID amount = some ({ b with applied },()) := by
  unfold applyCost
  split
  · exact ⟨_,by rw [hc]; rfl⟩
  · exact ⟨b.applied,rfl⟩

theorem deductFromWallet_ok {costEntryID : Nat} {w : WalletRecord} {balance a c : Money}
    (hw : b.getWallet walletID = some w) (hl : w.lifecycleState = .active)
    (hb : Column.store (w.balance.value - amount) = some balance)
    (hc : Column.store ((b.applied costEntryID).value + amount) = some c)
    (ha : Column.store (-amount) = some a) :
    ∃ b' e, b.deductFromWallet costs {} walletID costEntryID amount = (b',some e) := by
  have hset := b.getWallet_setWallet { w with balance } walletID
  rw [hw,Option.map_some,if_pos rfl] at hset
  have hdebit : b.debit walletID amount = some (b.setWallet { w with balance },balance) := by
    simp [debit,hw,hl,hb]
  obtain ⟨applied,happly⟩ : ∃ applied,
      (b.setWallet { w with balance }).applyCost costs costEntryID amount =
        some ({ b.setWallet { w with balance } with applied },()) := applyCost_ok hc
  obtain ⟨b',e,hrecord⟩ : ∃ b' e,
      Books.record walletID .deduction (-amount) balance (some costEntryID) none
        { b.setWallet { w with balance } with applied } = some (b',e) := by
    rw [getWallet] at hset
    simp [record,getWallet,hset,ha]
  exact ⟨b',e,by simp [deductFromWallet,Tx.exec,hdebit,happly,hrecord,Tx.commit]⟩

end Transactions

end Books

end CostConsumer.Wallet
