import CostConsumer.Wallet.Machine
set_option autoImplicit false

namespace CostConsumer.Wallet
open Inventory Foundation Numeric

def total (rows : List WalletLedgerEntry) : Rat := (rows.map (·.amount.value)).sum

theorem total_snoc (rows : List WalletLedgerEntry) (e : WalletLedgerEntry) :
    total (rows ++ [e]) = total rows + e.amount.value := by
  simp [total]

/-- Every `balance_after` is the balance before the row plus its amount. -/
def Chained : Rat → List WalletLedgerEntry → Prop
  | _, [] => True
  | balance, e :: es =>
    e.balanceAfter.value = balance + e.amount.value ∧ Chained e.balanceAfter.value es

theorem chained_snoc {balance : Rat} {es : List WalletLedgerEntry} {e : WalletLedgerEntry} :
    Chained balance (es ++ [e]) ↔
      Chained balance es ∧ e.balanceAfter.value = balance + total es + e.amount.value := by
  induction es generalizing balance with
  | nil => simp [Chained,total]
  | cons e' es ih =>
    simp only [List.cons_append,Chained,ih,and_assoc]
    refine and_congr_right fun h => and_congr_right fun _ => ?_
    simp only [h,total,List.map_cons,List.sum_cons,add_assoc]

namespace Books

def select (b : Books) (p : WalletLedgerEntry → Bool) : List WalletLedgerEntry := b.ledger.filter p

theorem select_snoc {b b' : Books} {e : WalletLedgerEntry} (h : b'.ledger = b.ledger ++ [e])
    (p : WalletLedgerEntry → Bool) :
    b'.select p = b.select p ++ if p e = true then [e] else [] := by
  rw [select,h,List.filter_append,List.filter_cons,List.filter_nil]
  rfl

def rowsOf (b : Books) (walletID : String) : List WalletLedgerEntry :=
  b.select (fun e => e.walletID = walletID)

def deductionsFor (b : Books) (costEntryID : Nat) : List WalletLedgerEntry :=
  b.select (fun e => e.entryType = .deduction && e.costEntryID = some costEntryID)

def topUpsOf (b : Books) (walletID : String) : List WalletLedgerEntry :=
  b.select (fun e => e.walletID = walletID && e.entryType = .topUp)

/-- Every balance is the sum of its ledger, row by row. -/
def Balanced (b : Books) : Prop :=
  ∀ w ∈ b.wallets.rows,
    w.balance.value = total (b.rowsOf w.id) ∧ Chained 0 (b.rowsOf w.id)

def Owned (b : Books) : Prop := ∀ e ∈ b.ledger, (b.getWallet e.walletID).isSome

theorem Owned.select_eq_nil {b : Books} {walletID : String} {p : WalletLedgerEntry → Bool}
    (h : b.Owned) (hid : b.getWallet walletID = none) (hp : ∀ e, p e = true → e.walletID = walletID) :
    b.select p = [] := by
  rw [select,List.filter_eq_nil_iff]
  intro e he hpe
  have hsome := h e he
  rw [hp e hpe,hid] at hsome
  cases hsome

namespace Moved
variable {b b' : Books} {w w' : WalletRecord} {e : WalletLedgerEntry}

theorem ne (h : Moved b b' w w' e) : b' ≠ b := fun heq => by simpa [heq] using h.ledger

theorem balanced (h : Moved b b' w w' e) (hb : b.Balanced) :
    b'.Balanced ↔ w'.balance.value = w.balance.value + e.amount.value := by
  obtain ⟨hsum,hchain⟩ := hb w (getWallet_mem h.found)
  rw [getWallet_id h.found] at hsum hchain
  have hrows : ∀ id, b'.rowsOf id = b.rowsOf id ++ if e.walletID = id then [e] else [] := by
    intro id
    simpa [rowsOf] using select_snoc h.ledger (fun e => e.walletID = id)
  constructor
  · intro hpost
    have hmem := getWallet_mem (h.getWallet w'.id ▸ if_pos rfl)
    have hsum' := (hpost w' hmem).1
    rw [hrows,if_pos h.entry,total_snoc,← hsum] at hsum'
    exact hsum'
  · intro hmove v hv
    rcases h.mem hv with rfl | ⟨hv,hne⟩
    · rw [hrows,if_pos h.entry,total_snoc,chained_snoc,← hsum,h.after,zero_add]
      exact ⟨hmove,hchain,hmove⟩
    · rw [hrows,if_neg (fun heq => hne (heq.symm.trans h.entry)),List.append_nil]
      exact hb v hv

end Moved

end Books

/-- The money a step moves, if its transaction takes effect. -/
def State.movement (s : State) : Label → Option (String × Rat)
  | .credit i _ => (s.requests[i]?).map (fun req => (req.walletID,req.amount))
  | l => (s.deduction l).map (fun (w,_,amount) => (w.id,-amount))

/-- The amount is not half-way between two values of the column, or its sign is
that of the balance it leads to. -/
def movesExactly (s : State) (l : Label) : Bool :=
  match s.movement l with
  | none => true
  | some (walletID,x) =>
    match s.books.getWallet walletID with
    | none => true
    | some w => ¬ Tie (x*10^6) ∨ (0 ≤ x ↔ 0 ≤ w.balance.value + x)

theorem movesExactly_iff {s : State} {l : Label} {walletID : String} {w : WalletRecord} {x : Rat}
    (hm : s.movement l = some (walletID,x)) (hw : s.books.getWallet walletID = some w) :
    movesExactly s l = true ↔ stored 6 (w.balance.value + x) = w.balance.value + stored 6 x := by
  rw [Column.stored_add_iff,movesExactly,hm]
  simp only [hw,decide_eq_true_eq]

theorem step_owned {s t : State} {l : Label} (h : Moves s l t) (hs : s.books.Owned) :
    t.books.Owned := by
  have hkept : ∀ id, (s.books.getWallet id).isSome → (t.books.getWallet id).isSome := by
    intro id hsome
    obtain ⟨v,hv⟩ := Option.isSome_iff_exists.mp hsome
    obtain ⟨v',hv',-⟩ := h.keeps hv
    rw [hv']
    rfl
  have hnew : ∀ {w w' : WalletRecord} {e : WalletLedgerEntry},
      Books.Moved s.books t.books w w' e → t.books.Owned := by
    intro w w' e hm a ha
    rw [hm.ledger] at ha
    rcases List.mem_append.mp ha with ha | ha
    · exact hkept _ (hs a ha)
    · rw [List.mem_singleton.mp ha,hm.entry,hm.getWallet,if_pos rfl]
      rfl
  cases h with
  | create hw hid => exact fun e he => hkept _ (hs e he)
  | credit hr hc =>
    obtain ⟨w,w',hm,-⟩ := hc.moved
    exact hnew hm
  | deduct hp ht hd hnext =>
    obtain ⟨w,w',hm,-⟩ := hd.moved
    exact hnew hm
  | _ => exact hs

theorem reachable_owned {ok : State → Label → Prop} {s : State} (h : Reachable step initial ok s) :
    s.books.Owned := by
  refine h.invariant (fun s hi e he => ?_) (fun s l t hs _ hst => step_owned (step_moves hst) hs)
  rw [hi.2.1] at he
  cases he

theorem wallet_new {req : CreateWalletRequest} {id : String} {now : Int} {w : WalletRecord}
    (h : req.wallet id now = .ok w) :
    w.balance = 0 ∧ w.balanceFloor = 0 ∧ w.referenceBalance = 0 := by
  unfold CreateWalletRequest.wallet at h
  split at h
  · cases h
  · cases h
    exact ⟨rfl,rfl,rfl⟩

theorem balanced_create {b : Books} {req : CreateWalletRequest} {id : String} {now : Int}
    {w : WalletRecord} (hb : b.Balanced) (ho : b.Owned) (hw : req.wallet id now = .ok w)
    (hid : b.getWallet w.id = none) :
    Books.Balanced { b with wallets := b.wallets.insert w } := by
  intro v hv
  rcases (Table.mem_insert (Table.find?_eq_none.mp hid)).mp hv with rfl | hv
  · have hrows : b.rowsOf v.id = [] := ho.select_eq_nil hid (by simp)
    change _ = total (b.rowsOf v.id) ∧ Chained 0 (b.rowsOf v.id)
    rw [hrows,(wallet_new hw).1]
    exact ⟨Column.value_zero,trivial⟩
  · exact hb v hv

theorem step_balanced {s t : State} {l : Label} (h : Moves s l t) (ho : s.books.Owned)
    (hb : s.books.Balanced) :
    t.books.Balanced ↔ movesExactly s l = true ∨ t.books = s.books := by
  cases h with
  | create hw hid => exact iff_of_true (balanced_create hb ho hw hid) (.inl rfl)
  | @credit i f req books e hr hc =>
    obtain ⟨w,w',hm,hid,hbal,-⟩ := hc.moved
    obtain ⟨-,-,hamount,-⟩ := hc.entry
    have hmove : s.movement (.credit i f) = some (w'.id,req.amount) := by
      simp [State.movement,hr,hid]
    rw [movesExactly_iff hmove hm.found,or_iff_left hm.ne,← hbal,← hamount]
    exact hm.balanced hb
  | @deduct n f w ce rest todo amount books e p hp ht hd hnext =>
    obtain ⟨v,v',hm,hid,-,hbal,-⟩ := hd.moved
    obtain ⟨-,-,hamount,-⟩ := hd.entry
    have hmove : s.movement (.pay n f) = some (v'.id,-amount) := by
      simp [State.movement,deduction_eq f hp ht,hid]
    rw [movesExactly_iff hmove hm.found,← sub_eq_add_neg,← hbal,← hamount]
    exact (hm.balanced hb).trans (or_iff_left hm.ne).symm
  | _ => exact iff_of_true hb (.inr rfl)

theorem initial_balanced {s : State} (h : initial s) : s.books.Balanced := by
  intro w hw
  rw [h.1] at hw
  cases hw

/-- As long as no amount is half-way between two values of the column, every
balance is the sum of its ledger; the first effective step that breaks this rule
breaks the balance. -/
theorem balance_is_ledger_sum {s : State}
    (h : Reachable step initial (fun s l => movesExactly s l = true) s) :
    s.books.Balanced ∧ ∀ l t, step s l = some t →
      (t.books.Balanced ↔ movesExactly s l = true ∨ t.books = s.books) := by
  have hb : s.books.Balanced := h.invariant_with (fun _ => reachable_owned)
    (fun _ => initial_balanced)
    (fun s l t ho _ hb hok hst => (step_balanced (step_moves hst) ho hb).mpr (.inl hok))
  exact ⟨hb,fun l t hst => step_balanced (step_moves hst) (reachable_owned h) hb⟩

theorem balance_is_ledger_sum_in_run :
    ∃ s, Reachable step initial (fun s l => movesExactly s l = true) s ∧
      (s.books.ledger.map (·.amount.value) = [10,-5/2] ∧ s.books.Balanced) := by
  obtain ⟨s,hs,hp⟩ := Reachable.exists_of_checked step initial movesExactly (opening (5/2) "USD")
    (fundWallet 10 ++ chargeToken ++ payOnce 0)
    (fun s => s.books.ledger.map (·.amount.value) = [10,-5/2])
    (fun _ _ h => h) (opening_empty _ _).1 (by decide +kernel)
  exact ⟨s,hs,hp,(balance_is_ledger_sum hs).1⟩

/-- A token of half a millionth is paid: the balance is rounded back to what it
was, and the ledger has a whole millionth less. -/
theorem balance_above_ledger_sum :
    ∃ s, Reachable step empty anyStep s ∧
      ∃ w ∈ s.books.wallets.rows,
        w.balance.value = 10 ∧ total (s.books.rowsOf w.id) = 10 - 1/10^6 :=
  Reachable.exists_of_run step empty (opening (1/(2*10^6)) "USD")
    (fundWallet 10 ++ chargeToken ++ payOnce 0) _ (opening_empty _ _) (by decide +kernel)

/-- `wallet_applied` is what the deductions took, and not negative. -/
def Applied (b : Books) : Prop :=
  ∀ id, 0 ≤ (b.applied id).value ∧ (b.applied id).value = -total (b.deductionsFor id)

theorem deductionsFor_snoc {b b' : Books} {e : WalletLedgerEntry}
    (h : b'.ledger = b.ledger ++ [e]) (id : Nat) :
    b'.deductionsFor id = b.deductionsFor id ++
      if e.entryType = .deduction ∧ e.costEntryID = some id then [e] else [] := by
  simpa [Books.deductionsFor] using
    Books.select_snoc h (fun e => e.entryType = .deduction && e.costEntryID = some id)

theorem step_applied {s t : State} {l : Label} (h : Moves s l t) (hr : Read s)
    (hs : Applied s.books) : Applied t.books := by
  cases h with
  | credit hr hc =>
    intro id
    obtain ⟨-,htype,-⟩ := hc.entry
    obtain ⟨w,w',hm,-⟩ := hc.moved
    rw [hc.applied,deductionsFor_snoc hm.ledger,if_neg (fun h => by simp [htype] at h),
      List.append_nil]
    exact hs id
  | @deduct n f w ce rest todo amount books e p hp ht hd hnext =>
    have hof := hr.head hp
    obtain ⟨-,hpos,-⟩ := turn_deduct ht
    obtain ⟨-,htype,hamount,hcost,-⟩ := hd.entry
    obtain ⟨c,hc,happlied⟩ := hd.applied hof.id_mem
    obtain ⟨v,v',hm,-⟩ := hd.moved
    intro id
    obtain ⟨h0,hsum⟩ := hs id
    change 0 ≤ (books.applied id).value ∧ (books.applied id).value = -total (books.deductionsFor id)
    rw [happlied,deductionsFor_snoc hm.ledger]
    by_cases hid : ce.id = id
    · subst hid
      rw [Function.update_self,hc,if_pos ⟨htype,hcost⟩,total_snoc,hamount,stored_neg,
        Column.stored_add_of_nonneg h0 hpos.le]
      exact ⟨add_nonneg h0 (Column.stored_nonneg hpos.le),by linarith⟩
    · rw [Function.update_of_ne (Ne.symm hid),if_neg (fun h => hid (by simpa [hcost] using h.2)),
        List.append_nil]
      exact ⟨h0,hsum⟩
  | _ => exact hs

theorem reachable_applied {ok : State → Label → Prop} {s : State}
    (h : Reachable step initial ok s) : Applied s.books := by
  refine h.invariant_with (fun _ => reachable_read) (fun s hi id => ?_)
    (fun s l t hr _ hs _ hst => step_applied (step_moves hst) hr hs)
  rw [hi.2.2.1 id,Books.deductionsFor,Books.select,hi.2.1]
  exact ⟨Column.value_zero.ge,by simp [total]⟩

/-- However many sweeps run and whatever statement fails: what was applied to a
cost entry is what its deductions took. -/
theorem applied_is_deducted {s : State} (h : Reachable step initial anyStep s) {r : CostRow}
    (hr : r ∈ s.books.costRows s.costs) :
    r.walletApplied.value = -total (s.books.deductionsFor r.id) := by
  rw [(Books.mem_costRows.mp hr).2]
  exact (reachable_applied h r.id).2

theorem applied_is_deducted_in_run :
    ∃ s, Reachable step initial anyStep s ∧ ∃ r ∈ s.books.costRows s.costs,
      r.walletApplied.value ≠ 0 ∧
        r.walletApplied.value = -total (s.books.deductionsFor r.id) := by
  obtain ⟨s,hs,r,hr,hne⟩ := Reachable.exists_of_run step initial (opening (5/2) "USD")
    (fundWallet 10 ++ chargeToken ++ payOnce 0)
    (fun s => ∃ r ∈ s.books.costRows s.costs, r.walletApplied.value ≠ 0)
    (opening_empty _ _).1 (by decide +kernel)
  exact ⟨s,hs,r,hr,hne,applied_is_deducted hs hr⟩

end CostConsumer.Wallet
