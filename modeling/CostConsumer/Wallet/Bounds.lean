import CostConsumer.Wallet.Ledger
set_option autoImplicit false

/-!
How far sweeps go: what is applied to a cost entry against its cost, and what is
left in a wallet against its floor. A sweep computes a debit from rows it has
read before, and other steps may have changed them since.
-/

namespace CostConsumer.Wallet
open Inventory Foundation Numeric

/-- Nothing was applied to the entry since the sweep has read it. -/
def asRead (s : State) (l : Label) : Bool :=
  match s.deduction l with
  | none => true
  | some (_,ce,_) => s.books.applied ce.id = ce.walletApplied

/-- The cost is not rounded up, or only a part of it is paid. -/
def roundsDown (s : State) (l : Label) : Bool :=
  match s.deduction l with
  | none => true
  | some (_,ce,amount) => amount < ce.remaining ∨ stored 6 ce.costAmount ≤ ce.costAmount

def WithinCost (s : State) : Prop :=
  ∀ r ∈ s.books.costRows s.costs, 0 ≤ r.costAmount →
    0 ≤ r.walletApplied.value ∧ r.walletApplied.value ≤ r.costAmount

theorem withinCost_iff {s : State} : WithinCost s ↔ ∀ r : CostRow, r.Of s.costs → 0 ≤ r.costAmount →
    0 ≤ (s.books.applied r.id).value ∧ (s.books.applied r.id).value ≤ r.costAmount := by
  simp only [WithinCost,Books.mem_costRows]
  constructor
  · intro h r hr
    exact h { r with walletApplied := s.books.applied r.id } ⟨hr,rfl⟩
  · rintro h r ⟨hr,ha⟩
    rw [ha]
    exact h r hr

/-- Nothing is applied to entries that do not exist yet. -/
def Unpaid (s : State) : Prop := ∀ id, s.costs.length < id → s.books.applied id = 0

theorem step_unpaid {s t : State} {l : Label} (h : Moves s l t) (hr : Read s) (hs : Unpaid s) :
    Unpaid t := by
  cases h with
  | rating h =>
    obtain ⟨new,hnew⟩ := costs_grow h
    intro id hid
    refine hs id (lt_of_le_of_lt ?_ hid)
    rw [State.costs,State.costs,hnew,List.length_append]
    exact Nat.le_add_right _ _
  | credit hr hc =>
    intro id hid
    rw [hc.applied]
    exact hs id hid
  | @deduct n f w ce rest todo amount books e p hp ht hd hnext =>
    have hof := (hr.head hp).id_mem
    obtain ⟨c,-,happlied⟩ := hd.applied hof
    intro id hid
    change s.costs.length < id at hid
    change books.applied id = 0
    rw [happlied,Function.update_of_ne (by omega)]
    exact hs id hid
  | _ => exact hs

theorem reachable_unpaid {ok : State → Label → Prop} {s : State} (h : Reachable step initial ok s) :
    Unpaid s :=
  h.invariant_with (fun _ => reachable_read) (fun _ hi id _ => hi.2.2.1 id)
    (fun _ _ _ hr _ hs _ hst => step_unpaid (step_moves hst) hr hs)

/-- A deduction from an entry as it was read leaves no more applied than the cost
iff it pays a part of it or the cost is not rounded up. -/
theorem applied_le_cost {b : Books} {w : WalletRecord} {ce : CostRow} {amount : Rat}
    (ht : turn (some w) ce = .deduct w amount) (hread : b.applied ce.id = ce.walletApplied) :
    stored 6 ((b.applied ce.id).value + amount) ≤ ce.costAmount ↔
      amount < ce.remaining ∨ stored 6 ce.costAmount ≤ ce.costAmount := by
  obtain ⟨-,-,hle,-,hamount⟩ := turn_deduct ht
  rw [hread]
  by_cases hlt : amount < ce.remaining
  · have hav : amount = w.available := hamount.resolve_left hlt.ne
    refine iff_of_true ?_ (.inl hlt)
    rw [hav,WalletRecord.available,Column.stored_add_sub,← WalletRecord.available,← hav]
    unfold CostRow.remaining at hlt
    linarith
  · have hcost : ce.walletApplied.value + amount = ce.costAmount := by
      rw [le_antisymm hle (not_lt.mp hlt),CostRow.remaining]
      linarith
    rw [hcost,or_iff_right hlt]

theorem withinCost_update {costs : List CostEntry} {b b' : Books} {ce : CostRow} {c : Money}
    (hof : ce.Of costs) (hcost : 0 ≤ ce.costAmount) (hc : 0 ≤ c.value)
    (ha : b'.applied = Function.update b.applied ce.id c)
    (hb : ∀ r : CostRow, r.Of costs → 0 ≤ r.costAmount →
      0 ≤ (b.applied r.id).value ∧ (b.applied r.id).value ≤ r.costAmount) :
    (∀ r : CostRow, r.Of costs → 0 ≤ r.costAmount →
      0 ≤ (b'.applied r.id).value ∧ (b'.applied r.id).value ≤ r.costAmount) ↔
        c.value ≤ ce.costAmount := by
  rw [ha]
  constructor
  · intro h
    simpa using (h ce hof hcost).2
  · intro h r hr hrc
    by_cases hid : r.id = ce.id
    · rw [hid,Function.update_self,congrArg CostEntry.costAmount (hr.entry_eq hof hid)]
      exact ⟨hc,h⟩
    · rw [Function.update_of_ne hid]
      exact hb r hr hrc

theorem step_withinCost {s t : State} {l : Label} (h : Moves s l t) (hr : Read s)
    (ha : Applied s.books) (hu : Unpaid s) (hs : WithinCost s) (hread : asRead s l = true) :
    WithinCost t ↔ roundsDown s l = true ∨ t.books = s.books := by
  cases h with
  | rating h =>
    obtain ⟨new,hnew⟩ := costs_grow h
    refine iff_of_true (withinCost_iff.mpr fun r hof hcost => ?_) (.inr rfl)
    rw [State.costs,hnew] at hof
    rcases hof.of_append with hof | ⟨hnew,-⟩
    · exact withinCost_iff.mp hs r hof hcost
    · change 0 ≤ (s.books.applied r.id).value ∧ (s.books.applied r.id).value ≤ r.costAmount
      rw [hu r.id hnew,Column.value_zero]
      exact ⟨le_rfl,hcost⟩
  | create hw hid => exact iff_of_true hs (.inl rfl)
  | @credit i f req books e hr hc =>
    refine iff_of_true (withinCost_iff.mpr fun r hof hcost => ?_) (.inl rfl)
    rw [hc.applied]
    exact withinCost_iff.mp hs r hof hcost
  | @deduct n f w ce rest todo amount books e p hp ht hd hnext =>
    obtain ⟨v,v',hm,-⟩ := hd.moved
    have hof := hr.head hp
    obtain ⟨c,hc,happlied⟩ := hd.applied hof.id_mem
    obtain ⟨-,hpos,hle,-⟩ := turn_deduct ht
    have h0 := (ha ce.id).1
    rw [asRead,deduction_eq f hp ht] at hread
    rw [roundsDown,deduction_eq f hp ht]
    simp only [decide_eq_true_eq] at hread ⊢
    rw [← applied_le_cost ht hread,← hc]
    have hcost : 0 ≤ ce.costAmount := by
      rw [hread] at h0
      unfold CostRow.remaining at hle
      linarith
    have hc0 : 0 ≤ c.value := by
      rw [hc]
      exact Column.stored_nonneg (by linarith)
    rw [withinCost_iff]
    exact (withinCost_update hof hcost hc0 happlied (withinCost_iff.mp hs)).trans
      (or_iff_left hm.ne).symm
  | _ => exact iff_of_true hs (.inr rfl)

/-- As long as sweeps debit entries as they have read them and no cost is rounded
up, no entry is over-applied; the first cost that is rounded up is. -/
theorem applied_within_cost {s : State}
    (h : Reachable step initial (fun s l => asRead s l = true ∧ roundsDown s l = true) s) :
    WithinCost s ∧ ∀ l t, step s l = some t → asRead s l = true →
      (WithinCost t ↔ roundsDown s l = true ∨ t.books = s.books) := by
  have hw : WithinCost s := by
    refine h.invariant_with
      (fun _ h => And.intro (reachable_read h) (And.intro (reachable_applied h) (reachable_unpaid h)))
      (fun s hi => withinCost_iff.mpr fun r hr hc => ?_)
      (fun s l t hp _ hs hok hst => (step_withinCost (step_moves hst) hp.1 hp.2.1 hp.2.2 hs
        hok.1).mpr (.inl hok.2))
    rw [hi.2.2.1,Column.value_zero]
    exact ⟨le_rfl,hc⟩
  exact ⟨hw,fun l t hst hread => step_withinCost (step_moves hst) (reachable_read h)
    (reachable_applied h) (reachable_unpaid h) hw hread⟩

theorem applied_within_cost_in_run :
    ∃ s, Reachable step initial (fun s l => asRead s l = true ∧ roundsDown s l = true) s ∧
      (∃ r ∈ s.books.costRows s.costs, 0 < r.walletApplied.value) ∧ WithinCost s := by
  obtain ⟨s,hs,hp⟩ := Reachable.exists_of_checked step initial
    (fun s l => asRead s l && roundsDown s l) (opening (5/2) "USD")
    (fundWallet 10 ++ chargeToken ++ payOnce 0)
    (fun s => ∃ r ∈ s.books.costRows s.costs, 0 < r.walletApplied.value)
    (fun _ _ h => Bool.and_eq_true _ _ ▸ h) (opening_empty _ _).1 (by decide +kernel)
  exact ⟨s,hs,hp,(applied_within_cost hs).1⟩

def overApplied (s : State) : Bool :=
  (s.books.costRows s.costs).any (fun r => 0 ≤ r.costAmount ∧ r.costAmount < r.walletApplied.value)

/-- A cost of 1.0000005 is paid by 1.000001; and two sweeps that have read the
same entry pay it twice. -/
theorem cost_over_applied :
    (∃ s, Reachable step empty anyStep s ∧ overApplied s = true) ∧
      ∃ s, Reachable step empty anyStep s ∧ s.costs.map (·.costAmount) = [1] ∧
        overApplied s = true := by
  constructor
  · exact Reachable.exists_of_run step empty (opening (1 + 5/10^7) "USD")
      (fundWallet 10 ++ chargeToken ++ payOnce 0) _ (opening_empty _ _) (by decide +kernel)
  · exact Reachable.exists_of_run step empty (opening 1 "USD")
      (fundWallet 10 ++ chargeToken ++
        [.begin 0 false,.wallet 0 false,.list 0 false] ++ payOnce 1 ++ [.pay 0 {}])
      _ (opening_empty _ _) (by decide +kernel)

/-- The steps of one rater, whose errors mean that the transaction was rolled
back. -/
def oneRater : Label → Bool
  | .begin n _ => n = 0
  | .pay _ f => f.commit ≠ .answerLost
  | _ => true

structure Books.Sound (b : Books) (w : WalletRecord) : Prop where
  floor : w.balanceFloor = 0
  above : w.balanceFloor.value ≤ w.balance.value
  below : w.balance.value ≤ w.referenceBalance.value
  paid : w.referenceBalance.value = total (b.topUpsOf w.id)

/-- What was read of a wallet still holds, but for money paid in since. -/
def Covered (b : Books) (w : WalletRecord) : Prop :=
  ∃ v, b.getWallet w.id = some v ∧ v.balanceFloor = w.balanceFloor ∧ w.balance.value ≤ v.balance.value

structure Bounded (s : State) : Prop where
  wallets : ∀ w ∈ s.books.wallets.rows, s.books.Sound w
  others : ∀ n, n ≠ 0 → s.sweeps n = .idle
  hand : ∀ w, (s.sweeps 0).wallet? = some w → Covered s.books w

theorem topUpsOf_snoc {b b' : Books} {e : WalletLedgerEntry} (h : b'.ledger = b.ledger ++ [e])
    (walletID : String) : b'.topUpsOf walletID = b.topUpsOf walletID ++
      if e.walletID = walletID ∧ e.entryType = .topUp then [e] else [] := by
  simpa [Books.topUpsOf] using
    Books.select_snoc h (fun e => e.walletID = walletID && e.entryType = .topUp)

namespace Books.Moved
variable {b b' : Books} {w w' v : WalletRecord} {e : WalletLedgerEntry}

theorem covered (h : Moved b b' w w' e) (hb : w.balance.value ≤ w'.balance.value)
    (hc : Covered b v) : Covered b' v := by
  obtain ⟨u,hu,hfloor,hle⟩ := hc
  by_cases hid : v.id = w'.id
  · rw [hid] at hu
    cases h.eq_of_found hu
    exact ⟨w',by rw [h.getWallet,if_pos hid],h.kept.balanceFloor.trans hfloor,hle.trans hb⟩
  · exact ⟨u,by rw [h.getWallet,if_neg hid,hu],hfloor,hle⟩

theorem sound (h : Moved b b' w w' e) (hs : ∀ v ∈ b.wallets.rows, b.Sound v)
    (habove : w.balanceFloor.value ≤ w'.balance.value)
    (hbelow : w'.balance.value ≤ w'.referenceBalance.value)
    (hpaid : w'.referenceBalance.value = w.referenceBalance.value +
      if e.entryType = .topUp then e.amount.value else 0) : ∀ v ∈ b'.wallets.rows, b'.Sound v := by
  intro v hv
  rcases h.mem hv with rfl | ⟨hv,hne⟩
  · obtain ⟨h₁,-,-,h₄⟩ := hs w (getWallet_mem h.found)
    rw [getWallet_id h.found] at h₄
    refine ⟨h.kept.balanceFloor.trans h₁,h.kept.balanceFloor ▸ habove,hbelow,?_⟩
    rw [topUpsOf_snoc h.ledger,hpaid,h₄]
    by_cases ht : e.entryType = .topUp
    · rw [if_pos ht,if_pos ⟨h.entry,ht⟩,total_snoc]
    · rw [if_neg ht,if_neg (fun h => ht h.2),List.append_nil,add_zero]
  · obtain ⟨h₁,h₂,h₃,h₄⟩ := hs v hv
    refine ⟨h₁,h₂,h₃,?_⟩
    rw [topUpsOf_snoc h.ledger,if_neg (fun h' => hne (h'.1.symm.trans h.entry)),List.append_nil]
    exact h₄

end Books.Moved

theorem Next.inHand {s : State} {n : Nat} {l : Label} {p : Sweep} (h : Next s n l p)
    {w : WalletRecord} (hw : p.wallet? = some w) :
    (s.sweeps n).wallet? = some w ∨ s.books.getWallet w.id = some w := by
  cases h with
  | stop l => cases hw
  | begin => simp at hw
  | pass hp => simp at hw
  | wallet hp hv hl =>
    cases hw
    exact .inr (Books.getWallet_of_mem (Books.getWalletForTenant_some hv).1)
  | list hp =>
    rw [hp]
    exact .inl (Sweep.wallet_resume hw)
  | skip f hp =>
    rw [hp]
    exact .inl (Sweep.wallet_resume hw)
  | @refresh walletID entries todo failed hp =>
    have hget := Sweep.wallet_resume hw
    cases failed with
    | true => cases hget
    | false =>
      have hid := Books.getWallet_id hget
      exact .inr (hid ▸ hget)

theorem bounded_create {s : State} {req : CreateWalletRequest} {id : String} {now : Int}
    {w : WalletRecord} (ho : s.books.Owned) (hs : Bounded s) (hw : req.wallet id now = .ok w)
    (hid : s.books.getWallet w.id = none) :
    Bounded { s with books := { s.books with wallets := s.books.wallets.insert w } } := by
  refine ⟨fun v hv => ?_,hs.others,fun v hv => ?_⟩
  · rcases (Table.mem_insert (Table.find?_eq_none.mp hid)).mp hv with rfl | hv
    · obtain ⟨hb,hf,hr⟩ := wallet_new hw
      refine ⟨hf,by rw [hb,hf],by rw [hb,hr],?_⟩
      have hrows : s.books.topUpsOf v.id = [] :=
        ho.select_eq_nil hid (fun e he => by simp at he; exact he.1)
      change _ = total (s.books.topUpsOf v.id)
      rw [hrows,hr]
      exact Column.value_zero
    · obtain ⟨h₁,h₂,h₃,h₄⟩ := hs.wallets v hv
      exact ⟨h₁,h₂,h₃,h₄⟩
  · obtain ⟨u,hu,hcov⟩ := hs.hand v hv
    have hfind := Table.find?_insert hid v.id
    rw [if_neg (fun heq => by rw [heq,hu] at hid; cases hid)] at hfind
    exact ⟨u,hfind.trans hu,hcov⟩

theorem bounded_credit {s : State} {req : TopUp} {books : Books} {e : WalletLedgerEntry}
    {requests credited : List TopUp} (hs : Bounded s) (hpos : 0 < req.amount)
    (hc : s.books.ToppedUp req.walletID req.amount req.externalRef books e) :
    Bounded { s with books, requests, credited } := by
  obtain ⟨w,w',hm,-,hbal,href⟩ := hc.moved
  obtain ⟨-,htype,hamount,-⟩ := hc.entry
  obtain ⟨h₁,h₂,h₃,-⟩ := hs.wallets w (Books.getWallet_mem hm.found)
  have hge : w.balance.value ≤ w'.balance.value := by
    rw [hbal]
    exact Column.value_le_stored (by linarith)
  have h0 : 0 ≤ w.referenceBalance.value := by
    rw [h₁,Column.value_zero] at h₂
    exact h₂.trans h₃
  refine ⟨hm.sound hs.wallets (h₂.trans hge) ?_ ?_,hs.others,fun v hv => hm.covered hge (hs.hand v hv)⟩
  · rw [hbal,href]
    exact stored_mono (by linarith)
  · rw [href,if_pos htype,hamount,Column.stored_add_of_nonneg h0 hpos.le]

theorem bounded_sweep {s : State} {n : Nat} {l : Label} {p : Sweep} (hs : Bounded s)
    (hl : oneRater l = true) (h : Next s n l p) : Bounded (s.goto n p) := by
  refine ⟨hs.wallets,fun m hm => ?_,fun w hw => ?_⟩
  · rw [goto_sweeps]
    split
    · rename_i hmn
      subst hmn
      have hidle := hs.others m hm
      cases h with
      | stop l => rfl
      | begin => simp [oneRater,hm] at hl
      | pass hp => exact absurd hidle hp
      | wallet hp hv ha => rw [hidle] at hp; cases hp
      | list hp => rw [hidle] at hp; cases hp
      | skip f hp => rw [hidle] at hp; cases hp
      | refresh failed hp => rw [hidle] at hp; cases hp
    · exact hs.others m hm
  · rw [goto_sweeps] at hw
    split at hw
    · rename_i hn
      subst hn
      rcases h.inHand hw with hw | hget
      · exact hs.hand w hw
      · exact ⟨w,hget,rfl,le_rfl⟩
    · exact hs.hand w hw

theorem bounded_deduct {s : State} {n : Nat} {w : WalletRecord} {ce : CostRow}
    {rest : List CostRow} {todo : List String} {amount : Rat} {books : Books}
    {e : WalletLedgerEntry} (hs : Bounded s) (hp : s.sweeps n = .paying (some w) (ce :: rest) todo)
    (ht : turn (some w) ce = .deduct w amount)
    (hd : s.books.Deducted s.costs w.id ce.id amount books e) :
    Bounded ({ s with books }.goto n (.refreshing w.id rest todo)) := by
  obtain rfl : n = 0 := by
    by_contra hn
    rw [hs.others n hn] at hp
    cases hp
  obtain ⟨-,hpos,-,hav,-⟩ := turn_deduct ht
  obtain ⟨v,v',hm,hid,-,hbal,href⟩ := hd.moved
  obtain ⟨-,htype,-⟩ := hd.entry
  obtain ⟨u,hu,hfloor,hle⟩ := hs.hand w (by rw [hp]; rfl)
  obtain rfl : u = v := hm.eq_of_found (hid ▸ hu)
  obtain ⟨h₁,h₂,h₃,-⟩ := hs.wallets u (Books.getWallet_mem hu)
  refine ⟨hm.sound hs.wallets ?_ ?_ ?_,fun m hm => ?_,fun v hv => ?_⟩
  · rw [hbal]
    refine Column.value_le_stored ?_
    rw [hfloor]
    unfold WalletRecord.available at hav
    linarith
  · rw [hbal,href]
    exact (Column.stored_le_value (by linarith)).trans h₃
  · rw [href,htype,if_neg (by simp),add_zero]
  · rw [goto_sweeps,if_neg hm]
    exact hs.others m hm
  · rw [goto_sweeps,if_pos rfl] at hv
    cases hv

theorem step_bounded {s t : State} {l : Label} (h : Moves s l t) (ho : s.books.Owned)
    (ha : ∀ req ∈ s.requests, 0 < req.amount) (hl : oneRater l = true) (hs : Bounded s) :
    Bounded t := by
  cases h with
  | create hw hid => exact bounded_create ho hs hw hid
  | credit hr hc => exact bounded_credit hs (ha _ (List.mem_of_getElem? hr)) hc
  | sweep h => exact bounded_sweep hs hl h
  | deduct hp ht hd hnext =>
    rcases hnext with rfl | ⟨hlost,-⟩
    · exact bounded_deduct hs hp ht hd
    · simp [oneRater,hlost] at hl
  | _ => exact ⟨hs.wallets,hs.others,hs.hand⟩

theorem step_positive {s t : State} {l : Label} (h : Moves s l t)
    (hs : ∀ req ∈ s.requests, 0 < req.amount) : ∀ req ∈ t.requests, 0 < req.amount := by
  cases h with
  | request ha hd =>
    intro req hr
    rcases List.mem_append.mp hr with hr | hr
    · exact hs req hr
    · rw [List.mem_singleton.mp hr]
      exact ha
  | creditFails hr => exact fun req h => hs req (List.mem_of_mem_eraseIdx h)
  | credit hr hc => exact fun req h => hs req (List.mem_of_mem_eraseIdx h)
  | _ => exact hs

theorem reachable_positive {ok : State → Label → Prop} {s : State}
    (h : Reachable step initial ok s) : ∀ req ∈ s.requests, 0 < req.amount :=
  h.invariant (fun s hi req hr => by rw [hi.2.2.2.2.1] at hr; cases hr)
    (fun s l t hs _ hst => step_positive (step_moves hst) hs)

theorem reachable_bounded {s : State}
    (h : Reachable step initial (fun _ l => oneRater l = true) s) : Bounded s := by
  refine h.invariant_with (fun _ h => And.intro (reachable_owned h) (reachable_positive h))
    (fun s hi => ?_) (fun s l t hp _ hs hl hst => step_bounded (step_moves hst) hp.1 hp.2 hl hs)
  obtain ⟨hw,-,-,hidle,-⟩ := hi
  refine ⟨fun w hmem => ?_,fun n _ => hidle n,fun w hmem => ?_⟩
  · rw [hw] at hmem
    cases hmem
  · rw [hidle 0] at hmem
    cases hmem

theorem remainingPct_bounds {w : WalletRecord} (h0 : 0 ≤ w.balance.value)
    (hle : w.balance.value ≤ w.referenceBalance.value) :
    0 ≤ w.status.remainingPct ∧ w.status.remainingPct ≤ 100 := by
  have hpct : 0 ≤ w.remainingPct ∧ w.remainingPct ≤ 100 := by
    unfold WalletRecord.remainingPct
    split
    · norm_num
    · rename_i hne
      have hpos : 0 < w.referenceBalance.value := lt_of_le_of_ne (h0.trans hle) (Ne.symm hne)
      have hone : w.balance.value/w.referenceBalance.value ≤ 1 := (div_le_one hpos).mpr hle
      have hlow := Column.stored_nonneg (s := 16) (div_nonneg h0 hpos.le)
      have hhigh := stored_le (s := 16) (x := w.balance.value/w.referenceBalance.value)
        (n := 10^16) (by push_cast; linarith)
      norm_num at hhigh
      constructor <;> linarith
  have hhigh := stored_le (s := 2) (x := w.remainingPct) (n := 10^4) (by push_cast; linarith [hpct.2])
  norm_num at hhigh
  exact ⟨Column.stored_nonneg hpct.1,hhigh⟩

theorem getWalletStatus_ok {b : Books} {failed failedForTenant : Bool} {id : String}
    {st : WalletStatus} (h : b.getWalletStatus failed failedForTenant id = .ok st) :
    ∃ w ∈ b.wallets.rows, st = w.status := by
  unfold Books.getWalletStatus at h
  split at h
  · cases h
  · cases hw : (if failed then none else b.getWallet id).or
        (if failedForTenant then none else b.getWalletForTenant id) with
    | none => simp [hw] at h
    | some w =>
      simp only [hw,Except.ok.injEq] at h
      refine ⟨w,?_,h.symm⟩
      rcases Option.or_eq_some_iff.mp hw with hw | ⟨-,hw⟩
      · split at hw
        · cases hw
        · exact Books.getWallet_mem hw
      · split at hw
        · cases hw
        · exact (Books.getWalletForTenant_some hw).1

/-- However top-ups interleave with the sweeps of one rater: a wallet stays
between its floor and what was paid into it. -/
theorem wallet_bounds {s : State} (h : Reachable step initial (fun _ l => oneRater l = true) s) :
    (∀ w ∈ s.books.wallets.rows,
      w.balanceFloor.value ≤ w.balance.value ∧ w.balance.value ≤ w.referenceBalance.value ∧
        w.referenceBalance.value = total (s.books.topUpsOf w.id)) ∧
    ∀ failed failedForTenant id st, s.books.getWalletStatus failed failedForTenant id = .ok st →
      0 ≤ st.remainingPct ∧ st.remainingPct ≤ 100 := by
  have hs := (reachable_bounded h).wallets
  refine ⟨fun w hw => ⟨(hs w hw).above,(hs w hw).below,(hs w hw).paid⟩,
    fun failed failedForTenant id st hst => ?_⟩
  obtain ⟨w,hw,rfl⟩ := getWalletStatus_ok hst
  obtain ⟨h₁,h₂,h₃,-⟩ := hs w hw
  rw [h₁,Column.value_zero] at h₂
  exact remainingPct_bounds h₂ h₃

theorem wallet_bounds_in_run :
    ∃ s, Reachable step initial (fun _ l => oneRater l = true) s ∧
      ∃ w ∈ s.books.wallets.rows, w.balance.value = 15/2 ∧
        w.balanceFloor.value ≤ w.balance.value ∧ w.balance.value ≤ w.referenceBalance.value ∧
        w.referenceBalance.value = total (s.books.topUpsOf w.id) := by
  obtain ⟨s,hs,w,hw,hb⟩ := Reachable.exists_of_checked step initial (fun _ l => oneRater l)
    (opening (5/2) "USD") (fundWallet 10 ++ chargeToken ++ payOnce 0)
    (fun s => ∃ w ∈ s.books.wallets.rows, w.balance.value = 15/2)
    (fun _ _ h => h) (opening_empty _ _).1 (by decide +kernel)
  exact ⟨s,hs,w,hw,hb,(wallet_bounds hs).1 w hw⟩

end CostConsumer.Wallet
