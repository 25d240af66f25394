import CostConsumer.Wallet.Ledger
set_option autoImplicit false

namespace CostConsumer.Wallet
open Inventory Foundation Numeric

/-- A wallet as it was read, apart from its money. -/
def Known (b : Books) (w : WalletRecord) : Prop := ∃ v, b.getWallet w.id = some v ∧ v.Same w

def Sweep.Paired (b : Books) : Sweep → Prop
  | .listing tenantID w _ => w.tenantID = tenantID ∧ Known b w
  | .paying (some w) entries _ => (∀ ce ∈ entries, ce.tenantID = w.tenantID) ∧ Known b w
  | .refreshing walletID entries _ =>
    ∃ v, b.getWallet walletID = some v ∧ ∀ ce ∈ entries, ce.tenantID = v.tenantID
  | _ => True

theorem paired_next (b : Books) (todo : List String) : (Sweep.next todo).Paired b := by
  cases todo <;> trivial

theorem paired_resume {b : Books} {wallet : Option WalletRecord} {entries : List CostRow}
    {todo : List String} (h : (Sweep.paying wallet entries todo).Paired b) :
    (Sweep.resume wallet entries todo).Paired b := by
  cases entries with
  | nil => exact paired_next b todo
  | cons ce entries => exact h

theorem paired_cons {b : Books} {wallet : Option WalletRecord} {ce : CostRow}
    {entries : List CostRow} {todo : List String}
    (h : (Sweep.paying wallet (ce :: entries) todo).Paired b) :
    (Sweep.paying wallet entries todo).Paired b := by
  cases wallet with
  | none => trivial
  | some w => exact ⟨fun c hc => h.1 c (List.mem_cons_of_mem _ hc),h.2⟩

theorem Sweep.Paired.keep {b b' : Books} {p : Sweep}
    (hkeep : ∀ id v, b.getWallet id = some v → ∃ v', b'.getWallet id = some v' ∧ v'.Same v)
    (h : p.Paired b) : p.Paired b' := by
  have hknown : ∀ {w}, Known b w → Known b' w := by
    rintro w ⟨v,hv,hsame⟩
    obtain ⟨v',hv',hsame'⟩ := hkeep _ v hv
    exact ⟨v',hv',hsame'.trans hsame⟩
  cases p with
  | idle => trivial
  | tenants todo => trivial
  | listing tenantID w todo => exact ⟨h.1,hknown h.2⟩
  | paying wallet entries todo =>
    cases wallet with
    | none => trivial
    | some w => exact ⟨h.1,hknown h.2⟩
  | refreshing walletID entries todo =>
    obtain ⟨v,hv,ht⟩ := h
    obtain ⟨v',hv',hsame⟩ := hkeep _ v hv
    exact ⟨v',hv',fun ce hce => (ht ce hce).trans hsame.tenantID.symm⟩

theorem Next.paired {s : State} {n : Nat} {l : Label} {p : Sweep} (h : Next s n l p)
    (hs : (s.sweeps n).Paired s.books) : p.Paired s.books := by
  cases h with
  | stop l => trivial
  | begin => exact paired_next _ _
  | pass hp => exact paired_next _ _
  | wallet hp hw hl =>
    obtain ⟨hmem,ht,-⟩ := Books.getWalletForTenant_some hw
    exact ⟨ht,_,Books.getWallet_of_mem hmem,.refl _⟩
  | list hp =>
    rw [hp] at hs
    exact paired_resume
      ⟨fun ce hce => (Books.mem_unapplied.mp hce).2.1.trans hs.1.symm,hs.2⟩
  | skip f hp =>
    rw [hp] at hs
    exact paired_resume (paired_cons hs)
  | @refresh walletID entries todo failed hp =>
    rw [hp] at hs
    obtain ⟨v,hv,ht⟩ := hs
    cases failed with
    | true => exact paired_resume trivial
    | false =>
      rw [if_neg Bool.false_ne_true,hv]
      exact paired_resume ⟨ht,v,(Books.getWallet_id hv).symm ▸ hv,.refl v⟩

def Paired (s : State) : Prop := ∀ n, (s.sweeps n).Paired s.books

theorem step_paired {s t : State} {l : Label} (h : Moves s l t) (hs : Paired s) : Paired t := by
  have hkeep : ∀ n, (s.sweeps n).Paired t.books := fun n => (hs n).keep (fun _ _ => h.keeps)
  cases h with
  | @sweep n l p h =>
    intro m
    rw [goto_sweeps]
    split
    · exact h.paired (hs n)
    · exact hs m
  | @deduct n f w ce rest todo amount books e p hp ht hd hnext =>
    have hn := hkeep n
    rw [hp] at hn
    intro m
    rw [goto_sweeps]
    split
    · rcases hnext with rfl | ⟨-,rfl⟩
      · obtain ⟨hrest,v,hv,hsame⟩ := paired_cons hn
        exact ⟨v,hv,fun ce hce => (hrest ce hce).trans hsame.tenantID.symm⟩
      · exact paired_resume (paired_cons hn)
    · exact hkeep m
  | _ => exact hkeep

theorem run_paired {init : State → Prop} {ok : State → Label → Prop} {s : State}
    (hi : ∀ s, init s → ∀ n, s.sweeps n = .idle) (h : Reachable step init ok s) : Paired s :=
  h.invariant (fun s h₀ n => by rw [hi s h₀ n]; trivial)
    (fun s l t hs _ hst => step_paired (step_moves hst) hs)

theorem reachable_paired {ok : State → Label → Prop} {s : State} (h : Reachable step initial ok s) :
    Paired s := run_paired (fun _ hi => hi.2.2.2.1) h

def Attributed (s : State) : Prop :=
  ∀ e ∈ s.books.ledger, e.entryType = .deduction →
    ∃ w r, s.books.getWallet e.walletID = some w ∧ CostRow.Of s.costs r ∧
      e.costEntryID = some r.id ∧ r.tenantID = w.tenantID

theorem step_attributed {s t : State} {l : Label} (h : Moves s l t) (hr : Read s) (hp : Paired s)
    (hs : Attributed s) : Attributed t := by
  have hold : ∀ e ∈ s.books.ledger, e.entryType = .deduction →
      ∃ w r, t.books.getWallet e.walletID = some w ∧ CostRow.Of t.costs r ∧
        e.costEntryID = some r.id ∧ r.tenantID = w.tenantID := by
    intro e he htype
    obtain ⟨w,r,hw,hof,hid,htenant⟩ := hs e he htype
    obtain ⟨w',hw',hsame⟩ := h.keeps hw
    exact ⟨w',r,hw',h.grows hof,hid,htenant.trans hsame.tenantID.symm⟩
  cases h with
  | credit hreq hc =>
    obtain ⟨w,w',hm,-⟩ := hc.moved
    obtain ⟨-,htop,-⟩ := hc.entry
    intro e he htype
    rw [hm.ledger] at he
    rcases List.mem_append.mp he with he | he
    · exact hold e he htype
    · rw [List.mem_singleton.mp he,htop] at htype
      cases htype
  | @deduct n f w ce rest todo amount books e p hsweep ht hd hnext =>
    obtain ⟨v,v',hm,hid,-⟩ := hd.moved
    obtain ⟨-,-,-,hcost,-⟩ := hd.entry
    have hpair := hp n
    rw [hsweep] at hpair
    obtain ⟨htenant,u,hu,hsame⟩ := hpair
    intro a ha htype
    rw [goto_books,hm.ledger] at ha
    rcases List.mem_append.mp ha with ha | ha
    · exact hold a ha htype
    · rw [List.mem_singleton.mp ha,hm.entry]
      refine ⟨v',ce,by rw [goto_books,hm.getWallet,if_pos rfl],
        hr.head hsweep,hcost,?_⟩
      rw [htenant ce List.mem_cons_self,hm.kept.tenantID,← hm.eq_of_found (hid ▸ hu),
        hsame.tenantID]
  | _ => exact hold

theorem reachable_attributed {ok : State → Label → Prop} {s : State}
    (h : Reachable step initial ok s) : Attributed s := by
  refine h.invariant_with (fun _ h => And.intro (reachable_read h) (reachable_paired h))
    (fun s hi e he => ?_)
    (fun s l t hp _ hs _ hst => step_attributed (step_moves hst) hp.1 hp.2 hs)
  rw [hi.2.1] at he
  cases he

/-- A tenant's new wallet has the currency of its cost entries, and its new cost
entries that of its wallets. -/
def oneCurrency (s : State) : Label → Bool
  | .create req id now _ =>
    match req.wallet id now with
    | .error _ => true
    | .ok w => s.costs.all (fun c => c.tenantID = w.tenantID → c.currency = w.currency)
  | .rating l =>
    (written s.rating l).all (fun c =>
      s.books.wallets.rows.all (fun w => c.tenantID = w.tenantID → c.currency = w.currency))
  | _ => true

def OneCurrency (s : State) : Prop :=
  ∀ w ∈ s.books.wallets.rows, ∀ c ∈ s.costs, c.tenantID = w.tenantID → c.currency = w.currency

theorem step_oneCurrency {s t : State} {l : Label} (h : Moves s l t) (hl : oneCurrency s l = true)
    (hs : OneCurrency s) : OneCurrency t := by
  have hmoved : ∀ {w w' : WalletRecord} {e : WalletLedgerEntry}, t.costs = s.costs →
      Books.Moved s.books t.books w w' e → OneCurrency t := by
    intro w w' e hcosts hm v hv c hc
    rw [hcosts] at hc
    rcases hm.mem hv with rfl | ⟨hv,-⟩
    · rw [hm.kept.tenantID,hm.kept.congr (·.currency) (fun _ _ _ => rfl)]
      exact hs w (Books.getWallet_mem hm.found) c hc
    · exact hs v hv c hc
  cases h with
  | rating h =>
    intro w hw c hc
    rcases costs_written h with hsame | hnew
    · rw [State.costs,hsame] at hc
      exact hs w hw c hc
    · rw [State.costs,hnew] at hc
      rcases List.mem_append.mp hc with hc | hc
      · exact hs w hw c hc
      · simp only [oneCurrency,List.all_eq_true,decide_eq_true_eq] at hl
        exact hl c hc w hw
  | @create req id now w hw hid =>
    intro v hv c hc
    rcases (Table.mem_insert (Table.find?_eq_none.mp hid)).mp hv with rfl | hv
    · simp only [oneCurrency,hw,List.all_eq_true,decide_eq_true_eq] at hl
      exact hl c hc
    · exact hs v hv c hc
  | credit hr hc =>
    obtain ⟨w,w',hm,-⟩ := hc.moved
    exact hmoved rfl hm
  | deduct hp ht hd hnext =>
    obtain ⟨w,w',hm,-⟩ := hd.moved
    exact hmoved rfl hm
  | _ => exact hs

/-- As long as every tenant keeps to one currency, a wallet pays only for cost
entries of its own. -/
theorem currencies_match {s : State}
    (h : Reachable step initial (fun s l => oneCurrency s l = true) s) {e : WalletLedgerEntry}
    (he : e ∈ s.books.ledger) (htype : e.entryType = .deduction) :
    ∃ w r, s.books.getWallet e.walletID = some w ∧ r ∈ s.books.costRows s.costs ∧
      e.costEntryID = some r.id ∧ r.currency = w.currency := by
  have hone : OneCurrency s := by
    refine h.invariant (fun s hi w hw => ?_)
      (fun s l t hs hl hst => step_oneCurrency (step_moves hst) hl hs)
    rw [hi.1] at hw
    cases hw
  obtain ⟨w,r,hw,hof,hid,htenant⟩ := reachable_attributed h e he htype
  refine ⟨w,{ r with walletApplied := s.books.applied r.id },hw,
    Books.mem_costRows.mpr ⟨hof,rfl⟩,hid,?_⟩
  obtain ⟨i,c,hi,-,hc⟩ := hof
  have hcur := hone w (Books.getWallet_mem hw) c (List.mem_of_getElem? hi)
  rw [hc] at htenant ⊢
  exact hcur htenant

theorem currencies_match_in_run :
    ∃ s, Reachable step initial (fun s l => oneCurrency s l = true) s ∧
      ∃ e ∈ s.books.ledger, e.entryType = .deduction ∧
        ∃ w r, s.books.getWallet e.walletID = some w ∧ r ∈ s.books.costRows s.costs ∧
          e.costEntryID = some r.id ∧ r.currency = w.currency := by
  obtain ⟨s,hs,e,he,htype⟩ := Reachable.exists_of_checked step initial oneCurrency (opening (5/2) "USD")
    (fundWallet 10 ++ chargeToken ++ payOnce 0) (fun s => ∃ e ∈ s.books.ledger, e.entryType = .deduction)
    (fun _ _ h => h) (opening_empty _ _).1 (by decide +kernel)
  exact ⟨s,hs,e,he,htype,currencies_match hs he htype⟩

/-- A token is rated at a rate in euros, and a wallet in dollars pays for it. -/
theorem euros_paid_in_dollars :
    ∃ s, Reachable step empty anyStep s ∧
      ∃ e ∈ s.books.ledger, e.entryType = .deduction ∧
        ∃ r ∈ s.books.costRows s.costs, e.costEntryID = some r.id ∧ r.currency = "EUR" ∧
          ∃ w ∈ s.books.wallets.rows, w.id = e.walletID ∧ w.currency = "USD" :=
  Reachable.exists_of_run step empty (opening (5/2) "EUR") (fundWallet 10 ++ chargeToken ++ payOnce 0) _
    (opening_empty _ _) (by decide +kernel)

end CostConsumer.Wallet
