import CostConsumer.Wallet.Currency
import CostConsumer.Wallet.Sweep
set_option autoImplicit false

/-!
What is left to do after a whole run of `DeductWallets`. Costs have ten decimals
and what was applied to them six: an entry whose cost was rounded down stays on
the list, and every later run pays nothing for it and writes a row.
-/

namespace CostConsumer.Wallet
open Inventory Foundation Numeric

/-- No new cost entry and no top-up for a tenant. -/
def quiet (tenantID : String) (s : State) : Label → Bool
  | .rating l => (written s.rating l).all (fun c => c.tenantID ≠ tenantID)
  | .credit i _ =>
    match s.requests[i]? with
    | none => true
    | some req => (s.books.getWallet req.walletID).all (fun w => w.tenantID ≠ tenantID)
  | _ => true

/-- The id is that of the tenant's newest wallet, which is above its floor. -/
def Rich (b : Books) (tenantID id : String) : Prop :=
  ∃ c, b.getWalletForTenant tenantID = some c ∧ c.id = id ∧ 0 < c.available

/-- The tables `b'` and cost entries `costs'` since a run, as far as a tenant and
one of its wallets go. -/
structure Still (b : Books) (costs : List CostEntry) (tenantID : String) (w : WalletRecord)
    (b' : Books) (costs' : List CostEntry) : Prop where
  grown : ∀ r : CostRow, r.Of costs → r.Of costs'
  known : ∀ r : CostRow, r.tenantID = tenantID → r.Of costs' → r.Of costs
  applied : ∀ r : CostRow, r.tenantID = tenantID → r.Of costs → b'.applied r.id = b.applied r.id
  keys : ((b.activeOf tenantID).map (·.key)).Sublist ((b'.activeOf tenantID).map (·.key))
  rows : ∀ v ∈ b'.wallets.rows, v.tenantID = tenantID →
    v ∈ b.wallets.rows ∨ v.available ≤ 0 ∨ Rich b tenantID v.id
  wallet : w ∈ b'.wallets.rows
  ledger : b'.rowsOf w.id = b.rowsOf w.id

structure Waiting (b : Books) (tenantID : String) (t : State) : Prop where
  wallet : ∀ n u, (t.sweeps n).wallet? = some u → u.tenantID = tenantID →
    u.available ≤ 0 ∨ Rich b tenantID u.id
  refreshing : ∀ n id es todo v, t.sweeps n = .refreshing id es todo →
    t.books.getWallet id = some v → v.tenantID = tenantID → Rich b tenantID id
  entries : ∀ n, ∀ ce ∈ (t.sweeps n).entries, ce.tenantID = tenantID →
    ce.walletApplied = b.applied ce.id ∧ ce.walletApplied.value < ce.costAmount

section Run
variable {b : Books} {costs : List CostEntry} {tenantID : String} {w : WalletRecord}

theorem Still.start (hw : w ∈ b.wallets.rows) : Still b costs tenantID w b costs :=
  ⟨fun _ h => h,fun _ _ h => h,fun _ _ _ => rfl,.refl _,fun _ hv _ => .inl hv,hw,rfl⟩

section Tables
variable {b₁ b₂ : Books} {costs₁ : List CostEntry}

theorem Still.moved {v v' : WalletRecord} {e : WalletLedgerEntry}
    (h : Still b costs tenantID w b₁ costs₁) (hm : Books.Moved b₁ b₂ v v' e) (hne : v'.id ≠ w.id)
    (hv : v.tenantID = tenantID → Rich b tenantID v'.id)
    (ha : ∀ r : CostRow, r.tenantID = tenantID → r.Of costs → b₂.applied r.id = b₁.applied r.id) :
    Still b costs tenantID w b₂ costs₁ := by
  refine ⟨h.grown,h.known,fun r ht hr => (ha r ht hr).trans (h.applied r ht hr),?_,
    fun x hx ht => ?_,?_,?_⟩
  · rw [hm.frame.keys tenantID]
    exact h.keys
  · rcases hm.mem hx with rfl | ⟨hx,-⟩
    · exact .inr (.inr (hv (hm.kept.tenantID.symm.trans ht)))
    · exact h.rows x hx ht
  · have hget := hm.getWallet w.id
    rw [if_neg (Ne.symm hne),Books.getWallet_of_mem h.wallet] at hget
    exact Books.getWallet_mem hget
  · rw [Books.rowsOf,Books.select_snoc hm.ledger,if_neg (by simpa [hm.entry] using hne),
      List.append_nil]
    exact h.ledger

theorem Still.append {new : List CostEntry} (h : Still b costs tenantID w b₁ costs₁)
    (hnew : ∀ e ∈ new, e.tenantID ≠ tenantID) : Still b costs tenantID w b₁ (costs₁ ++ new) := by
  refine ⟨fun r hr => (h.grown r hr).append new,fun r ht hr => ?_,h.applied,h.keys,h.rows,h.wallet,
    h.ledger⟩
  rcases hr.of_append with hr | ⟨-,e,he,heq⟩
  · exact h.known r ht hr
  · exact absurd (heq.symm.trans ht) (hnew e he)

theorem Still.created {req : CreateWalletRequest} {id : String} {now : Int} {v : WalletRecord}
    (h : Still b costs tenantID w b₁ costs₁) (hv : req.wallet id now = .ok v)
    (hid : b₁.getWallet v.id = none) :
    Still b costs tenantID w { b₁ with wallets := b₁.wallets.insert v } costs₁ := by
  have hmem : ∀ {x}, x ∈ (b₁.wallets.insert v).rows ↔ x = v ∨ x ∈ b₁.wallets.rows :=
    Table.mem_insert (Table.find?_eq_none.mp hid)
  refine ⟨h.grown,h.known,h.applied,h.keys.trans ?_,fun x hx ht => ?_,hmem.mpr (.inr h.wallet),
    h.ledger⟩
  · exact ((b₁.wallets.sublist_insert v).filter _).map _
  · rcases hmem.mp hx with rfl | hx
    · -- a new wallet is empty
      obtain ⟨hbal,hfloor,-⟩ := wallet_new hv
      exact .inr (.inl (by simp [WalletRecord.available,hbal,hfloor]))
    · exact h.rows x hx ht

theorem Still.chosen {u : WalletRecord} (h : Still b costs tenantID w b₁ costs₁)
    (hu : b₁.getWalletForTenant tenantID = some u) : u.available ≤ 0 ∨ Rich b tenantID u.id := by
  obtain ⟨hmem,ht,-⟩ := Books.getWalletForTenant_some hu
  rcases h.rows u hmem ht with hold | hrest
  · have hb := getWalletForTenant_back h.keys hu (Books.getWallet_of_mem hold) (.refl u)
    exact (le_or_gt u.available 0).imp_right fun hpos => ⟨u,hb,rfl,hpos⟩
  · exact hrest

end Tables

theorem resume_ne_refreshing (wallet : Option WalletRecord) (entries es : List CostRow)
    (todo todo' : List String) (id : String) :
    Sweep.resume wallet entries todo ≠ .refreshing id es todo' := by
  cases entries with
  | nil => cases todo <;> exact Sweep.noConfusion
  | cons ce entries => exact Sweep.noConfusion

theorem Next.ne_refreshing {s : State} {n : Nat} {l : Label} {p : Sweep} (h : Next s n l p)
    (id : String) (es : List CostRow) (todo : List String) : p ≠ .refreshing id es todo := by
  cases h with
  | stop l => exact Sweep.noConfusion
  | begin => exact resume_ne_refreshing none [] es _ todo id
  | pass hp => exact resume_ne_refreshing none [] es _ todo id
  | wallet hp hw hl => exact Sweep.noConfusion
  | list hp => exact resume_ne_refreshing _ _ es _ todo id
  | skip f hp => exact resume_ne_refreshing _ _ es _ todo id
  | refresh failed hp => exact resume_ne_refreshing _ _ es _ todo id

theorem Waiting.swept {s : State} {n : Nat} {l : Label} {p : Sweep} (h : Waiting b tenantID s)
    (hs : Still b costs tenantID w s.books s.costs) (hn : Next s n l p) : Waiting b tenantID (s.goto n p) := by
  refine ⟨fun m u hu ht => ?_,fun m id es todo v hm hv ht => ?_,fun m ce hce ht => ?_⟩
  · rw [goto_sweeps] at hu
    split at hu
    · cases hn with
      | stop l => cases hu
      | begin => simp at hu
      | pass hp => simp at hu
      | wallet hp hw hl =>
        cases hu
        obtain ⟨-,rfl,-⟩ := Books.getWalletForTenant_some hw
        exact hs.chosen (ht ▸ hw)
      | list hp =>
        cases Sweep.wallet_resume hu
        exact h.wallet n u (by rw [hp]; rfl) ht
      | skip f hp =>
        cases Sweep.wallet_resume hu
        exact h.wallet n u (by rw [hp]; rfl) ht
      | refresh failed hp =>
        cases failed with
        | true => cases Sweep.wallet_resume hu
        | false =>
          have hget := Sweep.wallet_resume hu
          rw [if_neg Bool.false_ne_true] at hget
          rw [Books.getWallet_id hget]
          exact .inr (h.refreshing n _ _ _ u hp hget ht)
    · exact h.wallet m u hu ht
  · rw [goto_sweeps] at hm
    split at hm
    · exact absurd hm (hn.ne_refreshing id es todo)
    · exact h.refreshing m id es todo v hm hv ht
  · rw [goto_sweeps] at hce
    split at hce
    · rcases hn.entries hce with hce | ⟨t,hce⟩
      · exact h.entries n ce hce ht
      · obtain ⟨hrow,-,hlt⟩ := Books.mem_unapplied.mp hce
        obtain ⟨hof,ha⟩ := Books.mem_costRows.mp hrow
        exact ⟨ha.trans (hs.applied ce ht (hs.known ce ht hof)),hlt⟩
    · exact h.entries m ce hce ht

theorem Waiting.kept {s t : State} (h : Waiting b tenantID s) (hp : Paired s)
    (hsweeps : t.sweeps = s.sweeps)
    (hkeep : ∀ id v, s.books.getWallet id = some v → ∃ v', t.books.getWallet id = some v' ∧ v'.Same v) :
    Waiting b tenantID t := by
  refine ⟨fun n u hu => h.wallet n u (hsweeps ▸ hu),fun n id es todo v hn hv ht => ?_,
    fun n ce hce => h.entries n ce (hsweeps ▸ hce)⟩
  rw [hsweeps] at hn
  have hpair := hp n
  rw [hn] at hpair
  obtain ⟨v₀,hv₀,-⟩ := hpair
  obtain ⟨v',hv',hsame⟩ := hkeep id v₀ hv₀
  rw [hv,Option.some.injEq] at hv'
  subst hv'
  exact h.refreshing n id es todo v₀ hn hv₀ (hsame.tenantID.symm.trans ht)

/-- The tables right after a run, with nothing left to pay but what the columns
cannot hold; for the wallet itself not even that. -/
structure Settled (b : Books) (costs : List CostEntry) (tenantID : String) (w : WalletRecord) :
    Prop where
  mem : w ∈ b.wallets.rows
  tenant : w.tenantID = tenantID
  paid : ∀ c, b.getWalletForTenant tenantID = some c → 0 < c.available → ∀ r : CostRow, r.Of costs →
    r.tenantID = tenantID → (b.applied r.id).value < r.costAmount →
      (b.applied r.id).value = stored 6 r.costAmount
  fine : b.getWalletForTenant tenantID = some w → ∀ r : CostRow, r.Of costs →
    r.tenantID = tenantID → r.costAmount ≤ (b.applied r.id).value

theorem rest_is_paid {u : WalletRecord} {ce : CostRow} {amount : Rat}
    (ht : turn (some u) ce = .deduct u amount)
    (hpaid : ce.walletApplied.value = stored 6 ce.costAmount) : amount = ce.remaining := by
  obtain ⟨-,hpos,hle,hle',hamount⟩ := turn_deduct ht
  refine hamount.resolve_right fun hpart => ?_
  have hunit := Column.unit_le_sub (sub_pos.mp (hpos.trans_le hle'))
  have hrest := sub_stored_le 6 ce.costAmount
  rw [CostRow.remaining,hpaid] at hle
  rw [hpart,WalletRecord.available] at hle
  have := hunit.trans (hle.trans hrest)
  norm_num at this

/-- A deduction for the tenant comes from its newest wallet, which is not the one
that is settled, and leaves the entry as it is. -/
theorem Settled.rest {u : WalletRecord} {ce : CostRow} {amount : Rat}
    (h : Settled b costs tenantID w) (hu : Rich b tenantID u.id) (hof : ce.Of costs)
    (htenant : ce.tenantID = tenantID) (hread : ce.walletApplied = b.applied ce.id)
    (hlt : ce.walletApplied.value < ce.costAmount) (ht : turn (some u) ce = .deduct u amount) :
    u.id ≠ w.id ∧ stored 6 ((b.applied ce.id).value + amount) = (b.applied ce.id).value := by
  obtain ⟨c,hc,hid,hpos⟩ := hu
  rw [hread] at hlt
  have hpaid := h.paid c hc hpos ce hof htenant hlt
  constructor
  · intro heq
    have hcw := Table.key_injective (Books.getWalletForTenant_some hc).1 h.mem (hid.trans heq)
    exact absurd hlt (not_lt.mpr (h.fine (hcw ▸ hc) ce hof htenant))
  · rw [rest_is_paid ht (hread ▸ hpaid),stored_remaining hread,hpaid]

theorem Still.deducted {s : State} {n : Nat} {u : WalletRecord} {ce : CostRow}
    {rest : List CostRow} {todo : List String} {amount : Rat} {books : Books}
    {e : WalletLedgerEntry} (h : Still b costs tenantID w s.books s.costs)
    (hb : Settled b costs tenantID w) (hw : Waiting b tenantID s) (hr : Read s) (hp : Paired s)
    (hs : s.sweeps n = .paying (some u) (ce :: rest) todo)
    (ht : turn (some u) ce = .deduct u amount)
    (hd : s.books.Deducted s.costs u.id ce.id amount books e) :
    Still b costs tenantID w books s.costs := by
  have hof := hr.head hs
  obtain ⟨v,v',hm,hid,-⟩ := hd.moved
  obtain ⟨c,hc,ha⟩ := hd.applied hof.id_mem
  have hpair := hp n
  rw [hs] at hpair
  obtain ⟨hentries,v₀,hv₀,hsame⟩ := hpair
  cases hm.eq_of_found (hid ▸ hv₀)
  have hvu := hsame.tenantID
  have hce : ce.tenantID = u.tenantID := hentries ce List.mem_cons_self
  by_cases htenant : u.tenantID = tenantID
  · obtain ⟨-,hpos,-,hle,-⟩ := turn_deduct ht
    have hrich : Rich b tenantID u.id := (hw.wallet n u (by rw [hs]; rfl) htenant).resolve_left
      (not_le.mpr (hpos.trans_le hle))
    obtain ⟨hread,hlt⟩ := hw.entries n ce (by rw [hs]; exact List.mem_cons_self)
      (hce.trans htenant)
    have hof' := h.known ce (hce.trans htenant) hof
    obtain ⟨hne,hsum⟩ := hb.rest hrich hof' (hce.trans htenant) hread hlt ht
    have hold := h.applied ce (hce.trans htenant) hof'
    rw [hold,hsum,← hold] at hc
    refine h.moved hm (hid ▸ hne) (fun _ => hid ▸ hrich) fun r _ _ => ?_
    rw [ha,Column.value_injective hc,Function.update_eq_self]
  · refine h.moved hm (fun heq => ?_) (fun hv => absurd (hvu.symm.trans hv) htenant)
      fun r hrt hrof => ?_
    · have hw₀ := Books.getWallet_of_mem h.wallet
      rw [← heq,hid,hv₀,Option.some.injEq] at hw₀
      exact htenant (hvu.symm.trans (hw₀ ▸ hb.tenant))
    · rw [ha,Function.update_of_ne]
      intro heq
      have hentry := (h.grown r hrof).entry_eq hof heq
      exact htenant (hce.symm.trans ((congrArg CostEntry.tenantID hentry).symm.trans hrt))

theorem Waiting.deducted {s : State} {n : Nat} {f : Faults} {u : WalletRecord} {ce : CostRow}
    {rest : List CostRow} {todo : List String} {amount : Rat} {books : Books} {p : Sweep}
    (h : Waiting b tenantID s) (h' : Waiting b tenantID { s with books }) (hp : Paired { s with books })
    (hs : s.sweeps n = .paying (some u) (ce :: rest) todo)
    (ht : turn (some u) ce = .deduct u amount)
    (hnext : p = .refreshing u.id rest todo ∨
      f.commit = .answerLost ∧ p = .resume (some u) rest todo) :
    Waiting b tenantID ({ s with books }.goto n p) := by
  have hu : u.tenantID = tenantID → u.available ≤ 0 ∨ Rich b tenantID u.id :=
    h.wallet n u (by rw [hs]; rfl)
  refine ⟨fun m v hv htenant => ?_,fun m id es todo' v hm hv htenant => ?_,fun m c hc htenant => ?_⟩
  · rw [goto_sweeps] at hv
    split at hv
    · rcases hnext with rfl | ⟨-,rfl⟩
      · cases hv
      · cases Sweep.wallet_resume hv
        exact hu htenant
    · exact h.wallet m v hv htenant
  · rw [goto_sweeps] at hm
    split at hm
    · rcases hnext with rfl | ⟨-,rfl⟩
      · cases hm
        obtain ⟨-,hpos,-,hle,-⟩ := turn_deduct ht
        have hpair := hp n
        rw [show ({ s with books } : State).sweeps n = _ from hs] at hpair
        obtain ⟨-,v₀,hv₀,hsame⟩ := hpair
        rw [show books.getWallet u.id = some v from hv,Option.some.injEq] at hv₀
        subst hv₀
        refine (hu ?_).resolve_left (not_le.mpr (hpos.trans_le hle))
        exact hsame.tenantID.symm.trans htenant
      · exact absurd hm (resume_ne_refreshing _ _ _ _ _ _)
    · exact h'.refreshing m id es todo' v hm hv htenant
  · rw [goto_sweeps] at hc
    split at hc
    · refine h.entries n c ?_ htenant
      rw [hs]
      exact List.mem_cons_of_mem _ (entries_paid hnext ▸ hc)
    · exact h.entries m c hc htenant

theorem step_still {s t : State} {l : Label} (hb : Settled b costs tenantID w) (h : Moves s l t)
    (hq : quiet tenantID s l = true) (hr : Read s) (hp : Paired s)
    (hs : Still b costs tenantID w s.books s.costs) (hw : Waiting b tenantID s) :
    Still b costs tenantID w t.books t.costs := by
  cases h with
  | rating h =>
    simp only [quiet,List.all_eq_true,decide_eq_true_eq] at hq
    rcases costs_written h with hsame | hnew
    · rw [State.costs,hsame]
      exact hs
    · rw [State.costs,hnew]
      exact hs.append hq
  | create hv hid => exact hs.created hv hid
  | credit hreq hc =>
    obtain ⟨v,v',hm,hid,-⟩ := hc.moved
    simp only [quiet,hreq,← hid,hm.found,Option.all_some,decide_eq_true_eq] at hq
    refine hs.moved hm (fun heq => ?_) (fun hv => absurd hv hq) (fun _ _ _ => by rw [hc.applied])
    have hget := Books.getWallet_of_mem hs.wallet
    rw [← heq,hm.found,Option.some.injEq] at hget
    exact hq (hget ▸ hb.tenant)
  | deduct hsweep ht hd hnext => exact hs.deducted hb hw hr hp hsweep ht hd
  | _ => exact hs

theorem step_waiting {s t : State} {l : Label} (h : Moves s l t) (hp : Paired s)
    (hs : Still b costs tenantID w s.books s.costs) (hw : Waiting b tenantID s) :
    Waiting b tenantID t := by
  have hkeep : ∀ id v, s.books.getWallet id = some v →
      ∃ v', t.books.getWallet id = some v' ∧ v'.Same v := fun _ _ => h.keeps
  cases h with
  | sweep hn => exact hw.swept hs hn
  | @deduct n f u ce rest todo amount books e p hsweep ht hd hnext =>
    have hpair : Paired { s with books } := fun n => (hp n).keep hkeep
    exact hw.deducted (hw.kept hp rfl hkeep) hpair hsweep ht hnext
  | _ => exact hw.kept hp rfl hkeep

theorem Waiting.idle {t : State} (h : ∀ n, t.sweeps n = .idle) : Waiting b tenantID t := by
  refine ⟨fun n u hu => ?_,fun n id es todo v hn => ?_,fun n ce hce => ?_⟩
  · rw [h n] at hu
    cases hu
  · rw [h n] at hn
    cases hn
  · rw [h n] at hce
    cases hce

theorem Settled.run {s t : State} (hb : Settled b s.costs tenantID w) (hidle : ∀ n, s.sweeps n = .idle)
    (h : Reachable step (· = { s with books := b }) (fun s l => quiet tenantID s l = true) t) :
    Still b s.costs tenantID w t.books t.costs := by
  have hi : ∀ t, t = { s with books := b } → ∀ n, t.sweeps n = .idle := by
    rintro t rfl n
    exact hidle n
  refine (h.invariant_with (Q := fun t => Still b s.costs tenantID w t.books t.costs ∧
    Waiting b tenantID t) (fun t ht => And.intro (run_read hi ht) (run_paired hi ht))
    (fun t h₀ => ⟨?_,.idle (hi t h₀)⟩) (fun t l t' hp _ hs hq hst => ?_)).1
  · subst h₀
    exact .start hb.mem
  · have hmoves := step_moves hst
    exact ⟨step_still hb hmoves hq hp.1 hp.2 hs.1 hs.2,step_waiting hmoves hp.2 hs.1 hs.2⟩

end Run

theorem pays_again {s : State} {tenantID : String} {w : WalletRecord} {ce : CostRow}
    {rest : List CostRow} {amount : Rat} {b : Books} {e : WalletLedgerEntry}
    (hidle : s.sweeps 0 = .idle) (hw : s.books.getWalletForTenant tenantID = some w)
    (hentries : s.books.unappliedCostEntries s.costs tenantID = ce :: rest)
    (ht : turn (some w) ce = .deduct w amount)
    (hd : s.books.deductFromWallet s.costs {} w.id ce.id amount = (b,some e)) :
    ∃ p, Reachable step (· = s) (fun s l => quiet tenantID s l = true) (s.at 0 b p) := by
  obtain ⟨pre,post,hsplit⟩ := List.append_of_mem (mem_allTenantsWithWallets hw)
  -- the wallets of the tenants before this one cannot be read
  have hskip : ∀ pre : List String, Reachable step (· = s.at 0 s.books (.next (pre ++ tenantID :: post)))
      (fun s l => quiet tenantID s l = true) (s.at 0 s.books (.tenants (tenantID :: post))) := by
    intro pre
    induction pre with
    | nil => exact .start rfl
    | cons t pre ih =>
      have hstep := step_wallet_at s 0 s.books true t (pre ++ tenantID :: post)
      cases hw : s.books.getWalletForTenant t with
      | none =>
        simp only [hw] at hstep
        exact .head rfl hstep ih
      | some w =>
        simp only [hw,if_true] at hstep
        exact .head rfl hstep ih
  have hwallet := step_wallet_at s 0 s.books false tenantID post
  have hlist := step_list_at s 0 s.books false tenantID w post
  have hpay := step_pay_at s 0 s.books {} (some w) ce rest post
  simp only [hw] at hwallet
  rw [hentries] at hlist
  simp only [ht,hd] at hpay
  have hbegin := step_begin_at hidle
  rw [hsplit] at hbegin
  exact ⟨_,.head rfl hbegin ((hskip pre).trans
    (.head rfl hwallet (.head rfl hlist (.head rfl hpay (.start rfl)))))⟩

theorem rest_deducts (costs : List CostEntry) {b : Books} {w : WalletRecord} {ce : CostRow}
    (hw : b.getWallet w.id = some w) (hl : w.lifecycleState = .active) (hpos : 0 < w.available)
    (hread : ce.walletApplied = b.applied ce.id)
    (hpaid : ce.walletApplied.value = stored 6 ce.costAmount)
    (hlt : ce.walletApplied.value < ce.costAmount) :
    ∃ amount b' e, turn (some w) ce = .deduct w amount ∧
      b.deductFromWallet costs {} w.id ce.id amount = (b',some e) := by
  obtain ⟨amount,ht⟩ : ∃ amount, turn (some w) ce = .deduct w amount :=
    ⟨_,turn_rich hpos (sub_pos.mpr hlt)⟩
  have hrest := rest_is_paid ht hpaid
  have hsmall := sub_stored_le 6 ce.costAmount
  rw [CostRow.remaining,hpaid] at hrest
  have happlied : Column.store ((b.applied ce.id).value + amount) = some (b.applied ce.id) := by
    refine Column.store_of_stored ?_
    rw [← hread,hrest,← hpaid,add_sub_cancel,← hpaid]
  obtain ⟨b',e,hd⟩ := turn_deducts (a := ⟨1,by norm_num⟩) hw hl ht happlied (by
    rw [Column.value,hrest]
    norm_num at hsmall ⊢
    linarith)
  exact ⟨amount,b',e,ht,hd⟩

section Settles
variable {costs : List CostEntry} {b b' : Books} {tenantID : String} {w : WalletRecord}

theorem newest_after_run (h : deductWallets costs b = some b') (hw : w ∈ b'.wallets.rows) :
    (b.getWalletForTenant tenantID).map (·.id) = some w.id ↔
      b'.getWalletForTenant tenantID = some w := by
  have hid := congrArg (Option.map Prod.fst) (deductWallets_newest tenantID h)
  rw [Option.map_map,Option.map_map] at hid
  change (b'.getWalletForTenant tenantID).map (·.id) = (b.getWalletForTenant tenantID).map (·.id)
    at hid
  rw [← hid,Option.map_eq_some_iff]
  constructor
  · rintro ⟨c,hc,hcw⟩
    rw [← Table.key_injective (Books.getWalletForTenant_some hc).1 hw hcw]
    exact hc
  · exact fun hc => ⟨w,hc,rfl⟩

theorem rest_after_run (h : deductWallets costs b = some b') {c : WalletRecord}
    (hc : b'.getWalletForTenant tenantID = some c) (hpos : 0 < c.available) {r : CostRow}
    (hof : r.Of costs) (hr : r.tenantID = tenantID) (hlt : (b'.applied r.id).value < r.costAmount) :
    (b.applied r.id).value < r.costAmount ∧ (b'.applied r.id).value = stored 6 r.costAmount := by
  obtain ⟨hdone,hpaid⟩ := deductWallets_spec tenantID h
  have hbefore : (b.applied r.id).value < r.costAmount := by
    by_contra hle
    rw [hdone r hof hr (not_lt.mp hle)] at hlt
    exact hle hlt
  exact ⟨hbefore,hpaid c hc hpos r hof hr hbefore⟩

theorem settled_after_run (h : deductWallets costs b = some b') (hw : w ∈ b'.wallets.rows)
    (ht : w.tenantID = tenantID) (hpos : 0 < w.available)
    (hfine : b'.getWalletForTenant tenantID = some w →
      ∀ r ∈ b.unappliedCostEntries costs tenantID, r.costAmount ≤ stored 6 r.costAmount) :
    Settled b' costs tenantID w := by
  refine ⟨hw,ht,fun c hc hcpos r hof hr hlt => (rest_after_run h hc hcpos hof hr hlt).2,
    fun hnew r hof hr => ?_⟩
  by_contra hlt
  obtain ⟨hbefore,hstored⟩ := rest_after_run h hnew hpos hof hr (not_le.mp hlt)
  have hle := hfine hnew { r with walletApplied := b.applied r.id }
    (Books.mem_unapplied.mpr ⟨Books.mem_costRows.mpr ⟨hof,rfl⟩,hr,hbefore⟩)
  exact hlt (hstored ▸ hle)

theorem listed_after_run (h : deductWallets costs b = some b')
    (hnew : b'.getWalletForTenant tenantID = some w) (hpos : 0 < w.available) {r : CostRow}
    (hr : r ∈ b.unappliedCostEntries costs tenantID) (hgt : stored 6 r.costAmount < r.costAmount) :
    ∃ ce rest, b'.unappliedCostEntries costs tenantID = ce :: rest := by
  obtain ⟨hrow,hr,hlt⟩ := Books.mem_unapplied.mp hr
  obtain ⟨hof,ha⟩ := Books.mem_costRows.mp hrow
  have hstored := (deductWallets_spec tenantID h).2 w hnew hpos r hof hr (ha ▸ hlt)
  have hmem : { r with walletApplied := b'.applied r.id } ∈
      b'.unappliedCostEntries costs tenantID :=
    Books.mem_unapplied.mpr ⟨Books.mem_costRows.mpr ⟨hof,rfl⟩,hr,hstored ▸ hgt⟩
  exact List.exists_cons_of_ne_nil (List.ne_nil_of_mem hmem)

end Settles

theorem writes_again {s : State} {b : Books} {tenantID : String} {w : WalletRecord} {ce : CostRow}
    {rest : List CostRow} (hidle : s.sweeps 0 = .idle)
    (h : deductWallets s.costs s.books = some b)
    (hnew : b.getWalletForTenant tenantID = some w) (hpos : 0 < w.available)
    (hentries : b.unappliedCostEntries s.costs tenantID = ce :: rest) :
    ∃ t, Reachable step (· = { s with books := b }) (fun s l => quiet tenantID s l = true) t ∧
      t.books.rowsOf w.id ≠ b.rowsOf w.id := by
  obtain ⟨hw,-,hl⟩ := Books.getWalletForTenant_some hnew
  have hget := Books.getWallet_of_mem hw
  obtain ⟨hrow,hce,hlt⟩ := Books.mem_unapplied.mp (hentries ▸ List.mem_cons_self)
  obtain ⟨hof,ha⟩ := Books.mem_costRows.mp hrow
  have hstored := (rest_after_run h hnew hpos hof hce (ha ▸ hlt)).2
  obtain ⟨amount,b',e,hturn,hd⟩ := rest_deducts s.costs hget hl hpos ha (ha ▸ hstored) hlt
  obtain ⟨p,hrun⟩ := pays_again (s := { s with books := b }) hidle hnew hentries hturn hd
  refine ⟨_,hrun,fun hrows => ?_⟩
  obtain ⟨w',hm,-⟩ := deduct_some hget hd
  have hentry : e.walletID = w.id := hm.entry.trans hm.kept.id
  change b'.rowsOf w.id = b.rowsOf w.id at hrows
  rw [Books.rowsOf,Books.select_snoc hm.ledger,if_pos (by simpa using hentry)] at hrows
  simp [Books.rowsOf] at hrows

/-- After a whole run nothing more happens to a wallet above its floor and to the
entries of its tenant, iff it is not the wallet that pays or no entry it paid for
was rounded down. -/
theorem deduction_settles {s : State} {b : Books} {tenantID : String} {w : WalletRecord}
    (hidle : ∀ n, s.sweeps n = .idle) (h : deductWallets s.costs s.books = some b)
    (hw : w ∈ b.wallets.rows) (ht : w.tenantID = tenantID)
    (hfloor : w.balanceFloor.value < w.balance.value) :
    (∀ t, Reachable step (· = { s with books := b }) (fun s l => quiet tenantID s l = true) t →
      t.books.rowsOf w.id = b.rowsOf w.id ∧ w ∈ t.books.wallets.rows ∧
        ∀ r ∈ t.books.costRows t.costs, r.tenantID = tenantID → r.walletApplied = b.applied r.id) ↔
      ((s.books.getWalletForTenant tenantID).map (·.id) = some w.id →
        ∀ r ∈ s.books.unappliedCostEntries s.costs tenantID, r.costAmount ≤ stored 6 r.costAmount) := by
  have hpos : 0 < w.available := sub_pos.mpr hfloor
  rw [newest_after_run h hw]
  constructor
  · intro hall hnew r hr
    by_contra hgt
    obtain ⟨ce,rest,hentries⟩ := listed_after_run h hnew hpos hr (not_le.mp hgt)
    obtain ⟨t,hrun,hrows⟩ := writes_again (hidle 0) h hnew hpos hentries
    exact hrows (hall t hrun).1
  · intro hfine t hrun
    have hs := (settled_after_run h hw ht hpos hfine).run hidle hrun
    refine ⟨hs.ledger,hs.wallet,fun r hr hrt => ?_⟩
    obtain ⟨hof,ha⟩ := Books.mem_costRows.mp hr
    exact ha.trans (hs.applied r hrt (hs.known r hrt hof))

def oneEntry (cost : Rat) : State where
  rating :=
    ⟨{ costEntries := [⟨1,7,"t","p","u","model","m","maas_tokens_in",1,cost,"USD",0,1⟩] },
      2,[],.idle,[],[]⟩
  books :=
    { wallets := Table.empty.insert
        ⟨"w","t","","USD",⟨10*10^6,by decide⟩,0,⟨10*10^6,by decide⟩,.active,[],0⟩ }
  sweeps := fun _ => .idle
  requests := []
  credited := []

theorem deduction_settles_for_one_entry :
    ∃ b, deductWallets (oneEntry (5/2)).costs (oneEntry (5/2)).books = some b ∧
      ∃ w ∈ b.wallets.rows, w.tenantID = "t" ∧ w.balanceFloor.value < w.balance.value ∧
        (b.rowsOf w.id).map (·.amount.value) = [-5/2] ∧
        ∀ t, Reachable step (· = { oneEntry (5/2) with books := b })
            (fun s l => quiet "t" s l = true) t →
          t.books.rowsOf w.id = b.rowsOf w.id ∧ w ∈ t.books.wallets.rows ∧
            ∀ r ∈ t.books.costRows t.costs, r.tenantID = "t" → r.walletApplied = b.applied r.id := by
  obtain ⟨b,hb,w,hw,ht,hfloor,hrows⟩ : ∃ b, deductWallets (oneEntry (5/2)).costs (oneEntry (5/2)).books = some b ∧
      ∃ w ∈ b.wallets.rows, w.tenantID = "t" ∧ w.balanceFloor.value < w.balance.value ∧
        (b.rowsOf w.id).map (·.amount.value) = [-5/2] := by decide +kernel
  refine ⟨b,hb,w,hw,ht,hfloor,hrows,(deduction_settles (fun _ => rfl) hb hw ht hfloor).mpr ?_⟩
  intro _
  decide +kernel

/-- A cost of 1.0000004 is paid, and the next sweep writes a row about nothing. -/
theorem rounded_cost_paid_again :
    ∃ s b t, Reachable step empty anyStep s ∧ deductWallets s.costs s.books = some b ∧
      Reachable step (· = { s with books := b }) (fun s l => quiet "t" s l = true) t ∧
      ∃ w ∈ b.wallets.rows, w.tenantID = "t" ∧ w.balanceFloor.value < w.balance.value ∧
        (b.rowsOf w.id).map (·.amount.value) = [10,-1] ∧
        (t.books.rowsOf w.id).map (·.amount.value) = [10,-1,0] := by
  obtain ⟨s,hs,b,hb,t,ht,hp⟩ := Reachable.exists_of_run step empty (opening (1 + 4/10^7) "USD")
    (fundWallet 10 ++ chargeToken)
    (fun s => ∃ b, deductWallets s.costs s.books = some b ∧
      ∃ t, runChecked step (quiet "t") { s with books := b } (payOnce 0) = some t ∧
        ∃ w ∈ b.wallets.rows, w.tenantID = "t" ∧ w.balanceFloor.value < w.balance.value ∧
          (b.rowsOf w.id).map (·.amount.value) = [10,-1] ∧
          (t.books.rowsOf w.id).map (·.amount.value) = [10,-1,0])
    (opening_empty _ _) (by decide +kernel)
  exact ⟨s,b,t,hs,hb,.append_checked (fun _ _ h => h) (.start rfl) ht,hp⟩

end CostConsumer.Wallet
