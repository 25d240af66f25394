import CostConsumer.Wallet.Schedule
set_option autoImplicit false

namespace CostConsumer.Wallet
open Inventory Foundation Numeric

inductive Payments (costs : List CostEntry) (walletID : String) (entries : List CostRow) :
    Books → Books → Prop
  | done (b : Books) : Payments costs walletID entries b b
  | pay {b b₁ b₂ : Books} {ce : CostRow} {amount : Rat} {e : WalletLedgerEntry} (hce : ce ∈ entries)
      (hd : b.Deducted costs walletID ce.id amount b₁ e)
      (h : Payments costs walletID entries b₁ b₂) : Payments costs walletID entries b b₂

namespace Schedule

variable {f : Schedule} {costs : List CostEntry}

theorem payEntries_payments {walletID : String} {entries : List CostRow} (es : List CostRow)
    (hes : ∀ ce ∈ es, ce ∈ entries) (b : Books) (wallet : Option WalletRecord)
    (hw : ∀ w, wallet = some w → w.id = walletID) :
    Payments costs walletID entries b (tablesAfter (f.payEntries costs b wallet es)) := by
  induction es generalizing b wallet with
  | nil => exact .done b
  | cons ce rest ih =>
    have hce := hes ce List.mem_cons_self
    have hrest : ∀ c ∈ rest, c ∈ entries := fun c hc => hes c (List.mem_cons_of_mem _ hc)
    unfold payEntries
    cases ht : turn wallet ce with
    | skip => exact ih hrest b wallet hw
    | panic => exact .done b
    | depleted => exact .done b
    | deduct w amount =>
      have hid := hw w (turn_deduct ht).1
      rw [← hid] at ih hw ⊢
      rcases b.deductFromWallet_cases costs (f.pay ce.id) w.id ce.id amount with
        h | ⟨b₁,e,hd,h | ⟨-,h⟩⟩
      · simp only [h]
        exact ih hrest b wallet hw
      · simp only [h]
        refine .pay hce hd (ih hrest b₁ _ fun v hv => ?_)
        cases hr : f.refresh ce.id with
        | true => simp [hr] at hv
        | false =>
          rw [hr] at hv
          exact Books.getWallet_id hv
      · simp only [h]
        exact .pay hce hd (ih hrest b₁ wallet hw)

end Schedule

structure Touches (walletID : String) (entries : List CostRow) (b b' : Books) : Prop where
  wallets : ∀ id, b'.getWallet id = b.getWallet id ∨
    id = walletID ∧ ∃ w balance, b.getWallet id = some w ∧ b'.getWallet id = some { w with balance }
  applied : ∀ id, b'.applied id = b.applied id ∨ ∃ ce ∈ entries, ce.id = id
  ledger : ∃ new, b'.ledger = b.ledger ++ new ∧
    ∀ e ∈ new, e.walletID = walletID ∧ ∃ ce ∈ entries, e.costEntryID = some ce.id
  frame : ∀ w, b.getWallet walletID = some w → Frame b b' w.tenantID

namespace Touches

variable {walletID : String} {entries : List CostRow} {b b₁ b₂ : Books}

theorem refl (walletID : String) (entries : List CostRow) (b : Books) : Touches walletID entries b b :=
  ⟨fun _ => .inl rfl,fun _ => .inl rfl,⟨[],by simp,by simp⟩,fun w _ => .refl b w.tenantID⟩

theorem trans (h : Touches walletID entries b b₁) (h' : Touches walletID entries b₁ b₂) :
    Touches walletID entries b b₂ := by
  refine ⟨fun id => ?_,fun id => ?_,?_,fun w hw => ?_⟩
  · rcases h'.wallets id with h₂ | ⟨hid,v,balance,hv,h₂⟩
    · rw [h₂]
      exact h.wallets id
    · right
      rcases h.wallets id with h₁ | ⟨-,w,balance₁,hw,h₁⟩
      · exact ⟨hid,v,balance,h₁ ▸ hv,h₂⟩
      · rw [h₁,Option.some.injEq] at hv
        subst hv
        exact ⟨hid,w,balance,hw,h₂⟩
  · rcases h'.applied id with h₂ | h₂
    · rw [h₂]
      exact h.applied id
    · exact .inr h₂
  · obtain ⟨new,hnew,hrows⟩ := h.ledger
    obtain ⟨new',hnew',hrows'⟩ := h'.ledger
    refine ⟨new ++ new',by rw [hnew',hnew,List.append_assoc],fun e he => ?_⟩
    rcases List.mem_append.mp he with he | he
    · exact hrows e he
    · exact hrows' e he
  · obtain ⟨w₁,hw₁,hsame⟩ := (h.frame w hw).keeps walletID w hw
    exact (h.frame w hw).trans (hsame.tenantID ▸ h'.frame w₁ hw₁)

theorem deducted {costs : List CostEntry} {ce : CostRow} {amount : Rat} {e : WalletLedgerEntry}
    (hce : ce ∈ entries) (hof : ce.Of costs) (hd : b.Deducted costs walletID ce.id amount b₁ e) :
    Touches walletID entries b b₁ := by
  obtain ⟨w,w',hm,hid,-,-,href⟩ := hd.moved
  obtain ⟨c,-,happlied⟩ := hd.applied hof.id_mem
  obtain ⟨hwallet,-,-,hentry,-⟩ := hd.entry
  refine ⟨fun id => ?_,fun id => ?_,⟨[e],hm.ledger,fun e' he => ?_⟩,fun v hv => ?_⟩
  · rw [hm.getWallet]
    by_cases heq : id = w'.id
    · rw [if_pos heq,heq,hm.found]
      refine .inr ⟨hid,w,w'.balance,rfl,congrArg some ?_⟩
      have hkept := hm.kept
      unfold WalletRecord.Same at hkept
      rw [href] at hkept
      exact hkept
    · exact .inl (if_neg heq)
  · by_cases heq : ce.id = id
    · exact .inr ⟨ce,hce,heq⟩
    · rw [happlied,Function.update_of_ne (Ne.symm heq)]
      exact .inl rfl
  · rw [List.mem_singleton.mp he]
    exact ⟨hwallet,ce,hce,hentry⟩
  · have hv' : b.getWallet w'.id = some v := hid.symm ▸ hv
    rw [hm.eq_of_found hv']
    exact hm.frame

end Touches

theorem Payments.touches {costs : List CostEntry} {walletID : String} {entries : List CostRow} {b b' : Books}
    (h : Payments costs walletID entries b b') (hof : ∀ ce ∈ entries, ce.Of costs) :
    Touches walletID entries b b' := by
  induction h with
  | done b => exact .refl walletID entries b
  | pay hce hd _ ih => exact (Touches.deducted hce (hof _ hce) hd).trans ih

theorem Schedule.payEntries_touches (f : Schedule) {costs : List CostEntry} {entries : List CostRow} (b : Books)
    (w : WalletRecord) (hof : ∀ ce ∈ entries, ce.Of costs) :
    Touches w.id entries b (tablesAfter (f.payEntries costs b (some w) entries)) := by
  refine (payEntries_payments entries (fun _ h => h) b (some w) fun v hv => ?_).touches hof
  cases hv
  rfl

theorem Schedule.payTenant_touches (f : Schedule) (costs : List CostEntry) (b : Books) (tenantID : String) :
    tablesAfter (f.payTenant costs b tenantID) = b ∨
      ∃ w, b.getWalletForTenant tenantID = some w ∧
        Touches w.id (b.unappliedCostEntries costs tenantID) b (tablesAfter (f.payTenant costs b tenantID)) := by
  unfold payTenant
  split
  · exact .inl rfl
  · cases hw : b.getWalletForTenant tenantID with
    | none => exact .inl rfl
    | some w =>
      simp only
      split
      · exact .inl rfl
      · exact .inr ⟨w,rfl,f.payEntries_touches b w fun ce hce => (unapplied_of hce).1⟩

/-- What a run may have changed since `b`: balances of wallets that are the newest active
ones of their tenants, entries of such tenants, and rows for both at the end of the ledger. -/
structure Within (costs : List CostEntry) (b b' : Books) : Prop where
  wallets : ∀ id, b'.getWallet id = b.getWallet id ∨
    ∃ w balance, b.getWallet id = some w ∧ b.getWalletForTenant w.tenantID = some w ∧
      b'.getWallet id = some { w with balance }
  applied : ∀ id, b'.applied id = b.applied id ∨
    ∃ r : CostRow, r.Of costs ∧ r.id = id ∧ ∃ w, b.getWalletForTenant r.tenantID = some w
  ledger : ∃ new, b'.ledger = b.ledger ++ new ∧ ∀ e ∈ new, ∃ (w : WalletRecord) (r : CostRow),
    b.getWalletForTenant w.tenantID = some w ∧ e.walletID = w.id ∧ r.Of costs ∧
      r.tenantID = w.tenantID ∧ e.costEntryID = some r.id
  keys : ∀ t, (b'.activeOf t).map (·.key) = (b.activeOf t).map (·.key)

namespace Within

variable {costs : List CostEntry} {b b₁ b₂ : Books}

theorem refl (costs : List CostEntry) (b : Books) : Within costs b b :=
  ⟨fun _ => .inl rfl,fun _ => .inl rfl,⟨[],by simp,by simp⟩,fun _ => rfl⟩

theorem chosen (h : Within costs b b₁) {tenantID : String} {w : WalletRecord}
    (hw : b₁.getWalletForTenant tenantID = some w) :
    ∃ v balance, b.getWalletForTenant tenantID = some v ∧ w = { v with balance } := by
  have hget := Books.getWallet_of_mem (Books.getWalletForTenant_some hw).1
  have hback : ∃ v balance, b.getWallet w.id = some v ∧ w = { v with balance } := by
    rcases h.wallets w.id with h₁ | ⟨v,balance,hv,-,h₁⟩
    · exact ⟨w,w.balance,h₁ ▸ hget,rfl⟩
    · rw [hget,Option.some.injEq] at h₁
      exact ⟨v,balance,hv,h₁⟩
  obtain ⟨v,balance,hv,heq⟩ := hback
  have hsame : w.Same v := by
    rw [heq]
    rfl
  exact ⟨v,balance,getWalletForTenant_back ((h.keys tenantID).symm ▸ .refl _) hw hv hsame,heq⟩

theorem touched (h : Within costs b b₁) {tenantID : String} {w : WalletRecord} {entries : List CostRow}
    (hw : b₁.getWalletForTenant tenantID = some w)
    (hof : ∀ ce ∈ entries, ce.Of costs ∧ ce.tenantID = tenantID) (ht : Touches w.id entries b₁ b₂) :
    Within costs b b₂ := by
  obtain ⟨v,balance,hv,heq⟩ := h.chosen hw
  obtain ⟨hmem,htenant,-⟩ := Books.getWalletForTenant_some hv
  have hid : w.id = v.id := by rw [heq]
  refine ⟨fun id => ?_,fun id => ?_,?_,fun t => ?_⟩
  · rcases ht.wallets id with h₂ | ⟨rfl,u,balance',hu,h₂⟩
    · rw [h₂]
      exact h.wallets id
    · right
      rw [Books.getWallet_of_mem (Books.getWalletForTenant_some hw).1,Option.some.injEq] at hu
      subst hu
      refine ⟨v,balance',hid ▸ Books.getWallet_of_mem hmem,htenant.symm ▸ hv,?_⟩
      rw [h₂,heq]
  · rcases ht.applied id with h₂ | ⟨ce,hce,rfl⟩
    · rw [h₂]
      exact h.applied id
    · obtain ⟨hce,hct⟩ := hof ce hce
      exact .inr ⟨ce,hce,rfl,v,hct.symm ▸ hv⟩
  · obtain ⟨new,hnew,hrows⟩ := h.ledger
    obtain ⟨new',hnew',hrows'⟩ := ht.ledger
    refine ⟨new ++ new',by rw [hnew',hnew,List.append_assoc],fun e he => ?_⟩
    rcases List.mem_append.mp he with he | he
    · exact hrows e he
    · obtain ⟨hwallet,ce,hce,hentry⟩ := hrows' e he
      obtain ⟨hce,hct⟩ := hof ce hce
      exact ⟨v,ce,htenant.symm ▸ hv,hwallet.trans hid,hce,hct.trans htenant.symm,hentry⟩
  · have hget := Books.getWallet_of_mem (Books.getWalletForTenant_some hw).1
    exact ((ht.frame w hget).keys t).trans (h.keys t)

theorem payTenant (h : Within costs b b₁) (f : Schedule) (tenantID : String) :
    Within costs b (tablesAfter (f.payTenant costs b₁ tenantID)) := by
  rcases f.payTenant_touches costs b₁ tenantID with heq | ⟨w,hw,ht⟩
  · rw [heq]
    exact h
  · refine h.touched hw (fun ce hce => ?_) ht
    obtain ⟨hof,-,htenant,-⟩ := unapplied_of hce
    exact ⟨hof,htenant⟩

theorem payTenants (h : Within costs b b₁) (f : Schedule) (tenants : List String) :
    Within costs b (tablesAfter (tenants.foldlM (f.payTenant costs) b₁)) := by
  induction tenants generalizing b₁ with
  | nil => exact h
  | cons t tenants ih =>
    have hturn := h.payTenant f t
    rw [List.foldlM_cons]
    cases hb : f.payTenant costs b₁ t with
    | error b₂ =>
      rw [hb] at hturn
      exact hturn
    | ok b₂ =>
      rw [hb] at hturn
      exact ih hturn

end Within

theorem Schedule.deductWallets_within (f : Schedule) (costs : List CostEntry) (b : Books) :
    Within costs b (tablesAfter (f.deductWallets costs b)) := by
  unfold deductWallets
  split
  · exact .refl costs b
  · exact (Within.refl costs b).payTenants f _

def Books.Latest (b : Books) (w : WalletRecord) : Prop :=
  w ∈ b.wallets.rows ∧ w.lifecycleState = .active ∧ ∀ v ∈ b.wallets.rows, v.tenantID = w.tenantID →
    v.lifecycleState = .active → v ≠ w → v.createdAt < w.createdAt

theorem Books.latest_of_newest {b : Books} (hd : (b.wallets.rows.map (·.createdAt)).Nodup) {w : WalletRecord}
    {tenantID : String} (h : b.getWalletForTenant tenantID = some w) : b.Latest w := by
  obtain ⟨hmem,htenant,hl⟩ := getWalletForTenant_some h
  refine ⟨hmem,hl,fun v hv hvt hvl hne => ?_⟩
  obtain ⟨l₁,l₂,hsplit,h₁,h₂⟩ := newest_eq_some.mp h
  have hvact : v ∈ b.activeOf tenantID := by
    simpa [activeOf,hvl,hvt,htenant] using hv
  rw [hsplit] at hvact
  rcases List.mem_append.mp hvact with hin | hin
  · exact h₁ v hin
  · rcases List.mem_cons.mp hin with rfl | hin
    · exact absurd rfl hne
    · refine lt_of_le_of_ne (h₂ v hin) fun heq => hne ?_
      exact List.inj_on_of_nodup_map hd hv hmem heq

/-- What a run changes, seen from the tables before it. -/
structure StaysWithin (costs : List CostEntry) (b b' : Books) : Prop where
  wallets : ∀ id, b'.getWallet id = b.getWallet id ∨
    ∃ w balance, b.getWallet id = some w ∧ b.Latest w ∧ b'.getWallet id = some { w with balance }
  applied : ∀ id, b'.applied id = b.applied id ∨
    ∃ r : CostRow, r.Of costs ∧ r.id = id ∧ ∃ w, b.Latest w ∧ w.tenantID = r.tenantID
  ledger : ∃ new, b'.ledger = b.ledger ++ new ∧ ∀ e ∈ new, ∃ w, b.Latest w ∧ e.walletID = w.id ∧
    ∃ r : CostRow, r.Of costs ∧ r.tenantID = w.tenantID ∧ e.costEntryID = some r.id
  others : ∀ t, b.activeOf t = [] → (∀ w ∈ b.wallets.rows, w.tenantID = t → b'.getWallet w.id = some w) ∧
    ∀ r : CostRow, r.Of costs → r.tenantID = t → b'.applied r.id = b.applied r.id

/-- Whichever calls fail, and whether or not the run panics, it stays within the tenants
that have an active wallet: it changes balances of their latest active wallets and
`wallet_applied` of their entries, and adds ledger rows for the two. -/
theorem deductWallets_stays_within {b : Books} (hd : (b.wallets.rows.map (·.createdAt)).Nodup)
    (costs : List CostEntry) (f : Schedule) :
    StaysWithin costs b (tablesAfter (f.deductWallets costs b)) := by
  have h := f.deductWallets_within costs b
  have hlatest : ∀ {t w}, b.getWalletForTenant t = some w → b.Latest w := b.latest_of_newest hd
  refine ⟨fun id => ?_,fun id => ?_,?_,fun t ht => ⟨fun w hw htw => ?_,fun r hr htr => ?_⟩⟩
  · rcases h.wallets id with h | ⟨w,balance,hw,hnew,h⟩
    · exact .inl h
    · exact .inr ⟨w,balance,hw,hlatest hnew,h⟩
  · rcases h.applied id with h | ⟨r,hr,hid,w,hnew⟩
    · exact .inl h
    · exact .inr ⟨r,hr,hid,w,hlatest hnew,(Books.getWalletForTenant_some hnew).2.1⟩
  · obtain ⟨new,hnew,hrows⟩ := h.ledger
    refine ⟨new,hnew,fun e he => ?_⟩
    obtain ⟨w,r,hw,hid,hr,htenant,hentry⟩ := hrows e he
    exact ⟨w,hlatest hw,hid,r,hr,htenant,hentry⟩
  · rcases h.wallets w.id with h | ⟨v,balance,hv,hnew,-⟩
    · rw [h,Books.getWallet_of_mem hw]
    · rw [Books.getWallet_of_mem hw,Option.some.injEq] at hv
      subst hv
      rw [htw,Books.getWalletForTenant,ht] at hnew
      cases hnew
  · rcases h.applied r.id with h | ⟨r',hr',hid,w,hnew⟩
    · exact h
    · rw [congrArg CostEntry.tenantID (hr'.entry_eq hr hid),htr,Books.getWalletForTenant,ht] at hnew
      cases hnew

def purse (id tenantID : String) (balance : Money) (lifecycleState : LifecycleState) (createdAt : Int) :
    WalletRecord :=
  ⟨id,tenantID,"","USD",balance,0,balance,lifecycleState,[],createdAt⟩

def chargeOf (tenantID : String) (cost : Rat) (periodStart : Int) : CostEntry :=
  ⟨1,7,tenantID,"p","u","model","m","maas_tokens_in",1,cost,"USD",periodStart,periodStart+1⟩

def tenDollars : Money := ⟨10000000,by decide⟩

def twoTenants : Books where
  wallets := ((Table.empty.insert (purse "old" "t" tenDollars .active 1)).insert
    (purse "new" "t" tenDollars .active 2)).insert (purse "ice" "u" tenDollars .frozen 3)

theorem stays_within_two_tenants :
    (tablesAfter (({ pay := fun id => if id = 1 then { insert := true } else {} } : Schedule).deductWallets
        [chargeOf "t" 4 0,chargeOf "t" 3 1,chargeOf "u" 5 0] twoTenants)).wallets.rows.map (·.balance.value) =
      [10,7,10] ∧
    StaysWithin [chargeOf "t" 4 0,chargeOf "t" 3 1,chargeOf "u" 5 0] twoTenants
      (tablesAfter (({ pay := fun id => if id = 1 then { insert := true } else {} } : Schedule).deductWallets
        [chargeOf "t" 4 0,chargeOf "t" 3 1,chargeOf "u" 5 0] twoTenants)) :=
  ⟨by decide +kernel,deductWallets_stays_within (by decide +kernel) _ _⟩

end CostConsumer.Wallet
