import CostConsumer.Wallet.Within
set_option autoImplicit false

/-!
When a run of `DeductWallets` returns. The wallet is read again after each deduction and
the error of that call is dropped, so a failure leaves a nil wallet for the next entry.
-/

namespace CostConsumer.Wallet
open Inventory Foundation Numeric

theorem filter_map_congr {α β : Type} {p : β → Bool} {g g' : α → β} {l : List α}
    (h : ∀ a ∈ l, p (g' a) = p (g a) ∧ (p (g a) = true → g' a = g a)) :
    (l.map g').filter p = (l.map g).filter p := by
  induction l with
  | nil => rfl
  | cons a l ih =>
    obtain ⟨hp,heq⟩ := h a List.mem_cons_self
    have hrest := ih fun x hx => h x (List.mem_cons_of_mem _ hx)
    rw [List.map_cons,List.map_cons]
    cases ha : p (g a) with
    | true => rw [List.filter_cons_of_pos (hp.trans ha),List.filter_cons_of_pos ha,heq ha,hrest]
    | false =>
      rw [List.filter_cons_of_neg (by simp [hp,ha]),List.filter_cons_of_neg (by simp [ha]),hrest]

theorem Spares.unapplied {costs : List CostEntry} {tenantID : String} {b b₁ : Books}
    (h : Spares costs tenantID b b₁) :
    b₁.unappliedCostEntries costs tenantID = b.unappliedCostEntries costs tenantID := by
  unfold Books.unappliedCostEntries Books.costRows
  rw [List.mapIdx_eq_zipIdx_map,List.mapIdx_eq_zipIdx_map,filter_map_congr]
  rintro ⟨e,i⟩ hx
  by_cases ht : e.tenantID = tenantID
  · have hof : (b.costRow (i+1) e).Of costs := ⟨i,e,List.mk_mem_zipIdx_iff_getElem?.mp hx,rfl,rfl⟩
    have hrow : b₁.costRow (i+1) e = b.costRow (i+1) e := by
      have happlied : b₁.applied (i+1) = b.applied (i+1) := h.applied _ hof ht
      rw [Books.costRow,Books.costRow,happlied]
    simp only [hrow]
    exact ⟨trivial,fun _ => trivial⟩
  · have hout : ∀ b : Books, (b.costRow (i+1) e).tenantID ≠ tenantID := fun _ => ht
    simp [hout]

theorem Schedule.payEntries_poor (f : Schedule) (costs : List CostEntry) (b : Books) {w : WalletRecord}
    (hw : w.available ≤ 0) (entries : List CostRow) : f.payEntries costs b (some w) entries = .ok b := by
  induction entries with
  | nil => rfl
  | cons ce rest ih =>
    unfold payEntries
    cases ht : turn (some w) ce with
    | skip => exact ih
    | panic => exact absurd (turn_panic ht).1 (Option.some_ne_none w)
    | depleted => rfl
    | deduct v amount =>
      obtain ⟨hv,hpos,-,hle,-⟩ := turn_deduct ht
      cases hv
      exact absurd (hpos.trans_le hle) (not_lt.mpr hw)

theorem mem_dropLast_cons {α : Type} {a c : α} {l : List α} (h : a ∈ l.dropLast) : a ∈ (c :: l).dropLast := by
  cases l with
  | nil => cases h
  | cons d l => exact List.mem_cons_of_mem _ h

theorem Books.Deducted.keeps {b b' : Books} {costs : List CostEntry} {walletID id : String} {costEntryID : Nat}
    {amount : Rat} {e : WalletLedgerEntry} (h : b.Deducted costs walletID costEntryID amount b' e)
    (hw : (b.getWallet id).isSome) : (b'.getWallet id).isSome := by
  obtain ⟨_,_,hmoved,-⟩ := h.moved
  obtain ⟨v,hv⟩ := Option.isSome_iff_exists.mp hw
  obtain ⟨v',hv',-⟩ := hmoved.keeps hv
  rw [hv',Option.isSome_some]

theorem Schedule.payEntries_returns {f : Schedule} {costs : List CostEntry} {entries : List CostRow}
    (hr : ∀ ce ∈ entries.dropLast, f.refresh ce.id = false) {b : Books} {w : WalletRecord}
    (hw : (b.getWallet w.id).isSome) : ∃ b', f.payEntries costs b (some w) entries = .ok b' := by
  induction entries generalizing b w with
  | nil => exact ⟨b,rfl⟩
  | cons ce rest ih =>
    replace ih := @ih fun c hc => hr c (mem_dropLast_cons hc)
    unfold payEntries
    cases ht : turn (some w) ce with
    | skip => exact ih hw
    | panic => exact absurd (turn_panic ht).1 (Option.some_ne_none w)
    | depleted => exact ⟨b,rfl⟩
    | deduct v amount =>
      obtain ⟨hv,-⟩ := turn_deduct ht
      cases hv
      rcases b.deductFromWallet_cases costs (f.pay ce.id) w.id ce.id amount with
        h | ⟨b₁,e,hd,h | ⟨-,h⟩⟩
      · simp only [h]
        exact ih hw
      · simp only [h]
        cases rest with
        | nil => exact ⟨b₁,rfl⟩
        | cons c rest =>
          -- the wallet that was read again is there for the next entry
          obtain ⟨w₁,hw₁⟩ := Option.isSome_iff_exists.mp (hd.keeps hw)
          have hid : w₁.id = w.id := Books.getWallet_id hw₁
          rw [hr ce List.mem_cons_self,if_neg Bool.false_ne_true,hw₁]
          exact ih (by rw [hid,hw₁,Option.isSome_some])
      · simp only [h]
        exact ih (hd.keeps hw)

/-- No refresh fails for a tenant with money above the floor, except after the last of
its unapplied entries. -/
def Refreshes (costs : List CostEntry) (b : Books) (refresh : Nat → Bool) : Prop :=
  ∀ tenantID w, b.getWalletForTenant tenantID = some w → 0 < w.available →
    ∀ ce ∈ (b.unappliedCostEntries costs tenantID).dropLast, refresh ce.id = false

namespace Schedule

variable {f : Schedule} {costs : List CostEntry} {b b₁ : Books}

theorem payTenant_spares (f : Schedule) (costs : List CostEntry) (b : Books) {tenantID t : String}
    (hne : tenantID ≠ t) : Spares costs tenantID b (tablesAfter (f.payTenant costs b t)) := by
  rcases f.payTenant_touches costs b t with heq | ⟨w,hw,htouch⟩
  · rw [heq]
    exact .refl costs tenantID b
  · obtain ⟨hmem,htenant,-⟩ := Books.getWalletForTenant_some hw
    refine ⟨(htouch.frame w (Books.getWallet_of_mem hmem)).others tenantID (htenant.symm ▸ hne),
      fun r hr hrt => (htouch.applied r.id).resolve_right ?_⟩
    rintro ⟨ce,hce,hid⟩
    obtain ⟨hof,-,hct,-⟩ := unapplied_of hce
    have heq := congrArg CostEntry.tenantID (hof.entry_eq hr hid)
    exact hne (hrt.symm.trans (heq.symm.trans hct))

theorem payTenant_returns {tenantID : String}
    (hr : ∀ w, b.getWalletForTenant tenantID = some w → 0 < w.available →
      ∀ ce ∈ (b.unappliedCostEntries costs tenantID).dropLast, f.refresh ce.id = false) :
    ∃ b', f.payTenant costs b tenantID = .ok b' := by
  unfold payTenant
  split
  · exact ⟨b,rfl⟩
  cases hw : b.getWalletForTenant tenantID with
  | none => exact ⟨b,rfl⟩
  | some w =>
    simp only
    split
    · exact ⟨b,rfl⟩
    by_cases hpoor : w.available ≤ 0
    · exact ⟨b,f.payEntries_poor costs b hpoor _⟩
    · have hfound := Books.getWallet_of_mem (Books.getWalletForTenant_some hw).1
      exact payEntries_returns (hr w hw (not_le.mp hpoor)) (by rw [hfound,Option.isSome_some])

theorem payTenants_return (f : Schedule) (costs : List CostEntry) (b : Books) {tenants : List String}
    (hnd : tenants.Nodup)
    (hr : ∀ tenantID ∈ tenants, ∀ w, b.getWalletForTenant tenantID = some w → 0 < w.available →
      ∀ ce ∈ (b.unappliedCostEntries costs tenantID).dropLast, f.refresh ce.id = false) :
    ∃ b', tenants.foldlM (f.payTenant costs) b = .ok b' ∧
      ∀ tenantID ∉ tenants, Spares costs tenantID b b' := by
  induction tenants generalizing b with
  | nil => exact ⟨b,rfl,fun tenantID _ => .refl costs tenantID b⟩
  | cons t tenants ih =>
    obtain ⟨ht,hnd⟩ := List.nodup_cons.mp hnd
    obtain ⟨b₁,h₁⟩ := payTenant_returns (hr t List.mem_cons_self)
    have hspares : ∀ tenantID, tenantID ≠ t → Spares costs tenantID b b₁ := fun tenantID hne => by
      have h := f.payTenant_spares costs b hne
      rwa [h₁] at h
    obtain ⟨b',h',hspares'⟩ := ih b₁ hnd (by
      intro tenantID hmem
      have hsame := hspares tenantID fun heq => ht (heq ▸ hmem)
      rw [hsame.getWalletForTenant,hsame.unapplied]
      exact hr tenantID (List.mem_cons_of_mem _ hmem))
    refine ⟨b',by rw [List.foldlM_cons,h₁]; exact h',fun tenantID hnot => ?_⟩
    obtain ⟨hne,hnot⟩ := not_or.mp (fun h => hnot (List.mem_cons.mpr h))
    exact (hspares tenantID hne).trans (hspares' tenantID hnot)

theorem deductWallets_returns (h : Refreshes costs b f.refresh) : ∃ b', f.deductWallets costs b = .ok b' := by
  unfold deductWallets
  split
  · exact ⟨b,rfl⟩
  · obtain ⟨b',hb',-⟩ := f.payTenants_return costs b (List.nodup_dedup _) fun tenantID _ => h tenantID
    exact ⟨b',hb'⟩

end Schedule

/-- The money columns are wide enough for what a deduction writes. -/
structure CostRow.Payable (ce : CostRow) (available : Rat) : Prop where
  cost : ∃ c : Money, ce.costAmount ≤ c.value
  amount : ∃ c : Money, min ce.remaining available ≤ c.value

theorem CostRow.Payable.mono {ce : CostRow} {available available' : Rat} (h : ce.Payable available)
    (hle : available' ≤ available) : ce.Payable available' := by
  obtain ⟨c,hc⟩ := h.amount
  exact ⟨h.cost,c,(min_le_min_left _ hle).trans hc⟩

theorem deduct_payable {costs : List CostEntry} {b : Books} {w : WalletRecord} {ce : CostRow} {amount : Rat}
    (hw : b.getWallet w.id = some w) (hl : w.lifecycleState = .active) (hof : ce.Of costs)
    (hread : ce.walletApplied = b.applied ce.id) (hp : ce.Payable w.available)
    (ht : turn (some w) ce = .deduct w amount) :
    ∃ b₁ e w₁, b.deductFromWallet costs {} w.id ce.id amount = (b₁,some e) ∧
      b₁.getWallet w.id = some w₁ ∧ w₁.Same w ∧
      w₁.balance.value = stored 6 (w.balance.value - amount) ∧
      (b₁.applied ce.id).value = stored 6 (ce.walletApplied.value + amount) ∧
      ∀ id, id ≠ ce.id → b₁.applied id = b.applied id := by
  obtain ⟨-,hpos,hle,hle',-⟩ := turn_deduct ht
  obtain ⟨c,hc⟩ := hp.cost
  obtain ⟨a,ha⟩ := hp.amount
  obtain ⟨applied,happ⟩ : ∃ e : Money, Column.store ((b.applied ce.id).value + amount) = some e := by
    rw [CostRow.remaining] at hle
    exact Column.store_between (c := b.applied ce.id) (d := c) (by linarith) (by rw [← hread]; linarith)
  obtain ⟨b₁,e,hd⟩ := turn_deducts hw hl ht happ ((le_min hle hle').trans ha)
  obtain ⟨w₁,-,hw₁,hsame,hbal,hded⟩ := deduct_some hw hd
  obtain ⟨c',hc',happlied⟩ := hded.applied hof.id_mem
  refine ⟨b₁,e,w₁,hd,hw₁,hsame,hbal,?_,fun id hid => by rw [happlied,Function.update_of_ne hid]⟩
  rw [happlied,Function.update_self,hc',hread]

/-- A run in which only the deduction for one entry gets through. -/
def onlyPays (refresh : Nat → Bool) (id : Nat) : Schedule where
  pay := fun costEntryID => if costEntryID = id then {} else { begin := true }
  refresh := refresh

namespace onlyPays

variable {refresh : Nat → Bool} {id : Nat} {costs : List CostEntry} {b : Books} {w : WalletRecord}

theorem payEntries_append {pre : List CostRow} (hw : 0 < w.available) (hne : ∀ ce ∈ pre, ce.id ≠ id)
    (rest : List CostRow) : (onlyPays refresh id).payEntries costs b (some w) (pre ++ rest) =
      (onlyPays refresh id).payEntries costs b (some w) rest := by
  induction pre with
  | nil => rfl
  | cons ce pre ih =>
    replace ih := ih fun c hc => hne c (List.mem_cons_of_mem _ hc)
    have hfails : (onlyPays refresh id).pay ce.id = { begin := true } := if_neg (hne ce List.mem_cons_self)
    rw [List.cons_append,Schedule.payEntries]
    by_cases hce : ce.remaining ≤ 0
    · have ht : turn (some w) ce = .skip := by simp [turn,hce]
      rw [ht]
      exact ih
    · rw [turn_rich hw (not_le.mp hce),hfails]
      exact ih

theorem payEntries_panics {pre : List CostRow} {ce next : CostRow} (rest : List CostRow)
    (hw : b.getWallet w.id = some w) (hl : w.lifecycleState = .active) (hrich : 0 < w.available) (hof : ce.Of costs)
    (hread : ce.walletApplied = b.applied ce.id) (hp : ce.Payable w.available) (hce : 0 < ce.remaining)
    (hnext : 0 < next.remaining) (hr : refresh ce.id = true) (hne : ∀ c ∈ pre, c.id ≠ ce.id) :
    ∃ b', (onlyPays refresh ce.id).payEntries costs b (some w) (pre ++ ce :: next :: rest) = .error b' := by
  have ht := turn_rich hrich hce
  obtain ⟨b₁,e,w₁,hd,-⟩ := deduct_payable hw hl hof hread hp ht
  have hpay : (onlyPays refresh ce.id).pay ce.id = {} := if_pos rfl
  have hnil : turn none next = .panic := by simp [turn,not_le.mpr hnext]
  refine ⟨b₁,?_⟩
  rw [payEntries_append hrich hne,Schedule.payEntries,ht]
  simp only [hpay,hd]
  rw [show (onlyPays refresh ce.id).refresh ce.id = true from hr,if_pos rfl,Schedule.payEntries,hnil]

theorem payTenant_unchanged {tenantID : String} (hne : ∀ ce ∈ b.unappliedCostEntries costs tenantID, ce.id ≠ id) :
    (onlyPays refresh id).payTenant costs b tenantID = .ok b := by
  cases hw : b.getWalletForTenant tenantID with
  | none => simp [Schedule.payTenant,hw]
  | some w =>
    rw [Schedule.payTenant_some costs hw rfl rfl]
    by_cases hpoor : w.available ≤ 0
    · exact Schedule.payEntries_poor _ costs b hpoor _
    · rw [← List.append_nil (b.unappliedCostEntries costs tenantID),payEntries_append (not_le.mp hpoor) hne]
      rfl

theorem payTenants_unchanged {tenants : List String}
    (hne : ∀ tenantID ∈ tenants, ∀ ce ∈ b.unappliedCostEntries costs tenantID, ce.id ≠ id) :
    tenants.foldlM ((onlyPays refresh id).payTenant costs) b = .ok b := by
  induction tenants with
  | nil => rfl
  | cons t tenants ih =>
    rw [List.foldlM_cons,payTenant_unchanged (hne t List.mem_cons_self)]
    exact ih fun tenantID hmem => hne tenantID (List.mem_cons_of_mem _ hmem)

end onlyPays

theorem split_of_mem_dropLast {α : Type} {a : α} {l : List α} (h : a ∈ l.dropLast) :
    ∃ pre next rest, l = pre ++ a :: next :: rest := by
  have hl : l ≠ [] := fun heq => by simp [heq] at h
  obtain ⟨pre,mid,hsplit⟩ := List.append_of_mem h
  have happend := List.dropLast_concat_getLast hl
  rw [hsplit,List.append_assoc,List.cons_append] at happend
  cases mid with
  | nil => exact ⟨pre,_,[],happend.symm⟩
  | cons next mid => exact ⟨pre,next,_,happend.symm⟩

theorem onlyPays_panics {costs : List CostEntry} {b : Books} {refresh : Nat → Bool} {tenantID : String}
    {w : WalletRecord} {ce : CostRow} (hw : b.getWalletForTenant tenantID = some w) (hrich : 0 < w.available)
    (hp : ce.Payable w.available) (hce : ce ∈ (b.unappliedCostEntries costs tenantID).dropLast)
    (hr : refresh ce.id = true) : ∃ b', (onlyPays refresh ce.id).deductWallets costs b = .error b' := by
  obtain ⟨pre,next,rest,hentries⟩ := split_of_mem_dropLast hce
  have hids := unapplied_ids_nodup b costs tenantID
  rw [hentries,List.map_append,List.map_cons,List.nodup_append] at hids
  have hmem : ∀ c ∈ pre ++ ce :: next :: rest, c ∈ b.unappliedCostEntries costs tenantID := hentries ▸ fun _ h => h
  obtain ⟨hof,hread,htenant,hpos⟩ := unapplied_of (hmem ce (by simp))
  obtain ⟨hrow,-,hl⟩ := Books.getWalletForTenant_some hw
  obtain ⟨b',hb'⟩ := onlyPays.payEntries_panics rest (Books.getWallet_of_mem hrow) hl hrich hof hread hp hpos
    (unapplied_of (hmem next (by simp))).2.2.2 hr
    fun c hc heq => hids.2.2 c.id (List.mem_map_of_mem hc) ce.id List.mem_cons_self heq
  have hturn : (onlyPays refresh ce.id).payTenant costs b tenantID = .error b' := by
    rw [Schedule.payTenant_some costs hw rfl rfl,hentries,hb']
  obtain ⟨before,after,htenants⟩ := List.append_of_mem (mem_allTenantsWithWallets hw)
  have hnd : (before ++ tenantID :: after).Nodup := htenants ▸ List.nodup_dedup _
  have hbefore : before.foldlM ((onlyPays refresh ce.id).payTenant costs) b = .ok b := by
    refine onlyPays.payTenants_unchanged fun t ht c hc hid => ?_
    obtain ⟨hof',-,ht',-⟩ := unapplied_of hc
    have heq := congrArg CostEntry.tenantID (hof'.entry_eq hof hid)
    exact (List.nodup_append.mp hnd).2.2 t ht tenantID List.mem_cons_self (ht'.symm.trans (heq.trans htenant))
  refine ⟨b',?_⟩
  change b.allTenantsWithWallets.foldlM ((onlyPays refresh ce.id).payTenant costs) b = .error b'
  rw [htenants,List.foldlM_append,hbefore]
  change (tenantID :: after).foldlM ((onlyPays refresh ce.id).payTenant costs) b = .error b'
  rw [List.foldlM_cons,hturn]
  rfl

/-- Whatever else fails, a run returns if the refreshes succeed; and only then, where the
columns are wide enough for the deductions. -/
theorem deductWallets_returns_iff (costs : List CostEntry) (b : Books) (refresh : Nat → Bool) :
    (Refreshes costs b refresh → ∀ f : Schedule, f.refresh = refresh → ∃ b', f.deductWallets costs b = .ok b') ∧
      ((∀ tenantID w, b.getWalletForTenant tenantID = some w →
          ∀ ce ∈ b.unappliedCostEntries costs tenantID, ce.Payable w.available) →
        (∀ f : Schedule, f.refresh = refresh → ∃ b', f.deductWallets costs b = .ok b') →
          Refreshes costs b refresh) := by
  constructor
  · rintro h f rfl
    exact f.deductWallets_returns h
  · intro hp h tenantID w hw hrich ce hce
    by_contra hr
    obtain ⟨b',hb'⟩ := onlyPays_panics hw hrich (hp tenantID w hw ce (List.dropLast_subset _ hce)) hce
      (Bool.not_eq_false _ ▸ hr)
    obtain ⟨b'',hb''⟩ := h (onlyPays refresh ce.id) rfl
    rw [hb'] at hb''
    cases hb''

def oneTenant : Books where
  wallets := Table.empty.insert (purse "w" "t" tenDollars .active 1)

theorem returns_one_tenant :
    (∀ f : Schedule, f.refresh = (fun id => id = 2) →
      ∃ b', f.deductWallets [chargeOf "t" 4 0,chargeOf "t" 3 1] oneTenant = .ok b') ∧
    Refreshes [chargeOf "t" 4 0,chargeOf "t" 3 1] oneTenant (fun id => id = 2) := by
  have hchosen : ∀ tenantID w, oneTenant.getWalletForTenant tenantID = some w →
      tenantID = "t" ∧ w = purse "w" "t" tenDollars .active 1 := by
    intro tenantID w hw
    obtain ⟨hmem,ht,-⟩ := Books.getWalletForTenant_some hw
    obtain rfl : w = purse "w" "t" tenDollars .active 1 := List.mem_singleton.mp hmem
    exact ⟨ht.symm,rfl⟩
  have hrefresh : Refreshes [chargeOf "t" 4 0,chargeOf "t" 3 1] oneTenant (fun id => id = 2) := by
    intro tenantID w hw _
    obtain ⟨rfl,-⟩ := hchosen tenantID w hw
    decide +kernel
  have hpayable : ∀ tenantID w, oneTenant.getWalletForTenant tenantID = some w →
      ∀ ce ∈ oneTenant.unappliedCostEntries [chargeOf "t" 4 0,chargeOf "t" 3 1] tenantID,
        ce.Payable w.available := by
    intro tenantID w hw ce hce
    obtain ⟨rfl,rfl⟩ := hchosen tenantID w hw
    have hsmall : ∀ ce ∈ oneTenant.unappliedCostEntries [chargeOf "t" 4 0,chargeOf "t" 3 1] "t",
        ce.costAmount ≤ tenDollars.value ∧ ce.remaining ≤ tenDollars.value := by decide +kernel
    obtain ⟨hcost,hrest⟩ := hsmall ce hce
    exact ⟨⟨_,hcost⟩,⟨_,(min_le_left _ _).trans hrest⟩⟩
  have h := deductWallets_returns_iff [chargeOf "t" 4 0,chargeOf "t" 3 1] oneTenant (fun id => id = 2)
  exact ⟨h.1 hrefresh,h.2 hpayable (h.1 hrefresh)⟩

/-- The wallet pays for the first of two entries, the refresh fails and the second entry
finds a nil wallet. -/
theorem deductWallets_panics :
    ∃ b', ({ refresh := fun id => id = 1 } : Schedule).deductWallets
      [chargeOf "t" 4 0,chargeOf "t" 3 1] oneTenant = .error b' := by
  have hfails : (({ refresh := fun id => id = 1 } : Schedule).deductWallets
      [chargeOf "t" 4 0,chargeOf "t" 3 1] oneTenant).isOk = false := by decide +kernel
  cases h : ({ refresh := fun id => id = 1 } : Schedule).deductWallets
      [chargeOf "t" 4 0,chargeOf "t" 3 1] oneTenant with
  | ok b =>
    rw [h] at hfails
    cases hfails
  | error b => exact ⟨b,rfl⟩

end CostConsumer.Wallet
