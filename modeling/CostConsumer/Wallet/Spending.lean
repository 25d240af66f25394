import CostConsumer.Wallet.Returns
import Mathlib.Algebra.Order.BigOperators.Group.List
set_option autoImplicit false

namespace CostConsumer.Wallet
open Inventory Foundation Numeric

def Books.owed (b : Books) (costs : List CostEntry) (tenantID : String) : Rat :=
  (((b.costRows costs).filter (fun r => r.tenantID = tenantID && r.walletApplied.value < r.costAmount)).map
    (·.remaining)).sum

theorem Books.owed_eq (b : Books) (costs : List CostEntry) (tenantID : String) :
    b.owed costs tenantID = ((b.unappliedCostEntries costs tenantID).map (·.remaining)).sum :=
  (((List.perm_insertionSort _ _).map _).sum_eq).symm

def Whole (x : Rat) : Prop := ∃ n : Int, x*10^6 = n

namespace Whole

variable {x y : Rat}

theorem value (c : Money) : Whole c.value := ⟨c.units,c.value_scaled⟩

theorem sub (hx : Whole x) (hy : Whole y) : Whole (x - y) := by
  obtain ⟨n,hn⟩ := hx
  obtain ⟨m,hm⟩ := hy
  exact ⟨n - m,by rw [sub_mul,hn,hm,Int.cast_sub]⟩

theorem add (hx : Whole x) (hy : Whole y) : Whole (x + y) := by
  obtain ⟨n,hn⟩ := hx
  obtain ⟨m,hm⟩ := hy
  exact ⟨n + m,by rw [add_mul,hn,hm,Int.cast_add]⟩

theorem stored_eq (hx : Whole x) : stored 6 x = x := by
  obtain ⟨n,hn⟩ := hx
  exact stored_of_scaled hn

theorem le_value (hx : Whole x) (hlt : x < 10^12) : ∃ c : Money, x ≤ c.value := by
  obtain ⟨n,hn⟩ := hx
  have hn' : n < 10^18 := by
    have : (n : Rat) < 10^18 := by rw [← hn]; linarith
    exact_mod_cast this
  refine ⟨⟨10^18 - 1,by decide⟩,?_⟩
  rw [Column.value,le_div_iff₀ (by positivity),hn]
  exact_mod_cast Int.le_sub_one_of_lt hn'

end Whole

theorem available_whole (w : WalletRecord) : Whole w.available := (Whole.value w.balance).sub (.value w.balanceFloor)

theorem remaining_whole {ce : CostRow} (h : Whole ce.costAmount) : Whole ce.remaining := h.sub (.value _)

theorem cost_le {costs : List CostEntry} {ce : CostRow} (hof : ce.Of costs) (hfits : ∀ e ∈ costs, Store.costFits e) :
    ∃ c : Money, ce.costAmount ≤ c.value := by
  obtain ⟨i,e,hi,-,he⟩ := hof
  have hlt : roundHalfAway (e.costAmount*10^10) < 10^18 := lt_of_abs_lt (hfits e (List.mem_of_getElem? hi))
  refine ⟨⟨10^14,by decide⟩,?_⟩
  rw [he,stored,Column.value,div_le_div_iff₀ (by positivity) (by positivity)]
  have hcast : (roundHalfAway (e.costAmount*10^10) : Rat) < 10^18 := by exact_mod_cast hlt
  push_cast
  linarith

theorem payable_of_whole {costs : List CostEntry} {ce : CostRow} {w : WalletRecord} (hof : ce.Of costs)
    (hfits : ∀ e ∈ costs, Store.costFits e) (hx : Whole ce.costAmount)
    (hlt : min ce.remaining w.available < 10^12) : ce.Payable w.available := by
  refine ⟨cost_le hof hfits,Whole.le_value ?_ hlt⟩
  rcases min_choice ce.remaining w.available with h | h
  · rw [h]
    exact remaining_whole hx
  · rw [h]
    exact available_whole w

theorem turn_whole {w : WalletRecord} {ce : CostRow} {amount : Rat} (hx : Whole ce.costAmount)
    (ht : turn (some w) ce = .deduct w amount) : Whole amount := by
  obtain ⟨-,-,-,-,rfl | rfl⟩ := turn_deduct ht
  · exact remaining_whole hx
  · exact available_whole w

theorem deduct_whole {costs : List CostEntry} {b : Books} {w : WalletRecord} {ce : CostRow} {amount : Rat}
    (hw : b.getWallet w.id = some w) (hl : w.lifecycleState = .active) (hof : ce.Of costs)
    (hread : ce.walletApplied = b.applied ce.id) (hp : ce.Payable w.available) (hx : Whole ce.costAmount)
    (ht : turn (some w) ce = .deduct w amount) :
    ∃ b₁ e w₁, b.deductFromWallet costs {} w.id ce.id amount = (b₁,some e) ∧
      b₁.getWallet w.id = some w₁ ∧ w₁.Same w ∧ w₁.balance.value = w.balance.value - amount ∧
      (b₁.applied ce.id).value = ce.walletApplied.value + amount ∧
      ∀ id, id ≠ ce.id → b₁.applied id = b.applied id := by
  obtain ⟨b₁,e,w₁,hd,hw₁,hsame,hbal,happlied,hother⟩ := deduct_payable hw hl hof hread hp ht
  have hamount := turn_whole hx ht
  exact ⟨b₁,e,w₁,hd,hw₁,hsame,hbal.trans ((Whole.value _).sub hamount).stored_eq,
    happlied.trans ((Whole.value _).add hamount).stored_eq,hother⟩

/-- The amount to spend on `owed` with `available` above the floor. -/
def spend (owed available : Rat) : Rat := max 0 (min owed available)

theorem spend_poor {owed available : Rat} (h : available ≤ 0) : spend owed available = 0 :=
  max_eq_left ((min_le_right _ _).trans h)

theorem spend_nothing (available : Rat) : spend 0 available = 0 := max_eq_left (min_le_left _ _)

theorem spend_all {owed available : Rat} (h : 0 ≤ available) (hle : available ≤ owed) :
    spend owed available = available := by
  rw [spend,min_eq_right hle,max_eq_right h]

theorem spend_next {first owed available : Rat} (h : 0 ≤ first) (hle : first ≤ available) (ho : 0 ≤ owed) :
    spend (first + owed) available = first + spend owed (available - first) := by
  have hmin : min (first + owed) available = first + min owed (available - first) := by
    rw [← min_add_add_left,add_sub_cancel]
  have hnonneg : 0 ≤ min owed (available - first) := le_min ho (sub_nonneg.mpr hle)
  rw [spend,spend,hmin,max_eq_right hnonneg,max_eq_right (add_nonneg h hnonneg)]

/-- Entries paid in full, then at most one in part, then those left as they were. -/
structure PaidInOrder (b' : Books) (entries : List CostRow) : Prop where
  split : ∃ full part rest, entries = full ++ part ++ rest ∧ part.length ≤ 1 ∧
    (∀ ce ∈ full, (b'.applied ce.id).value = ce.costAmount) ∧
    (∀ ce ∈ part, ce.walletApplied.value < (b'.applied ce.id).value ∧
      (b'.applied ce.id).value < ce.costAmount) ∧
    ∀ ce ∈ rest, b'.applied ce.id = ce.walletApplied

theorem PaidInOrder.untouched {b' : Books} {entries : List CostRow}
    (h : ∀ ce ∈ entries, b'.applied ce.id = ce.walletApplied) : PaidInOrder b' entries :=
  ⟨[],[],entries,rfl,by simp,by simp,by simp,h⟩

theorem PaidInOrder.cons {b' : Books} {ce : CostRow} {entries : List CostRow} (h : PaidInOrder b' entries)
    (hce : (b'.applied ce.id).value = ce.costAmount) : PaidInOrder b' (ce :: entries) := by
  obtain ⟨full,part,rest,rfl,hlen,hfull,hpart,hrest⟩ := h.split
  refine ⟨ce :: full,part,rest,by simp,hlen,fun c hc => ?_,hpart,hrest⟩
  rcases List.mem_cons.mp hc with rfl | hc
  · exact hce
  · exact hfull c hc

theorem PaidInOrder.congr {b' b'' : Books} {entries : List CostRow} (h : PaidInOrder b' entries)
    (heq : ∀ ce ∈ entries, b''.applied ce.id = b'.applied ce.id) : PaidInOrder b'' entries := by
  obtain ⟨full,part,rest,rfl,hlen,hfull,hpart,hrest⟩ := h.split
  refine ⟨full,part,rest,rfl,hlen,fun ce hce => ?_,fun ce hce => ?_,fun ce hce => ?_⟩
  · rw [heq ce (by simp [hce]),hfull ce hce]
  · rw [heq ce (by simp [hce])]
    exact hpart ce hce
  · rw [heq ce (by simp [hce]),hrest ce hce]

theorem payEntries_spends {costs : List CostEntry} {entries : List CostRow} {b : Books} {w : WalletRecord}
    (hw : b.getWallet w.id = some w) (hl : w.lifecycleState = .active)
    (hof : ∀ ce ∈ entries, ce.Of costs) (hnd : (entries.map (·.id)).Nodup)
    (hread : ∀ ce ∈ entries, ce.walletApplied = b.applied ce.id) (hpos : ∀ ce ∈ entries, 0 < ce.remaining)
    (hx : ∀ ce ∈ entries, Whole ce.costAmount) (hp : ∀ ce ∈ entries, ce.Payable w.available) :
    ∃ b' w', ({} : Schedule).payEntries costs b (some w) entries = .ok b' ∧ b'.getWallet w.id = some w' ∧
      w'.Same w ∧ w'.balance.value = w.balance.value - spend (entries.map (·.remaining)).sum w.available ∧
      PaidInOrder b' entries := by
  induction entries generalizing b w with
  | nil =>
    refine ⟨b,w,rfl,hw,.refl w,?_,.untouched (by simp)⟩
    rw [List.map_nil,List.sum_nil,spend_nothing,sub_zero]
  | cons ce rest ih =>
    obtain ⟨hce,hrest⟩ := List.nodup_cons.mp hnd
    have hne : ∀ c ∈ rest, c.id ≠ ce.id := fun c hc heq => hce (List.mem_map.mpr ⟨c,hc,heq⟩)
    have hcpos := hpos ce List.mem_cons_self
    have howed : 0 ≤ (rest.map (·.remaining)).sum := List.sum_nonneg (by
      intro x hx'
      obtain ⟨c,hc,rfl⟩ := List.mem_map.mp hx'
      exact (hpos c (List.mem_cons_of_mem _ hc)).le)
    rw [List.map_cons,List.sum_cons]
    by_cases hpoor : w.available ≤ 0
    · refine ⟨b,w,Schedule.payEntries_poor _ costs b hpoor _,hw,.refl w,?_,
        .untouched fun c hc => (hread c hc).symm⟩
      rw [spend_poor hpoor,sub_zero]
    · have hrich := not_le.mp hpoor
      have hread' : ∀ c ∈ rest, c.walletApplied = b.applied c.id :=
        fun c hc => hread c (List.mem_cons_of_mem _ hc)
      have ht := turn_rich hrich hcpos
      obtain ⟨b₁,e,w₁,hd,hw₁,hsame,hbal,hap,hother⟩ := deduct_whole hw hl (hof ce List.mem_cons_self)
        (hread ce List.mem_cons_self) (hp ce List.mem_cons_self) (hx ce List.mem_cons_self) ht
      have hstep : ({} : Schedule).payEntries costs b (some w) (ce :: rest) =
          ({} : Schedule).payEntries costs b₁ (some w₁) rest := by
        rw [Schedule.payEntries]
        simp only [ht,hd,Bool.false_eq_true,if_false,hw₁]
      have havail : w₁.available = w.available -
          if ce.remaining > w.available then w.available else ce.remaining := by
        rw [WalletRecord.available,hbal,hsame.balanceFloor,WalletRecord.available]
        ring
      rw [hstep]
      by_cases hpart : ce.remaining > w.available
      · -- all that is available goes into this entry
        rw [if_pos hpart] at hbal hap havail
        rw [sub_self] at havail
        refine ⟨b₁,w₁,Schedule.payEntries_poor _ costs b₁ havail.le rest,hw₁,hsame,?_,?_⟩
        · rw [hbal,spend_all hrich.le (hpart.le.trans (le_add_of_nonneg_right howed))]
        · refine ⟨[],[ce],rest,rfl,le_rfl,by simp,fun c hc => ?_,fun c hc => ?_⟩
          · rw [List.mem_singleton.mp hc,hap]
            rw [CostRow.remaining] at hpart
            constructor <;> linarith
          · rw [hother c.id (hne c hc),hread' c hc]
      · rw [if_neg hpart] at hbal hap havail
        have hid := hsame.id
        obtain ⟨b',w',hrun,hw',hsame',hbal',hpaid⟩ := ih (hid ▸ hw₁)
          ((hsame.congr (·.lifecycleState) (fun _ _ _ => rfl)).trans hl)
          (fun c hc => hof c (List.mem_cons_of_mem _ hc)) hrest
          (fun c hc => (hread' c hc).trans (hother c.id (hne c hc)).symm)
          (fun c hc => hpos c (List.mem_cons_of_mem _ hc)) (fun c hc => hx c (List.mem_cons_of_mem _ hc))
          (fun c hc => (hp c (List.mem_cons_of_mem _ hc)).mono (by linarith))
        have hkept : b'.applied ce.id = b₁.applied ce.id := by
          have htouch := ({} : Schedule).payEntries_touches b₁ w₁ fun c hc => hof c (List.mem_cons_of_mem _ hc)
          rw [hrun] at htouch
          refine (htouch.applied ce.id).resolve_right ?_
          rintro ⟨c,hc,heq⟩
          exact hne c hc heq
        refine ⟨b',w',hrun,hid ▸ hw',hsame'.trans hsame,?_,hpaid.cons ?_⟩
        · rw [hbal',hbal,havail,spend_next hcpos.le (not_lt.mp hpart) howed]
          ring
        · rw [hkept,hap,CostRow.remaining]
          ring

/-- The whole run, for one tenant. Only where what a deduction takes is below the bound
of the ledger's amounts is there no failure. -/
theorem deductWallets_spends {costs : List CostEntry} {b : Books} {tenantID : String} {w : WalletRecord}
    (hw : b.getWalletForTenant tenantID = some w) (hfits : ∀ e ∈ costs, Store.costFits e)
    (hx : ∀ ce ∈ b.unappliedCostEntries costs tenantID, Whole ce.costAmount)
    (hlt : ∀ ce ∈ b.unappliedCostEntries costs tenantID, min ce.remaining w.available < 10^12) :
    ∃ b' w', ({} : Schedule).deductWallets costs b = .ok b' ∧ b'.getWallet w.id = some w' ∧
      w'.balance.value = w.balance.value - spend (b.owed costs tenantID) w.available ∧
      (b.unappliedCostEntries costs tenantID).Pairwise (fun r r' => r.periodStart ≤ r'.periodStart) ∧
      PaidInOrder b' (b.unappliedCostEntries costs tenantID) := by
  obtain ⟨pre,post,hsplit⟩ := List.append_of_mem (mem_allTenantsWithWallets hw)
  have hnd : (pre ++ tenantID :: post).Nodup := hsplit ▸ List.nodup_dedup _
  obtain ⟨hpre,hpost,hdisj⟩ := List.nodup_append.mp hnd
  obtain ⟨hnot,hpost⟩ := List.nodup_cons.mp hpost
  obtain ⟨b₁,h₁,hspares₁⟩ := ({} : Schedule).payTenants_return costs b hpre
    fun _ _ _ _ _ _ _ => rfl
  have hsame₁ := hspares₁ tenantID fun h => hdisj tenantID h tenantID List.mem_cons_self rfl
  obtain ⟨hmem,htenant,hl⟩ := Books.getWalletForTenant_some (hsame₁.getWalletForTenant.trans hw)
  have hread : ∀ ce ∈ b.unappliedCostEntries costs tenantID, ce.walletApplied = b₁.applied ce.id := by
    intro ce hce
    rw [← hsame₁.unapplied] at hce
    exact (unapplied_of hce).2.1
  obtain ⟨b₂,w',h₂,hw',hsame,hbal,hpaid⟩ := payEntries_spends (Books.getWallet_of_mem hmem) hl
    (fun ce hce => (unapplied_of hce).1) (unapplied_ids_nodup b costs tenantID) hread
    (fun ce hce => (unapplied_of hce).2.2.2) hx
    (fun ce hce => payable_of_whole (unapplied_of hce).1 hfits (hx ce hce) (hlt ce hce))
  obtain ⟨b₃,h₃,hspares₃⟩ := ({} : Schedule).payTenants_return costs b₂ hpost fun _ _ _ _ _ _ _ => rfl
  have hsame₃ := hspares₃ tenantID hnot
  have hturn : ({} : Schedule).payTenant costs b₁ tenantID = .ok b₂ := by
    rw [Schedule.payTenant_some costs (hsame₁.getWalletForTenant.trans hw) rfl rfl,hsame₁.unapplied,h₂]
  have hactive : w' ∈ b₃.activeOf tenantID := by
    rw [hsame₃.wallets,Books.activeOf,List.mem_filter]
    have hl' : w'.lifecycleState = .active := (hsame.congr (·.lifecycleState) (fun _ _ _ => rfl)).trans hl
    exact ⟨Books.getWallet_mem hw',by simp [hsame.tenantID,htenant,hl']⟩
  refine ⟨b₃,w',?_,?_,?_,List.pairwise_insertionSort _ _,hpaid.congr fun ce hce => ?_⟩
  · change b.allTenantsWithWallets.foldlM (({} : Schedule).payTenant costs) b = .ok b₃
    rw [hsplit,List.foldlM_append,h₁]
    change (tenantID :: post).foldlM (({} : Schedule).payTenant costs) b₁ = .ok b₃
    rw [List.foldlM_cons,hturn]
    exact h₃
  · rw [← hsame.id]
    exact Books.getWallet_of_mem (List.mem_of_mem_filter hactive)
  · rw [hbal,Books.owed_eq]
  · obtain ⟨hof,-,ht,-⟩ := unapplied_of hce
    exact hsame₃.applied ce hof ht

theorem spends_one_tenant :
    spend (oneTenant.owed [chargeOf "t" 5 1,chargeOf "t" 7 0] "t") 10 = 10 ∧
    ∃ b' w', ({} : Schedule).deductWallets [chargeOf "t" 5 1,chargeOf "t" 7 0] oneTenant = .ok b' ∧
      b'.getWallet "w" = some w' ∧
      w'.balance.value = tenDollars.value - spend (oneTenant.owed [chargeOf "t" 5 1,chargeOf "t" 7 0] "t") 10 ∧
      (oneTenant.unappliedCostEntries [chargeOf "t" 5 1,chargeOf "t" 7 0] "t").Pairwise
        (fun r r' => r.periodStart ≤ r'.periodStart) ∧
      PaidInOrder b' (oneTenant.unappliedCostEntries [chargeOf "t" 5 1,chargeOf "t" 7 0] "t") := by
  refine ⟨by decide +kernel,?_⟩
  have havail : (purse "w" "t" tenDollars .active 1).available = 10 := by decide +kernel
  have hcosts : ∀ ce ∈ oneTenant.unappliedCostEntries [chargeOf "t" 5 1,chargeOf "t" 7 0] "t",
      ce.costAmount = 5 ∨ ce.costAmount = 7 := by decide +kernel
  have hchosen : oneTenant.getWalletForTenant "t" = some (purse "w" "t" tenDollars .active 1) := by
    decide +kernel
  have h := deductWallets_spends hchosen
    (show ∀ e ∈ [chargeOf "t" 5 1,chargeOf "t" 7 0], Store.costFits e by decide +kernel)
    (fun ce hce => by
      rcases hcosts ce hce with h | h
      · exact ⟨5*10^6,by rw [h]; norm_num⟩
      · exact ⟨7*10^6,by rw [h]; norm_num⟩)
    (by decide +kernel)
  rwa [havail] at h

end CostConsumer.Wallet
