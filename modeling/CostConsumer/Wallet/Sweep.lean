import CostConsumer.Wallet.Machine
import Mathlib.Data.List.Dedup
set_option autoImplicit false

namespace CostConsumer.Wallet
open Inventory Foundation Numeric

/-- The loop over a tenant's entries; `none` if a call fails. -/
def payEntries (costs : List CostEntry) : Books → WalletRecord → List CostRow → Option Books
  | b, _, [] => some b
  | b, w, ce :: rest =>
    match turn (some w) ce with
    | .skip => payEntries costs b w rest
    | .panic => none
    | .depleted => some b
    | .deduct _ amount =>
      match b.deductFromWallet costs {} w.id ce.id amount with
      | (_,none) => none
      | (b',some _) => (b'.getWallet w.id).bind (fun w' => payEntries costs b' w' rest)

def payTenant (costs : List CostEntry) (b : Books) (tenantID : String) : Option Books :=
  match b.getWalletForTenant tenantID with
  | none => some b
  | some w => payEntries costs b w (b.unappliedCostEntries costs tenantID)

def deductWallets (costs : List CostEntry) (b : Books) : Option Books :=
  b.allTenantsWithWallets.foldlM (payTenant costs) b

def WalletRecord.key (w : WalletRecord) : String × Int := (w.id,w.createdAt)

/-- What payments of a tenant leave as it is: the wallets apart from their money,
and the wallets of other tenants. -/
structure Frame (b b' : Books) (tenantID : String) : Prop where
  keys : ∀ t, (b'.activeOf t).map (·.key) = (b.activeOf t).map (·.key)
  others : ∀ t, t ≠ tenantID → b'.activeOf t = b.activeOf t
  keeps : ∀ id v, b.getWallet id = some v → ∃ v', b'.getWallet id = some v' ∧ v'.Same v

theorem Frame.refl (b : Books) (tenantID : String) : Frame b b tenantID :=
  ⟨fun _ => rfl,fun _ _ => rfl,fun _ v hv => ⟨v,hv,.refl v⟩⟩

theorem Frame.trans {b b' b'' : Books} {tenantID : String} (h : Frame b b' tenantID)
    (h' : Frame b' b'' tenantID) : Frame b b'' tenantID := by
  refine ⟨fun t => (h'.keys t).trans (h.keys t),fun t ht => (h'.others t ht).trans (h.others t ht),
    fun id v hv => ?_⟩
  obtain ⟨v',hv',hsame⟩ := h.keeps id v hv
  obtain ⟨v'',hv'',hsame'⟩ := h'.keeps id v' hv'
  exact ⟨v'',hv'',hsame'.trans hsame⟩

theorem Books.Moved.rows {b b' : Books} {w w' : WalletRecord} {e : WalletLedgerEntry}
    (h : Moved b b' w w' e) :
    b'.wallets.rows = b.wallets.rows.map (fun v => if v.id = w'.id then w' else v) := by
  rw [h.wallets]
  rfl

theorem Books.Moved.frame {b b' : Books} {w w' : WalletRecord} {e : WalletLedgerEntry}
    (h : Moved b b' w w' e) : Frame b b' w.tenantID := by
  have heq : ∀ v ∈ b.wallets.rows, v.id = w'.id → v = w := by
    intro v hv hid
    exact h.eq_of_found (hid ▸ getWallet_of_mem hv)
  have hsame : ∀ v ∈ b.wallets.rows, (if v.id = w'.id then w' else v).Same v := by
    intro v hv
    split
    · rename_i hid
      exact heq v hv hid ▸ h.kept
    · exact .refl v
  have hfilter : ∀ t, b'.activeOf t =
      (b.activeOf t).map (fun v => if v.id = w'.id then w' else v) := by
    intro t
    rw [activeOf,h.rows,List.filter_map]
    congr 1
    refine List.filter_congr fun v hv => ?_
    simp only [Function.comp_apply,(hsame v hv).tenantID,
      (hsame v hv).congr (·.lifecycleState) (fun _ _ _ => rfl)]
  refine ⟨fun t => ?_,fun t ht => ?_,fun _ _ => h.keeps⟩
  · rw [hfilter,List.map_map]
    refine List.map_congr_left fun v hv => ?_
    exact (hsame v (List.mem_of_mem_filter hv)).congr (·.key) (fun _ _ _ => rfl)
  · rw [hfilter]
    refine (List.map_congr_left fun v hv => ?_).trans (List.map_id _)
    obtain ⟨hmem,hact⟩ := List.mem_filter.mp hv
    simp only [Bool.and_eq_true,decide_eq_true_eq] at hact
    rw [if_neg (fun hid => ht (heq v hmem hid ▸ hact.1.symm)),id]

theorem getWalletForTenant_back {b b' : Books} {tenantID : String} {u v : WalletRecord}
    (hs : ((b.activeOf tenantID).map (·.key)).Sublist ((b'.activeOf tenantID).map (·.key)))
    (hu : b'.getWalletForTenant tenantID = some u) (hv : b.getWallet u.id = some v)
    (hsame : u.Same v) : b.getWalletForTenant tenantID = some v := by
  obtain ⟨-,htenant,hact⟩ := Books.getWalletForTenant_some hu
  have hmem : v ∈ b.activeOf tenantID := by
    rw [hsame.tenantID] at htenant
    rw [hsame.congr (·.lifecycleState) (fun _ _ _ => rfl)] at hact
    simpa [Books.activeOf,htenant,hact] using Books.getWallet_mem hv
  have hkey : u.key = v.key := hsame.congr _ (fun _ _ _ => rfl)
  have hnd : ((b'.activeOf tenantID).map (·.key)).Nodup := by
    refine List.Nodup.of_map Prod.fst ?_
    rw [List.map_map]
    exact b'.wallets.keys_nodup.sublist (List.filter_sublist.map _)
  have htime : ∀ w : WalletRecord, w.key.2 = w.createdAt := fun _ => rfl
  have hnew : newest Prod.snd ((b'.activeOf tenantID).map (·.key)) = some u.key := by
    rw [newest_map htime]
    exact congrArg (Option.map _) hu
  have hold := newest_sublist hs hnd hnew (hkey ▸ List.mem_map_of_mem hmem)
  rw [newest_map htime] at hold
  obtain ⟨w,hw,hwk⟩ := Option.map_eq_some_iff.mp hold
  have hwid : w.id = v.id := congrArg Prod.fst (hwk.trans hkey)
  obtain ⟨hwmem,-⟩ := Books.getWalletForTenant_some hw
  rw [← Table.key_injective hwmem (Books.getWallet_mem hv) hwid]
  exact hw

theorem payEntries_poor {costs : List CostEntry} {b b' : Books} {w : WalletRecord}
    {entries : List CostRow} (hw : w.available ≤ 0) (h : payEntries costs b w entries = some b') :
    b' = b := by
  induction entries with
  | nil => exact (Option.some.inj h).symm
  | cons ce rest ih =>
    unfold payEntries at h
    cases ht : turn (some w) ce with
    | skip =>
      rw [ht] at h
      exact ih h
    | panic =>
      rw [ht] at h
      cases h
    | depleted =>
      rw [ht] at h
      exact (Option.some.inj h).symm
    | deduct v amount =>
      obtain ⟨hv,hpos,-,hle,-⟩ := turn_deduct ht
      cases hv
      exact absurd (hpos.trans_le hle) (not_lt.mpr hw)

theorem deduct_some {b b' : Books} {costs : List CostEntry} {w : WalletRecord} {ce : CostRow}
    {amount : Rat} {e : WalletLedgerEntry} (hw : b.getWallet w.id = some w)
    (h : b.deductFromWallet costs {} w.id ce.id amount = (b',some e)) :
    ∃ w', Books.Moved b b' w w' e ∧ b'.getWallet w.id = some w' ∧ w'.Same w ∧
      w'.balance.value = stored 6 (w.balance.value - amount) ∧
      b.Deducted costs w.id ce.id amount b' e := by
  rcases b.deductFromWallet_cases costs {} w.id ce.id amount with h' | ⟨b₁,e₁,hd,h' | ⟨hf,-⟩⟩
  · rw [h'] at h
    cases h
  · rw [h'] at h
    cases h
    obtain ⟨v,w',hm,hid,-,hbal,-⟩ := hd.moved
    cases hm.eq_of_found (hid ▸ hw)
    exact ⟨w',hm,by rw [hm.getWallet,if_pos hid.symm],hm.kept,hbal,hd⟩
  · cases hf

theorem exists_neg (c : Money) : ∃ d : Money, d.value = -c.value :=
  ⟨⟨-c.units,by simpa using c.fits⟩,by simp [Column.value,neg_div]⟩

theorem turn_deducts {costs : List CostEntry} {b : Books} {w : WalletRecord} {ce : CostRow} {amount : Rat}
    {a c : Money} (hw : b.getWallet w.id = some w) (hl : w.lifecycleState = .active)
    (ht : turn (some w) ce = .deduct w amount)
    (happlied : Column.store ((b.applied ce.id).value + amount) = some c) (hamount : amount ≤ a.value) :
    ∃ b' e, b.deductFromWallet costs {} w.id ce.id amount = (b',some e) := by
  obtain ⟨-,hpos,-,hle,-⟩ := turn_deduct ht
  rw [WalletRecord.available] at hle
  obtain ⟨a',ha'⟩ := exists_neg a
  obtain ⟨balance,hbalance⟩ : ∃ e : Money, Column.store (w.balance.value - amount) = some e :=
    Column.store_between (c := w.balanceFloor) (d := w.balance) (by linarith) (by linarith)
  obtain ⟨n,hn⟩ : ∃ e : Money, Column.store (-amount) = some e :=
    Column.store_between (c := a') (d := 0) (by linarith) (by rw [Column.value_zero]; linarith)
  exact b.deductFromWallet_ok hw hl hbalance happlied hn

theorem available_spent {w w' : WalletRecord} (hsame : w'.Same w)
    (hbal : w'.balance.value = stored 6 (w.balance.value - w.available)) : w'.available ≤ 0 := by
  rw [WalletRecord.available,hsame.balanceFloor,hbal,WalletRecord.available,sub_sub_cancel,
    Column.stored_value,sub_self]

theorem stored_remaining {b : Books} {ce : CostRow} (hread : ce.walletApplied = b.applied ce.id) :
    stored 6 ((b.applied ce.id).value + ce.remaining) = stored 6 ce.costAmount := by
  rw [CostRow.remaining,hread,add_sub_cancel]

theorem payEntries_spec {costs : List CostEntry} {entries : List CostRow} {b b' : Books}
    {w : WalletRecord} (h : payEntries costs b w entries = some b')
    (hw : b.getWallet w.id = some w) (hof : ∀ ce ∈ entries, ce.Of costs)
    (hnd : (entries.map (·.id)).Nodup) (hread : ∀ ce ∈ entries, ce.walletApplied = b.applied ce.id) :
    Frame b b' w.tenantID ∧
      (∀ id, (∀ ce ∈ entries, ce.id ≠ id) → b'.applied id = b.applied id) ∧
      ∃ w', b'.getWallet w.id = some w' ∧ (w'.available ≤ 0 ∨
        ∀ ce ∈ entries, 0 < ce.remaining → (b'.applied ce.id).value = stored 6 ce.costAmount) := by
  induction entries generalizing b w with
  | nil =>
    cases h
    exact ⟨.refl _ _,fun _ _ => rfl,w,hw,.inr (by simp)⟩
  | cons ce rest ih =>
    obtain ⟨hce,hrest⟩ := List.nodup_cons.mp hnd
    have hof' : ∀ c ∈ rest, c.Of costs := fun c hc => hof c (List.mem_cons_of_mem _ hc)
    have hread' : ∀ c ∈ rest, c.walletApplied = b.applied c.id :=
      fun c hc => hread c (List.mem_cons_of_mem _ hc)
    have hne : ∀ c ∈ rest, c.id ≠ ce.id := fun c hc heq => hce (List.mem_map.mpr ⟨c,hc,heq⟩)
    unfold payEntries at h
    cases ht : turn (some w) ce with
    | skip =>
      rw [ht] at h
      obtain ⟨hframe,happlied,w',hw',hend⟩ := ih h hw hof' hrest hread'
      refine ⟨hframe,fun id hid => happlied id fun c hc => hid c (List.mem_cons_of_mem _ hc),w',hw',
        hend.imp_right fun hpaid c hc hpos => ?_⟩
      rcases List.mem_cons.mp hc with rfl | hc
      · exact absurd hpos (not_lt.mpr (turn_skip ht))
      · exact hpaid c hc hpos
    | panic =>
      rw [ht] at h
      cases h
    | depleted =>
      rw [ht] at h
      cases h
      exact ⟨.refl _ _,fun _ _ => rfl,w,hw,.inl (turn_depleted ht)⟩
    | deduct v amount =>
      obtain ⟨hv,hpos,hle,-,hamount⟩ := turn_deduct ht
      cases hv
      simp only [ht] at h
      cases hd : b.deductFromWallet costs {} w.id ce.id amount with
      | mk b₁ e? =>
        cases e? with
        | none => simp [hd] at h
        | some e =>
          obtain ⟨w₁,hm,hw₁,hsame,hbal,hded⟩ := deduct_some hw hd
          simp only [hd,hw₁,Option.bind_some] at h
          obtain ⟨c,hc,hap⟩ := hded.applied (hof ce List.mem_cons_self).id_mem
          have hid := hsame.id
          have htenant := hsame.tenantID
          obtain ⟨hframe,happlied,w',hw',hend⟩ := ih h (hid ▸ hw₁) hof' hrest fun c hc => by
            rw [hread' c hc,hap,Function.update_of_ne (hne c hc)]
          have hself : b'.applied ce.id = b₁.applied ce.id := happlied ce.id hne
          refine ⟨hm.frame.trans (htenant ▸ hframe),fun id hid => ?_,w',hid ▸ hw',?_⟩
          · rw [happlied id fun c hc => hid c (List.mem_cons_of_mem _ hc),hap,
              Function.update_of_ne (hid ce List.mem_cons_self).symm]
          · rcases hamount with hfull | hpart
            · refine hend.imp_right fun hpaid c' hc' hpos' => ?_
              rcases List.mem_cons.mp hc' with rfl | hc'
              · rw [hself,hap,Function.update_self,hc,hfull]
                exact stored_remaining (hread _ List.mem_cons_self)
              · exact hpaid c' hc' hpos'
            · -- all that was available is gone
              left
              have hpoor := available_spent hsame (hpart ▸ hbal)
              have hb := payEntries_poor hpoor h
              rw [hb,hid,hw₁,Option.some.injEq] at hw'
              exact hw' ▸ hpoor

theorem mem_allTenantsWithWallets {b : Books} {tenantID : String} {w : WalletRecord}
    (h : b.getWalletForTenant tenantID = some w) : tenantID ∈ b.allTenantsWithWallets := by
  obtain ⟨hrow,ht,hl⟩ := Books.getWalletForTenant_some h
  simpa [Books.allTenantsWithWallets] using ⟨w,⟨hrow,hl⟩,ht⟩

theorem Frame.chosen {b b' : Books} {tenantID t : String} {w : WalletRecord}
    (h : Frame b b' tenantID) (hw : b'.getWalletForTenant t = some w) :
    ∃ v, b.getWalletForTenant t = some v ∧ w.Same v := by
  have hkey : w.key ∈ (b.activeOf t).map (·.key) := by
    rw [← h.keys]
    exact List.mem_map_of_mem (mem_of_newest hw)
  obtain ⟨v,hv,hvk⟩ := List.mem_map.mp hkey
  have hget : b.getWallet w.id = some v := by
    have hid : v.id = w.id := congrArg Prod.fst hvk
    exact hid ▸ Books.getWallet_of_mem (List.mem_of_mem_filter hv)
  obtain ⟨w',hw',hsame⟩ := h.keeps _ v hget
  rw [Books.getWallet_of_mem (Books.getWalletForTenant_some hw).1,Option.some.injEq] at hw'
  subst hw'
  exact ⟨v,getWalletForTenant_back ((h.keys t).symm ▸ .refl _) hw hget hsame,hsame⟩

theorem unapplied_ids_nodup (b : Books) (costs : List CostEntry) (tenantID : String) :
    ((b.unappliedCostEntries costs tenantID).map (·.id)).Nodup := by
  have hids : ((b.costRows costs).map (·.id)).Nodup := by
    have hrange : (b.costRows costs).map (·.id) = List.range' 1 costs.length :=
      List.ext_getElem (by simp [Books.costRows])
        (fun i h₁ h₂ => by simp [Books.costRows,Books.costRow,Nat.add_comm])
    rw [hrange]
    exact List.nodup_range'
  rw [Books.unappliedCostEntries,((List.perm_insertionSort _ _).map _).nodup_iff]
  exact hids.sublist (List.filter_sublist.map _)

theorem unapplied_of {b : Books} {costs : List CostEntry} {tenantID : String} {ce : CostRow}
    (h : ce ∈ b.unappliedCostEntries costs tenantID) : ce.Of costs ∧ ce.walletApplied = b.applied ce.id ∧
      ce.tenantID = tenantID ∧ 0 < ce.remaining := by
  obtain ⟨hrow,ht,hlt⟩ := Books.mem_unapplied.mp h
  obtain ⟨hof,ha⟩ := Books.mem_costRows.mp hrow
  exact ⟨hof,ha,ht,sub_pos.mpr hlt⟩

/-- A tenant's turn: its newest wallet ends at the floor, or its entries are paid
in full; nobody else's entries are touched. -/
theorem payTenant_spec {costs : List CostEntry} {b b' : Books} {tenantID : String}
    (h : payTenant costs b tenantID = some b') :
    Frame b b' tenantID ∧
      (∀ r : CostRow, r.Of costs → r.tenantID ≠ tenantID ∨ r.costAmount ≤ (b.applied r.id).value →
        b'.applied r.id = b.applied r.id) ∧
      ∀ c, b'.getWalletForTenant tenantID = some c → 0 < c.available → ∀ r : CostRow, r.Of costs →
        r.tenantID = tenantID → (b.applied r.id).value < r.costAmount →
          (b'.applied r.id).value = stored 6 r.costAmount := by
  unfold payTenant at h
  cases hw : b.getWalletForTenant tenantID with
  | none =>
    rw [hw] at h
    cases h
    exact ⟨.refl _ _,fun _ _ _ => rfl,fun c hc => by rw [hw] at hc; cases hc⟩
  | some w =>
    simp only [hw] at h
    obtain ⟨hmem,htenant,-⟩ := Books.getWalletForTenant_some hw
    obtain ⟨hframe,happlied,w',hw',hend⟩ := payEntries_spec h (Books.getWallet_of_mem hmem)
      (fun ce hce => (unapplied_of hce).1) (unapplied_ids_nodup b costs tenantID)
      (fun ce hce => (unapplied_of hce).2.1)
    rw [htenant] at hframe
    refine ⟨hframe,fun r hof hr => happlied r.id fun ce hce hid => ?_,
      fun c hc hpos r hof hr hlt => ?_⟩
    · obtain ⟨hof',ha,ht,hopen⟩ := unapplied_of hce
      have heq := hof'.entry_eq hof hid
      rcases hr with hr | hr
      · exact hr (ht ▸ (congrArg CostEntry.tenantID heq).symm)
      · rw [CostRow.remaining,ha,hid,congrArg CostEntry.costAmount heq,sub_pos] at hopen
        exact absurd hopen (not_lt.mpr hr)
    · obtain ⟨v,hv,hsame⟩ := hframe.chosen hc
      rw [hw,Option.some.injEq] at hv
      subst hv
      rw [← hsame.id,Books.getWallet_of_mem (Books.getWalletForTenant_some hc).1,Option.some.injEq] at hw'
      subst hw'
      have hpaid := hend.resolve_left (not_le.mpr hpos)
      refine hpaid { r with walletApplied := b.applied r.id } ?_ (sub_pos.mpr hlt)
      exact Books.mem_unapplied.mpr ⟨Books.mem_costRows.mpr ⟨hof,rfl⟩,hr,hlt⟩

/-- Nothing that a tenant's turn reads is different. -/
structure Spares (costs : List CostEntry) (tenantID : String) (b b' : Books) : Prop where
  wallets : b'.activeOf tenantID = b.activeOf tenantID
  applied : ∀ r : CostRow, r.Of costs → r.tenantID = tenantID → b'.applied r.id = b.applied r.id

namespace Spares

variable {costs : List CostEntry} {tenantID : String} {b b₁ b₂ : Books}

theorem refl (costs : List CostEntry) (tenantID : String) (b : Books) : Spares costs tenantID b b :=
  ⟨rfl,fun _ _ _ => rfl⟩

theorem trans (h : Spares costs tenantID b b₁) (h' : Spares costs tenantID b₁ b₂) :
    Spares costs tenantID b b₂ :=
  ⟨h'.wallets.trans h.wallets,fun r hof ht => (h'.applied r hof ht).trans (h.applied r hof ht)⟩

theorem getWalletForTenant (h : Spares costs tenantID b b₁) :
    b₁.getWalletForTenant tenantID = b.getWalletForTenant tenantID := by
  rw [Books.getWalletForTenant,h.wallets,Books.getWalletForTenant]

end Spares

theorem payTenants_spares {costs : List CostEntry} {tenants : List String} {b b' : Books}
    {tenantID : String} (h : tenants.foldlM (payTenant costs) b = some b')
    (hne : tenantID ∉ tenants) : Spares costs tenantID b b' := by
  induction tenants generalizing b with
  | nil =>
    cases h
    exact .refl _ _ _
  | cons t tenants ih =>
    obtain ⟨ht,htenants⟩ := not_or.mp (fun h => hne (List.mem_cons.mpr h))
    obtain ⟨b₁,h₁,h⟩ := Option.bind_eq_some_iff.mp h
    obtain ⟨hframe,happlied,-⟩ := payTenant_spec h₁
    have hturn : Spares costs tenantID b b₁ :=
      ⟨hframe.others tenantID ht,fun r hof hr => happlied r hof (.inl (hr ▸ ht))⟩
    exact hturn.trans (ih h htenants)

theorem getWalletForTenant_key {b b' : Books} {tenantID : String}
    (h : (b'.activeOf tenantID).map (·.key) = (b.activeOf tenantID).map (·.key)) :
    (b'.getWalletForTenant tenantID).map (·.key) = (b.getWalletForTenant tenantID).map (·.key) := by
  have htime : ∀ w : WalletRecord, w.key.2 = w.createdAt := fun _ => rfl
  have hnewest := congrArg (newest Prod.snd) h
  rw [newest_map htime,newest_map htime] at hnewest
  exact hnewest

theorem deductWallets_newest {costs : List CostEntry} {b b' : Books} (tenantID : String)
    (h : deductWallets costs b = some b') :
    (b'.getWalletForTenant tenantID).map (·.key) = (b.getWalletForTenant tenantID).map (·.key) := by
  refine getWalletForTenant_key ?_
  unfold deductWallets at h
  generalize b.allTenantsWithWallets = tenants at h
  induction tenants generalizing b with
  | nil =>
    cases h
    rfl
  | cons t tenants ih =>
    obtain ⟨b₁,h₁,h⟩ := Option.bind_eq_some_iff.mp h
    exact (ih h).trans ((payTenant_spec h₁).1.keys tenantID)

theorem deductWallets_spec {costs : List CostEntry} {b b' : Books} (tenantID : String)
    (h : deductWallets costs b = some b') :
    (∀ r : CostRow, r.Of costs → r.tenantID = tenantID → r.costAmount ≤ (b.applied r.id).value →
        b'.applied r.id = b.applied r.id) ∧
      ∀ c, b'.getWalletForTenant tenantID = some c → 0 < c.available → ∀ r : CostRow, r.Of costs →
        r.tenantID = tenantID → (b.applied r.id).value < r.costAmount →
          (b'.applied r.id).value = stored 6 r.costAmount := by
  unfold deductWallets at h
  by_cases hmem : tenantID ∈ b.allTenantsWithWallets
  · obtain ⟨pre,post,hsplit⟩ := List.append_of_mem hmem
    have hnd : (pre ++ tenantID :: post).Nodup := hsplit ▸ List.nodup_dedup _
    obtain ⟨-,hpost,hpre⟩ := List.nodup_append.mp hnd
    rw [hsplit,List.foldlM_append] at h
    obtain ⟨b₁,h₁,h⟩ := Option.bind_eq_some_iff.mp h
    obtain ⟨b₂,h₂,h₃⟩ := Option.bind_eq_some_iff.mp h
    have hbefore := payTenants_spares h₁
      (fun hin => hpre tenantID hin tenantID List.mem_cons_self rfl)
    obtain ⟨-,hap₂,hpaid⟩ := payTenant_spec h₂
    have hafter := payTenants_spares h₃ (List.nodup_cons.mp hpost).1
    constructor
    · intro r hof hr hle
      rw [hafter.applied r hof hr,hap₂ r hof (.inr (hbefore.applied r hof hr ▸ hle)),hbefore.applied r hof hr]
    · intro c hc hpos r hof hr hlt
      rw [hafter.getWalletForTenant] at hc
      rw [hafter.applied r hof hr]
      exact hpaid c hc hpos r hof hr (hbefore.applied r hof hr ▸ hlt)
  · -- the tenant has no active wallet
    have hspares := payTenants_spares h hmem
    refine ⟨fun r hof hr _ => hspares.applied r hof hr,fun c hc => ?_⟩
    rw [hspares.getWalletForTenant] at hc
    exact absurd (mem_allTenantsWithWallets hc) hmem

def undisturbed (n : Nat) : Label → Bool
  | .begin m failed => m = n && !failed
  | .wallet m failed => m = n && !failed
  | .list m failed => m = n && !failed
  | .pay m f => m = n && f = {}
  | .refresh m failed => m = n && !failed
  | _ => false

/-- Runs of such a sweep while nothing else happens. -/
abbrev Alone (n : Nat) (s t : State) : Prop :=
  Reachable step (· = s) (fun _ l => undisturbed n l = true) t

/-- The state with other tables, and with the sweep of a rater somewhere else. -/
def State.at (s : State) (n : Nat) (books : Books) (p : Sweep) : State := { s with books }.goto n p

theorem at_goto (s : State) (n : Nat) (b b' : Books) (p q : Sweep) :
    { s.at n b p with books := b' }.goto n q = s.at n b' q := by
  simp [State.at,State.goto]

theorem at_sweeps (s : State) (n : Nat) (b : Books) (p : Sweep) : (s.at n b p).sweeps n = p := by
  simp [State.at]

theorem step_begin_at {s : State} {n : Nat} (hp : s.sweeps n = .idle) :
    step s (.begin n false) = some (s.at n s.books (.next s.books.allTenantsWithWallets)) := by
  simp [step,hp,State.at]

theorem at_idle {s : State} {n : Nat} (hp : s.sweeps n = .idle) : s.at n s.books .idle = s := by
  simp [State.at,State.goto,← hp]

theorem step_pay_at (s : State) (n : Nat) (b : Books) (f : Faults) (wallet : Option WalletRecord)
    (ce : CostRow) (rest : List CostRow) (todo : List String) :
    step (s.at n b (.paying wallet (ce :: rest) todo)) (.pay n f) =
      some (match turn wallet ce with
        | .skip => s.at n b (.resume wallet rest todo)
        | .panic => s.at n b .idle
        | .depleted => s.at n b (.next todo)
        | .deduct w amount =>
          match b.deductFromWallet s.costs f w.id ce.id amount with
          | (b',none) => s.at n b' (.resume wallet rest todo)
          | (b',some _) => s.at n b' (.refreshing w.id rest todo)) := by
  simp only [step,at_sweeps,State.pay]
  cases turn wallet ce with
  | skip => exact congrArg some (at_goto s n b b _ _)
  | panic => exact congrArg some (at_goto s n b b _ _)
  | depleted => exact congrArg some (at_goto s n b b _ _)
  | deduct w amount =>
    have hbooks : (s.at n b (.paying wallet (ce :: rest) todo)).books = b := rfl
    have hcosts : (s.at n b (.paying wallet (ce :: rest) todo)).costs = s.costs := rfl
    simp only [hbooks,hcosts]
    rcases b.deductFromWallet s.costs f w.id ce.id amount with ⟨b',_ | e⟩
    · exact congrArg some (at_goto s n b b' _ _)
    · exact congrArg some (at_goto s n b b' _ _)

theorem step_refresh_at (s : State) (n : Nat) (b : Books) (failed : Bool) (walletID : String)
    (rest : List CostRow) (todo : List String) :
    step (s.at n b (.refreshing walletID rest todo)) (.refresh n failed) =
      some (s.at n b (.resume (if failed then none else b.getWallet walletID) rest todo)) := by
  simp only [step,at_sweeps]
  exact congrArg some (at_goto s n b b _ _)

theorem step_wallet_at (s : State) (n : Nat) (b : Books) (failed : Bool) (tenantID : String)
    (todo : List String) :
    step (s.at n b (.tenants (tenantID :: todo))) (.wallet n failed) =
      some (match b.getWalletForTenant tenantID with
        | none => s.at n b (.next todo)
        | some w => if failed then s.at n b (.next todo) else s.at n b (.listing tenantID w todo)) := by
  simp only [step,at_sweeps]
  change (match b.getWalletForTenant tenantID with
    | none => _
    | some w => _) = _
  cases hw : b.getWalletForTenant tenantID with
  | none => exact congrArg some (at_goto s n b b _ _)
  | some w =>
    have hl := (Books.getWalletForTenant_some hw).2.2
    cases failed with
    | true =>
      simp only [true_or,if_true]
      exact congrArg some (at_goto s n b b _ _)
    | false =>
      simp only [Bool.false_eq_true,false_or,hl,ne_eq,not_true_eq_false,if_false]
      exact congrArg some (at_goto s n b b _ _)

theorem step_list_at (s : State) (n : Nat) (b : Books) (failed : Bool) (tenantID : String)
    (w : WalletRecord) (todo : List String) :
    step (s.at n b (.listing tenantID w todo)) (.list n failed) =
      some (if failed then s.at n b (.next todo)
        else s.at n b (.resume (some w) (b.unappliedCostEntries s.costs tenantID) todo)) := by
  simp only [step,at_sweeps]
  cases failed with
  | true => exact congrArg some (at_goto s n b b _ _)
  | false => exact congrArg some (at_goto s n b b _ _)

end CostConsumer.Wallet
