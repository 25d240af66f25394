import CostConsumer.Wallet.Sweep
set_option autoImplicit false

namespace CostConsumer.Wallet
open Inventory Foundation Numeric

/-- Which calls of a run fail. A run makes each of them at most once: those for a
tenant in its turn, a deduction and the refresh after it for a cost entry. -/
structure Schedule where
  tenants : Bool := false
  wallet : String → Bool := fun _ => false
  list : String → Bool := fun _ => false
  pay : Nat → Faults := fun _ => {}
  refresh : Nat → Bool := fun _ => false

namespace Schedule

variable (f : Schedule) (costs : List CostEntry)

/-- The loop over a tenant's entries. It ends with the tables as they are then; the
error is a nil wallet that is dereferenced. -/
def payEntries : Books → Option WalletRecord → List CostRow → Except Books Books
  | b, _, [] => .ok b
  | b, wallet, ce :: rest =>
    match turn wallet ce with
    | .skip => payEntries b wallet rest
    | .panic => .error b
    | .depleted => .ok b
    | .deduct w amount =>
      match b.deductFromWallet costs (f.pay ce.id) w.id ce.id amount with
      | (b',none) => payEntries b' wallet rest
      -- the error of this call is not looked at
      | (b',some _) => payEntries b' (if f.refresh ce.id then none else b'.getWallet w.id) rest

def payTenant (b : Books) (tenantID : String) : Except Books Books :=
  if f.wallet tenantID then .ok b
  else match b.getWalletForTenant tenantID with
    | none => .ok b
    | some w =>
      if w.lifecycleState ≠ .active ∨ f.list tenantID then .ok b
      else payEntries f costs b (some w) (b.unappliedCostEntries costs tenantID)

def deductWallets (b : Books) : Except Books Books :=
  if f.tenants then .ok b else b.allTenantsWithWallets.foldlM (f.payTenant costs) b

end Schedule

theorem Schedule.payTenant_some {f : Schedule} {b : Books} {tenantID : String} {w : WalletRecord}
    (costs : List CostEntry) (hw : b.getWalletForTenant tenantID = some w) (hwallet : f.wallet tenantID = false)
    (hlist : f.list tenantID = false) :
    f.payTenant costs b tenantID = f.payEntries costs b (some w) (b.unappliedCostEntries costs tenantID) := by
  have hl : w.lifecycleState = .active := (Books.getWalletForTenant_some hw).2.2
  simp [payTenant,hwallet,hlist,hw,hl]

/-- The tables a run leaves, whether it panics or not. -/
def tablesAfter : Except Books Books → Books
  | .ok b => b
  | .error b => b

section Machine

variable {f : Schedule} {n : Nat} {ok : Label → Bool}

structure Schedule.Allowed (f : Schedule) (n : Nat) (ok : Label → Bool) : Prop where
  begin : ok (.begin n f.tenants) = true
  wallet : ∀ t, ok (.wallet n (f.wallet t)) = true
  list : ∀ t, ok (.list n (f.list t)) = true
  pay : ∀ id, ok (.pay n (f.pay id)) = true
  refresh : ∀ id, ok (.refresh n (f.refresh id)) = true

/-- Where the machine is after a part of a run that leaves `todo` to do. -/
def endsAt (s : State) (n : Nat) (todo : List String) : Except Books Books → State → Prop
  | .ok b, t => t = s.at n b (.next todo)
  | .error b, t => ∃ ce rest todo, turn none ce = .panic ∧ t = s.at n b (.paying none (ce :: rest) todo)

theorem Schedule.Allowed.payEntries_runs (h : f.Allowed n ok) {s : State} {entries : List CostRow}
    {todo : List String} (b : Books) (wallet : Option WalletRecord) :
    ∃ t, Reachable step (· = s.at n b (.resume wallet entries todo)) (fun _ l => ok l = true) t ∧
      endsAt s n todo (f.payEntries s.costs b wallet entries) t := by
  induction entries generalizing b wallet with
  | nil => exact ⟨_,.start rfl,rfl⟩
  | cons ce rest ih =>
    have hpay := step_pay_at s n b (f.pay ce.id) wallet ce rest todo
    unfold Schedule.payEntries
    cases ht : turn wallet ce with
    | skip =>
      rw [ht] at hpay
      obtain ⟨t,hr,he⟩ := ih b wallet
      exact ⟨t,.head (h.pay ce.id) hpay hr,he⟩
    | panic =>
      obtain ⟨rfl,-⟩ := turn_panic ht
      exact ⟨_,.start rfl,ce,rest,todo,ht,rfl⟩
    | depleted =>
      rw [ht] at hpay
      exact ⟨_,.head (h.pay ce.id) hpay (.start rfl),rfl⟩
    | deduct w amount =>
      simp only [ht] at hpay ⊢
      rcases hd : b.deductFromWallet s.costs (f.pay ce.id) w.id ce.id amount with ⟨b₁,_ | e⟩
      · simp only [hd] at hpay ⊢
        obtain ⟨t,hr,he⟩ := ih b₁ wallet
        exact ⟨t,.head (h.pay ce.id) hpay hr,he⟩
      · simp only [hd] at hpay ⊢
        have hrefresh := step_refresh_at s n b₁ (f.refresh ce.id) w.id rest todo
        obtain ⟨t,hr,he⟩ := ih b₁ (if f.refresh ce.id then none else b₁.getWallet w.id)
        exact ⟨t,.head (h.pay ce.id) hpay (.head (h.refresh ce.id) hrefresh hr),he⟩

theorem Schedule.Allowed.payTenant_runs (h : f.Allowed n ok) (s : State) (b : Books) (tenantID : String)
    (todo : List String) :
    ∃ t, Reachable step (· = s.at n b (.tenants (tenantID :: todo))) (fun _ l => ok l = true) t ∧
      endsAt s n todo (f.payTenant s.costs b tenantID) t := by
  have hwallet := step_wallet_at s n b (f.wallet tenantID) tenantID todo
  unfold Schedule.payTenant
  cases hw : b.getWalletForTenant tenantID with
  | none =>
    simp only [hw] at hwallet ⊢
    exact ⟨_,.head (h.wallet tenantID) hwallet (.start rfl),by split <;> rfl⟩
  | some w =>
    simp only [hw] at hwallet ⊢
    split
    · rename_i hfails
      rw [if_pos hfails] at hwallet
      exact ⟨_,.head (h.wallet tenantID) hwallet (.start rfl),rfl⟩
    · rename_i hreads
      rw [if_neg hreads] at hwallet
      have hlist := step_list_at s n b (f.list tenantID) tenantID w todo
      have hl : w.lifecycleState = .active := (Books.getWalletForTenant_some hw).2.2
      simp only [hl,ne_eq,not_true_eq_false,false_or]
      split
      · rename_i hfails
        rw [if_pos hfails] at hlist
        exact ⟨_,.head (h.wallet tenantID) hwallet (.head (h.list tenantID) hlist (.start rfl)),rfl⟩
      · rename_i hlists
        rw [if_neg hlists] at hlist
        obtain ⟨t,hr,he⟩ := h.payEntries_runs b (some w)
        exact ⟨t,.head (h.wallet tenantID) hwallet (.head (h.list tenantID) hlist hr),he⟩

theorem Schedule.Allowed.runs (h : f.Allowed n ok) {s : State} (hp : s.sweeps n = .idle) :
    ∃ t, Reachable step (· = s) (fun _ l => ok l = true) t ∧
      endsAt s n [] (f.deductWallets s.costs s.books) t := by
  have hloop : ∀ (tenants : List String) (b : Books), ∃ t,
      Reachable step (· = s.at n b (.next tenants)) (fun _ l => ok l = true) t ∧
        endsAt s n [] (tenants.foldlM (f.payTenant s.costs) b) t := by
    intro tenants
    induction tenants with
    | nil => exact fun b => ⟨_,.start rfl,rfl⟩
    | cons tenantID tenants ih =>
      intro b
      obtain ⟨t,hr,he⟩ := h.payTenant_runs s b tenantID tenants
      rw [List.foldlM_cons]
      cases hb : f.payTenant s.costs b tenantID with
      | error b₁ =>
        rw [hb] at he
        exact ⟨t,hr,he⟩
      | ok b₁ =>
        rw [hb] at he
        obtain ⟨u,hr',he'⟩ := ih b₁
        exact ⟨u,hr.trans (he ▸ hr'),he'⟩
  unfold Schedule.deductWallets
  have hbegin := h.begin
  cases hf : f.tenants with
  | true => exact ⟨s,.start rfl,(at_idle hp).symm⟩
  | false =>
    rw [hf] at hbegin
    obtain ⟨t,hr,he⟩ := hloop s.books.allTenantsWithWallets s.books
    exact ⟨t,.head hbegin (step_begin_at hp) hr,he⟩

end Machine

theorem payEntries_ok {costs : List CostEntry} {entries : List CostRow} {b b' : Books} {w : WalletRecord}
    (h : payEntries costs b w entries = some b') :
    ({} : Schedule).payEntries costs b (some w) entries = .ok b' := by
  induction entries generalizing b w with
  | nil =>
    cases h
    rfl
  | cons ce rest ih =>
    unfold payEntries at h
    unfold Schedule.payEntries
    cases ht : turn (some w) ce with
    | skip =>
      rw [ht] at h
      exact ih h
    | panic =>
      rw [ht] at h
      cases h
    | depleted =>
      rw [ht] at h
      cases h
      rfl
    | deduct v amount =>
      obtain ⟨hv,-⟩ := turn_deduct ht
      cases hv
      simp only [ht] at h ⊢
      rcases hd : b.deductFromWallet costs {} w.id ce.id amount with ⟨b₁,_ | e⟩
      · simp [hd] at h
      · simp only [hd] at h ⊢
        obtain ⟨w₁,hw₁,h⟩ := Option.bind_eq_some_iff.mp h
        rw [hw₁]
        exact ih h

theorem payTenant_ok {costs : List CostEntry} {b b' : Books} {tenantID : String}
    (h : payTenant costs b tenantID = some b') : ({} : Schedule).payTenant costs b tenantID = .ok b' := by
  unfold payTenant at h
  cases hw : b.getWalletForTenant tenantID with
  | none =>
    rw [hw] at h
    cases h
    simp [Schedule.payTenant,hw]
  | some w =>
    simp only [hw] at h
    rw [Schedule.payTenant_some costs hw rfl rfl]
    exact payEntries_ok h

theorem deductWallets_ok {costs : List CostEntry} {b b' : Books} (h : deductWallets costs b = some b') :
    ({} : Schedule).deductWallets costs b = .ok b' := by
  unfold deductWallets at h
  change b.allTenantsWithWallets.foldlM (({} : Schedule).payTenant costs) b = .ok b'
  generalize b.allTenantsWithWallets = tenants at h
  induction tenants generalizing b with
  | nil =>
    cases h
    rfl
  | cons t tenants ih =>
    obtain ⟨b₁,h₁,h⟩ := Option.bind_eq_some_iff.mp h
    rw [List.foldlM_cons,payTenant_ok h₁]
    exact ih h

theorem undisturbed_allowed (n : Nat) : ({} : Schedule).Allowed n (undisturbed n) := by
  constructor <;> simp [undisturbed]

theorem deductWallets_runs {s : State} {n : Nat} {b : Books} (hp : s.sweeps n = .idle)
    (h : deductWallets s.costs s.books = some b) : Alone n s (s.at n b .idle) := by
  obtain ⟨t,hr,he⟩ := (undisturbed_allowed n).runs hp
  rw [deductWallets_ok h] at he
  exact he ▸ hr

deriving instance DecidableEq for Sweep

theorem deductWallets_runs_for_token : ∃ s b, Reachable step empty anyStep s ∧
    deductWallets s.costs s.books = some b ∧ b.ledger.length = 2 ∧ Alone 0 s (s.at 0 b .idle) := by
  obtain ⟨s,hs,hidle,b,hb,hl⟩ := Reachable.exists_of_run step empty (opening 1 "USD")
    (chargeToken ++ fundWallet 100)
    (fun s => s.sweeps 0 = .idle ∧ ∃ b, deductWallets s.costs s.books = some b ∧ b.ledger.length = 2)
    (opening_empty 1 "USD") (by decide +kernel)
  exact ⟨s,b,hs,hb,hl,deductWallets_runs hidle hb⟩

end CostConsumer.Wallet
