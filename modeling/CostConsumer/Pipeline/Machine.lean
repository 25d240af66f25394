import CostConsumer.Ingest.Arrivals
import CostConsumer.Metering.Arrivals
import CostConsumer.Wallet.Machine
set_option autoImplicit false

/-!
The whole consumer on one database: ingestion requests with their transactions, the
metering process, the watcher and the reconciler, the rater, and the wallets. Any of
them may take the next step.
-/

namespace CostConsumer.Wallet
open Inventory

/-- The steps of the rater and of the wallets, not those of the other processes. -/
def Label.own : Label → Bool
  | .rating l => l.own
  | _ => true

def State.among (s : State) (nextID : Nat) (pending : List MeteringRow) : State :=
  { s with rating := s.rating.among nextID pending }

theorem step_among {l : Label} (hl : l.own = true) (s : State) (nextID : Nat)
    (pending : List MeteringRow) :
    step (s.among nextID pending) l = (step s l).map (·.among nextID pending) := by
  cases l with
  | rating l =>
    simp only [step,State.among,Rating.step_among hl,Option.map_map]
    rfl
  | create req id now failed =>
    simp only [step,State.create,State.among]
    cases req.wallet id now with
    | error e => rfl
    | ok w =>
      cases failed with
      | true => rfl
      | false => cases hw : s.books.createWallet w <;> simp [hw]
  | request endpoint req failed =>
    simp only [step,State.request,State.among]
    cases endpoint.validate req.amount with
    | error e => rfl
    | ok u =>
      by_cases hd : s.books.alreadyApplied failed req.walletID req.externalRef = true <;> simp [hd]
  | credit i f => cases hr : s.requests[i]? <;> simp [step,State.among,hr,State.credit]
  | begin n failed => cases hs : s.sweeps n <;> simp [step,State.among,hs,State.goto]
  | wallet n failed =>
    cases hs : s.sweeps n with
    | tenants todo =>
      cases todo with
      | nil => simp [step,State.among,hs]
      | cons tenantID todo =>
        cases hw : s.books.getWalletForTenant tenantID <;> simp [step,State.among,hs,hw,State.goto]
    | _ => simp [step,State.among,hs]
  | list n failed =>
    cases hs : s.sweeps n with
    | listing tenantID w todo =>
      simp only [step,State.among,hs,State.goto,State.costs]
      rfl
    | _ => simp [step,State.among,hs]
  | pay n f =>
    cases hs : s.sweeps n with
    | paying wallet entries todo =>
      cases entries with
      | nil => simp [step,State.among,hs]
      | cons ce rest =>
        simp only [step,State.among,hs,State.pay,State.goto,Option.map_some,Option.some.injEq]
        cases turn wallet ce with
        | deduct w amount =>
          have hcosts : State.costs { s with rating := s.rating.among nextID pending } = s.costs := rfl
          simp only [hcosts]
          rcases s.books.deductFromWallet s.costs f w.id ce.id amount with ⟨books,none | e⟩ <;> rfl
        | _ => rfl
    | _ => simp [step,State.among,hs]
  | refresh n failed => cases hs : s.sweeps n <;> simp [step,State.among,hs,State.goto]
  | crash n => rfl

end CostConsumer.Wallet

namespace CostConsumer.Pipeline
open Inventory Foundation Metering Ingest

variable {δ : Type}

/-- `ingest` holds the database, the sequence of ids and the project cache, which all
processes share. -/
structure State (δ : Type) where
  ingest : Ingest.State δ
  meter : Metering.Phase
  rater : Rating.Phase
  marked : List Rating.Verdict
  charged : List Rating.Charge
  books : Wallet.Books
  sweeps : Nat → Wallet.Sweep
  requests : List Wallet.TopUp
  credited : List Wallet.TopUp

/-- `reconciled` is a resource that reconciliation no longer finds; `setRates` are the
rates after they were changed. -/
inductive Label where
  | ingest (l : Ingest.Label) : Label
  | meter (l : Metering.Label) : Label
  | upsertTenant (r : TenantRecord) (now : Int) : Label
  | reconciled (k : Kind) (id : String) (now : Int) : Label
  | setRates (rates : List RateRecord) : Label
  | wallet (l : Wallet.Label) : Label

namespace State

variable (s : State δ)

def db : Database δ := s.ingest.db

def withStore (store : Store) : State δ :=
  { s with
    ingest := { s.ingest with sessions := { s.ingest.sessions with db := { s.db with toStore := store } } } }

def metering : Metering.State := ⟨s.db.toStore,s.ingest.nextID,s.ingest.projectCache,s.meter⟩

def withMetering (m : Metering.State) : State δ :=
  { s with
    ingest := { (s.withStore m.store).ingest with nextID := m.nextID, projectCache := m.projectCache }
    meter := m.phase }

def wallets : Wallet.State :=
  ⟨⟨s.db.toStore,s.ingest.nextID,[],s.rater,s.marked,s.charged⟩,s.books,s.sweeps,s.requests,s.credited⟩

def withWallets (w : Wallet.State) : State δ :=
  { s.withStore w.rating.store with
    rater := w.rating.phase
    marked := w.rating.marked
    charged := w.rating.charged
    books := w.books
    sweeps := w.sweeps
    requests := w.requests
    credited := w.credited }

end State

def step [DecidableEq δ] (env : Env δ) (s : State δ) : Label → Option (State δ)
  | .ingest l => (Ingest.step env s.ingest l).map fun ingest => { s with ingest }
  | .meter l => (Metering.step s.metering l).map s.withMetering
  | .upsertTenant r now => some (s.withStore (s.db.toStore.upsertTenant now r))
  | .reconciled k id now => some (s.withStore (s.db.toStore.markDeleted k id now "reconcile" now))
  | .setRates rates => some (s.withStore { s.db.toStore with rates })
  | .wallet l => if l.own then (Wallet.step s.wallets l).map s.withWallets else none

/-- The service starts with nothing ingested, metered, rated or paid, on any
inventory. -/
structure initial (s : State δ) : Prop where
  active : s.ingest.sessions.active = []
  commits : s.ingest.sessions.commits = []
  receipts : s.db.receipts.rows = []
  rawEvents : s.db.rawEvents = []
  meter : s.meter = .idle
  wallets : Wallet.empty s.wallets

/-- The invariant of the parts that others write around. -/
structure Inv [DecidableEq δ] (env : Env δ) (s : State δ) : Prop where
  sound : Ingest.Sound env s.ingest
  known : s.meter.Known s.db.toStore

theorem keeps_write (db : Database δ) (tx : Tx δ) : db.toStore.Keeps (tx.write db).toStore := by
  rw [Tx.write]
  induction tx.writes generalizing db with
  | nil => exact .refl _
  | cons w ws ih =>
    refine Store.Keeps.trans ?_ (ih (w.apply db))
    cases w with
    | upsert k r now => exact Store.keeps_upsert k now r
    | lastMetered k id t => exact Store.keeps_updateLastMetered k id t
    | metering id entries => exact Store.keeps_of_tables fun k => table_addMetering _ _ _ k
    | upsertModel r now => exact Store.keeps_of_tables fun k => by cases k <;> rfl
    | _ => exact .refl _

section Invariant
variable [DecidableEq δ] {env : Env δ} {s t : State δ} {l : Label}

theorem Inv.withStore (h : Inv env s) {store : Store} (hk : s.db.toStore.Keeps store) :
    Inv env (s.withStore store) := ⟨h.sound.others rfl rfl rfl rfl rfl,h.known.mono hk⟩

theorem tables_wallet {w u : Wallet.State} {l : Wallet.Label} (hl : l.own = true)
    (h : Wallet.step w l = some u) (k : Kind) : u.rating.store.table k = w.rating.store.table k := by
  cases Wallet.step_moves h with
  | rating hr =>
    cases hr with
    | allocate | commit | abort | alter => cases hl
    | insert hp ht hc => cases k <;> rfl
    | mark now hp => cases k <;> rfl
    | _ => rfl
  | _ => rfl

theorem Inv.step (h : Inv env s) (hst : step env s l = some t) : Inv env t := by
  cases l with
  | ingest l =>
    obtain ⟨u,hu,rfl⟩ := Option.map_eq_some_iff.mp hst
    refine ⟨h.sound.step hu,h.known.mono ?_⟩
    cases step_arrival h.sound.numbers hu with
    | insert es hdb hc hid ho => exact Store.keeps_of_tables fun k => congrArg (·.toStore.table k) hdb
    | fail n tx hdb hc hid ho => exact Store.keeps_of_tables fun k => congrArg (·.toStore.table k) hdb
    | commit n tx hdb hf hidle htodo hc hid ho =>
      have hkeep := keeps_write s.db tx
      rw [State.db,← hdb] at hkeep
      exact hkeep
  | meter l =>
    obtain ⟨m,hm,rfl⟩ := Option.map_eq_some_iff.mp hst
    exact ⟨h.sound.others rfl rfl rfl rfl rfl,(step_inserts h.known hm).2⟩
  | upsertTenant r now =>
    cases hst
    exact h.withStore (Store.keeps_of_tables fun k => by cases k <;> rfl)
  | reconciled k id now =>
    cases hst
    exact h.withStore (Store.keeps_markDeleted k id now "reconcile" now)
  | setRates rates =>
    cases hst
    exact h.withStore (Store.keeps_of_tables fun k => by cases k <;> rfl)
  | wallet l =>
    simp only [Pipeline.step] at hst
    split at hst
    · rename_i hl
      obtain ⟨w,hw,rfl⟩ := Option.map_eq_some_iff.mp hst
      have hk := h.withStore (Store.keeps_of_tables (tables_wallet hl hw))
      exact ⟨hk.sound,hk.known⟩
    · cases hst

theorem reachable_inv {ok : State δ → Label → Prop} (h : Reachable (Pipeline.step env) initial ok s) :
    Inv env s := by
  refine h.invariant (fun s hi => ?_) fun s l t hs _ hst => hs.step hst
  exact ⟨.initial hi.active hi.commits hi.receipts hi.rawEvents,by rw [hi.meter]; trivial⟩

end Invariant

/-- One kind of event can be decoded: sixty tokens of a model in an hour. -/
def tokenEnv : Env CloudEvent where
  decoder :=
    { peek := fun data => if data = "tokens" then some ⟨"t","","","","m",""⟩ else none
      meteringData := fun _ => none
      computeInstance := fun _ => none
      cluster := fun _ => none
      model := fun data =>
        if data = "tokens" then
          some ⟨"t","m","m","","MODEL_STATE_RUNNING",60,0,0,3600,0,"","","","","",0,0,0⟩
        else none
      vmInstanceType := fun _ => none
      clusterTemplate := fun _ => ""
      maasDimensions := fun _ => ⟨"","",0,0,0⟩ }
  customMetrics := []
  object := fun _ => none
  format := fun _ => ""
  parseFloat := fun _ => none
  digest := id
  digest_injective := Function.injective_id

def tokenEvent (id : String) (hour : Int) : CloudEvent :=
  ⟨"1.0",eventTypeModel,"gateway",id,Rating.february + Rating.hours hour,"","","tokens","","","","",""⟩

def opening (rate : RateRecord) : State CloudEvent where
  ingest := ⟨⟨{ rates := [rate] },0,[],[]⟩,1,fun _ => none,[]⟩
  meter := .idle
  rater := .idle
  marked := []
  charged := []
  books := {}
  sweeps := fun _ => .idle
  requests := []
  credited := []

theorem opening_initial (rate : RateRecord) : initial (opening rate) :=
  ⟨rfl,rfl,rfl,rfl,rfl,⟨rfl,rfl,fun _ => rfl,fun _ => rfl,rfl,rfl⟩,⟨rfl,rfl,rfl,rfl,rfl,rfl⟩⟩

def submitTokens (events : List CloudEvent) : List Label :=
  [.ingest (.submit (.batch events) (Rating.february + Rating.hours 3) false)]

def takeTokens (n : Nat) : List Label :=
  [.ingest (.claim n false),.ingest (.call n none),.ingest (.call n none),.ingest (.call n none),
    .ingest (.finish n)]

def commitTokens (n : Nat) : List Label := [.ingest (.commit n .committed)]

/-- A sweep of the rater over a number of entries. -/
def rateTokens (n : Nat) : List Label :=
  [.wallet (.rating (.begin ⟨10,Nat.succ_pos 9,none⟩ Rating.february false)),.wallet (.rating (.fetch false))] ++
    List.replicate n (.wallet (.rating (.price {}))) ++
    [.wallet (.rating (.insert false)),.wallet (.rating (.mark false Rating.february))]

end CostConsumer.Pipeline
