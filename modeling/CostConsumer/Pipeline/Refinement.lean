import CostConsumer.Pipeline.Machine
set_option autoImplicit false

/-!
The consumer refines the machine of the rater and the wallets: what that machine
takes for the steps of other transactions is what ingestion, metering and
reconciliation do, and the rows it has pending are those of the open requests.
-/

namespace CostConsumer.Pipeline
open Inventory Foundation Metering Ingest Rating

variable {δ : Type}

/-- The rater and the wallets among the rows of others. -/
def State.view (s : State δ) (pending : List MeteringRow) : Wallet.State :=
  s.wallets.among s.ingest.nextID pending

/-- Steps of processes other than the rater and the wallets. -/
def Label.others : Label → Bool
  | .wallet _ => false
  | _ => true

def Views (s : State δ) (w : Wallet.State) : Prop :=
  ∃ pending : List MeteringRow, pending.Perm s.ingest.openRows ∧ w = s.view pending

section Others
variable {ok : Rating.State → Rating.Label → Prop} {s t : State δ} {pending : List MeteringRow}

theorem view_ingest (s : State δ) (u : Ingest.State δ) (pending pending' : List MeteringRow) :
    (({ s with ingest := u } : State δ).view pending').rating = { (s.view pending).rating with
      store := u.db.toStore.billing, nextID := u.nextID, pending := pending' } := rfl

theorem run_alter (hok : Permits ok) (hi : IdsOK (s.view pending).rating) {store : Store}
    (hm : store.meteringEntries = s.db.meteringEntries) (hc : store.costEntries = s.db.costEntries) :
    Reachable Rating.step (· = (s.view pending).rating) ok ((s.withStore store).view pending).rating := by
  have hnone : ∀ row ∈ ([] : List MeteringRow), row ∈ (s.view pending).rating.pending := by simp
  have hrun := run_visible hok hi hnone (by simp) hm hc fun u row hn ho _ _ => by
    rw [hm] at hn
    exact absurd rfl (ho row hn)
  simp only [List.map_nil,List.not_mem_nil,not_false_eq_true,decide_true,List.filter_true] at hrun
  exact hrun

theorem run_ingest (hok : Permits ok) (hp : pending.Perm s.ingest.openRows)
    (hi : IdsOK (s.view pending).rating) {u : Ingest.State δ} (h : Arrival s.ingest u)
    (hshow : Shows ok s.db.meteringEntries u.db.meteringEntries) :
    ∃ pending' : List MeteringRow, pending'.Perm u.openRows ∧
      Reachable Rating.step (· = (s.view pending).rating) ok
        ((({ s with ingest := u } : State δ).view pending').rating) := by
  cases h with
  | insert es hdb hc hid ho =>
    refine ⟨pending ++ meteringRows s.ingest.nextID es,(hp.append_right _).trans ho.symm,?_⟩
    rw [view_ingest s u pending,hdb,hid]
    exact run_allocate hok es
  | fail n tx hdb hc hid ho =>
    refine ⟨_,filter_others (hp.trans ho) hi.nodup,?_⟩
    rw [view_ingest s u pending,hdb,hid]
    exact (run_gap hok hi.pending n).trans (run_abort hok tx.rows)
  | commit n tx hdb hf hidle htodo hc hid ho =>
    have hall := hp.trans ho
    refine ⟨_,filter_others hall hi.nodup,?_⟩
    have hmem : ∀ row ∈ tx.rows, row ∈ pending := fun row hr =>
      hall.mem_iff.mpr (List.mem_append_left _ hr)
    have hnd : (tx.rows.map (·.id)).Nodup := by
      have := (hall.map (·.id)).nodup_iff.mp hi.nodup
      rw [List.map_append] at this
      exact (List.nodup_append.mp this).1
    obtain ⟨hm,-,hcost⟩ := Write.foldl_apply tx.writes s.db
    rw [hdb] at hshow
    rw [view_ingest s u pending,hdb,hid]
    exact run_visible hok hi hmem hnd hm hcost hshow

theorem run_metering (hok : Permits ok) (hi : IdsOK (s.view pending).rating) {m : Metering.State}
    {es : List MeteringEntry} (h : Inserts s.metering m es)
    (hshow : Shows ok s.db.meteringEntries m.store.meteringEntries) :
    ∃ pending' : List MeteringRow, pending'.Perm pending ∧
      Reachable Rating.step (· = (s.view pending).rating) ok ((s.withMetering m).view pending').rating := by
  have hall := run_allocate (s := (s.view pending).rating) hok es
  have hi' := hi.run hall
  have hnd : ((pending ++ meteringRows s.ingest.nextID es).map (·.id)).Nodup := hi'.nodup
  have hrows : ((meteringRows s.ingest.nextID es).map (·.id)).Nodup := by
    rw [List.map_append] at hnd
    exact (List.nodup_append.mp hnd).2.1
  have hdone := hall.trans (run_visible (s := (s.view pending).rating) hok hi'
    (fun row hr => List.mem_append_right _ hr) hrows h.rows h.costs hshow)
  have hgap := run_gap hok (hi.run hdone).pending (m.nextID - (s.ingest.nextID + es.length))
  have hn : (s.view pending).rating.nextID + es.length + (m.nextID - (s.ingest.nextID + es.length)) =
      m.nextID := Nat.add_sub_cancel' h.nextID
  simp only [hn] at hgap
  exact ⟨_,filter_others List.perm_append_comm hnd,hdone.trans hgap⟩

theorem run_others [DecidableEq δ] {env : Env δ} {l : Label} (hok : Permits ok) (hinv : Inv env s)
    (hp : pending.Perm s.ingest.openRows) (hi : IdsOK (s.view pending).rating) (hl : l.others = true)
    (hst : step env s l = some t) (hshow : Shows ok s.db.meteringEntries t.db.meteringEntries) :
    ∃ pending' : List MeteringRow, pending'.Perm t.ingest.openRows ∧
      Reachable Rating.step (· = (s.view pending).rating) ok (t.view pending').rating := by
  cases l with
  | ingest l =>
    obtain ⟨u,hu,rfl⟩ := Option.map_eq_some_iff.mp hst
    exact run_ingest hok hp hi (step_arrival hinv.sound.numbers hu) hshow
  | meter l =>
    obtain ⟨m,hm,rfl⟩ := Option.map_eq_some_iff.mp hst
    obtain ⟨⟨es,hes⟩,-⟩ := step_inserts hinv.known hm
    obtain ⟨pending',hperm,hrun⟩ := run_metering hok hi hes hshow
    exact ⟨pending',hperm.trans hp,hrun⟩
  | upsertTenant r now =>
    cases hst
    exact ⟨pending,hp,run_alter hok hi rfl rfl⟩
  | reconciled k id now =>
    cases hst
    refine ⟨pending,hp,run_alter hok hi (by simp [Store.markDeleted]) ?_⟩
    cases k <;> rfl
  | setRates rates =>
    cases hst
    exact ⟨pending,hp,run_alter hok hi rfl rfl⟩
  | wallet l => cases hl

theorem others_keep [DecidableEq δ] {env : Env δ} {l : Label} (hl : l.others = true)
    (hst : step env s l = some t) (pending pending' : List MeteringRow) :
    t.view pending' = { s.view pending with rating := (t.view pending').rating } := by
  cases l with
  | ingest l =>
    obtain ⟨u,hu,rfl⟩ := Option.map_eq_some_iff.mp hst
    rfl
  | meter l =>
    obtain ⟨m,hm,rfl⟩ := Option.map_eq_some_iff.mp hst
    rfl
  | wallet l => cases hl
  | _ => cases hst; rfl

theorem view_wallet [DecidableEq δ] {env : Env δ} {l : Wallet.Label}
    (hst : step env s (.wallet l) = some t) (pending : List MeteringRow) :
    l.own = true ∧ t.ingest.openRows = s.ingest.openRows ∧
      Wallet.step (s.view pending) l = some (t.view pending) := by
  simp only [step] at hst
  split at hst
  · rename_i hl
    obtain ⟨w,hw,rfl⟩ := Option.map_eq_some_iff.mp hst
    refine ⟨hl,rfl,?_⟩
    rw [State.view,Wallet.step_among hl,hw]
    rfl
  · cases hst

end Others

section Refinement
variable [DecidableEq δ] {env : Env δ} {s : State δ} {ok : State δ → Label → Prop}

theorem rating_kept {w u : Wallet.State} {l : Wallet.Label} (hl : ∀ r, l ≠ .rating r)
    (h : Wallet.step w l = some u) : u.rating = w.rating := by
  cases Wallet.step_moves h with
  | rating hr => exact absurd rfl (hl _)
  | _ => rfl

theorem reachable_rating {ok : Wallet.State → Wallet.Label → Prop} {w : Wallet.State}
    (h : Reachable Wallet.step Wallet.empty ok w) : Reachable Rating.step Rating.initial anyStep w.rating := by
  induction h with
  | start hi => exact .start hi.2
  | @next v w l _ _ hst ih =>
    cases l with
    | rating l =>
      obtain ⟨r,hr,rfl⟩ := Option.map_eq_some_iff.mp hst
      exact .next l ih trivial hr
    | _ => exact rating_kept (by simp) hst ▸ ih

theorem run_rating {w : Wallet.State} {r : Rating.State}
    (h : Reachable Rating.step (· = w.rating) anyStep r) :
    Reachable Wallet.step (· = w) anyStep { w with rating := r } := by
  induction h with
  | start h₀ =>
    subst h₀
    exact .start rfl
  | next l _ _ hst ih => exact .next (.rating l) ih trivial (by simp [Wallet.step,hst])

theorem reachable_views (h : Reachable (step env) initial ok s) :
    ∃ w, Reachable Wallet.step Wallet.empty anyStep w ∧ Views s w := by
  refine h.simulated (fun s hi => ?_) fun s l t w hs hw hv _ hst => ?_
  · refine ⟨s.view [],?_,[],?_,rfl⟩
    · exact hi.wallets
    · rw [Ingest.State.openRows,hi.active]
      exact .refl _
  · obtain ⟨pending,hp,rfl⟩ := hv
    have hids := (reachable_ok (reachable_rating hw)).1
    by_cases hl : l.others = true
    · have hany : Permits anyStep := ⟨fun _ _ => trivial,fun _ _ => trivial,fun _ _ _ _ => trivial⟩
      obtain ⟨pending',hp',hrun⟩ := run_others hany (reachable_inv hs) hp hids hl hst
        fun _ _ _ _ _ _ => trivial
      refine ⟨t.view pending',?_,pending',hp',rfl⟩
      rw [others_keep hl hst pending pending']
      exact run_rating hrun
    · cases l with
      | wallet l =>
        obtain ⟨-,ho,hstep⟩ := view_wallet hst pending
        exact ⟨t.view pending,.one trivial hstep,pending,ho ▸ hp,rfl⟩
      | _ => exact absurd rfl hl

end Refinement

/-- The consumer refines the rater with its wallets: whatever the processes do together
is a run of that machine, in which the rows of open requests are pending. -/
theorem refines_rater_and_wallets [DecidableEq δ] {env : Env δ} {s : State δ}
    (h : Reachable (step env) initial anyStep s) :
    ∃ pending : List MeteringRow, pending.Perm s.ingest.openRows ∧
      Reachable Wallet.step Wallet.empty anyStep (s.view pending) := by
  obtain ⟨w,hw,pending,hp,rfl⟩ := reachable_views h
  exact ⟨pending,hp,hw⟩

/-- One request has inserted its entry and not committed, another is rated. -/
theorem tokens_refine :
    ∃ s, Reachable (step tokenEnv) initial anyStep s ∧ s.ingest.openRows.length = 1 ∧
      s.db.costEntries.length = 1 ∧ ∃ pending : List MeteringRow, pending.Perm s.ingest.openRows ∧
        Reachable Wallet.step Wallet.empty anyStep (s.view pending) := by
  obtain ⟨s,hs,hopen,hcosts⟩ := Reachable.exists_of_run (step tokenEnv) initial
    (opening { Rating.freeTier with tiers := [], pricePerUnit := 1 })
    (submitTokens [tokenEvent "e-1" 1] ++ takeTokens 0 ++ commitTokens 0 ++
      submitTokens [tokenEvent "e-2" 2] ++ takeTokens 1 ++ rateTokens 1)
    (fun s => s.ingest.openRows.length = 1 ∧ s.db.costEntries.length = 1)
    (opening_initial _) (by decide +kernel)
  exact ⟨s,hs,hopen,hcosts,refines_rater_and_wallets hs⟩

end CostConsumer.Pipeline
