import CostConsumer.Pipeline.Refinement
import CostConsumer.Rating.Sources
import CostConsumer.Wallet.Currency
set_option autoImplicit false

/-!
The way back from money to what was used: a deduction names a cost entry, that names
a stored metering entry, and that is one an accepted event asked for, or one of a
metered interval of a resource in the inventory.
-/

namespace CostConsumer.Inventory

/-- An entry as it is stored: with an id of the table, its value rounded. -/
def MeteringEntry.StoredAs (e e' : MeteringEntry) : Prop :=
  e' = (Store.meteringRow e'.id e).toMeteringEntry

theorem mem_meteringRows {id : Nat} {es : List MeteringEntry} {row : MeteringRow}
    (h : row ∈ meteringRows id es) : id ≤ row.id ∧ ∃ e ∈ es, e.StoredAs row.toMeteringEntry := by
  induction es generalizing id with
  | nil => cases h
  | cons e es ih =>
    rcases List.mem_cons.mp h with rfl | h
    · exact ⟨Nat.le_refl id,e,List.mem_cons_self,rfl⟩
    · obtain ⟨hid,e',he,hs⟩ := ih h
      exact ⟨by omega,e',List.mem_cons_of_mem _ he,hs⟩

theorem meteringRows_nodup (id : Nat) (es : List MeteringEntry) :
    ((meteringRows id es).map (·.id)).Nodup := by
  induction es generalizing id with
  | nil => exact .nil
  | cons e es ih =>
    refine List.nodup_cons.mpr ⟨fun hm => ?_,ih (id+1)⟩
    obtain ⟨row,hr,hid⟩ := List.mem_map.mp hm
    have := (mem_meteringRows hr).1
    simp only [Store.meteringRow] at hid
    omega

end CostConsumer.Inventory

namespace CostConsumer.Ingest
open Inventory Foundation

variable {δ : Type}

def Reports (env : Env δ) (ce : CloudEvent) (e : MeteringEntry) : Prop :=
  ∃ calls, env.handle ce = .ok calls ∧ ∃ c ∈ calls, ∃ projectID, e ∈ c.entries projectID

theorem Performed.rows {now : Int} {cs : List Call} {ws : List (Write δ)} (h : Performed now cs ws)
    {row : MeteringRow} (hr : row ∈ ws.flatMap Write.rows) :
    ∃ c ∈ cs, ∃ projectID, ∃ e ∈ c.entries projectID, e.StoredAs row.toMeteringEntry := by
  induction h with
  | nil => cases hr
  | @snoc cs ws c w db id projectID _ hw ih =>
    rw [List.flatMap_append,List.mem_append] at hr
    rcases hr with hr | hr
    · obtain ⟨c',hc,hrest⟩ := ih hr
      exact ⟨c',List.mem_append_left _ hc,hrest⟩
    · have hrow : row ∈ meteringRows id (c.entries projectID) := by
        rcases Call.write_ok hw with rfl | ⟨rfl,-⟩
        · cases c with
          | insertMetering entries => simpa [Call.written,Write.rows,Call.entries] using hr
          | meterForTenant tenantID entries => simpa [Call.written,Write.rows,Call.entries] using hr
          | _ => simp [Call.written,Write.rows] at hr
        · cases hr
      obtain ⟨-,e,he,hs⟩ := mem_meteringRows hrow
      exact ⟨c,by simp,projectID,e,he,hs⟩

theorem Block.Complete.rows {env : Env δ} {now : Int} {b : Block δ} (h : b.Complete env now)
    {row : MeteringRow} (hr : row ∈ b.writes.flatMap Write.rows) :
    ∃ e, Reports env b.event e ∧ e.StoredAs row.toMeteringEntry := by
  obtain ⟨calls,ws,hh,hw,hp⟩ := h.calls
  have hrow : row ∈ ws.flatMap Write.rows := by simpa [hw,Write.rows] using hr
  obtain ⟨c,hc,projectID,e,he,hs⟩ := hp.rows hrow
  rcases List.mem_cons.mp hc with rfl | hc
  · cases he
  · exact ⟨e,⟨calls,hh,c,hc,projectID,he⟩,hs⟩

end CostConsumer.Ingest

namespace CostConsumer.Pipeline
open Inventory Foundation Metering Ingest Rating

variable {δ : Type}

namespace State

variable (s : State δ)

def taken : List CloudEvent := (s.ingest.sessions.commits.map (·.2)).flatMap Tx.claimed

def eventEntries : List MeteringEntry :=
  (s.ingest.sessions.commits.flatMap (·.2.rows)).map (·.toMeteringEntry)

end State

/-- Every stored entry is one of a committed request or of a metered interval. -/
def Recorded (s : State δ) : Prop :=
  ∃ metered : List MeteringEntry, s.db.entries.Perm (s.eventEntries ++ metered) ∧
    ∀ e ∈ metered, ∃ e', Metered s.db.toStore e' ∧ e'.StoredAs e

theorem Recorded.of_entries {s t : State δ} (h : Recorded s) (he : t.db.entries = s.db.entries)
    (hc : t.eventEntries = s.eventEntries) (hk : s.db.toStore.Keeps t.db.toStore) : Recorded t := by
  obtain ⟨metered,hp,hm⟩ := h
  refine ⟨metered,by rw [he,hc]; exact hp,fun e hmem => ?_⟩
  obtain ⟨e',hmet,hs⟩ := hm e hmem
  exact ⟨e',hmet.mono hk,hs⟩

theorem entries_insert (old : Store) {new : Store} {rows : List MeteringRow} (hnd : (rows.map (·.id)).Nodup)
    (hf : ∀ row ∈ rows, ∀ a ∈ old.meteringEntries.rows, a.id ≠ row.id)
    (h : new.meteringEntries = rows.foldl Table.insert old.meteringEntries) :
    new.entries.Perm (old.entries ++ rows.map (·.toMeteringEntry)) := by
  rw [Store.entries,Store.entries,h,← List.map_append]
  exact (Table.insert_all_perm hnd hf).map _

theorem Recorded.ingest {s : State δ} {u : Ingest.State δ} (h : Recorded s)
    (hnd : (s.ingest.openRows.map (·.id)).Nodup)
    (hf : ∀ row ∈ s.ingest.openRows, ∀ a ∈ s.db.meteringEntries.rows, a.id ≠ row.id)
    (ha : Arrival s.ingest u) : Recorded { s with ingest := u } := by
  have hsame (hdb : u.db = s.db) (hc : u.sessions.commits = s.ingest.sessions.commits) :
      Recorded { s with ingest := u } := by
    refine h.of_entries (congrArg (·.entries) hdb) ?_ ?_
    · rw [State.eventEntries,hc]
      rfl
    · exact Store.keeps_of_tables fun k => congrArg (·.toStore.table k) hdb
  cases ha with
  | insert es hdb hc hid ho => exact hsame hdb hc
  | fail n tx hdb hc hid ho => exact hsame hdb hc
  | commit n tx hdb hfind hidle htodo hc hid ho =>
    obtain ⟨metered,hp,hm⟩ := h
    have hrows : (tx.rows.map (·.id)).Nodup := by
      have hall := (ho.map (·.id)).nodup_iff.mp hnd
      rw [List.map_append] at hall
      exact (List.nodup_append.mp hall).1
    have hins := entries_insert s.db.toStore hrows
      (fun row hr => hf row (ho.mem_iff.mpr (List.mem_append_left _ hr)))
      (Write.foldl_apply tx.writes s.db).1
    refine ⟨metered,?_,fun e hmem => ?_⟩
    · have hdb' : State.db { s with ingest := u } = tx.write s.db := hdb
      have hev : State.eventEntries { s with ingest := u } =
          s.eventEntries ++ tx.rows.map (·.toMeteringEntry) := by
        simp [State.eventEntries,hc]
      rw [hdb',hev,List.append_assoc]
      refine hins.trans ((hp.append_right _).trans ?_)
      rw [List.append_assoc]
      exact .append_left _ List.perm_append_comm
    · obtain ⟨e',hmet,hs⟩ := hm e hmem
      have hkeep := keeps_write s.db tx
      rw [State.db,← hdb] at hkeep
      exact ⟨e',hmet.mono hkeep,hs⟩

theorem Recorded.metering {s : State δ} {m : Metering.State} {es : List MeteringEntry} (h : Recorded s)
    (hids : ∀ row ∈ s.db.meteringEntries.rows, row.id < s.ingest.nextID)
    (hi : Inserts s.metering m es) : Recorded (s.withMetering m) := by
  obtain ⟨metered,hp,hm⟩ := h
  have hins := entries_insert s.db.toStore (meteringRows_nodup s.ingest.nextID es)
    (fun row hr a ha => ?_) hi.rows
  · refine ⟨metered ++ (meteringRows s.ingest.nextID es).map (·.toMeteringEntry),?_,fun e hmem => ?_⟩
    · rw [← List.append_assoc]
      exact hins.trans (hp.append_right _)
    · rcases List.mem_append.mp hmem with hmem | hmem
      · obtain ⟨e',hmet,hs⟩ := hm e hmem
        exact ⟨e',hmet.mono hi.keeps,hs⟩
      · obtain ⟨row,hr,rfl⟩ := List.mem_map.mp hmem
        obtain ⟨-,e',he,hs⟩ := mem_meteringRows hr
        exact ⟨e',(hi.metered e' he).mono hi.keeps,hs⟩
  · have h₁ := (mem_meteringRows hr).1
    have h₂ := hids a ha
    omega

theorem entries_wallet {w u : Wallet.State} {l : Wallet.Label} (hl : l.own = true)
    (h : Wallet.step w l = some u) : u.rating.store.entries = w.rating.store.entries := by
  cases Wallet.step_moves h with
  | rating hr =>
    cases hr with
    | allocate | commit | abort | alter => cases hl
    | mark now hp => exact Store.entries_mark _ _ _
    | _ => rfl
  | _ => rfl

section Trail
variable [DecidableEq δ] {env : Env δ} {s t : State δ} {l : Label} {ok : State δ → Label → Prop}

theorem reachable_ids (h : Reachable (step env) initial ok s) :
    (∀ row ∈ s.db.meteringEntries.rows, row.id < s.ingest.nextID) ∧
      (s.ingest.openRows.map (·.id)).Nodup ∧
      ∀ row ∈ s.ingest.openRows, ∀ a ∈ s.db.meteringEntries.rows, a.id ≠ row.id := by
  obtain ⟨w,hw,pending,hp,rfl⟩ := reachable_views h
  have hids := (reachable_ok (reachable_rating hw)).1
  exact ⟨hids.rows,(hp.map _).nodup_iff.mp hids.nodup,fun row hr => hids.fresh row (hp.mem_iff.mpr hr)⟩

theorem reachable_recorded (h : Reachable (step env) initial ok s) : Recorded s := by
  refine h.invariant_with (fun s hs => And.intro (reachable_inv hs) (reachable_ids hs)) ?_ ?_
  · intro s hi
    have hrows : s.db.meteringEntries.rows = [] := hi.wallets.2.1
    refine ⟨[],?_,by simp⟩
    simp [State.eventEntries,hi.commits,Store.entries,hrows]
  · intro s l t hs _ hr _ hst
    obtain ⟨hinv,hids,hnd,hf⟩ := hs
    cases l with
    | ingest l =>
      obtain ⟨u,hu,rfl⟩ := Option.map_eq_some_iff.mp hst
      exact hr.ingest hnd hf (step_arrival hinv.sound.numbers hu)
    | meter l =>
      obtain ⟨m,hm,rfl⟩ := Option.map_eq_some_iff.mp hst
      obtain ⟨⟨es,hes⟩,-⟩ := step_inserts hinv.known hm
      exact hr.metering hids hes
    | upsertTenant r now =>
      cases hst
      exact hr.of_entries rfl rfl (Store.keeps_of_tables fun k => by cases k <;> rfl)
    | reconciled k id now =>
      cases hst
      exact hr.of_entries (Store.entries_setTable _ _ _) rfl
        (Store.keeps_markDeleted k id now "reconcile" now)
    | setRates rates =>
      cases hst
      exact hr.of_entries rfl rfl (Store.keeps_of_tables fun k => by cases k <;> rfl)
    | wallet l =>
      simp only [step] at hst
      split at hst
      · rename_i hl
        obtain ⟨w,hw,rfl⟩ := Option.map_eq_some_iff.mp hst
        exact hr.of_entries (entries_wallet hl hw) rfl (Store.keeps_of_tables (tables_wallet hl hw))
      · cases hst

/-- What a stored metering entry is of: an accepted event with its receipt, or a
metered interval. -/
def Origin (env : Env δ) (s : State δ) (me : MeteringEntry) : Prop :=
  (∃ ce ∈ s.taken, seen s.db ce.key = some (env.digest ce) ∧ ∃ e, Reports env ce e ∧ e.StoredAs me) ∨
    ∃ e, Metered s.db.toStore e ∧ e.StoredAs me

theorem reachable_origin (h : Reachable (step env) initial ok s) {me : MeteringEntry}
    (hm : me ∈ s.db.entries) : Origin env s me := by
  obtain ⟨metered,hp,hmet⟩ := reachable_recorded h
  have hing := (reachable_inv h).sound.ingested
  rcases List.mem_append.mp (hp.mem_iff.mp hm) with he | he
  · obtain ⟨row,hr,rfl⟩ := List.mem_map.mp he
    obtain ⟨c,hc,hr⟩ := List.mem_flatMap.mp hr
    obtain ⟨w,hw,hr⟩ := List.mem_flatMap.mp hr
    obtain ⟨b,hb,hw⟩ := List.mem_flatMap.mp hw
    have hcomplete := hing.complete c.2 (List.mem_map_of_mem hc) b hb
    have htaken : b.event ∈ s.taken :=
      List.mem_flatMap.mpr ⟨c.2,List.mem_map_of_mem hc,List.mem_map_of_mem hb⟩
    refine .inl ⟨b.event,htaken,?_,hcomplete.rows (List.mem_flatMap.mpr ⟨w,hw,hr⟩)⟩
    rw [State.db,hing.known]
    exact Once.noted_of_mem (Once.accept_fresh hing.accepted).1 htaken
  · exact .inr (hmet me he)

end Trail

/-- Every deduction from a wallet is for a cost entry of its tenant, and behind that
is a metering entry of the tenant that an accepted event or a metered interval
accounts for. -/
theorem deduction_traced [DecidableEq δ] {env : Env δ} {s : State δ}
    (h : Reachable (step env) initial anyStep s) {e : Wallet.WalletLedgerEntry}
    (he : e ∈ s.books.ledger) (ht : e.entryType = .deduction) :
    ∃ (w : Wallet.WalletRecord) (i : Nat) (me : MeteringEntry) (rateID : Nat) (cost : Rat)
      (currency : String), s.books.getWallet e.walletID = some w ∧ e.costEntryID = some (i+1) ∧
      s.db.costEntries[i]? = some (costEntry me rateID cost currency) ∧ me ∈ s.db.entries ∧
      me.tenantID = w.tenantID ∧ Origin env s me := by
  obtain ⟨v,hv,pending,-,rfl⟩ := reachable_views h
  have hattr := Wallet.reachable_attributed (hv.mono (fun _ hi => hi.1) fun _ _ h => h)
  obtain ⟨w,r,hw,⟨i,c,hi,hid,hr⟩,hcost,htenant⟩ := hattr e he ht
  have hsrc := (reachable_sourced (reachable_rating hv)).stored c (List.mem_of_getElem? hi)
  obtain ⟨me,hme,rateID,cost,currency,rfl⟩ := hsrc
  refine ⟨w,i,me,rateID,cost,currency,hw,hid ▸ hcost,hi,hme,?_,reachable_origin h hme⟩
  rw [← htenant,hr]
  rfl

theorem tokens_traced :
    ∃ s, Reachable (step tokenEnv) initial anyStep s ∧ ∃ e ∈ s.books.ledger, e.entryType = .deduction ∧
      ∃ (w : Wallet.WalletRecord) (i : Nat) (me : MeteringEntry) (rateID : Nat) (cost : Rat)
        (currency : String), s.books.getWallet e.walletID = some w ∧ e.costEntryID = some (i+1) ∧
        s.db.costEntries[i]? = some (costEntry me rateID cost currency) ∧ me ∈ s.db.entries ∧
        me.tenantID = w.tenantID ∧ Origin tokenEnv s me := by
  obtain ⟨s,hs,e,he,ht⟩ := Reachable.exists_of_run (step tokenEnv) initial
    (opening { freeTier with tiers := [], pricePerUnit := 1 })
    (submitTokens [tokenEvent "e-1" 1] ++ takeTokens 0 ++ commitTokens 0 ++ rateTokens 1 ++
      (Wallet.fundWallet 100 ++ Wallet.payOnce 0).map .wallet)
    (fun s => ∃ e ∈ s.books.ledger, e.entryType = .deduction) (opening_initial _) (by decide +kernel)
  exact ⟨s,hs,e,he,ht,deduction_traced hs he ht⟩

end CostConsumer.Pipeline
