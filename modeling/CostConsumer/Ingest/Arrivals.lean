import CostConsumer.Ingest.ExactlyOnce
import CostConsumer.Rating.Arrivals
set_option autoImplicit false

/-!
Ingestion among other writers of the database. What a step does to the rows of
metering entries, and that events are taken once whatever the others write to the
tables that are not ingestion's own.
-/

namespace CostConsumer.Ingest
open Inventory Foundation Metering

variable {δ : Type}

def Write.rows : Write δ → List MeteringRow
  | .metering id entries => meteringRows id entries
  | _ => []

def Tx.rows (tx : Tx δ) : List MeteringRow := tx.writes.flatMap Write.rows

theorem Write.foldl_apply (ws : List (Write δ)) (db : Database δ) :
    (ws.foldl apply db).meteringEntries = (ws.flatMap rows).foldl Table.insert db.meteringEntries ∧
      (ws.foldl apply db).rates = db.rates ∧ (ws.foldl apply db).costEntries = db.costEntries := by
  induction ws generalizing db with
  | nil => exact ⟨rfl,rfl,rfl⟩
  | cons w ws ih =>
    obtain ⟨hm,hr,hc⟩ := ih (w.apply db)
    rw [List.foldl_cons,hm,hr,hc,List.flatMap_cons,List.foldl_append]
    cases w with
    | receipt r => exact ⟨rfl,rfl,rfl⟩
    | rawEvent e => exact ⟨rfl,rfl,rfl⟩
    | upsert k r now => cases k <;> exact ⟨rfl,rfl,rfl⟩
    | upsertModel r now => exact ⟨rfl,rfl,rfl⟩
    | lastMetered k id t => cases k <;> exact ⟨rfl,rfl,rfl⟩
    | metering id entries => simp [apply,rows,Store.addMetering_eq]

namespace State

variable (s : State δ)

def openRows : List MeteringRow := s.sessions.active.flatMap (·.2.rows)

/-- The state with the same open requests, as if none had committed before. -/
def rebased : State δ := { s with sessions := { s.sessions with commits := [] } }

end State

/-- What a step does to the rows of metering entries: nothing or an insert, a rollback
that may have taken ids, or a commit. -/
inductive Arrival (s t : State δ) : Prop
  | insert (es : List MeteringEntry) (hdb : t.db = s.db) (hc : t.sessions.commits = s.sessions.commits)
      (hid : t.nextID = s.nextID + es.length)
      (ho : t.openRows.Perm (s.openRows ++ meteringRows s.nextID es)) : Arrival s t
  | fail (n : Nat) (tx : Tx δ) (hdb : t.db = s.db) (hc : t.sessions.commits = s.sessions.commits)
      (hid : t.nextID = s.nextID + n) (ho : s.openRows.Perm (tx.rows ++ t.openRows)) : Arrival s t
  | commit (n : Nat) (tx : Tx δ) (hdb : t.db = tx.write s.db)
      (hf : s.sessions.find? n = some tx) (hidle : tx.current = none) (htodo : tx.todo = [])
      (hc : t.sessions.commits = s.sessions.commits ++ [(n,tx)]) (hid : t.nextID = s.nextID)
      (ho : s.openRows.Perm (tx.rows ++ t.openRows)) : Arrival s t

namespace Arrival

variable {s t : State δ} {n : Nat} {tx : Tx δ}

theorem quiet (hdb : t.db = s.db) (hc : t.sessions.commits = s.sessions.commits)
    (hid : t.nextID = s.nextID) (ho : t.openRows = s.openRows) : Arrival s t :=
  .insert [] hdb hc hid (by rw [ho,meteringRows,List.append_nil])

theorem openRows_set (hnd : (s.sessions.active.map (·.1)).Nodup) (hf : s.sessions.find? n = some tx)
    {u : Tx δ} {new : List MeteringRow} (hu : u.rows = tx.rows ++ new) :
    (s.withTx n u).openRows.Perm (s.openRows ++ new) := by
  obtain ⟨pre,post,hs,hset,-⟩ := Sessions.split_of_find? hnd hf
  simp only [State.openRows,State.withTx,hset u,hs,List.flatMap_append,List.flatMap_cons,hu,
    List.append_assoc]
  refine .append_left _ (.append_left _ ?_)
  exact List.perm_append_comm

theorem openRows_drop (hnd : (s.sessions.active.map (·.1)).Nodup) (hf : s.sessions.find? n = some tx) :
    s.openRows.Perm (tx.rows ++ (s.sessions.drop n).active.flatMap (·.2.rows)) := by
  obtain ⟨pre,post,hs,-,hdrop⟩ := Sessions.split_of_find? hnd hf
  simp only [State.openRows,hs,hdrop,List.flatMap_append,List.flatMap_cons]
  rw [← List.append_assoc,← List.append_assoc]
  exact .append_right _ List.perm_append_comm

theorem set (hnd : (s.sessions.active.map (·.1)).Nodup) (hf : s.sessions.find? n = some tx) {u : Tx δ}
    (hu : u.rows = tx.rows) : Arrival s (s.withTx n u) :=
  .insert [] rfl rfl rfl (openRows_set hnd hf (by rw [hu,meteringRows,List.append_nil]))

theorem rollback (hnd : (s.sessions.active.map (·.1)).Nodup) (hf : s.sessions.find? n = some tx)
    (e : IngestError) (k : Nat) (cache : ProjectCache) :
    Arrival s { s.fail n tx e with nextID := s.nextID + k, projectCache := cache } :=
  .fail k tx rfl rfl rfl (openRows_drop hnd hf)

theorem call (hnd : (s.sessions.active.map (·.1)).Nodup) (hf : s.sessions.find? n = some tx)
    {cur : Current δ} {c : Call} {calls : List Call} {fault : Option Fault}
    (hc : tx.current = some cur) (h : s.call n tx cur c calls fault = some t) : Arrival s t := by
  unfold State.call at h
  dsimp only at h
  split at h
  · cases h
    exact rollback hnd hf .store _ _
  · split at h
    · cases h
      exact rollback hnd hf .store _ _
    · rename_i w hw
      split at h
      · cases h
      · cases h
        refine .insert _ rfl rfl rfl ?_
        refine openRows_set (s := s) hnd hf ?_
        rw [Tx.rows,Tx.writes_proceed tx calls w hc,List.flatMap_append,← Tx.rows]
        congr 1
        -- the rows of the write are those of the entries that ids were taken for
        rcases Call.write_ok hw with rfl | ⟨rfl,k,resourceID,t,rfl,-⟩
        · cases c <;> simp [Call.written,Write.rows,Call.entries,meteringRows]
        · simp [Call.entries,meteringRows]

theorem claim [DecidableEq δ] {env : Env δ} (hnd : (s.sessions.active.map (·.1)).Nodup)
    (hf : s.sessions.find? n = some tx) (hc : tx.current = none) {ce : CloudEvent}
    {todo : List CloudEvent} (h : s.claim env n tx ce todo = some t) : Arrival s t := by
  unfold State.claim at h
  split at h
  · split at h
    · cases h
      exact set hnd hf rfl
    · cases h
      exact rollback hnd hf .collision 0 s.projectCache
  · split at h
    · cases h
    · cases h
      refine set hnd hf ?_
      rw [Tx.rows,Tx.writes_claim env tx hc,List.flatMap_append,← Tx.rows]
      simp [Write.rows]

end Arrival

theorem step_arrival [DecidableEq δ] {env : Env δ} {s t : State δ} {l : Label}
    (hnd : (s.sessions.active.map (·.1)).Nodup) (h : step env s l = some t) : Arrival s t := by
  cases l with
  | submit request now failed =>
    simp only [step,Option.some.injEq] at h
    subst h
    unfold State.submit
    split
    · exact .quiet rfl rfl rfl rfl
    · split
      · exact .quiet rfl rfl rfl rfl
      · refine .quiet rfl rfl rfl ?_
        simp [State.openRows,Sessions.start,Tx.rows,Tx.writes,Tx.blocks,Tx.new]
  | claim n failed =>
    obtain ⟨tx,hf,h⟩ := Option.bind_eq_some_iff.mp h
    split at h
    · rename_i ce todo hc ht
      split at h
      · cases h
        exact .rollback hnd hf .store 0 s.projectCache
      · exact .claim hnd hf hc h
    · cases h
  | call n fault =>
    obtain ⟨tx,hf,h⟩ := Option.bind_eq_some_iff.mp h
    split at h
    · rename_i cur hc
      split at h
      · exact .call hnd hf hc h
      · cases h
    · cases h
  | finish n =>
    obtain ⟨tx,hf,h⟩ := Option.bind_eq_some_iff.mp h
    split at h
    · rename_i cur hc
      split at h
      · cases h
        exact .set hnd hf (congrArg (List.flatMap Write.rows) (Tx.writes_finish tx hc))
      · cases h
        exact .rollback hnd hf _ 0 s.projectCache
      · cases h
    · cases h
  | commit n outcome =>
    obtain ⟨tx,hf,h⟩ := Option.bind_eq_some_iff.mp h
    split at h
    · rename_i hc ht _
      cases h
      exact .commit n tx rfl hf hc ht rfl rfl (Arrival.openRows_drop hnd hf)
    · cases h
      exact .rollback hnd hf .commit 0 s.projectCache
    · rename_i hc ht _
      cases h
      exact .commit n tx rfl hf hc ht rfl rfl (Arrival.openRows_drop hnd hf)
    · cases h
  | abort n =>
    obtain ⟨tx,hf,h⟩ := Option.bind_eq_some_iff.mp h
    cases h
    exact .rollback hnd hf .store 0 s.projectCache

theorem Moves.rebased {env : Env δ} {s t : State δ} (h : Moves env s t) :
    ∃ u, Moves env s.rebased u ∧ u.sessions.active = t.sessions.active ∧
      u.sessions.next = t.sessions.next ∧ u.db = t.db := by
  cases h with
  | refuse request he => exact ⟨_,.refuse request he,rfl,rfl,rfl⟩
  | start hv => exact ⟨_,.start hv,rfl,rfl,rfl⟩
  | skip hf hc ht hr hd => exact ⟨_,.skip hf hc ht hr hd,rfl,rfl,rfl⟩
  | claim hf hc ht hr hl => exact ⟨_,.claim hf hc ht hr hl,rfl,rfl,rfl⟩
  | proceed nextID cache hf hc hcs hw hl =>
    exact ⟨_,.proceed nextID cache hf hc hcs hw hl,rfl,rfl,rfl⟩
  | finish hf hc hcs hfails => exact ⟨_,.finish hf hc hcs hfails,rfl,rfl,rfl⟩
  | fail nextID cache hf he => exact ⟨_,.fail nextID cache hf he,rfl,rfl,rfl⟩
  | commit hf hc ht he => exact ⟨_,.commit hf hc ht he,rfl,rfl,rfl⟩

section Sound
variable [DecidableEq δ] {env : Env δ} {s t : State δ}

theorem Good.of_seen {db db' : Database δ} {tx : Tx δ} (h : Good env db tx) (hs : seen db' = seen db) :
    Good env db' tx := ⟨h.split,hs ▸ h.accepted,h.finished,h.current⟩

/-- The open requests are in order and the committed ones have taken every event
once, whoever wrote what else. -/
structure Sound (env : Env δ) (s : State δ) : Prop where
  safe : Safe env s.db s.rebased
  ingested : Ingested env (s.sessions.commits.map (·.2)) s.db

theorem Safe.rebase {base : Database δ} {u : State δ} (h : Safe env base u)
    (ha : u.sessions.active = t.sessions.active) (hn : u.sessions.next = t.sessions.next)
    (hs : seen t.db = seen u.db) : Safe env t.db t.rebased := by
  have hsub : (t.sessions.active.map (·.1)).Sublist
      (u.sessions.commits.map (·.1) ++ u.sessions.active.map (·.1)) := by
    rw [ha]
    exact List.sublist_append_right _ _
  refine ⟨.nil,h.nodup.sublist hsub,fun n hm => ?_,fun p hp => ?_,?_⟩
  · rw [State.rebased,← hn]
    exact h.below n (hsub.subset hm)
  · exact (h.good p (ha ▸ hp)).of_seen hs
  · have hi := h.isolated
    rw [ha] at hi
    exact hi

theorem Sound.numbers (h : Sound env s) : (s.sessions.active.map (·.1)).Nodup := h.safe.nodup

theorem Sound.final {n : Nat} {tx : Tx δ} (h : Sound env s) (hf : s.sessions.find? n = some tx)
    (hc : tx.current = none) (ht : tx.todo = []) : Final env s.db tx :=
  ⟨h.safe.of_find? (n := n) hf,hc,ht⟩

theorem Sound.step {l : Label} (h : Sound env s) (hst : Ingest.step env s l = some t) : Sound env t := by
  obtain ⟨u,hm,ha,hn,hdb⟩ := (step_moves hst).rebased
  refine ⟨(h.safe.moves hm).rebase ha hn (congrArg seen hdb.symm),?_⟩
  cases step_arrival h.numbers hst with
  | insert es hdb hc hid ho =>
    rw [hdb,hc]
    exact h.ingested
  | fail n tx hdb hc hid ho =>
    rw [hdb,hc]
    exact h.ingested
  | commit n tx hdb hf hidle htodo hc hid ho =>
    rw [hdb,hc,List.map_append]
    exact h.ingested.commit (h.final hf hidle htodo)

theorem Sound.others (h : Sound env s) (ha : t.sessions.active = s.sessions.active)
    (hn : t.sessions.next = s.sessions.next) (hc : t.sessions.commits = s.sessions.commits)
    (hr : t.db.receipts = s.db.receipts) (he : t.db.rawEvents = s.db.rawEvents) : Sound env t := by
  have hs : seen t.db = seen s.db := by
    funext k
    rw [seen,seen,hr]
  refine ⟨h.safe.rebase ha.symm hn.symm hs,?_⟩
  rw [hc]
  exact ⟨h.ingested.accepted,hs ▸ h.ingested.known,he ▸ h.ingested.rawEvents,h.ingested.complete⟩

theorem Sound.initial (hs : s.sessions.active = []) (hc : s.sessions.commits = [])
    (hr : s.db.receipts.rows = []) (he : s.db.rawEvents = []) : Sound env s := by
  refine ⟨⟨.nil,?_,?_,?_,?_⟩,by rw [hc]; exact .nil hr he⟩ <;> simp [State.rebased,hs]

end Sound

end CostConsumer.Ingest
