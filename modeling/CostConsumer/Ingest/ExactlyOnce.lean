import CostConsumer.Ingest.Transactions
import Mathlib.Data.List.Pairwise
set_option autoImplicit false

/-!
Ingestion takes every event once: whatever the interleaving of requests, their
duplicates, collisions and failures, the database is that of the committed
requests one after the other, each run by the once-only receiver.
-/

namespace CostConsumer.Ingest
open Inventory Foundation Metering

variable {δ : Type}

section Locks
variable (env : Env δ) (tx : Tx δ)

theorem Tx.writes_claim {ce : CloudEvent} {todo : List CloudEvent} (hc : tx.current = none) :
    (tx.claim env ce todo).writes = tx.writes ++ [.receipt (env.receipt tx.now ce)] := by
  simp [Tx.writes,Tx.blocks,Tx.claim,Tx.skip,hc]

theorem Tx.writes_proceed {cur : Current δ} (calls : List Call) (w : Option (Write δ))
    (hc : tx.current = some cur) : (tx.proceed cur calls w).writes = tx.writes ++ w.toList := by
  simp [Tx.writes,Tx.blocks,Tx.proceed,hc]

theorem Tx.writes_finish {cur : Current δ} (hc : tx.current = some cur) :
    (tx.finish cur).writes = tx.writes := by
  simp [Tx.writes,Tx.blocks,Tx.finish,hc]

theorem State.not_locked {s : State δ} {n : Nat} {l : Lock} (h : s.locked n l = false) :
    ∀ p ∈ s.sessions.active, p.1 ≠ n → l ∉ p.2.locks := by
  intro p hp hne hl
  have := List.any_eq_false.mp h p hp
  simp [hne,hl] at this

end Locks

variable {s t : State δ}

structure Answered (s : State δ) : Prop where
  closed : ∀ r ∈ s.responses, ∀ n ∈ r.tx, n < s.sessions.next ∧ n ∉ s.sessions.active.map (·.1)
  committed : ∀ r ∈ s.responses, r.error = none ∨ r.error = some .unknown →
    ∃ c ∈ s.sessions.commits, r.tx = some c.1 ∧ c.2.request = r.request
  rolledBack : ∀ r ∈ s.responses, ∀ e ∈ r.error, e ≠ .unknown →
    ∀ c ∈ s.sessions.commits, r.tx ≠ some c.1

theorem Answered.of_set {n : Nat} {tx : Tx δ} (h : Answered s) (ht : t.responses = s.responses)
    (hs : t.sessions = s.sessions.set n tx) : Answered t := by
  refine ⟨?_,?_,?_⟩
  · rw [ht,hs,Sessions.numbers_set]
    exact h.closed
  · rw [ht,hs]
    exact h.committed
  · rw [ht,hs]
    exact h.rolledBack

theorem Answered.start {tx : Tx δ} (h : Answered s) :
    Answered { s with sessions := s.sessions.start tx } := by
  refine ⟨fun r hr n hn => ?_,h.committed,h.rolledBack⟩
  obtain ⟨hlt,hna⟩ := h.closed r hr n hn
  refine ⟨Nat.lt_succ_of_lt hlt,fun hmem => ?_⟩
  simp only [Sessions.start,List.map_append,List.map_cons,List.map_nil,List.mem_append,
    List.mem_singleton] at hmem
  rcases hmem with hmem | hmem
  · exact hna hmem
  · exact Nat.ne_of_lt hlt hmem

theorem Answered.refuse (h : Answered s) (request : Request) {e : IngestError} (he : e ≠ .unknown) :
    Answered (s.respond none request (some e)) := by
  refine ⟨fun r hr => ?_,fun r hr => ?_,fun r hr => ?_⟩ <;>
    rcases List.mem_append.mp hr with hr | hr
  · exact h.closed r hr
  · simp [List.mem_singleton.mp hr]
  · exact h.committed r hr
  · simp [List.mem_singleton.mp hr,he]
  · exact h.rolledBack r hr
  · simp [List.mem_singleton.mp hr]

variable [DecidableEq δ] {env : Env δ} {base : Database δ}

/-- The rules of the sessions library, for ingestion. -/
def Safe (env : Env δ) (base : Database δ) (s : State δ) : Prop :=
  s.sessions.Sound Tx.write Tx.locks (Good env) (Final env) base

theorem Safe.moves (h : Safe env base s) (hm : Moves env s t) : Safe env base t := by
  cases hm with
  | refuse request he => exact h
  | start hv => exact Sessions.Sound.start h (.new env _ _ _) rfl
  | skip hf hc ht hr hd =>
    exact Sessions.Sound.set h hf ((h.of_find? hf).skip ht hr hd) fun l hl => .inl hl
  | @claim n tx ce todo hf hc ht hr hl =>
    refine Sessions.Sound.set h hf ((h.of_find? hf).claim hc ht hr) fun l hlock => ?_
    rw [Tx.locks,Tx.writes_claim env tx hc,List.filterMap_append] at hlock
    rcases List.mem_append.mp hlock with hlock | hlock
    · exact .inl hlock
    · rw [List.mem_singleton.mp hlock]
      exact .inr (State.not_locked hl)
  | @proceed n tx cur c calls w id projectID nextID cache hf hc hcs hw hl =>
    refine Sessions.Sound.set h hf ((h.of_find? hf).proceed hc hcs hw) fun l hlock => ?_
    rw [Tx.locks,Tx.writes_proceed tx calls w hc,List.filterMap_append] at hlock
    rcases List.mem_append.mp hlock with hlock | hlock
    · exact .inl hlock
    · refine .inr (State.not_locked (hl l ?_))
      cases w with
      | none => cases hlock
      | some w => simpa using hlock
  | @finish n tx cur hf hc hcs hfails =>
    refine Sessions.Sound.set h hf ((h.of_find? hf).finish hc hcs hfails) fun l hlock => .inl ?_
    rwa [Tx.locks,Tx.writes_finish tx hc] at hlock
  | fail nextID cache hf he => exact Sessions.Sound.drop h _
  | commit hf hc ht he =>
    have hg := h.of_find? hf
    exact Sessions.Sound.commit h hf ⟨hg,hc,ht⟩ fun u hu hl => hu.stable hg hl

theorem reachable_safe (h : Reachable (step env) (initial base) anyStep s) : Safe env base s := by
  refine Reachable.invariant (P := Safe env base) ?_ ?_ h
  · rintro s ⟨-,-,hs,-⟩
    rw [Safe,hs]
    exact Sessions.Sound.initial base
  · exact fun s l t hs _ hst => hs.moves (step_moves hst)

structure Ingested (env : Env δ) (txs : List (Tx δ)) (db : Database δ) : Prop where
  accepted : Once.accept CloudEvent.key env.digest (fun _ => none)
    (txs.flatMap (·.request.events)) = some (txs.flatMap Tx.claimed)
  known : seen db =
    Once.noted CloudEvent.key env.digest (fun _ => none) (txs.flatMap Tx.claimed)
  rawEvents : db.rawEvents = txs.flatMap (fun tx => tx.claimed.map (env.rawEvent tx.now))
  complete : ∀ tx ∈ txs, ∀ b ∈ tx.blocks, b.Complete env tx.now

theorem Ingested.nil {db : Database δ} (hr : db.receipts.rows = []) (he : db.rawEvents = []) :
    Ingested env [] db := by
  refine ⟨rfl,?_,he,by simp⟩
  funext k
  simp [seen,Table.find?,hr,Once.noted]

theorem Ingested.commit {txs : List (Tx δ)} {db : Database δ} {tx : Tx δ} (h : Ingested env txs db)
    (hfin : Final env db tx) : Ingested env (txs ++ [tx]) (tx.write db) := by
  have hevents : tx.request.events = tx.done := by rw [hfin.split,hfin.through,List.append_nil]
  have hblocks : tx.blocks = tx.finished := by simp [Tx.blocks,hfin.idle]
  have hacc := hfin.accepted
  rw [h.known] at hacc
  refine ⟨?_,?_,?_,?_⟩
  · simpa [hevents] using Once.accept_append h.accepted hacc
  · have hnew := (Once.accept_fresh hacc).2
    rw [hfin.toGood.seen_write,h.known]
    funext k
    simpa using (Once.noted_append fun e he => (hnew e he).2).symm
  · rw [hfin.rawEvents,h.rawEvents]
    simp
  · intro u hu b hb
    rcases List.mem_append.mp hu with hu | hu
    · exact h.complete u hu b hb
    · rw [List.mem_singleton.mp hu] at hb ⊢
      exact hfin.finished b (hblocks ▸ hb)

theorem Ingested.of_serial {txs : List (Tx δ)} {db : Database δ} (hr : base.receipts.rows = [])
    (he : base.rawEvents = []) (h : Serial Tx.write (Final env) base txs db) : Ingested env txs db := by
  induction h with
  | nil => exact .nil hr he
  | snoc _ hfin ih => exact ih.commit hfin

theorem Answered.closed_drop {n : Nat} {tx : Tx δ} {r₀ : Response} (h : Answered s)
    (hs : Safe env base s) (hf : s.sessions.find? n = some tx) (hn : r₀.tx = some n) :
    ∀ r ∈ s.responses ++ [r₀], ∀ m ∈ r.tx,
      m < s.sessions.next ∧ m ∉ (s.sessions.drop n).active.map (·.1) := by
  intro r hr m hm
  rcases List.mem_append.mp hr with hr | hr
  · have hc := h.closed r hr m hm
    exact ⟨hc.1,fun hmem => hc.2 (Sessions.mem_of_mem_drop hmem)⟩
  · rw [List.mem_singleton.mp hr,hn] at hm
    cases hm
    exact ⟨hs.number_lt hf,Sessions.not_mem_drop _ n⟩

theorem Answered.fail {n : Nat} {tx : Tx δ} {e : IngestError} (h : Answered s)
    (hs : Safe env base s) (hf : s.sessions.find? n = some tx) (he : e ≠ .unknown) :
    Answered (s.fail n tx e) := by
  refine ⟨h.closed_drop hs hf rfl,fun r hr => ?_,fun r hr => ?_⟩ <;>
    rcases List.mem_append.mp hr with hr | hr
  · exact h.committed r hr
  · simp [List.mem_singleton.mp hr,he]
  · exact h.rolledBack r hr
  · rw [List.mem_singleton.mp hr]
    intro _ _ _ c hc hn
    exact hs.number_open hf (List.mem_map.mpr ⟨c,hc,(Option.some.inj hn).symm⟩)

theorem Answered.commit {n : Nat} {tx : Tx δ} {error : Option IngestError} (h : Answered s)
    (hs : Safe env base s) (hf : s.sessions.find? n = some tx)
    (he : error = none ∨ error = some .unknown) : Answered (s.commit n tx error) := by
  refine ⟨h.closed_drop hs hf rfl,fun r hr => ?_,fun r hr => ?_⟩ <;>
    rcases List.mem_append.mp hr with hr | hr
  · intro hok
    obtain ⟨c,hc,hcr⟩ := h.committed r hr hok
    exact ⟨c,List.mem_append_left _ hc,hcr⟩
  · rw [List.mem_singleton.mp hr]
    exact fun _ => ⟨(n,tx),List.mem_append_right _ (by simp),rfl,rfl⟩
  · intro e hre hu c hc hrc
    rcases List.mem_append.mp hc with hc | hc
    · exact h.rolledBack r hr e hre hu c hc hrc
    · -- the number was open until now, so no response can have named it
      rw [List.mem_singleton.mp hc] at hrc
      exact (h.closed r hr n hrc).2 (List.mem_map.mpr ⟨_,Sessions.mem_of_find? hf,rfl⟩)
  · rw [List.mem_singleton.mp hr]
    intro e hre hu
    rcases he with rfl | rfl
    · cases hre
    · exact absurd (Option.some.inj hre).symm hu

theorem Answered.moves (h : Answered s) (hs : Safe env base s) (hm : Moves env s t) :
    Answered t := by
  cases hm with
  | refuse request he => exact h.refuse request he
  | start hv => exact h.start
  | skip hf hc ht hr hd => exact h.of_set rfl rfl
  | claim hf hc ht hr hl => exact h.of_set rfl rfl
  | proceed nextID cache hf hc hcs hw hl => exact h.of_set rfl rfl
  | finish hf hc hcs hfails => exact h.of_set rfl rfl
  | fail nextID cache hf he =>
    obtain ⟨h₁,h₂,h₃⟩ := h.fail hs hf he
    exact ⟨h₁,h₂,h₃⟩
  | commit hf hc ht he => exact h.commit hs hf he

theorem reachable_answered (h : Reachable (step env) (initial base) anyStep s) : Answered s := by
  refine Reachable.invariant_with (P := Safe env base) (fun _ => reachable_safe) ?_ ?_ h
  · rintro s ⟨-,-,-,hr⟩
    exact ⟨by simp [hr],by simp [hr],by simp [hr]⟩
  · exact fun s l t hs _ ha _ hst => ha.moves hs (step_moves hst)

theorem eq_of_nodup_flatMap {α β : Type} {f : α → List β} {l : List α} (h : (l.flatMap f).Nodup)
    {a b : α} {x : β} (ha : a ∈ l) (hb : b ∈ l) (hxa : x ∈ f a) (hxb : x ∈ f b) : a = b := by
  have : Std.Symm (Function.onFun List.Disjoint f) := ⟨fun _ _ hd _ h₁ h₂ => hd h₂ h₁⟩
  by_contra hne
  exact (List.nodup_flatMap.mp h).2.forall ha hb hne hxa hxb

theorem Ingested.claimed {txs : List (Tx δ)} {db : Database δ} (h : Ingested env txs db) {tx : Tx δ}
    {ce : CloudEvent} (htx : tx ∈ txs) (hce : ce ∈ tx.request.events) :
    ce ∈ txs.flatMap Tx.claimed := by
  have hn := Once.accept_covers h.accepted (List.mem_flatMap.mpr ⟨tx,htx,hce⟩)
  obtain ⟨e,he,-,hd⟩ | hnone := Once.noted_eq_some hn
  · rwa [← env.digest_injective hd]
  · cases hnone

/-- The identity of an event has one receipt and one raw event, and one committed
transaction made the writes of its processing. -/
structure TakenOnce (env : Env δ) (s : State δ) (ce : CloudEvent) : Prop where
  receipt : ∃ r ∈ s.db.receipts.rows, r.key = ce.key ∧ r.payload = env.digest ce ∧
    ∀ r' ∈ s.db.receipts.rows, r'.key = ce.key → r' = r
  rawEvent : (s.db.rawEvents.map RawEvent.key).count ce.key = 1
  commit : ∃ c ∈ s.sessions.commits, ∃ b ∈ c.2.blocks, b.event = ce ∧ b.Complete env c.2.now ∧
    ∀ c' ∈ s.sessions.commits, ∀ b' ∈ c'.2.blocks, b'.event.key = ce.key → c' = c ∧ b'.event = ce

theorem Ingested.takenOnce (h : Ingested env (s.sessions.commits.map (·.2)) s.db)
    {ce : CloudEvent} (hce : ce ∈ (s.sessions.commits.map (·.2)).flatMap Tx.claimed) :
    TakenOnce env s ce := by
  have hnd := (Once.accept_fresh h.accepted).1
  refine ⟨?_,?_,?_⟩
  · have hseen : seen s.db ce.key = some (env.digest ce) := by
      rw [h.known]
      exact Once.noted_of_mem hnd hce
    obtain ⟨r,hr,hd⟩ := Option.map_eq_some_iff.mp hseen
    obtain ⟨hmem,hk⟩ := Table.find?_eq_some.mp hr
    exact ⟨r,hmem,hk,hd,fun r' hr' hk' => Table.key_injective hr' hmem (hk'.trans hk.symm)⟩
  · have hkeys : s.db.rawEvents.map RawEvent.key =
        ((s.sessions.commits.map (·.2)).flatMap Tx.claimed).map CloudEvent.key := by
      rw [h.rawEvents,List.map_flatMap,List.map_flatMap]
      refine List.flatMap_congr fun tx _ => ?_
      rw [List.map_map]
      rfl
    rw [hkeys]
    exact List.count_eq_one_of_mem hnd (List.mem_map_of_mem hce)
  · obtain ⟨tx,htx,hclaimed⟩ := List.mem_flatMap.mp hce
    obtain ⟨c,hc,rfl⟩ := List.mem_map.mp htx
    obtain ⟨b,hb,rfl⟩ := List.mem_map.mp hclaimed
    refine ⟨c,hc,b,hb,rfl,h.complete c.2 htx b hb,fun c' hc' b' hb' hk => ?_⟩
    have hmem : b'.event ∈ (s.sessions.commits.map (·.2)).flatMap Tx.claimed :=
      List.mem_flatMap.mpr ⟨c'.2,List.mem_map_of_mem hc',List.mem_map_of_mem hb'⟩
    have hevent := List.inj_on_of_nodup_map hnd hmem hce hk
    rw [List.flatMap_map] at hnd
    exact ⟨eq_of_nodup_flatMap hnd.of_map hc' hc (List.mem_map_of_mem hb')
      (hevent ▸ List.mem_map_of_mem hb),hevent⟩

/-- The steps that are left of a request whose events are all known. -/
def replaySteps (n : Nat) (todo : List CloudEvent) : List Label :=
  todo.map (fun _ => .claim n false) ++ [.commit n .committed]

theorem run_replay {n : Nat} {tx : Tx δ} {todo : List CloudEvent}
    (hf : s.sessions.find? n = some tx) (hb : tx.blocks = []) (ht : tx.todo = todo)
    (hk : ∀ ce ∈ todo, seen s.db ce.key = some (env.digest ce)) :
    ∃ t, runLabels (step env) s (replaySteps n todo) = some t ∧ t.db = s.db ∧
      t.responses = s.responses ++ [⟨some n,tx.request,none⟩] := by
  have hc : tx.current = none := by simpa [Tx.blocks] using (List.append_eq_nil_iff.mp hb).2
  have hwrite (db : Database δ) : tx.write db = db := by simp [Tx.write,Tx.writes,hb]
  induction todo generalizing s tx with
  | nil =>
    refine ⟨s.commit n tx none,?_,hwrite s.db,rfl⟩
    simp [replaySteps,runLabels,step,hf,hc,ht]
  | cons ce todo ih =>
    obtain ⟨r,hr,hd⟩ := Option.map_eq_some_iff.mp (hk ce List.mem_cons_self)
    have hstep : step env s (.claim n false) = some (s.withTx n (tx.skip ce todo)) := by
      simp [step,hf,hc,ht,State.claim,hwrite,hr,hd]
    obtain ⟨t,hrun,hdb,hresp⟩ := @ih (s.withTx n (tx.skip ce todo)) (tx.skip ce todo)
      (Sessions.find?_set hf) hb rfl (fun e he => hk e (List.mem_cons_of_mem _ he)) hc hwrite
    exact ⟨t,by simpa [replaySteps,runLabels,hstep] using hrun,hdb,hresp⟩

def State.Accepted (s : State δ) (ce : CloudEvent) : Prop :=
  ∃ c ∈ s.sessions.commits, ce ∈ c.2.request.events

section Reached
variable (h : Reachable (step env) (initial base) anyStep s)
include h

theorem reachable_ingested : Ingested env (s.sessions.commits.map (·.2)) s.db := by
  have hbase : base.receipts.rows = [] ∧ base.rawEvents = [] := by
    induction h with
    | start hi => exact ⟨hi.1,hi.2.1⟩
    | next _ _ _ _ ih => exact ih
  exact .of_serial hbase.1 hbase.2 (reachable_safe h).serial

theorem accepted_takenOnce {ce : CloudEvent} (hce : s.Accepted ce) : TakenOnce env s ce := by
  obtain ⟨c,hc,hce⟩ := hce
  have hi := reachable_ingested h
  exact hi.takenOnce (hi.claimed (List.mem_map_of_mem hc) hce)

theorem accepted_seen {ce : CloudEvent} (hce : s.Accepted ce) :
    seen s.db ce.key = some (env.digest ce) := by
  obtain ⟨r,hr,hk,hd,-⟩ := (accepted_takenOnce h hce).receipt
  rw [seen,Table.find?_eq_some.mpr ⟨hr,hk⟩,Option.map_some,hd]

theorem accepted_unique {ce ce' : CloudEvent} (hce : s.Accepted ce) (hce' : s.Accepted ce')
    (hk : ce'.key = ce.key) : ce' = ce := by
  have h₁ := accepted_seen h hce'
  rw [hk,accepted_seen h hce] at h₁
  exact (env.digest_injective (Option.some.inj h₁)).symm

theorem replay_under_way {n : Nat} {tx : Tx δ} (hf : s.sessions.find? n = some tx)
    (hall : ∀ ce ∈ tx.request.events, s.Accepted ce) :
    ∃ t, runLabels (step env) s (replaySteps n tx.todo) = some t ∧ t.db = s.db ∧
      t.responses = s.responses ++ [⟨some n,tx.request,none⟩] := by
  have hg : Good env s.db tx := (reachable_safe h).of_find? hf
  have hseen : ∀ ce ∈ tx.done ++ tx.todo, seen s.db ce.key = some (env.digest ce) :=
    fun ce hce => accepted_seen h (hall ce (hg.split ▸ hce))
  -- nothing was claimed so far, as all of it was known
  have hnone := hg.accepted
  rw [Once.accept_replays fun ce hce => hseen ce (List.mem_append_left _ hce)] at hnone
  have hb : tx.blocks = [] := List.map_eq_nil_iff.mp (Option.some.inj hnone).symm
  exact run_replay hf hb rfl fun ce hce => hseen ce (List.mem_append_right _ hce)

end Reached

/-- Whatever requests ran and however they interleaved and failed: the requests
answered with success committed; every accepted event was taken once; a request
with another content for an identity is rejected; and the database holds the
writes of committed requests only, which no request with an error is, except for
the error of a lost answer. A request of accepted events, under way or submitted
now, runs to success and leaves the database as it is, if it passes validation
and its store calls do not fail. -/
theorem ingestion_exactly_once (h : Reachable (step env) (initial base) anyStep s) :
    (∀ r ∈ s.responses, r.error = none →
      ∃ c ∈ s.sessions.commits, r.tx = some c.1 ∧ c.2.request = r.request) ∧
    (∀ ce, s.Accepted ce → TakenOnce env s ce) ∧
    (∀ r ∈ s.responses, ∀ ce ∈ r.request.events, ∀ ce', s.Accepted ce' ∨ ce' ∈ r.request.events →
      ce'.key = ce.key → ce' ≠ ce → ∃ e, r.error = some e ∧ e ≠ .unknown) ∧
    s.db = (s.sessions.commits.map (·.2)).foldl Tx.write base ∧
    (∀ r ∈ s.responses, ∀ e ∈ r.error, e ≠ .unknown →
      ∀ c ∈ s.sessions.commits, r.tx ≠ some c.1) ∧
    (∀ n tx, s.sessions.find? n = some tx → (∀ ce ∈ tx.request.events, s.Accepted ce) →
      ∃ t, runLabels (step env) s (replaySteps n tx.todo) = some t ∧ t.db = s.db ∧
        t.responses = s.responses ++ [⟨some n,tx.request,none⟩]) ∧
    ∀ request now, request.validate env now = .ok () → (∀ ce ∈ request.events, s.Accepted ce) →
      ∃ t, runLabels (step env) s (.submit request now false ::
          replaySteps s.sessions.next request.events) = some t ∧ t.db = s.db ∧
        t.responses = s.responses ++ [⟨some s.sessions.next,request,none⟩] := by
  have ha := reachable_answered h
  refine ⟨fun r hr he => ha.committed r hr (.inl he),fun ce => accepted_takenOnce h,?_,
    (reachable_safe h).serial.eq_foldl,ha.rolledBack,fun n tx => replay_under_way h,?_⟩
  · intro r hr ce hce ce' hce' hk hne
    by_contra hno
    have hok : r.error = none ∨ r.error = some .unknown := by
      cases he : r.error with
      | none => exact .inl rfl
      | some e => exact .inr (by simpa [he] using hno)
    obtain ⟨c,hc,-,hreq⟩ := ha.committed r hr hok
    have hmine : ∀ e ∈ r.request.events, s.Accepted e := fun e he => ⟨c,hc,hreq ▸ he⟩
    exact hne (accepted_unique h (hmine ce hce) (hce'.elim id (hmine ce')) hk)
  · intro request now hv hall
    have hstep : step env s (.submit request now false) =
        some { s with sessions := s.sessions.start (.new request now) } := by
      simp [step,State.submit,hv]
    obtain ⟨t,hrun,hdb,hresp⟩ := replay_under_way (.next _ h trivial hstep)
      ((reachable_safe h).find?_next (.new request now)) hall
    refine ⟨t,?_,hdb,hresp⟩
    rw [runLabels,hstep]
    exact hrun

def heartbeatEnv : Env CloudEvent where
  decoder :=
    { peek := fun data => if data = "vm" then some ⟨"acme","","vm-1","","",""⟩ else none
      meteringData := fun _ => none
      computeInstance := fun data =>
        if data = "vm" then some ⟨60,120,240,"acme","vm-1","RUNNING",2,4⟩ else none
      cluster := fun _ => none
      model := fun _ => none
      vmInstanceType := fun _ => none
      clusterTemplate := fun _ => ""
      maasDimensions := fun _ => ⟨"","",0,0,0⟩ }
  customMetrics := []
  object := fun _ => none
  format := fun _ => ""
  parseFloat := fun _ => none
  digest := id
  digest_injective := Function.injective_id

def heartbeatTime : Int := 1000000000000000

def heartbeat (subject : String) : CloudEvent :=
  ⟨"1.0",eventTypeComputeInstance,"collector","e-1",heartbeatTime,subject,"","vm","","","","",""⟩

def emptyState : State CloudEvent := ⟨⟨{},0,[],[]⟩,1,fun _ => none,[]⟩

/-- The steps of a request with one new heartbeat, up to its commit. -/
def heartbeatSteps (n : Nat) : List Label :=
  [.claim n false,.call n none,.call n none,.call n none,.call n none,.finish n]

/-- A request with a duplicate, a replay that is submitted before it commits, and a
collision. -/
theorem heartbeat_taken_once :
    ∃ s, Reachable (step heartbeatEnv) (initial {}) anyStep s ∧
      s.responses = [⟨some 0,.batch [heartbeat "",heartbeat ""],none⟩,
        ⟨some 1,.batch [heartbeat ""],none⟩,⟨some 2,.single (heartbeat "x"),some .collision⟩] ∧
      TakenOnce heartbeatEnv s (heartbeat "") := by
  obtain ⟨s,hs,hresp⟩ := Reachable.exists_of_run (step heartbeatEnv) (initial {}) emptyState
    ([.submit (.batch [heartbeat "",heartbeat ""]) heartbeatTime false,
      .submit (.batch [heartbeat ""]) heartbeatTime false] ++ heartbeatSteps 0 ++
      [.claim 0 false,.commit 0 .committed,.claim 1 false,.commit 1 .committed,
      .submit (.single (heartbeat "x")) heartbeatTime false,.claim 2 false])
    (fun s => s.responses = [⟨some 0,.batch [heartbeat "",heartbeat ""],none⟩,
      ⟨some 1,.batch [heartbeat ""],none⟩,⟨some 2,.single (heartbeat "x"),some .collision⟩])
    ⟨rfl,rfl,rfl,rfl⟩ (by decide +kernel)
  obtain ⟨hok,htaken,-⟩ := ingestion_exactly_once hs
  obtain ⟨c,hc,-,hreq⟩ := hok ⟨some 1,.batch [heartbeat ""],none⟩ (by simp [hresp]) rfl
  exact ⟨s,hs,hresp,htaken _ ⟨c,hc,by simp [hreq,Request.events]⟩⟩

theorem late_replay_rejected :
    (runLabels (step heartbeatEnv) emptyState
      (.submit (.batch [heartbeat ""]) heartbeatTime false :: heartbeatSteps 0 ++
        [.commit 0 .committed,.submit (.batch [heartbeat ""])
          (heartbeatTime+3*GoTime.nanosPerHour) false])).map (·.responses) =
      some [⟨some 0,.batch [heartbeat ""],none⟩,
        ⟨none,.batch [heartbeat ""],some (.validation (.tooOld (3*GoTime.nanosPerHour)))⟩] := by
  decide +kernel

end CostConsumer.Ingest
