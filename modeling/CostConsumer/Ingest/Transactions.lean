import CostConsumer.Foundation.Once
import CostConsumer.Ingest.Machine
set_option autoImplicit false

/-!
What holds of a transaction at every moment: it has claimed exactly the new
events of the part of its request it went through, and for each of them it made
the calls of its processing.
-/

namespace CostConsumer.Ingest
open Inventory Foundation Metering

variable {δ : Type}

namespace Write

def receipt? : Write δ → Option (Receipt δ)
  | receipt r => some r
  | _ => none

def rawEvent? : Write δ → Option RawEvent
  | rawEvent e => some e
  | _ => none

theorem receipts_foldl (ws : List (Write δ)) (db : Database δ) :
    (ws.foldl apply db).receipts = (ws.filterMap receipt?).foldl Table.insert db.receipts := by
  induction ws generalizing db with
  | nil => rfl
  | cons w ws ih =>
    rw [List.foldl_cons,ih]
    cases w <;> rfl

theorem rawEvents_foldl (ws : List (Write δ)) (db : Database δ) :
    (ws.foldl apply db).rawEvents = db.rawEvents ++ ws.filterMap rawEvent? := by
  induction ws generalizing db with
  | nil => simp
  | cons w ws ih =>
    rw [List.foldl_cons,ih]
    cases w <;> simp [apply,rawEvent?,List.filterMap_cons]

end Write

def Call.rawEvent? : Call → Option RawEvent
  | .insertRawEvent e => some e
  | _ => none

inductive Performed (now : Int) : List Call → List (Write δ) → Prop
  | nil : Performed now [] []
  | snoc {cs : List Call} {ws : List (Write δ)} {c : Call} {w : Option (Write δ)} {db : Database δ}
      {id : Nat} {projectID : String} : Performed now cs ws →
      c.write db now id projectID = .ok w → Performed now (cs ++ [c]) (ws ++ w.toList)

theorem Performed.cons {now : Int} {calls : List Call} {ws : List (Write δ)} {c : Call}
    {w : Option (Write δ)} {db : Database δ} {id : Nat} {projectID : String}
    (hw : c.write db now id projectID = .ok w) (h : Performed now calls ws) :
    Performed now (c :: calls) (w.toList ++ ws) := by
  induction h with
  | nil => simpa using Performed.snoc .nil hw
  | @snoc cs ws c' w' db' id' projectID' _ hw' ih =>
    rw [← List.cons_append,← List.append_assoc]
    exact .snoc ih hw'

def Call.written (now : Int) (id : Nat) (projectID : String) : Call → Write δ
  | .insertRawEvent e => .rawEvent e
  | .upsert k r => .upsert k r now
  | .upsertModel r => .upsertModel r now
  | .updateLastMetered k resourceID t => .lastMetered k resourceID t
  | .insertMetering entries => .metering id entries
  | .meterForTenant _ entries => .metering id (entries projectID)

theorem Call.write_ok {db : Database δ} {now : Int} {id : Nat} {projectID : String} {c : Call}
    {w : Option (Write δ)} (h : c.write db now id projectID = .ok w) :
    w = some (c.written now id projectID) ∨
      w = none ∧ ∃ k resourceID t, c = .updateLastMetered k resourceID t ∧
        (db.table k).find? resourceID = none := by
  have hmap {α β : Type} {x : Except StoreError α} {b b' : β} (hx : x.map (fun _ => b) = .ok b') :
      b' = b := by
    cases x with
    | error e => cases hx
    | ok a => exact (Except.ok.inj hx).symm
  cases c with
  | insertRawEvent e => exact .inl (Except.ok.inj h).symm
  | upsert k r => exact .inl (Except.ok.inj h).symm
  | upsertModel r => exact .inl (Except.ok.inj h).symm
  | updateLastMetered k resourceID t =>
    cases hf : (db.table k).find? resourceID with
    | none =>
      simp only [write,hf,Option.isSome_none,Bool.false_eq_true,if_false,Except.ok.injEq] at h
      exact .inr ⟨h.symm,k,resourceID,t,rfl,hf⟩
    | some r =>
      simp only [write,hf,Option.isSome_some,if_true,Except.ok.injEq] at h
      exact .inl h.symm
  | insertMetering entries => exact .inl (hmap h)
  | meterForTenant tenantID entries => exact .inl (hmap h)

theorem Call.write_kinds {db : Database δ} {now : Int} {id : Nat} {projectID : String} {c : Call}
    {w : Option (Write δ)} (h : c.write db now id projectID = .ok w) :
    w.bind Write.receipt? = none ∧ w.bind Write.rawEvent? = c.rawEvent? := by
  rcases write_ok h with rfl | ⟨rfl,-,-,-,rfl,-⟩
  · cases c <;> exact ⟨rfl,rfl⟩
  · exact ⟨rfl,rfl⟩

theorem Performed.kinds {now : Int} {cs : List Call} {ws : List (Write δ)} (h : Performed now cs ws) :
    ws.filterMap Write.receipt? = [] ∧ ws.filterMap Write.rawEvent? = cs.filterMap Call.rawEvent? := by
  induction h with
  | nil => exact ⟨rfl,rfl⟩
  | @snoc cs ws c w db id projectID _ hw ih =>
    obtain ⟨h₁,h₂⟩ := Call.write_kinds hw
    cases w with
    | none => simpa [← h₂] using ih
    | some w =>
      simp only [Option.bind_some] at h₁ h₂
      simp [h₁,← h₂,ih,List.filterMap_cons]

theorem meterMaaSEvent_rawEvents (usage : MaaSUsage) :
    (meterMaaSEvent usage).filterMap Call.rawEvent? = [] := by
  unfold meterMaaSEvent
  split <;> rfl

theorem handle_rawEvents {env : Env δ} {ce : CloudEvent} {calls : List Call}
    (h : env.handle ce = .ok calls) : calls.filterMap Call.rawEvent? = [] := by
  cases handle_handled h with
  | model ht hdata hid htenant => exact meterMaaSEvent_rawEvents _
  | osacInference hv1 hmd ht => exact meterMaaSEvent_rawEvents _
  | _ => rfl

theorem processEvent_of_ok {env : Env δ} {now : Int} {ce : CloudEvent}
    (h : (env.processEvent now ce).2 = none) : env.storable ce = true ∧ ∃ calls,
      env.handle ce = .ok calls ∧
      (env.processEvent now ce).1 = .insertRawEvent (env.rawEvent now ce) :: calls := by
  unfold Env.processEvent at h ⊢
  split at h
  · rename_i hs
    cases hh : env.handle ce with
    | error e => simp [hh] at h
    | ok calls => exact ⟨hs,calls,rfl,by rw [if_pos hs]⟩
  · cases h

def Block.Begun (env : Env δ) (now : Int) (made : List Call) (b : Block δ) : Prop :=
  ∃ ws, b.writes = .receipt (env.receipt now b.event) :: ws ∧ Performed now made ws

/-- All calls of the processing were made, and it ended without an error. -/
def Block.Complete (env : Env δ) (now : Int) (b : Block δ) : Prop :=
  (env.processEvent now b.event).2 = none ∧ b.Begun env now (env.processEvent now b.event).1

def Current.Under (env : Env δ) (now : Int) (cur : Current δ) : Prop :=
  cur.fails = (env.processEvent now cur.event).2 ∧ ∃ made,
    (env.processEvent now cur.event).1 = made ++ cur.calls ∧ cur.toBlock.Begun env now made

theorem Block.Begun.receipts {env : Env δ} {now : Int} {made : List Call} {b : Block δ}
    (h : b.Begun env now made) :
    b.writes.filterMap Write.receipt? = [env.receipt now b.event] := by
  obtain ⟨ws,hw,hp⟩ := h
  simp [hw,Write.receipt?,hp.kinds.1]

theorem Block.Complete.calls {env : Env δ} {now : Int} {b : Block δ} (h : b.Complete env now) :
    ∃ calls ws, env.handle b.event = .ok calls ∧
      b.writes = .receipt (env.receipt now b.event) :: ws ∧
      Performed now (.insertRawEvent (env.rawEvent now b.event) :: calls) ws := by
  obtain ⟨hnone,ws,hws,hp⟩ := h
  obtain ⟨-,calls,hh,hcalls⟩ := processEvent_of_ok hnone
  exact ⟨calls,ws,hh,hws,hcalls ▸ hp⟩

theorem Block.Complete.rawEvents {env : Env δ} {now : Int} {b : Block δ} (h : b.Complete env now) :
    b.writes.filterMap Write.rawEvent? = [env.rawEvent now b.event] := by
  obtain ⟨calls,ws,hh,hw,hp⟩ := h.calls
  rw [hw,List.filterMap_cons_none rfl,hp.kinds.2]
  simp [Call.rawEvent?,handle_rawEvents hh]

theorem filterMap_flatMap_of_single {α β γ : Type} {f : β → Option γ} {g : α → List β} {h : α → γ}
    {l : List α} (hl : ∀ a ∈ l, (g a).filterMap f = [h a]) : (l.flatMap g).filterMap f = l.map h := by
  induction l with
  | nil => rfl
  | cons a l ih =>
    rw [List.flatMap_cons,List.filterMap_append,hl a List.mem_cons_self,
      ih fun b hb => hl b (List.mem_cons_of_mem _ hb)]
    rfl

def Tx.claimed (tx : Tx δ) : List CloudEvent := tx.blocks.map (·.event)

theorem Tx.claimed_claim (env : Env δ) (tx : Tx δ) (ce : CloudEvent) (todo : List CloudEvent)
    (hc : tx.current = none) : (tx.claim env ce todo).claimed = tx.claimed ++ [ce] := by
  simp [Tx.claimed,Tx.blocks,Tx.claim,Tx.skip,hc]

/-- The digests under which event identities are known. -/
def seen (db : Database δ) (k : Key) : Option δ := (db.receipts.find? k).map (·.payload)

section Good
variable [DecidableEq δ]

structure Good (env : Env δ) (db : Database δ) (tx : Tx δ) : Prop where
  split : tx.request.events = tx.done ++ tx.todo
  accepted : Once.accept CloudEvent.key env.digest (seen db) tx.done = some tx.claimed
  finished : ∀ b ∈ tx.finished, b.Complete env tx.now
  current : ∀ cur ∈ tx.current, cur.Under env tx.now

structure Final (env : Env δ) (db : Database δ) (tx : Tx δ) : Prop extends Good env db tx where
  idle : tx.current = none
  through : tx.todo = []

variable {env : Env δ} {db : Database δ} {tx : Tx δ}

theorem Good.begun (h : Good env db tx) {b : Block δ} (hb : b ∈ tx.blocks) :
    ∃ made, b.Begun env tx.now made := by
  rcases List.mem_append.mp hb with hb | hb
  · exact ⟨_,(h.finished b hb).2⟩
  · simp only [Option.mem_toList,Option.map_eq_some_iff] at hb
    obtain ⟨cur,hc,rfl⟩ := hb
    obtain ⟨-,made,-,hm⟩ := h.current cur hc
    exact ⟨made,hm⟩

theorem Good.receipts (h : Good env db tx) :
    tx.writes.filterMap Write.receipt? = tx.claimed.map (env.receipt tx.now) := by
  rw [Tx.writes,Tx.claimed,List.map_map]
  refine filterMap_flatMap_of_single fun b hb => ?_
  obtain ⟨made,hm⟩ := h.begun hb
  exact hm.receipts

theorem Final.rawEvents (h : Final env db tx) :
    (tx.write db).rawEvents = db.rawEvents ++ tx.claimed.map (env.rawEvent tx.now) := by
  have hblocks : tx.blocks = tx.finished := by simp [Tx.blocks,h.idle]
  rw [Tx.write,Write.rawEvents_foldl,Tx.writes,Tx.claimed,List.map_map,hblocks]
  exact congrArg _ (filterMap_flatMap_of_single fun b hb => (h.finished b hb).rawEvents)

theorem Good.locked (h : Good env db tx) {ce : CloudEvent} (hce : ce ∈ tx.claimed) :
    Lock.receipt ce.key ∈ tx.locks := by
  obtain ⟨b,hb,rfl⟩ := List.mem_map.mp hce
  obtain ⟨made,ws,hw,-⟩ := h.begun hb
  refine List.mem_filterMap.mpr ⟨.receipt (env.receipt tx.now b.event),?_,rfl⟩
  exact List.mem_flatMap.mpr ⟨b,hb,by simp [hw]⟩

theorem Good.seen_write (h : Good env db tx) :
    seen (tx.write db) = Once.noted CloudEvent.key env.digest (seen db) tx.claimed := by
  obtain ⟨hnd,hnew⟩ := Once.accept_fresh h.accepted
  funext k
  have hkeys : ((tx.claimed.map (env.receipt tx.now)).map Receipt.key).Nodup := by
    rw [List.map_map]
    exact hnd
  have hfree : ∀ r ∈ tx.claimed.map (env.receipt tx.now), db.receipts.find? r.key = none := by
    intro r hr
    obtain ⟨ce,hce,rfl⟩ := List.mem_map.mp hr
    exact Option.map_eq_none_iff.mp (hnew ce hce).2
  have hfind := Table.find?_insert_all hkeys hfree k
  have hcomp : (fun r : Receipt δ => decide (r.key = k)) ∘ env.receipt tx.now =
      fun ce => decide (ce.key = k) := rfl
  rw [seen,Tx.write,Write.receipts_foldl,h.receipts,hfind,List.find?_map,hcomp,Once.noted]
  cases tx.claimed.find? (fun ce => ce.key = k) with
  | none => simp [seen]
  | some ce => simp [Env.receipt]

theorem Good.new (env : Env δ) (db : Database δ) (request : Request) (now : Int) :
    Good env db (.new request now) :=
  ⟨rfl,rfl,by simp [Tx.new],by simp [Tx.new]⟩

theorem Good.split_cons {ce : CloudEvent} {todo : List CloudEvent} (h : Good env db tx)
    (ht : tx.todo = ce :: todo) : tx.request.events = (tx.done ++ [ce]) ++ todo := by
  rw [h.split,ht,List.append_assoc,List.singleton_append]

theorem Good.skip {ce : CloudEvent} {todo : List CloudEvent} {r : Receipt δ} (h : Good env db tx)
    (ht : tx.todo = ce :: todo) (hr : (tx.write db).receipts.find? ce.key = some r)
    (hd : r.payload = env.digest ce) : Good env db (tx.skip ce todo) := by
  have hknown : Once.noted CloudEvent.key env.digest (seen db) tx.claimed ce.key =
      some (env.digest ce) := by
    rw [← h.seen_write,seen,hr,Option.map_some,hd]
  exact ⟨h.split_cons ht,Once.accept_snoc_again h.accepted hknown,h.finished,h.current⟩

theorem Good.claim {ce : CloudEvent} {todo : List CloudEvent} (h : Good env db tx)
    (hc : tx.current = none) (ht : tx.todo = ce :: todo)
    (hr : (tx.write db).receipts.find? ce.key = none) : Good env db (tx.claim env ce todo) := by
  refine ⟨h.split_cons ht,?_,h.finished,?_⟩
  · rw [Tx.claimed_claim env tx ce todo hc]
    refine Once.accept_snoc_new h.accepted ?_
    rw [← h.seen_write,seen,hr,Option.map_none]
  · rintro cur ⟨⟩
    exact ⟨rfl,[],rfl,[],rfl,.nil⟩

theorem Good.proceed {cur : Current δ} {c : Call} {calls : List Call} {w : Option (Write δ)}
    {view : Database δ} {id : Nat} {projectID : String} (h : Good env db tx)
    (hc : tx.current = some cur) (hcs : cur.calls = c :: calls)
    (hw : c.write view tx.now id projectID = .ok w) : Good env db (tx.proceed cur calls w) := by
  obtain ⟨hfails,made,hmade,ws,hws,hp⟩ := h.current cur hc
  refine ⟨h.split,?_,h.finished,?_⟩
  · have hclaimed : (tx.proceed cur calls w).claimed = tx.claimed := by
      simp [Tx.claimed,Tx.blocks,Tx.proceed,hc]
    rw [hclaimed]
    exact h.accepted
  · rintro _ ⟨⟩
    refine ⟨hfails,made ++ [c],?_,ws ++ w.toList,congrArg (· ++ w.toList) hws,.snoc hp hw⟩
    rw [hcs] at hmade
    exact hmade.trans (by simp)

theorem Good.finish {cur : Current δ} (h : Good env db tx) (hc : tx.current = some cur)
    (hcs : cur.calls = []) (hfails : cur.fails = none) : Good env db (tx.finish cur) := by
  obtain ⟨hf,made,hmade,hb⟩ := h.current cur hc
  refine ⟨h.split,?_,?_,by simp [Tx.finish]⟩
  · have hclaimed : (tx.finish cur).claimed = tx.claimed := by
      simp [Tx.claimed,Tx.blocks,Tx.finish,hc]
    rw [hclaimed]
    exact h.accepted
  · intro b hmem
    rcases List.mem_append.mp hmem with hmem | hmem
    · exact h.finished b hmem
    · rw [List.mem_singleton.mp hmem]
      rw [hcs,List.append_nil] at hmade
      exact ⟨hf.symm.trans hfails,hmade ▸ hb⟩

theorem Good.stable {other : Tx δ} (h : Good env db tx) (ho : Good env db other)
    (hl : ∀ l ∈ other.locks, l ∉ tx.locks) : Good env (other.write db) tx := by
  refine ⟨h.split,?_,h.finished,h.current⟩
  have hnew := (Once.accept_fresh ho.accepted).2
  rw [ho.seen_write]
  refine Once.accept_stable h.accepted (fun k d hk => ?_) fun ce hce => ?_
  · exact Once.noted_of_seen (fun e he => (hnew e he).2) hk
  · refine Once.noted_eq_none.mpr ⟨fun e he hek => ?_,((Once.accept_fresh h.accepted).2 ce hce).2⟩
    exact hl _ (ho.locked he) (hek ▸ h.locked hce)

end Good

end CostConsumer.Ingest
