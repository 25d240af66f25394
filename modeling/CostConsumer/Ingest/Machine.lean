import CostConsumer.Foundation.Sessions
import CostConsumer.Foundation.Transition
import CostConsumer.Ingest.Process
set_option autoImplicit false

/-!
The ingestion endpoints as a machine. Every request that passes validation runs
in a transaction of its own; its store calls are steps that may fail, that wait
for rows other transactions have written, and that interleave with the steps of
other requests.
-/

namespace CostConsumer.Ingest
open Inventory Foundation Metering

variable {δ : Type}

inductive Request where
  | single (ce : CloudEvent) : Request
  | batch (events : List CloudEvent) : Request
  deriving DecidableEq, Repr

def Request.events : Request → List CloudEvent
  | single ce => [ce]
  | batch events => events

def Request.validate (env : Env δ) (now : Int) : Request → Except ValidationError Unit
  | single ce => validateBatch env.decoder env.identify now [ce]
  | batch events =>
    if events.length = 0 ∨ events.length > maxBatchEvents then .error .batchSize
    else validateBatch env.decoder env.identify now events

/-- `unknown` is the error of a commit that took effect and whose answer was
lost. -/
inductive IngestError where
  | validation (e : ValidationError) : IngestError
  | collision : IngestError
  | process (e : ProcessError) : IngestError
  | store : IngestError
  | commit : IngestError
  | unknown : IngestError
  deriving DecidableEq, Repr

def IngestError.status : IngestError → Nat
  | validation _ => 400
  | collision => 409
  | _ => 500

/-- The writes for one claimed event, its receipt first. -/
structure Block (δ : Type) where
  event : CloudEvent
  writes : List (Write δ)

/-- A claimed event that is being processed: its writes so far, the calls still
to be made and the error the processing ends with. -/
structure Current (δ : Type) extends Block δ where
  calls : List Call
  fails : Option ProcessError

structure Tx (δ : Type) where
  request : Request
  now : Int
  done : List CloudEvent
  todo : List CloudEvent
  finished : List (Block δ)
  current : Option (Current δ)

namespace Tx

def new (request : Request) (now : Int) : Tx δ := ⟨request,now,[],request.events,[],none⟩

def blocks (tx : Tx δ) : List (Block δ) := tx.finished ++ (tx.current.map (·.toBlock)).toList

def writes (tx : Tx δ) : List (Write δ) := tx.blocks.flatMap (·.writes)

def locks (tx : Tx δ) : List Lock := tx.writes.filterMap Write.lock

/-- The database with the transaction's writes: what it sees, and what it leaves
when it commits. -/
def write (db : Database δ) (tx : Tx δ) : Database δ := tx.writes.foldl Write.apply db

def skip (tx : Tx δ) (ce : CloudEvent) (todo : List CloudEvent) : Tx δ :=
  { tx with done := tx.done ++ [ce], todo }

def claim (env : Env δ) (tx : Tx δ) (ce : CloudEvent) (todo : List CloudEvent) : Tx δ :=
  let (calls,fails) := env.processEvent tx.now ce
  { tx.skip ce todo with current := some ⟨⟨ce,[.receipt (env.receipt tx.now ce)]⟩,calls,fails⟩ }

def proceed (tx : Tx δ) (cur : Current δ) (calls : List Call) (w : Option (Write δ)) : Tx δ :=
  { tx with current := some { cur with writes := cur.writes ++ w.toList, calls } }

def finish (tx : Tx δ) (cur : Current δ) : Tx δ :=
  { tx with finished := tx.finished ++ [cur.toBlock], current := none }

end Tx

structure Response where
  tx : Option Nat
  request : Request
  error : Option IngestError
  deriving DecidableEq, Repr

structure State (δ : Type) where
  sessions : Sessions (Database δ) (Tx δ)
  nextID : Nat
  projectCache : ProjectCache
  responses : List Response

/-- How a call fails: while its project is looked up, or in its statement. -/
inductive Fault where
  | lookup : Fault
  | statement : Fault
  deriving DecidableEq

inductive CommitOutcome where
  | committed : CommitOutcome
  | refused : CommitOutcome
  | answerLost : CommitOutcome
  deriving DecidableEq

/-- `abort` stands for what ends a transaction from outside: a cancelled request,
a deadlock, a lost connection. -/
inductive Label where
  | submit (request : Request) (now : Int) (failed : Bool) : Label
  | claim (n : Nat) (failed : Bool) : Label
  | call (n : Nat) (fault : Option Fault) : Label
  | finish (n : Nat) : Label
  | commit (n : Nat) (outcome : CommitOutcome) : Label
  | abort (n : Nat) : Label
  deriving DecidableEq

namespace Call

/-- The project entries are attributed to; only usage is attributed to one. -/
def project (s : Store) (failed : Bool) (cache : ProjectCache) : Call → String × ProjectCache
  | meterForTenant tenantID _ => resolveProject s failed cache "" tenantID
  | _ => ("",cache)

def entries (projectID : String) : Call → List MeteringEntry
  | insertMetering entries => entries
  | meterForTenant _ entries => entries projectID
  | _ => []

/-- What a call changes, unless the database rejects it. A checkpoint is moved
only if its row can be seen. -/
def write (db : Database δ) (now : Int) (id : Nat) (projectID : String) :
    Call → Except StoreError (Option (Write δ))
  | insertRawEvent e => .ok (some (.rawEvent e))
  | upsert k r => .ok (some (.upsert k r now))
  | upsertModel r => .ok (some (.upsertModel r now))
  | updateLastMetered k resourceID t =>
    .ok (if ((db.table k).find? resourceID).isSome then some (.lastMetered k resourceID t) else none)
  | insertMetering entries =>
    (db.insertMeteringEntryBatch id entries).map fun _ => some (.metering id entries)
  | meterForTenant _ entries =>
    (db.insertMeteringEntryBatch id (entries projectID)).map fun _ =>
      some (.metering id (entries projectID))

end Call

namespace State

def db (s : State δ) : Database δ := s.sessions.db

def withTx (s : State δ) (n : Nat) (tx : Tx δ) : State δ :=
  { s with sessions := s.sessions.set n tx }

def respond (s : State δ) (tx : Option Nat) (request : Request) (error : Option IngestError) :
    State δ := { s with responses := s.responses ++ [⟨tx,request,error⟩] }

def fail (s : State δ) (n : Nat) (tx : Tx δ) (e : IngestError) : State δ :=
  { s with sessions := s.sessions.drop n }.respond (some n) tx.request (some e)

def commit (s : State δ) (n : Nat) (tx : Tx δ) (error : Option IngestError) : State δ :=
  { s with sessions := s.sessions.commit Tx.write n tx }.respond (some n) tx.request error

def locked (s : State δ) (n : Nat) (l : Lock) : Bool :=
  s.sessions.active.any (fun p => p.1 ≠ n && l ∈ p.2.locks)

def submit (env : Env δ) (s : State δ) (request : Request) (now : Int) (failed : Bool) : State δ :=
  match request.validate env now with
  | .error e => s.respond none request (some (.validation e))
  | .ok () =>
    if failed then s.respond none request (some .store)
    else { s with sessions := s.sessions.start (.new request now) }

/-- `ClaimIngestionReceipt`. An insert waits for a transaction that has inserted
the same key. -/
def claim [DecidableEq δ] (env : Env δ) (s : State δ) (n : Nat) (tx : Tx δ) (ce : CloudEvent)
    (todo : List CloudEvent) : Option (State δ) :=
  match (tx.write s.db).receipts.find? ce.key with
  | some r =>
    if r.payload = env.digest ce then some (s.withTx n (tx.skip ce todo))
    else some (s.fail n tx .collision)
  | none =>
    if s.locked n (.receipt ce.key) then none else some (s.withTx n (tx.claim env ce todo))

/-- One call of a handler. The project cache and the sequence keep their values
whatever becomes of the transaction. -/
def call (s : State δ) (n : Nat) (tx : Tx δ) (cur : Current δ) (c : Call) (calls : List Call)
    (fault : Option Fault) : Option (State δ) :=
  let view := tx.write s.db
  let (projectID,cache) := c.project view.toStore (fault = some .lookup) s.projectCache
  let t := { s with nextID := s.nextID + (c.entries projectID).length, projectCache := cache }
  if fault.isSome then some (t.fail n tx .store)
  else match c.write view tx.now s.nextID projectID with
    | .error _ => some (t.fail n tx .store)
    | .ok w =>
      if (w.bind Write.lock).any (s.locked n ·) then none
      else some (t.withTx n (tx.proceed cur calls w))

end State

def step [DecidableEq δ] (env : Env δ) (s : State δ) (l : Label) : Option (State δ) :=
  match l with
  | .submit request now failed => some (s.submit env request now failed)
  | .claim n failed => (s.sessions.find? n).bind fun tx =>
    match tx.current, tx.todo with
    | none, ce :: todo => if failed then some (s.fail n tx .store) else s.claim env n tx ce todo
    | _, _ => none
  | .call n fault => (s.sessions.find? n).bind fun tx =>
    match tx.current with
    | some cur => match cur.calls with
      | c :: calls => s.call n tx cur c calls fault
      | [] => none
    | none => none
  | .finish n => (s.sessions.find? n).bind fun tx =>
    match tx.current with
    | some cur => match cur.calls, cur.fails with
      | [], none => some (s.withTx n (tx.finish cur))
      | [], some e => some (s.fail n tx (.process e))
      | _, _ => none
    | none => none
  | .commit n outcome => (s.sessions.find? n).bind fun tx =>
    match tx.current, tx.todo, outcome with
    | none, [], .committed => some (s.commit n tx none)
    | none, [], .refused => some (s.fail n tx .commit)
    | none, [], .answerLost => some (s.commit n tx (some .unknown))
    | _, _, _ => none
  | .abort n => (s.sessions.find? n).bind fun tx => some (s.fail n tx .store)

inductive Moves (env : Env δ) (s : State δ) : State δ → Prop
  | refuse (request : Request) {e : IngestError} (he : e ≠ .unknown) :
      Moves env s (s.respond none request (some e))
  | start {request : Request} {now : Int} (hv : request.validate env now = .ok ()) :
      Moves env s { s with sessions := s.sessions.start (.new request now) }
  | skip {n : Nat} {tx : Tx δ} {ce : CloudEvent} {todo : List CloudEvent} {r : Receipt δ}
      (hf : s.sessions.find? n = some tx) (hc : tx.current = none) (ht : tx.todo = ce :: todo)
      (hr : (tx.write s.db).receipts.find? ce.key = some r) (hd : r.payload = env.digest ce) :
      Moves env s (s.withTx n (tx.skip ce todo))
  | claim {n : Nat} {tx : Tx δ} {ce : CloudEvent} {todo : List CloudEvent}
      (hf : s.sessions.find? n = some tx) (hc : tx.current = none) (ht : tx.todo = ce :: todo)
      (hr : (tx.write s.db).receipts.find? ce.key = none)
      (hl : s.locked n (.receipt ce.key) = false) : Moves env s (s.withTx n (tx.claim env ce todo))
  | proceed {n : Nat} {tx : Tx δ} {cur : Current δ} {c : Call} {calls : List Call}
      {w : Option (Write δ)} {id : Nat} {projectID : String} (nextID : Nat) (cache : ProjectCache)
      (hf : s.sessions.find? n = some tx) (hc : tx.current = some cur) (hcs : cur.calls = c :: calls)
      (hw : c.write (tx.write s.db) tx.now id projectID = .ok w)
      (hl : ∀ l ∈ w.bind Write.lock, s.locked n l = false) :
      Moves env s { s.withTx n (tx.proceed cur calls w) with nextID, projectCache := cache }
  | finish {n : Nat} {tx : Tx δ} {cur : Current δ} (hf : s.sessions.find? n = some tx)
      (hc : tx.current = some cur) (hcs : cur.calls = []) (hfails : cur.fails = none) :
      Moves env s (s.withTx n (tx.finish cur))
  | fail {n : Nat} {tx : Tx δ} {e : IngestError} (nextID : Nat) (cache : ProjectCache)
      (hf : s.sessions.find? n = some tx) (he : e ≠ .unknown) :
      Moves env s { s.fail n tx e with nextID, projectCache := cache }
  | commit {n : Nat} {tx : Tx δ} {error : Option IngestError} (hf : s.sessions.find? n = some tx)
      (hc : tx.current = none) (ht : tx.todo = []) (he : error = none ∨ error = some .unknown) :
      Moves env s (s.commit n tx error)

theorem State.call_moves {env : Env δ} {s t : State δ} {n : Nat} {tx : Tx δ} {cur : Current δ}
    {c : Call} {calls : List Call} {fault : Option Fault} (hf : s.sessions.find? n = some tx)
    (hc : tx.current = some cur) (hcs : cur.calls = c :: calls)
    (h : s.call n tx cur c calls fault = some t) : Moves env s t := by
  unfold State.call at h
  dsimp only at h
  split at h
  · cases h
    exact .fail _ _ hf (by simp)
  · split at h
    · cases h
      exact .fail _ _ hf (by simp)
    · rename_i w hw
      split at h
      · cases h
      · rename_i hl
        cases h
        refine .proceed _ _ hf hc hcs hw fun l hlw => ?_
        simp only [Option.mem_def] at hlw
        simpa [hlw] using hl

theorem State.claim_moves [DecidableEq δ] {env : Env δ} {s t : State δ} {n : Nat} {tx : Tx δ}
    {ce : CloudEvent} {todo : List CloudEvent} (hf : s.sessions.find? n = some tx)
    (hc : tx.current = none) (ht : tx.todo = ce :: todo) (h : s.claim env n tx ce todo = some t) :
    Moves env s t := by
  unfold State.claim at h
  split at h
  · rename_i r hr
    split at h
    · rename_i hd
      cases h
      exact .skip hf hc ht hr hd
    · cases h
      exact .fail s.nextID s.projectCache hf (by simp)
  · rename_i hr
    split at h
    · cases h
    · rename_i hl
      cases h
      exact .claim hf hc ht hr (by simpa using hl)

theorem step_moves [DecidableEq δ] {env : Env δ} {s t : State δ} {l : Label}
    (h : step env s l = some t) : Moves env s t := by
  cases l with
  | submit request now failed =>
    simp only [step,Option.some.injEq] at h
    subst h
    unfold State.submit
    split
    · exact .refuse request (by simp)
    · rename_i hv
      split
      · exact .refuse request (by simp)
      · exact .start hv
  | claim n failed =>
    obtain ⟨tx,hf,h⟩ := Option.bind_eq_some_iff.mp h
    split at h
    · rename_i ce todo hc ht
      split at h
      · cases h
        exact .fail s.nextID s.projectCache hf (by simp)
      · exact State.claim_moves hf hc ht h
    · cases h
  | call n fault =>
    obtain ⟨tx,hf,h⟩ := Option.bind_eq_some_iff.mp h
    split at h
    · rename_i cur hc
      split at h
      · rename_i c calls hcs
        exact State.call_moves hf hc hcs h
      · cases h
    · cases h
  | finish n =>
    obtain ⟨tx,hf,h⟩ := Option.bind_eq_some_iff.mp h
    split at h
    · rename_i cur hc
      split at h
      · rename_i hcs hfails
        cases h
        exact .finish hf hc hcs hfails
      · cases h
        exact .fail s.nextID s.projectCache hf (by simp)
      · cases h
    · cases h
  | commit n outcome =>
    obtain ⟨tx,hf,h⟩ := Option.bind_eq_some_iff.mp h
    split at h
    · rename_i hc ht _
      cases h
      exact .commit hf hc ht (.inl rfl)
    · cases h
      exact .fail s.nextID s.projectCache hf (by simp)
    · rename_i hc ht _
      cases h
      exact .commit hf hc ht (.inr rfl)
    · cases h
  | abort n =>
    obtain ⟨tx,hf,h⟩ := Option.bind_eq_some_iff.mp h
    cases h
    exact .fail s.nextID s.projectCache hf (by simp)

/-- A database on which nothing was ingested yet. -/
def initial (base : Database δ) (s : State δ) : Prop :=
  base.receipts.rows = [] ∧ base.rawEvents = [] ∧ s.sessions = ⟨base,0,[],[]⟩ ∧ s.responses = []

end CostConsumer.Ingest
