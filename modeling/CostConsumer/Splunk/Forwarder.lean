import CostConsumer.Foundation.GoTime
import CostConsumer.Foundation.Log
import CostConsumer.Ingest.Machine
set_option autoImplicit false

/-!
The forwarder of the audit log: a sweep reads the cursor, sends the raw events after
it to Splunk batch by batch, and moves the cursor after each acknowledged batch.
Each store call and each post is one step and may fail; transactions that insert raw
events go on meanwhile.
-/

namespace CostConsumer.Splunk
open Foundation Ingest

structure RawEventRow extends RawEvent where
  id : Nat
  deriving DecidableEq, Repr

structure HecEvent where
  time : Rat
  host : String
  source : String
  sourceType : String
  index : String
  event : RawEventRow
  deriving DecidableEq, Repr

def batchSize : Nat := 100

def hecTime (t : Int) : Rat := (t - GoTime.date 1970 1 1)/GoTime.nanosPerSecond

def hasJSON (t : Int) : Bool := 0 ≤ GoTime.year t && GoTime.year t ≤ 9999

def marshals (row : RawEventRow) : Bool := hasJSON row.eventTime && hasJSON row.receivedAt

/-- The error of `json.Marshal` is not looked at: the event is left out. -/
def buildBatch (index : String) (rows : List RawEventRow) : List HecEvent :=
  (rows.filter marshals).map fun row =>
    ⟨hecTime row.eventTime,"cost-event-consumer","cost-event-consumer","_json",index,row⟩

abbrev RawEvents := Log RawEventRow (·.id)

/-- Where a sweep is: between sweeps, at the top of its loop, with a batch to be
posted, or with an acknowledged batch and the cursor still to be moved. -/
inductive Phase where
  | idle : Phase
  | query (cursor errors : Nat) : Phase
  | post (cursor errors : Nat) (rows : List RawEventRow) : Phase
  | advance (rows : List RawEventRow) : Phase
  deriving DecidableEq

/-- `cursor` is `last_sent_id`; `acknowledged` is the history of the posts that were
answered with 200 or 201. -/
structure State where
  rawEvents : RawEvents
  cursor : Nat
  phase : Phase
  acknowledged : List (List HecEvent)

/-- A `Bool` says that the call fails. `stop` is a cancelled context or a crash. -/
inductive Label where
  | start : Label
  | insert (n : Nat) (e : RawEvent) : Label
  | commit (n : Nat) : Label
  | rollback (n : Nat) : Label
  | sweep (failed : Bool) : Label
  | fetch (failed : Bool) : Label
  | post (failed : Bool) : Label
  | advance (outcome : CommitOutcome) : Label
  | stop : Label
  deriving DecidableEq

namespace State

def goto (s : State) (phase : Phase) : State := { s with phase }

def withLog (s : State) (rawEvents : RawEvents) : State := { s with rawEvents }

/-- An error of the query is taken for a cursor that was never moved. -/
def splunkCursor (s : State) (failed : Bool) : Nat := if failed then 0 else s.cursor

def rawEventsSince (s : State) (afterID : Nat) : List RawEventRow := s.rawEvents.since afterID batchSize

end State

def maxID (rows : List RawEventRow) : Nat := Log.lastKey (·.id) rows

/-- After the cursor was moved: a short batch was the last one. -/
def next (rows : List RawEventRow) : Phase :=
  if rows.length < batchSize then .idle else .query (maxID rows) 0

/-- After three errors in a row the sweep is abandoned. -/
def retry (cursor errors : Nat) : Phase := if errors+1 ≥ 3 then .idle else .query cursor (errors+1)

def step (index : String) (s : State) (l : Label) : Option State :=
  match l, s.phase with
  | .start, _ => some (s.withLog s.rawEvents.start)
  | .insert n e, _ => (s.rawEvents.insert n fun id => { e with id }).map s.withLog
  | .commit n, _ => (s.rawEvents.commit n).map s.withLog
  | .rollback n, _ => some (s.withLog (s.rawEvents.rollback n))
  | .sweep failed, .idle => some (s.goto (.query (s.splunkCursor failed) 0))
  | .fetch failed, .query cursor errors =>
    let rows := s.rawEventsSince cursor
    some (if failed ∨ rows = [] then s.goto .idle else s.goto (.post cursor errors rows))
  | .post failed, .post cursor errors rows =>
    some (if failed then s.goto (retry cursor errors)
      else { s.goto (.advance rows) with acknowledged := s.acknowledged ++ [buildBatch index rows] })
  | .advance outcome, .advance rows =>
    match outcome with
    | .committed => some { s with cursor := maxID rows, phase := next rows }
    | .refused => some (s.goto .idle)
    | .answerLost => some { s with cursor := maxID rows, phase := .idle }
  | .stop, _ => some (s.goto .idle)
  | _, _ => none

inductive Moves (index : String) (s : State) : Label → State → Prop
  | log {l : Label} {log : RawEvents} (hg : Log.Grows s.rawEvents log)
      (hs : s.rawEvents.Sound → log.Sound) : Moves index s l (s.withLog log)
  | sweep (failed : Bool) (hp : s.phase = .idle) :
      Moves index s (.sweep failed) (s.goto (.query (s.splunkCursor failed) 0))
  | fetch {cursor errors : Nat} (hp : s.phase = .query cursor errors)
      (hne : s.rawEventsSince cursor ≠ []) :
      Moves index s (.fetch false) (s.goto (.post cursor errors (s.rawEventsSince cursor)))
  | retry {cursor errors : Nat} {rows : List RawEventRow} (hp : s.phase = .post cursor errors rows) :
      Moves index s (.post true) (s.goto (retry cursor errors))
  | post {cursor errors : Nat} {rows : List RawEventRow} (hp : s.phase = .post cursor errors rows) :
      Moves index s (.post false)
        { s.goto (.advance rows) with acknowledged := s.acknowledged ++ [buildBatch index rows] }
  | advance {rows : List RawEventRow} {phase : Phase} (outcome : CommitOutcome)
      (hp : s.phase = .advance rows) (hn : phase = .idle ∨ phase = next rows) :
      Moves index s (.advance outcome) { s with cursor := maxID rows, phase }
  | stop (l : Label) : Moves index s l (s.goto .idle)

theorem step_moves {index : String} {s t : State} {l : Label} (h : step index s l = some t) :
    Moves index s l t := by
  unfold step at h
  split at h
  · cases h
    exact .log (Log.start_grows _) fun h => h.start
  · obtain ⟨log,hl,rfl⟩ := Option.map_eq_some_iff.mp h
    exact .log (Log.insert_grows (fun _ => rfl) hl) fun h => h.insert (fun _ => rfl) hl
  · obtain ⟨log,hl,rfl⟩ := Option.map_eq_some_iff.mp h
    exact .log (Log.commit_grows hl) fun h => h.commit hl
  · cases h
    exact .log (Log.rollback_grows _ _) fun h => h.rollback _
  · rename_i hp
    cases h
    exact .sweep _ hp
  · rename_i failed cursor errors hp
    dsimp only at h
    cases h
    split
    · exact .stop _
    · rename_i hboth
      obtain ⟨hf,hne⟩ := not_or.mp hboth
      rw [Bool.not_eq_true] at hf
      subst hf
      exact .fetch hp hne
  · rename_i failed cursor errors rows hp
    cases failed with
    | true => cases h; exact .retry hp
    | false => cases h; exact .post hp
  · rename_i outcome rows hp
    cases outcome with
    | committed => cases h; exact .advance _ hp (.inr rfl)
    | refused => cases h; exact .stop _
    | answerLost => cases h; exact .advance _ hp (.inl rfl)
  · cases h
    exact .stop _
  · cases h

/-- An empty audit log that was never forwarded. -/
def initial (s : State) : Prop := s = ⟨.empty,0,.idle,[]⟩

abbrev Acknowledged := List (List HecEvent)

def Forwarded (acknowledged : Acknowledged) (row : RawEventRow) : Prop :=
  ∃ batch ∈ acknowledged, row ∈ batch.map (·.event)

/-- A sweep that starts from the stored cursor does not read the event. -/
def Passed (s : State) (row : RawEventRow) : Prop := ∀ limit, row ∉ s.rawEvents.since s.cursor limit

/-- When a batch is read, its events have a JSON form and the transactions of all
ids before them have ended. -/
def ReadsWhole (s : State) : Label → Prop
  | .fetch false => ∀ cursor errors, s.phase = .query cursor errors →
      ∀ sent ∈ s.rawEventsSince cursor, marshals sent = true ∧ ∀ row ∈ s.rawEvents.pending, sent.id < row.id
  | _ => True

/-- All events up to an id are forwarded, and no other one will come up there. -/
structure Done (log : RawEvents) (acknowledged : Acknowledged) (id : Nat) : Prop where
  settled : log.Settled id
  forwarded : ∀ row ∈ log.rows, row.id ≤ id → Forwarded acknowledged row

/-- A batch with all events from a position to its last one. -/
structure Whole (log : RawEvents) (cursor : Nat) (rows : List RawEventRow) : Prop where
  settled : log.Settled (maxID rows)
  covers : ∀ row ∈ log.rows, cursor < row.id → row.id ≤ maxID rows → row ∈ rows
  marshals : ∀ row ∈ rows, marshals row = true

section Later
variable {log log' : RawEvents} {acknowledged : Acknowledged}

theorem Done.grows {id : Nat} (h : Done log acknowledged id) (hg : Log.Grows log log') :
    Done log' acknowledged id :=
  ⟨h.settled.grows hg,fun row hr hid => h.forwarded row (h.settled.rows hg hr hid) hid⟩

theorem Done.append {id : Nat} (h : Done log acknowledged id) (batch : List HecEvent) :
    Done log (acknowledged ++ [batch]) id := by
  refine ⟨h.settled,fun row hr hid => ?_⟩
  obtain ⟨b,hb,hrow⟩ := h.forwarded row hr hid
  exact ⟨b,List.mem_append_left _ hb,hrow⟩

theorem Whole.grows {cursor : Nat} {rows : List RawEventRow} (h : Whole log cursor rows)
    (hg : Log.Grows log log') : Whole log' cursor rows :=
  ⟨h.settled.grows hg,fun row hr hc hm => h.covers row (h.settled.rows hg hr hm) hc hm,
    h.marshals⟩

theorem mem_buildBatch {index : String} {rows : List RawEventRow} {row : RawEventRow} :
    row ∈ (buildBatch index rows).map (·.event) ↔ row ∈ rows ∧ marshals row = true := by
  simp [buildBatch]

theorem Whole.done {cursor : Nat} {rows : List RawEventRow} (h : Whole log cursor rows)
    (hd : Done log acknowledged cursor) (index : String) :
    Done log (acknowledged ++ [buildBatch index rows]) (maxID rows) := by
  refine ⟨h.settled,fun row hrow hid => ?_⟩
  by_cases hc : row.id ≤ cursor
  · exact (hd.append (buildBatch index rows)).forwarded row hrow hc
  · have hmem := h.covers row hrow (not_le.mp hc) hid
    exact ⟨buildBatch index rows,by simp,mem_buildBatch.mpr ⟨hmem,h.marshals row hmem⟩⟩

end Later

def Phase.Sound (log : RawEvents) (acknowledged : Acknowledged) : Phase → Prop
  | .idle => True
  | .query cursor _ => Done log acknowledged cursor
  | .post cursor _ rows => Done log acknowledged cursor ∧ Whole log cursor rows
  | .advance rows => Done log acknowledged (maxID rows)

theorem Phase.Sound.grows {log log' : RawEvents} {acknowledged : Acknowledged} {p : Phase}
    (h : p.Sound log acknowledged) (hg : Log.Grows log log') : p.Sound log' acknowledged := by
  cases p with
  | idle => trivial
  | query cursor errors => exact Done.grows h hg
  | post cursor errors rows => exact ⟨h.1.grows hg,h.2.grows hg⟩
  | advance rows => exact Done.grows h hg

structure Invariant (s : State) : Prop where
  sound : s.rawEvents.Sound
  zero : Done s.rawEvents s.acknowledged 0
  cursor : Done s.rawEvents s.acknowledged s.cursor
  phase : s.phase.Sound s.rawEvents s.acknowledged

theorem Invariant.initial {s : State} (h : initial s) : Invariant s := by
  cases h
  have hz : Done .empty [] 0 :=
    ⟨⟨by simp [Log.pending,Log.empty],Nat.one_pos⟩,by simp [Log.rows,Log.empty,Table.empty]⟩
  exact ⟨.empty,hz,hz,trivial⟩

theorem Invariant.moves {index : String} {s t : State} {l : Label} (h : Invariant s)
    (hok : ReadsWhole s l) (hm : Moves index s l t) : Invariant t := by
  have hp := h.phase
  cases hm with
  | log hg hs => exact ⟨hs h.sound,h.zero.grows hg,h.cursor.grows hg,hp.grows hg⟩
  | sweep failed hidle =>
    refine ⟨h.sound,h.zero,h.cursor,?_⟩
    cases failed with
    | true => exact h.zero
    | false => exact h.cursor
  | fetch hq hne =>
    rename_i cursor errors
    rw [hq] at hp
    have hall := hok cursor errors hq
    obtain ⟨last,hlast,hid⟩ := Log.lastKey_mem (·.id) hne
    have hsettled : s.rawEvents.Settled last.id :=
      ⟨(hall last hlast).2,h.sound.keys_lt last (List.mem_append_left _ (Log.since_subset hlast))⟩
    rw [hid] at hsettled
    exact ⟨h.sound,h.zero,h.cursor,hp,hsettled,
      fun row hr hc hid => Log.since_covers hr hc hid hne,fun row hr => (hall row hr).1⟩
  | retry hpost =>
    rw [hpost] at hp
    refine ⟨h.sound,h.zero,h.cursor,?_⟩
    simp only [State.goto,retry]
    split
    · trivial
    · exact hp.1
  | post hpost =>
    rw [hpost] at hp
    exact ⟨h.sound,h.zero.append _,h.cursor.append _,hp.2.done hp.1 index⟩
  | advance outcome hadv hn =>
    rename_i rows phase
    rw [hadv] at hp
    refine ⟨h.sound,h.zero,hp,?_⟩
    rcases hn with rfl | rfl
    · trivial
    · unfold next
      split
      · trivial
      · exact hp
  | stop l => exact ⟨h.sound,h.zero,h.cursor,trivial⟩

/-- If batches are only read up to ids whose transactions have ended, and all events
have a JSON form, no event is passed by without having been acknowledged. -/
theorem passed_events_forwarded {index : String} {s : State}
    (h : Reachable (step index) initial ReadsWhole s) {row : RawEventRow}
    (hrow : row ∈ s.rawEvents.rows) (hpassed : Passed s row) : Forwarded s.acknowledged row := by
  have hinv : Invariant s :=
    h.invariant (fun _ => Invariant.initial) fun _ _ _ hi hok hst => hi.moves hok (step_moves hst)
  exact hinv.cursor.forwarded row hrow ((Log.not_mem_since hrow).mp hpassed)

def auditEvent (id : String) (time : Int) : RawEvent :=
  ⟨id,"osac.resource.created.v1","/osac",time,"acme","compute_instance","vm-1",
    ⟨"1.0","osac.resource.created.v1","/osac",id,time,"","","","","","","",""⟩,time⟩

def march : Int := GoTime.date 2026 3 1

def twoInserts (time : Int) : List Label :=
  [.start,.start,.insert 0 (auditEvent "a" time),.insert 1 (auditEvent "b" time)]

def forwardOnce : List Label := [.sweep false,.fetch false,.post false,.advance .committed]

def readsWhole (s : State) : Label → Bool
  | .fetch false => match s.phase with
    | .query cursor _ => (s.rawEventsSince cursor).all fun sent =>
        marshals sent && s.rawEvents.pending.all fun row => sent.id < row.id
    | _ => true
  | _ => true

theorem readsWhole_iff {s : State} {l : Label} (h : readsWhole s l = true) : ReadsWhole s l := by
  unfold ReadsWhole
  split
  · intro cursor errors hp sent hsent
    simp only [readsWhole,hp,List.all_eq_true,Bool.and_eq_true,decide_eq_true_eq] at h
    exact h sent hsent
  · trivial

/-- A post and a cursor write fail on the way, and a cursor read starts from 0 again. -/
theorem passed_events_forwarded_in_run : ∃ s row, Reachable (step "main") initial ReadsWhole s ∧
    row ∈ s.rawEvents.rows ∧ Passed s row ∧ Forwarded s.acknowledged row := by
  obtain ⟨s,hs,row,hrow,hid⟩ := Reachable.exists_of_checked (step "main") initial readsWhole
    ⟨.empty,0,.idle,[]⟩
    (twoInserts march ++ [.commit 1,.commit 0,.sweep false,.fetch false,.post true,.fetch false,
      .post false,.advance .refused,.sweep true] ++ forwardOnce.tail)
    (fun s => ∃ row ∈ s.rawEvents.rows, row.id ≤ s.cursor)
    (fun _ _ => readsWhole_iff) rfl (by decide +kernel)
  have hp : Passed s row := (Log.not_mem_since hrow).mpr hid
  exact ⟨s,row,hs,hrow,hp,passed_events_forwarded hs hrow hp⟩

/-- A run that ends between sweeps and with no transaction open, after which a
committed event has been passed by and never been acknowledged. -/
def LosesEvent (run : List Label) : Prop :=
  ∃ s, runLabels (step "main") ⟨.empty,0,.idle,[]⟩ run = some s ∧
    Reachable (step "main") initial anyStep s ∧ s.phase = .idle ∧ s.rawEvents.pending = [] ∧
    ∃ row ∈ s.rawEvents.rows, Passed s row ∧ ¬ Forwarded s.acknowledged row

theorem losesEvent_of_run {run : List Label}
    (h : ∃ s, runLabels (step "main") ⟨.empty,0,.idle,[]⟩ run = some s ∧ s.phase = .idle ∧
      s.rawEvents.pending = [] ∧ ∃ row ∈ s.rawEvents.rows, row.id ≤ s.cursor ∧
        ∀ batch ∈ s.acknowledged, row ∉ batch.map (·.event)) :
    LosesEvent run := by
  obtain ⟨s,hr,hs,hidle,hpending,row,hrow,hid,hno⟩ := Reachable.run_end (show initial _ from rfl) h
  exact ⟨s,hr,hs,hidle,hpending,row,hrow,(Log.not_mem_since hrow).mpr hid,
    fun ⟨batch,hb,hm⟩ => hno batch hb hm⟩

/-- A transaction commits after one with a larger id was forwarded; two events are of
the year 10000 (in UTC: still 9999 where they happened, west of Greenwich). -/
theorem committed_event_never_forwarded :
    LosesEvent (twoInserts march ++ [.commit 1] ++ forwardOnce ++ [.commit 0]) ∧
    LosesEvent (twoInserts (GoTime.date 10000 1 1) ++ [.commit 0,.commit 1] ++ forwardOnce) :=
  ⟨losesEvent_of_run (by decide +kernel),losesEvent_of_run (by decide +kernel)⟩

def Phase.batch : Phase → List RawEventRow
  | .post _ _ rows => rows
  | .advance rows => rows
  | _ => []

/-- Only events that can be seen are sent, and those among them that have a JSON form. -/
structure Visible (s : State) : Prop where
  sound : s.rawEvents.Sound
  batch : ∀ row ∈ s.phase.batch, row ∈ s.rawEvents.rows
  acknowledged : ∀ row, Forwarded s.acknowledged row → row ∈ s.rawEvents.rows ∧ marshals row = true

theorem forwarded_append {acknowledged : Acknowledged} {index : String} {rows : List RawEventRow}
    {row : RawEventRow} (h : Forwarded (acknowledged ++ [buildBatch index rows]) row) :
    Forwarded acknowledged row ∨ row ∈ rows ∧ marshals row = true := by
  obtain ⟨batch,hbatch,hr⟩ := h
  rcases List.mem_append.mp hbatch with hbatch | hbatch
  · exact .inl ⟨batch,hbatch,hr⟩
  · rw [List.mem_singleton.mp hbatch] at hr
    exact .inr (mem_buildBatch.mp hr)

theorem Visible.moves {index : String} {s t : State} {l : Label} (h : Visible s)
    (hm : Moves index s l t) : Visible t := by
  have hb := h.batch
  cases hm with
  | log hg hs =>
    exact ⟨hs h.sound,fun row hr => hg.kept row (hb row hr),
      fun row hr => (h.acknowledged row hr).imp_left (hg.kept row)⟩
  | sweep failed hidle => exact ⟨h.sound,by simp [State.goto,Phase.batch],h.acknowledged⟩
  | fetch hq hne => exact ⟨h.sound,fun row hr => Log.since_subset hr,h.acknowledged⟩
  | retry hpost =>
    refine ⟨h.sound,fun row hr => ?_,h.acknowledged⟩
    simp only [State.goto,retry] at hr
    split at hr <;> cases hr
  | post hpost =>
    rw [hpost] at hb
    refine ⟨h.sound,hb,fun row hr => ?_⟩
    rcases forwarded_append hr with hr | hr
    · exact h.acknowledged row hr
    · exact hr.imp_left (hb row)
  | advance outcome hadv hn =>
    refine ⟨h.sound,fun row hr => ?_,h.acknowledged⟩
    rcases hn with rfl | rfl
    · cases hr
    · simp only [next] at hr
      split at hr <;> cases hr
  | stop l => exact ⟨h.sound,by simp [State.goto,Phase.batch],h.acknowledged⟩

theorem reachable_visible {index : String} {s : State}
    (h : Reachable (step index) initial anyStep s) : Visible s := by
  refine h.invariant (fun s hs => ?_) fun _ _ _ hv _ hst => hv.moves (step_moves hst)
  cases hs
  exact ⟨.empty,by simp [Phase.batch],by simp [Forwarded]⟩

theorem forward_batch (index : String) {s : State} {cursor errors : Nat}
    (hq : s.phase = .query cursor errors) (hne : s.rawEventsSince cursor ≠ []) :
    runLabels (step index) s [.fetch false,.post false,.advance .committed] =
      some ⟨s.rawEvents,maxID (s.rawEventsSince cursor),next (s.rawEventsSince cursor),
        s.acknowledged ++ [buildBatch index (s.rawEventsSince cursor)]⟩ := by
  simp [runLabels,step,hq,hne,State.goto]

end CostConsumer.Splunk
