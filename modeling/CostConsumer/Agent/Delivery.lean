import CostConsumer.Agent.Emitter
import CostConsumer.Foundation.Simulation
import CostConsumer.Ingest.Clients
set_option autoImplicit false

/-!
Delivery from the cluster agent to the consumer. `sendWithRetry` posts an event up to
three times over a network that loses requests and answers, to a consumer that serves
others at the same time and may still work on a request the agent has given up.
-/

namespace CostConsumer.Agent.Delivery
open Foundation

variable {δ ε : Type}

/-- `encode` is the JSON text of the data, for which `json.Marshal` may fail. -/
structure System (δ ε : Type) where
  config : Emitter.Config
  encode : δ → Option String
  env : Ingest.Env ε

/-- The event as the consumer reads it from the body of the request. -/
def marshal (encode : δ → Option String) (ce : Emitter.CloudEvent δ) : Option Ingest.CloudEvent :=
  (encode ce.data).map fun data =>
    ⟨ce.specVersion,ce.type,ce.source,ce.id,ce.time,ce.subject,"",data,"","","","",""⟩

/-- The label under which the counter of emitted events is increased. -/
inductive Status where
  | success : Status
  | failed : Status
  | marshalError : Status
  | requestError : Status
  deriving DecidableEq, Repr

/-- Where an attempt is: before its request, waiting for the answer of a handler that
runs a transaction, or with the status of an answer. -/
inductive Exchange where
  | ready : Exchange
  | waiting (n : Nat) : Exchange
  | answered (status : Nat) : Exchange
  deriving DecidableEq, Repr

/-- A running `sendWithRetry`. The durations are in seconds. -/
structure Call (δ : Type) where
  event : Emitter.CloudEvent δ
  body : Ingest.CloudEvent
  attempt : Nat
  backoff : Nat
  slept : Nat
  exchange : Exchange

structure Outcome (δ : Type) where
  event : Emitter.CloudEvent δ
  status : Status
  attempts : Nat
  slept : Nat

structure State (δ ε : Type) where
  agent : Emitter.State δ
  call : Option (Call δ)
  outcomes : List (Outcome δ)
  consumer : Ingest.State ε

/-- What becomes of a request: it is lost, it is answered on its way with another status
than success, or it comes to the handler. -/
inductive Fate where
  | lost : Fate
  | refused (status : Nat) : Fate
  | arrives (now : Int) (failed : Bool) : Fate

/-- `broken` is an error of the client while it waits for the answer. -/
inductive Label (δ : Type) where
  | agent (l : Emitter.Label δ) : Label δ
  | badRequest : Label δ
  | post (fate : Fate) : Label δ
  | answer : Label δ
  | broken : Label δ
  | consumer (l : Ingest.Label) : Label δ

def maxAttempts : Nat := 3

def Call.retry (c : Call δ) : Option (Call δ) :=
  if c.attempt < maxAttempts then
    some { c with
      attempt := c.attempt+1, slept := c.slept + c.backoff, backoff := c.backoff*2, exchange := .ready }
  else none

namespace State

variable (s : State δ ε)

def record (c : Call δ) (status : Status) : State δ ε :=
  { s with call := none, outcomes := s.outcomes ++ [⟨c.event,status,c.attempt,c.slept⟩] }

def retry (c : Call δ) : State δ ε :=
  match c.retry with
  | some c => { s with call := some c }
  | none => s.record c .failed

def goto (c : Call δ) (exchange : Exchange) : State δ ε := { s with call := some { c with exchange } }

def begin (encode : δ → Option String) (ce : Emitter.CloudEvent δ) : State δ ε :=
  match marshal encode ce with
  | none => { s with outcomes := s.outcomes ++ [⟨ce,.marshalError,0,0⟩] }
  | some body => { s with call := some ⟨ce,body,1,1,0,.ready⟩ }

/-- `flush` goes on to its next event when `sendWithRetry` has returned. -/
def flush (p : System δ ε) : Option (State δ ε) :=
  match s.call with
  | some _ => none
  | none => (Emitter.step p.config s.agent .send).map fun agent =>
    match s.agent.phase with
    | .flush (ce :: _) _ => { s with agent }.begin p.encode ce
    | _ => { s with agent }

def post (env : Ingest.Env ε) (c : Call δ) : Fate → Option (State δ ε)
  | .lost => some (s.retry c)
  | .refused status => if Ingest.success status then none else some (s.goto c (.answered status))
  | .arrives now failed =>
    let consumer := s.consumer.submit env (.single c.body) now failed
    match consumer.responses[s.consumer.responses.length]? with
    | some r => some ({ s with consumer }.goto c (.answered r.status))
    | none => some ({ s with consumer }.goto c (.waiting s.consumer.sessions.next))

def answered (c : Call δ) (status : Nat) : State δ ε :=
  if Ingest.success status then s.record c .success else s.retry c

end State

def step [DecidableEq ε] (p : System δ ε) (s : State δ ε) : Label δ → Option (State δ ε)
  | .agent .send => s.flush p
  | .agent l => (Emitter.step p.config s.agent l).map fun agent => { s with agent }
  | .badRequest => s.call.bind fun c =>
    match c.exchange with
    | .ready => some (s.record c .requestError)
    | _ => none
  | .post fate => s.call.bind fun c =>
    match c.exchange with
    | .ready => s.post p.env c fate
    | _ => none
  | .answer => s.call.bind fun c =>
    match c.exchange with
    | .ready => none
    | .waiting n =>
      (s.consumer.responses.find? (fun r => r.tx = some n)).map fun r => s.answered c r.status
    | .answered status => some (s.answered c status)
  | .broken => s.call.bind fun c =>
    match c.exchange with
    | .ready => none
    | _ => some (s.retry c)
  | .consumer l => (Ingest.step p.env s.consumer l).map fun consumer => { s with consumer }

structure initial (base : Ingest.Database ε) (s : State δ ε) : Prop where
  agent : Emitter.initial s.agent
  call : s.call = none
  outcomes : s.outcomes = []
  consumer : Ingest.initial base s.consumer

def Label.others : Label δ → Option Ingest.Label
  | .consumer l => some l
  | _ => none

inductive Moves [DecidableEq ε] (p : System δ ε) (s : State δ ε) : Option Ingest.Label → State δ ε → Prop
  | agent {l : Emitter.Label δ} {agent : Emitter.State δ} (ha : Emitter.step p.config s.agent l = some agent)
      (hs : agent.sent = s.agent.sent) : Moves p s none { s with agent }
  | begin {agent : Emitter.State δ} {ce : Emitter.CloudEvent δ}
      (ha : Emitter.step p.config s.agent .send = some agent) (hs : agent.sent = s.agent.sent ++ [ce])
      (hc : s.call = none) : Moves p s none ({ s with agent }.begin p.encode ce)
  | badRequest {c : Call δ} (hc : s.call = some c) : Moves p s none (s.record c .requestError)
  | retry {c : Call δ} (hc : s.call = some c) : Moves p s none (s.retry c)
  | refused {c : Call δ} {status : Nat} (hc : s.call = some c) (hs : Ingest.success status = false) :
      Moves p s none (s.goto c (.answered status))
  | rejected {c : Call δ} {now : Int} {failed : Bool} {e : Ingest.IngestError} (hc : s.call = some c)
      (hsub : s.consumer.submit p.env (.single c.body) now failed =
        s.consumer.respond none (.single c.body) (some e)) :
      Moves p s none ({ s with consumer := s.consumer.respond none (.single c.body) (some e) }.goto c
        (.answered e.status))
  | accepted {c : Call δ} {now : Int} {failed : Bool} (hc : s.call = some c)
      (hsub : s.consumer.submit p.env (.single c.body) now failed =
        { s.consumer with sessions := s.consumer.sessions.start (.new (.single c.body) now) }) :
      Moves p s none ({ s with consumer := { s.consumer with
        sessions := s.consumer.sessions.start (.new (.single c.body) now) } }.goto c
        (.waiting s.consumer.sessions.next))
  | success {c : Call δ} {n : Nat} {r : Ingest.Response} (hc : s.call = some c)
      (he : c.exchange = .waiting n) (hr : r ∈ s.consumer.responses) (hn : r.tx = some n)
      (hs : Ingest.success r.status = true) : Moves p s none (s.record c .success)
  | refusedSuccess {c : Call δ} {status : Nat} (hc : s.call = some c) (he : c.exchange = .answered status)
      (hs : Ingest.success status = true) : Moves p s none (s.record c .success)
  | consumer {l : Ingest.Label} {consumer : Ingest.State ε}
      (hst : Ingest.step p.env s.consumer l = some consumer) : Moves p s (some l) { s with consumer }

theorem sent_step {config : Emitter.Config} {a b : Emitter.State δ} {l : Emitter.Label δ}
    (h : Emitter.step config a l = some b) :
    b.sent = a.sent ∧ (l = .send → ∀ ce rest returning, a.phase ≠ .flush (ce :: rest) returning) ∨
      ∃ ce rest returning, l = .send ∧ a.phase = .flush (ce :: rest) returning ∧ b.sent = a.sent ++ [ce] := by
  cases Emitter.step_moves h with
  | emit =>
    refine .inl ⟨?_,nofun⟩
    unfold Emitter.State.push
    split <;> rfl
  | send hp => exact .inr ⟨_,_,_,rfl,hp,rfl⟩
  | flushed hp => exact .inl ⟨rfl,fun _ ce rest returning hf => by rw [hp] at hf; cases hf⟩
  | _ => exact .inl ⟨rfl,nofun⟩

section Parts
variable (s : State δ ε)

namespace State

@[simp] theorem retry_consumer (c : Call δ) : (s.retry c).consumer = s.consumer := by
  unfold State.retry
  split <;> rfl

@[simp] theorem retry_agent (c : Call δ) : (s.retry c).agent = s.agent := by
  unfold State.retry
  split <;> rfl

@[simp] theorem begin_consumer (encode : δ → Option String)
    (ce : Emitter.CloudEvent δ) : (s.begin encode ce).consumer = s.consumer := by
  unfold State.begin
  split <;> rfl

@[simp] theorem begin_agent (encode : δ → Option String)
    (ce : Emitter.CloudEvent δ) : (s.begin encode ce).agent = s.agent := by
  unfold State.begin
  split <;> rfl

end State

end Parts

section Moves
variable [DecidableEq ε] {p : System δ ε} {s t : State δ ε}

theorem State.flush_moves (h : s.flush p = some t) : Moves p s none t := by
  unfold State.flush at h
  split at h
  · cases h
  · rename_i hc
    obtain ⟨agent,ha,rfl⟩ := Option.map_eq_some_iff.mp h
    rcases sent_step ha with ⟨hs,hno⟩ | ⟨ce,rest,returning,-,hp,hs⟩
    · split
      · rename_i ce rest returning hp
        exact absurd hp (hno rfl ce rest returning)
      · exact .agent ha hs
    · rw [hp]
      exact .begin ha hs hc

theorem State.post_moves {c : Call δ} {fate : Fate} (hc : s.call = some c) (h : s.post p.env c fate = some t) :
    Moves p s none t := by
  cases fate with
  | lost =>
    cases h
    exact .retry hc
  | refused status =>
    simp only [State.post] at h
    split at h
    · cases h
    · rename_i hs
      cases h
      exact .refused hc (by simpa using hs)
  | arrives now failed =>
    simp only [State.post] at h
    rcases s.consumer.submit_cases p.env (.single c.body) now failed with ⟨e,hsub⟩ | hsub
    · simp only [hsub,Ingest.State.respond,List.getElem?_concat_length,Option.some.injEq] at h
      subst h
      exact .rejected hc hsub
    · simp only [hsub,List.getElem?_length,Option.some.injEq] at h
      subst h
      exact .accepted hc hsub

theorem step_moves {l : Label δ} (h : step p s l = some t) : Moves p s l.others t := by
  cases l with
  | agent l =>
    by_cases hl : l = .send
    · subst hl
      exact State.flush_moves h
    · have hst : (Emitter.step p.config s.agent l).map (fun agent => { s with agent }) = some t := by
        cases l <;> first | exact h | exact absurd rfl hl
      show Moves p s none t
      obtain ⟨agent,ha,rfl⟩ := Option.map_eq_some_iff.mp hst
      rcases sent_step ha with ⟨hs,-⟩ | ⟨ce,rest,returning,hsend,-⟩
      · exact .agent ha hs
      · exact absurd hsend hl
  | badRequest =>
    obtain ⟨c,hc,h⟩ := Option.bind_eq_some_iff.mp h
    split at h <;> cases h
    exact .badRequest hc
  | post fate =>
    obtain ⟨c,hc,h⟩ := Option.bind_eq_some_iff.mp h
    split at h
    · exact State.post_moves hc h
    · cases h
  | answer =>
    obtain ⟨c,hc,h⟩ := Option.bind_eq_some_iff.mp h
    split at h
    · cases h
    · rename_i n he
      obtain ⟨r,hr,rfl⟩ := Option.map_eq_some_iff.mp h
      unfold State.answered
      split
      · rename_i hs
        exact .success hc he (List.mem_of_find?_eq_some hr) (by simpa using List.find?_some hr) hs
      · exact .retry hc
    · rename_i status he
      cases h
      unfold State.answered
      split
      · rename_i hs
        exact .refusedSuccess hc he hs
      · exact .retry hc
  | broken =>
    obtain ⟨c,hc,h⟩ := Option.bind_eq_some_iff.mp h
    split at h <;> cases h
    exact .retry hc
  | consumer l =>
    obtain ⟨consumer,hst,rfl⟩ := Option.map_eq_some_iff.mp h
    exact .consumer hst

end Moves

def Exchange.Sound (consumer : Ingest.State ε) (body : Ingest.CloudEvent) : Exchange → Prop
  | .ready => True
  | .waiting n => Ingest.Serves consumer n body
  | .answered status => Ingest.success status = false

/-- A running `sendWithRetry`: it has slept for a second before its second attempt and
for two more before its third. -/
structure Call.Sound (p : System δ ε) (consumer : Ingest.State ε) (c : Call δ) : Prop where
  body : marshal p.encode c.event = some c.body
  attempt : 1 ≤ c.attempt ∧ c.attempt ≤ maxAttempts
  slept : c.slept + 1 = c.backoff
  backoff : c.backoff = 2^(c.attempt-1)
  exchange : c.exchange.Sound consumer c.body

structure Outcome.Sound (p : System δ ε) (consumer : Ingest.State ε) (o : Outcome δ) : Prop where
  attempts : o.attempts ≤ maxAttempts
  success : o.status = .success → ∃ body, marshal p.encode o.event = some body ∧ consumer.Accepted body
  failed : o.status = .failed → o.attempts = maxAttempts ∧ o.slept = 3

section Attempts
variable {p : System δ ε} {consumer : Ingest.State ε} {c : Call δ}

theorem Call.Sound.retry {d : Call δ} (h : c.Sound p consumer)
    (hd : c.retry = some d) : d.Sound p consumer := by
  obtain ⟨hbody,⟨hpos,hle⟩,hslept,hback,-⟩ := h
  unfold Call.retry at hd
  split at hd <;> cases hd
  rename_i hlt
  refine ⟨hbody,⟨Nat.le_add_left 1 _,hlt⟩,?_,?_,trivial⟩
  · show c.slept + c.backoff + 1 = c.backoff*2
    omega
  · show c.backoff*2 = 2^(c.attempt+1-1)
    obtain ⟨k,hk⟩ : ∃ k, c.attempt = k+1 := ⟨c.attempt-1,by omega⟩
    rw [hback,hk]
    simp [pow_succ]

theorem Call.Sound.failed (h : c.Sound p consumer) (hd : c.retry = none) :
    c.attempt = maxAttempts ∧ c.slept = 3 := by
  obtain ⟨-,⟨hpos,hle⟩,hslept,hback,-⟩ := h
  unfold Call.retry at hd
  split at hd
  · cases hd
  · rename_i hlt
    have ha : c.attempt = 3 := by
      unfold maxAttempts at hle hlt
      omega
    rw [ha] at hback
    exact ⟨ha,by omega⟩

end Attempts

section Sound
variable [DecidableEq ε] {p : System δ ε} {base : Ingest.Database ε} {s t : State δ ε} {c : Call δ}

theorem Exchange.Sound.step {consumer u : Ingest.State ε} {l : Ingest.Label} {body : Ingest.CloudEvent}
    {x : Exchange} (h : x.Sound consumer body) (hst : Ingest.step p.env consumer l = some u) :
    x.Sound u body := by
  cases x with
  | waiting n => exact Ingest.Serves.step h hst
  | _ => exact h

theorem Call.Sound.step {consumer u : Ingest.State ε} {l : Ingest.Label} (h : c.Sound p consumer)
    (hst : Ingest.step p.env consumer l = some u) : c.Sound p u :=
  { h with exchange := h.exchange.step hst }

theorem Outcome.Sound.step {o : Outcome δ} {consumer u : Ingest.State ε} {l : Ingest.Label}
    (h : o.Sound p consumer) (hst : Ingest.step p.env consumer l = some u) : o.Sound p u := by
  refine { h with success := fun ho => ?_ }
  obtain ⟨body,hb,ha⟩ := h.success ho
  exact ⟨body,hb,ha.step hst⟩

/-- The invariant of delivery: every event handed over is running or has its one
outcome. -/
structure Sound (p : System δ ε) (base : Ingest.Database ε) (s : State δ ε) : Prop where
  agent : Emitter.Invariant s.agent
  consumer : Reachable (Ingest.step p.env) (Ingest.initial base) anyStep s.consumer
  sent : s.outcomes.map (·.event) ++ (s.call.map (·.event)).toList = s.agent.sent
  call : ∀ c ∈ s.call, c.Sound p s.consumer
  outcomes : ∀ o ∈ s.outcomes, o.Sound p s.consumer

theorem Sound.record (h : Sound p base s) (hc : s.call = some c) {status : Status}
    (ho : Outcome.Sound p s.consumer ⟨c.event,status,c.attempt,c.slept⟩) : Sound p base (s.record c status) := by
  refine ⟨h.agent,h.consumer,?_,nofun,fun o hmem => ?_⟩
  · have hs := h.sent
    rw [hc] at hs
    simpa [State.record] using hs
  · rcases List.mem_append.mp hmem with hmem | hmem
    · exact h.outcomes o hmem
    · rw [List.mem_singleton.mp hmem]
      exact ho

theorem Sound.replace (h : Sound p base s) (hc : s.call = some c) {d : Call δ} (he : d.event = c.event)
    (hd : d.Sound p s.consumer) : Sound p base { s with call := some d } := by
  refine ⟨h.agent,h.consumer,?_,fun d' hd' => ?_,h.outcomes⟩
  · have hs := h.sent
    rw [hc] at hs
    simpa [he] using hs
  · cases hd'
    exact hd

theorem Sound.retry (h : Sound p base s) (hc : s.call = some c) : Sound p base (s.retry c) := by
  have hcall := h.call c hc
  unfold State.retry
  split
  · rename_i d hd
    refine h.replace hc ?_ (hcall.retry hd)
    unfold Call.retry at hd
    split at hd <;> cases hd
    rfl
  · rename_i hd
    exact h.record hc ⟨hcall.attempt.2,nofun,fun _ => hcall.failed hd⟩

theorem Sound.serve (h : Sound p base s) {l : Ingest.Label} {u : Ingest.State ε}
    (hst : Ingest.step p.env s.consumer l = some u) : Sound p base { s with consumer := u } :=
  ⟨h.agent,.next l h.consumer trivial hst,h.sent,fun c hc => (h.call c hc).step hst,
    fun o ho => (h.outcomes o ho).step hst⟩

theorem Sound.goto (h : Sound p base s) (hc : s.call = some c) {x : Exchange}
    (hx : x.Sound s.consumer c.body) : Sound p base (s.goto c x) :=
  h.replace hc rfl { h.call c hc with exchange := hx }

theorem Sound.begin (h : Sound p base s) {agent : Emitter.State δ} {ce : Emitter.CloudEvent δ}
    (ha : Emitter.Invariant agent) (hs : agent.sent = s.agent.sent ++ [ce]) (hc : s.call = none) :
    Sound p base ({ s with agent }.begin p.encode ce) := by
  have hsent := h.sent
  rw [hc] at hsent
  have hsent : s.outcomes.map (·.event) = s.agent.sent := by simpa using hsent
  unfold State.begin
  split
  · rename_i hm
    refine ⟨ha,h.consumer,?_,fun c hc' => ?_,fun o ho => ?_⟩
    · simp [hc,hs,hsent]
    · rw [hc] at hc'
      cases hc'
    · rcases List.mem_append.mp ho with ho | ho
      · exact h.outcomes o ho
      · rw [List.mem_singleton.mp ho]
        exact ⟨by simp [maxAttempts],nofun,nofun⟩
  · rename_i body hm
    refine ⟨ha,h.consumer,?_,fun c hc' => ?_,h.outcomes⟩
    · simp [hs,hsent]
    · cases hc'
      exact ⟨hm,⟨by simp,by simp [maxAttempts]⟩,rfl,rfl,trivial⟩

theorem Sound.step {o : Option Ingest.Label} (h : Sound p base s) (hm : Moves p s o t) : Sound p base t := by
  cases hm with
  | agent ha hs => exact ⟨h.agent.step ha,h.consumer,by rw [hs]; exact h.sent,h.call,h.outcomes⟩
  | begin ha hs hc => exact h.begin (h.agent.step ha) hs hc
  | badRequest hc => exact h.record hc ⟨(h.call _ hc).attempt.2,by simp,by simp⟩
  | retry hc => exact h.retry hc
  | refused hc hs => exact h.goto hc hs
  | @rejected c now failed e hc hsub =>
    have hst : Ingest.step p.env s.consumer (.submit (.single c.body) now failed) =
        some (s.consumer.respond none (.single c.body) (some e)) := by rw [Ingest.step,hsub]
    refine (h.serve hst).goto hc ?_
    cases e <;> rfl
  | @accepted c now failed hc hsub =>
    have hst := congrArg some hsub
    rw [← Ingest.step] at hst
    exact (h.serve hst).goto hc (Ingest.Serves.start h.consumer c.body now)
  | @success c n r hc he hr hn hs =>
    have hcall := h.call c hc
    have hserves := hcall.exchange
    rw [he] at hserves
    refine h.record hc ⟨hcall.attempt.2,fun _ => ⟨c.body,hcall.body,?_⟩,by simp⟩
    exact Ingest.Serves.accepted h.consumer hserves hr hn (.inl (r.success_iff.mp hs))
  | @refusedSuccess c status hc he hs =>
    have hx := (h.call c hc).exchange
    rw [he] at hx
    exact absurd (hx.symm.trans hs) Bool.false_ne_true
  | consumer hst => exact h.serve hst

theorem reachable_sound {ok : State δ ε → Label δ → Prop}
    (h : Reachable (Delivery.step p) (initial base) ok s) : Sound p base s := by
  refine h.invariant (fun s hi => ?_) fun s l t hs _ hst => hs.step (step_moves hst)
  refine ⟨.initial hi.agent,.start hi.consumer,?_,?_,?_⟩
  · rw [hi.outcomes,hi.call,hi.agent]
    rfl
  · simp [hi.call]
  · simp [hi.outcomes]

end Sound

def System.source (p : System δ ε) : String := "/cluster/" ++ p.config.clusterID

/-- No other client sends events under the agent's source. -/
def foreign (p : System δ ε) (_ : State δ ε) (l : Label δ) : Bool :=
  match l.others with
  | some (.submit request _ _) => request.events.all (fun ce => ce.source ≠ p.source)
  | _ => true

def Mine (p : System δ ε) (s : State δ ε) : Prop :=
  Ingest.Numbered (fun _ request => ∀ ce ∈ request.events, ce.source = p.source →
    ∃ ev ∈ s.agent.sent, marshal p.encode ev = some ce) s.consumer

theorem Mine.mono {p : System δ ε} {s : State δ ε} {agent : Emitter.State δ} (h : Mine p s)
    (hs : ∀ ev ∈ s.agent.sent, ev ∈ agent.sent) : Mine p { s with agent } := by
  refine Ingest.Numbered.mono h fun n request hr ce hce hsrc => ?_
  obtain ⟨ev,hev,hm⟩ := hr ce hce hsrc
  exact ⟨ev,hs ev hev,hm⟩

section Mine
variable [DecidableEq ε] {p : System δ ε} {base : Ingest.Database ε} {s t : State δ ε} {l : Label δ}

theorem Mine.step (h : Mine p s) (hs : Sound p base s) (hok : foreign p s l = true)
    (hst : step p s l = some t) : Mine p t := by
  have hm := step_moves hst
  generalize ho : l.others = o at hm
  cases hm with
  | agent ha hsent => exact h.mono fun ev hev => by rw [hsent]; exact hev
  | begin ha hsent hc =>
    have hnew := h.mono fun ev hev => by rw [hsent]; exact List.mem_append_left _ hev
    unfold Mine
    rw [State.begin_consumer,State.begin_agent]
    exact hnew
  | retry hc =>
    unfold Mine
    rw [State.retry_consumer,State.retry_agent]
    exact h
  | rejected hc hsub => exact Ingest.Numbered.refuse h _ _
  | @accepted c now failed hc hsub =>
    refine Ingest.Numbered.start h fun ce hce _ => ?_
    refine ⟨c.event,?_,?_⟩
    · rw [← hs.sent,hc]
      simp
    · rw [(hs.call c hc).body,List.mem_singleton.mp hce]
  | @consumer l' u hstep =>
    refine Ingest.Numbered.step h hstep fun request now failed hl ce hce hsrc => ?_
    simp only [foreign,ho,hl,List.all_eq_true,decide_eq_true_eq] at hok
    exact absurd hsrc (hok ce hce)
  | _ => exact h

theorem reachable_mine (h : Reachable (Delivery.step p) (initial base) (fun s l => foreign p s l = true) s) :
    Mine p s := by
  refine h.invariant_with (P := Sound p base) (fun _ => reachable_sound) (fun s hi => ?_)
    fun s l t hs _ hm hok hst => hm.step hs hok hst
  exact .initial hi.consumer

end Mine

def sampleSystem : System Unit Ingest.CloudEvent :=
  ⟨Emitter.smallBatches,fun _ => some "vm",Ingest.heartbeatEnv⟩

def sampleState : State Unit Ingest.CloudEvent :=
  ⟨⟨[],[],.select,[],[],none⟩,none,[],Ingest.emptyState⟩

theorem sampleState_initial : initial {} sampleState := ⟨rfl,rfl,rfl,⟨rfl,rfl,rfl,rfl⟩⟩

def sampleBody : Ingest.CloudEvent :=
  ⟨"1.0",Ingest.eventTypeComputeInstance,"/cluster/east","e-1",Ingest.heartbeatTime,"shop/web-0","","vm",
    "","","","",""⟩

def handOver : List (Label Unit) :=
  [.agent (.emit Ingest.eventTypeComputeInstance "shop/web-0" "e-1" Ingest.heartbeatTime ()),
    .agent .receive,.agent .tick,.agent .send]

/-- An attempt that comes to the handler and commits, and whose answer says otherwise. -/
def answerLost (n : Nat) : List (Label Unit) :=
  .post (.arrives Ingest.heartbeatTime false) ::
    (Ingest.heartbeatSteps n ++ [Ingest.Label.commit n .answerLost]).map .consumer ++ [.answer]

/-- Whatever the network loses and whatever else the consumer does: the events that were
queued are, in their order, those with an outcome, the one being sent, and those still to
be sent, so each has one outcome after at most three attempts; and an event counted as a
success was taken by the consumer exactly once. -/
theorem sent_events_accounted [DecidableEq ε] {p : System δ ε} {base : Ingest.Database ε} {s : State δ ε}
    (h : Reachable (step p) (initial base) anyStep s) :
    s.outcomes.map (·.event) ++ ((s.call.map (·.event)).toList ++
      (s.agent.phase.unsent ++ (s.agent.batch ++ s.agent.channel))) = s.agent.queued ∧
    ∀ o ∈ s.outcomes, o.attempts ≤ 3 ∧ (o.status = .failed → o.attempts = 3 ∧ o.slept = 3) ∧
      (o.status = .success →
        ∃ body, marshal p.encode o.event = some body ∧ Ingest.TakenOnce p.env s.consumer body) := by
  have hs := reachable_sound h
  refine ⟨?_,fun o ho => ?_⟩
  · rw [← List.append_assoc,hs.sent]
    exact hs.agent.conserved
  · have hso := hs.outcomes o ho
    refine ⟨hso.attempts,hso.failed,fun hsucc => ?_⟩
    obtain ⟨body,hb,hacc⟩ := hso.success hsucc
    exact ⟨body,hb,Ingest.accepted_takenOnce hs.consumer hacc⟩

theorem sent_event_accounted :
    ∃ s, Reachable (step sampleSystem) (initial {}) anyStep s ∧ ∃ o ∈ s.outcomes, o.status = .success ∧
      o.attempts = 3 ∧ ∃ body, marshal sampleSystem.encode o.event = some body ∧
        Ingest.TakenOnce Ingest.heartbeatEnv s.consumer body := by
  obtain ⟨s,hs,o,ho,hok,hthree⟩ := Reachable.exists_of_run (step sampleSystem) (initial {}) sampleState
    (handOver ++ answerLost 0 ++ [.post .lost,.post (.arrives Ingest.heartbeatTime false),
      .consumer (.claim 1 false),.consumer (.commit 1 .committed),.answer])
    (fun s => ∃ o ∈ s.outcomes, o.status = .success ∧ o.attempts = 3)
    sampleState_initial (by decide +kernel)
  exact ⟨s,hs,o,ho,hok,hthree,((sent_events_accounted hs).2 o ho).2.2 hok⟩

/-- If no one else uses the agent's source, what the consumer has taken under it is what
the agent has sent, each event once. -/
theorem taken_events_sent [DecidableEq ε] {p : System δ ε} {base : Ingest.Database ε} {s : State δ ε}
    (h : Reachable (step p) (initial base) (fun s l => foreign p s l = true) s) {ce : Ingest.CloudEvent}
    (hce : s.consumer.Accepted ce) (hsrc : ce.source = p.source) :
    Ingest.TakenOnce p.env s.consumer ce ∧ ∃ ev ∈ s.agent.queued, marshal p.encode ev = some ce := by
  have hs := reachable_sound h
  refine ⟨Ingest.accepted_takenOnce hs.consumer hce,?_⟩
  obtain ⟨c,hc,hmem⟩ := hce
  obtain ⟨ev,hev,hm⟩ := (reachable_mine h).commits c hc ce hmem hsrc
  refine ⟨ev,?_,hm⟩
  rw [← hs.agent.conserved]
  exact List.mem_append_left _ hev

theorem taken_event_sent :
    ∃ s, Reachable (step sampleSystem) (initial {}) (fun s l => foreign sampleSystem s l = true) s ∧
      Ingest.TakenOnce Ingest.heartbeatEnv s.consumer sampleBody ∧
      ∃ ev ∈ s.agent.queued, marshal sampleSystem.encode ev = some sampleBody := by
  obtain ⟨s,hs,hacc⟩ := Reachable.exists_of_checked (step sampleSystem) (initial {}) (foreign sampleSystem)
    sampleState (.consumer (.submit (.single (Ingest.heartbeat "")) Ingest.heartbeatTime false) ::
      (handOver ++ answerLost 1))
    (fun s => ∃ c ∈ s.consumer.sessions.commits, sampleBody ∈ c.2.request.events)
    (fun _ _ h => h) sampleState_initial (by decide +kernel)
  exact ⟨s,hs,taken_events_sent hs hacc rfl⟩

theorem run_consumer [DecidableEq ε] {p : System δ ε} (s : State δ ε) {u v : Ingest.State ε}
    {ls : List Ingest.Label} (h : runLabels (Ingest.step p.env) u ls = some v) :
    runLabels (step p) { s with consumer := u } (ls.map .consumer) = some { s with consumer := v } := by
  induction ls generalizing u with
  | nil =>
    cases h
    rfl
  | cons l ls ih =>
    obtain ⟨w,hw,h⟩ := Option.bind_eq_some_iff.mp h
    exact runLabels_cons (by rw [step,hw,Option.map_some]) (ih h)

theorem find_answer [DecidableEq ε] {env : Ingest.Env ε} {base : Ingest.Database ε} {s : Ingest.State ε}
    (h : Reachable (Ingest.step env) (Ingest.initial base) anyStep s) {r : Ingest.Response}
    (hr : r.tx = some s.sessions.next) :
    (s.responses ++ [r]).find? (fun r => r.tx = some s.sessions.next) = some r := by
  have hnone : s.responses.find? (fun r => r.tx = some s.sessions.next) = none := by
    refine List.find?_eq_none.mpr fun r' hr' hn => ?_
    have hlt := (Ingest.numbered_next h).responses r' hr' _ (of_decide_eq_true hn)
    exact Nat.lt_irrefl _ hlt
  rw [List.find?_append,hnone]
  simp [hr]

/-- An event that was taken and whose answer was lost: the next attempt that comes to the
handler is a success, and it changes nothing in the database. -/
theorem retry_heals [DecidableEq ε] {p : System δ ε} {base : Ingest.Database ε} {s : State δ ε}
    (h : Reachable (step p) (initial base) anyStep s) {c : Call δ} (hc : s.call = some c)
    (he : c.exchange = .ready) (hacc : s.consumer.Accepted c.body) {now : Int}
    (hv : (Ingest.Request.single c.body).validate p.env now = .ok ()) :
    ∃ t, runLabels (step p) s (.post (.arrives now false) ::
        ((Ingest.replaySteps s.consumer.sessions.next [c.body]).map .consumer ++ [.answer])) = some t ∧
      t.outcomes = s.outcomes ++ [⟨c.event,.success,c.attempt,c.slept⟩] ∧
      t.consumer.db = s.consumer.db := by
  have hs := (reachable_sound h).consumer
  have hsub : s.consumer.submit p.env (.single c.body) now false =
      { s.consumer with sessions := s.consumer.sessions.start (.new (.single c.body) now) } := by
    simp [Ingest.State.submit,hv]
  have hpost : step p s (.post (.arrives now false)) = some ({ s with consumer := { s.consumer with
      sessions := s.consumer.sessions.start (.new (.single c.body) now) } }.goto c
      (.waiting s.consumer.sessions.next)) := by
    simp [step,hc,he,State.post,hsub]
  have hstart := congrArg some hsub
  rw [← Ingest.step] at hstart
  obtain ⟨v,hrun,hdb,hresp⟩ := Ingest.replay_under_way (.next _ hs trivial hstart)
    ((Ingest.reachable_safe hs).find?_next (.new (.single c.body) now)) fun ce hce => by
      rw [List.mem_singleton.mp hce]
      exact hacc.step hstart
  have hfind := find_answer hs (r := ⟨some s.consumer.sessions.next,.single c.body,none⟩) rfl
  have hserve := run_consumer (s.goto c (.waiting s.consumer.sessions.next)) hrun
  have hresp : v.responses = s.consumer.responses ++
      [⟨some s.consumer.sessions.next,.single c.body,none⟩] := hresp
  have hanswer : step p ({ s with consumer := v }.goto c (.waiting s.consumer.sessions.next)) .answer =
      some ({ s with consumer := v }.record c .success) := by
    simp only [step,State.goto,Option.bind_some,hresp,hfind]
    rfl
  refine ⟨{ s with consumer := v }.record c .success,?_,rfl,hdb⟩
  exact runLabels_cons hpost (runLabels_trans hserve (runLabels_cons hanswer rfl))

theorem second_attempt_heals :
    ∃ s t c, Reachable (step sampleSystem) (initial {}) anyStep s ∧ s.call = some c ∧ c.attempt = 2 ∧
      runLabels (step sampleSystem) s (.post (.arrives Ingest.heartbeatTime false) ::
        ((Ingest.replaySteps s.consumer.sessions.next [c.body]).map .consumer ++ [.answer])) = some t ∧
      t.outcomes = s.outcomes ++ [⟨c.event,.success,c.attempt,c.slept⟩] ∧
      t.consumer.db = s.consumer.db := by
  obtain ⟨s,hs,⟨c,hc,hattempt,hready,hbody⟩,hacc⟩ := Reachable.exists_of_run (step sampleSystem) (initial {})
    sampleState (handOver ++ answerLost 0)
    (fun s => (∃ c, s.call = some c ∧ c.attempt = 2 ∧ c.exchange = .ready ∧ c.body = sampleBody) ∧
      ∃ c ∈ s.consumer.sessions.commits, sampleBody ∈ c.2.request.events)
    sampleState_initial (by decide +kernel)
  obtain ⟨t,ht⟩ := retry_heals hs hc hready (hbody ▸ hacc)
    (show (Ingest.Request.single c.body).validate Ingest.heartbeatEnv Ingest.heartbeatTime = .ok () by
      rw [hbody]
      rfl)
  exact ⟨s,t,c,hs,hc,hattempt,ht⟩

end CostConsumer.Agent.Delivery
