import CostConsumer.Foundation.Transition
import Mathlib.Data.List.Basic
set_option autoImplicit false

/-!
The emitter of the cluster agent: `Emit` puts events on a bounded channel or drops
them, and `Start` takes them off, collects them in batches and sends these event by
event, until its context is cancelled.
-/

namespace CostConsumer.Agent.Emitter
open Foundation

variable {δ : Type}

structure CloudEvent (δ : Type) where
  specVersion : String
  type : String
  source : String
  id : String
  time : Int
  subject : String
  data : δ
  deriving DecidableEq, Repr

structure Config where
  clusterID : String
  batchSize : Nat
  pos : 1 ≤ batchSize

/-- The channel is made with room for two batches. -/
def Config.capacity (c : Config) : Nat := c.batchSize*2

def cloudEvent (c : Config) (eventType subject id : String) (now : Int) (data : δ) : CloudEvent δ :=
  ⟨"1.0",eventType,"/cluster/" ++ c.clusterID,id,now,subject,data⟩

/-- Where `Start` is: at its `select`, in a `flush` with the events still to be sent,
after which it may return, or returned. -/
inductive Phase (δ : Type) where
  | select : Phase δ
  | flush (rest : List (CloudEvent δ)) (returning : Bool) : Phase δ
  | returned : Phase δ
  deriving DecidableEq

/-- `sent` are the events passed to `sendWithRetry` and `queued` those that were put on
the channel; `cancelled` is the number of the latter at the cancellation. -/
structure State (δ : Type) where
  channel : List (CloudEvent δ)
  batch : List (CloudEvent δ)
  phase : Phase δ
  sent : List (CloudEvent δ)
  queued : List (CloudEvent δ)
  cancelled : Option Nat
  deriving DecidableEq

inductive Label (δ : Type) where
  | emit (eventType subject id : String) (now : Int) (data : δ) : Label δ
  | cancel : Label δ
  | done : Label δ
  | receive : Label δ
  | tick : Label δ
  | send : Label δ

namespace State

def push (s : State δ) (capacity : Nat) (ce : CloudEvent δ) : State δ :=
  if s.channel.length < capacity then
    { s with channel := s.channel ++ [ce], queued := s.queued ++ [ce] }
  else s

def startFlush (s : State δ) (returning : Bool) : State δ :=
  { s with batch := [], phase := .flush s.batch returning }

end State

def afterFlush (returning : Bool) : Phase δ := if returning then .returned else .select

def step (c : Config) (s : State δ) (l : Label δ) : Option (State δ) :=
  match l, s.phase with
  | .emit eventType subject id now data, _ =>
    some (s.push c.capacity (cloudEvent c eventType subject id now data))
  | .cancel, _ => if s.cancelled = none then some { s with cancelled := some s.queued.length } else none
  | .done, .select =>
    if s.cancelled = none then none
    else if s.batch.length > 0 then some (s.startFlush true)
    else some { s with phase := .returned }
  | .receive, .select =>
    match s.channel with
    | [] => none
    | ev :: rest =>
      let t := { s with channel := rest, batch := s.batch ++ [ev] }
      if t.batch.length ≥ c.batchSize then some (t.startFlush false) else some t
  | .tick, .select => if s.batch.length > 0 then some (s.startFlush false) else some s
  | .send, .flush rest returning =>
    match rest with
    | [] => some { s with phase := afterFlush returning }
    | ev :: rest => some { s with sent := s.sent ++ [ev], phase := .flush rest returning }
  | _, _ => none

def initial (s : State δ) : Prop := s = ⟨[],[],.select,[],[],none⟩

def Phase.unsent : Phase δ → List (CloudEvent δ)
  | .flush rest _ => rest
  | _ => []

def Phase.Ending : Phase δ → Prop
  | .select => False
  | .flush _ returning => returning = true
  | .returned => True

/-- What each step does. -/
inductive Moves (c : Config) (s : State δ) : Label δ → State δ → Prop
  | emit {eventType subject id : String} {now : Int} {data : δ} : Moves c s
      (.emit eventType subject id now data) (s.push c.capacity (cloudEvent c eventType subject id now data))
  | cancel : Moves c s .cancel { s with cancelled := some s.queued.length }
  | last (hp : s.phase = .select) (hc : s.cancelled ≠ none) : Moves c s .done (s.startFlush true)
  | done (hp : s.phase = .select) (hc : s.cancelled ≠ none) (hb : s.batch = []) :
      Moves c s .done { s with phase := .returned }
  | receive {ev : CloudEvent δ} {rest : List (CloudEvent δ)} (hp : s.phase = .select)
      (hq : s.channel = ev :: rest) : Moves c s .receive { s with channel := rest, batch := s.batch ++ [ev] }
  | full {ev : CloudEvent δ} {rest : List (CloudEvent δ)} (hp : s.phase = .select)
      (hq : s.channel = ev :: rest) :
      Moves c s .receive ({ s with channel := rest, batch := s.batch ++ [ev] }.startFlush false)
  | tick (hp : s.phase = .select) : Moves c s .tick (s.startFlush false)
  | idle : Moves c s .tick s
  | send {ev : CloudEvent δ} {rest : List (CloudEvent δ)} {returning : Bool}
      (hp : s.phase = .flush (ev :: rest) returning) :
      Moves c s .send { s with sent := s.sent ++ [ev], phase := .flush rest returning }
  | flushed {returning : Bool} (hp : s.phase = .flush [] returning) :
      Moves c s .send { s with phase := afterFlush returning }

theorem step_moves {c : Config} {s t : State δ} {l : Label δ} (h : step c s l = some t) : Moves c s l t := by
  unfold step at h
  split at h
  · cases h
    exact .emit
  · split at h <;> cases h
    exact .cancel
  · rename_i hp
    split at h
    · cases h
    rename_i hc
    split at h <;> cases h
    · exact .last hp hc
    · rename_i hb
      exact .done hp hc (List.eq_nil_of_length_eq_zero (Nat.eq_zero_of_not_pos hb))
  · rename_i hp
    split at h
    · cases h
    rename_i ev rest hq
    dsimp only at h
    split at h <;> cases h
    · exact .full hp hq
    · exact .receive hp hq
  · rename_i hp
    split at h <;> cases h
    · exact .tick hp
    · exact .idle
  · rename_i rest returning hp
    split at h <;> cases h
    · exact .flushed hp
    · exact .send hp
  · cases h

/-- Nothing that was queued is lost, sent twice or overtaken on its way. -/
structure Invariant (s : State δ) : Prop where
  conserved : s.sent ++ (s.phase.unsent ++ (s.batch ++ s.channel)) = s.queued
  batch : s.phase ≠ .select → s.batch = []
  ending : s.phase.Ending → s.cancelled ≠ none
  cancelled : ∀ n ∈ s.cancelled, n ≤ s.queued.length

theorem Invariant.initial {s : State δ} (h : initial s) : Invariant s := by
  cases h
  exact ⟨rfl,fun _ => rfl,fun h => h.elim,fun _ h => nomatch h⟩

theorem Invariant.push {s : State δ} (h : Invariant s) (capacity : Nat) (ce : CloudEvent δ) :
    Invariant (s.push capacity ce) := by
  unfold State.push
  split
  · refine ⟨?_,h.batch,h.ending,fun n hn => ?_⟩
    · rw [← h.conserved]
      simp only [List.append_assoc]
    · rw [List.length_append]
      exact Nat.le_add_right_of_le (h.cancelled n hn)
  · exact h

theorem Invariant.startFlush {s : State δ} (h : Invariant s) (hp : s.phase = .select) {returning : Bool}
    (hr : returning = true → s.cancelled ≠ none) : Invariant (s.startFlush returning) := by
  refine ⟨?_,fun _ => rfl,hr,h.cancelled⟩
  have hc := h.conserved
  rw [hp] at hc
  exact hc

theorem Invariant.receive {s : State δ} (h : Invariant s) (hp : s.phase = .select) {ev : CloudEvent δ}
    {rest : List (CloudEvent δ)} (hc : s.channel = ev :: rest) :
    Invariant { s with channel := rest, batch := s.batch ++ [ev] } := by
  refine ⟨?_,fun hne => absurd hp hne,h.ending,h.cancelled⟩
  rw [← h.conserved,hc]
  simp only [List.append_assoc,List.singleton_append]

theorem Invariant.step {c : Config} {s t : State δ} {l : Label δ} (h : Invariant s)
    (hst : step c s l = some t) : Invariant t := by
  cases step_moves hst with
  | emit => exact h.push _ _
  | cancel =>
    refine ⟨h.conserved,h.batch,fun _ => Option.some_ne_none _,fun n hn => ?_⟩
    cases hn
    exact Nat.le_refl _
  | last hp hc => exact h.startFlush hp fun _ => hc
  | done hp hc hb =>
    refine ⟨?_,fun _ => hb,fun _ => hc,h.cancelled⟩
    have hcons := h.conserved
    rwa [hp] at hcons
  | receive hp hq => exact h.receive hp hq
  | full hp hq => exact (h.receive hp hq).startFlush hp fun hf => absurd hf Bool.false_ne_true
  | tick hp => exact h.startFlush hp fun hf => absurd hf Bool.false_ne_true
  | idle => exact h
  | send hp =>
    refine ⟨?_,fun _ => h.batch (by simp [hp]),fun he => h.ending (by rwa [hp]),h.cancelled⟩
    rw [← h.conserved,hp]
    simp [Phase.unsent]
  | @flushed returning hp =>
    have hc := h.conserved
    rw [hp] at hc
    refine ⟨?_,fun _ => h.batch (by simp [hp]),fun he => h.ending ?_,h.cancelled⟩
    · cases returning <;> exact hc
    · rw [hp]
      cases returning with
      | false => exact he.elim
      | true => rfl

theorem reachable_invariant {c : Config} {s : State δ} (h : Reachable (step c) initial anyStep s) :
    Invariant s :=
  h.invariant (fun _ => Invariant.initial) fun _ _ _ hi _ hst => hi.step hst

theorem take_prefix_iff {α : Type} {sent rest : List α} {n : Nat} (hn : n ≤ (sent ++ rest).length) :
    (sent ++ rest).take n <+: sent ↔ n ≤ sent.length := by
  constructor
  · intro h
    have := h.length_le
    rwa [List.length_take,Nat.min_eq_left hn] at this
  · intro h
    rw [List.take_append_of_le_length h]
    exact List.take_prefix n sent

def Label.isReceive : Label δ → Bool
  | .receive => true
  | _ => false

/-- How many events were taken off the channel. -/
def State.received (s : State δ) : Nat := s.sent.length + (s.phase.unsent.length + s.batch.length)

theorem received_step {c : Config} {s t : State δ} {l : Label δ}
    (hst : step c s l = some t) : t.received = s.received + if l.isReceive then 1 else 0 := by
  cases step_moves hst with
  | emit =>
    unfold State.push
    split <;> rfl
  | cancel => rfl
  | idle => rfl
  | receive hp hq => simp [State.received,Label.isReceive,Nat.add_assoc]
  | full hp hq =>
    simp [State.received,State.startFlush,Phase.unsent,hp,Label.isReceive]
    omega
  | send hp =>
    simp [State.received,Phase.unsent,hp,Label.isReceive]
    omega
  | @flushed returning hp => cases returning <;> simp [State.received,Phase.unsent,afterFlush,hp,Label.isReceive]
  | _ => simp_all [State.received,State.startFlush,Phase.unsent,Label.isReceive]

theorem step_of_ending {c : Config} {s t : State δ} {l : Label δ} (h : s.phase.Ending)
    (hst : step c s l = some t) : t.phase.Ending ∧ l.isReceive = false := by
  cases step_moves hst with
  | emit =>
    unfold State.push
    split <;> exact ⟨h,rfl⟩
  | cancel => exact ⟨h,rfl⟩
  | idle => exact ⟨h,rfl⟩
  | send hp =>
    rw [hp] at h
    exact ⟨h,rfl⟩
  | flushed hp =>
    rw [hp] at h
    rw [show _ = true from h]
    exact ⟨trivial,rfl⟩
  | _ hp =>
    rw [hp] at h
    exact h.elim

theorem done_of_ending {c : Config} {s t : State δ} {l : Label δ} (hs : ¬ s.phase.Ending)
    (ht : t.phase.Ending) (hst : step c s l = some t) : l = .done := by
  cases step_moves hst with
  | emit =>
    unfold State.push at ht
    split at ht <;> exact absurd ht hs
  | last | done => rfl
  | full | tick => exact absurd ht Bool.false_ne_true
  | send hp =>
    rw [hp] at hs
    exact absurd ht hs
  | @flushed returning hp =>
    rw [hp] at hs
    rw [Bool.eq_false_iff.mpr hs] at ht
    exact ht.elim
  | _ => exact absurd ht hs

theorem no_receive_of_ending {c : Config} {s t : State δ} {ls : List (Label δ)} (h : s.phase.Ending)
    (hr : runLabels (step c) s ls = some t) : ls.countP Label.isReceive = 0 := by
  induction ls generalizing s with
  | nil => rfl
  | cons l ls ih =>
    obtain ⟨u,hu,hr⟩ := Option.bind_eq_some_iff.mp hr
    obtain ⟨he,hl⟩ := step_of_ending h hu
    rw [List.countP_cons_of_neg (by rw [hl]; exact Bool.false_ne_true),ih he hr]

/-- When `Start` has returned, the events that were queued have been sent in order and
once each, up to those on the channel. Those queued before the cancellation have all
been sent if and only if the `select` took that many receives before it took the
cancellation. -/
theorem queued_events_sent_iff {c : Config} {s t : State δ} {ls : List (Label δ)} (hs : initial s)
    (h : runLabels (step c) s ls = some t) (hr : t.phase = .returned) :
    t.sent ++ t.channel = t.queued ∧ ∃ before after n, ls = before ++ .done :: after ∧
      after.countP Label.isReceive = 0 ∧ t.cancelled = some n ∧
      (t.queued.take n <+: t.sent ↔ n ≤ before.countP Label.isReceive) := by
  have hi := reachable_invariant (.append (.start hs) h)
  have hb : t.batch = [] := hi.batch (by rw [hr]; exact fun hf => nomatch hf)
  have hq : t.sent ++ t.channel = t.queued := by
    have hc := hi.conserved
    rwa [hr,hb] at hc
  have hend : t.phase.Ending := by
    rw [hr]
    trivial
  obtain ⟨n,hn⟩ := Option.ne_none_iff_exists'.mp (hi.ending hend)
  obtain ⟨before,l,after,u,v,hls,-,hu,huv,hv,hafter⟩ :=
    runLabels_enters (P := fun s => s.phase.Ending) (by cases hs; exact id) hend h
  have hl : l = .done := done_of_ending hu hv huv
  subst hl
  have hnone := no_receive_of_ending hv hafter
  refine ⟨hq,before,after,n,hls,hnone,hn,?_⟩
  -- all that was received is sent, and nothing is received after the cancellation is taken
  have hcount : t.sent.length = before.countP Label.isReceive := by
    have hrec := runLabels_countP (fun _ _ _ => received_step) h
    rw [hls,List.countP_append,List.countP_cons_of_neg (by exact Bool.false_ne_true),hnone] at hrec
    cases hs
    simpa [State.received,hr,hb,Phase.unsent] using hrec
  have hle := hi.cancelled n hn
  rw [← hq] at hle ⊢
  rw [take_prefix_iff hle,hcount]

def smallBatches : Config := ⟨"east",2,by decide⟩

def heartbeat (id : String) : Label Unit := .emit "kube.pod.heartbeat" "shop/web-0" id 0 ()

/-- The batch is flushed at the cancellation; only a later event stays on the channel. -/
theorem queued_events_sent_in_run : ∃ s : State Unit, s.phase = .returned ∧ s.cancelled = some 3 ∧
    s.queued.length = 4 ∧ s.sent ++ s.channel = s.queued ∧ s.queued.take 3 <+: s.sent := by
  obtain ⟨s,hs,hr,hn,hq⟩ : ∃ s, runLabels (step smallBatches) ⟨[],[],.select,[],[],none⟩
      [heartbeat "a",heartbeat "b",.receive,.receive,heartbeat "c",.send,.send,.send,.receive,.cancel,
        heartbeat "d",.done,.send,.send] = some s ∧
      s.phase = .returned ∧ s.cancelled = some 3 ∧ s.queued.length = 4 := by decide +kernel
  obtain ⟨hsent,before,after,n,hls,hnone,hn',hiff⟩ := queued_events_sent_iff rfl hs hr
  rw [hn] at hn'
  cases hn'
  have hcount : 3 = before.countP Label.isReceive + (Label.done :: after).countP Label.isReceive := by
    rw [← List.countP_append,← hls]
    rfl
  rw [List.countP_cons_of_neg (by exact Bool.false_ne_true),hnone] at hcount
  exact ⟨s,hr,hn,hq,hsent,hiff.mpr (Nat.le_of_eq hcount)⟩

/-- `Start` returns at a cancellation with a full batch on the channel and an event in
hand: only that one is sent. -/
theorem queued_events_left_behind : ∃ s : State Unit, Reachable (step smallBatches) initial anyStep s ∧
    s.phase = .returned ∧ s.cancelled = some 3 ∧ s.queued.length = 3 ∧ s.sent.length = 1 :=
  Reachable.exists_of_run (step smallBatches) initial ⟨[],[],.select,[],[],none⟩
    [heartbeat "a",heartbeat "b",heartbeat "c",.receive,.cancel,.done,.send,.send] _ rfl (by decide +kernel)

end CostConsumer.Agent.Emitter
