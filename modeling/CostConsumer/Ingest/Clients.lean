import CostConsumer.Ingest.ExactlyOnce
set_option autoImplicit false

/-!
Ingestion as its clients see it: which request a transaction and an answer belong to,
and what a client may conclude from the answer to its request.
-/

namespace CostConsumer.Ingest
open Inventory Foundation Metering

variable {δ : Type}

def Response.status (r : Response) : Nat :=
  match r.error with
  | none => 204
  | some e => e.status

def success (status : Nat) : Bool := 200 ≤ status && status < 300

theorem Response.success_iff (r : Response) : success r.status = true ↔ r.error = none := by
  obtain ⟨tx,request,error⟩ := r
  cases error with
  | none => simp [status,success]
  | some e => cases e <;> simp [status,success,IngestError.status]

/-- The request of every transaction, open or over, meets what is said of its number. -/
structure Numbered (P : Nat → Request → Prop) (s : State δ) : Prop where
  active : ∀ p ∈ s.sessions.active, P p.1 p.2.request
  commits : ∀ c ∈ s.sessions.commits, P c.1 c.2.request
  responses : ∀ r ∈ s.responses, ∀ n ∈ r.tx, P n r.request

namespace Numbered

variable {P : Nat → Request → Prop} {s t : State δ} {n : Nat} {tx u : Tx δ}

theorem initial {base : Database δ} (h : Ingest.initial base s) : Numbered P s := by
  obtain ⟨-,-,hs,hr⟩ := h
  exact ⟨by simp [hs],by simp [hs],by simp [hr]⟩

theorem mono {Q : Nat → Request → Prop} (h : Numbered P s) (hpq : ∀ n r, P n r → Q n r) : Numbered Q s :=
  ⟨fun p hp => hpq _ _ (h.active p hp),fun c hc => hpq _ _ (h.commits c hc),
    fun r hr n hn => hpq _ _ (h.responses r hr n hn)⟩

theorem refuse (h : Numbered P s) (request : Request) (e : IngestError) :
    Numbered P (s.respond none request (some e)) := by
  refine ⟨h.active,h.commits,fun r hr n hn => ?_⟩
  rcases List.mem_append.mp hr with hr | hr
  · exact h.responses r hr n hn
  · rw [List.mem_singleton.mp hr] at hn
    cases hn

theorem start (h : Numbered P s) {request : Request} {now : Int} (hnew : P s.sessions.next request) :
    Numbered P { s with sessions := s.sessions.start (.new request now) } := by
  refine ⟨fun p hp => ?_,h.commits,h.responses⟩
  rcases List.mem_append.mp hp with hp | hp
  · exact h.active p hp
  · rw [List.mem_singleton.mp hp]
    exact hnew

theorem set (h : Numbered P s) (hf : s.sessions.find? n = some tx)
    (hs : t.sessions = s.sessions.set n u) (hr : t.responses = s.responses)
    (hu : u.request = tx.request) : Numbered P t := by
  refine ⟨fun p hp => ?_,hs ▸ h.commits,hr ▸ h.responses⟩
  rw [hs] at hp
  obtain ⟨q,hq,rfl⟩ := List.mem_map.mp hp
  by_cases hn : q.1 = n
  · simp only [hn,if_true,hu]
    exact h.active (n,tx) (Sessions.mem_of_find? hf)
  · simp only [hn,if_false]
    exact h.active q hq

theorem close (h : Numbered P s) (hf : s.sessions.find? n = some tx) (error : Option IngestError)
    (ha : ∀ p ∈ t.sessions.active, p ∈ s.sessions.active)
    (hc : ∀ c ∈ t.sessions.commits, c ∈ s.sessions.commits ∨ c = (n,tx))
    (hr : t.responses = s.responses ++ [⟨some n,tx.request,error⟩]) : Numbered P t := by
  have hmine : P n tx.request := h.active (n,tx) (Sessions.mem_of_find? hf)
  refine ⟨fun p hp => h.active p (ha p hp),fun c hmem => ?_,fun r hmem m hm => ?_⟩
  · rcases hc c hmem with hmem | rfl
    · exact h.commits c hmem
    · exact hmine
  · rw [hr] at hmem
    rcases List.mem_append.mp hmem with hmem | hmem
    · exact h.responses r hmem m hm
    · rw [List.mem_singleton.mp hmem] at hm ⊢
      cases hm
      exact hmine

theorem moves {env : Env δ} (h : Numbered P s) (hm : Moves env s t)
    (hnew : ∀ request now, t.sessions = s.sessions.start (.new request now) →
      P s.sessions.next request) : Numbered P t := by
  cases hm with
  | refuse request he => exact h.refuse request _
  | start hv => exact h.start (hnew _ _ rfl)
  | skip hf hc ht hr hd => exact h.set hf rfl rfl rfl
  | claim hf hc ht hr hl => exact h.set hf rfl rfl rfl
  | proceed nextID cache hf hc hcs hw hl => exact h.set hf rfl rfl rfl
  | finish hf hc hcs hfails => exact h.set hf rfl rfl rfl
  | fail nextID cache hf he =>
    exact h.close hf _ (fun p hp => (List.mem_filter.mp hp).1) (fun c hc => .inl hc) rfl
  | commit hf hc ht he =>
    refine h.close hf _ (fun p hp => (List.mem_filter.mp hp).1) (fun c hc => ?_) rfl
    exact (List.mem_append.mp hc).imp_right List.mem_singleton.mp

end Numbered

theorem State.submit_cases (env : Env δ) (s : State δ) (request : Request) (now : Int) (failed : Bool) :
    (∃ e : IngestError, s.submit env request now failed = s.respond none request (some e)) ∨
      s.submit env request now failed = { s with sessions := s.sessions.start (.new request now) } := by
  unfold State.submit
  split
  · exact .inl ⟨_,rfl⟩
  · cases failed with
    | true => exact .inl ⟨.store,rfl⟩
    | false => exact .inr rfl

section Step
variable [DecidableEq δ] {env : Env δ} {s t : State δ} {l : Label}

theorem step_start {request : Request} {now : Int} (hst : step env s l = some t)
    (ht : t.sessions = s.sessions.start (.new request now)) :
    ∃ failed, l = .submit request now failed := by
  have hnext : t.sessions.next ≠ s.sessions.next := by
    rw [ht]
    exact Nat.succ_ne_self _
  cases l with
  | submit request' now' failed =>
    simp only [step,Option.some.injEq] at hst
    subst hst
    rcases s.submit_cases env request' now' failed with ⟨e,hsub⟩ | hsub
    · rw [hsub] at hnext
      exact absurd rfl hnext
    · rw [hsub] at ht
      simp only [Sessions.start,Sessions.mk.injEq,List.append_cancel_left_eq,List.cons.injEq,
        Prod.mk.injEq,Tx.new,Tx.mk.injEq] at ht
      obtain ⟨-,-,⟨⟨-,hr,hnow,-⟩,-⟩,-⟩ := ht
      exact ⟨failed,by rw [hr,hnow]⟩
  | claim n failed =>
    obtain ⟨tx,hf,hst⟩ := Option.bind_eq_some_iff.mp hst
    unfold State.claim at hst
    (repeat' split at hst) <;> cases hst <;> exact absurd rfl hnext
  | call n fault =>
    obtain ⟨tx,hf,hst⟩ := Option.bind_eq_some_iff.mp hst
    unfold State.call at hst
    repeat' first | split at hst | dsimp only at hst
    all_goals cases hst <;> exact absurd rfl hnext
  | _ =>
    obtain ⟨tx,hf,hst⟩ := Option.bind_eq_some_iff.mp hst
    (repeat' split at hst) <;> cases hst <;> exact absurd rfl hnext

theorem Numbered.step {P : Nat → Request → Prop} (h : Numbered P s) (hst : step env s l = some t)
    (hnew : ∀ request now failed, l = .submit request now failed → P s.sessions.next request) :
    Numbered P t := by
  refine h.moves (step_moves hst) fun request now ht => ?_
  obtain ⟨failed,hl⟩ := step_start hst ht
  exact hnew request now failed hl

theorem commits_mono (hst : Ingest.step env s l = some t) :
    ∀ c ∈ s.sessions.commits, c ∈ t.sessions.commits := by
  intro c hc
  cases step_moves hst with
  | commit hf _ _ he => exact List.mem_append_left _ hc
  | _ => exact hc

theorem next_mono (hst : Ingest.step env s l = some t) : s.sessions.next ≤ t.sessions.next := by
  cases step_moves hst with
  | start hv => exact Nat.le_succ _
  | _ => exact Nat.le_refl _

theorem State.Accepted.step {ce : CloudEvent} (h : s.Accepted ce) (hst : Ingest.step env s l = some t) :
    t.Accepted ce := by
  obtain ⟨c,hc,hce⟩ := h
  exact ⟨c,commits_mono hst c hc,hce⟩

end Step

structure Serves (s : State δ) (n : Nat) (ce : CloudEvent) : Prop where
  numbered : Numbered (fun m request => m = n → request = .single ce) s
  lt : n < s.sessions.next

section Serves
variable [DecidableEq δ] {env : Env δ} {base : Database δ} {s t : State δ} {n : Nat} {ce : CloudEvent}
  {l : Label}

theorem Serves.step (h : Serves s n ce) (hst : Ingest.step env s l = some t) : Serves t n ce := by
  refine ⟨h.numbered.step hst fun request now failed _ hn => ?_,Nat.lt_of_lt_of_le h.lt (next_mono hst)⟩
  exact absurd hn.symm (Nat.ne_of_lt h.lt)

/-- A client whose request is answered with success knows that its event was taken; so it
was if the answer of the commit was lost. -/
theorem Serves.accepted (hs : Reachable (Ingest.step env) (initial base) anyStep s) (h : Serves s n ce)
    {r : Response} (hr : r ∈ s.responses) (hn : r.tx = some n)
    (hok : r.error = none ∨ r.error = some .unknown) : s.Accepted ce := by
  obtain ⟨c,hc,-,hreq⟩ := (reachable_answered hs).committed r hr hok
  refine ⟨c,hc,?_⟩
  rw [hreq,h.numbered.responses r hr n hn rfl]
  exact List.mem_singleton_self ce

end Serves

section Submit
variable {env : Env δ} {base : Database δ} {s : State δ}

theorem numbered_next [DecidableEq δ] (h : Reachable (Ingest.step env) (initial base) anyStep s) :
    Numbered (fun n _ => n < s.sessions.next) s := by
  induction h with
  | start hi => exact .initial hi
  | @next s t l _ _ hst ih =>
    have hmono : Numbered (fun n _ => n < t.sessions.next) s :=
      ih.mono fun n _ hn => Nat.lt_of_lt_of_le hn (next_mono hst)
    refine hmono.moves (step_moves hst) fun request now ht => ?_
    rw [ht]
    exact Nat.lt_succ_self _

theorem Serves.start [DecidableEq δ] (h : Reachable (Ingest.step env) (initial base) anyStep s)
    (ce : CloudEvent) (now : Int) :
    Serves { s with sessions := s.sessions.start (.new (.single ce) now) } s.sessions.next ce := by
  refine ⟨?_,Nat.lt_succ_self _⟩
  refine ((numbered_next h).mono fun n r hn he => ?_).start fun _ => rfl
  exact absurd he (Nat.ne_of_lt hn)

end Submit

end CostConsumer.Ingest
