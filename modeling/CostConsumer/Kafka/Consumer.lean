import CostConsumer.Foundation.Transition
import Mathlib.Data.List.Basic
set_option autoImplicit false

/-!
The consumer loop: poll, hand each record to the event processor, commit. The
context may be cancelled between any two steps, and while a record is being
processed.
-/

namespace CostConsumer.Kafka
open Foundation

variable {R : Type}

/-- Where `Run` is: in `PollFetches`, before its check of the context, in the loop
over the fetched records, in `ProcessKafkaEvent`, or in one of its two commits. -/
inductive Phase (R : Type) where
  | polling : Phase R
  | polled (fetched : List R) : Phase R
  | looping (todo : List R) : Phase R
  | processing (r : R) (todo : List R) : Phase R
  | committing : Phase R
  | lastCommit : Phase R
  | returned : Phase R
  deriving DecidableEq

/-- A call of `ProcessKafkaEvent` that has returned, and whether its context was
cancelled by then. -/
structure Handled (R : Type) where
  record : R
  cancelled : Bool
  deriving DecidableEq

structure State (R : Type) where
  cancelled : Bool
  phase : Phase R
  polled : List R
  committed : List R
  handled : List (Handled R)
  deriving DecidableEq

inductive Label (R : Type) where
  | cancel : Label R
  | poll (records : List R) : Label R
  | check : Label R
  | next : Label R
  | done : Label R
  | commit (failed : Bool) : Label R
  deriving DecidableEq

namespace State

def goto (s : State R) (phase : Phase R) : State R := { s with phase }

def commitUncommittedOffsets (s : State R) (failed : Bool) : State R :=
  if failed then s else { s with committed := s.polled }

end State

/-- An error of the processor or of a fetch is logged and changes nothing here. -/
def step (s : State R) (l : Label R) : Option (State R) :=
  match l, s.phase with
  | .cancel, _ => some { s with cancelled := true }
  | .poll records, .polling =>
    some { s.goto (.polled records) with polled := s.polled ++ records }
  | .check, .polled fetched =>
    some (s.goto (if s.cancelled then .lastCommit else .looping fetched))
  | .next, .looping (r :: todo) => some (s.goto (.processing r todo))
  | .next, .looping [] => some (s.goto .committing)
  | .done, .processing r todo =>
    some { s.goto (.looping todo) with handled := s.handled ++ [⟨r,s.cancelled⟩] }
  | .commit failed, .committing => some ((s.commitUncommittedOffsets failed).goto .polling)
  | .commit failed, .lastCommit => some ((s.commitUncommittedOffsets failed).goto .returned)
  | _, _ => none

def initial (s : State R) : Prop :=
  s.cancelled = false ∧ s.phase = .polling ∧ s.polled = [] ∧ s.committed = [] ∧ s.handled = []

def Phase.outstanding : Phase R → List R
  | .polled fetched => fetched
  | .looping todo => todo
  | .processing r todo => r :: todo
  | _ => []

/-- The record was handed over, and its context lived until the call returned. -/
def Served (s : State R) (r : R) : Prop := ∃ h ∈ s.handled, h.record = r ∧ h.cancelled = false

inductive Moves (s : State R) : Label R → State R → Prop
  | cancel : Moves s .cancel { s with cancelled := true }
  | poll {records : List R} (hp : s.phase = .polling) :
      Moves s (.poll records) { s.goto (.polled records) with polled := s.polled ++ records }
  | stop {fetched : List R} (hp : s.phase = .polled fetched) (hc : s.cancelled = true) :
      Moves s .check (s.goto .lastCommit)
  | enter {fetched : List R} (hp : s.phase = .polled fetched) (hc : s.cancelled = false) :
      Moves s .check (s.goto (.looping fetched))
  | next {r : R} {todo : List R} (hp : s.phase = .looping (r :: todo)) :
      Moves s .next (s.goto (.processing r todo))
  | leave (hp : s.phase = .looping []) : Moves s .next (s.goto .committing)
  | done {r : R} {todo : List R} (hp : s.phase = .processing r todo) :
      Moves s .done { s.goto (.looping todo) with handled := s.handled ++ [⟨r,s.cancelled⟩] }
  | commit (failed : Bool) {phase : Phase R} (hp : s.phase.outstanding = [])
      (hq : phase.outstanding = []) :
      Moves s (.commit failed) ((s.commitUncommittedOffsets failed).goto phase)

theorem step_moves {s t : State R} {l : Label R} (h : step s l = some t) : Moves s l t := by
  unfold step at h
  split at h
  · cases h
    exact .cancel
  · rename_i hp
    cases h
    exact .poll hp
  · rename_i hp
    cases h
    cases hc : s.cancelled with
    | true => exact .stop hp hc
    | false => exact .enter hp hc
  · rename_i hp
    cases h
    exact .next hp
  · rename_i hp
    cases h
    exact .leave hp
  · rename_i hp
    cases h
    exact .done hp
  · rename_i hp
    cases h
    exact .commit _ (by rw [hp]; rfl) rfl
  · rename_i hp
    cases h
    exact .commit _ (by rw [hp]; rfl) rfl
  · cases h

/-- The context is cancelled only when every fetched record has been processed, and
no record is fetched after that. -/
def drained (s : State R) (l : Label R) : Bool :=
  match l with
  | .cancel => s.phase.outstanding.isEmpty
  | .poll records => s.cancelled → records.isEmpty
  | _ => true

/-- Every polled record is still to be processed or was served; once the context is
cancelled nothing is left to be processed. -/
structure Sound (s : State R) : Prop where
  polled : ∀ r ∈ s.polled, r ∈ s.phase.outstanding ∨ Served s r
  cancelled : s.cancelled = true → s.phase.outstanding = []
  committed : ∀ r ∈ s.committed, Served s r

theorem Sound.goto {s : State R} (h : Sound s) {phase : Phase R}
    (ho : phase.outstanding = s.phase.outstanding) : Sound (s.goto phase) := by
  refine ⟨fun r hr => ?_,fun hc => ?_,h.committed⟩
  · rw [State.goto,ho]
    exact h.polled r hr
  · rw [State.goto,ho]
    exact h.cancelled hc

theorem Sound.commit {s : State R} (h : Sound s) (ho : s.phase.outstanding = []) (failed : Bool) :
    Sound (s.commitUncommittedOffsets failed) := by
  cases failed with
  | true => exact h
  | false =>
    refine ⟨h.polled,h.cancelled,fun r hr => ?_⟩
    rcases h.polled r hr with hr | hr
    · rw [ho] at hr
      cases hr
    · exact hr

theorem Sound.done {s : State R} {r : R} {todo : List R} (h : Sound s)
    (hp : s.phase = .processing r todo) :
    Sound { s.goto (.looping todo) with handled := s.handled ++ [⟨r,s.cancelled⟩] } := by
  have hc : s.cancelled = false := by
    cases hc : s.cancelled with
    | false => rfl
    | true =>
      have ho := h.cancelled hc
      rw [hp] at ho
      cases ho
  have hmono {r' : R} (hs : Served s r') :
      Served { s.goto (.looping todo) with handled := s.handled ++ [⟨r,s.cancelled⟩] } r' := by
    obtain ⟨g,hg,hr'⟩ := hs
    exact ⟨g,List.mem_append_left _ hg,hr'⟩
  refine ⟨fun r' hr' => ?_,fun hct => absurd (hc.symm.trans hct) Bool.false_ne_true,
    fun r' hr' => hmono (h.committed r' hr')⟩
  rcases h.polled r' hr' with hr' | hr'
  · rw [hp] at hr'
    rcases List.mem_cons.mp hr' with rfl | hr'
    · exact .inr ⟨⟨r',s.cancelled⟩,List.mem_append_right _ List.mem_cons_self,rfl,hc⟩
    · exact .inl hr'
  · exact .inr (hmono hr')

theorem Sound.step {s t : State R} {l : Label R} (h : Sound s) (hok : drained s l = true)
    (hm : Moves s l t) : Sound t := by
  cases hm with
  | cancel => exact ⟨h.polled,fun _ => List.isEmpty_iff.mp hok,h.committed⟩
  | @poll records hp =>
    refine ⟨fun r hr => ?_,fun hc => ?_,h.committed⟩
    · rcases List.mem_append.mp hr with hr | hr
      · refine .inr ((h.polled r hr).resolve_left fun ho => ?_)
        rw [hp] at ho
        cases ho
      · exact .inl hr
    · exact List.isEmpty_iff.mp (of_decide_eq_true hok hc)
  | stop hp hc => exact h.goto (h.cancelled hc).symm
  | enter hp hc => exact h.goto (by rw [hp]; rfl)
  | next hp => exact h.goto (by rw [hp]; rfl)
  | leave hp => exact h.goto (by rw [hp]; rfl)
  | done hp => exact h.done hp
  | commit failed hp hq =>
    refine (h.commit hp failed).goto ?_
    rw [hq]
    unfold State.commitUncommittedOffsets
    split <;> exact hp.symm

/-- A loop whose context is cancelled only between batches commits no record that
was not served. -/
theorem committed_served {s : State R}
    (h : Reachable step initial (fun s l => drained s l = true) s) :
    ∀ r ∈ s.committed, Served s r := by
  have hs : Sound s := by
    refine h.invariant (P := Sound) ?_ (fun s l t hs hl hst => hs.step hl (step_moves hst))
    rintro s ⟨hc,hp,hr,hm,-⟩
    exact ⟨by simp [hr],by simp [hc],by simp [hm]⟩
  exact hs.committed

theorem batches_served :
    ∃ s : State Nat, Reachable step initial (fun s l => drained s l = true) s ∧
      s.phase = .returned ∧ s.committed = [1,2,3] ∧ ∀ r ∈ s.committed, Served s r := by
  obtain ⟨s,hs,hreturned,hcommitted⟩ := Reachable.exists_of_checked step initial drained
    (⟨false,.polling,[],[],[]⟩ : State Nat)
    [.poll [1,2],.check,.next,.done,.next,.done,.next,.commit true,.poll [3],.check,.next,.done,.next,
      .cancel,.commit false,.poll [],.check,.commit false]
    (fun s => s.phase = .returned ∧ s.committed = [1,2,3]) (fun _ _ h => h) ⟨rfl,rfl,rfl,rfl,rfl⟩
    (by decide +kernel)
  exact ⟨s,hs,hreturned,hcommitted,committed_served hs⟩

/-- A context that is cancelled when a poll has just returned: the record is
committed and was never handed over. One that is cancelled during a call: the
record is committed all the same. -/
theorem shutdown_loses_record :
    (∃ s : State Nat, Reachable step initial anyStep s ∧ s.committed = [1] ∧ s.handled = []) ∧
      ∃ s : State Nat, Reachable step initial anyStep s ∧ s.committed = [1] ∧
        s.handled = [⟨1,true⟩] := by
  constructor
  · exact Reachable.exists_of_run step initial ⟨false,.polling,[],[],[]⟩
      [.poll [1],.cancel,.check,.commit false] _ ⟨rfl,rfl,rfl,rfl,rfl⟩ (by decide +kernel)
  · exact Reachable.exists_of_run step initial ⟨false,.polling,[],[],[]⟩
      [.poll [1],.check,.next,.cancel,.done,.next,.commit true,.poll [],.check,.commit false] _
      ⟨rfl,rfl,rfl,rfl,rfl⟩ (by decide +kernel)

end CostConsumer.Kafka
