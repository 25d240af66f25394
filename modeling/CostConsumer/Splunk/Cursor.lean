import CostConsumer.Splunk.Forwarder
set_option autoImplicit false

/-!
The stored cursor over runs of the forwarder. A cursor read that fails is taken for
the cursor 0, and the write at the end of a batch does not look at what is stored.
-/

namespace CostConsumer.Splunk
open Foundation Ingest

/-- A batch that is read ends at or after the stored cursor, from wherever it was read. -/
def Catches (s : State) : Label → Prop
  | .fetch false => ∀ cursor errors, s.phase = .query cursor errors → s.rawEventsSince cursor ≠ [] →
      s.cursor ≤ maxID (s.rawEventsSince cursor)
  | _ => True

/-- The batch in hand will not move the cursor back. -/
def Phase.Ahead (stored : Nat) : Phase → Prop
  | .post _ _ rows => stored ≤ maxID rows
  | .advance rows => stored ≤ maxID rows
  | _ => True

theorem retry_ahead (stored cursor errors : Nat) : (retry cursor errors).Ahead stored := by
  unfold retry
  split <;> trivial

theorem next_ahead (stored : Nat) (rows : List RawEventRow) : (next rows).Ahead stored := by
  unfold next
  split <;> trivial

theorem Phase.Ahead.moves {index : String} {s t : State} {l : Label} (h : s.phase.Ahead s.cursor)
    (hok : Catches s l) (hm : Moves index s l t) : t.phase.Ahead t.cursor ∧ s.cursor ≤ t.cursor := by
  cases hm with
  | log hg hs => exact ⟨h,le_rfl⟩
  | sweep failed hidle => exact ⟨trivial,le_rfl⟩
  | fetch hq hne => exact ⟨hok _ _ hq hne,le_rfl⟩
  | retry hpost => exact ⟨retry_ahead _ _ _,le_rfl⟩
  | post hpost =>
    rw [hpost] at h
    exact ⟨h,le_rfl⟩
  | advance outcome hadv hn =>
    rw [hadv] at h
    refine ⟨?_,h⟩
    rcases hn with rfl | rfl
    · trivial
    · exact next_ahead _ _
  | stop l => exact ⟨trivial,le_rfl⟩

/-- If every batch that is read ends at or after the stored cursor, the cursor never
moves back. -/
theorem cursor_never_moves_back {index : String} {s t : State}
    (hs : Reachable (step index) initial Catches s) (ht : Reachable (step index) (· = s) Catches t) :
    s.cursor ≤ t.cursor := by
  have hahead : s.phase.Ahead s.cursor := by
    refine hs.invariant (P := fun s => s.phase.Ahead s.cursor) (fun s hi => ?_)
      fun _ _ _ h hok hst => (h.moves hok (step_moves hst)).1
    cases hi
    trivial
  have hboth : t.phase.Ahead t.cursor ∧ s.cursor ≤ t.cursor := by
    refine ht.invariant (P := fun t => t.phase.Ahead t.cursor ∧ s.cursor ≤ t.cursor) (fun u hu => ?_)
      fun u l v h hok hst => ?_
    · cases hu
      exact ⟨hahead,le_rfl⟩
    · obtain ⟨hv,hle⟩ := h.1.moves hok (step_moves hst)
      exact ⟨hv,h.2.trans hle⟩
  exact hboth.2

def catches (s : State) : Label → Bool
  | .fetch false => match s.phase with
    | .query cursor _ => s.rawEventsSince cursor = [] || s.cursor ≤ maxID (s.rawEventsSince cursor)
    | _ => true
  | _ => true

theorem catches_iff {s : State} {l : Label} (h : catches s l = true) : Catches s l := by
  unfold Catches
  split
  · intro cursor errors hp hne
    simpa [catches,hp,hne] using h
  · trivial

def inserts (n : Nat) : List Label :=
  [.start] ++ List.replicate n (.insert 0 (auditEvent "a" march)) ++ [.commit 0]

/-- A sweep whose cursor read fails, up to the end of its first batch. -/
def sweepFromZero : List Label := .sweep true :: forwardOnce.tail

/-- One event is forwarded, a second one is inserted, and the read of the cursor fails:
the batch from 0 on has both. -/
theorem cursor_never_moves_back_in_run : ∃ s t, Reachable (step "main") initial Catches s ∧
    Reachable (step "main") (· = s) Catches t ∧ s.cursor = 1 ∧ t.cursor = 2 ∧ s.cursor ≤ t.cursor := by
  obtain ⟨s,hs,hone,t,ht,htwo⟩ := Reachable.exists_of_checked (step "main") initial catches
    ⟨.empty,0,.idle,[]⟩ (inserts 1 ++ forwardOnce)
    (fun s => s.cursor = 1 ∧ ∃ t, runChecked (step "main") catches s
      ([.start,.insert 1 (auditEvent "b" march),.commit 1] ++ sweepFromZero) = some t ∧ t.cursor = 2)
    (fun _ _ => catches_iff) rfl (by decide +kernel)
  have hlater : Reachable (step "main") (· = s) Catches t :=
    .append_checked (fun _ _ => catches_iff) (.start rfl) ht
  exact ⟨s,t,hs,hlater,hone,htwo,cursor_never_moves_back hs hlater⟩

set_option maxRecDepth 20000 in
/-- After 101 events were forwarded the read of the cursor fails: the first 100 events
are sent again, and the cursor is set to the last one of them. -/
theorem cursor_moves_back : ∃ s t, Reachable (step "main") initial anyStep s ∧
    Reachable (step "main") (· = s) anyStep t ∧ s.phase = .idle ∧ s.cursor = 101 ∧ t.cursor = 100 := by
  obtain ⟨s,hs,hidle,hfar,t,ht,hback⟩ := Reachable.exists_of_run (step "main") initial ⟨.empty,0,.idle,[]⟩
    (inserts 101 ++ forwardOnce ++ forwardOnce.tail) (fun s => s.phase = .idle ∧ s.cursor = 101 ∧
      ∃ t, runLabels (step "main") s sweepFromZero = some t ∧ t.cursor = 100) rfl (by decide +kernel)
  exact ⟨s,t,hs,.append (.start rfl) ht,hidle,hfar,hback⟩

/-- The condition cannot be weakened: a batch that is read short of the stored cursor
can go on to move it back. -/
theorem moves_back_unless_catches {index : String} {s : State} (h : ¬ Catches s (.fetch false)) :
    ∃ t, Reachable (step index) (· = s) anyStep t ∧ t.cursor < s.cursor := by
  simp only [Catches,not_forall,not_le] at h
  obtain ⟨cursor,errors,hq,hne,hlt⟩ := h
  exact ⟨_,.append (.start rfl) (forward_batch index hq hne),hlt⟩

/-- The position a sweep reads from is not behind the stored cursor. -/
def Phase.Reads (stored : Nat) : Phase → Prop
  | .idle => True
  | .query cursor _ => stored ≤ cursor
  | .post cursor _ rows => stored ≤ cursor ∧ cursor ≤ maxID rows
  | .advance rows => stored ≤ maxID rows

theorem Phase.Reads.moves {index : String} {s t : State} {l : Label} (h : s.phase.Reads s.cursor)
    (hl : l ≠ .sweep true) (hm : Moves index s l t) : t.phase.Reads t.cursor := by
  cases hm with
  | log hg hs => exact h
  | sweep failed hidle =>
    cases failed with
    | true => exact absurd rfl hl
    | false => exact le_refl s.cursor
  | fetch hq hne =>
    rw [hq] at h
    exact ⟨h,(Log.lt_lastKey_since hne).le⟩
  | retry hpost =>
    rw [hpost] at h
    unfold Splunk.retry
    split
    · trivial
    · exact h.1
  | post hpost =>
    rw [hpost] at h
    exact h.1.trans h.2
  | advance outcome hadv hn =>
    rcases hn with rfl | rfl
    · trivial
    · unfold Splunk.next
      split
      · trivial
      · exact le_rfl
  | stop l => trivial

theorem reachable_reads {index : String} {s : State}
    (h : Reachable (step index) initial (fun _ l => l ≠ .sweep true) s) : s.phase.Reads s.cursor := by
  refine h.invariant (P := fun s => s.phase.Reads s.cursor) (fun s hi => ?_)
    fun _ _ _ h hl hst => h.moves hl (step_moves hst)
  cases hi
  trivial

theorem catches_unless_read_fails {index : String} {s : State}
    (h : Reachable (step index) initial (fun _ l => l ≠ .sweep true) s) (l : Label) : Catches s l := by
  have hreads := reachable_reads h
  unfold Catches
  split
  · intro cursor errors hq hne
    rw [hq] at hreads
    exact hreads.trans (Log.lt_lastKey_since hne).le
  · trivial

/-- So posts, queries and cursor writes may fail, and sweeps be stopped: as long as the
cursor can be read it does not move back. -/
theorem cursor_kept_unless_read_fails {index : String} {s t : State}
    (hs : Reachable (step index) initial (fun _ l => l ≠ .sweep true) s)
    (ht : Reachable (step index) (· = s) (fun _ l => l ≠ .sweep true) t) : s.cursor ≤ t.cursor := by
  induction ht with
  | start h => rw [h]
  | next l hr _ hst ih =>
    have hreads := reachable_reads (hs.trans hr)
    refine ih.trans ?_
    cases step_moves hst with
    | advance outcome hadv hn =>
      rw [hadv] at hreads
      exact hreads
    | _ => exact le_rfl

theorem cursor_kept_after_refusal : ∃ s t,
    Reachable (step "main") initial (fun _ l => l ≠ .sweep true) s ∧
    Reachable (step "main") (· = s) (fun _ l => l ≠ .sweep true) t ∧ t.cursor = 1 ∧ s.cursor ≤ t.cursor := by
  obtain ⟨s,hs,t,hr,hc⟩ := Reachable.exists_of_checked (step "main") initial (fun _ l => l ≠ .sweep true)
    ⟨.empty,0,.idle,[]⟩ (inserts 1 ++ [.sweep false,.fetch false,.post false,.advance .refused])
    (fun s => ∃ t, runChecked (step "main") (fun _ l => l ≠ .sweep true) s forwardOnce = some t ∧ t.cursor = 1)
    (fun _ _ => of_decide_eq_true) rfl (by decide +kernel)
  have ht : Reachable (step "main") (· = s) (fun _ l => l ≠ .sweep true) t :=
    .append_checked (fun _ _ => of_decide_eq_true) (.start rfl) hr
  exact ⟨s,t,hs,ht,hc,cursor_kept_unless_read_fails hs ht⟩

end CostConsumer.Splunk
