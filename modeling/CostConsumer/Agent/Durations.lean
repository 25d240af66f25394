import CostConsumer.Agent.Heartbeats
set_option autoImplicit false

/-!
The durations of a pod's heartbeats against the time since its start: they never come
to more, and they come to less by what was dropped at a full channel.
-/

namespace CostConsumer.Agent
open Foundation

def Heartbeat.duration (h : Heartbeat) : Rat := h.emission.data.durationSeconds

def Heartbeat.queued (h : Heartbeat) : Bool := h.emission.queued

def State.billed (s : State) (arrives : Heartbeat → Bool) (pod : Pod) : Rat :=
  (((s.heartbeatsOf pod).filter arrives).map (·.duration)).sum

structure Emitted (c : Config) (s : State) : Prop where
  duration : ∀ h ∈ s.heartbeats, h.duration = GoTime.seconds (GoTime.sub h.now h.since)
  included : ∀ h ∈ s.heartbeats, shouldExclude c h.pod.ns = false
  inHand : ∀ now pod last rest, s.tick = .emit now pod last rest → shouldExclude c pod.ns = false

section Emitted
variable {c : Config} {s : State}

theorem Emitted.initial (h : initial s) : Emitted c s := by
  cases h
  exact ⟨fun h hh => (nomatch hh),fun h hh => (nomatch hh),fun now pod last rest ht => (nomatch ht)⟩

theorem Emitted.goto (h : Emitted c s) {t : State} (hh : t.heartbeats = s.heartbeats)
    (ht : ∀ now pod last rest, t.tick = .emit now pod last rest → shouldExclude c pod.ns = false) :
    Emitted c t :=
  ⟨hh ▸ h.duration,hh ▸ h.included,ht⟩

theorem onNotification_frame (s : State) (fill : Nat) (n : Notification) :
    (s.onNotification c fill n).heartbeats = s.heartbeats ∧ (s.onNotification c fill n).tick = s.tick ∧
      (s.onNotification c fill n).notifications = s.notifications := by
  cases n with
  | add pod =>
    rw [State.onNotification,State.onPodAdd]
    split <;> exact ⟨rfl,rfl,rfl⟩
  | delete pod =>
    rw [State.onNotification,State.onPodDelete]
    split <;> exact ⟨rfl,rfl,rfl⟩

theorem Emitted.read (h : Emitted c s) (now : Int) (p : CachedPod) (rest : List CachedPod) :
    Emitted c (s.read c now p rest) := by
  unfold State.read
  split
  · refine h.goto rfl fun now' pod last rest' ht => ?_
    cases ht
  · rename_i hinc
    refine h.goto rfl fun now' pod last rest' ht => ?_
    cases ht
    exact Bool.eq_false_iff.mpr (not_or.mp hinc).2

theorem Emitted.emit (h : Emitted c s) {now last : Int} {pod : Pod} {rest : List CachedPod}
    (ht : s.tick = .emit now pod last rest) (fill : Nat) :
    Emitted c (s.emitHeartbeat c fill now pod last rest) := by
  refine ⟨fun hb hhb => ?_,fun hb hhb => ?_,fun now' pod' last' rest' htick => ?_⟩
  · rcases List.mem_append.mp hhb with hhb | hhb
    · exact h.duration hb hhb
    · rw [List.mem_singleton.mp hhb]
      rfl
  · rcases List.mem_append.mp hhb with hhb | hhb
    · exact h.included hb hhb
    · rw [List.mem_singleton.mp hhb]
      exact h.inHand now pod last rest ht
  · cases htick

theorem Emitted.moves {t : State} {l : Label} (h : Emitted c s) (hm : Moves c s l t) : Emitted c t := by
  cases hm with
  | create phase hf hnone => exact h.goto rfl h.inHand
  | replace phase hf hsome => exact h.goto rfl h.inHand
  | status k phase => exact h.goto rfl h.inHand
  | delete hp => exact h.goto rfl h.inHand
  | handle fill hn =>
    rename_i n rest
    obtain ⟨hh,ht,-⟩ := onNotification_frame (c := c) { s with notifications := rest } fill n
    exact h.goto hh fun now pod last rest' htick => h.inHand now pod last rest' (ht.symm.trans htick)
  | list hidle hperm => exact h.goto rfl fun _ _ _ _ ht => nomatch ht
  | listFailed => exact h
  | now t ht => exact h.goto rfl fun _ _ _ _ ht => nomatch ht
  | finish ht => exact h.goto rfl fun _ _ _ _ ht => nomatch ht
  | read ht => exact h.read _ _ _
  | emit fill ht => exact h.emit ht fill
  | write ht => exact h.goto rfl fun _ _ _ _ ht => nomatch ht
  | restart => exact h.goto rfl fun _ _ _ _ ht => nomatch ht

theorem reachable_emitted {ok : State → Label → Prop} (h : Reachable (step c) initial ok s) : Emitted c s :=
  h.invariant (fun _ => Emitted.initial) fun _ _ _ he _ hst => he.moves (step_moves hst)

end Emitted

section Sums
variable {c : Config} {s : State} {pod : Pod} {last : Heartbeat}

theorem mem_heartbeatsOf {h : Heartbeat} : h ∈ s.heartbeatsOf pod ↔ h ∈ s.heartbeats ∧ h.pod = pod := by
  simp [State.heartbeatsOf]

theorem reachable_relay (h : Reachable (step c) initial (Orderly pod.key) s)
    (hlast : (s.heartbeatsOf pod).getLast? = some last) :
    Relay (fun h => GoTime.seconds h.since) (fun h => GoTime.seconds h.now) (GoTime.seconds pod.start)
      (s.heartbeatsOf pod) (GoTime.seconds last.now) := by
  have hmem := mem_heartbeatsOf.mp (List.mem_of_getLast? hlast)
  have hpod : shouldExclude c pod.ns = false := hmem.2 ▸ (reachable_emitted h).included last hmem.1
  have hkey : ∀ p : Pod, p.key = pod.key → shouldExclude c p.ns = false := by
    intro p hp
    rwa [ns_of_key hp]
  have hi : Invariant pod.key s :=
    h.invariant (fun _ => Invariant.initial) fun _ _ _ hi hok hst => hi.moves hkey hok (step_moves hst)
  have hc := hi.continuous pod rfl
  rwa [Continuous,State.countedUntil,hlast] at hc

theorem duration_le (hd : last.duration = GoTime.seconds (GoTime.sub last.now last.since))
    (hle : last.since ≤ last.now) : last.duration ≤ GoTime.seconds last.now - GoTime.seconds last.since := by
  rw [hd,← GoTime.seconds_sub,GoTime.seconds_le_iff]
  exact GoTime.sub_le_of_le hle

/-- In an orderly run the heartbeats of a pod, whichever of them arrive, do not bill
more than the time from its start to the last of them. -/
theorem heartbeats_do_not_overbill (h : Reachable (step c) initial (Orderly pod.key) s)
    (hlast : (s.heartbeatsOf pod).getLast? = some last) (arrives : Heartbeat → Bool) :
    s.billed arrives pod ≤ GoTime.seconds (last.now - pod.start) := by
  have hr := reachable_relay h hlast
  rw [GoTime.seconds_sub]
  refine hr.counted_le fun e he => duration_le ?_ (GoTime.seconds_le_iff.mp (hr.le_of_mem e he))
  exact (reachable_emitted h).duration e (mem_heartbeatsOf.mp he).1

/-- In an orderly run the queued heartbeats of a pod bill all the time from its start
to the last heartbeat if and only if the others covered no time, and no queued one
covered more than a duration can hold. -/
theorem heartbeats_bill_all_iff (h : Reachable (step c) initial (Orderly pod.key) s)
    (hlast : (s.heartbeatsOf pod).getLast? = some last) :
    s.billed (·.queued) pod = GoTime.seconds (last.now - pod.start) ↔
      ∀ e ∈ s.heartbeatsOf pod, if e.queued then e.now - e.since ≤ GoTime.maxDuration else e.since = e.now := by
  have hr := reachable_relay h hlast
  have hle : ∀ e ∈ s.heartbeatsOf pod, e.since ≤ e.now := fun e he =>
    GoTime.seconds_le_iff.mp (hr.le_of_mem e he)
  have hd : ∀ e ∈ s.heartbeatsOf pod, e.duration = GoTime.seconds (GoTime.sub e.now e.since) := fun e he =>
    (reachable_emitted h).duration e (mem_heartbeatsOf.mp he).1
  rw [GoTime.seconds_sub]
  refine (hr.counted_eq_iff fun e he => duration_le (hd e he) (hle e he)).trans ?_
  refine forall₂_congr fun e he => ?_
  rw [hd e he,← GoTime.seconds_sub,GoTime.seconds_inj,GoTime.seconds_inj,GoTime.sub_eq_iff (hle e he)]

end Sums

/-- The pod of a key is never deleted, and the agent does not restart. -/
def Kept (key : String) (s : State) : Label → Prop
  | .delete k => k ≠ key
  | .replace pod _ => pod.key ≠ key
  | .next => ∀ now p rest, s.tick = .loop now (p :: rest) → p.pod.key = key → s.lastFor p.pod ≤ now
  | .restart => False
  | _ => True

section Kept
variable {c : Config} {key : String} {s t : State} {l : Label}

theorem Kept.not_pending (hn : ¬ s.DeletePending key) (h : Kept key s l) (hm : Moves c s l t) :
    ¬ t.DeletePending key := by
  rintro ⟨pod,hpod,hk⟩
  refine hn ⟨pod,?_,hk⟩
  cases hm with
  | create phase hf hnone => simpa [State.create] using hpod
  | replace phase hf hsome => exact hpod
  | status k phase => exact hpod
  | delete hp =>
    rcases List.mem_append.mp hpod with hpod | hpod
    · exact hpod
    · cases List.mem_singleton.mp hpod
      exact absurd ((Table.find?_eq_some.mp hp).2.symm.trans hk) h
  | handle fill hn =>
    rw [(onNotification_frame _ fill _).2.2] at hpod
    rw [hn]
    exact List.mem_cons_of_mem _ hpod
  | list hidle hperm => exact hpod
  | listFailed => exact hpod
  | now t ht => exact hpod
  | finish ht => exact hpod
  | read ht =>
    unfold State.read at hpod
    split at hpod <;> exact hpod
  | emit fill ht => exact hpod
  | write ht => exact hpod
  | restart => exact h.elim

theorem Kept.orderly (hn : ¬ s.DeletePending key) (h : Kept key s l) : Orderly key s l := by
  cases l with
  | replace pod phase => exact fun hk => absurd hk h
  | handle fill => exact fun pod rest hp hk => absurd ⟨pod,hp ▸ List.mem_cons_self,hk⟩ hn
  | list items => exact hn
  | next => exact h
  | restart => exact h.elim
  | _ => trivial

theorem Kept.reachable (h : Reachable (step c) initial (Kept key) s) :
    Reachable (step c) initial (Orderly key) s := by
  have hboth : Reachable (step c) initial (Orderly key) s ∧ ¬ s.DeletePending key := by
    induction h with
    | start hi =>
      refine ⟨.start hi,?_⟩
      cases hi
      rintro ⟨pod,hp,-⟩
      cases hp
    | next l _ hok hst ih =>
      exact ⟨.next l ih.1 (hok.orderly ih.2) hst,hok.not_pending ih.2 (step_moves hst)⟩
  exact hboth.1

end Kept

def orderly (key : String) (s : State) : Label → Bool
  | .replace pod _ => pod.key ≠ key ||
      (s.current key).all fun p => (s.heartbeatsOf p).isEmpty && p ∉ s.tick.pods
  | .handle _ => match s.notifications with
    | .delete pod :: _ => pod.key ≠ key || s.tick.pods.all fun p => p.key ≠ key
    | _ => true
  | .list _ => s.notifications.all fun
    | .delete pod => pod.key ≠ key
    | .add _ => true
  | .next => match s.tick with
    | .loop now (p :: _) => p.pod.key ≠ key || s.lastFor p.pod ≤ now
    | _ => true
  | .restart => (s.current key).all fun p => (s.heartbeatsOf p).isEmpty
  | _ => true

theorem orderly_iff {key : String} {s : State} {l : Label} (h : orderly key s l = true) : Orderly key s l := by
  cases l with
  | replace pod phase =>
    intro hk p hp
    simpa [orderly,hk,hp] using h
  | handle fill =>
    intro pod rest hn hk
    simpa [orderly,hn,hk] using h
  | list items =>
    rintro ⟨pod,hm,hk⟩
    have := List.all_eq_true.mp h _ hm
    simp [hk] at this
  | next =>
    intro now p rest ht hk
    simpa [orderly,ht,hk] using h
  | restart =>
    intro p hp
    simpa [orderly,hp] using h
  | _ => trivial

def agent : Config := ⟨⟨"east",1,by decide⟩,"",["kube-system"]⟩

def minute (n : Int) : Int := n*60*GoTime.nanosPerSecond

def web (uid : String) (start : Int) : Pod :=
  ⟨uid,"shop","web-0","node-1",minute start,some (minute start),[⟨⟨some (1/4),some 1000,none⟩,⟨none,none,none⟩⟩],
    "Burstable",[],[],by decide⟩

/-- A tick over a cache with one pod, up to the lookup of its last heartbeat. -/
def lookUp (pod : Pod) (t : Int) : List Label := [.list [⟨pod,.running⟩],.now (minute t),.next]

def report (fill : Nat) : List Label := [.emit fill,.write,.next]

def tickAt (pod : Pod) (t : Int) (fill : Nat) : List Label := lookUp pod t ++ report fill

def orderlyRun : List Label :=
  [.create (web "1" 0) .running,.handle 0] ++ tickAt (web "1" 0) 1 0 ++ tickAt (web "1" 0) 2 0 ++
    [.delete "shop/web-0",.create (web "2" 5) .running,.handle 0,.handle 0] ++ tickAt (web "2" 5) 7 0

theorem orderly_end : ∃ s last, Reachable (step agent) initial (Orderly (web "2" 5).key) s ∧
    (s.heartbeatsOf (web "2" 5)).getLast? = some last ∧ last.now = minute 7 ∧
    ∀ e ∈ s.heartbeatsOf (web "2" 5), e.queued = true ∧ e.now - e.since ≤ GoTime.maxDuration := by
  obtain ⟨s,hs,last,hlast,hp⟩ := Reachable.exists_of_checked (step agent) initial (orderly (web "2" 5).key)
    empty orderlyRun (fun s => ∃ last, (s.heartbeatsOf (web "2" 5)).getLast? = some last ∧
      last.now = minute 7 ∧
      ∀ e ∈ s.heartbeatsOf (web "2" 5), e.queued = true ∧ e.now - e.since ≤ GoTime.maxDuration)
    (fun _ _ => orderly_iff) rfl (by decide +kernel)
  exact ⟨s,last,hs,hlast,hp⟩

theorem heartbeats_do_not_overbill_in_run : ∃ s last, Reachable (step agent) initial (Orderly (web "2" 5).key) s ∧
    (s.heartbeatsOf (web "2" 5)).getLast? = some last ∧ last.now = minute 7 ∧
    ∀ arrives, s.billed arrives (web "2" 5) ≤ GoTime.seconds (minute 7 - minute 5) := by
  obtain ⟨s,last,hs,hlast,hnow,-⟩ := orderly_end
  refine ⟨s,last,hs,hlast,hnow,fun arrives => ?_⟩
  rw [← hnow]
  exact heartbeats_do_not_overbill hs hlast arrives

theorem heartbeats_bill_all_in_run : ∃ s last, Reachable (step agent) initial (Orderly (web "2" 5).key) s ∧
    (s.heartbeatsOf (web "2" 5)).getLast? = some last ∧ last.now = minute 7 ∧
    s.billed (·.queued) (web "2" 5) = GoTime.seconds (minute 7 - minute 5) := by
  obtain ⟨s,last,hs,hlast,hnow,hall⟩ := orderly_end
  refine ⟨s,last,hs,hlast,hnow,?_⟩
  rw [← hnow]
  refine (heartbeats_bill_all_iff hs hlast).mpr fun e he => ?_
  rw [(hall e he).1]
  exact (hall e he).2

/-- A run that ends between ticks, where the time from the start of the pod to its last
heartbeat and what its heartbeats bill compare in a given way. -/
def Bills (cmp : Rat → Rat → Bool) (arrives : Heartbeat → Bool) (pod : Pod) (run : List Label) : Prop :=
  ∃ s last, runLabels (step agent) empty run = some s ∧ Reachable (step agent) initial anyStep s ∧
    s.tick = .idle ∧ (s.heartbeatsOf pod).getLast? = some last ∧ arrives last = true ∧
    cmp (GoTime.seconds (last.now - pod.start)) (s.billed arrives pod) = true

theorem bills_of_run {cmp : Rat → Rat → Bool} {arrives : Heartbeat → Bool} {pod : Pod} {run : List Label}
    (h : ∃ s, runLabels (step agent) empty run = some s ∧ s.tick = .idle ∧
      ∃ last, (s.heartbeatsOf pod).getLast? = some last ∧ arrives last = true ∧
        cmp (GoTime.seconds (last.now - pod.start)) (s.billed arrives pod) = true) :
    Bills cmp arrives pod run := by
  obtain ⟨s,hr,hidle,last,hlast,hb⟩ := h
  exact ⟨s,last,hr,.append (.start rfl) hr,hidle,hlast,hb⟩

/-- A pod that is seen by a first tick, with the notification of it handled. -/
def firstTick : List Label := [.create (web "1" 0) .running,.handle 0] ++ tickAt (web "1" 0) 1 0

def recreate : List Label := [.delete "shop/web-0",.create (web "2" 5) .running]

/-- Pods are billed too much when the agent restarts; when the handler of a deletion
runs in a tick, before or after the lookup; when it runs too late; and when a deletion
was not seen. -/
theorem heartbeats_overbill :
    Bills (· < ·) (fun _ => true) (web "1" 0) (firstTick ++ [.restart] ++ tickAt (web "1" 0) 2 0) ∧
    Bills (· < ·) (fun _ => true) (web "1" 0) (firstTick ++ [.list [⟨web "1" 0,.running⟩],.now (minute 2),
      .delete "shop/web-0",.handle 0,.next] ++ report 0) ∧
    Bills (· < ·) (fun _ => true) (web "2" 5) (firstTick ++ lookUp (web "1" 0) 2 ++
      [.delete "shop/web-0",.handle 0] ++ report 0 ++ [.create (web "2" 5) .running] ++ tickAt (web "2" 5) 6 0) ∧
    Bills (· < ·) (fun _ => true) (web "2" 5) (firstTick ++ recreate ++ tickAt (web "2" 5) 6 0) ∧
    Bills (· < ·) (fun _ => true) (web "2" 5) (firstTick ++ [.replace (web "2" 5) .running] ++
      tickAt (web "2" 5) 6 0) :=
  ⟨bills_of_run (by decide +kernel),bills_of_run (by decide +kernel),bills_of_run (by decide +kernel),
    bills_of_run (by decide +kernel),bills_of_run (by decide +kernel)⟩

/-- The heartbeat of a tick is dropped at a full channel, and the next one is queued. -/
theorem dropped_heartbeat_not_billed : Bills (· > ·) (·.queued) (web "1" 0)
    ([.create (web "1" 0) .running] ++ tickAt (web "1" 0) 1 agent.capacity ++ tickAt (web "1" 0) 2 0) :=
  bills_of_run (by decide +kernel)

end CostConsumer.Agent
