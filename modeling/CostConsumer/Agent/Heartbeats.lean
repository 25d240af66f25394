import CostConsumer.Agent.Controller
import CostConsumer.Foundation.Relay
set_option autoImplicit false

/-!
What the heartbeats of a pod add up to. The map of last heartbeats serves all pods of
one name; as long as its entry is about the incarnation that a tick looks at, the
heartbeats of the incarnation follow one another without gap or overlap.
-/

namespace CostConsumer.Agent
open Foundation

theorem takeWhile_slash {l : List Char} (r : List Char) (h : '/' ∉ l) :
    (l ++ '/' :: r).takeWhile (· ≠ '/') = l := by
  have hne : ∀ c ∈ l, decide (c ≠ '/') = true := by
    intro c hc
    rw [decide_eq_true_eq]
    rintro rfl
    exact h hc
  rw [List.takeWhile_append_of_pos hne]
  simp

theorem ns_of_key {p q : Pod} (h : p.key = q.key) : p.ns = q.ns := by
  have hlist : p.ns.toList ++ '/' :: p.name.toList = q.ns.toList ++ '/' :: q.name.toList := by
    simpa [Pod.key] using congrArg String.toList h
  have hns : p.ns.toList = q.ns.toList := by
    rw [← takeWhile_slash p.name.toList p.slash,hlist,takeWhile_slash q.name.toList q.slash]
  exact String.toList_inj.mp hns

def Tick.pods : Tick → List Pod
  | .idle => []
  | .listed items => items.map (·.pod)
  | .loop _ items => items.map (·.pod)
  | .emit _ pod _ rest => pod :: rest.map (·.pod)
  | .write _ pod rest => pod :: rest.map (·.pod)

namespace State

def heartbeatsOf (s : State) (pod : Pod) : List Heartbeat := s.heartbeats.filter (·.pod = pod)

def countedUntil (s : State) (pod : Pod) : Option Int := (s.heartbeatsOf pod).getLast?.map (·.now)

def current (s : State) (key : String) : Option Pod := (s.cache.find? key).map (·.pod)

def DeletePending (s : State) (key : String) : Prop := ∃ pod, .delete pod ∈ s.notifications ∧ pod.key = key

/-- The entry of the map once the tick has written the heartbeat it has emitted. -/
def entry (s : State) (key : String) : Option Int := match s.tick with
  | .write now pod _ => if pod.key = key then some now else s.lastHeartbeat key
  | _ => s.lastHeartbeat key

theorem key_of_current {s : State} {key : String} {pod : Pod} (h : s.current key = some pod) :
    pod.key = key := by
  obtain ⟨p,hp,rfl⟩ := Option.map_eq_some_iff.mp h
  exact (Table.find?_eq_some.mp hp).2

theorem countedUntil_of_nil {s : State} {pod : Pod} (h : s.heartbeatsOf pod = []) :
    s.countedUntil pod = none := by
  rw [countedUntil,h]
  rfl

end State

/-- What has to hold at the steps that concern a key. The handler of a deletion runs
between the ticks that hold a pod of the key; a tick only starts when no such handler
is due; a pod that is replaced unnoticed, or that is in the cache at a restart, has
had no heartbeat; and the clock has not been set back. -/
def Orderly (key : String) (s : State) : Label → Prop
  | .replace pod _ => pod.key = key → ∀ p, s.current key = some p → s.heartbeatsOf p = [] ∧ p ∉ s.tick.pods
  | .handle _ => ∀ pod rest, s.notifications = .delete pod :: rest → pod.key = key →
      ∀ p ∈ s.tick.pods, p.key ≠ key
  | .list _ => ¬ s.DeletePending key
  | .next => ∀ now p rest, s.tick = .loop now (p :: rest) → p.pod.key = key → s.lastFor p.pod ≤ now
  | .restart => ∀ p, s.current key = some p → s.heartbeatsOf p = []
  | _ => True

def Continuous (s : State) (pod : Pod) : Prop :=
  Relay (fun h => GoTime.seconds h.since) (fun h => GoTime.seconds h.now) (GoTime.seconds pod.start)
    (s.heartbeatsOf pod) (GoTime.seconds ((s.countedUntil pod).getD pod.start))

/-- All pods the agent has to do with exist or have existed. -/
structure Known (s : State) : Prop where
  heartbeats : ∀ h ∈ s.heartbeats, h.pod ∈ s.created
  held : ∀ p ∈ s.tick.pods, p ∈ s.created
  cached : ∀ p ∈ s.cache.rows, p.pod ∈ s.created

/-- The entry under a key is about the pod that the tick will look it up for. -/
structure Invariant (key : String) (s : State) : Prop where
  known : Known s
  distinct : (s.tick.pods.map Pod.key).Nodup
  held : ∀ p ∈ s.tick.pods, p.key = key →
    s.entry key = s.countedUntil p ∧ (s.current key = some p ∨ s.DeletePending key)
  due : s.DeletePending key → ∀ p, s.current key = some p → s.heartbeatsOf p = [] ∧ p ∉ s.tick.pods
  settled : ¬ s.DeletePending key → s.entry key = (s.current key).bind s.countedUntil
  inHand : ∀ now p last rest, s.tick = .emit now p last rest → p.key = key →
    last = (s.countedUntil p).getD p.start ∧ last ≤ now
  continuous : ∀ p, p.key = key → Continuous s p

section Steps
variable {c : Config} {key : String} {s : State}

theorem Invariant.initial (h : initial s) : Invariant key s := by
  cases h
  refine ⟨⟨?_,?_,?_⟩,.nil,?_,?_,?_,?_,fun p _ => rfl⟩
  · exact fun h hh => nomatch hh
  · exact fun p hp => nomatch hp
  · exact fun p hp => nomatch hp
  · exact fun p hp => nomatch hp
  · rintro ⟨pod,hp,-⟩
    cases hp
  · exact fun _ => rfl
  · exact fun now p last rest h => nomatch h

theorem Known.unborn (h : Known s) {pod : Pod} (hf : s.fresh pod = true) :
    s.heartbeatsOf pod = [] ∧ pod ∉ s.tick.pods := by
  have hnew : pod ∉ s.created := by
    intro hm
    have := List.all_eq_true.mp hf pod hm
    simp at this
  refine ⟨List.filter_eq_nil_iff.mpr fun hb hhb he => ?_,fun hp => hnew (h.held pod hp)⟩
  exact hnew (of_decide_eq_true he ▸ h.heartbeats hb hhb)

theorem Invariant.admit (h : Invariant key s) {pod : Pod} (phase : PodPhase) (hf : s.fresh pod = true)
    {cache : Table String CachedPod (·.pod.key)} {notifications : List Notification}
    (hcache : ∀ p ∈ cache.rows, p = ⟨pod,phase⟩ ∨ p ∈ s.cache.rows)
    (hfind : ∀ k, cache.find? k = if pod.key = k then some ⟨pod,phase⟩ else s.cache.find? k)
    (hn : ∀ p, .delete p ∈ notifications ↔ .delete p ∈ s.notifications)
    (hclear : pod.key = key → ∀ p, s.current key = some p → s.heartbeatsOf p = [] ∧ p ∉ s.tick.pods) :
    Invariant key { s with cache, created := s.created ++ [pod], notifications } := by
  obtain ⟨hnone,hout⟩ := h.known.unborn hf
  have hpending : (State.DeletePending { s with cache, created := s.created ++ [pod], notifications } key) ↔
      s.DeletePending key := by
    simp only [State.DeletePending,hn]
  have hcur : State.current { s with cache, created := s.created ++ [pod], notifications } key =
      if pod.key = key then some pod else s.current key := by
    simp only [State.current,hfind]
    split <;> rfl
  refine ⟨⟨?_,?_,?_⟩,h.distinct,?_,?_,?_,h.inHand,h.continuous⟩
  · exact fun hb hhb => List.mem_append_left _ (h.known.heartbeats hb hhb)
  · exact fun p hp => List.mem_append_left _ (h.known.held p hp)
  · intro p hp
    rcases hcache p hp with rfl | hp
    · exact List.mem_append_right _ (List.mem_singleton_self _)
    · exact List.mem_append_left _ (h.known.cached p hp)
  · intro p hp hk
    obtain ⟨he,hor⟩ := h.held p hp hk
    refine ⟨he,?_⟩
    rw [hcur,hpending]
    split
    · rename_i hkey
      rcases hor with hcp | hd
      · exact absurd hp (hclear hkey p hcp).2
      · exact .inr hd
    · exact hor
  · intro hd p hp
    rw [hpending] at hd
    rw [hcur] at hp
    split at hp
    · cases hp
      exact ⟨hnone,hout⟩
    · exact h.due hd p hp
  · intro hd
    rw [hpending] at hd
    rw [hcur]
    have hs := h.settled hd
    split
    · rename_i hkey
      change s.entry key = s.countedUntil pod
      rw [State.countedUntil_of_nil hnone,hs]
      cases hc : s.current key with
      | none => rfl
      | some p => exact State.countedUntil_of_nil (hclear hkey p hc).1
    · exact hs

theorem Invariant.create (h : Invariant key s) {pod : Pod} (phase : PodPhase) (hf : s.fresh pod = true)
    (hnone : s.cache.find? pod.key = none) : Invariant key (s.create pod phase) := by
  have hfresh : ∀ p ∈ s.cache.rows, p.pod.key ≠ pod.key := Table.find?_eq_none.mp hnone
  refine h.admit phase hf (fun p hp => ?_) (Table.find?_insert (r := CachedPod.mk pod phase) hnone) (fun p => ?_)
    fun hk p hp => ?_
  · exact (Table.mem_insert (r := CachedPod.mk pod phase) hfresh).mp hp
  · simp
  · rw [State.current,← hk,hnone] at hp
    cases hp

theorem Invariant.replace (h : Invariant key s) {pod : Pod} {phase : PodPhase} (hf : s.fresh pod = true)
    (hok : Orderly key s (.replace pod phase)) : Invariant key (s.replace pod phase) := by
  have hnone : (s.cache.erase pod.key).find? pod.key = none := by
    rw [Table.find?_erase,if_pos rfl]
  have hfresh : ∀ p ∈ (s.cache.erase pod.key).rows, p.pod.key ≠ pod.key := Table.find?_eq_none.mp hnone
  refine h.admit phase hf (fun p hp => ?_) (fun k => ?_) (fun p => Iff.rfl) hok
  · rcases (Table.mem_insert (r := CachedPod.mk pod phase) hfresh).mp hp with hp | hp
    · exact .inl hp
    · exact .inr (Table.mem_erase.mp hp).1
  · rw [Table.find?_insert (r := CachedPod.mk pod phase) hnone,Table.find?_erase]
    split <;> rfl

theorem Invariant.status (h : Invariant key s) (k : String) (phase : PodPhase) :
    Invariant key (s.status k phase) := by
  have hcur : (s.status k phase).current key = s.current key := by
    rw [State.current,State.status,Table.updateWhere,Table.find?_update,Option.map_map,State.current]
    congr 1
    funext p
    simp only [Function.comp_apply]
    split <;> rfl
  refine ⟨⟨h.known.heartbeats,h.known.held,fun p hp => ?_⟩,h.distinct,?_,?_,?_,h.inHand,h.continuous⟩
  · obtain ⟨q,hq,-,rfl⟩ := Table.mem_updateWhere (f := fun p : CachedPod => { p with phase }) (fun _ => rfl) hp
    split <;> exact h.known.cached q hq
  · rw [hcur]
    exact h.held
  · rw [hcur]
    exact h.due
  · rw [hcur]
    exact h.settled

theorem Invariant.delete (h : Invariant key s) {k : String} {p : CachedPod} (hp : s.cache.find? k = some p) :
    Invariant key (s.delete p.pod) := by
  have hk : p.pod.key = k := (Table.find?_eq_some.mp hp).2
  have hcur : (s.delete p.pod).current key = if p.pod.key = key then none else s.current key := by
    rw [State.current,State.delete,Table.find?_erase,State.current]
    split <;> rfl
  have hpending : (s.delete p.pod).DeletePending key ↔ p.pod.key = key ∨ s.DeletePending key := by
    simp only [State.DeletePending,State.delete,List.mem_append,List.mem_singleton,Notification.delete.injEq]
    constructor
    · rintro ⟨pod,hm | rfl,hpod⟩
      · exact .inr ⟨pod,hm,hpod⟩
      · exact .inl hpod
    · rintro (hpod | ⟨pod,hm,hpod⟩)
      · exact ⟨p.pod,.inr rfl,hpod⟩
      · exact ⟨pod,.inl hm,hpod⟩
  refine ⟨⟨h.known.heartbeats,h.known.held,fun q hq => h.known.cached q (Table.mem_erase.mp hq).1⟩,
    h.distinct,?_,?_,?_,h.inHand,h.continuous⟩
  · intro q hq hkey
    obtain ⟨he,hor⟩ := h.held q hq hkey
    refine ⟨he,?_⟩
    rw [hcur,hpending]
    split
    · rename_i hkey'
      exact .inr (.inl hkey')
    · exact hor.imp_right .inr
  · intro hd q hq
    rw [hcur] at hq
    split at hq
    · cases hq
    · rename_i hne
      exact h.due ((hpending.mp hd).resolve_left hne) q hq
  · intro hd
    rw [hpending,not_or] at hd
    rw [hcur,if_neg hd.1]
    exact h.settled hd.2

theorem Invariant.notified (h : Invariant key s) {notifications : List Notification}
    {lastHeartbeat : String → Option Int} {lifecycle : List (Emission LifecycleData)}
    (hn : ∀ p : Pod, p.key = key → (.delete p ∈ notifications ↔ .delete p ∈ s.notifications))
    (hl : lastHeartbeat key = s.lastHeartbeat key) :
    Invariant key { s with notifications, lastHeartbeat, lifecycle } := by
  have hpending : State.DeletePending { s with notifications, lastHeartbeat, lifecycle } key ↔
      s.DeletePending key := by
    constructor
    · rintro ⟨p,hp,hk⟩
      exact ⟨p,(hn p hk).mp hp,hk⟩
    · rintro ⟨p,hp,hk⟩
      exact ⟨p,(hn p hk).mpr hp,hk⟩
  have hentry : State.entry { s with notifications, lastHeartbeat, lifecycle } key = s.entry key := by
    simp only [State.entry,hl]
  refine ⟨⟨h.known.heartbeats,h.known.held,h.known.cached⟩,h.distinct,?_,?_,?_,h.inHand,h.continuous⟩
  · intro p hp hk
    rw [hentry,hpending]
    exact h.held p hp hk
  · rw [hpending]
    exact h.due
  · rw [hpending,hentry]
    exact h.settled

theorem Invariant.deleted (h : Invariant key s) {pod : Pod} {rest : List Notification}
    (hn : s.notifications = .delete pod :: rest) (hk : pod.key = key)
    (hno : ∀ p ∈ s.tick.pods, p.key ≠ key) (lifecycle : List (Emission LifecycleData)) :
    Invariant key { s with
      notifications := rest, lastHeartbeat := Function.update s.lastHeartbeat key none, lifecycle } := by
  have hdue := h.due ⟨pod,hn ▸ List.mem_cons_self,hk⟩
  have hentry : State.entry { s with
      notifications := rest, lastHeartbeat := Function.update s.lastHeartbeat key none, lifecycle } key =
      none := by
    unfold State.entry
    split
    · rename_i now p items htick
      rw [if_neg (hno p (by rw [show s.tick = .write now p items from htick]; exact List.mem_cons_self))]
      exact Function.update_self key none s.lastHeartbeat
    · exact Function.update_self key none s.lastHeartbeat
  refine ⟨⟨h.known.heartbeats,h.known.held,h.known.cached⟩,h.distinct,fun p hp hpk => absurd hpk (hno p hp),
    fun _ => hdue,fun _ => ?_,h.inHand,h.continuous⟩
  rw [hentry]
  change none = (s.current key).bind s.countedUntil
  cases hc : s.current key with
  | none => rfl
  | some p => exact (State.countedUntil_of_nil (hdue p hc).1).symm

theorem Invariant.handle (hkey : ∀ p : Pod, p.key = key → shouldExclude c p.ns = false)
    (h : Invariant key s) {n : Notification} {rest : List Notification} (hn : s.notifications = n :: rest)
    {fill : Nat} (hok : Orderly key s (.handle fill)) :
    Invariant key ({ s with notifications := rest }.onNotification c fill n) := by
  cases n with
  | add pod =>
    have hiff : ∀ p : Pod, p.key = key → (.delete p ∈ rest ↔ .delete p ∈ s.notifications) := by
      simp [hn]
    rw [State.onNotification,State.onPodAdd]
    split
    · exact h.notified hiff rfl
    · exact h.notified hiff rfl
  | delete pod =>
    rw [State.onNotification,State.onPodDelete]
    by_cases hk : pod.key = key
    · rw [if_neg (by rw [hkey pod hk]; exact Bool.false_ne_true)]
      have hd := h.deleted hn hk (hok pod rest hn hk)
      rw [← hk] at hd ⊢
      exact hd _
    · have hiff : ∀ p : Pod, p.key = key → (.delete p ∈ rest ↔ .delete p ∈ s.notifications) := by
        intro p hp
        rw [hn,List.mem_cons,Notification.delete.injEq]
        constructor
        · exact .inr
        · rintro (rfl | hm)
          · exact absurd hp hk
          · exact hm
      split
      · exact h.notified hiff rfl
      · exact h.notified hiff (Function.update_of_ne (Ne.symm hk) _ _)

theorem Invariant.list (h : Invariant key s) {items : List CachedPod} (hidle : s.tick = .idle)
    (hperm : items.Perm s.cache.rows) (hok : Orderly key s (.list items)) :
    Invariant key (s.goto (.listed items)) := by
  have hentry : (s.goto (.listed items)).entry key = s.entry key := by
    rw [State.entry,State.entry,hidle]
    rfl
  have hs := h.settled hok
  refine ⟨⟨h.known.heartbeats,fun p hp => ?_,h.known.cached⟩,?_,fun p hp hk => ?_,fun hd => absurd hd hok,
    fun _ => ?_,fun now p last rest ht => ?_,h.continuous⟩
  · obtain ⟨q,hq,rfl⟩ := List.mem_map.mp hp
    exact h.known.cached q (hperm.mem_iff.mp hq)
  · change ((items.map (·.pod)).map Pod.key).Nodup
    rw [List.map_map,(hperm.map _).nodup_iff]
    exact s.cache.keys_nodup
  · obtain ⟨q,hq,rfl⟩ := List.mem_map.mp hp
    have hcur : s.current key = some q.pod := by
      rw [State.current,Table.find?_eq_some.mpr ⟨hperm.mem_iff.mp hq,hk⟩]
      rfl
    rw [hcur] at hs
    exact ⟨hentry.trans hs,.inl hcur⟩
  · exact hentry.trans hs
  · cases ht

theorem Invariant.goOn (h : Invariant key s) {tick : Tick} {lastHeartbeat : String → Option Int}
    (hsub : tick.pods.Sublist s.tick.pods)
    (hentry : State.entry { s with tick, lastHeartbeat } key = s.entry key)
    (hhand : ∀ now p last rest, tick = .emit now p last rest → p.key = key →
      last = (s.countedUntil p).getD p.start ∧ last ≤ now) :
    Invariant key { s with tick, lastHeartbeat } := by
  refine ⟨⟨h.known.heartbeats,fun p hp => h.known.held p (hsub.subset hp),h.known.cached⟩,
    h.distinct.sublist (hsub.map _),fun p hp hk => ?_,fun hd p hp => ?_,fun hd => ?_,hhand,h.continuous⟩
  · rw [hentry]
    exact h.held p (hsub.subset hp) hk
  · obtain ⟨hnone,hout⟩ := h.due hd p hp
    exact ⟨hnone,fun hm => hout (hsub.subset hm)⟩
  · rw [hentry]
    exact h.settled hd

theorem Invariant.read (h : Invariant key s) {now : Int} {p : CachedPod} {rest : List CachedPod}
    (ht : s.tick = .loop now (p :: rest)) (hok : Orderly key s .next) : Invariant key (s.read c now p rest) := by
  unfold State.read
  split
  · refine h.goOn ?_ ?_ fun now p last rest ht => nomatch ht
    · rw [ht]
      exact List.sublist_cons_self _ _
    · rw [State.entry,State.entry,ht]
  · have hentry : s.entry key = s.lastHeartbeat key := by rw [State.entry,ht]
    refine h.goOn ?_ ?_ fun now' p' last rest' htick hk => ?_
    · rw [ht]
      exact .refl _
    · rw [hentry]
      rfl
    · cases htick
      obtain ⟨he,-⟩ := h.held p.pod (by rw [ht]; exact List.mem_cons_self) hk
      refine ⟨?_,hok now p rest ht hk⟩
      rw [State.lastFor,hk,← he,hentry]

section Emit
variable {now last : Int} {pod : Pod} {rest : List CachedPod} {fill : Nat}

theorem heartbeatsOf_emit (q : Pod) :
    (s.emitHeartbeat c fill now pod last rest).heartbeatsOf q =
      if pod = q then s.heartbeatsOf q ++ [⟨pod,last,now,
        emit c fill "kube.pod.heartbeat" pod.key (heartbeatData c pod now last)⟩]
      else s.heartbeatsOf q := by
  rw [State.heartbeatsOf,State.emitHeartbeat,List.filter_append,State.heartbeatsOf]
  by_cases hq : pod = q
  · simp [hq]
  · simp [hq]

theorem countedUntil_emit (q : Pod) :
    (s.emitHeartbeat c fill now pod last rest).countedUntil q =
      if pod = q then some now else s.countedUntil q := by
  rw [State.countedUntil,heartbeatsOf_emit,State.countedUntil]
  split
  · simp
  · rfl

theorem entry_emit (ht : s.tick = .emit now pod last rest) :
    (s.emitHeartbeat c fill now pod last rest).entry key =
      if pod.key = key then some now else s.entry key := by
  have hentry : s.entry key = s.lastHeartbeat key := by rw [State.entry,ht]
  rw [hentry]
  rfl

theorem Continuous.emit (h : Continuous s pod) (hlast : last = (s.countedUntil pod).getD pod.start)
    (hle : last ≤ now) : Continuous (s.emitHeartbeat c fill now pod last rest) pod := by
  unfold Continuous
  rw [heartbeatsOf_emit,countedUntil_emit,if_pos rfl,if_pos rfl]
  refine Relay.snoc h ?_ (GoTime.seconds_le_iff.mpr hle)
  rw [hlast]

theorem Continuous.emit_other {q : Pod} (h : Continuous s q) (hne : pod ≠ q) :
    Continuous (s.emitHeartbeat c fill now pod last rest) q := by
  unfold Continuous
  rw [heartbeatsOf_emit,countedUntil_emit,if_neg hne,if_neg hne]
  exact h

theorem Invariant.emit (h : Invariant key s) (ht : s.tick = .emit now pod last rest) :
    Invariant key (s.emitHeartbeat c fill now pod last rest) := by
  have hpods : s.tick.pods = pod :: rest.map (·.pod) := by rw [ht]; rfl
  have hpod : pod ∈ s.tick.pods := by rw [hpods]; exact List.mem_cons_self
  -- another pod of the key is not the one in hand
  have hsame : ∀ q ∈ s.tick.pods, q.key = pod.key → q = pod := fun q hq hk =>
    List.inj_on_of_nodup_map h.distinct hq hpod hk
  refine ⟨⟨?_,?_,h.known.cached⟩,?_,?_,?_,?_,?_,?_⟩
  · intro hb hhb
    rcases List.mem_append.mp hhb with hhb | hhb
    · exact h.known.heartbeats hb hhb
    · rw [List.mem_singleton.mp hhb]
      exact h.known.held pod hpod
  · intro p hp
    exact h.known.held p (hpods ▸ hp)
  · have := h.distinct
    rw [hpods] at this
    exact this
  · intro q hq hk
    obtain ⟨he,hor⟩ := h.held q (hpods ▸ hq) hk
    refine ⟨?_,hor⟩
    rw [entry_emit ht,countedUntil_emit]
    by_cases hp : pod.key = key
    · rw [if_pos hp,if_pos (hsame q (hpods ▸ hq) (hk.trans hp.symm)).symm]
    · have hne : pod ≠ q := by
        rintro rfl
        exact hp hk
      rw [if_neg hp,if_neg hne,he]
  · intro hd q hq
    obtain ⟨hnone,hout⟩ := h.due hd q hq
    have hne : pod ≠ q := by
      rintro rfl
      exact hout hpod
    rw [heartbeatsOf_emit,if_neg hne]
    refine ⟨hnone,?_⟩
    rw [hpods] at hout
    exact hout
  · intro hd
    rw [entry_emit ht]
    change _ = (s.current key).bind _
    by_cases hp : pod.key = key
    · obtain ⟨-,hor⟩ := h.held pod hpod hp
      rw [if_pos hp,hor.resolve_right hd,Option.bind_some,countedUntil_emit,if_pos rfl]
    · rw [if_neg hp,h.settled hd]
      cases hc : s.current key with
      | none => rfl
      | some q =>
        rw [Option.bind_some,Option.bind_some,countedUntil_emit,if_neg]
        exact fun he => hp (he ▸ State.key_of_current hc)
  · intro now' p last' rest' htick
    cases htick
  · intro q hk
    by_cases hq : pod = q
    · subst hq
      obtain ⟨hlast,hle⟩ := h.inHand now pod last rest ht hk
      exact (h.continuous pod hk).emit hlast hle
    · exact (h.continuous q hk).emit_other hq

end Emit

theorem Invariant.write (h : Invariant key s) {now : Int} {pod : Pod} {rest : List CachedPod}
    (ht : s.tick = .write now pod rest) : Invariant key (s.writeLast now pod rest) := by
  refine h.goOn ?_ ?_ fun now' p last rest' htick => ?_
  · rw [ht]
    exact List.sublist_cons_self _ _
  · rw [State.entry,State.entry,ht]
    change Function.update s.lastHeartbeat pod.key (some now) key = if pod.key = key then _ else _
    rw [Function.update_apply]
    exact if_congr eq_comm rfl rfl
  · cases htick

theorem Invariant.restart (h : Invariant key s) (hok : Orderly key s .restart) : Invariant key s.restart := by
  have hno : ¬ s.restart.DeletePending key := by
    rintro ⟨pod,hp,-⟩
    obtain ⟨q,-,hq⟩ := List.mem_map.mp hp
    cases hq
  refine ⟨⟨h.known.heartbeats,?_,h.known.cached⟩,.nil,?_,fun hd => absurd hd hno,fun _ => ?_,?_,h.continuous⟩
  · exact fun p hp => nomatch hp
  · exact fun p hp => nomatch hp
  · change none = (s.current key).bind s.countedUntil
    cases hc : s.current key with
    | none => rfl
    | some p => exact (State.countedUntil_of_nil (hok p hc)).symm
  · exact fun now p last rest ht => nomatch ht

theorem Invariant.moves (hkey : ∀ p : Pod, p.key = key → shouldExclude c p.ns = false) {t : State}
    {l : Label} (h : Invariant key s) (hok : Orderly key s l) (hm : Moves c s l t) : Invariant key t := by
  cases hm with
  | create phase hf hnone => exact h.create phase hf hnone
  | replace phase hf hsome => exact h.replace hf hok
  | status k phase => exact h.status k phase
  | delete hp => exact h.delete hp
  | handle fill hn => exact h.handle hkey hn hok
  | list hidle hperm => exact h.list hidle hperm hok
  | listFailed => exact h
  | now t ht =>
    refine h.goOn ?_ ?_ fun now p last rest htick => ?_
    · rw [ht]
      exact .refl _
    · rw [State.entry,State.entry,ht]
    · cases htick
  | finish ht =>
    refine h.goOn (List.nil_sublist _) ?_ fun now p last rest htick => ?_
    · rw [State.entry,State.entry,ht]
    · cases htick
  | read ht => exact h.read ht hok
  | emit fill ht => exact h.emit ht
  | write ht => exact h.write ht
  | restart => exact h.restart hok

end Steps

end CostConsumer.Agent
