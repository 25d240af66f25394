import CostConsumer.Foundation.Float64
import CostConsumer.Metering.Coverage
import Mathlib.Algebra.Field.Basic
import Mathlib.Tactic.Ring
set_option autoImplicit false

namespace CostConsumer.Metering
open Inventory Foundation

/-- Whole microseconds below this duration are the same number of seconds in `float64`, once
they are stored with six decimals. -/
def exactDuration : Int := 2^32*GoTime.nanosPerSecond

/-- What the column gets of the `float64` number of seconds of an interval. -/
def storedSeconds (start stop : Int) : Rat :=
  Numeric.stored 6 (Float64.decimal (Float64.seconds (GoTime.sub stop start)))

/-- An entry of an interval has its exact length, which is also what `float64` makes of it. -/
structure ExactEntry (e : MeteringEntry) : Prop where
  value : e.value = GoTime.seconds e.periodEnd - GoTime.seconds e.periodStart
  float : e.value = storedSeconds e.periodStart e.periodEnd

theorem exactEntry_of_stored {e : MeteringEntry} {start stop : Int} (h₁ : 1000 ∣ start) (h₂ : 1000 ∣ stop)
    (hle : start ≤ stop) (hmax : stop - start < exactDuration)
    (hv : e.value = Numeric.stored 6 (GoTime.seconds (GoTime.sub stop start)))
    (hes : e.periodStart = start) (hee : e.periodEnd = stop) : ExactEntry e := by
  have hsub : GoTime.sub stop start = stop - start := GoTime.sub_of_le hle (hmax.le.trans (by decide))
  have hwhole : (stop - start) % 1000 = 0 := Int.emod_eq_zero_of_dvd (Int.dvd_sub h₂ h₁)
  have hfloat : storedSeconds start stop = GoTime.seconds stop - GoTime.seconds start := by
    rw [storedSeconds,hsub,Float64.stored_seconds (Int.sub_nonneg_of_le hle) hwhole hmax,GoTime.seconds_sub]
  have hexact : e.value = GoTime.seconds stop - GoTime.seconds start := by
    rw [hv,hsub,← GoTime.seconds_sub]
    obtain ⟨n,hn⟩ := Int.dvd_sub h₂ h₁
    apply Numeric.stored_of_scaled (n := n)
    rw [hn,GoTime.seconds,GoTime.nanosPerSecond]
    push_cast
    ring
  subst hes hee
  exact ⟨hexact,hexact.trans hfloat.symm⟩

def Phase.now? : Phase → Option Int
  | .idle => none
  | .list _ now => some now
  | .pass _ now _ _ => some now
  | .stored _ now _ _ _ _ => some now

theorem now_after {k : Kind} {now t : Int} (h : (after k now).now? = some t) : t = now := by
  cases k <;> simp_all [after,Phase.now?]

theorem now_resume {k : Kind} {now t : Int} {types : InstanceTypes} {todo : List k.Record}
    (h : (resume k now types todo).now? = some t) : t = now := by
  cases todo with
  | nil => exact now_after h
  | cons r todo => simpa [resume,Phase.now?,eq_comm] using h

/-- A step of a run in which the times of a resource are whole microseconds and no
interval of it is too long for `float64`. -/
def exactTimes (k : Kind) (id : String) (s : State) (l : Label) : Bool :=
  paired k id s l &&
    match l, s.phase with
    | .upsert k' r _, _ => (k' = k ∧ k'.id r = id) → k'.createdAt r % 1000 = 0
    | .sweep now, _ => now % 1000 = 0
    | .meter _, .pass k' now _ (r :: _) =>
      (k' = k ∧ k'.id r = id) → now - periodStart k' r < exactDuration
    | _, _ => true

section Resource
variable {k : Kind} {id : String} {s t : State} {l : Label}

structure Exact (k : Kind) (id : String) (s : State) : Prop where
  rows : ∀ r ∈ (s.store.table k).rows, k.id r = id → 1000 ∣ k.createdAt r ∧ 1000 ∣ periodStart k r
  now : ∀ t, s.phase.now? = some t → 1000 ∣ t
  values : ∀ e ∈ uptime k id s.store, ExactEntry e

theorem Exact.frame (h : Exact k id s) (hu : uptime k id t.store = uptime k id s.store)
    (hn : ∀ u, t.phase.now? = some u → s.phase.now? = some u)
    (hr : ∀ b ∈ (t.store.table k).rows, ∃ a ∈ (s.store.table k).rows, SameTimes k b a) :
    Exact k id t := by
  refine ⟨fun b hb hid => ?_,fun u hu => h.now u (hn u hu),by rw [hu]; exact h.values⟩
  obtain ⟨a,ha,hs⟩ := hr b hb
  rw [hs.2.1,periodStart_of_same hs]
  exact h.rows a ha (hs.1.symm.trans hid)

theorem Exact.goto (h : Exact k id s) {p : Phase}
    (hn : ∀ u, p.now? = some u → s.phase.now? = some u) : Exact k id (s.goto p) :=
  h.frame rfl hn (fun b hb => ⟨b,hb,.refl _ b⟩)

theorem Exact.upsert (h : Exact k id s) {k' : Kind} {r : k'.Record} (now : Int)
    (hd : k' = k ∧ k'.id r = id → k'.createdAt r % 1000 = 0) :
    Exact k id (s.withStore (s.store.upsert k' now r)) := by
  refine ⟨fun b hb hid => ?_,h.now,?_⟩
  · rcases Store.mem_upsert hb with ⟨a,ha,hs⟩ | ⟨⟨hk,hrb⟩,hnone,hcreated,-⟩
    · rw [hs.2.1,periodStart_of_same hs]
      exact h.rows a ha (hs.1.symm.trans hid)
    · have hdvd : 1000 ∣ k.createdAt b := by
        rw [hcreated]
        exact Int.dvd_of_emod_eq_zero (hd ⟨hk,hrb.trans hid⟩)
      exact ⟨hdvd,by rwa [periodStart,hnone]⟩
  · simp only [State.withStore,uptime,Store.upsert,Store.entries_setTable]
    exact h.values

theorem Exact.meter (hc : Consistent s) (h : Exact k id s) {k' : Kind} {now : Int}
    {types : InstanceTypes} {r : k'.Record} {todo : List k'.Record} {failed : Bool}
    (hp : s.phase = .pass k' now types (r :: todo)) (hn : periodStart k' r < now)
    (hmax : k' = k ∧ k'.id r = id → now - periodStart k' r < exactDuration)
    (ht : t.store = s.store.addMetering s.nextID (s.entriesUntil k' r types failed now).1)
    (hph : t.phase = .stored k' now types r todo true) : Exact k id t := by
  obtain ⟨e,⟨hv,hes,hee⟩,hu⟩ := uptime_meter hc r types failed now
  have hnow : 1000 ∣ now := h.now now (by rw [hp]; rfl)
  refine ⟨fun b hb => ?_,fun u hu' => ?_,fun d hd => ?_⟩
  · rw [ht,table_addMetering] at hb
    exact h.rows b hb
  · rw [hph] at hu'
    cases hu'
    exact hnow
  · rw [ht,hu] at hd
    rcases List.mem_append.mp hd with hd | hd
    · exact h.values d hd
    · split at hd
      · rename_i hk
        have hde := List.mem_singleton.mp hd
        obtain ⟨rfl,rfl⟩ := hk
        -- the interval starts at the checkpoint of the row
        have hl := hc.listed
        rw [hp] at hl
        obtain ⟨row,hrow,hsame⟩ := hl.2 r List.mem_cons_self
        have hstart := (h.rows row hrow hsame.1).2
        rw [periodStart_of_same hsame] at hstart
        rw [hde]
        exact exactEntry_of_stored hstart hnow hn.le (hmax ⟨rfl,rfl⟩) hv hes hee
      · cases hd

theorem Exact.update (h : Exact k id s) {k' : Kind} {now : Int} {types : InstanceTypes}
    {r : k'.Record} {todo : List k'.Record} {ok : Bool}
    (hp : s.phase = .stored k' now types r todo ok) :
    Exact k id ((s.goto (resume k' now types todo)).withStore
      (s.store.updateLastMetered k' (k'.id r) now)) := by
  have hnow : 1000 ∣ now := h.now now (by rw [hp]; rfl)
  refine ⟨fun b hb hid => ?_,fun u hu => ?_,?_⟩
  · obtain ⟨a,ha,rfl⟩ := Store.mem_updateLastMetered.mp hb
    by_cases hk : k = k' ∧ k.id a = k'.id r
    · rw [if_pos hk] at hid ⊢
      rw [Kind.id_setMetered] at hid
      simp only [Kind.createdAt_setMetered,periodStart,Kind.lastMeteredAt_setMetered,
        Option.getD_some]
      exact ⟨(h.rows a ha hid).1,hnow⟩
    · rw [if_neg hk] at hid ⊢
      exact h.rows a ha hid
  · rw [now_resume hu]
    exact hnow
  · simp only [State.withStore,State.goto,uptime,Store.updateLastMetered,Store.entries_setTable]
    exact h.values

theorem Exact.final {k' : Kind} {id' : String} {d : Int} (hc : Consistent s) (h : Exact k id s)
    (hne : ¬ (k' = k ∧ id' = id)) (hf : Final s k' id' d t) : Exact k id t := by
  cases hf with
  | none nextID cache hn => exact ⟨h.rows,h.now,h.values⟩
  | stored types failed hr hid =>
    exact h.frame (uptime_final hc hne types failed hid) (fun _ hu => hu)
      (fun b hb => ⟨b,by rwa [table_addMetering] at hb,.refl _ b⟩)

theorem Exact.step (hc : Consistent s) (h : Exact k id s) (hok : exactTimes k id s l = true)
    (hm : Moves s l t) : Exact k id t := by
  unfold exactTimes at hok
  obtain ⟨hpair,hok⟩ := Bool.and_eq_true_iff.mp hok
  cases hm with
  | upsert k' r now => exact h.upsert now (of_decide_eq_true hok)
  | upsertInstanceType r now =>
    exact h.frame rfl (fun _ hu => hu) (fun b hb => ⟨b,by cases k <;> exact hb,.refl k b⟩)
  | upsertProject r now =>
    exact h.frame rfl (fun _ hu => hu) (fun b hb => ⟨b,by cases k <;> exact hb,.refl k b⟩)
  | sweep now hp =>
    refine ⟨h.rows,fun u hu => ?_,h.values⟩
    cases hu
    exact Int.dvd_of_emod_eq_zero (of_decide_eq_true hok)
  | listFails typesFailed hp => exact h.goto (fun u hu => by rw [hp,now_after hu]; rfl)
  | list typesFailed hp => exact h.goto (fun u hu => by rw [hp,now_resume hu]; rfl)
  | skip f hp hn => exact h.goto (fun u hu => by rw [hp,now_resume hu]; rfl)
  | meterFails f hp hn =>
    exact h.frame rfl (fun u hu => by rw [hp]; exact hu) (fun b hb => ⟨b,hb,.refl _ b⟩)
  | meter f hp hn =>
    simp only [hp] at hok
    exact h.meter hc hp hn (of_decide_eq_true hok) rfl rfl
  | updateFails hp => exact h.goto (fun u hu => by rw [hp,now_resume hu]; rfl)
  | update hp => exact h.update hp
  | delete k' id' deletedAt eventID now f =>
    exact handleDelete_keeps (fun _ hf => h.final hc (of_decide_eq_true hpair) hf)
      (fun _ ht => ht.frame (uptime_mark _ _ _ _ _ _) (fun _ hu => hu)
        (fun b hb => Store.mem_markDeleted hb))
  | restart =>
    refine ⟨h.rows,fun u hu => ?_,h.values⟩
    cases hu

theorem exactTimes_paired (h : exactTimes k id s l = true) : paired k id s l = true :=
  (Bool.and_eq_true_iff.mp h).1

theorem reachable_exact (h : Reachable step initial (fun s l => exactTimes k id s l = true) s) :
    Exact k id s := by
  refine h.invariant_with (Q := Exact k id) (fun s hs => reachable_consistent hs) ?_ ?_
  · rintro s ⟨hr,ht,hp⟩
    exact ⟨by simp [ht],by simp [hp,Phase.now?],by simp [uptime,Store.entries,hr]⟩
  · exact fun s l t hc _ hq hl hst => hq.step hc hl (step_moves hst)

end Resource

theorem sumValues_of_spans {es : List MeteringEntry} {a b : Int}
    (h : Spans MeteringEntry.periodStart MeteringEntry.periodEnd a es b)
    (hv : ∀ e ∈ es, ExactEntry e) : Store.sumValues es = GoTime.seconds b - GoTime.seconds a := by
  rw [← h.sum_length GoTime.seconds,Store.sumValues,List.map_congr_left fun e he => (hv e he).value]

theorem billedStates_billable {k : Kind} {state : String} (h : state ∈ k.billedStates) :
    state ∈ billableStates k := by
  cases k with
  | computeInstance => exact List.mem_append_left ["RUNNING"] h
  | cluster => exact List.mem_append_left ["READY","PROGRESSING"] h
  | bareMetal => exact List.mem_append_left ["RUNNING"] h

/-- The final entry of a deleted resource: nothing for a deletion at the
checkpoint, else the interval up to the deletion. -/
theorem uptime_handleDelete {s : State} (hc : Consistent s) {k : Kind} {r : k.Record}
    (hr : r ∈ (s.store.table k).rows) (hk : k ≠ .cluster) (hb : k.state r ∈ billableStates k) {d : Int}
    (hf : ∀ e ∈ (s.entriesUntil k r (some s.store.instanceTypes) false d).1, Store.valueFits e)
    (eventID : String) (now : Int) :
    uptime k (k.id r) (s.handleDelete k (k.id r) d eventID now {}).store =
        uptime k (k.id r) s.store ∧ d ≤ periodStart k r ∨
      ∃ e : MeteringEntry, periodStart k r < d ∧
        (e.value = Numeric.stored 6 (GoTime.seconds (GoTime.sub d (periodStart k r))) ∧
          e.periodStart = periodStart k r ∧ e.periodEnd = d) ∧
        uptime k (k.id r) (s.handleDelete k (k.id r) d eventID now {}).store =
          uptime k (k.id r) s.store ++ [e] := by
  have hfind : (s.store.table k).find? (k.id r) = some r := Table.find?_eq_some.mpr ⟨hr,rfl⟩
  have hmark : uptime k (k.id r) (s.handleDelete k (k.id r) d eventID now {}).store =
      uptime k (k.id r) (s.meterFinal k (k.id r) d {}).store := by
    simp [State.handleDelete,State.withStore,uptime,Store.markDeleted]
  rw [hmark]
  unfold State.meterFinal
  simp only [hk,Bool.false_eq_true,or_self,if_false,hfind,hb,
    not_true_eq_false,false_or,GoTime.sub_nonpos_iff]
  by_cases hd : d ≤ periodStart k r
  · simp only [hd,if_true]
    exact .inl ⟨trivial,trivial⟩
  · obtain ⟨e,he,hu⟩ := uptime_meter hc r (some s.store.instanceTypes) false d
    have hins := Store.insertMeteringEntryBatch_of_fits s.store s.nextID
      (by have := meters_length k r (some s.store.instanceTypes)
            (resolveProject s.store false s.projectCache (k.project r) (k.tenant r)).1
            (GoTime.seconds (GoTime.sub d (periodStart k r))) (periodStart k r) d
          simp only [State.entriesUntil]
          omega) hf
    refine .inr ⟨e,not_le.mp hd,he,?_⟩
    simp only [hd,if_false,loadInstanceTypeMap,Bool.false_eq_true,State.insertBatch,hins,
      State.withStore]
    rw [hu,if_pos ⟨rfl,rfl⟩]

/-- After the deletion of a VM or bare metal instance its uptime adds up to the time
until the deletion, or until the checkpoint if that is later. -/
theorem sumValues_handleDelete {s : State} {k : Kind} {r : k.Record} (hc : Consistent s)
    (hx : Exact k (k.id r) s)
    (hspan : Spans MeteringEntry.periodStart MeteringEntry.periodEnd (k.createdAt r)
      (uptime k (k.id r) s.store) (periodStart k r))
    (hr : r ∈ (s.store.table k).rows) (hk : k ≠ .cluster) (hb : k.state r ∈ billableStates k) {d : Int}
    (hd : d % 1000 = 0) (hmax : d - periodStart k r < exactDuration)
    (hf : ∀ e ∈ (s.entriesUntil k r (some s.store.instanceTypes) false d).1, Store.valueFits e)
    (eventID : String) (now : Int) :
    Store.sumValues (uptime k (k.id r) (s.handleDelete k (k.id r) d eventID now {}).store) =
        GoTime.seconds (max d (periodStart k r)) - GoTime.seconds (k.createdAt r) ∧
      ∀ e ∈ uptime k (k.id r) (s.handleDelete k (k.id r) d eventID now {}).store,
        e.value = storedSeconds e.periodStart e.periodEnd := by
  rcases uptime_handleDelete hc hr hk hb hf eventID now with ⟨hu,hge⟩ | ⟨e,hlt,⟨hv,hes,hee⟩,hu⟩
  · rw [hu,max_eq_right hge]
    exact ⟨sumValues_of_spans hspan hx.values,fun e he => (hx.values e he).float⟩
  · have hvalues : ∀ e' ∈ uptime k (k.id r) s.store ++ [e], ExactEntry e' := by
      intro e' he'
      rcases List.mem_append.mp he' with he' | he'
      · exact hx.values e' he'
      · rw [List.mem_singleton.mp he']
        exact exactEntry_of_stored (hx.rows r hr rfl).2 (Int.dvd_of_emod_eq_zero hd) hlt.le hmax hv hes hee
    have hspan' := hspan.snoc hes (by rw [hes,hee]; exact hlt)
    rw [hee] at hspan'
    rw [hu,max_eq_left hlt.le]
    exact ⟨sumValues_of_spans hspan' hvalues,fun e he => (hvalues e he).float⟩

/-- The uptime intervals of a resource follow one another from its creation to
its checkpoint and their values add up to that time; after a final entry they
add up to the time until the deletion. The values are those that `float64` seconds
leave in the column. -/
theorem uptime_tiles_life {s : State} {k : Kind} {r : k.Record}
    (h : Reachable step initial (fun s l => exactTimes k (k.id r) s l = true) s)
    (hr : r ∈ (s.store.table k).rows) (hp : s.phase.pending k (k.id r) = none) :
    Spans MeteringEntry.periodStart MeteringEntry.periodEnd (k.createdAt r)
        (uptime k (k.id r) s.store) (periodStart k r) ∧
      Store.sumValues (uptime k (k.id r) s.store) =
        GoTime.seconds (periodStart k r) - GoTime.seconds (k.createdAt r) ∧
      (∀ e ∈ uptime k (k.id r) s.store, e.value = storedSeconds e.periodStart e.periodEnd) ∧
      ∀ (d : Int) (eventID : String) (now : Int), k ≠ .cluster → k.state r ∈ k.billedStates →
        k.createdAt r ≤ d → (∀ t, k.lastMeteredAt r = some t → t ≤ d) → d % 1000 = 0 →
        d - periodStart k r < exactDuration →
        (∀ e ∈ (s.entriesUntil k r (some s.store.instanceTypes) false d).1, Store.valueFits e) →
        Store.sumValues (uptime k (k.id r) (s.handleDelete k (k.id r) d eventID now {}).store) =
            GoTime.seconds d - GoTime.seconds (k.createdAt r) ∧
          ∀ e ∈ uptime k (k.id r) (s.handleDelete k (k.id r) d eventID now {}).store,
            e.value = storedSeconds e.periodStart e.periodEnd := by
  have hc := reachable_consistent h
  have hx := reachable_exact h
  have hspan := reachable_tiled (fun _ _ hl => exactTimes_paired hl) h r hr rfl
  rw [hp,Option.getD_none] at hspan
  refine ⟨hspan,sumValues_of_spans hspan hx.values,fun e he => (hx.values e he).float,?_⟩
  intro d eventID now hk hb hcreated hlast hd hmax hf
  have hle : periodStart k r ≤ d := by
    unfold periodStart
    cases hl : k.lastMeteredAt r with
    | none => exact hcreated
    | some t => exact hlast t hl
  have hsum := sumValues_handleDelete hc hx hspan hr hk (billedStates_billable hb) hd hmax hf eventID now
  rwa [max_eq_left hle] at hsum

theorem life_metered_in_run :
    ∃ s, Reachable step initial (fun s l => exactTimes .computeInstance "vm-1" s l = true) s ∧
      ∃ r ∈ (s.store.table .computeInstance).rows, r.lastMeteredAt = some (minutes 2) ∧
        Store.sumValues (uptime .computeInstance r.instanceID s.store) =
          GoTime.seconds (minutes 2) - GoTime.seconds r.createdAt ∧
        Store.sumValues (uptime .computeInstance r.instanceID
          (s.handleDelete .computeInstance r.instanceID (minutes 2 + 30*GoTime.nanosPerSecond) "e-1"
            (minutes 3) {}).store) =
          GoTime.seconds (minutes 2 + 30*GoTime.nanosPerSecond) - GoTime.seconds r.createdAt := by
  obtain ⟨s,hs,r,hr,hid,hpend,hlast,hcreated,hstate,hfits⟩ := Reachable.exists_of_checked step initial
    (exactTimes .computeInstance "vm-1") noResources
    [.upsert .computeInstance (instance1 0) 0,.sweep (minutes 1),.list false false,.meter {},
      .update false,.list false false,.list false false,.sweep (minutes 2),.list false false,
      .meter {},.update false]
    (fun s => ∃ r ∈ (s.store.table .computeInstance).rows, r.instanceID = "vm-1" ∧
      s.phase.pending .computeInstance r.instanceID = none ∧ r.lastMeteredAt = some (minutes 2) ∧
      r.createdAt = 0 ∧ r.state ∈ Kind.billedStates .computeInstance ∧
      ∀ e ∈ (s.entriesUntil .computeInstance r (some s.store.instanceTypes) false
        (minutes 2 + 30*GoTime.nanosPerSecond)).1, Store.valueFits e)
    (fun _ _ h => h) ⟨rfl,fun k => by cases k <;> rfl,rfl⟩ (by decide +kernel)
  have hstart : periodStart .computeInstance r = minutes 2 := by
    simp [periodStart,Kind.lastMeteredAt,hlast]
  have hs' : Reachable step initial
      (fun s l => exactTimes .computeInstance (Kind.id .computeInstance r) s l = true) s := by
    rw [Kind.id,hid]
    exact hs
  obtain ⟨-,hsum,-,hfinal⟩ := uptime_tiles_life hs' hr hpend
  refine ⟨s,hs,r,hr,hlast,by rw [hstart] at hsum; exact hsum,?_⟩
  refine (hfinal _ "e-1" (minutes 3) (by decide) hstate ?_ ?_ (by decide) ?_ hfits).1
  · simp only [Kind.createdAt,hcreated]
    decide
  · simp only [Kind.lastMeteredAt,hlast,Option.some.injEq]
    rintro t rfl
    decide
  · rw [hstart]
    decide

theorem long_interval_truncated :
    ∃ s, Reachable step initial (fun s l => paired .computeInstance "vm-1" s l = true) s ∧
      ∃ r ∈ (s.store.table .computeInstance).rows,
        s.phase.pending .computeInstance r.instanceID = none ∧
        r.lastMeteredAt = some (GoTime.date 2026 1 1) ∧
        Store.sumValues (uptime .computeInstance r.instanceID s.store) <
          GoTime.seconds (GoTime.date 2026 1 1) - GoTime.seconds r.createdAt :=
  Reachable.exists_of_checked step initial (paired .computeInstance "vm-1") noResources
    [.upsert .computeInstance (instance1 (GoTime.date 1700 1 1)) 0,.sweep (GoTime.date 2026 1 1),
      .list false false,.meter {},.update false] _
    (fun _ _ h => h) ⟨rfl,fun k => by cases k <;> rfl,rfl⟩ (by decide +kernel)

end CostConsumer.Metering
