import CostConsumer.Metering.Life
import CostConsumer.Service.Heartbeats
set_option autoImplicit false

/-!
What the sweeps meter of a resource against the time its row was alive in a
billable state. A row that becomes billable again is metered from its old
checkpoint, so each such step must come soon after that.
-/

namespace CostConsumer.Resource
open Foundation

def View.aliveIn (states : List String) (v : View) : Bool := v.row.any (Row.aliveIn states)

/-- The clock of a run, the time a row was alive in given states so far, how often
it became so, the uptime that sweeps metered, and how many of its intervals were rounded
because they are not whole microseconds. -/
structure Tally where
  clock : Int
  billable : Int
  starts : Nat
  metered : Rat
  rounded : Nat

namespace Tally

def pass (states : List String) (now : Int) (v : View) (t : Tally) : Tally :=
  { t with clock := now, billable := t.billable + if v.aliveIn states then now - t.clock else 0 }

def enter (states : List String) (v w : View) (t : Tally) : Tally :=
  { t with starts := t.starts + if v.aliveIn states = false ∧ w.aliveIn states then 1 else 0 }

def add (q : Rat) (n : Nat) (t : Tally) : Tally :=
  { t with metered := t.metered + q, rounded := t.rounded + n }

/-- A value is rounded by at most half a microsecond. -/
def rounding (t : Tally) : Rat := t.rounded*(1/2/10^6)

def allowance (interval : Int) (t : Tally) : Int := t.billable + t.starts*interval

end Tally

/-- Sweeps have metered at most `m`, but for rounding, and what they can meter up to now, or have in
hand, is within the allowance too. -/
structure Accounted (states : List String) (interval : Int) (v : View) (t : Tally) (m : Int) : Prop where
  metered : t.metered ≤ GoTime.seconds m + t.rounding
  billed : m ≤ t.allowance interval
  alive : ∀ r, v.row = some r → r.aliveIn states = true →
    m + (t.clock - v.reach r) ≤ t.allowance interval
  ahead : ∀ now, v.stage = .ahead now → now ≤ t.clock
  listed : ∀ now start, v.stage = .listed now start → now ≤ t.clock ∧
    m + (now - start) ≤ t.allowance interval ∧ ∃ r, v.row = some r ∧ r.checkpoint = start
  stored : ∀ now ok, v.stage = .stored now ok → now ≤ t.clock ∧ ∃ r, v.row = some r ∧ r.checkpoint < now

section Accounted
variable {states billed : List String} {interval : Int} {v w : View} {t : Tally} {m : Int} {l : Label}

theorem aliveIn_of_row {r : Row} (hr : v.row = some r) : v.aliveIn states = r.aliveIn states := by
  rw [View.aliveIn,hr,Option.any_some]

theorem Tally.enter_same (h : w.aliveIn states = v.aliveIn states) : t.enter states v w = t := by
  have hno : ¬ (v.aliveIn states = false ∧ v.aliveIn states = true) := by simp
  rw [enter,h,if_neg hno,Nat.add_zero]

theorem Tally.allowance_enter (t : Tally) (v w : View) :
    (t.enter states v w).allowance interval = t.allowance interval +
      if v.aliveIn states = false ∧ w.aliveIn states then interval else 0 := by
  unfold enter allowance
  split
  · push_cast
    ring
  · simp

theorem Accounted.pass (h : Accounted states interval v t m) {now : Int} (hn : t.clock ≤ now) :
    Accounted states interval v (t.pass states now v) m := by
  have hle : t.allowance interval ≤ (t.pass states now v).allowance interval := by
    simp only [Tally.pass,Tally.allowance]
    split <;> omega
  refine ⟨h.metered,h.billed.trans hle,fun r hr ha => ?_,fun u hs => ?_,fun u start hs => ?_,
    fun u ok hs => ?_⟩
  · have hall := h.alive r hr ha
    have hv : v.aliveIn states = true := (aliveIn_of_row hr).trans ha
    simp only [Tally.pass,Tally.allowance,hv,if_true] at hall ⊢
    omega
  · exact (h.ahead u hs).trans hn
  · obtain ⟨hu,hm,hr⟩ := h.listed u start hs
    exact ⟨hu.trans hn,hm.trans hle,hr⟩
  · obtain ⟨hu,hr⟩ := h.stored u ok hs
    exact ⟨hu.trans hn,hr⟩

/-- A row keeps its checkpoint. If it becomes alive in one of the states, that is
soon after the checkpoint. -/
structure Keeps (states : List String) (interval now : Int) (v w : View) : Prop where
  kept : ∀ r, v.row = some r → ∃ r', w.row = some r' ∧ r'.checkpoint = r.checkpoint
  soon : v.aliveIn states = false → ∀ r', w.row = some r' → r'.aliveIn states = true →
    now - r'.checkpoint ≤ interval

theorem Keeps.of_row (h : w.row = v.row) (now : Int) : Keeps states interval now v w := by
  refine ⟨fun r hr => ⟨r,h.trans hr,rfl⟩,fun hv r hr ha => ?_⟩
  rw [aliveIn_of_row (h ▸ hr),ha] at hv
  cases hv

theorem Keeps.mark (h : w.row = v.row.map (Row.marked m)) (now : Int) : Keeps states interval now v w := by
  refine ⟨fun r hr => ⟨r.marked m,by rw [h,hr,Option.map_some],Row.marked_checkpoint m r⟩,
    fun hv r' hr' ha => ?_⟩
  obtain ⟨r,hr,rfl⟩ := Option.map_eq_some_iff.mp (h ▸ hr')
  -- a mark leaves no row alive that was not
  rw [aliveIn_of_row hr] at hv
  unfold Row.marked at ha
  split at ha
  · simp [Row.aliveIn] at ha
  · exact absurd (hv.symm.trans ha) Bool.false_ne_true

theorem Accounted.row (h : Accounted states interval v t m) (hi : 0 ≤ interval)
    (hs : w.stage = v.stage) (hk : Keeps states interval t.clock v w) :
    Accounted states interval w (t.enter states v w) m := by
  have hle : t.allowance interval ≤ (t.enter states v w).allowance interval := by
    rw [Tally.allowance_enter]
    split <;> omega
  refine ⟨h.metered,h.billed.trans hle,fun r' hr' ha => ?_,fun u hu => ?_,fun u start hu => ?_,
    fun u ok hu => ?_⟩
  · have hw : w.aliveIn states = true := (aliveIn_of_row hr').trans ha
    cases hv : v.aliveIn states with
    | true =>
      -- alive before and after
      obtain ⟨r,hr,har⟩ := (Option.any_eq_true _ _).mp hv
      obtain ⟨r'',hr'',hc⟩ := hk.kept r hr
      have hreach : w.reach r' = v.reach r := by
        rw [View.reach,View.reach,hs,Option.some.inj (hr'.symm.trans hr''),hc]
      rw [hreach]
      exact (h.alive r hr har).trans hle
    | false =>
      have hsoon := hk.soon hv r' hr' ha
      have hb := h.billed
      have hreach : r'.checkpoint ≤ w.reach r' := by
        rw [View.reach,hs]
        cases hst : v.stage with
        | stored now ok =>
          obtain ⟨-,r,hr,hlt⟩ := h.stored now ok hst
          obtain ⟨r'',hr'',hc⟩ := hk.kept r hr
          rw [Option.some.inj (hr'.symm.trans hr''),hc]
          cases ok with
          | true => exact hlt.le
          | false => exact le_refl _
        | _ => exact le_refl _
      rw [Tally.allowance_enter,if_pos ⟨hv,hw⟩]
      change m + (t.clock - w.reach r') ≤ _
      omega
  · exact h.ahead u (hs ▸ hu)
  · obtain ⟨hu',hm,r,hr,hc⟩ := h.listed u start (hs ▸ hu)
    obtain ⟨r',hr',hc'⟩ := hk.kept r hr
    exact ⟨hu',hm.trans hle,r',hr',hc'.trans hc⟩
  · obtain ⟨hu',r,hr,hlt⟩ := h.stored u ok (hs ▸ hu)
    obtain ⟨r',hr',hc'⟩ := hk.kept r hr
    exact ⟨hu',r',hr',hc' ▸ hlt⟩

theorem Accounted.off (h : Accounted states interval v t m) (hp : v.stage.pending = none) :
    Accounted states interval (v.goto .off) t m := by
  refine ⟨h.metered,h.billed,fun r hr ha => ?_,fun u hu => ?_,fun u start hu => ?_,fun u ok hu => ?_⟩
  · rw [reach_of_not_pending rfl,← reach_of_not_pending hp]
    exact h.alive r hr ha
  · cases hu
  · cases hu
  · cases hu

def View.total (v : View) : Rat := (v.uptime.map (·.value)).sum

/-- The intervals that are not whole microseconds. -/
def View.rounded (v : View) : Nat := v.uptime.countP fun i => (i.stop - i.start) % 1000 ≠ 0

def Label.metered (v w : View) : Label → Rat
  | .meter _ => w.total - v.total
  | _ => 0

def Label.rounded (v w : View) : Label → Nat
  | .meter _ => w.rounded - v.rounded
  | _ => 0

theorem storedUptime_le {start stop : Int} (hle : start ≤ stop) :
    (storedUptime start stop).value ≤ GoTime.seconds (stop - start) +
      if (stop - start) % 1000 = 0 then 0 else 1/2/10^6 := by
  have hsub : GoTime.sub stop start ≤ stop - start := by
    simp only [GoTime.sub,GoTime.minDuration]
    omega
  have hseconds : GoTime.seconds (GoTime.sub stop start) ≤ GoTime.seconds (stop - start) := by
    unfold GoTime.seconds
    gcongr
    norm_num [GoTime.nanosPerSecond]
  split
  · rename_i hwhole
    obtain ⟨n,hn⟩ := Int.dvd_of_emod_eq_zero hwhole
    have hn' : GoTime.seconds (stop - start) = (n : Rat)/10^6 := by
      rw [hn,GoTime.seconds,GoTime.nanosPerSecond]
      push_cast
      ring
    rw [hn'] at hseconds
    rw [add_zero,hn']
    refine Numeric.stored_le ?_
    linarith
  · have herror := Numeric.sub_stored_le 6 (-GoTime.seconds (GoTime.sub stop start))
    rw [Numeric.stored_neg] at herror
    change Numeric.stored 6 (GoTime.seconds (GoTime.sub stop start)) ≤ _
    linarith

theorem aliveIn_sweep (hm : Moves billed v l w) (hl : l.ofSweep = true) :
    w.aliveIn states = v.aliveIn states := by
  cases hm with
  | update hs =>
    simp only [View.aliveIn,View.goto,View.apply,Option.any_map]
    rfl
  | other => cases hl
  | write effects => cases hl
  | delete final marked => cases hl
  | mark u => cases hl
  | _ => rfl

theorem Accounted.start (h : Accounted states interval v t m) (hs : v.stage = .off) {now : Int}
    (hle : now ≤ t.clock) : Accounted states interval (v.goto (.ahead now)) t m := by
  have hoff := h.off (by rw [hs]; rfl)
  refine ⟨hoff.metered,hoff.billed,hoff.alive,fun u he => ?_,fun u start he => ?_,fun u ok he => ?_⟩
  · cases he
    exact hle
  · cases he
  · cases he

theorem Accounted.list (h : Accounted states interval v t m) {now : Int} {r : Row}
    (hs : v.stage = .ahead now) (hr : v.row = some r) (ha : r.aliveIn states = true) :
    Accounted states interval (v.goto (.listed now r.checkpoint)) t m := by
  have hp : v.stage.pending = none := by rw [hs]; rfl
  have hle := h.ahead now hs
  have hall := h.alive r hr ha
  rw [reach_of_not_pending hp] at hall
  have hoff := h.off hp
  refine ⟨hoff.metered,hoff.billed,hoff.alive,fun u he => ?_,fun u start he => ?_,fun u ok he => ?_⟩
  · cases he
  · cases he
    exact ⟨hle,by omega,r,hr,rfl⟩
  · cases he

theorem Accounted.refuse (h : Accounted states interval v t m) {now start : Int}
    (hs : v.stage = .listed now start) (hlt : start < now) :
    Accounted states interval (v.goto (.stored now false)) t m := by
  obtain ⟨hle,hm,r,hr,hc⟩ := h.listed now start hs
  have hoff := h.off (by rw [hs]; rfl)
  refine ⟨hoff.metered,hoff.billed,hoff.alive,fun u he => ?_,fun u start' he => ?_,fun u ok he => ?_⟩
  · cases he
  · cases he
  · cases he
    exact ⟨hle,r,hr,hc ▸ hlt⟩

theorem Accounted.meter (h : Accounted states interval v t m) {now start : Int}
    (hs : v.stage = .listed now start) (hlt : start < now) :
    Accounted states interval ⟨v.row,.stored now true,v.uptime ++ [storedUptime start now]⟩
      (t.add (storedUptime start now).value (if (now - start) % 1000 = 0 then 0 else 1))
      (m + (now - start)) := by
  obtain ⟨hle,hm,r,hr,hc⟩ := h.listed now start hs
  refine ⟨?_,hm,fun r' hr' ha => ?_,fun u he => ?_,fun u start' he => ?_,fun u ok he => ?_⟩
  · have hvalue := storedUptime_le hlt.le
    have hsofar := h.metered
    have hadd : GoTime.seconds (m + (now - start)) =
        GoTime.seconds m + GoTime.seconds (now - start) := by
      simp only [GoTime.seconds]
      push_cast
      ring
    simp only [Tally.add,Tally.rounding] at hsofar ⊢
    rw [hadd]
    split at hvalue <;> rename_i hwhole <;> simp only [hwhole,if_true,if_false] <;> push_cast <;> linarith
  · have hall := h.alive r' hr' ha
    rw [reach_of_not_pending (by rw [hs]; rfl),← Option.some.inj (hr.symm.trans hr'),hc] at hall
    change m + (now - start) + (t.clock - now) ≤ t.allowance interval
    omega
  · cases he
  · cases he
  · cases he
    exact ⟨hle,r,hr,hc ▸ hlt⟩

theorem Accounted.update (h : Accounted states interval v t m) {now : Int} {ok : Bool}
    (hs : v.stage = .stored now ok) :
    Accounted states interval ((v.apply (.checkpoint now)).goto .off) t m := by
  obtain ⟨hle,r,hr,hlt⟩ := h.stored now ok hs
  have hrow (r' : Row) (hr' : ((v.apply (.checkpoint now)).goto .off).row = some r') :
      { r with lastMeteredAt := some now } = r' := by
    simpa [View.goto,View.apply,hr] using hr'
  refine ⟨h.metered,h.billed,fun r' hr' ha => ?_,fun u he => ?_,fun u start he => ?_,fun u ok he => ?_⟩
  · have hreach : v.reach r ≤ now := by
      rw [View.reach,hs]
      cases ok with
      | true => exact le_refl _
      | false => exact hlt.le
    rw [← hrow r' hr'] at ha ⊢
    have hall := h.alive r hr ha
    change m + (t.clock - now) ≤ t.allowance interval
    omega
  · cases he
  · cases he
  · cases he

theorem Accounted.sweep (h : Accounted states interval v t m) (hb : ∀ state ∈ billed, state ∈ states)
    (hm : Moves billed v l w) (hl : l.ofSweep = true)
    (hn : ∀ now, l = .sweep now → now ≤ t.clock)
    (hu : l = .update true ∨ l = .restart → v.stage.pending = none) :
    ∃ m', Accounted states interval w (t.add (l.metered v w) (l.rounded v w)) m' := by
  -- the steps that store nothing
  have hkeep (hw : w.uptime = v.uptime) (h' : Accounted states interval w t m) :
      ∃ m', Accounted states interval w (t.add (l.metered v w) (l.rounded v w)) m' := by
    have hq : l.metered v w = 0 := by cases l <;> simp [Label.metered,View.total,hw]
    have hn : l.rounded v w = 0 := by cases l <;> simp [Label.rounded,View.rounded,hw]
    refine ⟨m,?_⟩
    rwa [hq,hn,Tally.add,add_zero,Nat.add_zero]
  cases hm with
  | sweep now hs =>
    exact hkeep rfl (h.start hs (hn now rfl))
  | list hs hr ha =>
    simp only [Row.aliveIn,Bool.and_eq_true,decide_eq_true_eq] at ha
    exact hkeep rfl (h.list hs hr (by simp [Row.aliveIn,ha.1,hb _ ha.2]))
  | unlisted hs hr => exact hkeep rfl (h.off (by rw [hs]; rfl))
  | skip failed hs hle => exact hkeep rfl (h.off (by rw [hs]; rfl))
  | @meter now start hs hlt =>
    have htotal : View.total ⟨v.row,.stored now true,v.uptime ++ [storedUptime start now]⟩ - v.total =
        (storedUptime start now).value := by
      simp [View.total]
    have hrounded : View.rounded ⟨v.row,.stored now true,v.uptime ++ [storedUptime start now]⟩ - v.rounded =
        if (now - start) % 1000 = 0 then 0 else 1 := by
      simp only [View.rounded,List.countP_append,List.countP_singleton,storedUptime,Nat.add_sub_cancel_left]
      split <;> simp_all
    refine ⟨m + (now - start),?_⟩
    rw [Label.metered,Label.rounded,htotal,hrounded]
    exact h.meter hs hlt
  | refused hs hlt => exact hkeep rfl (h.refuse hs hlt)
  | update hs => exact hkeep rfl (h.update hs)
  | updateFails hs => exact hkeep rfl (h.off (hu (.inl rfl)))
  | restart => exact hkeep rfl (h.off (hu (.inr rfl)))
  | other => cases hl
  | write effects => cases hl
  | delete final marked => cases hl
  | mark u => cases hl

theorem Accounted.moves (h : Accounted states interval v t m) (hi : 0 ≤ interval)
    (hb : ∀ state ∈ billed, state ∈ states) (hm : Moves billed v l w)
    (hw : ∀ effects, l = .write effects → Keeps states interval t.clock v w)
    (hn : ∀ now, l = .sweep now → now ≤ t.clock)
    (hu : l = .update true ∨ l = .restart → v.stage.pending = none) :
    ∃ m', Accounted states interval w ((t.enter states v w).add (l.metered v w) (l.rounded v w)) m' := by
  cases hl : l.ofSweep with
  | true =>
    rw [Tally.enter_same (aliveIn_sweep hm hl)]
    exact h.sweep hb hm hl hn hu
  | false =>
    have hq : l.metered v w = 0 := by
      cases l with
      | meter failed => cases hl
      | _ => rfl
    have hn : l.rounded v w = 0 := by
      cases l with
      | meter failed => cases hl
      | _ => rfl
    refine ⟨m,?_⟩
    rw [hq,hn,Tally.add,add_zero,Nat.add_zero]
    refine h.row hi (hm.still hl).1 ?_
    cases hm with
    | other => exact .of_row rfl _
    | write effects => exact hw effects rfl
    | delete final marked =>
      cases marked with
      | true => exact .mark rfl _
      | false =>
        refine .of_row ?_ _
        rfl
    | mark u => exact .mark rfl _
    | _ => cases hl

end Accounted

end CostConsumer.Resource

namespace CostConsumer.Service
open Inventory Foundation Metering Ingest Resource

variable {δ : Type}

def meteredBySweep (k : Kind) (id : String) (s t : Metering.State) : Label → Rat
  | .meter (.meter _) => Store.sumValues (uptime k id t.store) - Store.sumValues (uptime k id s.store)
  | _ => 0

def roundedBySweep (k : Kind) (id : String) (s t : Metering.State) : Label → Nat
  | .meter (.meter _) => (view k id t).rounded - (view k id s).rounded
  | _ => 0

/-- The service with a clock and a tally for one resource. A step is labelled with
the time at which it takes effect; time does not run backwards. -/
def timedStep (env : Env δ) (k : Kind) (id : String) (p : Metering.State × Tally) (l : Int × Label) :
    Option (Metering.State × Tally) :=
  if l.1 < p.2.clock then none
  else (step env p.1 l.2).map fun s =>
    (s,(((p.2.pass (billableStates k) l.1 (view k id p.1)).enter (billableStates k) (view k id p.1)
      (view k id s)).add (meteredBySweep k id p.1 s l.2) (roundedBySweep k id p.1 s l.2)))

def timedInitial (p : Metering.State × Tally) : Prop :=
  initial p.1 ∧ p.2.billable = 0 ∧ p.2.starts = 0 ∧ p.2.metered = 0 ∧ p.2.rounded = 0

def heartbeatOf (env : Env δ) (k : Kind) (id : String) (ce : CloudEvent) : Bool :=
  (ce.type = eventTypeComputeInstance ∧ k = .computeInstance ∧
    (env.decoder.computeInstance ce.data).any fun data => data.instanceID = id) ∨
  (ce.type = eventTypeCluster ∧ k = .cluster ∧
    (env.decoder.cluster ce.data).any fun data => data.clusterID = id)

def reported (env : Env δ) (k : Kind) (id : String) (ce : CloudEvent) : Option Row :=
  if isOSACv1 ce then
    (env.decoder.meteringData ce.data).bind fun md =>
      if lifecycleKind md.resourceType = some k ∧ md.resourceID = id then
        some ⟨ce.time,none,none,osacState ce md⟩
      else none
  else none

/-- An upsert of a row that is not alive in a billable state, to one that is, comes
at most an interval after the checkpoint. -/
def soonAfter (k : Kind) (interval now : Int) (old : Option Row) (r : Row) : Bool :=
  old.any (Row.aliveIn (billableStates k)) = false → r.aliveIn (billableStates k) = true →
    now - (r.upserted old).checkpoint ≤ interval

/-- A sweep's time is not ahead of the clock, the checkpoint follows each interval that is
stored, and nothing else moves it. -/
def punctual (env : Env δ) (k : Kind) (id : String) (interval : Int) (s : Metering.State) (now : Int) :
    Label → Bool
  | .meter (.upsert k' r _) =>
    (k' = k ∧ k'.id r = id) → soonAfter k interval now (row k id s.store) (rowOf k' r)
  | .meter (.sweep t) => t ≤ now
  | .meter (.update failed) => failed → (stage k id s.phase).pending = none
  | .meter .restart => (stage k id s.phase).pending = none
  | .event ce _ =>
    ¬ heartbeatOf env k id ce ∧ (reported env k id ce).all (soonAfter k interval now (row k id s.store))
  | _ => true

section Event
variable {env : Env δ} {k : Kind} {id : String} {s t : Metering.State} {ce : CloudEvent} {now : Int}
  {calls : List Call} {ws : List (Write Unit)}

def SparesRow (k : Kind) (id : String) : Call → Prop
  | .upsert k' r => ¬ (k' = k ∧ k'.id r = id)
  | .updateLastMetered k' id' _ => ¬ (k' = k ∧ id' = id)
  | _ => True

theorem runCalls_row (hf : Fresh s) (hr : runCalls now s calls = .ok (t,ws))
    (h : ∀ c ∈ calls, SparesRow k id c) : (view k id t).row = (view k id s).row := by
  induction calls generalizing s ws with
  | nil =>
    cases hr
    rfl
  | cons c calls ih =>
    obtain ⟨projectID,s₁,rest,hf₁,hv,hrest⟩ := runCalls_next hf hr
    rw [ih hf₁ hrest fun c' hc' => h c' (List.mem_cons_of_mem _ hc'),hv]
    have hc := h c List.mem_cons_self
    cases c with
    | upsert k' r =>
      simp only [Call.written,effects]
      rw [if_neg hc]
      rfl
    | updateLastMetered k' id' u =>
      simp only [Call.written,effects]
      rw [if_neg hc]
      rfl
    | _ => rfl

theorem meterMaaSEvent_sparesRow (usage : MaaSUsage) : ∀ c ∈ meterMaaSEvent usage, SparesRow k id c := by
  unfold meterMaaSEvent
  split <;> simp [SparesRow]

theorem reported_eq_none_iff {md : MeteringData} (hv1 : isOSACv1 ce = true)
    (hmd : env.decoder.meteringData ce.data = some md) :
    reported env k id ce = none ↔ ¬ (lifecycleKind md.resourceType = some k ∧ md.resourceID = id) := by
  unfold reported
  rw [if_pos hv1,hmd,Option.bind_some]
  split
  · rename_i h
    exact iff_of_false (Option.some_ne_none _) (not_not_intro h)
  · rename_i h
    exact iff_of_true rfl h

theorem handled_sparesRow (hh : Handled env ce calls) (hb : heartbeatOf env k id ce = false)
    (hrep : reported env k id ce = none) : ∀ c ∈ calls, SparesRow k id c := by
  simp only [heartbeatOf,decide_eq_false_iff_not,not_or] at hb
  cases hh with
  | nothing => simp
  | computeInstance ht hdata hs hd =>
    have hne := hb.1
    simp only [ht,hdata,Option.any_some,decide_eq_true_eq,true_and] at hne
    refine List.forall_mem_cons.mpr ⟨fun h => hne ⟨h.1.symm,h.2⟩,?_⟩
    refine List.forall_mem_cons.mpr ⟨trivial,List.forall_mem_singleton.mpr ?_⟩
    exact fun h => hne ⟨h.1.symm,h.2⟩
  | cluster ht hdata hs hd =>
    have hne := hb.2
    simp only [ht,hdata,Option.any_some,decide_eq_true_eq,true_and] at hne
    refine List.forall_mem_cons.mpr ⟨trivial,List.forall_mem_singleton.mpr ?_⟩
    exact fun h => hne ⟨h.1.symm,h.2⟩
  | model ht hdata hid htenant =>
    exact List.forall_mem_cons.mpr ⟨trivial,meterMaaSEvent_sparesRow _⟩
  | osacComputeInstance hv1 hmd ht =>
    refine List.forall_mem_singleton.mpr fun h => (reported_eq_none_iff hv1 hmd).mp hrep ⟨?_,h.2⟩
    rw [ht,← h.1]
    rfl
  | osacClusterOrder hv1 hmd ht =>
    refine List.forall_mem_singleton.mpr fun h => (reported_eq_none_iff hv1 hmd).mp hrep ⟨?_,h.2⟩
    rw [ht,← h.1]
    rfl
  | osacInference hv1 hmd ht =>
    exact List.forall_mem_cons.mpr ⟨trivial,meterMaaSEvent_sparesRow _⟩
  | customMetric hv1 ht hdef hdata => simp [SparesRow]

theorem event_row (hf : Fresh s) (ha : accepted env now ce = some calls)
    (hr : runCalls now s calls = .ok (t,ws)) (hb : heartbeatOf env k id ce = false) :
    (view k id t).row = match reported env k id ce with
      | some r => some (r.upserted (view k id s).row)
      | none => (view k id s).row := by
  cases hrep : reported env k id ce with
  | none => exact runCalls_row hf hr (handled_sparesRow (handle_handled (accepted_handle ha)) hb hrep)
  | some r =>
    unfold reported at hrep
    split at hrep
    · rename_i hv1
      obtain ⟨md,hmd,hif⟩ := Option.bind_eq_some_iff.mp hrep
      split at hif
      · rename_i hk
        obtain ⟨record,hhandle,hid,hrow⟩ := lifecycle_calls hv1 hmd hk.1
        cases (accepted_handle ha).symm.trans hhandle
        obtain ⟨projectID,s₁,rest,-,hv,hrest⟩ := runCalls_next hf hr
        cases hrest
        rw [hv,Call.written,effects,if_pos ⟨rfl,hid.trans hk.2⟩,hrow,Option.some.inj hif]
        rfl
      · cases hif
    · cases hrep

end Event

theorem sumValues_view (k : Kind) (id : String) (s : Metering.State) :
    Store.sumValues (uptime k id s.store) = (view k id s).total := by
  simp [View.total,view,intervals,intervalOf,Store.sumValues,Function.comp_def]

theorem soonAfter_keeps {k : Kind} {interval now : Int} {v w : View} {r : Row}
    (h : soonAfter k interval now v.row r = true) (hw : w.row = some (r.upserted v.row)) :
    Keeps (billableStates k) interval now v w := by
  refine ⟨fun old hold => ⟨r.upserted v.row,hw,by rw [hold]; rfl⟩,fun hv r' hr' ha => ?_⟩
  rw [← Option.some.inj (hw.symm.trans hr')] at ha ⊢
  refine of_decide_eq_true h hv ?_
  cases hrow : v.row with
  | none => simpa [hrow,Row.upserted,Row.aliveIn] using ha
  | some old => simpa [hrow,Row.upserted,Row.aliveIn] using ha

section Run
variable {env : Env δ} {k : Kind} {id : String} {interval : Int}

theorem tallied_label {s t : Metering.State} {l : Label} (hf : Fresh s) (hst : step env s l = some t) :
    (label env k id s l).metered (view k id s) (view k id t) = meteredBySweep k id s t l ∧
      (label env k id s l).rounded (view k id s) (view k id t) = roundedBySweep k id s t l := by
  have hm := (step_view env hf hst).2 k id
  have hseen := label_seen env k id s l
  generalize label env k id s l = r at hm hseen ⊢
  cases hseen with
  | other l =>
    have hv := hm.of_other
    unfold meteredBySweep roundedBySweep
    split
    · rw [sumValues_view,sumValues_view,hv,sub_self,Nat.sub_self]
      exact ⟨rfl,rfl⟩
    · exact ⟨rfl,rfl⟩
  | meter f failed =>
    rw [meteredBySweep,sumValues_view,sumValues_view]
    exact ⟨rfl,rfl⟩
  | _ => exact ⟨rfl,rfl⟩

theorem accounted_step (hi : 0 ≤ interval) {p q : Metering.State × Tally} {l : Int × Label}
    (hf : Fresh p.1) (h : ∃ m, Accounted (billableStates k) interval (view k id p.1) p.2 m)
    (hl : punctual env k id interval p.1 l.1 l.2 = true) (hst : timedStep env k id p l = some q) :
    Fresh q.1 ∧ ∃ m, Accounted (billableStates k) interval (view k id q.1) q.2 m := by
  obtain ⟨m,h⟩ := h
  obtain ⟨now,l⟩ := l
  unfold timedStep at hst
  split at hst
  · cases hst
  rename_i hclock
  obtain ⟨s,hs,rfl⟩ := Option.map_eq_some_iff.mp hst
  have hpass := h.pass (not_lt.mp hclock)
  obtain ⟨hf',hm⟩ := step_view env hf hs
  refine ⟨hf',?_⟩
  rw [← (tallied_label hf hs).1,← (tallied_label hf hs).2]
  replace hm := hm k id
  have hseen := label_seen env k id p.1 l
  have hstates : ∀ state ∈ k.billedStates, state ∈ billableStates k := fun _ => billedStates_billable
  generalize label env k id p.1 l = r at hm hseen ⊢
  cases hseen with
  | upsert k' r now' =>
    refine hpass.moves hi hstates hm (fun es he => ?_) (by simp) (by simp)
    cases hs
    rw [view_upsert (δ := Unit)]
    by_cases hk : k' = k ∧ k'.id r = id
    · have hsoon := of_decide_eq_true hl hk
      refine soonAfter_keeps hsoon ?_
      rw [effects,if_pos hk]
      rfl
    · rw [effects,if_neg hk]
      exact .of_row rfl _
  | event ce now' ws =>
    refine hpass.moves hi hstates hm (fun es he => ?_) (by simp) (by simp)
    obtain ⟨hbeat,hall⟩ := of_decide_eq_true hl
    cases step_moves hs with
    | event ha hr =>
      have hrow := event_row hf ha hr (Bool.eq_false_iff.mpr hbeat)
      cases hrep : reported env k id ce with
      | none =>
        rw [hrep] at hrow
        exact .of_row hrow _
      | some r =>
        rw [hrep] at hrow hall
        exact soonAfter_keeps hall hrow
  | sweep t =>
    refine hpass.moves hi hstates hm (by simp) (fun u hu => ?_) (by simp)
    cases hu
    exact of_decide_eq_true hl
  | update failed =>
    have hu : failed = true → (view k id p.1).stage.pending = none := of_decide_eq_true hl
    exact hpass.moves hi hstates hm (by simp) (by simp) (fun he => hu (by simpa using he))
  | restart => exact hpass.moves hi hstates hm (by simp) (by simp) (fun _ => of_decide_eq_true hl)
  | _ => exact hpass.moves hi hstates hm (by simp) (by simp) (by simp)

/-- In a run whose steps are all punctual for a resource, the sweeps have metered at
most the time its row was alive in a billable state and one interval for each time
it became so, up to the rounding of intervals that are not whole microseconds. -/
theorem sweeps_meter_billable_time {s : Metering.State} {t : Tally} (hi : 0 ≤ interval)
    (h : Reachable (timedStep env k id) timedInitial
      (fun p l => punctual env k id interval p.1 l.1 l.2 = true) (s,t)) :
    t.metered ≤ GoTime.seconds (t.billable + t.starts*interval) + t.rounding := by
  have hinv := h.invariant (P := fun p => Fresh p.1 ∧
      ∃ m, Accounted (billableStates k) interval (view k id p.1) p.2 m) ?_ ?_
  · obtain ⟨-,m,hm⟩ := hinv
    refine hm.metered.trans ?_
    have hb : (m : Rat) ≤ ((t.billable + t.starts*interval : Int) : Rat) := by exact_mod_cast hm.billed
    unfold GoTime.seconds
    gcongr
    norm_num [GoTime.nanosPerSecond]
  · rintro ⟨s,t⟩ ⟨hs,hb,hn,hm,hr⟩
    dsimp only at hs hb hn hm hr ⊢
    obtain ⟨hf,hv⟩ := fresh_initial hs
    rw [hv]
    refine ⟨hf,0,?_,?_,by simp,by simp,by simp,by simp⟩
    · simp [hm,hr,GoTime.seconds,Tally.rounding]
    · simp [Tally.allowance,hb,hn]
  · rintro p l q ⟨hf,hp⟩ hl hst
    exact accounted_step hi hf hp hl hst

end Run

def timed (now : Int) (ls : List Label) : List (Int × Label) := ls.map fun l => (now,l)

/-- The watch stream reports a state of the instance. -/
def changeVM (type state : String) (now : Int) : List (Int × Label) :=
  timed now (watchVM type { runningVM with status := ⟨state⟩ } now)

def sweepNone (now : Int) : List Label :=
  [.meter (.sweep now),.meter (.list false false),.meter (.list false false),.meter (.list false false)]

theorem short_stop_metered :
    ∃ s t, Reachable (timedStep sampleEnv .computeInstance "vm-1") timedInitial
        (fun p l => punctual sampleEnv .computeInstance "vm-1" (minutes 1) p.1 l.1 l.2 = true) (s,t) ∧
      t.metered = 120 ∧ t.rounded = 0 ∧
      t.metered ≤ GoTime.seconds (t.billable + t.starts*minutes 1) + t.rounding := by
  obtain ⟨⟨s,t⟩,hs,hmetered,hrounded⟩ := Reachable.exists_of_checked (timedStep sampleEnv .computeInstance "vm-1")
    timedInitial (fun p l => punctual sampleEnv .computeInstance "vm-1" (minutes 1) p.1 l.1 l.2)
    (noResources,⟨0,0,0,0,0⟩)
    (changeVM Osac.eventTypeCreated "COMPUTE_INSTANCE_STATE_RUNNING" 0 ++
      timed (minutes 1) (sweepOne (minutes 1)) ++
      changeVM Osac.eventTypeUpdated "COMPUTE_INSTANCE_STATE_STOPPED"
        (minutes 1 + 20*GoTime.nanosPerSecond) ++
      changeVM Osac.eventTypeUpdated "COMPUTE_INSTANCE_STATE_RUNNING"
        (minutes 1 + 40*GoTime.nanosPerSecond) ++
      timed (minutes 2) (sweepOne (minutes 2)))
    (fun p => p.2.metered = 120 ∧ p.2.rounded = 0) (fun _ _ h => h)
    ⟨⟨rfl,fun k => by cases k <;> rfl,rfl⟩,rfl,rfl,rfl,rfl⟩ (by decide +kernel)
  exact ⟨s,t,hs,hmetered,hrounded,sweeps_meter_billable_time (by decide) hs⟩

/-- With a sweep each minute, an instance runs for a minute and a half, is stopped
for eight minutes and runs again: the next sweep meters the eight minutes too. -/
theorem stopped_time_metered :
    ∃ p, runLabels (timedStep sampleEnv .computeInstance "vm-1") (noResources,⟨0,0,0,0,0⟩)
        (changeVM Osac.eventTypeCreated "COMPUTE_INSTANCE_STATE_RUNNING" 0 ++
          timed (minutes 1) (sweepOne (minutes 1)) ++
          changeVM Osac.eventTypeUpdated "COMPUTE_INSTANCE_STATE_STOPPED"
            (minutes 1 + 30*GoTime.nanosPerSecond) ++
          [2,3,4,5,6,7,8,9].flatMap (fun n => timed (minutes n) (sweepNone (minutes n))) ++
          changeVM Osac.eventTypeUpdated "COMPUTE_INSTANCE_STATE_RUNNING"
            (minutes 9 + 30*GoTime.nanosPerSecond) ++
          timed (minutes 10) (sweepOne (minutes 10))) = some p ∧
      p.2.metered = 600 ∧ p.2.billable = minutes 2 ∧ p.2.starts = 2 ∧
      GoTime.seconds (p.2.billable + p.2.starts*minutes 1) < p.2.metered := by
  decide +kernel

end CostConsumer.Service
