import CostConsumer.Metering.Life
import CostConsumer.Service.Deleted
set_option autoImplicit false

namespace CostConsumer.Service
open Inventory Foundation Metering Ingest Resource

variable {δ : Type}

def ofSweep : Label → Bool
  | .meter (.sweep _) => true
  | .meter (.list _ _) => true
  | .meter (.meter _) => true
  | .meter (.update _) => true
  | .meter .restart => true
  | _ => false

def quiet (env : Env δ) (k : Kind) (id : String) (s : Metering.State) (l : Label) : Bool :=
  ofSweep l || (step env s l).all fun t => row k id t.store = row k id s.store

/-- A quiet step within a sweep in which no call for the resource fails. -/
def calm (env : Env δ) (k : Kind) (id : String) (s : Metering.State) (l : Label) : Bool :=
  quiet env k id s l && (label env k id s l).calm

section Quiet
variable {env : Env δ} {k : Kind} {id : String} {s t : Metering.State} {l : Label}

theorem label_ofSweep (h : ofSweep l = true) :
    (label env k id s l).ofSweep = true ∨ label env k id s l = .other := by
  have hseen := label_seen env k id s l
  generalize label env k id s l = r at hseen ⊢
  cases hseen with
  | other l => exact .inr rfl
  | upsert k' r now => cases h
  | event ce now ws => cases h
  | delete t eventID now f => cases h
  | mark now => cases h
  | _ => exact .inl rfl

theorem quiet_row (h : Fresh s) (hq : quiet env k id s l = true) (hst : step env s l = some t)
    (hl : (label env k id s l).ofSweep = false) : (view k id t).row = (view k id s).row := by
  rcases Bool.or_eq_true_iff.mp hq with hs | hs
  · have hother : label env k id s l = .other := (label_ofSweep hs).resolve_left (by simp [hl])
    have hm := (step_view env h hst).2 k id
    rw [hother] at hm
    rw [hm.of_other]
  · rw [hst] at hs
    exact of_decide_eq_true hs

theorem quiet_keeps {s₀ : Metering.State} {r₀ : Row} (hf : Fresh s₀) (hr : row k id s₀.store = some r₀)
    (h : Reachable (step env) (· = s₀) (fun s l => quiet env k id s l = true) s) :
    Fresh s ∧ ∃ r, row k id s.store = some r ∧ r.deletedAt = r₀.deletedAt ∧ r.state = r₀.state := by
  refine h.invariant (P := fun s => Fresh s ∧ ∃ r, row k id s.store = some r ∧
    r.deletedAt = r₀.deletedAt ∧ r.state = r₀.state) ?_ ?_
  · rintro s rfl
    exact ⟨hf,r₀,hr,rfl,rfl⟩
  · rintro s l t ⟨hs,r,hr,hd,hst⟩ hq hstep
    obtain ⟨ht,hm⟩ := step_view env hs hstep
    obtain ⟨r',hr',hd',hst'⟩ := (hm k id).row_kept hr (quiet_row hs hq hstep)
    exact ⟨ht,r',hr',hd'.trans hd,hst'.trans hst⟩

end Quiet

section Completion
variable (env : Env δ) (k : Kind) (id : String)

/-- The rest of a pass over resources of which the given one is none: no insert and
no update need to take effect. -/
theorem pass_completes {k' : Kind} {now : Int} {types : InstanceTypes} {todo : List k'.Record}
    {s : Metering.State} (hp : s.phase = resume k' now types todo)
    (hne : ∀ r ∈ todo, ¬ (k' = k ∧ k'.id r = id)) :
    ∃ u, Reachable (step env) (· = s) (fun s l => calm env k id s l = true) u ∧
      u.phase = after k' now ∧ u.store = s.store := by
  induction todo generalizing s with
  | nil => exact ⟨s,.start rfl,hp,rfl⟩
  | cons r todo ih =>
    have hhead := hne r List.mem_cons_self
    have htail : ∀ r ∈ todo, ¬ (k' = k ∧ k'.id r = id) := fun r hr => hne r (List.mem_cons_of_mem _ hr)
    have hp' : s.phase = .pass k' now types (r :: todo) := hp
    have hmeter : calm env k id s (.meter (.meter { insert := true })) = true := by
      simp only [calm,quiet,ofSweep,Bool.true_or,Bool.true_and,label,hp',if_neg hhead]
      rfl
    by_cases hn : now ≤ periodStart k' r
    · have hstep : step env s (.meter (.meter { insert := true })) =
          some (s.goto (resume k' now types todo)) := by
        simp [step,Metering.step,hp',GoTime.sub_nonpos_iff,hn]
      obtain ⟨u,hu,hph,hstore⟩ := ih (s := s.goto (resume k' now types todo)) rfl htail
      exact ⟨u,.head hmeter hstep hu,hph,hstore⟩
    · -- the insert fails, and so does the update
      let s₁ : Metering.State :=
        { s with
          nextID := s.nextID + (s.entriesUntil k' r types false now).1.length
          projectCache := (s.entriesUntil k' r types false now).2
          phase := .stored k' now types r todo false }
      have hstep : step env s (.meter (.meter { insert := true })) = some s₁ := by
        simp [step,Metering.step,hp',GoTime.sub_nonpos_iff,hn,State.insertBatch,State.goto,s₁]
      have hupdate : calm env k id s₁ (.meter (.update true)) = true := by
        simp only [calm,quiet,ofSweep,Bool.true_or,Bool.true_and,label,s₁,if_neg hhead]
        rfl
      have hstep₁ : step env s₁ (.meter (.update true)) = some (s₁.goto (resume k' now types todo)) := rfl
      obtain ⟨u,hu,hph,hstore⟩ := ih (s := s₁.goto (resume k' now types todo)) rfl htail
      exact ⟨u,.head hmeter hstep (.head hupdate hstep₁ hu),hph,hstore⟩

theorem kind_completes {k' : Kind} {now : Int} {s : Metering.State} (hp : s.phase = .list k' now)
    (ha : ∀ r, row k id s.store = some r → r.aliveIn k.billedStates = false) :
    ∃ u, Reachable (step env) (· = s) (fun s l => calm env k id s l = true) u ∧
      u.phase = after k' now ∧ u.store = s.store := by
  by_cases hk : k' = k
  · subst hk
    have hlist : calm env k' id s (.meter (.list false false)) = true := by
      simp only [calm,quiet,ofSweep,Bool.true_or,Bool.true_and,label,hp,if_pos]
      rfl
    have hstep : step env s (.meter (.list false false)) =
        some (s.goto (resume k' now (some s.store.instanceTypes) (s.store.billable k'))) := by
      simp [step,Metering.step,hp,loadInstanceTypeMap]
    obtain ⟨u,hu,hph,hstore⟩ := pass_completes env k' id
      (s := s.goto (resume k' now (some s.store.instanceTypes) (s.store.billable k'))) rfl
      fun r hr hid => by
        obtain ⟨hmem,hb⟩ := List.mem_filter.mp hr
        have hrow : row k' id s.store = some (rowOf k' r) := by
          rw [row,Table.find?_eq_some.mpr ⟨hmem,hid.2⟩]
          rfl
        exact absurd ((ha _ hrow).symm.trans hb) Bool.false_ne_true
    exact ⟨u,.head hlist hstep hu,hph,hstore⟩
  · have hlist : calm env k id s (.meter (.list true false)) = true := by
      simp only [calm,quiet,ofSweep,Bool.true_or,Bool.true_and,label,hp,if_neg hk]
      rfl
    have hstep : step env s (.meter (.list true false)) = some (s.goto (after k' now)) := by
      simp [step,Metering.step,hp]
    exact ⟨_,.head hlist hstep (.start rfl),rfl,rfl⟩

theorem sweep_completes {now : Int} {s : Metering.State} (hp : s.phase = .list .computeInstance now)
    (ha : ∀ r, row k id s.store = some r → r.aliveIn k.billedStates = false) :
    ∃ u, Reachable (step env) (· = s) (fun s l => calm env k id s l = true) u ∧
      u.phase = .idle ∧ u.store = s.store := by
  obtain ⟨s₁,hs₁,hp₁,he₁⟩ := kind_completes env k id hp ha
  obtain ⟨s₂,hs₂,hp₂,he₂⟩ := kind_completes env k id hp₁ (by rwa [he₁])
  obtain ⟨s₃,hs₃,hp₃,he₃⟩ := kind_completes env k id hp₂ (by rwa [he₂,he₁])
  exact ⟨s₃,(hs₁.trans hs₂).trans hs₃,hp₃,he₃.trans (he₂.trans he₁)⟩

end Completion

def lifecycleKind (resourceType : String) : Option Kind :=
  if resourceType = "compute_instance" then some .computeInstance
  else if resourceType = "cluster_order" then some .cluster
  else none

section Event
variable {env : Env δ} {ce : CloudEvent} {md : MeteringData} {k : Kind}

theorem lifecycle_calls (hv1 : isOSACv1 ce = true) (hmd : env.decoder.meteringData ce.data = some md)
    (hk : lifecycleKind md.resourceType = some k) :
    ∃ r : k.Record, env.handle ce = .ok [.upsert k r] ∧ k.id r = md.resourceID ∧
      rowOf k r = ⟨ce.time,none,none,osacState ce md⟩ := by
  unfold lifecycleKind at hk
  unfold Env.handle processOSACResourceEvent
  rw [if_pos hv1,hmd]
  dsimp only
  split at hk
  · rename_i ht
    cases hk
    rw [if_pos ht]
    exact ⟨_,rfl,rfl,rfl⟩
  · rename_i ht
    split at hk
    · rename_i ht'
      cases hk
      rw [if_neg ht,if_pos ht']
      exact ⟨_,rfl,rfl,rfl⟩
    · cases hk

theorem lifecycle_row {s s₁ : Metering.State} {now : Int} (hv1 : isOSACv1 ce = true)
    (hdel : ce.type ≠ eventTypeResourceDeleted) (hmd : env.decoder.meteringData ce.data = some md)
    (hk : lifecycleKind md.resourceType = some k) (hst : step env s (.event ce now) = some s₁) :
    ∃ r, row k md.resourceID s₁.store = some r ∧ r.deletedAt = none ∧ r.state = md.currentState := by
  obtain ⟨record,hhandle,hid,hrow⟩ := lifecycle_calls hv1 hmd hk
  have hstate : osacState ce md = md.currentState := if_neg hdel
  cases step_moves hst with
  | @event ce now calls t ws ha hr =>
    cases (accepted_handle ha).symm.trans hhandle
    have hstore : s₁.store = s.store.upsert k now record := by
      cases hr
      rfl
    have hup := row_upsert k md.resourceID s.store k record now
    rw [if_pos ⟨rfl,hid⟩,hrow,hstate] at hup
    rw [hstore,hup]
    refine ⟨_,rfl,?_⟩
    cases row k md.resourceID s.store with
    | none => exact ⟨rfl,rfl⟩
    | some old => exact ⟨rfl,rfl⟩

end Event

def MeteredUpTo (k : Kind) (id : String) (now : Int) (s t : Metering.State) : Prop :=
  ∃ r r', row k id s.store = some r ∧ row k id t.store = some r' ∧ now ≤ r'.checkpoint ∧
    (r.checkpoint < now → storedUptime r.checkpoint now ∈ intervals k id t.store)

/-- As long as nothing else changes its row, a resource is metered up to the time of
every later sweep in which no call for it fails. -/
def BilledFrom (env : Env δ) (k : Kind) (id : String) (s : Metering.State) : Prop :=
  ∀ t, Reachable (step env) (· = s) (fun s l => quiet env k id s l = true) t → ∀ now t',
    step env t (.meter (.sweep now)) = some t' → ∀ u,
      Reachable (step env) (· = t') (fun s l => calm env k id s l = true) u → u.phase = .idle →
        MeteredUpTo k id now t u

def UnbilledFrom (env : Env δ) (k : Kind) (id : String) (s : Metering.State) : Prop :=
  ∀ t, Reachable (step env) (· = s) (fun s l => quiet env k id s l = true) t → ∀ now t',
    step env t (.meter (.sweep now)) = some t' → ∀ u,
      Reachable (step env) (· = t') (fun s l => quiet env k id s l = true) u → ∀ f u',
        step env u (.meter (.meter f)) = some u' → entriesOf k id u'.store = entriesOf k id u.store

section Billed
variable {env : Env δ} {k : Kind} {id : String} {s t : Metering.State} {now : Int}

theorem sweep_eq (h : step env s (.meter (.sweep now)) = some t) :
    s.phase = .idle ∧ t = s.goto (.list .computeInstance now) := by
  cases step_moves h with
  | meter hm =>
    cases Metering.step_moves hm with
    | sweep now hp => exact ⟨hp,rfl⟩

theorem stage_of_sweep (k : Kind) (id : String) (now : Int) :
    stage k id (.list .computeInstance now) = .ahead now := by
  cases k <;> rfl

theorem billed_of_alive {r : Row} (hf : Fresh s) (hr : row k id s.store = some r)
    (ha : r.aliveIn k.billedStates = true) : BilledFrom env k id s := by
  intro t ht now t' hst u hu hidle
  obtain ⟨hft,r₁,hr₁,hd₁,hs₁⟩ := quiet_keeps hf hr ht
  have ha₁ : r₁.aliveIn k.billedStates = true := by
    rw [Row.aliveIn,hd₁,hs₁]
    exact ha
  obtain ⟨-,rfl⟩ := sweep_eq hst
  have hprogress : Fresh u ∧ Progress r₁ now (view k id u) := by
    refine hu.invariant (P := fun u => Fresh u ∧ Progress r₁ now (view k id u)) ?_ ?_
    · rintro u rfl
      exact ⟨(step_view env hft hst).1,.ahead (stage_of_sweep k id now) hr₁⟩
    · rintro u l v ⟨hfu,hpr⟩ hl hstep
      obtain ⟨hfv,hm⟩ := step_view env hfu hstep
      obtain ⟨hq,hcalm⟩ := Bool.and_eq_true_iff.mp hl
      exact ⟨hfv,hpr.moves ha₁ hcalm (quiet_row hfu hq hstep) (hm k id)⟩
  have hoff : (view k id u).stage = .off := stage_view k id hidle
  cases hprogress.2 with
  | done hs hr' hu' =>
    obtain ⟨r',hr',hle⟩ := hr'
    exact ⟨r₁,r',hr₁,hr',hle,hu'⟩
  | ahead hs => exact absurd (hoff.symm.trans hs) (by simp)
  | listed hs => exact absurd (hoff.symm.trans hs) (by simp)
  | stored hs => exact absurd (hoff.symm.trans hs) (by simp)

theorem unbilled_of_not_alive {r : Row} (hf : Fresh s) (hr : row k id s.store = some r)
    (ha : r.aliveIn k.billedStates = false) : UnbilledFrom env k id s := by
  intro t ht now t' hst u hu f u' hmeter
  obtain ⟨hft,r₁,hr₁,hd₁,hs₁⟩ := quiet_keeps hf hr ht
  obtain ⟨-,rfl⟩ := sweep_eq hst
  have hft' := (step_view env hft hst).1
  have hun : Fresh u ∧ (∃ r, row k id u.store = some r ∧ r.deletedAt = r₁.deletedAt ∧
      r.state = r₁.state) ∧ (view k id u).Unlisted := by
    refine hu.invariant_with (P := fun u => Fresh u ∧ ∃ r, row k id u.store = some r ∧
        r.deletedAt = r₁.deletedAt ∧ r.state = r₁.state)
      (Q := fun u => Fresh u ∧ (∃ r, row k id u.store = some r ∧ r.deletedAt = r₁.deletedAt ∧
        r.state = r₁.state) ∧ (view k id u).Unlisted)
      (fun u hu => quiet_keeps hft' hr₁ hu) ?_ ?_
    · rintro u rfl
      refine ⟨hft',⟨r₁,hr₁,rfl,rfl⟩,?_⟩
      simp [View.Unlisted,view,State.goto,stage_of_sweep]
    · rintro u l v ⟨hfu,ru,hru,hdu,hsu⟩ hv ⟨-,-,hlist⟩ hl hstep
      refine ⟨hv.1,hv.2,hlist.moves (fun r hr => ?_) ((step_view env hfu hstep).2 k id)⟩
      rw [← Option.some.inj (hru.symm.trans hr),Row.aliveIn,hdu,hsu,hd₁,hs₁]
      exact ha
  exact sweep_spares hun.1 hun.2.2 hmeter

theorem not_billed_of_not_alive {r : Row} (hr : row k id s.store = some r)
    (ha : r.aliveIn k.billedStates = false) : ¬ BilledFrom env k id s := by
  intro h
  let t : Metering.State := { s with projectCache := fun _ => none, phase := .idle }
  have ht : Reachable (step env) (· = s) (fun s l => quiet env k id s l = true) t :=
    .head (l := .meter .restart) rfl rfl (.start rfl)
  let now := r.checkpoint + 1
  obtain ⟨u,hu,hidle,hstore⟩ := sweep_completes env k id
    (s := t.goto (.list .computeInstance now)) rfl fun r' hr' => by
      rw [← Option.some.inj (hr.symm.trans hr')]
      exact ha
  obtain ⟨r₁,r',hr₁,hr',hle,-⟩ := h t ht now _ rfl u hu hidle
  rw [hstore] at hr'
  rw [← Option.some.inj (hr.symm.trans hr')] at hle
  omega

end Billed

/-- A v1 lifecycle event gets its resource billed as the predicates say, if and only
if a state they accept is one of the sweep's query. -/
theorem lifecycle_billed_iff {env : Env δ} {s s₁ : Metering.State} {ce : CloudEvent} {now : Int}
    {md : MeteringData} {k : Kind} (h : Reachable (step env) initial anyStep s)
    (hv1 : isOSACv1 ce = true) (hdel : ce.type ≠ eventTypeResourceDeleted)
    (hmd : env.decoder.meteringData ce.data = some md) (hk : lifecycleKind md.resourceType = some k)
    (hst : step env s (.event ce now) = some s₁) :
    (md.currentState ∈ billableStates k → BilledFrom env k md.resourceID s₁) ∧
        (md.currentState ∉ billableStates k → UnbilledFrom env k md.resourceID s₁) ↔
      (md.currentState ∈ billableStates k → md.currentState ∈ k.billedStates) := by
  have hf := (step_view env (reachable_fresh h) hst).1
  obtain ⟨r,hr,hd,hs⟩ := lifecycle_row hv1 hdel hmd hk hst
  have halive : r.aliveIn k.billedStates = decide (md.currentState ∈ k.billedStates) := by
    simp [Row.aliveIn,hd,hs]
  constructor
  · rintro ⟨hbilled,-⟩ hb
    by_contra hne
    exact not_billed_of_not_alive hr (halive.trans (decide_eq_false hne)) (hbilled hb)
  · intro hall
    refine ⟨fun hb => billed_of_alive hf hr (halive.trans (decide_eq_true (hall hb))),fun hb => ?_⟩
    exact unbilled_of_not_alive hf hr
      (halive.trans (decide_eq_false fun hmem => hb (billedStates_billable hmem)))

def started (data : String) : CloudEvent := sampleEvent "osac.resource.started.v1" data (minutes 1)

theorem started_instance_billed :
    ∃ s, step sampleEnv noResources (.event (started "vm") (minutes 1)) = some s ∧
      BilledFrom sampleEnv .computeInstance "vm-1" s := by
  cases hst : step sampleEnv noResources (.event (started "vm") (minutes 1)) with
  | none => exact absurd hst (by decide +kernel)
  | some s =>
    have hmd : sampleEnv.decoder.meteringData (started "vm").data = some ⟨"vm-1","compute_instance",
        "acme",none,none,"COMPUTE_INSTANCE_STATE_RUNNING",none,""⟩ := rfl
    have hk : lifecycleKind "compute_instance" = some .computeInstance := rfl
    have hiff := lifecycle_billed_iff (.start ⟨rfl,fun k => by cases k <;> rfl,rfl⟩) (by decide)
      (by decide) hmd hk hst
    exact ⟨s,rfl,(hiff.mpr fun _ => by decide).1 (by decide)⟩

/-- Reported with its short name, which `IsComputeInstanceBillable` accepts, it is
not metered by the next sweep. -/
theorem short_state_unbilled :
    "RUNNING" ∈ billableStates .computeInstance ∧
      ∃ s, runLabels (step sampleEnv) noResources
          [.event (started "short") (minutes 1),.meter (.sweep (minutes 2)),
            .meter (.list false false),.meter (.list false false),.meter (.list false false)] = some s ∧
        s.phase.now? = none ∧ uptime .computeInstance "vm-1" s.store = [] ∧
        ∃ r, (s.store.table .computeInstance).find? "vm-1" = some r ∧ r.state = "RUNNING" ∧
          r.deletedAt = none ∧ periodStart .computeInstance r < minutes 2 := by
  constructor <;> decide +kernel

end CostConsumer.Service
