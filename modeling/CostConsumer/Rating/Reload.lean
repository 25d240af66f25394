import CostConsumer.Foundation.Aggregate
import CostConsumer.Foundation.Transition
import CostConsumer.Rating.Rules
set_option autoImplicit false

namespace CostConsumer.Rating

namespace PricingRules
open Foundation

variable {ρ : Type}

theorem pricingRulesVersion_upsert (t : PricingRules ρ) (name : String) (rule : ρ) :
    (t.upsertPricingRule name rule).pricingRulesVersion = t.pricingRulesVersion+1 := by
  unfold upsertPricingRule Table.upsert
  cases hf : t.find? name with
  | none =>
    have hperm := (Table.insert_perm (r := ⟨name,rule,1,le_rfl⟩)
      (Table.find?_eq_none.mp hf)).map PricingRule.version
    rw [Option.isSome_none,if_neg Bool.false_ne_true,pricingRulesVersion,hperm.sum_eq,List.map_cons,
      List.sum_cons,Nat.add_comm]
    rfl
  | some r =>
    obtain ⟨hr,hname⟩ := Table.find?_eq_some.mp hf
    have hone : t.rows.countP (fun r => r.name = name) = 1 := by
      have hcount := List.count_eq_one_of_mem t.keys_nodup (List.mem_map.mpr ⟨r,hr,hname⟩)
      rw [List.count,List.countP_map] at hcount
      simpa only [Function.comp_def,beq_eq_decide] using hcount
    have hsum := sum_ite_eq_countP (fun r : PricingRule ρ => r.name = name) 1 t.rows
    rw [hone,one_nsmul] at hsum
    have hadd : t.pricingRulesVersion+1 =
        (t.rows.map (fun r => r.version + if r.name = name then 1 else 0)).sum := by
      rw [List.sum_map_add,pricingRulesVersion]
      simpa using hsum.symm
    rw [Option.isSome_some,if_pos rfl,hadd,pricingRulesVersion,Table.update_rows,List.map_map]
    congr 2
    funext r
    by_cases hn : r.name = name <;> simp [hn]

end PricingRules

namespace Reload
open Foundation

variable {ρ : Type}

/-- Where a call of `ReloadIfChanged` is: before its version check, or past a check that
found another version. `later` says that there was no update since. -/
inductive Phase where
  | idle : Phase
  | loading (version : Nat) (later : Bool) : Phase

/-- Since the last update, `returned` calls have returned without an error, and `later` of
them had read the version after it. -/
structure State (ρ : Type) where
  table : PricingRules ρ
  engine : Engine ρ
  phase : Phase
  returned : Nat
  later : Nat

inductive Label (ρ : Type) where
  | upsert (name : String) (rule : ρ) : Label ρ
  | check (failed : Bool) : Label ρ
  | load (failed : Bool) : Label ρ

def Phase.interrupted : Phase → Phase
  | .idle => .idle
  | .loading version _ => .loading version false

def step (s : State ρ) (l : Label ρ) : Option (State ρ) :=
  match l, s.phase with
  | .upsert name rule, phase =>
    some { s with table := s.table.upsertPricingRule name rule, phase := phase.interrupted, returned := 0, later := 0 }
  | .check failed, .idle =>
    let version := s.table.pricingRulesVersion
    if failed then some s
    else if version = s.engine.cachedVersion then
      some { s with returned := s.returned+1, later := s.later+1 }
    else some { s with phase := .loading version true }
  | .load failed, .loading version later =>
    if failed then some { s with phase := .idle }
    else some { s with
      engine := ⟨newCache s.table,version⟩,
      phase := .idle,
      returned := s.returned+1,
      later := if later then s.later+1 else s.later }
  | _, _ => none

def initial (s : State ρ) : Prop :=
  s.engine = newFromStore ∧ s.phase = .idle ∧ s.returned = 0 ∧ s.later = 0

inductive Moves (s : State ρ) : Label ρ → State ρ → Prop
  | upsert (name : String) (rule : ρ) : Moves s (.upsert name rule)
      { s with
        table := s.table.upsertPricingRule name rule,
        phase := s.phase.interrupted,
        returned := 0,
        later := 0 }
  | checkFails (hp : s.phase = .idle) : Moves s (.check true) s
  | same (hp : s.phase = .idle) (hv : s.table.pricingRulesVersion = s.engine.cachedVersion) :
      Moves s (.check false) { s with returned := s.returned+1, later := s.later+1 }
  | changed (hp : s.phase = .idle) (hv : s.table.pricingRulesVersion ≠ s.engine.cachedVersion) :
      Moves s (.check false) { s with phase := .loading s.table.pricingRulesVersion true }
  | loadFails {version : Nat} {later : Bool} (hp : s.phase = .loading version later) :
      Moves s (.load true) { s with phase := .idle }
  | load {version : Nat} {later : Bool} (hp : s.phase = .loading version later) : Moves s (.load false)
      { s with
        engine := ⟨newCache s.table,version⟩,
        phase := .idle,
        returned := s.returned+1,
        later := if later then s.later+1 else s.later }

theorem step_moves {s t : State ρ} {l : Label ρ} (h : step s l = some t) : Moves s l t := by
  unfold step at h
  split at h
  · cases h
    exact .upsert _ _
  · rename_i failed hp
    cases failed with
    | true =>
      cases h
      exact .checkFails hp
    | false =>
      by_cases hv : s.table.pricingRulesVersion = s.engine.cachedVersion
      · simp only [hv,if_true,Bool.false_eq_true,if_false,Option.some.injEq] at h
        rw [← h]
        exact .same hp hv
      · simp only [hv,Bool.false_eq_true,if_false,Option.some.injEq] at h
        rw [← h]
        exact .changed hp hv
  · rename_i failed version later hp
    cases failed with
    | true =>
      cases h
      exact .loadFails hp
    | false =>
      cases h
      exact .load hp
  · cases h

/-- Versions only rise, so a cache with the version of the table was filled from the table
as it is. -/
structure Inv (s : State ρ) : Prop where
  behind : s.engine.cachedVersion ≤ s.table.pricingRulesVersion
  same : s.engine.cachedVersion = s.table.pricingRulesVersion → s.engine.cache = s.table.rule
  loading : ∀ version later, s.phase = .loading version later →
    version ≤ s.table.pricingRulesVersion ∧
      if later then version = s.table.pricingRulesVersion else s.returned = 0 ∧ s.later = 0
  returned : s.returned ≤ s.later+1
  current : 1 ≤ s.later → s.engine.Current s.table

theorem Inv.step {s t : State ρ} {l : Label ρ} (h : Inv s) (hm : Moves s l t) : Inv t := by
  cases hm with
  | upsert name rule =>
    have hv := s.table.pricingRulesVersion_upsert name rule
    have hb := h.behind
    refine ⟨?_,fun he => ?_,fun version later hp => ?_,Nat.zero_le _,fun h1 => by cases h1⟩
    · simp only [hv]
      omega
    · simp only [hv] at he
      omega
    · cases hs : s.phase with
      | idle => simp [hs,Phase.interrupted] at hp
      | loading v b =>
        simp only [hs,Phase.interrupted,Phase.loading.injEq] at hp
        obtain ⟨rfl,rfl⟩ := hp
        have hle := (h.loading v b hs).1
        refine ⟨?_,rfl,rfl⟩
        simp only [hv]
        omega
  | checkFails hp => exact h
  | same hp hv =>
    have hr := h.returned
    exact ⟨h.behind,h.same,by simp [hp],by simpa using hr,fun _ => ⟨h.same hv.symm,hv.symm⟩⟩
  | changed hp hv =>
    refine ⟨h.behind,h.same,fun version later he => ?_,h.returned,h.current⟩
    cases he
    exact ⟨le_rfl,rfl⟩
  | loadFails hp => exact ⟨h.behind,h.same,fun _ _ he => (nomatch he),h.returned,h.current⟩
  | @load version later hp =>
    have hr := h.returned
    obtain ⟨hle,hl⟩ := h.loading version later hp
    refine ⟨hle,fun _ => newCache_eq _,fun _ _ he => (nomatch he),?_,?_⟩
    · cases later with
      | true => simpa using hr
      | false => simp [hl.1,hl.2]
    · cases later with
      | true => exact fun _ => ⟨newCache_eq _,hl⟩
      | false =>
        intro h1
        simp [hl.2] at h1

theorem reachable_inv {s : State ρ} (h : Reachable step initial anyStep s) : Inv s := by
  refine h.invariant (fun s hi => ?_) (fun s l t hs _ hst => hs.step (step_moves hst))
  obtain ⟨he,hp,hr,hl⟩ := hi
  refine ⟨by simp [he,newFromStore],fun hv => ?_,by simp [hp],by simp [hr],by simp [hl]⟩
  rw [he] at hv ⊢
  exact (rule_of_version hv.symm).symm

/-- A call that returns without reloading has the stored rules. After an update, the cache is
up to date once a call has returned that began later, or two calls in all: one at most was
under way. -/
theorem reload_misses_nothing {s : State ρ} (h : Reachable step initial anyStep s) :
    (∀ t, step s (.check false) = some t → t.phase = .idle → t.engine = s.engine ∧
      s.engine.cache = s.table.rule) ∧
    (1 ≤ s.later → s.engine.Current s.table) ∧ (2 ≤ s.returned → s.engine.Current s.table) := by
  have hinv := reachable_inv h
  refine ⟨fun t ht hp => ?_,hinv.current,fun h2 => hinv.current ?_⟩
  · cases step_moves ht with
    | same hp hv => exact ⟨rfl,hinv.same hv.symm⟩
    | changed hp' hv => cases hp
  · have hr := hinv.returned
    omega

/-- An update between the two reads of a call: its cache has the new rule under the old version,
and the next call loads it again. -/
theorem reload_between_reads : ∃ s : State String, Reachable step initial anyStep s ∧
    s.table.rule "vm" = some "new" ∧ s.returned = 2 ∧ s.engine.Current s.table := by
  obtain ⟨s,hs,hnew,htwo⟩ := Reachable.exists_of_run step initial
    (⟨.empty,newFromStore,.idle,0,0⟩ : State String)
    [.upsert "vm" "old",.check false,.upsert "vm" "new",.load false,.check false,.load false]
    (fun s => s.table.rule "vm" = some "new" ∧ s.returned = 2) ⟨rfl,rfl,rfl,rfl⟩ (by decide +kernel)
  exact ⟨s,hs,hnew,htwo,(reload_misses_nothing hs).2.2 htwo.ge⟩

theorem reload_undisturbed {s : State ρ} (hp : s.phase = .idle) (failed : Bool) :
    ∃ ls t, runLabels step s ls = some t ∧ t.phase = .idle ∧ t.table = s.table ∧
      t.engine = s.engine.reloadIfChanged s.table failed := by
  cases failed with
  | true => exact ⟨[.check true],s,by simp [runLabels,step,hp],hp,rfl,rfl⟩
  | false =>
    by_cases hv : s.table.pricingRulesVersion = s.engine.cachedVersion
    · refine ⟨[.check false],{ s with returned := s.returned+1, later := s.later+1 },?_,hp,rfl,?_⟩
      · simp [runLabels,step,hp,hv]
      · simp [Engine.reloadIfChanged,hv]
    · refine ⟨[.check false,.load false],{ s with
        engine := ⟨newCache s.table,s.table.pricingRulesVersion⟩,
        phase := .idle,
        returned := s.returned+1,
        later := s.later+1 },?_,rfl,rfl,?_⟩
      · simp [runLabels,step,hp,hv]
      · simp [Engine.reloadIfChanged,hv]

end Reload

end CostConsumer.Rating
