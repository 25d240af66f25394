import CostConsumer.Agent.Controller
import Mathlib.Algebra.BigOperators.Group.List.Basic
import Mathlib.Algebra.Order.BigOperators.Group.List
set_option autoImplicit false

/-!
What `countGPUs` counts, against a count container by container. The limit of a
container is looked at while the total is 0, whatever its own request is.
-/

namespace CostConsumer.Agent
open Foundation GoTime

def Container.gpus (container : Container) : Int :=
  match container.requests.gpu with
  | some q => quantityValue q
  | none => container.limitedGPUs

def Container.unrequestedGPUs (container : Container) : Int :=
  match container.requests.gpu with
  | some _ => 0
  | none => container.limitedGPUs

theorem Container.gpus_eq (container : Container) :
    container.gpus = container.requestedGPUs + container.unrequestedGPUs := by
  unfold Container.gpus Container.unrequestedGPUs Container.requestedGPUs
  cases container.requests.gpu with
  | none => simp
  | some q => simp

def requestSum (containers : List Container) : Int := (containers.map (·.requestedGPUs)).sum

def unrequestedSum (containers : List Container) : Int := (containers.map (·.unrequestedGPUs)).sum

def gpuSum (containers : List Container) : Int := (containers.map (·.gpus)).sum

theorem Container.unrequestedGPUs_of_unlimited {container : Container} (h : container.limitedGPUs = 0) :
    container.unrequestedGPUs = 0 := by
  unfold Container.unrequestedGPUs
  cases container.requests.gpu with
  | none => exact h
  | some q => rfl

theorem gpuSum_eq (containers : List Container) :
    gpuSum containers = requestSum containers + unrequestedSum containers := by
  induction containers with
  | nil => rfl
  | cons container containers ih =>
    simp only [gpuSum,requestSum,unrequestedSum,List.map_cons,List.sum_cons,container.gpus_eq] at ih ⊢
    omega

theorem requestSum_cons (container : Container) (containers : List Container) :
    requestSum (container :: containers) = container.requestedGPUs + requestSum containers := by
  simp [requestSum]

/-- The count is that of the containers one by one, in whatever order they are. -/
def PerContainer (pod : Pod) : Prop :=
  countGPUs pod = gpuSum pod.containers ∧
    ∀ containers, containers.Perm pod.containers → countGPUs { pod with containers } = countGPUs pod

/-- A container whose quantities are not negative and are 64-bit numbers. -/
structure Container.Nonneg (container : Container) : Prop where
  requested : 0 ≤ container.requestedGPUs
  limited : 0 ≤ container.limitedGPUs
  fits : container.limitedGPUs ≤ maxDuration

/-- A limit may be left out or counted in the place of all limits without a request:
with `total` for the sum of the latter, it is 0 or `total` in a container that
requests nothing, and `total` is 0 if a container requests something. -/
def Container.Stands (total : Int) (container : Container) : Prop :=
  if container.requestedGPUs = 0 then container.limitedGPUs = 0 ∨ container.limitedGPUs = total
  else total = 0

instance (total : Int) (container : Container) : Decidable (container.Stands total) :=
  inferInstanceAs (Decidable (if container.requestedGPUs = 0 then _ ∨ _ else _))

/-- When the count is right: the sum is a 64-bit number, and there are no limits, or only
such as stand for all that count. -/
structure Counted (containers : List Container) : Prop where
  lower : minDuration ≤ gpuSum containers
  upper : gpuSum containers ≤ maxDuration
  limits : (∀ container ∈ containers, container.limitedGPUs = 0) ∨
    ∀ container ∈ containers, container.Nonneg ∧ container.Stands (unrequestedSum containers)

theorem gpuSum_perm {l l' : List Container} (h : l.Perm l') : gpuSum l = gpuSum l' := (h.map _).sum_eq

theorem unrequestedSum_perm {l l' : List Container} (h : l.Perm l') : unrequestedSum l = unrequestedSum l' :=
  (h.map _).sum_eq

theorem Counted.perm {l l' : List Container} (h : Counted l) (hp : l.Perm l') : Counted l' := by
  refine ⟨gpuSum_perm hp ▸ h.lower,gpuSum_perm hp ▸ h.upper,?_⟩
  rw [← unrequestedSum_perm hp]
  exact h.limits.imp (fun h c hc => h c (hp.mem_iff.mpr hc)) fun h c hc => h c (hp.mem_iff.mpr hc)

theorem addGPUs_of_unlimited {n : Int} {container : Container}
    (h : wrap (n + container.requestedGPUs) = 0 → container.limitedGPUs = 0) :
    addGPUs (wrap n) container = wrap (n + container.requestedGPUs) := by
  simp only [addGPUs,wrap_wrap_add]
  split
  · rename_i hzero
    rw [h hzero,add_zero]
  · rfl

theorem foldl_unlimited {containers : List Container}
    (h : ∀ container ∈ containers, container.limitedGPUs = 0) (n : Int) :
    containers.foldl addGPUs (wrap n) = wrap (n + requestSum containers) := by
  induction containers generalizing n with
  | nil => simp [requestSum]
  | cons container containers ih =>
    rw [List.foldl_cons,addGPUs_of_unlimited fun _ => h _ List.mem_cons_self,
      ih fun c hc => h c (List.mem_cons_of_mem _ hc)]
    rw [requestSum_cons,add_assoc]

theorem requestSum_nonneg {containers : List Container}
    (h : ∀ container ∈ containers, container.Nonneg) : 0 ≤ requestSum containers :=
  List.sum_nonneg (List.forall_mem_map.mpr fun container hc => (h container hc).requested)

theorem foldl_positive {containers : List Container} (h : ∀ container ∈ containers, container.Nonneg)
    {n : Int} (hn : 0 < n) (hfits : n + requestSum containers ≤ 2*maxDuration+1) :
    containers.foldl addGPUs (wrap n) = wrap (n + requestSum containers) := by
  induction containers generalizing n with
  | nil => simp [requestSum]
  | cons container containers ih =>
    have hrest : ∀ c ∈ containers, c.Nonneg := fun c hc => h c (List.mem_cons_of_mem _ hc)
    have hc := (h container List.mem_cons_self).requested
    have hpos := requestSum_nonneg hrest
    rw [requestSum_cons] at hfits ⊢
    have hnext : wrap (n + container.requestedGPUs) ≠ 0 := by
      rcases wrap_eq_or_neg (n := n + container.requestedGPUs) (by omega) (by omega) with hw | hw <;> omega
    rw [List.foldl_cons,addGPUs_of_unlimited fun hzero => absurd hzero hnext,ih hrest (by omega) (by omega),
      add_assoc]

def Container.first (container : Container) : Int :=
  if container.requestedGPUs = 0 then container.limitedGPUs else container.requestedGPUs

theorem addGPUs_zero {container : Container} (h : wrap container.requestedGPUs = container.requestedGPUs) :
    addGPUs 0 container = wrap container.first := by
  simp only [addGPUs,Container.first,zero_add,h]
  split
  · rename_i hzero
    rw [hzero,zero_add]
  · exact h.symm

theorem Container.Stands.first {total : Int} {container : Container} (h : container.Stands total)
    (hne : container.first ≠ 0) : container.first = container.requestedGPUs + total := by
  unfold Container.Stands at h
  unfold Container.first at hne ⊢
  split at h
  · rename_i hzero
    rw [if_pos hzero] at hne ⊢
    omega
  · rename_i hsome
    rw [if_neg hsome]
    omega

theorem Container.Nonneg.first_nonneg {container : Container} (h : container.Nonneg) :
    0 ≤ container.first := by
  unfold Container.first
  split
  · exact h.limited
  · exact h.requested

theorem Container.Nonneg.first_le {container : Container} (h : container.Nonneg)
    (hreq : container.requestedGPUs ≤ maxDuration) : container.first ≤ maxDuration := by
  unfold Container.first
  split
  · exact h.fits
  · exact hreq

theorem Container.first_eq_zero {container : Container} :
    container.first = 0 ↔ container.requestedGPUs = 0 ∧ container.limitedGPUs = 0 := by
  unfold Container.first
  split <;> omega

theorem foldl_first {container : Container} {containers : List Container} (hc : container.Nonneg)
    (h : ∀ c ∈ containers, c.Nonneg) (hne : container.first ≠ 0)
    (hfits : requestSum (container :: containers) ≤ maxDuration) :
    (container :: containers).foldl addGPUs 0 = wrap (container.first + requestSum containers) := by
  have hrest := requestSum_nonneg h
  have hreq := hc.requested
  rw [requestSum_cons] at hfits
  have hmax := hc.first_le (by omega)
  have hpos := hc.first_nonneg
  have hwrap : wrap container.requestedGPUs = container.requestedGPUs :=
    wrap_of_bounds (by unfold minDuration; omega) (by omega)
  rw [List.foldl_cons,addGPUs_zero hwrap,foldl_positive h (by omega) (by omega)]

theorem foldl_stands {total : Int} {containers : List Container}
    (h : ∀ container ∈ containers, container.Nonneg ∧ container.Stands total)
    (hfits : requestSum containers ≤ maxDuration) :
    (∀ container ∈ containers, container.first = 0) ∧ containers.foldl addGPUs 0 = 0 ∨
      containers.foldl addGPUs 0 = wrap (requestSum containers + total) := by
  induction containers with
  | nil => exact .inl (by simp)
  | cons container containers ih =>
    obtain ⟨⟨hc,hstands⟩,hrest⟩ := List.forall_mem_cons.mp h
    by_cases hfirst : container.first = 0
    · obtain ⟨hreq,hlim⟩ := Container.first_eq_zero.mp hfirst
      have hzero : addGPUs 0 container = 0 := by
        simp [addGPUs,hreq,hlim,wrap]
      simp only [requestSum_cons,hreq,zero_add] at hfits ⊢
      rw [List.foldl_cons,hzero]
      exact (ih hrest hfits).imp_left fun ⟨h₁,h₂⟩ => ⟨List.forall_mem_cons.mpr ⟨hfirst,h₁⟩,h₂⟩
    · right
      rw [foldl_first hc (fun c hc => (hrest c hc).1) hfirst hfits,hstands.first hfirst,requestSum_cons]
      congr 1
      omega

theorem unrequestedSum_nonneg {containers : List Container}
    (h : ∀ container ∈ containers, container.Nonneg) : 0 ≤ unrequestedSum containers := by
  refine List.sum_nonneg (List.forall_mem_map.mpr fun container hc => ?_)
  unfold Container.unrequestedGPUs
  cases container.requests.gpu with
  | none => exact (h container hc).limited
  | some q => exact le_rfl

theorem gpuSum_eq_zero {containers : List Container} (h : ∀ container ∈ containers, container.first = 0) :
    gpuSum containers = 0 := by
  refine List.sum_eq_zero (List.forall_mem_map.mpr fun container hc => ?_)
  obtain ⟨hreq,hlim⟩ := Container.first_eq_zero.mp (h container hc)
  rw [container.gpus_eq,hreq,Container.unrequestedGPUs_of_unlimited hlim,zero_add]

theorem Counted.foldl_eq {containers : List Container} (h : Counted containers) :
    containers.foldl addGPUs 0 = gpuSum containers := by
  have hsum := gpuSum_eq containers
  rcases h.limits with hlim | hstands
  · have hnone : unrequestedSum containers = 0 := List.sum_eq_zero (List.forall_mem_map.mpr
      fun container hc => Container.unrequestedGPUs_of_unlimited (hlim container hc))
    have hfold := foldl_unlimited hlim 0
    rw [hnone,add_zero] at hsum
    rw [zero_add,← hsum,wrap_of_bounds h.lower h.upper] at hfold
    exact hfold
  · have hnonneg := unrequestedSum_nonneg fun c hc => (hstands c hc).1
    have hupper := h.upper
    rcases foldl_stands hstands (by omega) with ⟨hfirst,hfold⟩ | hfold
    · rw [hfold,gpuSum_eq_zero hfirst]
    · rw [hfold,← hsum,wrap_of_bounds h.lower h.upper]

theorem addGPUs_bounds (n : Int) (container : Container) :
    minDuration ≤ addGPUs n container ∧ addGPUs n container ≤ maxDuration := by
  unfold addGPUs
  dsimp only
  split
  · exact wrap_bounds _
  · exact wrap_bounds _

theorem foldl_bounds (containers : List Container) {n : Int} (h : minDuration ≤ n ∧ n ≤ maxDuration) :
    minDuration ≤ containers.foldl addGPUs n ∧ containers.foldl addGPUs n ≤ maxDuration := by
  induction containers generalizing n with
  | nil => exact h
  | cons container containers ih => exact ih (addGPUs_bounds n container)

theorem Container.stands_of_first {container : Container} {containers : List Container}
    (hc : container.Nonneg) (h : ∀ c ∈ containers, c.Nonneg)
    (hcount : (container :: containers).foldl addGPUs 0 = gpuSum (container :: containers)) :
    container.Stands (unrequestedSum (container :: containers)) := by
  have hall : ∀ c ∈ container :: containers, c.Nonneg := List.forall_mem_cons.mpr ⟨hc,h⟩
  have hsum := gpuSum_eq (container :: containers)
  have hunreq := unrequestedSum_nonneg hall
  have hreq := requestSum_nonneg h
  have hbound := (foldl_bounds (container :: containers) (n := 0) (by decide)).2
  rw [hcount] at hbound
  unfold Container.Stands
  by_cases hfirst : container.first = 0
  · obtain ⟨hreq,hlim⟩ := Container.first_eq_zero.mp hfirst
    rw [if_pos hreq]
    exact .inl hlim
  · have hpos := hc.first_nonneg
    have hc0 := hc.requested
    rw [foldl_first hc h hfirst (by omega)] at hcount
    rw [requestSum_cons] at hsum
    have hmax := hc.first_le (by omega)
    have heq : container.first + requestSum containers = gpuSum (container :: containers) := by
      rcases wrap_eq_or_neg (n := container.first + requestSum containers) (by omega) (by omega) with hw | hw
      · omega
      · omega
    unfold Container.first at heq
    split at heq
    · rename_i hzero
      rw [if_pos hzero]
      omega
    · rename_i hsome
      rw [if_neg hsome]
      omega

/-- A count that the condition holds for is right. Of pods without negative quantities it
holds for all whose count is right; with negative ones requests may cancel out. -/
theorem gpus_per_container_iff (pod : Pod) :
    (Counted pod.containers → PerContainer pod) ∧
      ((∀ container ∈ pod.containers, container.Nonneg) → PerContainer pod → Counted pod.containers) := by
  constructor
  · intro h
    refine ⟨h.foldl_eq,fun containers hp => ?_⟩
    have hcount : containers.foldl addGPUs 0 = gpuSum containers := (h.perm hp.symm).foldl_eq
    rw [gpuSum_perm hp,← h.foldl_eq] at hcount
    exact hcount
  · intro hnonneg ⟨hsum,horder⟩
    have hbounds := foldl_bounds pod.containers (n := 0) (by decide)
    have hcount : pod.containers.foldl addGPUs 0 = gpuSum pod.containers := hsum
    rw [hcount] at hbounds
    refine ⟨hbounds.1,hbounds.2,.inr fun container hc => ⟨hnonneg container hc,?_⟩⟩
    -- the order in which this container is the first
    have hp := (List.perm_cons_erase hc).symm
    have hfirst := (horder _ hp).trans (hsum.trans (gpuSum_perm hp).symm)
    have hstands := Container.stands_of_first (hnonneg container hc)
      (fun c h => hnonneg c (List.mem_of_mem_erase h)) hfirst
    rwa [unrequestedSum_perm hp] at hstands

def gpuContainer (request limit : Option Rat) : Container := ⟨⟨none,none,request⟩,⟨none,none,limit⟩⟩

def gpuPod (containers : List Container) : Pod where
  uid := "1"
  ns := "ml"
  name := "train"
  nodeName := "n1"
  creationTimestamp := 0
  startTime := none
  containers := containers
  qosClass := "Burstable"
  owners := []
  labels := []
  slash := by decide

theorem gpus_per_container_stated :
    Counted [gpuContainer (some 2) (some 2),gpuContainer none (some 0)] ∧
      PerContainer (gpuPod [gpuContainer (some 2) (some 2),gpuContainer none (some 0)]) := by
  have hcounted : Counted [gpuContainer (some 2) (some 2),gpuContainer none (some 0)] := by
    refine ⟨by decide,by decide,.inr fun container hc => ?_⟩
    rcases List.mem_pair.mp hc with rfl | rfl
    · exact ⟨⟨by decide,by decide,by decide⟩,by decide⟩
    · exact ⟨⟨by decide,by decide,by decide⟩,by decide⟩
  exact ⟨hcounted,(gpus_per_container_iff (gpuPod _)).1 hcounted⟩

/-- A limit that is left out after a request, and counted before it; and the limit of a
container that requests none. -/
theorem gpus_depend_on_order :
    countGPUs (gpuPod [gpuContainer (some 1) none,gpuContainer none (some 2)]) = 1 ∧
      countGPUs (gpuPod [gpuContainer none (some 2),gpuContainer (some 1) none]) = 3 ∧
      ¬ PerContainer (gpuPod [gpuContainer (some 1) none,gpuContainer none (some 2)]) ∧
      ¬ PerContainer (gpuPod [gpuContainer (some 0) (some 4)]) := by
  refine ⟨by decide,by decide,fun h => ?_,fun h => ?_⟩
  · exact absurd h.1 (by decide)
  · exact absurd h.1 (by decide)

end CostConsumer.Agent
