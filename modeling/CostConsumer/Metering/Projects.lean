import CostConsumer.Foundation.Transition
import CostConsumer.Metering.Meters
set_option autoImplicit false

namespace CostConsumer.Metering
open Inventory Foundation

/-- How the query of a lookup ends. `LIMIT 1` takes any row of the tenant. -/
inductive Answer where
  | failed : Answer
  | noRows : Answer
  | row (projectID : String) : Answer
  deriving DecidableEq, Repr

def Owns (s : Store) (tenantID projectID : String) : Prop :=
  ∃ p ∈ s.projects.rows, p.tenant = tenantID ∧ p.projectID = projectID

def Projectless (s : Store) (tenantID : String) : Prop := ∀ p ∈ s.projects.rows, p.tenant ≠ tenantID

instance (s : Store) (tenantID projectID : String) : Decidable (Owns s tenantID projectID) :=
  inferInstanceAs (Decidable (∃ p ∈ s.projects.rows, _))

instance (s : Store) (tenantID : String) : Decidable (Projectless s tenantID) :=
  inferInstanceAs (Decidable (∀ p ∈ s.projects.rows, _))

def Answers (s : Store) (tenantID : String) : Answer → Prop
  | .failed => True
  | .noRows => Projectless s tenantID
  | .row projectID => Owns s tenantID projectID

instance (s : Store) (tenantID : String) : DecidablePred (Answers s tenantID)
  | .failed => inferInstanceAs (Decidable True)
  | .noRows => inferInstanceAs (Decidable (Projectless s tenantID))
  | .row projectID => inferInstanceAs (Decidable (Owns s tenantID projectID))

def Answer.projectID : Answer → String
  | .row projectID => if projectID = "" then "default" else projectID
  | _ => "default"

/-- `DefaultProjectForTenant`, by how its query ends if it is made. -/
def lookupProject (cache : ProjectCache) (tenantID : String) (answer : Answer) : String × ProjectCache :=
  if tenantID = "" then ("default",cache)
  else match cache tenantID with
    | some projectID => (projectID,cache)
    | none => (answer.projectID,Function.update cache tenantID (some answer.projectID))

def queryProject (s : Store) (failed : Bool) (tenantID : String) : Answer :=
  if failed then .failed else ((s.projectOfTenant tenantID).map Answer.row).getD .noRows

theorem answers_queryProject (s : Store) (failed : Bool) (tenantID : String) :
    Answers s tenantID (queryProject s failed tenantID) := by
  unfold queryProject Store.projectOfTenant
  cases failed with
  | true => trivial
  | false =>
    cases hf : s.projects.rows.find? (fun p => p.tenant = tenantID) with
    | none => exact fun p hp ht => by simpa [ht] using List.find?_eq_none.mp hf p hp
    | some p => exact ⟨p,List.mem_of_find?_eq_some hf,by simpa using List.find?_some hf,rfl⟩

theorem defaultProjectForTenant_eq (s : Store) (failed : Bool) (cache : ProjectCache) (tenantID : String) :
    defaultProjectForTenant s failed cache tenantID =
      lookupProject cache tenantID (queryProject s failed tenantID) := by
  have hid : (queryProject s failed tenantID).projectID =
      if (if failed then "" else (s.projectOfTenant tenantID).getD "") = "" then "default"
      else (if failed then "" else (s.projectOfTenant tenantID).getD "") := by
    unfold queryProject
    cases failed with
    | true => rfl
    | false => cases s.projectOfTenant tenantID <;> rfl
  unfold defaultProjectForTenant lookupProject
  cases cache tenantID with
  | none => simp only [hid]
  | some projectID => rfl

theorem lookupProject_cases (cache : ProjectCache) {tenantID : String} (ht : tenantID ≠ "")
    (answer : Answer) :
    (∃ projectID, cache tenantID = some projectID ∧
      lookupProject cache tenantID answer = (projectID,cache)) ∨
    cache tenantID = none ∧ lookupProject cache tenantID answer =
      (answer.projectID,Function.update cache tenantID (some answer.projectID)) := by
  unfold lookupProject
  rw [if_neg ht]
  cases cache tenantID with
  | none => exact .inr ⟨rfl,rfl⟩
  | some projectID => exact .inl ⟨projectID,rfl,rfl⟩

namespace Projects

structure State where
  store : Store
  cache : ProjectCache

inductive Label where
  | upsertProject (r : ProjectRecord) (now : Int) : Label
  | lookup (tenantID : String) (answer : Answer) : Label

def step (s : State) : Label → Option State
  | .upsertProject r now =>
    some ⟨s.store.upsertProject now r,Function.update s.cache r.tenant none⟩
  | .lookup tenantID answer =>
    if Answers s.store tenantID answer then some { s with cache := (lookupProject s.cache tenantID answer).2 }
    else none

/-- A process that starts on a table of projects with names. -/
def initial (s : State) : Prop :=
  s.cache = (fun _ => none) ∧ ∀ p ∈ s.store.projects.rows, p.projectID ≠ ""

def Right (s : Store) (tenantID projectID : String) : Prop :=
  Owns s tenantID projectID ∨ projectID = "default" ∧ Projectless s tenantID

instance (s : Store) (tenantID projectID : String) : Decidable (Right s tenantID projectID) :=
  inferInstanceAs (Decidable (_ ∨ _))

/-- An upsert takes no project away from a tenant that has it cached, and a lookup that is
not answered by the cache fails only for a tenant without project. -/
def careful (s : State) : Label → Prop
  | .upsertProject r _ => r.projectID ≠ "" ∧ ∀ tenantID ≠ r.tenant, Owns s.store tenantID r.projectID →
      s.cache tenantID ≠ some r.projectID
  | .lookup tenantID answer => tenantID ≠ "" → s.cache tenantID = none → answer = .failed →
      Projectless s.store tenantID

theorem owns_iff {s : Store} {tenantID projectID : String} :
    Owns s tenantID projectID ↔ ∃ p, s.projects.find? projectID = some p ∧ p.tenant = tenantID := by
  simp only [Owns,Table.find?_eq_some]
  constructor
  · rintro ⟨p,hp,ht,hid⟩
    exact ⟨p,⟨hp,hid⟩,ht⟩
  · rintro ⟨p,⟨hp,hid⟩,ht⟩
    exact ⟨p,hp,ht,hid⟩

theorem owns_upsert (s : Store) (now : Int) (r : ProjectRecord) (tenantID projectID : String) :
    Owns (s.upsertProject now r) tenantID projectID ↔
      if r.projectID = projectID then r.tenant = tenantID else Owns s tenantID projectID := by
  rw [owns_iff,Store.find?_upsertProject]
  by_cases hid : r.projectID = projectID
  · rw [if_pos hid,if_pos hid]
    cases s.projects.find? projectID <;> simp
  · rw [if_neg hid,if_neg hid,owns_iff]

theorem projectless_iff {s : Store} {tenantID : String} :
    Projectless s tenantID ↔ ∀ projectID, ¬ Owns s tenantID projectID := by
  constructor
  · rintro h projectID ⟨p,hp,ht,-⟩
    exact h p hp ht
  · intro h p hp ht
    exact h p.projectID ⟨p,hp,ht,rfl⟩

structure Coherent (s : State) : Prop where
  named : ∀ tenantID, ¬ Owns s.store tenantID ""
  cached : ∀ tenantID projectID, s.cache tenantID = some projectID → Right s.store tenantID projectID

theorem Answer.right {s : Store} {tenantID : String} (hn : ¬ Owns s tenantID "") {answer : Answer}
    (ha : Answers s tenantID answer) (hf : answer = .failed → Projectless s tenantID) :
    Right s tenantID answer.projectID := by
  cases answer with
  | failed => exact .inr ⟨rfl,hf rfl⟩
  | noRows => exact .inr ⟨rfl,ha⟩
  | row projectID =>
    have hne : projectID ≠ "" := by
      rintro rfl
      exact hn ha
    rw [Answer.projectID,if_neg hne]
    exact .inl ha

theorem Coherent.upsert {s : State} (h : Coherent s) {r : ProjectRecord} {now : Int}
    (hok : careful s (.upsertProject r now)) :
    Coherent ⟨s.store.upsertProject now r,Function.update s.cache r.tenant none⟩ := by
  obtain ⟨hid,hmove⟩ := hok
  refine ⟨fun tenantID ho => ?_,fun tenantID projectID hc => ?_⟩
  · rw [owns_upsert,if_neg hid] at ho
    exact h.named tenantID ho
  · by_cases ht : tenantID = r.tenant
    · simp [ht] at hc
    · dsimp only at hc
      rw [Function.update_of_ne ht] at hc
      rcases h.cached tenantID projectID hc with ho | ⟨hd,hnone⟩
      · left
        rw [owns_upsert,if_neg]
        · exact ho
        · rintro rfl
          exact hmove tenantID ht ho hc
      · refine .inr ⟨hd,projectless_iff.mpr fun id ho => ?_⟩
        rw [owns_upsert] at ho
        split at ho
        · exact ht ho.symm
        · exact projectless_iff.mp hnone id ho

theorem Coherent.lookup {s : State} (h : Coherent s) {tenantID : String} {answer : Answer}
    (ha : Answers s.store tenantID answer) (hok : careful s (.lookup tenantID answer)) :
    Coherent { s with cache := (lookupProject s.cache tenantID answer).2 } := by
  refine ⟨h.named,fun t projectID hc => ?_⟩
  by_cases ht : tenantID = ""
  · rw [lookupProject,if_pos ht] at hc
    exact h.cached t projectID hc
  rcases lookupProject_cases s.cache ht answer with ⟨p,-,hl⟩ | ⟨hmiss,hl⟩
  · rw [hl] at hc
    exact h.cached t projectID hc
  · rw [hl] at hc
    by_cases hts : t = tenantID
    · subst hts
      simp only [Function.update_self,Option.some.injEq] at hc
      rw [← hc]
      exact Answer.right (h.named t) ha (hok ht hmiss)
    · simp only [Function.update_of_ne hts] at hc
      exact h.cached t projectID hc

theorem Coherent.step {s t : State} {l : Label} (h : Coherent s) (hok : careful s l)
    (hst : step s l = some t) : Coherent t := by
  cases l with
  | upsertProject r now =>
    cases hst
    exact h.upsert hok
  | lookup tenantID answer =>
    simp only [Projects.step] at hst
    split at hst
    · rename_i ha
      cases hst
      exact h.lookup ha hok
    · cases hst

theorem reachable_coherent {s : State} (h : Reachable step initial careful s) : Coherent s := by
  refine h.invariant (fun s hi => ⟨?_,?_⟩) (fun s l t hs hok hst => hs.step hok hst)
  · rintro tenantID ⟨p,hp,-,hid⟩
    exact hi.2 p hp hid
  · intro tenantID projectID hc
    rw [hi.1] at hc
    cases hc

theorem lookups_right {s : State} (h : Reachable step initial careful s) {tenantID : String}
    (ht : tenantID ≠ "") {answer : Answer} (ha : Answers s.store tenantID answer)
    (hok : answer ≠ .failed) :
    Right s.store tenantID (lookupProject s.cache tenantID answer).1 := by
  have hs := reachable_coherent h
  rcases lookupProject_cases s.cache ht answer with ⟨p,hc,hl⟩ | ⟨-,hl⟩
  · rw [hl]
    exact hs.cached tenantID p hc
  · rw [hl]
    exact Answer.right (hs.named tenantID) ha fun hf => absurd hf hok

def project (projectID tenant : String) : ProjectRecord := ⟨projectID,"",tenant,some [],0,none,0⟩

def fresh : State := ⟨{},fun _ => none⟩

theorem fresh_initial : initial fresh := ⟨rfl,fun _ hp => nomatch hp⟩

def stocked : State :=
  ⟨(({} : Store).upsertProject 0 (project "p" "acme")).upsertProject 1 (project "q" "acme"),fun _ => none⟩

theorem lookups_right_in_run :
    ∃ s, Reachable step initial careful s ∧ s.cache "acme" = some "p" ∧ ¬ Owns s.store "acme" "q" ∧
      Right s.store "acme" (lookupProject s.cache "acme" (.row "p")).1 := by
  have hlookup : careful stocked (.lookup "acme" (.row "p")) := fun _ _ hf => nomatch hf
  have hstep : step stocked (.lookup "acme" (.row "p")) =
      some { stocked with cache := Function.update (fun _ => none) "acme" (some "p") } := by
    have hrow : Answers stocked.store "acme" (.row "p") := by decide +kernel
    rw [step,if_pos hrow]
    rfl
  have hmove : careful { stocked with cache := Function.update (fun _ => none) "acme" (some "p") }
      (.upsertProject (project "q" "globex") 2) := by
    refine ⟨by decide,fun tenantID _ _ hc => ?_⟩
    by_cases ht : tenantID = "acme" <;> simp [ht,project] at hc
  have h : Reachable step initial careful _ := .next _ (.next _
    (.start ⟨rfl,by decide +kernel⟩) hlookup hstep) hmove rfl
  exact ⟨_,h,by decide +kernel,by decide +kernel,
    lookups_right h (by decide) (by decide +kernel) (by decide)⟩

/-- A failed lookup is kept although the tenant has a project. A project that moves to another
tenant stays in the cache of the old one. A project without name is not found. -/
theorem lookups_wrong :
    (∃ s, Reachable step initial anyStep s ∧ Answers s.store "acme" (.row "p") ∧
      ¬ Right s.store "acme" (lookupProject s.cache "acme" (.row "p")).1) ∧
    (∃ s, Reachable step initial anyStep s ∧ Answers s.store "acme" .noRows ∧
      (lookupProject s.cache "acme" .noRows).1 = "p" ∧ ¬ Right s.store "acme" "p") ∧
    ∃ s, Reachable step initial anyStep s ∧ Answers s.store "acme" (.row "") ∧
      ¬ Right s.store "acme" (lookupProject s.cache "acme" (.row "")).1 := by
  refine ⟨?_,?_,?_⟩
  · exact Reachable.exists_of_run step initial fresh
      [.upsertProject (project "p" "acme") 0,.lookup "acme" .failed] _ fresh_initial (by decide +kernel)
  · exact Reachable.exists_of_run step initial fresh
      [.upsertProject (project "p" "acme") 0,.lookup "acme" (.row "p"),
        .upsertProject (project "p" "globex") 1] _ fresh_initial (by decide +kernel)
  · exact Reachable.exists_of_run step initial fresh [.upsertProject (project "" "acme") 0] _ fresh_initial
      (by decide +kernel)

end Projects

end CostConsumer.Metering
