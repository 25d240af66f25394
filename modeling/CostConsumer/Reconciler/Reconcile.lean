import CostConsumer.Watcher.Handle
set_option autoImplicit false

/-!
Reconciliation with what the fulfillment service lists. For each kind of resource a
pass reads the rows that are alive, upserts the listed objects that are not among
them, and marks the rows that are not listed. The objects are visited in the order
of a Go map, which is any order.
-/

namespace CostConsumer.Reconciler
open Foundation Inventory Service Watcher Osac
open Ingest (Env)

variable {δ : Type}

abbrev Object : Kind → Type
  | .computeInstance => ComputeInstance
  | .cluster => Cluster
  | .bareMetal => BareMetalInstance

def objectID : (k : Kind) → Object k → String
  | .computeInstance, ci => ci.id
  | .cluster, cl => cl.id
  | .bareMetal, bm => bm.id

def record : (k : Kind) → Int → Object k → k.Record
  | .computeInstance, now, ci => { computeInstanceRecord now "reconcile" ci with labels := marshalLabels none }
  | .cluster, now, cl =>
      { clusterRecord now "reconcile" cl with labels := marshalLabels none, nodeSets := marshalLabels none }
  | .bareMetal, now, bm => { bareMetalInstanceRecord now "reconcile" bm with labels := marshalLabels none }

@[simp] theorem id_record (k : Kind) (now : Int) (o : Object k) : k.id (record k now o) = objectID k o := by
  cases k <;> rfl

@[simp] theorem deletedAt_record (k : Kind) (now : Int) (o : Object k) :
    k.deletedAt (record k now o) = none := by
  cases k <;> rfl

/-- One pass over a listing: the order in which the last object of each id is
visited, and the time at which the resource of an id is handled. -/
structure Pass (k : Kind) (listed : List (Object k)) where
  order : List (Object k)
  visits : order.Perm (latest (objectID k) listed)
  time : String → Int

namespace Pass

variable {k : Kind} {listed : List (Object k)} (p : Pass k listed)

def upsert (o : Object k) : Label :=
  .meter (.upsert k (record k (p.time (objectID k o)) o) (p.time (objectID k o)))

def mark (r : k.Record) : Label := .reconciled k (k.id r) (p.time (k.id r))

def labels (known : List k.Record) : List Label :=
  (p.order.filter fun o => known.all fun r => k.id r ≠ objectID k o).map p.upsert ++
    (known.filter fun r => listed.all fun o => objectID k o ≠ k.id r).map p.mark

def run (env : Env δ) (s : Metering.State) : Option Metering.State :=
  runLabels (Service.step env) s (p.labels (s.store.alive k))

end Pass

theorem latest_map {α β : Type} (id : β → String) (f : α → β) (as : List α) :
    latest id (as.map f) = (latest (fun a => id (f a)) as).map f := by
  induction as with
  | nil => rfl
  | cons a as ih =>
    simp only [List.map_cons,latest,List.any_map,Function.comp_def,ih]
    split <;> rfl

def Pass.atOnce (k : Kind) (listed : List (Object k)) (now : Int) : Pass k listed :=
  ⟨latest (objectID k) listed,.refl _,fun _ => now⟩

theorem atOnce_labels (k : Kind) (listed : List (Object k)) (now : Int) (known : List k.Record) :
    (Pass.atOnce k listed now).labels known = reconcile k now (listed.map (record k now)) known := by
  simp only [Pass.labels,Pass.atOnce,reconcile,latest_map,List.filter_map,List.map_map,List.all_map,
    Function.comp_def,id_record]
  rfl

theorem exists_latest {α : Type} (id : α → String) {as : List α} {a : α} (ha : a ∈ as) :
    ∃ b ∈ latest id as, id b = id a := by
  induction as generalizing a with
  | nil => cases ha
  | cons c as ih =>
    unfold latest
    split
    · rename_i hany
      rcases List.mem_cons.mp ha with rfl | ha
      · obtain ⟨d,hd,hda⟩ := List.any_eq_true.mp hany
        obtain ⟨b,hb,hbd⟩ := ih hd
        exact ⟨b,hb,hbd.trans (of_decide_eq_true hda)⟩
      · exact ih ha
    · rcases List.mem_cons.mp ha with rfl | ha
      · exact ⟨a,List.mem_cons_self,rfl⟩
      · obtain ⟨b,hb,hba⟩ := ih ha
        exact ⟨b,List.mem_cons_of_mem _ hb,hba⟩

theorem latest_nodup {α : Type} (id : α → String) (as : List α) : ((latest id as).map id).Nodup := by
  induction as with
  | nil => exact List.nodup_nil
  | cons a as ih =>
    unfold latest
    split
    · exact ih
    · rename_i hany
      refine List.nodup_cons.mpr ⟨fun ha => hany ?_,ih⟩
      obtain ⟨b,hb,hba⟩ := List.mem_map.mp ha
      exact List.any_eq_true.mpr ⟨b,mem_latest hb,decide_eq_true hba⟩

def Listed {k : Kind} (listed : List (Object k)) (id : String) : Prop := ∃ o ∈ listed, objectID k o = id

theorem Pass.listed_iff {k : Kind} {listed : List (Object k)} (p : Pass k listed) {id : String} :
    (∃ o ∈ p.order, objectID k o = id) ↔ Listed listed id := by
  constructor
  · rintro ⟨o,ho,rfl⟩
    exact ⟨o,mem_latest (p.visits.mem_iff.mp ho),rfl⟩
  · rintro ⟨o,ho,rfl⟩
    obtain ⟨o',ho',hid⟩ := exists_latest (objectID k) ho
    exact ⟨o',p.visits.mem_iff.mpr ho',hid⟩

structure OthersKept (k : Kind) (s t : Store) : Prop where
  table : ∀ k', k' ≠ k → t.table k' = s.table k'
  projects : t.projects = s.projects
  tenants : t.tenants = s.tenants

theorem OthersKept.refl (k : Kind) (s : Store) : OthersKept k s s := ⟨fun _ _ => rfl,rfl,rfl⟩

theorem OthersKept.trans {k : Kind} {s t u : Store} (h : OthersKept k s t) (h' : OthersKept k t u) :
    OthersKept k s u :=
  ⟨fun k' hk => (h'.table k' hk).trans (h.table k' hk),h'.projects.trans h.projects,
    h'.tenants.trans h.tenants⟩

theorem setTable_others (s : Store) (k : Kind) (t : Table String k.Record k.id) :
    OthersKept k s (s.setTable k t) :=
  ⟨fun _ hk => Store.table_setTable_of_ne s hk t,by cases k <;> rfl,by cases k <;> rfl⟩

section Runs
variable {k : Kind} {listed : List (Object k)} (p : Pass k listed) (env : Env δ)

def Pass.upserted (o : Object k) (old : Option k.Record) : k.Record :=
  let now := p.time (objectID k o)
  old.elim (k.fresh now (record k now o)) (k.merge now (record k now o))

theorem upserts_run (os : List (Object k)) (s : Metering.State) :
    ∃ t, runLabels (Service.step env) s (os.map p.upsert) = some t ∧ OthersKept k s.store t.store ∧
      (∀ id, (∀ o ∈ os, objectID k o ≠ id) → (t.store.table k).find? id = (s.store.table k).find? id) ∧
      ((os.map (objectID k)).Nodup → ∀ o ∈ os, (t.store.table k).find? (objectID k o) =
        some (p.upserted o ((s.store.table k).find? (objectID k o)))) := by
  have hstep : ∀ o s, ∃ t, Service.step env s (p.upsert o) = some t ∧ OthersKept k s.store t.store ∧
      ∀ id, (t.store.table k).find? id = if objectID k o = id then
        some (p.upserted o ((s.store.table k).find? id)) else (s.store.table k).find? id := fun o s => by
    refine ⟨_,rfl,setTable_others s.store k _,fun id => ?_⟩
    have h := s.store.find?_upsert k (p.time (objectID k o)) (record k (p.time (objectID k o)) o) id
    rwa [id_record] at h
  exact runLabels_writes (R := fun s t => OthersKept k s.store t.store) (fun s => .refl k s.store)
    (fun _ _ _ => OthersKept.trans) hstep os s

theorem marks_run (rs : List k.Record) (s : Metering.State) :
    ∃ t, runLabels (Service.step env) s (rs.map p.mark) = some t ∧ OthersKept k s.store t.store ∧
      (∀ id, (∀ r ∈ rs, k.id r ≠ id) → (t.store.table k).find? id = (s.store.table k).find? id) ∧
      ∀ r ∈ rs, ∀ r', (t.store.table k).find? (k.id r) = some r' → k.deletedAt r' ≠ none := by
  induction rs generalizing s with
  | nil => exact ⟨s,rfl,.refl k _,fun _ _ => rfl,fun _ hr => nomatch hr⟩
  | cons r rs ih =>
    let u := s.withStore (s.store.markDeleted k (k.id r) (p.time (k.id r)) "reconcile" (p.time (k.id r)))
    have hfind := s.store.find?_markDeleted k (k.id r) (p.time (k.id r)) "reconcile" (p.time (k.id r))
    obtain ⟨t,ht,hothers,hsame,hgone⟩ := ih u
    refine ⟨t,ht,(setTable_others s.store k _).trans hothers,fun id hid => ?_,fun r' hr' r'' hr'' => ?_⟩
    · rw [hsame id fun r' hr' => hid r' (List.mem_cons_of_mem _ hr')]
      refine (hfind id).trans ?_
      cases hf : (s.store.table k).find? id with
      | none => rfl
      | some r' =>
        have hne := hid r List.mem_cons_self
        rw [← (Table.find?_eq_some.mp hf).2] at hne
        rw [Option.map_some,if_neg fun h => hne h.1.symm]
    · by_cases hlater : ∃ r₁ ∈ rs, k.id r₁ = k.id r'
      · obtain ⟨r₁,hr₁,hid⟩ := hlater
        exact hgone r₁ hr₁ r'' (hid ▸ hr'')
      · rcases List.mem_cons.mp hr' with rfl | hr'
        · rw [hsame _ fun r₁ hr₁ hid => hlater ⟨r₁,hr₁,hid⟩] at hr''
          obtain ⟨r₁,hf,rfl⟩ := Option.map_eq_some_iff.mp ((hfind _).symm.trans hr'')
          have hid := (Table.find?_eq_some.mp hf).2
          by_cases hd : k.deletedAt r₁ = none
          · rw [if_pos ⟨hid,hd⟩]
            simp
          · rwa [if_neg fun h => hd h.2]
        · exact absurd ⟨r',hr',rfl⟩ hlater

end Runs

@[simp] theorem Pass.deletedAt_upserted {k : Kind} {listed : List (Object k)} (p : Pass k listed)
    (o : Object k) (old : Option k.Record) : k.deletedAt (p.upserted o old) = none := by
  cases old <;> simp [upserted]

/-- What a pass leaves: the listed ids are alive, and no others; rows that were right
are as they were. -/
structure Converged {k : Kind} {listed : List (Object k)} (p : Pass k listed) (before after : Store) :
    Prop where
  live : ∀ id, (∃ r ∈ after.alive k, k.id r = id) ↔ Listed listed id
  kept : ∀ r ∈ before.alive k, Listed listed (k.id r) → r ∈ (after.table k).rows
  gone : ∀ r ∈ (before.table k).rows, k.deletedAt r ≠ none → ¬ Listed listed (k.id r) →
    r ∈ (after.table k).rows
  revived : ∀ o ∈ p.order, (¬ ∃ r ∈ before.alive k, k.id r = objectID k o) →
    (after.table k).find? (objectID k o) =
      some (p.upserted o ((before.table k).find? (objectID k o)))

namespace Pass

variable {k : Kind} {listed : List (Object k)} (p : Pass k listed) (env : Env δ)

theorem order_nodup : (p.order.map (objectID k)).Nodup :=
  ((p.visits.map _).nodup_iff).mpr (latest_nodup _ _)

theorem not_listed_iff {known : List k.Record} {r : k.Record} :
    r ∈ known.filter (fun r => listed.all fun o => objectID k o ≠ k.id r) ↔
      r ∈ known ∧ ¬ Listed listed (k.id r) := by
  simp [Listed]

theorem not_known_iff {known : List k.Record} {o : Object k} :
    o ∈ p.order.filter (fun o => known.all fun r => k.id r ≠ objectID k o) ↔
      o ∈ p.order ∧ ¬ ∃ r ∈ known, k.id r = objectID k o := by
  simp

structure Effect (before after : Store) : Prop where
  kept : ∀ r ∈ before.alive k, Listed listed (k.id r) → (after.table k).find? (k.id r) = some r
  upserted : ∀ o ∈ p.order, (¬ ∃ r ∈ before.alive k, k.id r = objectID k o) →
    (after.table k).find? (objectID k o) = some (p.upserted o ((before.table k).find? (objectID k o)))
  marked : ∀ r ∈ before.alive k, ¬ Listed listed (k.id r) →
    ∀ r', (after.table k).find? (k.id r) = some r' → k.deletedAt r' ≠ none
  untouched : ∀ id, ¬ Listed listed id → (¬ ∃ r ∈ before.alive k, k.id r = id) →
    (after.table k).find? id = (before.table k).find? id

theorem run_effect (s : Metering.State) :
    ∃ t, p.run env s = some t ∧ OthersKept k s.store t.store ∧ p.Effect s.store t.store := by
  obtain ⟨u,hu,hothers,hsame,hnew⟩ := upserts_run p env
    (p.order.filter fun o => (s.store.alive k).all fun r => k.id r ≠ objectID k o) s
  replace hnew := hnew (p.order_nodup.sublist (List.filter_sublist.map _))
  obtain ⟨t,ht,hothers',hsame',hgone⟩ := marks_run p env
    ((s.store.alive k).filter fun r => listed.all fun o => objectID k o ≠ k.id r) u
  refine ⟨t,by rw [run,labels,runLabels_append,hu,Option.bind_some,ht],
    hothers.trans hothers',?_⟩
  have hlisted : ∀ id, Listed listed id → (t.store.table k).find? id = (u.store.table k).find? id :=
    fun id hl => hsame' id fun r hr hid => (not_listed_iff.mp hr).2 (hid ▸ hl)
  constructor
  · intro r hr hl
    rw [hlisted _ hl,hsame _ fun o ho hid => (p.not_known_iff.mp ho).2 ⟨r,hr,hid.symm⟩]
    exact (Store.mem_alive.mp hr).1
  · intro o ho hk
    rw [hlisted _ (p.listed_iff.mp ⟨o,ho,rfl⟩)]
    exact hnew o (p.not_known_iff.mpr ⟨ho,hk⟩)
  · intro r hr hl
    exact hgone r (not_listed_iff.mpr ⟨hr,hl⟩)
  · intro id hl hk
    rw [hsame' id fun r hr hid => hk ⟨r,(not_listed_iff.mp hr).1,hid⟩]
    exact hsame id fun o ho hid => hl (p.listed_iff.mp ⟨o,(p.not_known_iff.mp ho).1,hid⟩)

theorem Effect.live_iff {p : Pass k listed} {before after : Store} (h : p.Effect before after)
    (id : String) : (∃ r ∈ after.alive k, k.id r = id) ↔ Listed listed id := by
  constructor
  · rintro ⟨r,hr,rfl⟩
    obtain ⟨hf,hd⟩ := Store.mem_alive.mp hr
    by_contra hl
    by_cases hk : ∃ r' ∈ before.alive k, k.id r' = k.id r
    · obtain ⟨r',hr',hid⟩ := hk
      exact h.marked r' hr' (hid ▸ hl) r (hid ▸ hf) hd
    · rw [h.untouched _ hl hk] at hf
      exact hk ⟨r,Store.mem_alive.mpr ⟨hf,hd⟩,rfl⟩
  · intro hl
    by_cases hk : ∃ r ∈ before.alive k, k.id r = id
    · obtain ⟨r,hr,rfl⟩ := hk
      exact ⟨r,Store.mem_alive.mpr ⟨h.kept r hr hl,(Store.mem_alive.mp hr).2⟩,rfl⟩
    · obtain ⟨o,ho,rfl⟩ := p.listed_iff.mpr hl
      exact Store.exists_alive.mpr ⟨_,h.upserted o ho hk,p.deletedAt_upserted o _⟩

theorem Effect.converged {p : Pass k listed} {before after : Store} (h : p.Effect before after) :
    Converged p before after := by
  refine ⟨h.live_iff,fun r hr hl => (Table.find?_eq_some.mp (h.kept r hr hl)).1,fun r hr hd hl => ?_,
    h.upserted⟩
  have hf : (before.table k).find? (k.id r) = some r := Table.find?_eq_some.mpr ⟨hr,rfl⟩
  have hk : ¬ ∃ r' ∈ before.alive k, k.id r' = k.id r := by simp [Store.exists_alive,hf,hd]
  rw [← h.untouched _ hl hk] at hf
  exact (Table.find?_eq_some.mp hf).1

theorem converges (s : Metering.State) :
    ∃ t, p.run env s = some t ∧ OthersKept k s.store t.store ∧ Converged p s.store t.store := by
  obtain ⟨t,ht,hothers,heffect⟩ := p.run_effect env s
  exact ⟨t,ht,hothers,heffect.converged⟩

theorem labels_eq_nil {known : List k.Record} (h : ∀ id, (∃ r ∈ known, k.id r = id) ↔ Listed listed id) :
    p.labels known = [] := by
  rw [labels,List.append_eq_nil_iff,List.map_eq_nil_iff,List.map_eq_nil_iff,List.eq_nil_iff_forall_not_mem,
    List.eq_nil_iff_forall_not_mem]
  constructor
  · intro o ho
    obtain ⟨ho,hno⟩ := p.not_known_iff.mp ho
    exact hno ((h _).mpr (p.listed_iff.mp ⟨o,ho,rfl⟩))
  · intro r hr
    obtain ⟨hr,hno⟩ := not_listed_iff.mp hr
    exact hno ((h _).mp ⟨r,hr,rfl⟩)

end Pass

/-- The passes over projects, tenants and instance types upsert all that is listed;
each object comes with the time at which it is handled. Labels are not set. -/
def projectLabel (l : Int × Named) : Label :=
  .meter (.upsertProject { projectRecord l.1 l.2 with labels := marshalLabels none } l.1)

def tenantLabel (l : Int × Named) : Label :=
  .upsertTenant { tenantRecord l.1 l.2 with labels := marshalLabels none } l.1

def instanceTypeLabel (l : Int × InstanceType) : Label :=
  .meter (.upsertInstanceType (instanceTypeRecord l.1 l.2) l.1)

def reconcileProjects (listed : List (Int × Named)) : List Label := listed.map projectLabel
def reconcileTenants (listed : List (Int × Named)) : List Label := listed.map tenantLabel
def reconcileInstanceTypes (listed : List (Int × InstanceType)) : List Label :=
  listed.map instanceTypeLabel

/-- One reconciliation against a collection of each kind of resource. -/
structure Round (osac : (k : Kind) → List (Object k)) where
  projects : List (Int × Named)
  tenants : List (Int × Named)
  instanceTypes : List (Int × InstanceType)
  pass : (k : Kind) → Pass k (osac k)

/-- The catalog items, which come last, have a table of their own. -/
def Round.reconcileAll {osac : (k : Kind) → List (Object k)} (r : Round osac) (env : Env δ)
    (s : Metering.State) : Option Metering.State := do
  let s ← runLabels (Service.step env) s (reconcileProjects r.projects)
  let s ← runLabels (Service.step env) s (reconcileTenants r.tenants)
  let s ← (r.pass .computeInstance).run env s
  let s ← (r.pass .cluster).run env s
  let s ← runLabels (Service.step env) s (reconcileInstanceTypes r.instanceTypes)
  (r.pass .bareMetal).run env s

/-- The tables of resources are as they were, and so is what is observed by `obs`. -/
structure TablesKept {γ : Type} (obs : Store → γ) (s t : Metering.State) : Prop where
  table : ∀ k, t.store.table k = s.store.table k
  obs : obs t.store = obs s.store

theorem TablesKept.refl {γ : Type} (obs : Store → γ) (s : Metering.State) : TablesKept obs s s :=
  ⟨fun _ => rfl,rfl⟩

theorem TablesKept.trans {γ : Type} {obs : Store → γ} {s t u : Metering.State} (h : TablesKept obs s t)
    (h' : TablesKept obs t u) : TablesKept obs s u :=
  ⟨fun k => (h'.table k).trans (h.table k),h'.obs.trans h.obs⟩

def upsertedProject (l : Int × Named) (old : Option ProjectRecord) : ProjectRecord :=
  let r : ProjectRecord := { projectRecord l.1 l.2 with labels := marshalLabels none }
  old.elim r fun old => { r with projectID := old.projectID, createdAt := old.createdAt }

def upsertedTenant (l : Int × Named) (old : Option TenantRecord) : TenantRecord :=
  let r : TenantRecord := { tenantRecord l.1 l.2 with labels := marshalLabels none }
  old.elim r fun old => { r with tenantID := old.tenantID, createdAt := old.createdAt }

section Other
variable (env : Env δ) (s : Metering.State)

theorem reconcileProjects_run (listed : List (Int × Named)) :
    ∃ t, runLabels (Service.step env) s (reconcileProjects listed) = some t ∧
      TablesKept (·.tenants) s t ∧ ((listed.map (·.2.id)).Nodup → ∀ l ∈ listed,
        t.store.projects.find? l.2.id = some (upsertedProject l (s.store.projects.find? l.2.id))) := by
  have hstep : ∀ l s, ∃ t, Service.step env s (projectLabel l) = some t ∧ TablesKept (·.tenants) s t ∧
      ∀ id, t.store.projects.find? id = if l.2.id = id then
        some (upsertedProject l (s.store.projects.find? id)) else s.store.projects.find? id := fun l s =>
    ⟨_,rfl,⟨fun k => by cases k <;> rfl,rfl⟩,fun id => s.store.find?_upsertProject _ _ id⟩
  obtain ⟨t,ht,hk,-,hrows⟩ := runLabels_writes (.refl _) (fun _ _ _ => .trans) hstep listed s
  exact ⟨t,ht,hk,hrows⟩

theorem reconcileTenants_run (listed : List (Int × Named)) :
    ∃ t, runLabels (Service.step env) s (reconcileTenants listed) = some t ∧
      TablesKept (·.projects) s t ∧ ((listed.map (·.2.id)).Nodup → ∀ l ∈ listed,
        t.store.tenants.find? l.2.id = some (upsertedTenant l (s.store.tenants.find? l.2.id))) := by
  have hstep : ∀ l s, ∃ t, Service.step env s (tenantLabel l) = some t ∧ TablesKept (·.projects) s t ∧
      ∀ id, t.store.tenants.find? id = if l.2.id = id then
        some (upsertedTenant l (s.store.tenants.find? id)) else s.store.tenants.find? id := fun l s =>
    ⟨_,rfl,⟨fun k => by cases k <;> rfl,rfl⟩,fun id => s.store.find?_upsertTenant _ _ id⟩
  obtain ⟨t,ht,hk,-,hrows⟩ := runLabels_writes (.refl _) (fun _ _ _ => .trans) hstep listed s
  exact ⟨t,ht,hk,hrows⟩

theorem reconcileInstanceTypes_run (listed : List (Int × InstanceType)) :
    ∃ t, runLabels (Service.step env) s (reconcileInstanceTypes listed) = some t ∧
      TablesKept (fun s => (s.projects,s.tenants)) s t := by
  refine runLabels_total (.refl _) (fun _ _ _ => .trans) (fun l hl s => ?_) s
  obtain ⟨it,-,rfl⟩ := List.mem_map.mp hl
  exact ⟨_,rfl,fun k => by cases k <;> rfl,rfl⟩

end Other

theorem Converged.congr {k : Kind} {listed : List (Object k)} {p : Pass k listed}
    {before before' after after' : Store} (h : Converged p before after)
    (hb : before'.table k = before.table k) (ha : after'.table k = after.table k) :
    Converged p before' after' := by
  have hba : before'.alive k = before.alive k := by rw [Store.alive,hb,Store.alive]
  have haa : after'.alive k = after.alive k := by rw [Store.alive,ha,Store.alive]
  constructor
  · rw [haa]
    exact h.live
  · rw [hba,ha]
    exact h.kept
  · rw [hb,ha]
    exact h.gone
  · rw [hba,hb,ha]
    exact h.revived

/-- What a whole reconciliation leaves, table by table. -/
structure Round.Done {osac : (k : Kind) → List (Object k)} (r : Round osac) (before after : Store) : Prop where
  pass : ∀ k, Converged (r.pass k) before after
  projects : (r.projects.map (·.2.id)).Nodup → ∀ l ∈ r.projects,
    after.projects.find? l.2.id = some (upsertedProject l (before.projects.find? l.2.id))
  tenants : (r.tenants.map (·.2.id)).Nodup → ∀ l ∈ r.tenants,
    after.tenants.find? l.2.id = some (upsertedTenant l (before.tenants.find? l.2.id))

namespace Round

variable {osac : (k : Kind) → List (Object k)} (r : Round osac) (env : Env δ)

theorem done (s : Metering.State) : ∃ t, r.reconcileAll env s = some t ∧ r.Done s.store t.store := by
  obtain ⟨s₁,h₁,k₁,p₁⟩ := reconcileProjects_run env s r.projects
  obtain ⟨s₂,h₂,k₂,p₂⟩ := reconcileTenants_run env s₁ r.tenants
  obtain ⟨s₃,h₃,k₃,c₃⟩ := (r.pass .computeInstance).converges env s₂
  obtain ⟨s₄,h₄,k₄,c₄⟩ := (r.pass .cluster).converges env s₃
  obtain ⟨s₅,h₅,k₅⟩ := reconcileInstanceTypes_run env s₄ r.instanceTypes
  obtain ⟨t,h₆,k₆,c₆⟩ := (r.pass .bareMetal).converges env s₅
  obtain ⟨hprojects,htenants⟩ := Prod.mk.inj k₅.obs
  have hbefore : ∀ k, s₂.store.table k = s.store.table k := fun k => (k₂.table k).trans (k₁.table k)
  refine ⟨t,by simp [reconcileAll,h₁,h₂,h₃,h₄,h₅,h₆],fun k => ?_,fun hnd l hl => ?_,fun hnd l hl => ?_⟩
  · cases k with
    | computeInstance =>
      refine c₃.congr (hbefore _).symm ?_
      rw [k₆.table _ (by decide),k₅.table,k₄.table _ (by decide)]
    | cluster =>
      refine c₄.congr ?_ ?_
      · rw [k₃.table _ (by decide),hbefore]
      · rw [k₆.table _ (by decide),k₅.table]
    | bareMetal =>
      refine c₆.congr ?_ rfl
      rw [k₅.table,k₄.table _ (by decide),k₃.table _ (by decide),hbefore]
  · rw [k₆.projects,hprojects,k₄.projects,k₃.projects,k₂.obs,p₁ hnd l hl]
  · rw [k₆.tenants,htenants,k₄.tenants,k₃.tenants,p₂ hnd l hl,k₁.obs]

theorem settled {s : Metering.State}
    (h : ∀ k id, (∃ r ∈ s.store.alive k, k.id r = id) ↔ Listed (osac k) id) :
    ∃ t, r.reconcileAll env s = some t ∧ ∀ k, t.store.table k = s.store.table k := by
  have hpass {u : Metering.State} (hu : ∀ k, u.store.table k = s.store.table k) (k : Kind) :
      (r.pass k).run env u = some u := by
    have halive : u.store.alive k = s.store.alive k := by rw [Store.alive,hu k,Store.alive]
    rw [Pass.run,halive,(r.pass k).labels_eq_nil (h k)]
    rfl
  obtain ⟨s₁,h₁,k₁,-⟩ := reconcileProjects_run env s r.projects
  obtain ⟨s₂,h₂,k₂,-⟩ := reconcileTenants_run env s₁ r.tenants
  obtain ⟨t,h₃,k₃⟩ := reconcileInstanceTypes_run env s₂ r.instanceTypes
  have hkept : ∀ k, s₂.store.table k = s.store.table k := fun k => (k₂.table k).trans (k₁.table k)
  have hkept' : ∀ k, t.store.table k = s.store.table k := fun k => (k₃.table k).trans (hkept k)
  refine ⟨t,?_,hkept'⟩
  simp [reconcileAll,h₁,h₂,h₃,hpass hkept,hpass hkept']

end Round

/-- One reconciliation makes the inventory agree with what is listed and leaves alone
what already does; a second one finds nothing to do. -/
theorem reconciliation_converges (env : Env δ) (osac : (k : Kind) → List (Object k))
    (round again : Round osac) (s : Metering.State) :
    ∃ t u, round.reconcileAll env s = some t ∧ again.reconcileAll env t = some u ∧
      ∀ k, (∀ id, (∃ r ∈ t.store.alive k, k.id r = id) ↔ ∃ o ∈ osac k, objectID k o = id) ∧
        (∀ r ∈ s.store.alive k, (∃ o ∈ osac k, objectID k o = k.id r) → r ∈ (t.store.table k).rows) ∧
        (∀ r ∈ (s.store.table k).rows, k.deletedAt r ≠ none → (¬ ∃ o ∈ osac k, objectID k o = k.id r) →
          r ∈ (t.store.table k).rows) ∧
        u.store.table k = t.store.table k := by
  obtain ⟨t,ht,hd⟩ := round.done env s
  obtain ⟨u,hu,hk⟩ := again.settled env fun k => (hd.pass k).live
  exact ⟨t,u,ht,hu,fun k => ⟨(hd.pass k).live,(hd.pass k).kept,(hd.pass k).gone,hk k⟩⟩

end CostConsumer.Reconciler
