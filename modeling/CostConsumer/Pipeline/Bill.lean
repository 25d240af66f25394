import CostConsumer.Pipeline.Trail
import CostConsumer.Rating.Total
set_option autoImplicit false

/-!
From events to the bill: what a tenant is charged for a billing window is the tier
table's price of what the events of all committed requests report, every event
counted once, however they were batched, repeated and interleaved.
-/

namespace CostConsumer.Ingest
open Inventory Foundation Metering

variable {δ : Type}

def Env.reported (env : Env δ) (ce : CloudEvent) : List MeteringEntry :=
  match env.handle ce with
  | .ok calls => calls.flatMap (Call.entries "")
  | .error _ => []

/-- A quantity of entries that does not depend on ids and projects. -/
structure Quantity where
  of : MeteringEntry → Rat
  stored : ∀ id e, of (Store.meteringRow id e).toMeteringEntry = of (Store.meteringRow 0 e).toMeteringEntry
  project : ∀ id projectID e, of (Store.meteringRow id { e with projectID }).toMeteringEntry =
    of (Store.meteringRow id e).toMeteringEntry

namespace Quantity

variable (q : Quantity)

def total (es : List MeteringEntry) : Rat := (es.map q.of).sum

def asked (es : List MeteringEntry) : Rat :=
  q.total (es.map fun e => (Store.meteringRow 0 e).toMeteringEntry)

@[simp] theorem total_append (es es' : List MeteringEntry) :
    q.total (es ++ es') = q.total es + q.total es' := by
  simp [total]

theorem total_perm {es es' : List MeteringEntry} (h : es.Perm es') : q.total es = q.total es' :=
  (h.map _).sum_eq

theorem total_eq_zero {es : List MeteringEntry} (h : ∀ e ∈ es, q.of e = 0) : q.total es = 0 := by
  rw [total,List.map_congr_left h]
  simp

@[simp] theorem asked_append (es es' : List MeteringEntry) :
    q.asked (es ++ es') = q.asked es + q.asked es' := by
  simp [asked]

theorem total_meteringRows (id : Nat) (es : List MeteringEntry) :
    q.total ((meteringRows id es).map (·.toMeteringEntry)) = q.asked es := by
  induction es generalizing id with
  | nil => rfl
  | cons e es ih =>
    have hrest := ih (id+1)
    simp only [total,asked,meteringRows,List.map_cons,List.sum_cons,q.stored id] at hrest ⊢
    rw [hrest]

theorem asked_congr {es es' : List MeteringEntry}
    (h : es.map (fun e => { e with projectID := "" }) = es'.map (fun e => { e with projectID := "" })) :
    q.asked es = q.asked es' := by
  have hpart : ∀ es : List MeteringEntry,
      q.asked es = q.asked (es.map fun e => { e with projectID := "" }) := by
    intro es
    simp only [asked,total,List.map_map]
    refine congrArg List.sum (List.map_congr_left fun e _ => ?_)
    exact (q.project 0 "" e).symm
  rw [hpart es,h,← hpart es']

end Quantity

theorem maasMeters_projects (usage : MaaSUsage) (projectID : String) (start stop : Int) :
    (maasMeters usage projectID start stop).map (fun e => { e with projectID := "" }) =
      (maasMeters usage "" start stop).map (fun e => { e with projectID := "" }) := by
  simp only [maasMeters,newEntry,List.map_append]
  split_ifs <;> rfl

theorem entries_projects {env : Env δ} {ce : CloudEvent} {calls : List Call}
    (h : env.handle ce = .ok calls) {c : Call} (hc : c ∈ calls) (projectID : String) :
    (c.entries projectID).map (fun e => { e with projectID := "" }) =
      (c.entries "").map (fun e => { e with projectID := "" }) := by
  have hmaas : ∀ usage : MaaSUsage, c ∈ meterMaaSEvent usage →
      (c.entries projectID).map (fun e => { e with projectID := "" }) =
        (c.entries "").map (fun e => { e with projectID := "" }) := by
    intro usage hm
    unfold meterMaaSEvent at hm
    split at hm
    · rw [List.mem_singleton.mp hm]
      exact maasMeters_projects usage projectID _ _
    · cases hm
  cases handle_handled h with
  | nothing => cases hc
  | model ht hdata hid htenant =>
    rcases List.mem_cons.mp hc with rfl | hc
    · rfl
    · exact hmaas _ hc
  | osacInference hv1 hmd ht =>
    rcases List.mem_cons.mp hc with rfl | hc
    · rfl
    · exact hmaas _ hc
  | customMetric hv1 ht hdef hdata =>
    rw [List.mem_singleton.mp hc]
    simp only [Call.entries,List.map_filterMap]
    refine List.filterMap_congr fun m _ => ?_
    cases (extractField _ m.valueField).bind env.toFloat64 with
    | none => rfl
    | some value => by_cases hv : value ≤ 0 <;> simp [hv,newEntry]
  | _ =>
    simp only [processOSACComputeInstance,processOSACClusterOrder,List.mem_cons,List.not_mem_nil,
      or_false] at hc
    rcases hc with rfl | rfl | rfl <;> rfl

section Totals
variable (q : Quantity)

theorem Performed.total {now : Int} {cs : List Call} {ws : List (Write δ)} (h : Performed now cs ws)
    (hp : ∀ c ∈ cs, ∀ projectID, (c.entries projectID).map (fun e => { e with projectID := "" }) =
      (c.entries "").map (fun e => { e with projectID := "" })) :
    q.total ((ws.flatMap Write.rows).map (·.toMeteringEntry)) = q.asked (cs.flatMap (Call.entries "")) := by
  induction h with
  | nil => rfl
  | @snoc cs ws c w db id projectID _ hw ih =>
    have hrows : (w.toList.flatMap Write.rows) = meteringRows id (c.entries projectID) := by
      rcases Call.write_ok hw with rfl | ⟨rfl,k,resourceID,t,rfl,-⟩
      · cases c <;> simp [Call.written,Write.rows,Call.entries,meteringRows]
      · simp [Call.entries,meteringRows]
    simp only [List.flatMap_append,List.map_append,Quantity.total_append,Quantity.asked_append]
    rw [ih fun c' hc' => hp c' (List.mem_append_left _ hc'),hrows,q.total_meteringRows,
      q.asked_congr (hp c (by simp) projectID)]
    simp

theorem Block.Complete.total {env : Env δ} {now : Int} {b : Block δ} (h : b.Complete env now) :
    q.total ((b.writes.flatMap Write.rows).map (·.toMeteringEntry)) = q.asked (env.reported b.event) := by
  obtain ⟨calls,ws,hh,hw,hp⟩ := h.calls
  have hrows : b.writes.flatMap Write.rows = ws.flatMap Write.rows := by
    rw [hw]
    rfl
  rw [hrows,hp.total q fun c hc projectID => ?_]
  · simp [Env.reported,hh,Call.entries]
  · rcases List.mem_cons.mp hc with rfl | hc
    · rfl
    · exact entries_projects hh hc projectID

theorem Tx.total {env : Env δ} {tx : Tx δ} (h : ∀ b ∈ tx.blocks, b.Complete env tx.now) :
    q.total (tx.rows.map (·.toMeteringEntry)) = (tx.claimed.map fun ce => q.asked (env.reported ce)).sum := by
  rw [Tx.rows,Tx.writes,Tx.claimed]
  generalize tx.blocks = blocks at h
  induction blocks with
  | nil => rfl
  | cons b bs ih =>
    have hrest := ih fun b' hb' => h b' (List.mem_cons_of_mem _ hb')
    have hfirst := (h b List.mem_cons_self).total q
    simp only [List.flatMap_cons,List.flatMap_append,List.map_append,List.map_cons,List.sum_cons,
      Quantity.total_append]
    rw [hrest,hfirst]

end Totals

end CostConsumer.Ingest

namespace CostConsumer.Pipeline
open Inventory Foundation Metering Ingest Rating

variable {δ : Type}

def sweptMeters : List String :=
  ["vm_uptime_seconds","vm_cpu_core_seconds","vm_memory_gib_seconds","cluster_uptime_seconds",
    "cluster_worker_node_seconds","cluster_worker_node_count","bm_uptime_seconds"]

theorem meters_swept {k : Kind} {r : k.Record} {types : InstanceTypes} {projectID : String}
    {duration : Rat} {start stop : Int} {e : MeteringEntry}
    (h : e ∈ meters k r types projectID duration start stop) : e.meterName ∈ sweptMeters := by
  cases k with
  | computeInstance =>
    simp only [meters,computeInstanceMeters,List.mem_cons,List.not_mem_nil,or_false] at h
    rcases h with rfl | rfl | rfl <;> simp [newEntry,sweptMeters]
  | cluster =>
    simp only [meters,clusterMeters,List.mem_cons,List.mem_append] at h
    rcases h with rfl | h | h
    · simp [newEntry,sweptMeters]
    · split at h
      · rw [List.mem_singleton.mp h]
        simp [newEntry,sweptMeters]
      · cases h
    · split at h
      · rw [List.mem_singleton.mp h]
        simp [newEntry,sweptMeters]
      · cases h
  | bareMetal =>
    rw [List.mem_singleton.mp h]
    simp [newEntry,sweptMeters]

def usageIn (a : Account) (w : Int × Int) : Quantity where
  of e := if a.owns e && a.window e = some w then e.value else 0
  stored _ _ := rfl
  project _ _ _ := rfl

theorem sumValues_entries (a : Account) (w : Int × Int) (es : List MeteringEntry) :
    Store.sumValues (a.entries w es) = (usageIn a w).total es := by
  induction es with
  | nil => rfl
  | cons e es ih =>
    simp only [Account.entries,Store.sumValues,Quantity.total,usageIn,List.map_cons,List.sum_cons,
      List.filter_cons] at ih ⊢
    by_cases hc : (a.owns e && a.window e = some w) = true
    · rw [if_pos hc,if_pos hc,List.map_cons,List.sum_cons,ih]
    · rw [if_neg hc,if_neg hc,zero_add]
      exact ih

def reportedUsage (env : Env δ) (a : Account) (w : Int × Int) (ce : CloudEvent) : Rat :=
  (usageIn a w).asked (env.reported ce)

def State.requested (s : State δ) : List CloudEvent :=
  (s.ingest.sessions.commits.map (·.2)).flatMap (·.request.events)

/-- A step of a run in which rows become visible in the order of their ids, entries of
the account are proper, and the rater prices them by its rate. -/
def orderly [DecidableEq δ] (env : Env δ) (a : Account) (s : State δ) (l : Label) : Bool :=
  (match l with
    | .wallet (.rating l) => a.oneRate (s.view []).rating l
    | _ => true) &&
  (step env s l).all fun t => s.db.entries.isPrefixOf t.db.entries &&
    t.db.entries.all fun e => !a.owns e || a.proper e

theorem oneRate_view {a : Account} {s : State δ} {l : Rating.Label} (hl : l.own = true)
    (pending pending' : List MeteringRow) :
    a.oneRate (s.view pending).rating l = a.oneRate (s.view pending').rating l := by
  cases l with
  | allocate | commit | abort | alter => cases hl
  | price f =>
    have hp : (s.view pending).rating.phase = s.rater := rfl
    have hp' : (s.view pending').rating.phase = s.rater := rfl
    cases hs : s.rater <;> simp only [Account.oneRate,hp,hp',hs] <;> rfl
  | _ => rfl

theorem permits_oneRate (a : Account) : Permits (fun s l => a.oneRate s l = true) := by
  refine ⟨fun s e => ?_,fun s id => ?_,fun s rates instances tenants => ?_⟩ <;>
    cases s.phase <;> simp [Account.oneRate,marksHold,inOrder]

section Bill
variable [DecidableEq δ] {env : Env δ} {s t : State δ} {l : Label} {a : Account}

theorem shows_oneRate (hst : step env s l = some t) (hok : orderly env a s l = true) :
    Shows (fun s l => a.oneRate s l = true) s.db.meteringEntries t.db.meteringEntries := by
  simp only [orderly,hst,Option.all_some,Bool.and_eq_true,List.all_eq_true,Bool.or_eq_true] at hok
  obtain ⟨-,hpre,hproper⟩ := hok
  obtain ⟨rest,hrest⟩ := List.isPrefixOf_iff_prefix.mp hpre
  intro u row hrow hfresh htable hpending
  have hmem : row.toMeteringEntry ∈ s.db.entries ++ rest := by
    rw [hrest]
    exact List.mem_map_of_mem hrow
  have hlast : row.toMeteringEntry ∈ rest := by
    rcases List.mem_append.mp hmem with hold | hnew
    · obtain ⟨a,ha,he⟩ := List.mem_map.mp hold
      exact absurd (congrArg MeteringEntry.id he) (hfresh a ha)
    · exact hnew
  have hsorted := entries_sorted t.db.toStore
  rw [← hrest,List.pairwise_append] at hsorted
  have hin : inOrder u (.commit row.id) = true := by
    simp only [inOrder,List.all_eq_true,decide_eq_true_eq]
    intro b hb
    rcases htable b hb with hb | hb
    · exact hsorted.2.2 _ (List.mem_map_of_mem hb) _ hlast
    · exact hb
  have hmarks : marksHold u (.commit row.id) = true := rfl
  have hall : u.pending.all (fun r => r.id ≠ row.id || !a.owns r.toMeteringEntry ||
      a.proper r.toMeteringEntry) = true := by
    rw [List.all_eq_true]
    intro b hb
    by_cases hid : b.id = row.id
    · rw [hpending b hb hid]
      have := hproper _ (hrest ▸ hmem)
      simpa using this
    · simp [hid]
  simp only [Account.oneRate,hin,hmarks,hall,Bool.and_true]

theorem reachable_orderly (h : Reachable (step env) initial (fun s l => orderly env a s l = true) s) :
    ∃ r, Reachable Rating.step Rating.initial (fun s l => a.oneRate s l = true) r ∧
      ∃ pending : List MeteringRow, pending.Perm s.ingest.openRows ∧ r = (s.view pending).rating := by
  refine h.simulated (R := fun s r => ∃ pending : List MeteringRow,
    pending.Perm s.ingest.openRows ∧ r = (s.view pending).rating) (fun s hi => ?_)
    fun s l t r hs hr hv hok hst => ?_
  · refine ⟨(s.view []).rating,hi.wallets.2,[],?_,rfl⟩
    rw [Ingest.State.openRows,hi.active]
    exact .refl _
  · obtain ⟨pending,hp,rfl⟩ := hv
    have hshow := shows_oneRate hst hok
    by_cases hl : l.others = true
    · obtain ⟨pending',hp',hrun⟩ := run_others (permits_oneRate a) (reachable_inv hs) hp
        (reachable_ok hr).1 hl hst hshow
      exact ⟨_,hrun,pending',hp',rfl⟩
    · cases l with
      | wallet l =>
        obtain ⟨hown,ho,hstep⟩ := view_wallet hst pending
        refine ⟨(t.view pending).rating,?_,pending,ho ▸ hp,rfl⟩
        cases l with
        | rating l =>
          obtain ⟨r,hr,hview⟩ := Option.map_eq_some_iff.mp hstep
          simp only [orderly,Bool.and_eq_true] at hok
          refine .one ?_ (hr.trans (congrArg some ?_))
          · rw [oneRate_view hown pending []]
            exact hok.1
          · rw [← hview]
        | _ => exact .start (rating_kept (by simp) hstep)
      | _ => exact absurd rfl hl

theorem usage_taken (hm : a.meterName ∉ sweptMeters) {ok : State δ → Label → Prop}
    (h : Reachable (step env) initial ok s) (w : Int × Int) :
    Store.sumValues (a.entries w s.db.entries) = (s.taken.map (reportedUsage env a w)).sum := by
  obtain ⟨metered,hp,hmet⟩ := reachable_recorded h
  have hcomplete := (reachable_inv h).sound.ingested.complete
  have hzero : (usageIn a w).total metered = 0 := by
    refine Quantity.total_eq_zero _ fun e he => ?_
    obtain ⟨e',⟨k,r,types,projectID,stop,-,hmem⟩,hs⟩ := hmet e he
    have hname : e.meterName = e'.meterName := by
      rw [hs]
      rfl
    have hne : a.owns e = false := by
      have hmeter := meters_swept hmem
      simp only [Account.owns,Bool.and_eq_false_iff,decide_eq_false_iff_not]
      exact .inr fun heq => hm (by rw [← heq,hname]; exact hmeter)
    simp [usageIn,hne]
  rw [sumValues_entries,Quantity.total_perm _ hp,Quantity.total_append,hzero,add_zero]
  rw [State.eventEntries,State.taken]
  generalize s.ingest.sessions.commits = commits at hcomplete
  induction commits with
  | nil => rfl
  | cons c commits ih =>
    simp only [List.flatMap_cons,List.map_cons,List.map_append,List.sum_append,Quantity.total_append]
    rw [Tx.total _ (hcomplete c.2 (by simp)),ih fun tx htx => hcomplete tx (List.mem_cons_of_mem _ htx)]
    rfl

end Bill

end CostConsumer.Pipeline
