import CostConsumer.Foundation.Simulation
import CostConsumer.Rating.Safety
set_option autoImplicit false

/-!
What the rest of the service does to the rater's tables, as runs of the rater's
machine: a statement takes ids for its rows, a transaction makes its rows visible
or gives them up, and the inventory changes.
-/

namespace CostConsumer.Inventory
open Foundation

def meteringRows : Nat → List MeteringEntry → List MeteringRow
  | _, [] => []
  | id, e :: es => Store.meteringRow id e :: meteringRows (id+1) es

namespace Store

theorem addMetering_eq (s : Store) (id : Nat) (es : List MeteringEntry) :
    s.addMetering id es =
      { s with meteringEntries := (meteringRows id es).foldl Table.insert s.meteringEntries } := by
  induction es generalizing s id with
  | nil => rfl
  | cons e es ih =>
    rw [addMetering,ih]
    rfl

def billing (s : Store) : Store :=
  { s with
    clusters := .empty
    bareMetalInstances := .empty
    models := .empty
    instanceTypes := .empty
    projects := .empty }

end Store

end CostConsumer.Inventory

namespace CostConsumer.Rating
open Inventory Foundation

def Label.own : Label → Bool
  | .allocate _ => false
  | .commit _ => false
  | .abort _ => false
  | .alter _ _ _ => false
  | _ => true

/-- The state without the tables the rater has no use for, among rows of others. -/
def State.among (s : State) (nextID : Nat) (pending : List MeteringRow) : State :=
  { s with store := s.store.billing, nextID, pending }

theorem step_among {l : Label} (hl : l.own = true) (s : State) (nextID : Nat)
    (pending : List MeteringRow) :
    step (s.among nextID pending) l = (step s l).map (·.among nextID pending) := by
  cases l with
  | allocate | commit | abort | alter => cases hl
  | begin r now failed =>
    cases hp : s.phase with
    | idle =>
      cases failed with
      | true => simp [step,State.among,hp]
      | false =>
        simp [step,State.among,hp,State.goto]
        rfl
    | _ => simp [step,State.among,hp]
  | cancel => cases hp : s.phase <;> simp [step,State.among,hp,State.goto]
  | fetch failed =>
    cases hp : s.phase with
    | ready p =>
      have he : s.store.billing.unratedMeteringEntries p.batch = s.store.unratedMeteringEntries p.batch :=
        rfl
      by_cases hc : failed ∨ s.store.unratedMeteringEntries p.batch = [] <;>
        simp [step,State.among,hp,State.goto,he,hc]
    | _ => simp [step,State.among,hp]
  | price f =>
    cases hp : s.phase with
    | pricing w =>
      cases ht : w.todo with
      | nil => simp [step,State.among,hp,ht]
      | cons me rest =>
        simp only [step,State.among,hp,ht,State.goto,Option.map_some]
        rfl
    | _ => simp [step,State.among,hp]
  | insert failed =>
    cases hp : s.phase with
    | pricing w =>
      by_cases ht : w.todo = []
      · by_cases hc : w.batch.costEntries = []
        · simp [step,State.among,hp,State.goto,ht,hc]
        · cases failed with
          | true => simp [step,State.among,hp,State.goto,ht,hc]
          | false =>
            have hb : s.store.billing.insertCostEntryBatch w.batch.costEntries =
                (s.store.insertCostEntryBatch w.batch.costEntries).map Store.billing := by
              unfold Store.insertCostEntryBatch Store.insertCostEntry
              split
              · rfl
              · split <;> rfl
              · split
                · rfl
                · split <;> rfl
            cases hi : s.store.insertCostEntryBatch w.batch.costEntries with
            | error e => simp [step,State.among,hp,State.goto,ht,hc,hb,hi,Except.map]
            | ok store => simp [step,State.among,hp,ht,hc,hb,hi,Except.map]
      · simp [step,State.among,hp,ht]
    | _ => simp [step,State.among,hp]
  | mark failed now =>
    cases hp : s.phase with
    | inserted w =>
      cases failed with
      | true => simp [step,State.among,hp,State.goto]
      | false =>
        simp [step,State.among,hp]
        rfl
    | _ => simp [step,State.among,hp]
  | crash => rfl

/-- Steps of other transactions are always possible, but for commits. -/
structure Permits (ok : State → Label → Prop) : Prop where
  allocate : ∀ s e, ok s (.allocate e)
  abort : ∀ s id, ok s (.abort id)
  alter : ∀ s rates instances tenants, ok s (.alter rates instances tenants)

/-- The rows of one table that are not in another may become visible in the order of
their ids. -/
def Shows (ok : State → Label → Prop) (old new : Table Nat MeteringRow (·.id)) : Prop :=
  ∀ (u : State) (row : MeteringRow), row ∈ new.rows → (∀ a ∈ old.rows, a.id ≠ row.id) →
    (∀ a ∈ u.store.meteringEntries.rows, a ∈ old.rows ∨ a.id < row.id) →
    (∀ a ∈ u.pending, a.id = row.id → a = row) → ok u (.commit row.id)

theorem IdsOK.run {ok : State → Label → Prop} {s t : State} (hi : IdsOK s)
    (h : Reachable Rating.step (· = s) ok t) : IdsOK t :=
  h.invariant (fun _ h₀ => h₀ ▸ hi) fun _ _ _ hs _ hst => hs.step (step_moves hst)

section Arrivals

variable {ok : State → Label → Prop} {s : State}

theorem run_allocate (hok : Permits ok) (es : List MeteringEntry) :
    Reachable step (· = s) ok
      { s with nextID := s.nextID + es.length, pending := s.pending ++ meteringRows s.nextID es } := by
  induction es generalizing s with
  | nil =>
    refine .start ?_
    simp [meteringRows]
  | cons e es ih =>
    have hstep : step s (.allocate { e with value := Numeric.stored 6 e.value }) =
        some { s with nextID := s.nextID+1, pending := s.pending ++ [Store.meteringRow s.nextID e] } :=
      rfl
    have hrest := @ih { s with
      nextID := s.nextID+1, pending := s.pending ++ [Store.meteringRow s.nextID e] }
    simp only [List.append_assoc,List.singleton_append,Nat.add_assoc,Nat.add_comm 1] at hrest
    exact .head (hok.allocate s _) hstep hrest

theorem foldl_drop (s : State) (rows : List MeteringRow) :
    rows.foldl (fun s row => s.drop row.id) s =
      { s with pending := s.pending.filter (fun row => row.id ∉ rows.map (·.id)) } := by
  induction rows generalizing s with
  | nil => simp
  | cons row rows ih =>
    rw [List.foldl_cons,ih,State.drop]
    simp only [List.filter_filter,List.map_cons,List.mem_cons,not_or,Bool.decide_and,Bool.and_comm]

theorem foldl_commit (s : State) (rows : List MeteringRow) :
    rows.foldl State.commit s =
      { s with
        store := { s.store with meteringEntries := rows.foldl Table.insert s.store.meteringEntries }
        pending := s.pending.filter (fun row => row.id ∉ rows.map (·.id)) } := by
  induction rows generalizing s with
  | nil => simp
  | cons row rows ih =>
    rw [List.foldl_cons,ih,State.commit,State.drop]
    simp only [List.filter_filter,List.map_cons,List.mem_cons,not_or,Bool.decide_and,Bool.and_comm]
    rfl

theorem run_abort (hok : Permits ok) (rows : List MeteringRow) :
    Reachable step (· = s) ok
      { s with pending := s.pending.filter (fun row => row.id ∉ rows.map (·.id)) } := by
  rw [← foldl_drop]
  exact Reachable.foldl (f := fun (s : State) (row : MeteringRow) => s.drop row.id)
    (fun row => .abort row.id) fun pre row post _ => ⟨hok.abort _ row.id,rfl⟩

theorem run_commit (hi : IdsOK s) {rows : List MeteringRow} (hmem : ∀ row ∈ rows, row ∈ s.pending)
    (hnd : (rows.map (·.id)).Nodup)
    (hok : ∀ pre row post, rows = pre ++ row :: post →
      ok (pre.foldl State.commit s) (.commit row.id)) :
    Reachable step (· = s) ok (rows.foldl State.commit s) := by
  refine Reachable.foldl (fun row => .commit row.id) fun pre row post hrows => ?_
  refine ⟨hok pre row post hrows,?_⟩
  -- the row is still pending, and it is the only one with its id
  have hpre : row.id ∉ pre.map (·.id) := by
    rw [hrows,List.map_append,List.map_cons,List.nodup_middle,List.nodup_cons] at hnd
    exact fun hm => hnd.1 (List.mem_append_left _ hm)
  have hin : row ∈ s.pending.filter (fun row => row.id ∉ pre.map (·.id)) :=
    List.mem_filter.mpr ⟨hmem row (by rw [hrows]; simp),decide_eq_true hpre⟩
  have hnodup : ((s.pending.filter (fun row => row.id ∉ pre.map (·.id))).map (·.id)).Nodup :=
    hi.nodup.sublist (List.filter_sublist.map _)
  have hfind : (pre.foldl State.commit s).pending.find? (fun r => r.id = row.id) = some row := by
    rw [foldl_commit]
    cases hf : (s.pending.filter (fun row => row.id ∉ pre.map (·.id))).find? (fun r => r.id = row.id) with
    | none => simpa using List.find?_eq_none.mp hf row hin
    | some r =>
      have hr := List.find?_some hf
      simp only [decide_eq_true_eq] at hr
      rw [List.inj_on_of_nodup_map hnodup (List.mem_of_find?_eq_some hf) hin hr]
  simp only [step,hfind,Option.map_some]

theorem filter_others {pending rows others : List MeteringRow} (h : pending.Perm (rows ++ others))
    (hnd : (pending.map (·.id)).Nodup) :
    (pending.filter (fun row => row.id ∉ rows.map (·.id))).Perm others := by
  have hkeys : ((rows ++ others).map (·.id)).Nodup := (h.map _).nodup_iff.mp hnd
  rw [List.map_append,List.nodup_append] at hkeys
  refine (h.filter _).trans ?_
  have h₁ : rows.filter (fun row => row.id ∉ rows.map (·.id)) = [] := by
    rw [List.filter_eq_nil_iff]
    intro row hr
    simpa using ⟨row,hr,rfl⟩
  have h₂ : others.filter (fun row => row.id ∉ rows.map (·.id)) = others := by
    rw [List.filter_eq_self]
    intro row hr
    refine decide_eq_true fun hm => ?_
    exact hkeys.2.2 row.id hm row.id (List.mem_map_of_mem hr) rfl
  rw [List.filter_append,h₁,h₂,List.nil_append]

theorem run_gap (hok : Permits ok)
    (hp : ∀ row ∈ s.pending, row.id < s.nextID) (n : Nat) :
    Reachable step (· = s) ok { s with nextID := s.nextID + n } := by
  induction n generalizing s with
  | zero => exact .start rfl
  | succ n ih =>
    let e : MeteringEntry := ⟨0,none,"","","","","","","",0,"",0,0⟩
    have hkept : (s.allocate e).drop s.nextID = { s with nextID := s.nextID+1 } := by
      have hfilter : s.pending.filter (fun row => row.id ≠ s.nextID) = s.pending :=
        List.filter_eq_self.mpr fun row hr => decide_eq_true (hp row hr).ne
      simp only [State.allocate,State.drop,List.filter_append,hfilter]
      simp
    have hrest := @ih { s with nextID := s.nextID+1 } fun row hr => Nat.lt_succ_of_lt (hp row hr)
    simp only [Nat.add_assoc,Nat.add_comm 1] at hrest
    exact .head (hok.allocate s e) rfl (.head (hok.abort _ s.nextID) (congrArg some hkept) hrest)

theorem exists_sorted {rows : List MeteringRow} (hnd : (rows.map (·.id)).Nodup) :
    ∃ sorted : List MeteringRow, sorted.Perm rows ∧ sorted.Pairwise (fun a b => a.id < b.id) := by
  have hperm := List.perm_insertionSort (fun a b : MeteringRow => a.id ≤ b.id) rows
  have hne := List.pairwise_map.mp ((hperm.map _).nodup_iff.mpr hnd)
  exact ⟨_,hperm,((List.pairwise_insertionSort _ rows).and hne).imp fun h => lt_of_le_of_ne h.1 h.2⟩

theorem run_visible {base store : Store} {nextID : Nat} {pending rows : List MeteringRow} {s : State}
    (hok : Permits ok) (hi : IdsOK { s with store := base.billing, nextID, pending })
    (hmem : ∀ row ∈ rows, row ∈ pending) (hnd : (rows.map (·.id)).Nodup)
    (hm : store.meteringEntries = rows.foldl Table.insert base.meteringEntries)
    (hc : store.costEntries = base.costEntries)
    (hshow : Shows ok base.meteringEntries store.meteringEntries) :
    Reachable step (· = { s with store := base.billing, nextID, pending }) ok
      { s with
        store := store.billing
        nextID
        pending := pending.filter (fun row => row.id ∉ rows.map (·.id)) } := by
  obtain ⟨sorted,hperm,hlt⟩ := exists_sorted hnd
  have hsnd : (sorted.map (·.id)).Nodup := (hperm.map _).nodup_iff.mpr hnd
  have hfresh : ∀ row ∈ sorted, ∀ a ∈ base.meteringEntries.rows, a.id ≠ row.id := by
    intro row hr
    exact hi.fresh row (hmem row (hperm.mem_iff.mp hr))
  have htable : sorted.foldl Table.insert base.meteringEntries = store.meteringEntries := by
    rw [hm]
    refine Table.ext_of_perm ?_
    have h₁ := Table.insert_all_perm hsnd hfresh
    have h₂ := Table.insert_all_perm (t := base.meteringEntries) hnd
      fun row hr => hfresh row (hperm.mem_iff.mpr hr)
    exact h₁.trans ((hperm.append_left _).trans h₂.symm)
  have hfilter : pending.filter (fun row => row.id ∉ sorted.map (·.id)) =
      pending.filter (fun row => row.id ∉ rows.map (·.id)) := by
    refine List.filter_congr fun row _ => ?_
    simp only [(hperm.map _).mem_iff]
  let u : State := { s with store := base.billing, nextID, pending }
  let v := u.alter store.rates store.computeInstances store.tenants
  have hend : sorted.foldl State.commit v =
      { s with
        store := store.billing
        nextID
        pending := pending.filter (fun row => row.id ∉ rows.map (·.id)) } := by
    rw [foldl_commit,← hfilter]
    simp only [v,u,State.alter,Store.billing,htable,← hc]
  have hv : IdsOK v := ⟨hi.rows,hi.pending,hi.unrated,hi.nodup,hi.fresh⟩
  rw [← hend]
  refine .head (hok.alter u _ _ _) rfl (run_commit hv (fun row hr => hmem row (hperm.mem_iff.mp hr)) hsnd ?_)
  intro pre row post hrows
  have hsplit := hlt
  rw [hrows,List.pairwise_append] at hsplit
  have hsub : pre.Sublist sorted := hrows ▸ List.sublist_append_left pre (row :: post)
  have hrow : row ∈ sorted := by rw [hrows]; simp
  have hnew : row ∈ store.meteringEntries.rows := by
    rw [← htable,(Table.insert_all_perm hsnd hfresh).mem_iff]
    exact List.mem_append_right _ hrow
  refine hshow _ row hnew (hfresh row hrow) (fun a ha => ?_) fun a ha hid => ?_
  · rw [foldl_commit] at ha
    have hin := Table.insert_all_perm (t := base.meteringEntries) (hsnd.sublist (hsub.map _))
      fun row hr => hfresh row (hsub.subset hr)
    rcases List.mem_append.mp (hin.mem_iff.mp ha) with ha | ha
    · exact .inl ha
    · exact .inr (hsplit.2.2 a ha row List.mem_cons_self)
  · rw [foldl_commit] at ha
    exact List.inj_on_of_nodup_map hi.nodup (List.mem_of_mem_filter ha)
      (hmem row (hperm.mem_iff.mp hrow)) hid

end Arrivals

end CostConsumer.Rating
