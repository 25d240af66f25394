import CostConsumer.Metering.Coverage
import CostConsumer.Service.Machine
import CostConsumer.Service.Resource
set_option autoImplicit false

namespace CostConsumer.Service
open Inventory Foundation Metering Ingest Resource

variable {δ : Type}

def rowOf (k : Kind) (r : k.Record) : Row := ⟨k.createdAt r,k.lastMeteredAt r,k.deletedAt r,k.state r⟩

def row (k : Kind) (id : String) (s : Store) : Option Row := ((s.table k).find? id).map (rowOf k)

def intervalOf (e : MeteringEntry) : Interval := ⟨e.periodStart,e.periodEnd,e.value⟩

def storedInterval (e : MeteringEntry) : Interval :=
  ⟨e.periodStart,e.periodEnd,Numeric.stored 6 e.value⟩

def intervals (k : Kind) (id : String) (s : Store) : List Interval := (uptime k id s).map intervalOf

/-- The kinds a sweep has not listed while it is in the pass over a kind. -/
def before : Kind → Kind → Bool
  | .computeInstance, .cluster => true
  | .computeInstance, .bareMetal => true
  | .cluster, .bareMetal => true
  | _, _ => false

/-- Where the sweep is with a resource, by the resources it still has to meter. -/
def listedIn (k : Kind) (id : String) (k' : Kind) (now : Int) (todo : List k'.Record) : Stage :=
  if k' = k then
    match todo.find? (fun r => k'.id r = id) with
    | some r => .listed now (periodStart k' r)
    | none => .off
  else if before k' k then .ahead now
  else .off

def stage (k : Kind) (id : String) : Phase → Stage
  | .idle => .off
  | .list k' now => if k' = k ∨ before k' k then .ahead now else .off
  | .pass k' now _ todo => listedIn k id k' now todo
  | .stored k' now _ r todo ok =>
    if k' = k ∧ k'.id r = id then .stored now ok else listedIn k id k' now todo

def view (k : Kind) (id : String) (s : Metering.State) : View :=
  ⟨row k id s.store,stage k id s.phase,intervals k id s.store⟩

/-- What a write of an event means for a resource. -/
def effects (k : Kind) (id : String) : Write δ → List Effect
  | .upsert k' r _ => if k' = k ∧ k'.id r = id then [.upsert (rowOf k' r)] else []
  | .lastMetered k' id' t => if k' = k ∧ id' = id then [.checkpoint t] else []
  | .metering _ entries => [.metered ((entries.filter (isUptime k id)).map storedInterval)]
  | _ => []

/-- A step of the service as a step of the resource. -/
def label (env : Env δ) (k : Kind) (id : String) (s : Metering.State) : Label → Resource.Label
  | .meter (.upsert k' r now) => .write (effects k id (.upsert k' r now : Write Unit))
  | .meter (.sweep now) => .sweep now
  | .meter (.list failed _) =>
    match s.phase with
    | .list k' _ => if k' = k then .list failed else .other
    | _ => .other
  | .meter (.meter f) =>
    match s.phase with
    | .pass k' now types (r :: _) =>
      if k' = k ∧ k'.id r = id then
        .meter (!(s.insertBatch f.insert (s.entriesUntil k' r types f.project now)).2)
      else .other
    | _ => .other
  | .meter (.update failed) =>
    match s.phase with
    | .stored k' _ _ r _ _ => if k' = k ∧ k'.id r = id then .update failed else .other
    | _ => .other
  | .meter (.delete k' id' t _ _ _) => if k' = k ∧ id' = id then .delete t else .other
  | .meter .restart => .restart
  | .meter _ => .other
  | .upsertTenant _ _ => .other
  | .reconciled k' id' now => if k' = k ∧ id' = id then .mark now else .other
  | .event ce now =>
    match (accepted env now ce).map (runCalls now s) with
    | some (.ok (_,ws)) => .write (ws.flatMap (effects k id))
    | _ => .other

/-- The steps of the service and of the resource that go together. -/
inductive Seen (k : Kind) (id : String) : Label → Resource.Label → Prop
  | other (l : Label) : Seen k id l .other
  | upsert (k' : Kind) (r : k'.Record) (now : Int) :
      Seen k id (.meter (.upsert k' r now)) (.write (effects k id (.upsert k' r now : Write Unit)))
  | event (ce : CloudEvent) (now : Int) (ws : List (Write Unit)) :
      Seen k id (.event ce now) (.write (ws.flatMap (effects k id)))
  | sweep (now : Int) : Seen k id (.meter (.sweep now)) (.sweep now)
  | list (failed typesFailed : Bool) : Seen k id (.meter (.list failed typesFailed)) (.list failed)
  | meter (f : MeterFaults) (failed : Bool) : Seen k id (.meter (.meter f)) (.meter failed)
  | update (failed : Bool) : Seen k id (.meter (.update failed)) (.update failed)
  | delete (t : Int) (eventID : String) (now : Int) (f : DeleteFaults) :
      Seen k id (.meter (.delete k id t eventID now f)) (.delete t)
  | mark (now : Int) : Seen k id (.reconciled k id now) (.mark now)
  | restart : Seen k id (.meter .restart) .restart

theorem label_seen (env : Env δ) (k : Kind) (id : String) (s : Metering.State) (l : Label) :
    Seen k id l (label env k id s l) := by
  unfold label
  split
  · exact .upsert _ _ _
  · exact .sweep _
  · split
    · split
      · exact .list _ _
      · exact .other _
    · exact .other _
  · split
    · split
      · exact .meter _ _
      · exact .other _
    · exact .other _
  · split
    · split
      · exact .update _
      · exact .other _
    · exact .other _
  · split
    · rename_i hk
      obtain ⟨rfl,rfl⟩ := hk
      exact .delete _ _ _ _
    · exact .other _
  · exact .restart
  · exact .other _
  · exact .other _
  · split
    · rename_i hk
      obtain ⟨rfl,rfl⟩ := hk
      exact .mark _
    · exact .other _
  · split
    · exact .event _ _ _
    · exact .other _

section Rows
variable (k : Kind) (id : String) (s : Store)

theorem row_upsert (k' : Kind) (r : k'.Record) (now : Int) :
    row k id (s.upsert k' now r) =
      if k' = k ∧ k'.id r = id then some ((rowOf k' r).upserted (row k id s)) else row k id s := by
  by_cases hk : k = k'
  · subst hk
    have hfresh : rowOf k (k.fresh now r) = (rowOf k r).upserted none := by cases k <;> rfl
    have hmerge (old : k.Record) : rowOf k (k.merge now r old) =
        (rowOf k r).upserted (some (rowOf k old)) := by cases k <;> rfl
    simp only [row,Store.upsert,Store.table_setTable,Table.find?_upsert,Kind.id_fresh,true_and]
    by_cases hid : k.id r = id
    · rw [if_pos hid,if_pos hid]
      cases (s.table k).find? id with
      | none => simp [hfresh]
      | some old => simp [hmerge]
    · rw [if_neg hid,if_neg hid]
  · rw [row,Store.upsert,Store.table_setTable_of_ne s hk,if_neg (fun h => hk h.1.symm),row]

theorem row_updateLastMetered (k' : Kind) (id' : String) (t : Int) :
    row k id (s.updateLastMetered k' id' t) =
      if k' = k ∧ id' = id then (row k id s).map (fun r => { r with lastMeteredAt := some t })
      else row k id s := by
  by_cases hk : k = k'
  · subst hk
    have hset (r : k.Record) : rowOf k (k.setMetered t r) =
        { rowOf k r with lastMeteredAt := some t } := by cases k <;> rfl
    simp only [row,Store.updateLastMetered,Store.table_setTable,Table.find?_update,true_and]
    cases hf : (s.table k).find? id with
    | none => simp
    | some r =>
      have hid := (Table.find?_eq_some.mp hf).2
      by_cases hi : id' = id
      · simp [hid,hi,hset]
      · simp [hid,hi,Ne.symm hi]
  · rw [row,Store.updateLastMetered,Store.table_setTable_of_ne s hk,if_neg (fun h => hk h.1.symm),row]

theorem row_markDeleted (k' : Kind) (id' : String) (t : Int) (eventID : String) (now : Int) :
    row k id (s.markDeleted k' id' t eventID now) =
      if k' = k ∧ id' = id then (row k id s).map (Row.marked t) else row k id s := by
  by_cases hk : k = k'
  · subst hk
    have hset (r : k.Record) (h : k.deletedAt r = none) : rowOf k (k.setDeleted t eventID now r) =
        (rowOf k r).marked t := by
      have hdel : (rowOf k r).deletedAt = none := h
      unfold Row.marked
      rw [hdel]
      cases k <;> rfl
    have hkeep (r : k.Record) (h : ¬ k.deletedAt r = none) : (rowOf k r).marked t = rowOf k r := by
      have hdel : ¬ (rowOf k r).deletedAt = none := h
      simp [Row.marked,hdel]
    simp only [row,Store.markDeleted,Store.table_setTable,Table.find?_update,true_and]
    cases hf : (s.table k).find? id with
    | none => simp
    | some r =>
      have hid := (Table.find?_eq_some.mp hf).2
      by_cases hi : id' = id
      · by_cases hd : k.deletedAt r = none
        · simp [hid,hi,hd,hset]
        · simp [hid,hi,hd,hkeep]
      · simp [hid,hi,Ne.symm hi]
  · rw [row,Store.markDeleted,Store.table_setTable_of_ne s hk,if_neg (fun h => hk h.1.symm),row]

theorem row_addMetering (n : Nat) (entries : List MeteringEntry) :
    row k id (s.addMetering n entries) = row k id s := by
  rw [row,table_addMetering,row]

theorem intervals_setTable (k' : Kind) (t : Table String k'.Record k'.id) :
    intervals k id (s.setTable k' t) = intervals k id s := by
  rw [intervals,uptime,Store.entries_setTable,intervals,uptime]

theorem intervals_addMetering {n : Nat} (hn : ∀ row ∈ s.meteringEntries.rows, row.id < n)
    (entries : List MeteringEntry) :
    intervals k id (s.addMetering n entries) =
      intervals k id s ++ (entries.filter (isUptime k id)).map storedInterval := by
  rw [intervals,uptime,(Store.entries_addMetering entries hn).1,List.filter_append,List.map_append,
    intervals,uptime]
  congr 1
  clear hn
  induction entries generalizing n with
  | nil => rfl
  | cons e es ih =>
    rw [Store.rows_cons]
    cases h : isUptime k id e with
    | true =>
      rw [List.filter_cons_of_pos (by rw [isUptime_row]; exact h),List.filter_cons_of_pos h,
        List.map_cons,List.map_cons,ih]
      rfl
    | false =>
      rw [List.filter_cons_of_neg (by rw [isUptime_row,h]; exact Bool.false_ne_true),
        List.filter_cons_of_neg (by rw [h]; exact Bool.false_ne_true),ih]

end Rows

section Views
variable (k : Kind) (id : String) (s : Metering.State)

theorem view_upsert (k' : Kind) (r : k'.Record) (now : Int) :
    view k id (s.withStore (s.store.upsert k' now r)) =
      (effects k id (.upsert k' r now : Write δ)).foldl View.apply (view k id s) := by
  have hi : intervals k id (s.store.upsert k' now r) = intervals k id s.store :=
    intervals_setTable k id s.store k' _
  simp only [view,State.withStore,row_upsert,hi,effects]
  split <;> rfl

theorem view_updateLastMetered (k' : Kind) (id' : String) (t : Int) :
    view k id (s.withStore (s.store.updateLastMetered k' id' t)) =
      (effects k id (.lastMetered k' id' t : Write δ)).foldl View.apply (view k id s) := by
  have hi : intervals k id (s.store.updateLastMetered k' id' t) = intervals k id s.store :=
    intervals_setTable k id s.store k' _
  simp only [view,State.withStore,row_updateLastMetered,hi,effects]
  split <;> rfl

theorem view_markDeleted (k' : Kind) (id' : String) (t : Int) (eventID : String) (now : Int) :
    view k id (s.withStore (s.store.markDeleted k' id' t eventID now)) =
      if k' = k ∧ id' = id then { view k id s with row := (row k id s.store).map (Row.marked t) }
      else view k id s := by
  have hi : intervals k id (s.store.markDeleted k' id' t eventID now) = intervals k id s.store :=
    intervals_setTable k id s.store k' _
  simp only [view,State.withStore,row_markDeleted,hi]
  split <;> rfl

end Views

section Stages
variable (k : Kind) (id : String) (k' : Kind) (now : Int)

theorem stage_after : stage k id (after k' now) = listedIn k id k' now [] := by
  cases k' <;> cases k <;> rfl

theorem stage_resume (types : InstanceTypes) (todo : List k'.Record) :
    stage k id (resume k' now types todo) = listedIn k id k' now todo := by
  cases todo with
  | nil => exact stage_after k id k' now
  | cons r todo => rfl

theorem listedIn_head {r : k'.Record} (todo : List k'.Record) (h : k' = k ∧ k'.id r = id) :
    listedIn k id k' now (r :: todo) = .listed now (periodStart k' r) := by
  simp [listedIn,h.1,h.2]

theorem listedIn_tail {r : k'.Record} (todo : List k'.Record) (h : ¬ (k' = k ∧ k'.id r = id)) :
    listedIn k id k' now (r :: todo) = listedIn k id k' now todo := by
  unfold listedIn
  by_cases hk : k' = k
  · have hid : ¬ k'.id r = id := fun hid => h ⟨hk,hid⟩
    rw [List.find?_cons_of_neg (by simpa using hid)]
  · rw [if_neg hk,if_neg hk]

theorem listedIn_off {todo : List k'.Record} (hk : k' = k) (h : id ∉ todo.map k'.id) :
    listedIn k id k' now todo = .off := by
  have hnone : todo.find? (fun r => k'.id r = id) = none := find?_of_not_mem h
  rw [listedIn,if_pos hk,hnone]

theorem listedIn_passed {r : k'.Record} {todo : List k'.Record} (h : k' = k ∧ k'.id r = id)
    (honce : ((r :: todo).map k'.id).Nodup) : listedIn k id k' now todo = .off :=
  listedIn_off k id k' now h.1 (h.2 ▸ (List.nodup_cons.mp honce).1)

theorem listedIn_billable (s : Store) :
    listedIn k id k now (s.billable k) =
      match row k id s with
      | some r => if r.aliveIn k.billedStates then .listed now r.checkpoint else .off
      | none => .off := by
  cases hf : (s.table k).find? id with
  | none =>
    rw [row,hf,Option.map_none]
    refine listedIn_off k id k now rfl fun h => ?_
    obtain ⟨r,hr,hid⟩ := List.mem_map.mp h
    exact Table.find?_eq_none.mp hf r (List.mem_of_mem_filter hr) hid
  | some r =>
    obtain ⟨hr,hid⟩ := Table.find?_eq_some.mp hf
    rw [row,hf,Option.map_some]
    dsimp only
    by_cases hb : (rowOf k r).aliveIn k.billedStates = true
    · have hfind : (s.billable k).find? (fun r => k.id r = id) = some r := by
        cases hf' : (s.billable k).find? (fun r => k.id r = id) with
        | none =>
          have := List.find?_eq_none.mp hf' r (List.mem_filter.mpr ⟨hr,hb⟩)
          exact absurd hid (by simpa using this)
        | some r' =>
          have hid' : k.id r' = id := by simpa using List.find?_some hf'
          rw [Table.key_injective (List.mem_of_mem_filter (List.mem_of_find?_eq_some hf')) hr
            (hid'.trans hid.symm)]
      rw [if_pos hb,listedIn,if_pos rfl,hfind]
      rfl
    · rw [if_neg hb]
      refine listedIn_off k id k now rfl fun h => hb ?_
      obtain ⟨r',hr',hid'⟩ := List.mem_map.mp h
      obtain ⟨hmem,ha⟩ := List.mem_filter.mp hr'
      rw [← Table.key_injective hmem hr (hid'.trans hid.symm)]
      exact ha

end Stages

def onceListed : Phase → Prop
  | .pass k _ _ todo => (todo.map k.id).Nodup
  | .stored k _ _ r todo _ => ((r :: todo).map k.id).Nodup
  | _ => True

structure Fresh (s : Metering.State) : Prop where
  ids : ∀ row ∈ s.store.meteringEntries.rows, row.id < s.nextID
  once : onceListed s.phase

section Fresh
variable {s t : Metering.State}

theorem onceListed_resume {k : Kind} (now : Int) (types : InstanceTypes) {todo : List k.Record}
    (h : (todo.map k.id).Nodup) : onceListed (resume k now types todo) := by
  cases todo with
  | nil => cases k <;> trivial
  | cons r todo => exact h

theorem Fresh.goto (h : Fresh s) {p : Phase} (hp : onceListed p) : Fresh (s.goto p) := ⟨h.ids,hp⟩

theorem Fresh.withStore (h : Fresh s) {store : Store}
    (hm : store.meteringEntries = s.store.meteringEntries) : Fresh (s.withStore store) :=
  ⟨by rw [State.withStore,hm]; exact h.ids,h.once⟩

theorem Fresh.addMetering (h : Fresh s) (entries : List MeteringEntry) (cache : ProjectCache) {p : Phase}
    (hp : onceListed p) :
    Fresh ⟨s.store.addMetering s.nextID entries,s.nextID + entries.length,cache,p⟩ :=
  ⟨(Store.entries_addMetering entries h.ids).2,hp⟩

theorem Fresh.skipIDs (h : Fresh s) {n : Nat} (hn : s.nextID ≤ n) (cache : ProjectCache) {p : Phase}
    (hp : onceListed p) : Fresh ⟨s.store,n,cache,p⟩ :=
  ⟨fun row hr => (h.ids row hr).trans_le hn,hp⟩

theorem Fresh.meter {l : Metering.Label} (h : Fresh s) (hm : Metering.Moves s l t) : Fresh t := by
  have hp := h.once
  cases hm with
  | upsert k r now => exact h.withStore (by simp [Store.upsert])
  | upsertInstanceType r now => exact h.withStore rfl
  | upsertProject r now => exact ⟨h.ids,h.once⟩
  | sweep now hph => exact h.goto trivial
  | @listFails k now typesFailed hph => exact h.goto (by cases k <;> trivial)
  | list typesFailed hph => exact h.goto (onceListed_resume _ _ (listed_billable _ _).1)
  | skip f hph hn =>
    rw [hph] at hp
    exact h.goto (onceListed_resume _ _ (List.nodup_cons.mp hp).2)
  | meterFails f hph hn =>
    rw [hph] at hp
    exact h.skipIDs (Nat.le_add_right _ _) _ hp
  | meter f hph hn =>
    rw [hph] at hp
    exact h.addMetering _ _ hp
  | updateFails hph =>
    rw [hph] at hp
    exact h.goto (onceListed_resume _ _ (List.nodup_cons.mp hp).2)
  | update hph =>
    rw [hph] at hp
    exact (h.goto (onceListed_resume _ _ (List.nodup_cons.mp hp).2)).withStore
      (by simp [State.goto,Store.updateLastMetered])
  | delete k id deletedAt eventID now f =>
    refine handleDelete_keeps (fun u hu => ?_) fun u hu =>
      hu.withStore (by simp [Store.markDeleted])
    cases hu with
    | none nextID cache hn => exact h.skipIDs hn cache hp
    | stored types failed hr hid => exact h.addMetering _ _ hp
  | restart => exact ⟨h.ids,trivial⟩

end Fresh

theorem call_view {s : Metering.State} (h : Fresh s) {c : Call} {now : Int} {projectID : String}
    {w : Option (Write Unit)}
    (hw : c.write { toStore := s.store } now s.nextID projectID = .ok w) (cache : ProjectCache) :
    let t : Metering.State :=
      ⟨(w.toList.foldl Write.apply { toStore := s.store }).toStore,
        s.nextID + (c.entries projectID).length,cache,s.phase⟩
    Fresh t ∧ ∀ k id, view k id t = (w.toList.flatMap (effects k id)).foldl View.apply (view k id s) := by
  -- the two calls that store entries
  have hmeter (entries : List MeteringEntry)
      (hb : (Except.map (fun _ => some (Write.metering (δ := Unit) s.nextID entries))
        (s.store.insertMeteringEntryBatch s.nextID entries)) = .ok w) :
      let t : Metering.State :=
        ⟨(w.toList.foldl Write.apply { toStore := s.store }).toStore,s.nextID + entries.length,cache,
          s.phase⟩
      Fresh t ∧
        ∀ k id, view k id t = (w.toList.flatMap (effects k id)).foldl View.apply (view k id s) := by
    cases hi : s.store.insertMeteringEntryBatch s.nextID entries with
    | error e => simp [hi,Except.map] at hb
    | ok store =>
      simp only [hi,Except.map,Except.ok.injEq] at hb
      subst hb
      refine ⟨h.addMetering entries cache h.once,fun k id => ?_⟩
      simp [view,Write.apply,effects,View.apply,row_addMetering,intervals_addMetering k id _ h.ids]
  cases c with
  | insertRawEvent e =>
    cases hw
    exact ⟨⟨h.ids,h.once⟩,fun _ _ => rfl⟩
  | upsert k' r =>
    cases hw
    refine ⟨⟨by simpa [Write.apply,Store.upsert,Call.entries] using h.ids,h.once⟩,fun k id => ?_⟩
    rw [Option.toList_some,List.flatMap_singleton]
    exact view_upsert k id s k' r now
  | upsertModel r =>
    cases hw
    exact ⟨⟨h.ids,h.once⟩,fun k id => by cases k <;> rfl⟩
  | updateLastMetered k' id' t =>
    cases hw
    cases hf : (s.store.table k').find? id' with
    | none =>
      refine ⟨⟨h.ids,h.once⟩,fun k id => ?_⟩
      simp [view]
    | some r =>
      simp only [Option.isSome_some,if_true]
      refine ⟨⟨by simpa [Write.apply,Store.updateLastMetered,Call.entries] using h.ids,h.once⟩,
        fun k id => ?_⟩
      rw [Option.toList_some,List.flatMap_singleton]
      exact view_updateLastMetered k id s k' id' t
  | insertMetering entries => exact hmeter entries hw
  | meterForTenant tenantID entries => exact hmeter (entries projectID) hw

theorem call_written {s : Metering.State} {c : Call} {now : Int} {projectID : String}
    {w : Option (Write Unit)}
    (hw : c.write { toStore := s.store } now s.nextID projectID = .ok w) (k : Kind) (id : String) :
    (w.toList.flatMap (effects k id)).foldl View.apply (view k id s) =
      (effects k id (c.written now s.nextID projectID : Write Unit)).foldl View.apply (view k id s) := by
  rcases Call.write_ok hw with rfl | ⟨rfl,k',id',t,rfl,hnone⟩
  · rw [Option.toList_some,List.flatMap_singleton]
  · simp only [Call.written,effects]
    split
    · rename_i hk
      obtain ⟨rfl,rfl⟩ := hk
      have hrow : row k' id' s.store = none := by
        rw [row]
        exact Option.map_eq_none_iff.mpr hnone
      simp [View.apply,view,hrow]
    · rfl

theorem runCalls_next {now : Int} {s t : Metering.State} {c : Call} {calls : List Call}
    {ws : List (Write Unit)} (h : Fresh s) (hr : runCalls now s (c :: calls) = .ok (t,ws)) :
    ∃ (projectID : String) (s₁ : Metering.State) (rest : List (Write Unit)), Fresh s₁ ∧
      (∀ k id, view k id s₁ = (effects k id (c.written now s.nextID projectID : Write Unit)).foldl
        View.apply (view k id s)) ∧
      runCalls now s₁ calls = .ok (t,rest) := by
  obtain ⟨projectID,cache,w,rest,hw,rfl,hrest⟩ := runCalls_cons hr
  obtain ⟨hfresh,hview⟩ := call_view h hw cache
  exact ⟨projectID,_,rest,hfresh,fun k id => (hview k id).trans (call_written hw k id),hrest⟩

theorem runCalls_view {now : Int} {s t : Metering.State} {calls : List Call} {ws : List (Write Unit)}
    (h : Fresh s) (hr : runCalls now s calls = .ok (t,ws)) :
    Fresh t ∧ ∀ k id, view k id t = (ws.flatMap (effects k id)).foldl View.apply (view k id s) := by
  induction calls generalizing s ws with
  | nil =>
    cases hr
    exact ⟨h,fun _ _ => rfl⟩
  | cons c calls ih =>
    obtain ⟨projectID,cache,w,rest,hw,rfl,hrest⟩ := runCalls_cons hr
    obtain ⟨hfresh,hview⟩ := call_view h hw cache
    obtain ⟨ht,hv⟩ := ih hfresh hrest
    refine ⟨ht,fun k id => ?_⟩
    rw [hv,hview,List.flatMap_append,List.foldl_append]

section Metering
variable {s t : Metering.State} (k : Kind) (id : String)

theorem entriesUntil_uptime (k' : Kind) (r : k'.Record) (types : InstanceTypes) (failed : Bool)
    (stop : Int) :
    ((s.entriesUntil k' r types failed stop).1.filter (isUptime k id)).map storedInterval =
      if k' = k ∧ k'.id r = id then [storedUptime (periodStart k' r) stop] else [] := by
  obtain ⟨e,es,hes,⟨hv,hs,he⟩,hfirst,hrest⟩ := meters_uptime k' r types
    (resolveProject s.store failed s.projectCache (k'.project r) (k'.tenant r)).1
    (GoTime.seconds (GoTime.sub stop (periodStart k' r))) (periodStart k' r) stop
  have hnone : es.filter (isUptime k id) = [] := by
    rw [List.filter_eq_nil_iff]
    intro d hd
    rw [hrest d hd]
    exact Bool.false_ne_true
  have hhead := hfirst k id
  simp only [State.entriesUntil,hes,List.filter_cons,hnone,hhead]
  by_cases hk : k' = k ∧ k'.id r = id
  · rw [if_pos (decide_eq_true ⟨hk.1.symm,hk.2.symm⟩),if_pos hk]
    simp [storedInterval,storedUptime,hv,hs,he]
  · rw [if_neg (by simpa using fun h h' => hk ⟨h.symm,h'.symm⟩),if_neg hk]
    rfl

theorem step_meter {f : MeterFaults} {k : Kind} {now : Int} {types : InstanceTypes} {r : k.Record}
    {todo : List k.Record} (hp : s.phase = .pass k now types (r :: todo)) (hn : periodStart k r < now)
    (h : Metering.step s (.meter f) = some t) :
    t.phase = .stored k now types r todo
      (s.insertBatch f.insert (s.entriesUntil k r types f.project now)).2 := by
  have hpos : ¬ GoTime.sub now (periodStart k r) ≤ 0 := by
    rw [GoTime.sub_nonpos_iff]
    omega
  simp only [Metering.step,hp,hpos,if_false,Option.some.injEq] at h
  rw [← h]
  rfl

theorem listedIn_other {k' : Kind} (now : Int) (todo : List k'.Record) (hk : k' ≠ k) :
    listedIn k id k' now todo = stage k id (.list k' now) := by
  simp [listedIn,stage,hk]

theorem meterFinal_view (h : Fresh s) (k' : Kind) (id' : String) (d : Int) (f : DeleteFaults) :
    ∃ final, view k id (s.meterFinal k' id' d f) =
        ⟨row k id s.store,stage k id s.phase,intervals k id s.store ++ final⟩ ∧
      (¬ (k' = k ∧ id' = id) → final = []) := by
  have hf := meterFinal_final s k' id' d f
  generalize s.meterFinal k' id' d f = u at hf
  cases hf with
  | none nextID cache hn => exact ⟨[],by simp [view],fun _ => rfl⟩
  | @stored r types failed hr hid =>
    refine ⟨((s.entriesUntil k' r types failed d).1.filter (isUptime k id)).map storedInterval,?_,
      fun hne => ?_⟩
    · rw [view,row_addMetering,intervals_addMetering k id _ h.ids]
    · rw [entriesUntil_uptime,if_neg]
      rwa [hid]

theorem handleDelete_view (h : Fresh s) (k' : Kind) (id' : String) (d : Int) (eventID : String)
    (now : Int) (f : DeleteFaults) :
    ∃ final, view k id (s.handleDelete k' id' d eventID now f) =
        (if (k' = k ∧ id' = id) ∧ f.mark = false then
          ⟨(row k id s.store).map (Row.marked d),stage k id s.phase,intervals k id s.store ++ final⟩
        else ⟨row k id s.store,stage k id s.phase,intervals k id s.store ++ final⟩) ∧
      (¬ (k' = k ∧ id' = id) → final = []) := by
  obtain ⟨final,hv,hne⟩ := meterFinal_view k id h k' id' d f
  have hrow : row k id (s.meterFinal k' id' d f).store = row k id s.store := congrArg View.row hv
  refine ⟨final,?_,hne⟩
  unfold State.handleDelete
  dsimp only
  cases hm : f.mark with
  | true => simpa using hv
  | false =>
    rw [if_neg Bool.false_ne_true,view_markDeleted,hrow,hv]
    simp only [and_true]

theorem view_goto (p : Phase) : view k id (s.goto p) = (view k id s).goto (stage k id p) := rfl

theorem stage_view {p : Phase} (hp : s.phase = p) : (view k id s).stage = stage k id p := by
  rw [view,hp]

theorem other_view {l : Resource.Label} (hl : l = .other) (hv : view k id t = view k id s) :
    Resource.Moves k.billedStates (view k id s) l (view k id t) := by
  rw [hl,hv]
  exact .other

theorem listed_head {k' : Kind} {now : Int} {types : InstanceTypes} {r : k'.Record}
    {todo : List k'.Record} (hp : s.phase = .pass k' now types (r :: todo))
    (hk : k' = k ∧ k'.id r = id) : (view k id s).stage = .listed now (periodStart k' r) :=
  (stage_view k id hp).trans (listedIn_head k id k' now todo hk)

theorem list_view {k' : Kind} {now : Int} {failed : Bool} {todo : List k'.Record} {types : InstanceTypes}
    (hp : s.phase = .list k' now) (ht : todo = if failed then [] else s.store.billable k') :
    Resource.Moves k.billedStates (view k id s) (if k' = k then .list failed else .other)
      (view k id (s.goto (resume k' now types todo))) := by
  rw [view_goto,stage_resume]
  by_cases hk : k' = k
  · subst hk
    have hahead : (view k' id s).stage = .ahead now := (stage_view k' id hp).trans (if_pos (.inl rfl))
    rw [if_pos rfl,ht]
    cases failed with
    | true =>
      rw [if_pos rfl,listedIn_off k' id k' now rfl List.not_mem_nil]
      exact .unlisted hahead (fun hf => absurd hf (by decide))
    | false =>
      rw [if_neg Bool.false_ne_true,listedIn_billable]
      cases hr : row k' id s.store with
      | none => exact .unlisted hahead (fun _ r hr' => absurd (hr.symm.trans hr') (by simp))
      | some r =>
        by_cases ha : r.aliveIn k'.billedStates = true
        · simp only [if_pos ha]
          exact .list hahead hr ha
        · simp only [if_neg ha]
          refine .unlisted hahead (fun _ r' hr' => ?_)
          rw [← Option.some.inj (hr.symm.trans hr')]
          exact Bool.eq_false_iff.mpr ha
  · rw [if_neg hk,listedIn_other k id now _ hk,← stage_view k id hp]
    exact .other

theorem after_eq_resume (k : Kind) (now : Int) (types : InstanceTypes) :
    after k now = resume k now types [] := rfl

section Pass
variable {k' : Kind} {now : Int} {types : InstanceTypes} {r : k'.Record} {todo : List k'.Record} {ok : Bool}

theorem skip_view (hp : s.phase = .pass k' now types (r :: todo)) (honce : ((r :: todo).map k'.id).Nodup)
    (hn : now ≤ periodStart k' r) (failed : Bool) :
    Resource.Moves k.billedStates (view k id s) (if k' = k ∧ k'.id r = id then .meter failed else .other)
      (view k id (s.goto (resume k' now types todo))) := by
  rw [view_goto,stage_resume]
  by_cases hk : k' = k ∧ k'.id r = id
  · rw [if_pos hk,listedIn_passed k id k' now hk honce]
    exact .skip _ (listed_head k id hp hk) hn
  · rw [if_neg hk,← listedIn_tail k id k' now todo hk]
    have hs : (view k id s).stage = listedIn k id k' now (r :: todo) := stage_view k id hp
    rw [← hs]
    exact .other

theorem meterFails_view (hp : s.phase = .pass k' now types (r :: todo)) (hn : periodStart k' r < now)
    (n : Nat) (cache : ProjectCache) :
    Resource.Moves k.billedStates (view k id s) (if k' = k ∧ k'.id r = id then .meter true else .other)
      (view k id ⟨s.store,n,cache,.stored k' now types r todo false⟩) := by
  by_cases hk : k' = k ∧ k'.id r = id
  · have hs : stage k id (.stored k' now types r todo false) = .stored now false := if_pos hk
    have hmove := @Resource.Moves.refused k.billedStates _ _ _ (listed_head k id hp hk) hn
    rw [if_pos hk]
    simpa only [view,hs,View.goto] using hmove
  · refine other_view k id (if_neg hk) ?_
    simp only [view,hp,stage,if_neg hk,listedIn_tail k id k' now todo hk]

theorem stored_view (h : Fresh s) (hp : s.phase = .pass k' now types (r :: todo))
    (hn : periodStart k' r < now) (failed : Bool) (n : Nat) (cache : ProjectCache) :
    Resource.Moves k.billedStates (view k id s) (if k' = k ∧ k'.id r = id then .meter false else .other)
      (view k id ⟨s.store.addMetering s.nextID (s.entriesUntil k' r types failed now).1,n,cache,
        .stored k' now types r todo true⟩) := by
  by_cases hk : k' = k ∧ k'.id r = id
  · have hs : stage k id (.stored k' now types r todo true) = .stored now true := if_pos hk
    have hmove := @Resource.Moves.meter k.billedStates _ _ _ (listed_head k id hp hk) hn
    rw [if_pos hk]
    simpa only [view,hs,row_addMetering,intervals_addMetering k id _ h.ids,entriesUntil_uptime,
      if_pos hk] using hmove
  · refine other_view k id (if_neg hk) ?_
    simp only [view,hp,stage,if_neg hk,listedIn_tail k id k' now todo hk,row_addMetering,
      intervals_addMetering k id _ h.ids,entriesUntil_uptime,List.append_nil]

theorem updateFails_view (hp : s.phase = .stored k' now types r todo ok)
    (honce : ((r :: todo).map k'.id).Nodup) :
    Resource.Moves k.billedStates (view k id s) (if k' = k ∧ k'.id r = id then .update true else .other)
      (view k id (s.goto (resume k' now types todo))) := by
  have hs := stage_view k id hp
  rw [view_goto,stage_resume]
  by_cases hk : k' = k ∧ k'.id r = id
  · rw [if_pos hk,listedIn_passed k id k' now hk honce]
    exact .updateFails (hs.trans (if_pos hk))
  · rw [if_neg hk,← hs.trans (if_neg hk)]
    exact .other

theorem update_view (hp : s.phase = .stored k' now types r todo ok)
    (honce : ((r :: todo).map k'.id).Nodup) :
    Resource.Moves k.billedStates (view k id s) (if k' = k ∧ k'.id r = id then .update false else .other)
      (view k id ((s.goto (resume k' now types todo)).withStore
        (s.store.updateLastMetered k' (k'.id r) now))) := by
  have hs := stage_view k id hp
  have hv : view k id ((s.goto (resume k' now types todo)).withStore
      (s.store.updateLastMetered k' (k'.id r) now)) =
        ((effects k id (.lastMetered k' (k'.id r) now : Write Unit)).foldl View.apply
          (view k id s)).goto (listedIn k id k' now todo) := by
    rw [← view_updateLastMetered,← stage_resume k id k' now types todo]
    rfl
  rw [hv]
  by_cases hk : k' = k ∧ k'.id r = id
  · rw [if_pos hk,effects,if_pos hk,listedIn_passed k id k' now hk honce]
    exact .update (hs.trans (if_pos hk))
  · rw [if_neg hk,effects,if_neg hk,← hs.trans (if_neg hk)]
    exact .other

end Pass

theorem delete_view (h : Fresh s) (k' : Kind) (id' : String) (d : Int) (eventID : String) (now : Int)
    (f : DeleteFaults) :
    Resource.Moves k.billedStates (view k id s) (if k' = k ∧ id' = id then .delete d else .other)
      (view k id (s.handleDelete k' id' d eventID now f)) := by
  obtain ⟨final,hv,hne⟩ := handleDelete_view k id h k' id' d eventID now f
  rw [hv]
  by_cases hk : k' = k ∧ id' = id
  · have hmove := @Resource.Moves.delete k.billedStates (view k id s) d final (!f.mark)
    rw [if_pos hk]
    cases hm : f.mark with
    | true => simpa [hk,hm,view] using hmove
    | false => simpa [hk,hm,view] using hmove
  · rw [if_neg hk,if_neg (fun h => hk h.1),hne hk,List.append_nil]
    exact .other

theorem meter_view (env : Env δ) (h : Fresh s) {l : Metering.Label} (hst : Metering.step s l = some t) :
    Resource.Moves k.billedStates (view k id s) (label env k id s (.meter l)) (view k id t) := by
  have honce := h.once
  cases Metering.step_moves hst with
  | upsert k' r now =>
    rw [view_upsert (δ := Unit)]
    exact .write _
  | upsertInstanceType r now => exact other_view k id rfl (by cases k <;> rfl)
  | upsertProject r now => exact other_view k id rfl (by cases k <;> rfl)
  | sweep now hp =>
    have hahead : stage k id (.list .computeInstance now) = .ahead now := by cases k <;> rfl
    rw [view_goto,hahead]
    exact .sweep now (stage_view k id hp)
  | @listFails k' now typesFailed hp =>
    simp only [label,hp]
    rw [after_eq_resume k' now none]
    exact list_view k id hp rfl
  | list typesFailed hp =>
    simp only [label,hp]
    exact list_view k id hp rfl
  | skip f hp hn =>
    rw [hp] at honce
    simp only [label,hp]
    exact skip_view k id hp honce hn _
  | meterFails f hp hn =>
    have hflag := (step_meter hp hn hst).symm
    simp only [Phase.stored.injEq,heq_eq_eq,true_and] at hflag
    simp only [label,hp,hflag,Bool.not_false]
    exact meterFails_view k id hp hn _ _
  | meter f hp hn =>
    have hflag := (step_meter hp hn hst).symm
    simp only [Phase.stored.injEq,heq_eq_eq,true_and] at hflag
    simp only [label,hp,hflag,Bool.not_true]
    exact stored_view k id h hp hn _ _ _
  | updateFails hp =>
    rw [hp] at honce
    simp only [label,hp]
    exact updateFails_view k id hp honce
  | update hp =>
    rw [hp] at honce
    simp only [label,hp]
    exact update_view k id hp honce
  | delete k' id' d eventID now f => exact delete_view k id h k' id' d eventID now f
  | restart => exact .restart

end Metering

theorem step_view (env : Env δ) {s t : Metering.State} {l : Label} (h : Fresh s)
    (hst : step env s l = some t) :
    Fresh t ∧ ∀ k id, Resource.Moves k.billedStates (view k id s) (label env k id s l) (view k id t) := by
  cases step_moves hst with
  | meter hm => exact ⟨h.meter (Metering.step_moves hm),fun k id => meter_view k id env h hm⟩
  | upsertTenant r now =>
    exact ⟨h.withStore rfl,fun k id => other_view k id rfl (by cases k <;> rfl)⟩
  | reconciled k' id' now =>
    refine ⟨h.withStore (by simp [Store.markDeleted]),fun k id => ?_⟩
    rw [view_markDeleted,label]
    by_cases hk : k' = k ∧ id' = id
    · rw [if_pos hk,if_pos hk]
      exact .mark now
    · rw [if_neg hk,if_neg hk]
      exact .other
  | event ha hr =>
    obtain ⟨hf,hv⟩ := runCalls_view h hr
    refine ⟨hf,fun k id => ?_⟩
    rw [hv]
    simp only [label,ha,Option.map_some,hr]
    exact .write _

theorem fresh_initial {s : Metering.State} (h : initial s) :
    Fresh s ∧ ∀ k id, view k id s = ⟨none,.off,[]⟩ := by
  obtain ⟨hr,ht,hp⟩ := h
  refine ⟨⟨by simp [hr],by rw [hp]; trivial⟩,fun k id => ?_⟩
  have hrow : row k id s.store = none := by simp [row,Table.find?,ht]
  have hnone : intervals k id s.store = [] := by simp [intervals,uptime,Store.entries,hr]
  rw [view,hrow,hnone,hp]
  rfl

theorem reachable_fresh {env : Env δ} {ok : Metering.State → Label → Prop} {s : Metering.State}
    (h : Reachable (step env) initial ok s) : Fresh s :=
  h.invariant (P := Fresh) (fun _ hs => (fresh_initial hs).1)
    (fun _ _ _ hs _ hst => (step_view env hs hst).1)

end CostConsumer.Service
