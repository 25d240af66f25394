import CostConsumer.Foundation.Sessions
import CostConsumer.Foundation.Table
import Mathlib.Data.List.Flatten
set_option autoImplicit false

/-!
An append-only table whose ids come from a sequence. An id is taken when a row is
inserted, and the row is seen by others when its transaction commits, so rows need
not appear in the order of their ids.
-/

namespace CostConsumer.Foundation

/-- An open transaction is the list of the rows it has inserted. -/
structure Log (α : Type) (key : α → Nat) where
  sessions : Sessions (Table Nat α key) (List α)
  next : Nat

namespace Log

variable {α : Type} {key : α → Nat}

/-- The rows that can be seen, in the order of their ids. -/
def rows (l : Log α key) : List α := l.sessions.db.rows

def pending (l : Log α key) : List α := l.sessions.active.flatMap (·.2)

def write (t : Table Nat α key) (as : List α) : Table Nat α key := as.foldl Table.insert t

def empty : Log α key := ⟨⟨.empty,0,[],[]⟩,1⟩

def start (l : Log α key) : Log α key := { l with sessions := l.sessions.start [] }

def insert (l : Log α key) (n : Nat) (make : Nat → α) : Option (Log α key) :=
  (l.sessions.find? n).map fun as => ⟨l.sessions.set n (as ++ [make l.next]),l.next+1⟩

def commit (l : Log α key) (n : Nat) : Option (Log α key) :=
  (l.sessions.find? n).map fun as => { l with sessions := l.sessions.commit write n as }

def rollback (l : Log α key) (n : Nat) : Log α key := { l with sessions := l.sessions.drop n }

def since (l : Log α key) (after limit : Nat) : List α :=
  (l.rows.filter (fun a => after < key a)).take limit

def lastKey (key : α → Nat) (batch : List α) : Nat := (batch.getLast?.map key).getD 0

theorem mem_write {t : Table Nat α key} {as : List α} {a : α} (h : a ∈ (write t as).rows) :
    a ∈ t.rows ∨ a ∈ as := by
  induction as generalizing t with
  | nil => exact .inl h
  | cons b as ih =>
    rcases ih (t := t.insert b) h with h | h
    · rcases Table.mem_insertRow h with rfl | h
      · exact .inr List.mem_cons_self
      · exact .inl h
    · exact .inr (List.mem_cons_of_mem _ h)

theorem write_keeps {t : Table Nat α key} (as : List α) {a : α} (h : a ∈ t.rows) :
    a ∈ (write t as).rows := by
  induction as generalizing t with
  | nil => exact h
  | cons b as ih => exact ih ((Table.sublist_insert t b).subset h)

theorem mem_pending {l : Log α key} {n : Nat} {as : List α} (hf : l.sessions.find? n = some as) {a : α}
    (ha : a ∈ as) : a ∈ l.pending :=
  List.mem_flatMap.mpr ⟨(n,as),Sessions.mem_of_find? hf,ha⟩

theorem pending_rollback {l : Log α key} {n : Nat} {a : α} (h : a ∈ (l.rollback n).pending) :
    a ∈ l.pending := by
  obtain ⟨p,hp,ha⟩ := List.mem_flatMap.mp h
  exact List.mem_flatMap.mpr ⟨p,(List.mem_filter.mp hp).1,ha⟩

/-- What others may see after a step, and what is still open: rows that were there
or pending before, and new rows with ids from the sequence. -/
structure Grows (l l' : Log α key) : Prop where
  next : l.next ≤ l'.next
  kept : ∀ a ∈ l.rows, a ∈ l'.rows
  rows : ∀ a ∈ l'.rows, a ∈ l.rows ∨ a ∈ l.pending
  pending : ∀ a ∈ l'.pending, a ∈ l.pending ∨ l.next ≤ key a ∧ key a < l'.next

theorem start_grows (l : Log α key) : Grows l l.start := by
  refine ⟨le_rfl,fun _ h => h,fun _ h => .inl h,fun a h => .inl ?_⟩
  simpa [pending,start,Sessions.start] using h

theorem insert_grows {l l' : Log α key} {n : Nat} {make : Nat → α} (hm : ∀ id, key (make id) = id)
    (h : l.insert n make = some l') : Grows l l' := by
  obtain ⟨as,hf,rfl⟩ := Option.map_eq_some_iff.mp h
  refine ⟨Nat.le_succ _,fun _ h => h,fun _ h => .inl h,fun a ha => ?_⟩
  obtain ⟨p,hp,ha⟩ := List.mem_flatMap.mp ha
  obtain ⟨q,hq,rfl⟩ := List.mem_map.mp hp
  by_cases hn : q.1 = n
  · rw [if_pos hn] at ha
    rcases List.mem_append.mp ha with ha | ha
    · exact .inl (mem_pending hf ha)
    · rw [List.mem_singleton.mp ha,hm]
      exact .inr ⟨le_rfl,Nat.lt_succ_self _⟩
  · rw [if_neg hn] at ha
    exact .inl (List.mem_flatMap.mpr ⟨q,hq,ha⟩)

theorem commit_grows {l l' : Log α key} {n : Nat} (h : l.commit n = some l') : Grows l l' := by
  obtain ⟨as,hf,rfl⟩ := Option.map_eq_some_iff.mp h
  refine ⟨le_rfl,fun _ h => write_keeps as h,fun a ha => ?_,fun a ha => .inl (pending_rollback (n := n) ha)⟩
  rcases mem_write ha with ha | ha
  · exact .inl ha
  · exact .inr (mem_pending hf ha)

theorem rollback_grows (l : Log α key) (n : Nat) : Grows l (l.rollback n) :=
  ⟨le_rfl,fun _ h => h,fun _ h => .inl h,fun _ h => .inl (pending_rollback h)⟩

/-- Transactions have numbers of their own, and so have rows, from the sequence. -/
structure Sound (l : Log α key) : Prop where
  numbers : (l.sessions.active.map (·.1)).Nodup
  numbers_lt : ∀ p ∈ l.sessions.active, p.1 < l.sessions.next
  keys : ((l.rows ++ l.pending).map key).Nodup
  keys_lt : ∀ a ∈ l.rows ++ l.pending, key a < l.next

theorem Sound.empty : Sound (empty : Log α key) := by
  constructor <;> simp [rows,pending,Log.empty,Table.empty]

theorem Sound.start {l : Log α key} (h : Sound l) : Sound l.start := by
  have hp : l.start.pending = l.pending := by simp [pending,Log.start,Sessions.start]
  refine ⟨?_,fun p hp => ?_,?_,?_⟩
  · simp only [Log.start,Sessions.start,List.map_append,List.map_cons,List.map_nil]
    rw [List.nodup_append]
    refine ⟨h.numbers,List.nodup_singleton _,fun m hm k hk => ?_⟩
    obtain ⟨p,hp,rfl⟩ := List.mem_map.mp hm
    rw [List.mem_singleton.mp hk]
    exact Nat.ne_of_lt (h.numbers_lt p hp)
  · rcases List.mem_append.mp hp with hp | hp
    · exact Nat.lt_succ_of_lt (h.numbers_lt p hp)
    · rw [List.mem_singleton.mp hp]
      exact Nat.lt_succ_self _
  · rw [hp]
    exact h.keys
  · rw [hp]
    exact h.keys_lt

theorem Sound.rollback {l : Log α key} (h : Sound l) (n : Nat) : Sound (l.rollback n) := by
  have hsub : (l.sessions.drop n).active.Sublist l.sessions.active := List.filter_sublist
  have hp : (l.rows ++ (l.rollback n).pending).Sublist (l.rows ++ l.pending) :=
    (hsub.flatMap _).append_left _
  exact ⟨h.numbers.sublist (hsub.map _),fun p hp => h.numbers_lt p (hsub.subset hp),
    h.keys.sublist (hp.map _),fun a ha => h.keys_lt a (hp.subset ha)⟩

theorem Sound.insert {l l' : Log α key} {n : Nat} {make : Nat → α} (h : Sound l)
    (hm : ∀ id, key (make id) = id) (hi : l.insert n make = some l') : Sound l' := by
  obtain ⟨as,hf,rfl⟩ := Option.map_eq_some_iff.mp hi
  obtain ⟨pre,post,hs,hset,-⟩ := Sessions.split_of_find? h.numbers hf
  -- the new row goes into the middle of the open ones
  have hperm : (l.rows ++ (⟨l.sessions.set n (as ++ [make l.next]),l.next+1⟩ : Log α key).pending).Perm
      (make l.next :: (l.rows ++ l.pending)) := by
    simp only [pending,hset,hs,List.flatMap_append,List.flatMap_cons,List.append_assoc,
      List.singleton_append]
    rw [← List.append_assoc,← List.append_assoc,← List.append_assoc,← List.append_assoc]
    exact List.perm_middle
  refine ⟨?_,fun p hp => ?_,?_,fun a ha => ?_⟩
  · rw [Sessions.numbers_set]
    exact h.numbers
  · have hp' := List.mem_map_of_mem (f := Prod.fst) hp
    rw [Sessions.numbers_set] at hp'
    obtain ⟨q,hq,hqp⟩ := List.mem_map.mp hp'
    exact hqp ▸ h.numbers_lt q hq
  · refine ((hperm.map key).nodup_iff).mpr (List.nodup_cons.mpr ⟨fun hk => ?_,h.keys⟩)
    obtain ⟨a,ha,hak⟩ := List.mem_map.mp hk
    have := h.keys_lt a ha
    rw [hak,hm] at this
    exact Nat.lt_irrefl _ this
  · rcases List.mem_cons.mp (hperm.mem_iff.mp ha) with rfl | ha
    · rw [hm]
      exact Nat.lt_succ_self _
    · exact Nat.lt_succ_of_lt (h.keys_lt a ha)

theorem write_perm {t : Table Nat α key} {as : List α} (h : ((t.rows ++ as).map key).Nodup) :
    (write t as).rows.Perm (t.rows ++ as) := by
  induction as generalizing t with
  | nil => simp [write]
  | cons a as ih =>
    have hfresh : ∀ b ∈ t.rows, key b ≠ key a := by
      intro b hb hk
      rw [List.map_append] at h
      exact (List.nodup_append.mp h).2.2 _ (List.mem_map_of_mem hb) _ (by simp) hk
    have hins : ((t.insert a).rows ++ as).Perm (t.rows ++ a :: as) :=
      ((Table.insert_perm hfresh).append_right as).trans List.perm_middle.symm
    exact (ih ((hins.map key).nodup_iff.mpr h)).trans hins

theorem commit_perm {l l' : Log α key} {n : Nat} {as : List α} (h : Sound l)
    (hf : l.sessions.find? n = some as) (hc : l.commit n = some l') :
    l'.rows.Perm (l.rows ++ as) ∧ (l'.rows ++ l'.pending).Perm (l.rows ++ l.pending) := by
  rw [commit,hf,Option.map_some,Option.some.injEq] at hc
  subst hc
  obtain ⟨pre,post,hs,-,hdrop⟩ := Sessions.split_of_find? h.numbers hf
  have hpend : l.pending.Perm (as ++ (l.rollback n).pending) := by
    simp only [pending,Log.rollback,hs,hdrop,List.flatMap_append,List.flatMap_cons]
    rw [← List.append_assoc,← List.append_assoc]
    exact List.perm_append_comm.append_right _
  have hkeys := (((hpend.append_left l.rows).map key).nodup_iff).mp h.keys
  rw [← List.append_assoc,List.map_append] at hkeys
  have hwrite := write_perm (t := l.sessions.db) (List.nodup_append.mp hkeys).1
  refine ⟨hwrite,?_⟩
  calc (write l.sessions.db as).rows ++ (l.rollback n).pending
      |>.Perm (l.rows ++ as ++ (l.rollback n).pending) := hwrite.append_right _
    _ = l.rows ++ (as ++ (l.rollback n).pending) := List.append_assoc _ _ _
    _ |>.Perm (l.rows ++ l.pending) := hpend.symm.append_left _

theorem Sound.commit {l l' : Log α key} {n : Nat} (h : Sound l) (hc : l.commit n = some l') :
    Sound l' := by
  obtain ⟨as,hf,rfl⟩ := Option.map_eq_some_iff.mp hc
  have hperm := (commit_perm h hf hc).2
  have hr := h.rollback n
  exact ⟨hr.numbers,hr.numbers_lt,((hperm.map key).nodup_iff).mpr h.keys,
    fun a ha => h.keys_lt a (hperm.mem_iff.mp ha)⟩

theorem Sound.fresh {l : Log α key} (h : Sound l) {a b : α} (ha : a ∈ l.pending) (hb : b ∈ l.rows) :
    key b ≠ key a := by
  have hk := h.keys
  rw [List.map_append] at hk
  exact (List.nodup_append.mp hk).2.2 _ (List.mem_map_of_mem hb) _ (List.mem_map_of_mem ha)

/-- No open transaction has a row at or before a position, and the sequence is past
it: no row will appear there any more. -/
structure Settled (l : Log α key) (position : Nat) : Prop where
  pending : ∀ a ∈ l.pending, position < key a
  next : position < l.next

theorem Settled.grows {l l' : Log α key} {position : Nat} (h : Settled l position) (hg : Grows l l') :
    Settled l' position := by
  refine ⟨fun a ha => ?_,h.next.trans_le hg.next⟩
  rcases hg.pending a ha with ha | ha
  · exact h.pending a ha
  · exact h.next.trans_le ha.1

theorem Settled.rows {l l' : Log α key} {position : Nat} (h : Settled l position) (hg : Grows l l') {a : α}
    (ha : a ∈ l'.rows) (hk : key a ≤ position) : a ∈ l.rows := by
  rcases hg.rows a ha with ha | ha
  · exact ha
  · exact absurd (h.pending a ha) (not_lt.mpr hk)

theorem since_subset {l : Log α key} {after limit : Nat} {a : α} (h : a ∈ l.since after limit) :
    a ∈ l.rows := (List.mem_filter.mp (List.mem_of_mem_take h)).1

theorem lastKey_mem (key : α → Nat) {batch : List α} (h : batch ≠ []) :
    ∃ a ∈ batch, key a = lastKey key batch := by
  refine ⟨batch.getLast h,List.getLast_mem h,?_⟩
  simp [lastKey,List.getLast?_eq_some_getLast h]

theorem since_le_lastKey {l : Log α key} {after limit : Nat} {a : α} (ha : a ∈ l.since after limit) :
    key a ≤ lastKey key (l.since after limit) := by
  have hsorted : (l.since after limit).Pairwise (fun a b => key a < key b) :=
    (l.sessions.db.sorted.filter _).sublist (List.take_sublist _ _)
  have hne := List.ne_nil_of_mem ha
  rw [lastKey,List.getLast?_eq_some_getLast hne,Option.map_some,Option.getD_some]
  rw [← List.dropLast_append_getLast hne] at ha hsorted
  rcases List.mem_append.mp ha with ha | ha
  · exact ((List.pairwise_append.mp hsorted).2.2 a ha _ (List.mem_singleton_self _)).le
  · rw [List.mem_singleton.mp ha]

theorem lt_lastKey_since {l : Log α key} {after limit : Nat} (h : l.since after limit ≠ []) :
    after < lastKey key (l.since after limit) := by
  obtain ⟨a,ha,hkey⟩ := lastKey_mem key h
  rw [← hkey]
  exact of_decide_eq_true (List.mem_filter.mp (List.mem_of_mem_take ha)).2

theorem since_covers {l : Log α key} {after limit : Nat} {a : α} (ha : a ∈ l.rows) (hafter : after < key a)
    (hlast : key a ≤ lastKey key (l.since after limit)) (hne : l.since after limit ≠ []) :
    a ∈ l.since after limit := by
  obtain ⟨b,hb,hkey⟩ := lastKey_mem key hne
  have hsorted := l.sessions.db.sorted.filter (fun a => after < key a)
  have hmem : a ∈ l.rows.filter (fun a => after < key a) := by simpa using ⟨ha,hafter⟩
  change (l.rows.filter (fun a => after < key a)).Pairwise (fun a b => key a < key b) at hsorted
  rw [← List.take_append_drop limit (l.rows.filter _)] at hmem hsorted
  rcases List.mem_append.mp hmem with hmem | hmem
  · exact hmem
  · -- what was left out comes after all of the batch
    have := (List.pairwise_append.mp hsorted).2.2 b hb a hmem
    omega

theorem not_mem_since {l : Log α key} {after : Nat} {a : α} (ha : a ∈ l.rows) :
    (∀ limit, a ∉ l.since after limit) ↔ key a ≤ after := by
  constructor
  · intro h
    by_contra hk
    refine h (l.rows.filter (fun a => after < key a)).length ?_
    rw [since,List.take_length]
    simpa using ⟨ha,not_le.mp hk⟩
  · intro hk limit h
    have := (List.mem_filter.mp (List.mem_of_mem_take h)).2
    simp only [decide_eq_true_eq] at this
    omega

end Log

end CostConsumer.Foundation
