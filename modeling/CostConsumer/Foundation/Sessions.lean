import Mathlib.Data.List.Nodup
set_option autoImplicit false

/-!
Concurrent transactions on one database. What a transaction writes takes effect
when it commits, and a key it has locked is locked by no other open one. Under
these rules a run is as good as the serial run of the committed transactions.
-/

namespace CostConsumer.Foundation

/-- Transactions by number: the open ones, and the committed ones in the order of
their commits. -/
structure Sessions (D T : Type) where
  db : D
  next : Nat
  active : List (Nat × T)
  commits : List (Nat × T)

variable {D T K : Type}

/-- The serial execution of transactions, each of which meets `ok` on the
database it finds. -/
inductive Serial (write : D → T → D) (ok : D → T → Prop) (base : D) : List T → D → Prop
  | nil : Serial write ok base [] base
  | snoc {ts : List T} {d : D} {t : T} :
      Serial write ok base ts d → ok d t → Serial write ok base (ts ++ [t]) (write d t)

theorem Serial.eq_foldl {write : D → T → D} {ok : D → T → Prop} {base d : D} {ts : List T}
    (h : Serial write ok base ts d) : d = ts.foldl write base := by
  induction h with
  | nil => rfl
  | snoc _ _ ih => rw [List.foldl_append,← ih]; rfl

namespace Sessions

def find? (s : Sessions D T) (n : Nat) : Option T :=
  (s.active.find? (fun p => p.1 = n)).map (·.2)

def start (s : Sessions D T) (t : T) : Sessions D T :=
  { s with next := s.next+1, active := s.active ++ [(s.next,t)] }

def set (s : Sessions D T) (n : Nat) (t : T) : Sessions D T :=
  { s with active := s.active.map (fun p => if p.1 = n then (n,t) else p) }

/-- The end of a transaction without its writes. -/
def drop (s : Sessions D T) (n : Nat) : Sessions D T :=
  { s with active := s.active.filter (fun p => p.1 ≠ n) }

def commit (write : D → T → D) (s : Sessions D T) (n : Nat) (t : T) : Sessions D T :=
  { s.drop n with db := write s.db t, commits := s.commits ++ [(n,t)] }

theorem mem_of_find? {s : Sessions D T} {n : Nat} {t : T} (h : s.find? n = some t) :
    (n,t) ∈ s.active := by
  obtain ⟨p,hp,rfl⟩ := Option.map_eq_some_iff.mp h
  have hn := List.find?_some hp
  simp only [decide_eq_true_eq] at hn
  rw [← hn]
  exact List.mem_of_find?_eq_some hp

theorem find?_of_mem {s : Sessions D T} {n : Nat} {t : T} (hnd : (s.active.map (·.1)).Nodup)
    (h : (n,t) ∈ s.active) : s.find? n = some t := by
  cases hf : s.active.find? (fun p => p.1 = n) with
  | none => simpa using List.find?_eq_none.mp hf (n,t) h
  | some p =>
    have hp : p = (n,t) :=
      List.inj_on_of_nodup_map hnd (List.mem_of_find?_eq_some hf) h (by simpa using List.find?_some hf)
    rw [find?,hf,hp]
    rfl

theorem find?_set {s : Sessions D T} {n : Nat} {t u : T} (h : s.find? n = some t) :
    (s.set n u).find? n = some u := by
  obtain ⟨p,hp,-⟩ := Option.map_eq_some_iff.mp h
  have hcomp : (fun q : Nat × T => decide (q.1 = n)) ∘ (fun q => if q.1 = n then (n,u) else q) =
      fun q => decide (q.1 = n) := by
    funext q
    by_cases hq : q.1 = n <;> simp [hq]
  have hn := List.find?_some hp
  simp only [decide_eq_true_eq] at hn
  have hfind : (s.set n u).active.find? (fun q => q.1 = n) = some (n,u) := by
    rw [set,List.find?_map,hcomp,hp,Option.map_some,if_pos hn]
  rw [find?,hfind]
  rfl

theorem split_of_find? {s : Sessions D T} {n : Nat} {t : T} (hnd : (s.active.map (·.1)).Nodup)
    (h : s.find? n = some t) : ∃ pre post, s.active = pre ++ (n,t) :: post ∧
      (∀ u, (s.set n u).active = pre ++ (n,u) :: post) ∧ (s.drop n).active = pre ++ post := by
  obtain ⟨pre,post,hs⟩ := List.append_of_mem (mem_of_find? h)
  rw [hs,List.map_append,List.map_cons,List.nodup_middle,List.nodup_cons,List.mem_append] at hnd
  have hpre : ∀ p ∈ pre, p.1 ≠ n := fun p hp hn => hnd.1 (.inl (List.mem_map.mpr ⟨p,hp,hn⟩))
  have hpost : ∀ p ∈ post, p.1 ≠ n := fun p hp hn => hnd.1 (.inr (List.mem_map.mpr ⟨p,hp,hn⟩))
  refine ⟨pre,post,hs,fun u => ?_,?_⟩
  · have hmap : ∀ l : List (Nat × T), (∀ p ∈ l, p.1 ≠ n) →
        l.map (fun p => if p.1 = n then (n,u) else p) = l := fun l hl =>
      (List.map_congr_left fun p hp => if_neg (hl p hp)).trans (List.map_id _)
    rw [set,hs,List.map_append,List.map_cons,hmap pre hpre,hmap post hpost,if_pos rfl]
  · have hfilter : ∀ l : List (Nat × T), (∀ p ∈ l, p.1 ≠ n) →
        l.filter (fun p => p.1 ≠ n) = l := fun l hl =>
      List.filter_eq_self.mpr fun p hp => decide_eq_true (hl p hp)
    rw [drop,hs,List.filter_append,List.filter_cons,hfilter pre hpre,hfilter post hpost]
    simp

@[simp] theorem numbers_set (s : Sessions D T) (n : Nat) (t : T) :
    (s.set n t).active.map (·.1) = s.active.map (·.1) := by
  simp only [set,List.map_map]
  refine List.map_congr_left fun p _ => ?_
  by_cases hp : p.1 = n <;> simp [hp]

theorem not_mem_drop (s : Sessions D T) (n : Nat) : n ∉ (s.drop n).active.map (·.1) := by
  simp [drop]

theorem mem_of_mem_drop {s : Sessions D T} {n m : Nat} (h : m ∈ (s.drop n).active.map (·.1)) :
    m ∈ s.active.map (·.1) := (List.filter_sublist.map _).subset h

/-- The rules of a run: `Good` holds of every open transaction at any time, and
`Final` held of every committed one when it committed. -/
structure Sound (write : D → T → D) (locks : T → List K) (Good Final : D → T → Prop) (base : D)
    (s : Sessions D T) : Prop where
  serial : Serial write Final base (s.commits.map (·.2)) s.db
  nodup : (s.commits.map (·.1) ++ s.active.map (·.1)).Nodup
  below : ∀ n ∈ s.commits.map (·.1) ++ s.active.map (·.1), n < s.next
  good : ∀ p ∈ s.active, Good s.db p.2
  isolated : ∀ p ∈ s.active, ∀ q ∈ s.active, p.1 ≠ q.1 → ∀ k ∈ locks p.2, k ∉ locks q.2

namespace Sound

variable {write : D → T → D} {locks : T → List K} {Good Final : D → T → Prop} {base : D}
  {s : Sessions D T} {n : Nat} {t : T}

theorem initial (base : D) : Sound write locks Good Final base ⟨base,0,[],[]⟩ :=
  ⟨.nil,by simp,by simp,by simp,by simp⟩

theorem find?_next (h : Sound write locks Good Final base s) (t : T) :
    (s.start t).find? s.next = some t := by
  have hnone : s.active.find? (fun p => p.1 = s.next) = none := by
    rw [List.find?_eq_none]
    intro p hp
    have := h.below p.1 (List.mem_append_right _ (List.mem_map_of_mem hp))
    simpa using Nat.ne_of_lt this
  simp [find?,start,hnone]

theorem of_find? (h : Sound write locks Good Final base s) (hf : s.find? n = some t) :
    Good s.db t := h.good _ (mem_of_find? hf)

theorem number_lt (h : Sound write locks Good Final base s) (hf : s.find? n = some t) :
    n < s.next := h.below n (List.mem_append_right _ (List.mem_map.mpr ⟨_,mem_of_find? hf,rfl⟩))

theorem number_open (h : Sound write locks Good Final base s) (hf : s.find? n = some t) :
    n ∉ s.commits.map (·.1) :=
  fun hn => (List.nodup_append.mp h.nodup).2.2 n hn n (List.mem_map.mpr ⟨_,mem_of_find? hf,rfl⟩) rfl

theorem start (h : Sound write locks Good Final base s) (hg : Good s.db t) (hl : locks t = []) :
    Sound write locks Good Final base (s.start t) := by
  refine ⟨h.serial,?_,?_,?_,?_⟩
  · simp only [Sessions.start,List.map_append,← List.append_assoc]
    rw [List.nodup_append]
    refine ⟨h.nodup,by simp,?_⟩
    intro m hm k hk
    simp only [List.map_cons,List.map_nil,List.mem_singleton] at hk
    rw [hk]
    exact Nat.ne_of_lt (h.below m hm)
  · intro m hm
    simp only [Sessions.start,List.map_append,← List.append_assoc] at hm
    rcases List.mem_append.mp hm with hm | hm
    · exact Nat.lt_succ_of_lt (h.below m hm)
    · simp only [List.map_cons,List.map_nil,List.mem_singleton] at hm
      rw [hm]
      exact Nat.lt_succ_self s.next
  · intro p hp
    rcases List.mem_append.mp hp with hp | hp
    · exact h.good p hp
    · rw [List.mem_singleton.mp hp]
      exact hg
  · intro p hp q hq hne k hk
    rcases List.mem_append.mp hp with hp | hp
    · rcases List.mem_append.mp hq with hq | hq
      · exact h.isolated p hp q hq hne k hk
      · simp [List.mem_singleton.mp hq,hl]
    · simp [List.mem_singleton.mp hp,hl] at hk

theorem set {u : T} (h : Sound write locks Good Final base s) (hf : s.find? n = some t)
    (hg : Good s.db u)
    (hl : ∀ k ∈ locks u, k ∈ locks t ∨ ∀ p ∈ s.active, p.1 ≠ n → k ∉ locks p.2) :
    Sound write locks Good Final base (s.set n u) := by
  -- an open transaction afterwards is the new one, or was there under another number
  have hmem : ∀ p ∈ (s.set n u).active, p = (n,u) ∨ p ∈ s.active ∧ p.1 ≠ n := by
    intro p hp
    obtain ⟨q,hq,rfl⟩ := List.mem_map.mp hp
    by_cases hn : q.1 = n
    · simp [hn]
    · simp [hn,hq]
  have hmine : ∀ p ∈ s.active, p.1 ≠ n → ∀ k ∈ locks u, k ∉ locks p.2 := by
    intro p hp hne k hk
    rcases hl k hk with ht | ht
    · exact h.isolated _ (mem_of_find? hf) p hp (Ne.symm hne) k ht
    · exact ht p hp hne
  refine ⟨h.serial,?_,?_,?_,?_⟩
  · rw [numbers_set]
    exact h.nodup
  · rw [numbers_set]
    exact h.below
  · intro p hp
    rcases hmem p hp with rfl | ⟨hp,-⟩
    · exact hg
    · exact h.good p hp
  · intro p hp q hq hne k hk
    rcases hmem p hp with rfl | ⟨hp,hpn⟩
    · rcases hmem q hq with rfl | ⟨hq,hqn⟩
      · exact absurd rfl hne
      · exact hmine q hq hqn k hk
    · rcases hmem q hq with rfl | ⟨hq,-⟩
      · exact fun hku => hmine p hp hpn k hku hk
      · exact h.isolated p hp q hq hne k hk

theorem drop (h : Sound write locks Good Final base s) (n : Nat) :
    Sound write locks Good Final base (s.drop n) := by
  have hsub : ((s.drop n).active.map (·.1)).Sublist (s.active.map (·.1)) :=
    List.filter_sublist.map _
  have hact : ∀ p ∈ (s.drop n).active, p ∈ s.active := fun p hp => (List.mem_filter.mp hp).1
  refine ⟨h.serial,?_,?_,?_,?_⟩
  · exact h.nodup.sublist (hsub.append_left _)
  · exact fun m hm => h.below m ((hsub.append_left _).subset hm)
  · exact fun p hp => h.good p (hact p hp)
  · exact fun p hp q hq => h.isolated p (hact p hp) q (hact q hq)

theorem commit (h : Sound write locks Good Final base s) (hf : s.find? n = some t)
    (hfin : Final s.db t)
    (hstable : ∀ u, Good s.db u → (∀ k ∈ locks t, k ∉ locks u) → Good (write s.db t) u) :
    Sound write locks Good Final base (s.commit write n t) := by
  have hnt := mem_of_find? hf
  have hd := h.drop n
  have hmem : ∀ p ∈ (s.drop n).active, p ∈ s.active ∧ p.1 ≠ n := by
    intro p hp
    simpa using List.mem_filter.mp hp
  have hlast : (s.commits ++ [(n,t)]).map (·.1) = s.commits.map (·.1) ++ [n] := by simp
  refine ⟨?_,?_,?_,?_,?_⟩
  · simpa [Sessions.commit] using Serial.snoc h.serial hfin
  · show ((s.commits ++ [(n,t)]).map (·.1) ++ (s.drop n).active.map (·.1)).Nodup
    rw [hlast,List.append_assoc,List.singleton_append,List.nodup_middle,List.nodup_cons]
    refine ⟨fun hn => ?_,hd.nodup⟩
    rcases List.mem_append.mp hn with hn | hn
    · exact h.number_open hf hn
    · exact not_mem_drop s n hn
  · show ∀ m ∈ (s.commits ++ [(n,t)]).map (·.1) ++ (s.drop n).active.map (·.1), m < s.next
    intro m hm
    rw [hlast] at hm
    simp only [List.append_assoc,List.singleton_append,List.mem_append,List.mem_cons] at hm
    rcases hm with hm | rfl | hm
    · exact h.below m (List.mem_append_left _ hm)
    · exact h.number_lt hf
    · exact hd.below m (List.mem_append_right _ hm)
  · intro p hp
    obtain ⟨hp,hne⟩ := hmem p hp
    exact hstable p.2 (h.good p hp) (h.isolated _ hnt p hp (Ne.symm hne))
  · exact hd.isolated

end Sound

end Sessions

end CostConsumer.Foundation
