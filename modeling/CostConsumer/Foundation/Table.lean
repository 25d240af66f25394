import Mathlib.Order.Lattice
import Mathlib.Data.List.Nodup
set_option autoImplicit false

namespace CostConsumer.Foundation

theorem find?_of_not_mem {K α : Type} [DecidableEq K] {key : α → K} {l : List α} {k : K}
    (h : k ∉ l.map key) : l.find? (fun a => key a = k) = none := by
  rw [List.find?_eq_none]
  intro a ha hk
  exact h (List.mem_map.mpr ⟨a,ha,of_decide_eq_true hk⟩)

structure Table (K : Type) [LinearOrder K] (α : Type) (key : α → K) where
  rows : List α
  sorted : rows.Pairwise (fun a b => key a < key b)

namespace Table

variable {K : Type} [LinearOrder K] {α : Type} {key : α → K}

@[ext] theorem ext {t u : Table K α key} (h : t.rows = u.rows) : t = u := by
  cases t; cases u; cases h; rfl

def empty : Table K α key := ⟨[],.nil⟩

instance : Inhabited (Table K α key) := ⟨empty⟩

def find? (t : Table K α key) (k : K) : Option α := t.rows.find? (fun a => key a = k)

def insertRow (key : α → K) (r : α) : List α → List α
  | [] => [r]
  | a :: as => if key r < key a then r :: a :: as
      else if key a < key r then a :: insertRow key r as
      else a :: as

theorem mem_insertRow {r b : α} {as : List α} (h : b ∈ insertRow key r as) : b = r ∨ b ∈ as := by
  induction as with
  | nil => simpa [insertRow] using h
  | cons a as ih =>
    unfold insertRow at h
    split at h
    · simpa using h
    · split at h
      · rcases List.mem_cons.mp h with h | h
        · simp [h]
        · rcases ih h with h | h <;> simp [h]
      · exact .inr h

theorem insertRow_of_fresh {r : α} {as : List α} (h : ∀ a ∈ as, key a ≠ key r) :
    (insertRow key r as).Perm (r :: as) := by
  induction as with
  | nil => exact .refl _
  | cons a as ih =>
    unfold insertRow
    split
    · exact .refl _
    · rename_i h₁
      have h₂ : key a < key r :=
        lt_of_le_of_ne (le_of_not_gt h₁) (h a List.mem_cons_self)
      rw [if_pos h₂]
      exact (List.Perm.cons a (ih fun b hb => h b (List.mem_cons_of_mem _ hb))).trans
        (List.Perm.swap r a as)

theorem insertRow_sorted {r : α} {as : List α} (h : as.Pairwise (fun a b => key a < key b)) :
    (insertRow key r as).Pairwise (fun a b => key a < key b) := by
  induction as with
  | nil => simp [insertRow]
  | cons a as ih =>
    obtain ⟨ha,has⟩ := List.pairwise_cons.mp h
    unfold insertRow
    split
    · rename_i hr
      refine List.pairwise_cons.mpr ⟨fun b hb => ?_,h⟩
      rcases List.mem_cons.mp hb with rfl | hb
      · exact hr
      · exact lt_trans hr (ha b hb)
    · split
      · rename_i hr
        refine List.pairwise_cons.mpr ⟨fun b hb => ?_,ih has⟩
        rcases mem_insertRow hb with rfl | hb
        · exact hr
        · exact ha b hb
      · exact h

theorem insertRow_last {r : α} {as : List α} (h : ∀ a ∈ as, key a < key r) :
    insertRow key r as = as ++ [r] := by
  induction as with
  | nil => rfl
  | cons a as ih =>
    have ha := h a List.mem_cons_self
    rw [insertRow,if_neg (not_lt_of_gt ha),if_pos ha,
      ih fun b hb => h b (List.mem_cons_of_mem _ hb)]
    rfl

theorem insertRow_sublist (key : α → K) (r : α) (as : List α) : as.Sublist (insertRow key r as) := by
  induction as with
  | nil => exact List.nil_sublist _
  | cons a as ih =>
    unfold insertRow
    split
    · exact List.sublist_cons_self r _
    · split
      · exact ih.cons_cons a
      · exact .refl _

def insert (t : Table K α key) (r : α) : Table K α key :=
  ⟨insertRow key r t.rows,insertRow_sorted t.sorted⟩

theorem insert_last {t : Table K α key} {r : α} (h : ∀ a ∈ t.rows, key a < key r) :
    (t.insert r).rows = t.rows ++ [r] := insertRow_last h

theorem insert_perm {t : Table K α key} {r : α} (h : ∀ a ∈ t.rows, key a ≠ key r) :
    (t.insert r).rows.Perm (r :: t.rows) := insertRow_of_fresh h

theorem mem_insert {t : Table K α key} {r b : α} (h : ∀ a ∈ t.rows, key a ≠ key r) :
    b ∈ (t.insert r).rows ↔ b = r ∨ b ∈ t.rows := by
  rw [(insert_perm h).mem_iff,List.mem_cons]

theorem sublist_insert (t : Table K α key) (r : α) : t.rows.Sublist (t.insert r).rows :=
  insertRow_sublist key r t.rows

theorem ext_of_perm {t u : Table K α key} (h : t.rows.Perm u.rows) : t = u :=
  ext (h.eq_of_pairwise (fun _ _ _ _ h₁ h₂ => absurd h₁ (lt_asymm h₂)) t.sorted u.sorted)

theorem insert_all_perm {t : Table K α key} {rs : List α} (hnd : (rs.map key).Nodup)
    (h : ∀ r ∈ rs, ∀ a ∈ t.rows, key a ≠ key r) : (rs.foldl insert t).rows.Perm (t.rows ++ rs) := by
  induction rs generalizing t with
  | nil => simp
  | cons r rs ih =>
    obtain ⟨hr,hnd⟩ := List.nodup_cons.mp hnd
    have hins : (t.insert r).rows.Perm (r :: t.rows) := insert_perm (h r List.mem_cons_self)
    have hrest := @ih (t.insert r) hnd fun b hb a ha => by
      rcases List.mem_cons.mp (hins.mem_iff.mp ha) with rfl | ha
      · exact fun hk => hr (hk ▸ List.mem_map_of_mem hb)
      · exact h b (List.mem_cons_of_mem _ hb) a ha
    exact hrest.trans ((hins.append_right rs).trans List.perm_middle.symm)

def update (t : Table K α key) (f : α → α) (hf : ∀ a, key (f a) = key a) : Table K α key :=
  ⟨t.rows.map f,by
    rw [List.pairwise_map]
    exact t.sorted.imp (fun h => by rwa [hf,hf])⟩

@[simp] theorem update_rows (t : Table K α key) (f : α → α) (hf : ∀ a, key (f a) = key a) :
    (t.update f hf).rows = t.rows.map f := rfl

def updateWhere (t : Table K α key) (p : α → Bool) (f : α → α) (hf : ∀ a, key (f a) = key a) :
    Table K α key :=
  t.update (fun a => if p a then f a else a) (fun a => by split <;> simp [hf])

theorem keys_nodup (t : Table K α key) : (t.rows.map key).Nodup := by
  rw [List.nodup_iff_pairwise_ne,List.pairwise_map]
  exact t.sorted.imp (fun h => ne_of_lt h)

theorem key_injective {t : Table K α key} {a b : α} (ha : a ∈ t.rows) (hb : b ∈ t.rows)
    (h : key a = key b) : a = b :=
  List.inj_on_of_nodup_map t.keys_nodup ha hb h

theorem find?_eq_some {t : Table K α key} {k : K} {a : α} :
    t.find? k = some a ↔ a ∈ t.rows ∧ key a = k := by
  constructor
  · intro h
    exact ⟨List.mem_of_find?_eq_some h,by simpa using List.find?_some h⟩
  · rintro ⟨ha,rfl⟩
    cases h : t.find? (key a) with
    | none => simpa using List.find?_eq_none.mp h a ha
    | some b =>
      rw [key_injective (List.mem_of_find?_eq_some h) ha (by simpa using List.find?_some h)]

theorem find?_eq_none {t : Table K α key} {k : K} : t.find? k = none ↔ ∀ a ∈ t.rows, key a ≠ k := by
  simp [find?]

/-- A row in the place of the one that had its key, or a new row. -/
def Replaces (key : α → K) (rows rows' : List α) (r : α) : Prop :=
  ∃ pre post, rows' = pre ++ r :: post ∧ rows.filter (fun a => key a ≠ key r) = pre ++ post

theorem insert_replaces {t : Table K α key} {r : α} (h : ∀ a ∈ t.rows, key a < key r) :
    Replaces key t.rows (t.insert r).rows r := by
  refine ⟨t.rows,[],insert_last h,?_⟩
  rw [List.append_nil,List.filter_eq_self]
  exact fun a ha => by simpa using (h a ha).ne

theorem updateWhere_replaces {t : Table K α key} {k : K} {a : α} (h : t.find? k = some a) (f : α → α)
    (hf : ∀ a, key (f a) = key a) :
    Replaces key t.rows (t.updateWhere (fun b => key b = k) f hf).rows (f a) := by
  obtain ⟨ha,hk⟩ := find?_eq_some.mp h
  obtain ⟨pre,post,hrows⟩ := List.append_of_mem ha
  have hnd := t.keys_nodup
  rw [hrows,List.map_append,List.map_cons,List.nodup_middle,List.nodup_cons,← List.map_append] at hnd
  have hne : ∀ b ∈ pre ++ post, key b ≠ k :=
    fun b hb hbk => hnd.1 (List.mem_map.mpr ⟨b,hb,hbk.trans hk.symm⟩)
  have hpre : ∀ b ∈ pre, key b ≠ k := fun b hb => hne b (List.mem_append_left _ hb)
  have hpost : ∀ b ∈ post, key b ≠ k := fun b hb => hne b (List.mem_append_right _ hb)
  refine ⟨pre,post,?_,?_⟩
  · rw [updateWhere,update_rows,hrows,List.map_append,List.map_cons,
      List.map_congr_left (g := id) fun b hb => by simp [hpre b hb],
      List.map_congr_left (l := post) (g := id) fun b hb => by simp [hpost b hb]]
    simp [hk]
  · rw [hrows,List.filter_append,List.filter_cons_of_neg (by simp [hf]),
      List.filter_eq_self.mpr fun b hb => by simpa [hf,hk] using hpre b hb,
      List.filter_eq_self.mpr fun b hb => by simpa [hf,hk] using hpost b hb]

theorem mem_updateWhere {t : Table K α key} {p : α → Bool} {f : α → α} (hf : ∀ a, key (f a) = key a)
    {b : α} (h : b ∈ (t.updateWhere p f hf).rows) :
    ∃ a ∈ t.rows, key a = key b ∧ b = if p a then f a else a := by
  obtain ⟨a,ha,rfl⟩ := List.mem_map.mp h
  refine ⟨a,ha,?_,rfl⟩
  split <;> simp [hf]

theorem updateWhere_selection {f : α → α} {q : α → Bool} (h : ∀ a, q (f a) = false) (t : Table K α key)
    (p : α → Bool) (hf : ∀ a, key (f a) = key a) :
    ((t.updateWhere p f hf).rows.filter q).Sublist (t.rows.filter q) := by
  rw [updateWhere,update_rows]
  induction t.rows with
  | nil => exact .refl _
  | cons a as ih =>
    by_cases hp : p a = true
    · rw [List.map_cons,if_pos hp,List.filter_cons_of_neg (by simp [h])]
      exact ih.trans ((List.sublist_cons_self a as).filter q)
    · rw [List.map_cons,if_neg hp,List.filter_cons,List.filter_cons]
      split
      · exact ih.cons_cons a
      · exact ih

theorem updateWhere_of_none {t : Table K α key} {p : α → Bool} (h : ∀ a ∈ t.rows, p a = false)
    (f : α → α) (hf : ∀ a, key (f a) = key a) : t.updateWhere p f hf = t := by
  refine ext ?_
  rw [updateWhere,update_rows,List.map_congr_left (g := id) fun a ha => by simp [h a ha]]
  exact List.map_id _

theorem find?_insert {t : Table K α key} {r : α} (h : t.find? (key r) = none) (k : K) :
    (t.insert r).find? k = if key r = k then some r else t.find? k := by
  have hfresh := find?_eq_none.mp h
  by_cases hk : key r = k
  · rw [if_pos hk,find?_eq_some,mem_insert hfresh]
    exact ⟨.inl rfl,hk⟩
  · rw [if_neg hk]
    cases hf : t.find? k with
    | none =>
      rw [find?_eq_none]
      intro a ha
      rcases (mem_insert hfresh).mp ha with rfl | ha
      · exact hk
      · exact find?_eq_none.mp hf a ha
    | some a =>
      obtain ⟨ha,hak⟩ := find?_eq_some.mp hf
      exact find?_eq_some.mpr ⟨(mem_insert hfresh).mpr (.inr ha),hak⟩

theorem find?_insert_all {t : Table K α key} {rs : List α} (hnd : (rs.map key).Nodup)
    (h : ∀ r ∈ rs, t.find? (key r) = none) (k : K) :
    (rs.foldl insert t).find? k = (rs.find? (fun r => key r = k)).or (t.find? k) := by
  induction rs generalizing t with
  | nil => simp
  | cons r rs ih =>
    obtain ⟨hr,hnd⟩ := List.nodup_cons.mp hnd
    have hins := find?_insert (h r List.mem_cons_self)
    rw [List.foldl_cons,ih hnd fun a ha => ?_,hins,List.find?_cons]
    · by_cases hk : key r = k
      · have hnone : rs.find? (fun a => key a = k) = none := find?_of_not_mem (hk ▸ hr)
        simp [hk,hnone]
      · simp [hk]
    · rw [hins,if_neg,h a (List.mem_cons_of_mem _ ha)]
      intro hra
      exact hr (hra ▸ List.mem_map_of_mem ha)

def erase (t : Table K α key) (k : K) : Table K α key :=
  ⟨t.rows.filter (fun a => key a ≠ k),t.sorted.filter _⟩

theorem mem_erase {t : Table K α key} {k : K} {a : α} : a ∈ (t.erase k).rows ↔ a ∈ t.rows ∧ key a ≠ k := by
  simp [erase]

theorem find?_erase (t : Table K α key) (k k' : K) :
    (t.erase k).find? k' = if k = k' then none else t.find? k' := by
  by_cases hk : k = k'
  · rw [if_pos hk,find?_eq_none]
    exact fun a ha => hk ▸ (mem_erase.mp ha).2
  · rw [if_neg hk]
    cases hf : t.find? k' with
    | none =>
      rw [find?_eq_none] at hf ⊢
      exact fun a ha => hf a (mem_erase.mp ha).1
    | some a =>
      rw [find?_eq_some] at hf ⊢
      exact ⟨mem_erase.mpr ⟨hf.1,hf.2 ▸ Ne.symm hk⟩,hf.2⟩

/-- `INSERT` with `ON CONFLICT DO UPDATE`: a row whose key is taken changes the
row that has it. -/
def upsert (t : Table K α key) (r : α) (merge : α → α) (hm : ∀ a, key (merge a) = key a) :
    Table K α key :=
  if (t.find? (key r)).isSome then
    t.update (fun a => if key a = key r then merge a else a) (fun a => by split <;> simp [hm])
  else t.insert r

theorem mem_upsert {t : Table K α key} {r b : α} {merge : α → α} {hm : ∀ a, key (merge a) = key a}
    (h : b ∈ (t.upsert r merge hm).rows) : b ∈ t.rows ∨
      (b = r ∧ ∀ a ∈ t.rows, key a ≠ key r) ∨ ∃ a ∈ t.rows, key a = key r ∧ b = merge a := by
  unfold upsert at h
  cases hf : t.find? (key r) with
  | none =>
    have hfresh := find?_eq_none.mp hf
    simp only [hf,Option.isSome_none,Bool.false_eq_true,if_false,mem_insert hfresh] at h
    rcases h with h | h
    · exact .inr (.inl ⟨h,hfresh⟩)
    · exact .inl h
  | some a =>
    simp only [hf,Option.isSome_some,if_true,update_rows] at h
    obtain ⟨c,hc,rfl⟩ := List.mem_map.mp h
    by_cases hk : key c = key r
    · simp only [hk,if_true]
      exact .inr (.inr ⟨c,hc,hk,rfl⟩)
    · simp only [hk,if_false]
      exact .inl hc

theorem upsert_keeps {t : Table K α key} {r a : α} {merge : α → α}
    (hm : ∀ a, key (merge a) = key a) (h : a ∈ t.rows) :
    a ∈ (t.upsert r merge hm).rows ∨ merge a ∈ (t.upsert r merge hm).rows := by
  unfold upsert
  cases hf : t.find? (key r) with
  | none =>
    simp only [Option.isSome_none,Bool.false_eq_true,if_false,mem_insert (find?_eq_none.mp hf)]
    exact .inl (.inr h)
  | some b =>
    simp only [Option.isSome_some,if_true,update_rows]
    have hmap := List.mem_map_of_mem (f := fun a => if key a = key r then merge a else a) h
    by_cases hk : key a = key r
    · simp only [hk,if_true] at hmap
      exact .inr hmap
    · simp only [hk,if_false] at hmap
      exact .inl hmap

theorem find?_update (t : Table K α key) (f : α → α) (hf : ∀ a, key (f a) = key a) (k : K) :
    (t.update f hf).find? k = (t.find? k).map f := by
  cases h : t.find? k with
  | none =>
    rw [Option.map_none,find?_eq_none]
    intro b hb
    obtain ⟨a,ha,rfl⟩ := List.mem_map.mp hb
    rw [hf]
    exact find?_eq_none.mp h a ha
  | some a =>
    obtain ⟨ha,hk⟩ := find?_eq_some.mp h
    exact find?_eq_some.mpr ⟨List.mem_map_of_mem ha,(hf a).trans hk⟩

theorem find?_upsert (t : Table K α key) (r : α) (merge : α → α) (hm : ∀ a, key (merge a) = key a)
    (k : K) : (t.upsert r merge hm).find? k =
      if key r = k then some ((t.find? k).elim r merge) else t.find? k := by
  unfold upsert
  cases hf : t.find? (key r) with
  | none =>
    rw [Option.isSome_none,if_neg Bool.false_ne_true,find?_insert hf]
    by_cases hk : key r = k
    · rw [if_pos hk,if_pos hk,← hk,hf,Option.elim_none]
    · rw [if_neg hk,if_neg hk]
  | some a =>
    rw [Option.isSome_some,if_pos rfl,find?_update]
    by_cases hk : key r = k
    · rw [if_pos hk,← hk,hf,Option.map_some,if_pos (find?_eq_some.mp hf).2,Option.elim_some]
    · rw [if_neg hk]
      cases hb : t.find? k with
      | none => rfl
      | some b =>
        rw [Option.map_some,if_neg]
        rw [(find?_eq_some.mp hb).2]
        exact fun h => hk h.symm

theorem filter_lt_key {pre post : List α} {a : α}
    (h : (pre ++ a :: post).Pairwise (fun a b => key a < key b)) :
    (pre ++ a :: post).filter (fun b => key b < key a) = pre := by
  obtain ⟨-,h₁,h₂⟩ := List.pairwise_append.mp h
  obtain ⟨h₃,-⟩ := List.pairwise_cons.mp h₁
  have hpre : pre.filter (fun b => key b < key a) = pre := by
    rw [List.filter_eq_self]
    intro b hb
    exact decide_eq_true (h₂ b hb a List.mem_cons_self)
  have hpost : (a :: post).filter (fun b => key b < key a) = [] := by
    rw [List.filter_eq_nil_iff]
    intro b hb hlt
    rcases List.mem_cons.mp hb with rfl | hb
    · exact lt_irrefl _ (of_decide_eq_true hlt)
    · exact lt_asymm (h₃ b hb) (of_decide_eq_true hlt)
  rw [List.filter_append,hpre,hpost,List.append_nil]

end Table

end CostConsumer.Foundation
