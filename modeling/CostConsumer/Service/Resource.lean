import CostConsumer.Foundation.GoTime
import CostConsumer.Foundation.Numeric
set_option autoImplicit false

namespace CostConsumer.Resource
open Foundation

structure Row where
  createdAt : Int
  lastMeteredAt : Option Int
  deletedAt : Option Int
  state : String
  deriving DecidableEq, Repr

def Row.checkpoint (r : Row) : Int := r.lastMeteredAt.getD r.createdAt

def Row.aliveIn (states : List String) (r : Row) : Bool := r.deletedAt.isNone && r.state ∈ states

structure Interval where
  start : Int
  stop : Int
  value : Rat
  deriving DecidableEq, Repr

/-- `ahead`: the sweep has not listed the resources of this kind yet. `listed`: it
read the row with a checkpoint and has not metered it. `stored`: it metered it and
is about to move the checkpoint. -/
inductive Stage where
  | off : Stage
  | ahead (now : Int) : Stage
  | listed (now start : Int) : Stage
  | stored (now : Int) (ok : Bool) : Stage
  deriving DecidableEq, Repr

structure View where
  row : Option Row
  stage : Stage
  uptime : List Interval
  deriving DecidableEq, Repr

inductive Effect where
  | upsert (r : Row) : Effect
  | metered (intervals : List Interval) : Effect
  | checkpoint (t : Int) : Effect
  deriving DecidableEq, Repr

/-- An upsert keeps the creation time and the checkpoint of a row that is there. -/
def Row.upserted (r : Row) : Option Row → Row
  | none => { r with lastMeteredAt := none }
  | some old => { r with createdAt := old.createdAt, lastMeteredAt := old.lastMeteredAt }

def Row.marked (t : Int) (r : Row) : Row :=
  if r.deletedAt.isNone then { r with deletedAt := some t } else r

theorem Row.marked_deleted (t : Int) (r : Row) : (r.marked t).deletedAt ≠ none := by
  unfold Row.marked
  split
  · simp
  · rename_i h
    simpa using h

theorem Row.marked_state (t : Int) (r : Row) : (r.marked t).state = r.state := by
  unfold Row.marked
  split <;> rfl

theorem Row.marked_checkpoint (t : Int) (r : Row) : (r.marked t).checkpoint = r.checkpoint := by
  unfold Row.marked
  split <;> rfl

def View.apply (v : View) : Effect → View
  | .upsert r => { v with row := some (r.upserted v.row) }
  | .metered intervals => { v with uptime := v.uptime ++ intervals }
  | .checkpoint t => { v with row := v.row.map fun r => { r with lastMeteredAt := some t } }

def View.goto (v : View) (stage : Stage) : View := { v with stage }

inductive Label where
  | other : Label
  | write (effects : List Effect) : Label
  | sweep (now : Int) : Label
  | list (failed : Bool) : Label
  | meter (failed : Bool) : Label
  | update (failed : Bool) : Label
  | delete (t : Int) : Label
  | mark (t : Int) : Label
  | restart : Label
  deriving DecidableEq, Repr

def storedUptime (start stop : Int) : Interval :=
  ⟨start,stop,Numeric.stored 6 (GoTime.seconds (GoTime.sub stop start))⟩

/-- What can happen to a resource whose kind is billed in some states. -/
inductive Moves (billed : List String) (v : View) : Label → View → Prop
  | other : Moves billed v .other v
  | write (effects : List Effect) : Moves billed v (.write effects) (effects.foldl View.apply v)
  | sweep (now : Int) (hs : v.stage = .off) : Moves billed v (.sweep now) (v.goto (.ahead now))
  | list {now : Int} {r : Row} (hs : v.stage = .ahead now) (hr : v.row = some r)
      (ha : r.aliveIn billed = true) : Moves billed v (.list false) (v.goto (.listed now r.checkpoint))
  | unlisted {now : Int} {failed : Bool} (hs : v.stage = .ahead now)
      (hr : failed = false → ∀ r, v.row = some r → r.aliveIn billed = false) :
      Moves billed v (.list failed) (v.goto .off)
  | skip {now start : Int} (failed : Bool) (hs : v.stage = .listed now start) (hn : now ≤ start) :
      Moves billed v (.meter failed) (v.goto .off)
  | meter {now start : Int} (hs : v.stage = .listed now start) (hn : start < now) :
      Moves billed v (.meter false)
        ⟨v.row,.stored now true,v.uptime ++ [storedUptime start now]⟩
  | refused {now start : Int} (hs : v.stage = .listed now start) (hn : start < now) :
      Moves billed v (.meter true) (v.goto (.stored now false))
  | update {now : Int} {ok : Bool} (hs : v.stage = .stored now ok) :
      Moves billed v (.update false) ((v.apply (.checkpoint now)).goto .off)
  | updateFails {now : Int} {ok : Bool} (hs : v.stage = .stored now ok) :
      Moves billed v (.update true) (v.goto .off)
  | delete {t : Int} (final : List Interval) (marked : Bool) :
      Moves billed v (.delete t)
        ⟨if marked then v.row.map (Row.marked t) else v.row,v.stage,v.uptime ++ final⟩
  | mark (t : Int) : Moves billed v (.mark t) { v with row := v.row.map (Row.marked t) }
  | restart : Moves billed v .restart (v.goto .off)

theorem Moves.of_other {billed : List String} {v w : View} (h : Moves billed v .other w) : w = v := by
  cases h
  rfl

def Effect.isUpsert : Effect → Bool
  | .upsert _ => true
  | _ => false

def Label.isUpsert : Label → Bool
  | .write effects => effects.any Effect.isUpsert
  | _ => false

def View.DeletedAt (v : View) (t : Int) : Prop := ∃ r, v.row = some r ∧ r.deletedAt = some t

def View.Unlisted (v : View) : Prop := ∀ now start, v.stage ≠ .listed now start

section Deleted
variable {billed : List String} {t : Int} {v w : View} {l : Label}

theorem stage_effects (effects : List Effect) (v : View) :
    (effects.foldl View.apply v).stage = v.stage := by
  induction effects generalizing v with
  | nil => rfl
  | cons e es ih =>
    rw [List.foldl_cons,ih]
    cases e <;> rfl

theorem View.DeletedAt.checkpoint (h : v.DeletedAt t) (u : Int) :
    (v.apply (.checkpoint u)).DeletedAt t := by
  obtain ⟨r,hr,hd⟩ := h
  exact ⟨{ r with lastMeteredAt := some u },by simp [View.apply,hr],hd⟩

theorem View.DeletedAt.effects (h : v.DeletedAt t) {effects : List Effect}
    (he : effects.any Effect.isUpsert = false) : (effects.foldl View.apply v).DeletedAt t := by
  induction effects generalizing v with
  | nil => exact h
  | cons e es ih =>
    rw [List.any_cons,Bool.or_eq_false_iff] at he
    refine ih ?_ he.2
    cases e with
    | upsert r => cases he.1
    | metered intervals => exact h
    | checkpoint u => exact h.checkpoint u

theorem View.DeletedAt.mark (h : v.DeletedAt t) (u : Int) : v.row.map (Row.marked u) = v.row := by
  obtain ⟨r,hr,hd⟩ := h
  simp [hr,Row.marked,hd]

theorem View.DeletedAt.moves (h : v.DeletedAt t) (hl : l.isUpsert = false) (hm : Moves billed v l w) :
    w.DeletedAt t := by
  cases hm with
  | write effects => exact h.effects hl
  | update hs => exact h.checkpoint _
  | @delete u final marked =>
    cases marked with
    | true => rwa [DeletedAt,if_pos rfl,h.mark u]
    | false => exact h
  | mark u => rwa [DeletedAt,h.mark u]
  | _ => exact h

theorem View.Unlisted.moves (hu : v.Unlisted) (h : ∀ r, v.row = some r → r.aliveIn billed = false)
    (hm : Moves billed v l w) : w.Unlisted := by
  cases hm with
  | write effects => rwa [Unlisted,stage_effects]
  | list hs hr ha => exact absurd ((h _ hr).symm.trans ha) Bool.false_ne_true
  | skip failed hs hn => exact absurd hs (hu _ _)
  | meter hs hn => exact absurd hs (hu _ _)
  | refused hs hn => exact absurd hs (hu _ _)
  | other => exact hu
  | delete final marked => exact hu
  | mark u => exact hu
  | _ => simp [Unlisted,View.goto]

theorem View.DeletedAt.not_alive (h : v.DeletedAt t) : ∀ r, v.row = some r → r.aliveIn billed = false := by
  obtain ⟨r',hr',hd⟩ := h
  intro r hr
  rw [Option.some.inj (hr.symm.trans hr')]
  simp [Row.aliveIn,hd]

end Deleted

theorem alive_of_upserts {effects : List Effect} {v : View}
    (hr : effects.any Effect.isUpsert = true ∨ ∃ r, v.row = some r ∧ r.deletedAt = none)
    (ha : ∀ r, Effect.upsert r ∈ effects → r.deletedAt = none) :
    ∃ r, (effects.foldl View.apply v).row = some r ∧ r.deletedAt = none := by
  induction effects generalizing v with
  | nil => exact hr.resolve_left (by simp)
  | cons e es ih =>
    have hes : ∀ r, Effect.upsert r ∈ es → r.deletedAt = none :=
      fun r h => ha r (List.mem_cons_of_mem _ h)
    refine ih ?_ hes
    cases e with
    | upsert r =>
      refine .inr ⟨_,rfl,?_⟩
      have hd := ha r List.mem_cons_self
      cases v.row with
      | none => exact hd
      | some old => exact hd
    | metered intervals => exact hr.imp (by simp [Effect.isUpsert]) id
    | checkpoint u =>
      refine hr.imp (by simp [Effect.isUpsert]) ?_
      rintro ⟨r,hr,hd⟩
      exact ⟨{ r with lastMeteredAt := some u },by simp [View.apply,hr],hd⟩

def Label.ofSweep : Label → Bool
  | .sweep _ => true
  | .list _ => true
  | .meter _ => true
  | .update _ => true
  | .restart => true
  | _ => false

theorem Moves.still {billed : List String} {v w : View} {l : Label} (h : Moves billed v l w)
    (hl : l.ofSweep = false) : w.stage = v.stage ∧ ∀ i ∈ v.uptime, i ∈ w.uptime := by
  cases h with
  | other => exact ⟨rfl,fun _ hi => hi⟩
  | write effects =>
    refine ⟨stage_effects effects v,?_⟩
    clear hl
    induction effects generalizing v with
    | nil => exact fun _ hi => hi
    | cons e es ih =>
      intro i hi
      refine ih i ?_
      cases e with
      | upsert r => exact hi
      | metered intervals => exact List.mem_append_left _ hi
      | checkpoint u => exact hi
  | delete final marked => exact ⟨rfl,fun _ hi => List.mem_append_left _ hi⟩
  | mark u => exact ⟨rfl,fun _ hi => hi⟩
  | _ => cases hl

theorem Moves.row_kept {billed : List String} {v w : View} {l : Label} {r : Row}
    (h : Moves billed v l w) (hr : v.row = some r) (hq : l.ofSweep = false → w.row = v.row) :
    ∃ r', w.row = some r' ∧ r'.deletedAt = r.deletedAt ∧ r'.state = r.state := by
  cases hsw : l.ofSweep with
  | false => exact ⟨r,(hq hsw).trans hr,rfl,rfl⟩
  | true =>
    cases h with
    | @update now ok hs =>
      exact ⟨{ r with lastMeteredAt := some now },by simp [View.goto,View.apply,hr],rfl,rfl⟩
    | other => cases hsw
    | write effects => cases hsw
    | delete final marked => cases hsw
    | mark u => cases hsw
    | _ => exact ⟨r,hr,rfl,rfl⟩

/-- A step within one sweep in which no call for the resource fails. -/
def Label.calm : Label → Bool
  | .sweep _ => false
  | .restart => false
  | .list failed => !failed
  | .meter failed => !failed
  | .update failed => !failed
  | _ => true

/-- How far a sweep at `now` is with a resource that had the row `r` when the sweep
began. -/
inductive Progress (r : Row) (now : Int) (v : View) : Prop
  | ahead (hs : v.stage = .ahead now) (hr : v.row = some r) : Progress r now v
  | listed (hs : v.stage = .listed now r.checkpoint) (hr : v.row = some r) : Progress r now v
  | stored (hs : v.stage = .stored now true) (hr : v.row = some r)
      (hu : storedUptime r.checkpoint now ∈ v.uptime) : Progress r now v
  | done (hs : v.stage = .off) (hr : ∃ r', v.row = some r' ∧ now ≤ r'.checkpoint)
      (hu : r.checkpoint < now → storedUptime r.checkpoint now ∈ v.uptime) : Progress r now v

section Progress
variable {billed : List String} {r : Row} {now : Int} {v w : View} {l : Label}

theorem Progress.still (h : Progress r now v) (hs : w.stage = v.stage) (hr : w.row = v.row)
    (hu : ∀ i ∈ v.uptime, i ∈ w.uptime) : Progress r now w := by
  cases h with
  | ahead hst hrow => exact .ahead (hs.trans hst) (hr.trans hrow)
  | listed hst hrow => exact .listed (hs.trans hst) (hr.trans hrow)
  | stored hst hrow hmem => exact .stored (hs.trans hst) (hr.trans hrow) (hu _ hmem)
  | done hst hrow hmem => exact .done (hs.trans hst) (by rwa [hr]) (fun hlt => hu _ (hmem hlt))

theorem Progress.of_ahead (h : Progress r now v) {n : Int} (hs : v.stage = .ahead n) :
    n = now ∧ v.row = some r := by
  cases h <;> simp_all

theorem Progress.of_listed (h : Progress r now v) {n start : Int} (hs : v.stage = .listed n start) :
    n = now ∧ start = r.checkpoint ∧ v.row = some r := by
  cases h <;> simp_all

theorem Progress.of_stored (h : Progress r now v) {n : Int} {ok : Bool}
    (hs : v.stage = .stored n ok) :
    n = now ∧ v.row = some r ∧ storedUptime r.checkpoint now ∈ v.uptime := by
  cases h <;> simp_all

theorem Progress.moves (h : Progress r now v) (ha : r.aliveIn billed = true) (hl : l.calm = true)
    (hq : l.ofSweep = false → w.row = v.row) (hm : Moves billed v l w) : Progress r now w := by
  cases hsw : l.ofSweep with
  | false => exact h.still (hm.still hsw).1 (hq hsw) (hm.still hsw).2
  | true =>
    cases hm with
    | list hs hr ha' =>
      obtain ⟨rfl,hr'⟩ := h.of_ahead hs
      rw [Option.some.inj (hr.symm.trans hr')]
      exact .listed rfl hr'
    | unlisted hs hr =>
      have hfalse := hr (by simpa [Label.calm] using hl) r (h.of_ahead hs).2
      exact absurd (hfalse.symm.trans ha) Bool.false_ne_true
    | skip failed hs hn =>
      obtain ⟨rfl,rfl,hr'⟩ := h.of_listed hs
      exact .done rfl ⟨r,hr',hn⟩ (fun hlt => absurd hlt (not_lt_of_ge hn))
    | meter hs hn =>
      obtain ⟨rfl,rfl,hr'⟩ := h.of_listed hs
      exact .stored rfl hr' (List.mem_append_right _ List.mem_cons_self)
    | @update n ok hs =>
      obtain ⟨rfl,hr',hu⟩ := h.of_stored hs
      exact .done rfl ⟨{ r with lastMeteredAt := some n },by simp [View.goto,View.apply,hr'],
        le_refl _⟩ (fun _ => hu)
    | sweep n hs => cases hl
    | restart => cases hl
    | refused hs hn => cases hl
    | updateFails hs => cases hl
    | _ => cases hsw

end Progress

end CostConsumer.Resource
