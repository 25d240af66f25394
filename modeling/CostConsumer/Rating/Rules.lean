import CostConsumer.Rating.Pricing
import Mathlib.Algebra.Order.BigOperators.Group.List
set_option autoImplicit false

/-!
Where the rule engine gets its rules from. A start with a rules directory reads them
from its files, and copies the files to the database; a later start without the
directory reads them from there.
-/

namespace CostConsumer.Rating
open Inventory Foundation

/-- `path.Ext`: from the last dot of the last element on. -/
def ext (name : String) : String :=
  let last := name.toList.reverse.takeWhile (· ≠ '/')
  if '.' ∈ last then String.ofList ('.' :: (last.takeWhile (· ≠ '.')).reverse) else ""

def trimSuffix (s suffix : String) : String :=
  if suffix.toList.isSuffixOf s.toList then String.ofList (s.toList.take (s.toList.length - suffix.toList.length))
  else s

theorem ext_json (n : String) : ext (n ++ ".json") = ".json" := by
  simp [ext]

theorem trimSuffix_json (n : String) : trimSuffix (n ++ ".json") ".json" = n := by
  simp [trimSuffix]

theorem split_at_dot {l : List Char} (h : '.' ∈ l) : ∃ rest, l = l.takeWhile (· ≠ '.') ++ '.' :: rest := by
  induction l with
  | nil => cases h
  | cons a l ih =>
    by_cases ha : a = '.'
    · exact ⟨l,by simp [ha]⟩
    · obtain ⟨rest,hr⟩ := ih ((List.mem_cons.mp h).resolve_left (Ne.symm ha))
      refine ⟨rest,?_⟩
      rw [List.takeWhile_cons_of_pos (by simpa using ha),List.cons_append,← hr]

theorem exists_of_ext {name : String} (h : ext name = ".json") : ∃ n, name = n ++ ".json" := by
  unfold ext at h
  dsimp only at h
  split at h
  · rename_i hdot
    obtain ⟨rest,hr⟩ := split_at_dot hdot
    have hlast : ((name.toList.reverse.takeWhile (· ≠ '/')).takeWhile (· ≠ '.')).reverse = ['j','s','o','n'] := by
      simpa using congrArg String.toList h
    rw [List.reverse_eq_iff] at hlast
    rw [hlast] at hr
    obtain ⟨more,hmore⟩ : ∃ more, name.toList.reverse = name.toList.reverse.takeWhile (· ≠ '/') ++ more :=
      ⟨_,List.takeWhile_append_dropWhile.symm⟩
    rw [hr] at hmore
    refine ⟨String.ofList (rest ++ more).reverse,String.toList_inj.mp ?_⟩
    rw [← List.reverse_reverse name.toList,hmore]
    simp
  · cases congrArg String.toList h

section Rules
variable {ρ : Type}

/-- An entry of a directory; nothing can be read of a directory or without permission. -/
structure File where
  name : String
  isDir : Bool
  content : Option String

structure RulesDir where
  files : List File
  nodup : (files.map (·.name)).Nodup

/-- The rule that a file has. `parse` reads JSON, as the engine and JSONB do. -/
def File.rule (parse : String → Option ρ) (f : File) : Option ρ :=
  if f.isDir then none else f.content.bind parse

def RulesDir.load (parse : String → Option ρ) (dir : RulesDir) (key : String) : Option ρ :=
  (dir.files.find? (·.name = key)).bind (·.rule parse)

structure PricingRule (ρ : Type) where
  name : String
  ruleJSON : ρ
  version : Nat
  pos : 1 ≤ version

abbrev PricingRules (ρ : Type) := Table String (PricingRule ρ) (·.name)

namespace PricingRules

def upsertPricingRule (t : PricingRules ρ) (name : String) (rule : ρ) : PricingRules ρ :=
  t.upsert ⟨name,rule,1,le_rfl⟩
    (fun r => { r with ruleJSON := rule, version := r.version+1, pos := Nat.le_add_left 1 r.version }) fun _ => rfl

def rule (t : PricingRules ρ) (name : String) : Option ρ := (t.find? name).map (·.ruleJSON)

def pricingRulesVersion (t : PricingRules ρ) : Nat := (t.rows.map (·.version)).sum

theorem rule_upsert (t : PricingRules ρ) (name : String) (r : ρ) (n : String) :
    (t.upsertPricingRule name r).rule n = if name = n then some r else t.rule n := by
  rw [rule,upsertPricingRule,Table.find?_upsert]
  by_cases hn : name = n
  · rw [if_pos hn,if_pos hn]
    cases t.find? n <;> rfl
  · rw [if_neg hn,if_neg hn]
    rfl

end PricingRules

/-- What the start with a directory does with one of its files. -/
def seedFile (parse : String → Option ρ) (t : PricingRules ρ) (f : File) : PricingRules ρ :=
  if f.isDir ∨ ext f.name ≠ ".json" then t
  else match f.content.bind parse with
    | none => t
    | some rule => t.upsertPricingRule (trimSuffix f.name ".json") rule

def seed (parse : String → Option ρ) (dir : RulesDir) (t : PricingRules ρ) : PricingRules ρ :=
  dir.files.foldl (seedFile parse) t

theorem rule_seedFile (parse : String → Option ρ) (t : PricingRules ρ) (f : File) (n : String) :
    (seedFile parse t f).rule n = if f.name = n ++ ".json" then (f.rule parse).or (t.rule n) else t.rule n := by
  unfold seedFile File.rule
  by_cases hj : ext f.name = ".json"
  · obtain ⟨m,hm⟩ := exists_of_ext hj
    have htrim : trimSuffix f.name ".json" = m := by rw [hm,trimSuffix_json]
    have hiff : f.name = n ++ ".json" ↔ m = n := by rw [hm,String.append_left_inj]
    cases hd : f.isDir with
    | true => simp
    | false =>
      cases hc : f.content.bind parse with
      | none => simp [hj]
      | some r =>
        simp only [hj,ne_eq,not_true_eq_false,or_false,Bool.false_eq_true,if_false]
        rw [PricingRules.rule_upsert,htrim,Option.some_or]
        exact if_congr hiff.symm rfl rfl
  · have hne : f.name ≠ n ++ ".json" := by
      rintro hn
      exact hj (hn ▸ ext_json n)
    rw [if_pos (.inr hj),if_neg hne]

/-- After the start, a name has the rule of the file with the name and the extension,
or the rule it had before. -/
theorem rule_seed (parse : String → Option ρ) (dir : RulesDir) (t : PricingRules ρ) (n : String) :
    (seed parse dir t).rule n = (dir.load parse (n ++ ".json")).or (t.rule n) := by
  unfold seed RulesDir.load
  have hnd := dir.nodup
  revert hnd
  induction dir.files generalizing t with
  | nil =>
    intro _
    rfl
  | cons f fs ih =>
    intro hnd
    obtain ⟨hf,hnd⟩ := List.nodup_cons.mp hnd
    rw [List.foldl_cons,ih _ hnd,rule_seedFile]
    by_cases hn : f.name = n ++ ".json"
    · -- no later file has the name
      have hnone : fs.find? (·.name = n ++ ".json") = none := find?_of_not_mem (hn ▸ hf)
      rw [hnone,if_pos hn,List.find?_cons_of_pos (by simpa using hn)]
      rfl
    · rw [if_neg hn,List.find?_cons_of_neg (by simpa using hn)]

structure Engine (ρ : Type) where
  cache : String → Option ρ
  cachedVersion : Nat

def newFromStore : Engine ρ := ⟨fun _ => none,0⟩

def cacheRule (cache : String → Option ρ) (r : PricingRule ρ) : String → Option ρ :=
  Function.update cache r.name (some r.ruleJSON)

def newCache (t : PricingRules ρ) : String → Option ρ := t.rows.foldl cacheRule fun _ => none

def Engine.reloadIfChanged (t : PricingRules ρ) (e : Engine ρ) (failed : Bool) : Engine ρ :=
  if failed then e
  else if t.pricingRulesVersion = e.cachedVersion then e
  else ⟨newCache t,t.pricingRulesVersion⟩

theorem foldl_cacheRule (rows : List (PricingRule ρ)) (hnd : (rows.map (·.name)).Nodup)
    (cache : String → Option ρ) (key : String) :
    rows.foldl cacheRule cache key =
      ((rows.find? (·.name = key)).map (·.ruleJSON)).or (cache key) := by
  induction rows generalizing cache with
  | nil => rfl
  | cons r rows ih =>
    obtain ⟨hr,hnd⟩ := List.nodup_cons.mp hnd
    rw [List.foldl_cons,ih hnd]
    by_cases hk : r.name = key
    · have hnone : rows.find? (·.name = key) = none := find?_of_not_mem (hk ▸ hr)
      rw [hnone,List.find?_cons_of_pos (by simpa using hk),← hk,cacheRule,Function.update_self]
      rfl
    · rw [List.find?_cons_of_neg (by simpa using hk),cacheRule,Function.update_of_ne (Ne.symm hk)]

theorem newCache_eq (t : PricingRules ρ) : newCache t = t.rule := by
  funext key
  rw [newCache,foldl_cacheRule _ t.keys_nodup,Option.or_none]
  rfl

theorem rule_of_version {t : PricingRules ρ} (h : t.pricingRulesVersion = 0) : t.rule = fun _ => none := by
  funext key
  cases hf : t.find? key with
  | none => rw [PricingRules.rule,hf]; rfl
  | some r =>
    have hr : r.version ∈ t.rows.map (·.version) := List.mem_map_of_mem (Table.find?_eq_some.mp hf).1
    have hle := List.le_sum_of_mem hr
    have hpos := r.pos
    rw [PricingRules.pricingRulesVersion] at h
    omega

def Engine.Current (t : PricingRules ρ) (e : Engine ρ) : Prop :=
  e.cache = t.rule ∧ e.cachedVersion = t.pricingRulesVersion

theorem Engine.Current.reload {t : PricingRules ρ} {e : Engine ρ} (h : e.Current t) (failed : Bool) :
    (e.reloadIfChanged t failed).Current t := by
  unfold Engine.reloadIfChanged
  rw [if_pos h.2.symm,ite_self]
  exact h

theorem Engine.current_of_reload {t : PricingRules ρ} : (newFromStore.reloadIfChanged t false).Current t := by
  unfold Engine.reloadIfChanged
  rw [if_neg Bool.false_ne_true]
  split
  · rename_i hv
    exact ⟨(rule_of_version hv).symm,hv.symm⟩
  · exact ⟨newCache_eq t,rfl⟩

theorem Engine.current_of_reloads {t : PricingRules ρ} {calls : List Bool} (h : false ∈ calls) :
    (calls.foldl (Engine.reloadIfChanged t) newFromStore).Current t := by
  have hkeep : ∀ (calls : List Bool) (e : Engine ρ), e.Current t →
      (calls.foldl (Engine.reloadIfChanged t) e).Current t := by
    intro calls
    induction calls with
    | nil => exact fun e he => he
    | cons failed calls ih => exact fun e he => ih _ (he.reload failed)
  induction calls with
  | nil => cases h
  | cons failed calls ih =>
    rw [List.foldl_cons]
    cases failed with
    | true => exact ih ((List.mem_cons.mp h).resolve_left Bool.false_ne_true)
    | false => exact hkeep calls _ Engine.current_of_reload

def evaluateRate (load : String → Option ρ) (evaluate : ρ → PricingInput → Option PricingOutput) : RuleEngine :=
  fun key input => (load key).bind (evaluate · input)

/-- An hour of a compute instance, which is priced by the rule engine if that finds a rule. -/
def instanceHour : MeteringEntry :=
  ⟨1,none,"compute_instance","vm-1","acme","","","","vm_uptime_seconds",3600,"seconds",0,GoTime.nanosPerHour⟩

/-- A rule that gives a fixed price, where only one rule has a result. -/
noncomputable def evaluateOnly (r : ρ) : ρ → PricingInput → Option PricingOutput :=
  open Classical in fun r' _ => if r' = r then some ⟨1,1,"USD","",1,0⟩ else none

theorem tryRuleEngine_evaluateOnly (load : String → Option ρ) (r : ρ) :
    (tryRuleEngine (some (evaluateRate load (evaluateOnly r))) {} {} instanceHour).isSome ↔
      load "compute-pricing.json" = some r := by
  have hresult : ruleResult (some (evaluateRate load (evaluateOnly r))) {} {} instanceHour =
      (load "compute-pricing.json").bind (evaluateOnly r · ⟨"","","acme","compute_instance","vm_uptime_seconds",3600⟩) :=
    rfl
  rw [tryRuleEngine,Option.isSome_map,hresult]
  cases load "compute-pricing.json" with
  | none => simp
  | some r' =>
    simp only [Option.bind_some,evaluateOnly,Option.some.injEq]
    split
    · rename_i hr
      simp [hr]
    · rename_i hr
      simp [hr]

theorem tryRuleEngine_eq_iff (load load' : String → Option ρ) :
    (∀ evaluate s f me, tryRuleEngine (some (evaluateRate load evaluate)) s f me =
      tryRuleEngine (some (evaluateRate load' evaluate)) s f me) ↔
      load "compute-pricing.json" = load' "compute-pricing.json" := by
  constructor
  · intro h
    refine Option.ext fun r => ?_
    rw [← tryRuleEngine_evaluateOnly,h,tryRuleEngine_evaluateOnly]
  · intro h evaluate s f me
    have hresult : ruleResult (some (evaluateRate load evaluate)) s f me =
        ruleResult (some (evaluateRate load' evaluate)) s f me := by
      simp only [ruleResult,evaluateRate,h]
    rw [tryRuleEngine,hresult,tryRuleEngine]

/-- After a start that copies the rules of a directory, and a reload by a later start
without it, the engine finds the rule of every file under the name of the file if and
only if the directory has that rule in a file with the extension twice, or the table
had it under that name and no such file is there. The rater prices all entries as
with the files if and only if this is so for the one name it asks for. -/
theorem seeded_rules_found_iff (parse : String → Option ρ) (dir : RulesDir) (t : PricingRules ρ)
    {calls : List Bool} (h : false ∈ calls) :
    ((∀ key rule, ext key = ".json" → dir.load parse key = some rule →
        (calls.foldl (Engine.reloadIfChanged (seed parse dir t)) newFromStore).cache key = some rule) ↔
      ∀ key rule, ext key = ".json" → dir.load parse key = some rule →
        (dir.load parse (key ++ ".json")).or (t.rule key) = some rule) ∧
    ((∀ evaluate s f me,
        tryRuleEngine (some (evaluateRate
          (calls.foldl (Engine.reloadIfChanged (seed parse dir t)) newFromStore).cache evaluate)) s f me =
        tryRuleEngine (some (evaluateRate (dir.load parse) evaluate)) s f me) ↔
      (dir.load parse "compute-pricing.json.json").or (t.rule "compute-pricing.json") =
        dir.load parse "compute-pricing.json") := by
  have hcache : (calls.foldl (Engine.reloadIfChanged (seed parse dir t)) newFromStore).cache =
      (seed parse dir t).rule := (Engine.current_of_reloads h).1
  have htwice : "compute-pricing.json" ++ ".json" = "compute-pricing.json.json" := rfl
  rw [hcache]
  constructor
  · simp only [rule_seed]
  · rw [tryRuleEngine_eq_iff,rule_seed,htwice]

end Rules

def oneFile : RulesDir := ⟨[⟨"compute-pricing.json",false,some "rule"⟩],by decide⟩

theorem load_oneFile {key rule : String} (h : oneFile.load some key = some rule) :
    key = "compute-pricing.json" ∧ rule = "rule" := by
  obtain ⟨f,hf,hr⟩ := Option.bind_eq_some_iff.mp h
  obtain rfl := List.mem_singleton.mp (List.mem_of_find?_eq_some hf)
  have hname := List.find?_some hf
  cases hr
  exact ⟨(of_decide_eq_true hname).symm,rfl⟩

def storedBefore : PricingRules String := PricingRules.upsertPricingRule .empty "compute-pricing.json" "rule"

def reloaded (t : PricingRules String) : Engine String :=
  [true,false].foldl (Engine.reloadIfChanged (seed some oneFile t)) newFromStore

theorem seeded_rules_found_if_stored :
    (∀ key rule, ext key = ".json" → oneFile.load some key = some rule →
      (reloaded storedBefore).cache key = some rule) ∧
    ∀ evaluate s f me, tryRuleEngine (some (evaluateRate (reloaded storedBefore).cache evaluate)) s f me =
      tryRuleEngine (some (evaluateRate (oneFile.load some) evaluate)) s f me := by
  have hcalls : false ∈ [true,false] := by decide
  obtain ⟨hkeys,hrater⟩ := seeded_rules_found_iff some oneFile storedBefore hcalls
  refine ⟨hkeys.mpr fun key rule _ hload => ?_,hrater.mpr (by decide +kernel)⟩
  obtain ⟨rfl,rfl⟩ := load_oneFile hload
  decide +kernel

def flatPrice : String → PricingInput → Option PricingOutput := fun _ _ => some ⟨1,1,"USD","",1,0⟩

/-- With an empty table before: the file is stored as "compute-pricing", the engine on
the database does not find it, and the rater falls back to the static rates. -/
theorem seeded_rule_not_found :
    ext "compute-pricing.json" = ".json" ∧ oneFile.load some "compute-pricing.json" = some "rule" ∧
    (seed some oneFile .empty).rule "compute-pricing" = some "rule" ∧
    (reloaded .empty).cache "compute-pricing.json" = none ∧
    (tryRuleEngine (some (evaluateRate (oneFile.load some) flatPrice)) {} {} instanceHour).isSome = true ∧
    tryRuleEngine (some (evaluateRate (reloaded .empty).cache flatPrice)) {} {} instanceHour = none := by
  decide +kernel

end CostConsumer.Rating
