import CostConsumer.Agent.Controller
import CostConsumer.Billing.Period
import CostConsumer.Foundation.Split
set_option autoImplicit false

/-!
The configuration of the cluster agent: what `Load` makes of the environment, and
which namespaces a controller with this configuration passes over.
-/

namespace CostConsumer.Agent.Configuration
open Foundation Billing
open GoTime (nanosPerSecond)

/-- The environment, the content of the mounted token file if it can be read, and
`time.ParseDuration`. -/
structure Host where
  getenv : String → String
  tokenFile : Option String
  parseDuration : String → Except String Int

structure Config where
  consumerURL : String
  consumerToken : String
  clusterID : String
  tenantID : String
  heartbeatInterval : Int
  nodeReconcileInterval : Int
  batchSize : Nat
  batchInterval : Int
  excludeNamespaces : List String
  pos : 1 ≤ batchSize

inductive LoadError where
  | duration (name err : String) : LoadError
  | notANumber (v : String) : LoadError
  | batchSize (n : Int) : LoadError
  | missing (names : List String) : LoadError
  deriving DecidableEq, Repr

/-- The format of the message; its arguments are those of the error. -/
def LoadError.format : LoadError → String
  | duration _ _ => "%s: %w"
  | notANumber _ => "BATCH_SIZE: %w"
  | batchSize _ => "BATCH_SIZE: must be >= 1, got %d"
  | missing _ => "missing required config: %s"

namespace Host

def consumerToken (host : Host) : String :=
  let token := host.getenv "COST_CONSUMER_TOKEN"
  if token = "" then (host.tokenFile.map fun data => String.ofList (trimSpace data.toList)).getD token
  else token

def duration (host : Host) (name : String) (default : Int) : Except LoadError Int :=
  let v := host.getenv name
  if v = "" then .ok default
  else match host.parseDuration v with
  | .error err => .error (.duration name err)
  | .ok d => .ok d

def batchSize (host : Host) : Except LoadError { n : Nat // 1 ≤ n } :=
  let v := host.getenv "BATCH_SIZE"
  if v = "" then .ok ⟨100,Nat.le_add_left 1 99⟩
  else match atoi v.toList with
  | none => .error (.notANumber v)
  | some n => if h : n < 1 then .error (.batchSize n) else .ok ⟨n.toNat,by omega⟩

end Host

def defaultNamespaces : List String := ["kube-system","openshift-*"]

/-- Empty pieces are left out; a value of nothing else excludes no namespace. -/
def excludeNamespaces (v : String) : List String :=
  if v = "" then defaultNamespaces
  else ((v.toList.splitOn ',').map fun p => String.ofList (trimSpace p)).filter (· ≠ "")

def Config.validate (c : Config) : Except LoadError Unit :=
  let missing := (if c.consumerURL = "" then ["COST_CONSUMER_URL"] else []) ++
    if c.clusterID = "" then ["CLUSTER_ID"] else []
  if missing = [] then .ok () else .error (.missing missing)

def load (host : Host) : Except LoadError Config := do
  let heartbeatInterval ← host.duration "HEARTBEAT_INTERVAL" (60*nanosPerSecond)
  let nodeReconcileInterval ← host.duration "NODE_RECONCILE_INTERVAL" (300*nanosPerSecond)
  let batchSize ← host.batchSize
  let batchInterval ← host.duration "BATCH_INTERVAL" (5*nanosPerSecond)
  let c : Config := {
    consumerURL := host.getenv "COST_CONSUMER_URL"
    consumerToken := host.consumerToken
    clusterID := host.getenv "CLUSTER_ID"
    tenantID := host.getenv "TENANT_ID"
    heartbeatInterval, nodeReconcileInterval
    batchSize := batchSize.1
    batchInterval
    excludeNamespaces := excludeNamespaces (host.getenv "EXCLUDE_NAMESPACES")
    pos := batchSize.2 }
  c.validate
  return c

/-- The part of `New` that the handlers use. The keys of its map are the namespaces. -/
def newController (c : Config) : Agent.Config where
  clusterID := c.clusterID
  batchSize := c.batchSize
  pos := c.pos
  defaultTenant := c.tenantID
  excludeNamespaces := c.excludeNamespaces

theorem load_excludeNamespaces {host : Host} {c : Config} (h : load host = .ok c) :
    c.excludeNamespaces = excludeNamespaces (host.getenv "EXCLUDE_NAMESPACES") := by
  unfold load at h
  cases h₁ : host.duration "HEARTBEAT_INTERVAL" (60*nanosPerSecond) with
  | error e => rw [h₁] at h; cases h
  | ok heartbeatInterval =>
  cases h₂ : host.duration "NODE_RECONCILE_INTERVAL" (300*nanosPerSecond) with
  | error e => rw [h₁,h₂] at h; cases h
  | ok nodeReconcileInterval =>
  cases h₃ : host.batchSize with
  | error e => rw [h₁,h₂,h₃] at h; cases h
  | ok batchSize =>
  cases h₄ : host.duration "BATCH_INTERVAL" (5*nanosPerSecond) with
  | error e => rw [h₁,h₂,h₃,h₄] at h; cases h
  | ok batchInterval =>
    simp only [h₁,h₂,h₃,h₄,bind,Except.bind] at h
    split at h
    · cases h
    · cases h
      rfl

/-- A configured entry: one of the default, or what is left of a piece of the value
between commas without the spaces around it. -/
def Entry (v e : String) : Prop :=
  if v = "" then e ∈ defaultNamespaces
  else e ≠ "" ∧ ∃ pieces piece, Joined ',' v.toList pieces ∧ piece ∈ pieces ∧
    Stripped isSpace piece e.toList

/-- The entry ends in `*`, and what comes before begins the name. -/
def Covers (e ns : String) : Prop := ∃ start, e.toList = start ++ ['*'] ∧ start <+: ns.toList

theorem entry_iff (v e : String) : Entry v e ↔ e ∈ excludeNamespaces v := by
  unfold Entry excludeNamespaces
  split
  · exact Iff.rfl
  · have hpiece (piece : List Char) :
        Stripped isSpace piece e.toList ↔ String.ofList (trimSpace piece) = e := by
      rw [← strip_eq_iff,String.ofList_eq]
      exact Iff.rfl
    simp only [joined_iff,hpiece,List.mem_filter,List.mem_map,decide_eq_true_eq]
    constructor
    · rintro ⟨hne,pieces,piece,rfl,hmem,heq⟩
      exact ⟨⟨piece,hmem,heq⟩,hne⟩
    · rintro ⟨⟨piece,hmem,heq⟩,hne⟩
      exact ⟨hne,_,piece,rfl,hmem,heq⟩

theorem shouldExclude_iff {host : Host} {c : Config} (h : load host = .ok c) (ns : String) :
    shouldExclude (newController c) ns = true ↔
      Entry (host.getenv "EXCLUDE_NAMESPACES") ns ∨ "openshift-".toList <+: ns.toList := by
  rw [entry_iff,← load_excludeNamespaces h,← List.isPrefixOf_iff_prefix]
  rw [shouldExclude,Bool.or_eq_true,decide_eq_true_iff]
  rfl

/-- Exclusion is by the entries for a namespace that is an entry itself, and for one that
begins with `openshift-` exactly if an entry with `*` covers it. -/
theorem exclusion_by_entries_iff {host : Host} {c : Config} (h : load host = .ok c) (ns : String) :
    (shouldExclude (newController c) ns = true ↔
        ∃ e, Entry (host.getenv "EXCLUDE_NAMESPACES") e ∧ (e = ns ∨ Covers e ns)) ↔
      Entry (host.getenv "EXCLUDE_NAMESPACES") ns ∨
        ("openshift-".toList <+: ns.toList ↔
          ∃ e, Entry (host.getenv "EXCLUDE_NAMESPACES") e ∧ Covers e ns) := by
  have hsplit : (∃ e, Entry (host.getenv "EXCLUDE_NAMESPACES") e ∧ (e = ns ∨ Covers e ns)) ↔
      Entry (host.getenv "EXCLUDE_NAMESPACES") ns ∨
        ∃ e, Entry (host.getenv "EXCLUDE_NAMESPACES") e ∧ Covers e ns := by
    simp only [and_or_left,exists_or,exists_eq_right]
  rw [hsplit,shouldExclude_iff h]
  by_cases hns : Entry (host.getenv "EXCLUDE_NAMESPACES") ns
  · simp only [hns,true_or]
  · simp only [hns,false_or]

/-- An agent with only the required variables, a token file and a list of namespaces. -/
def sampleHost (namespaces : String) : Host where
  getenv name :=
    if name = "COST_CONSUMER_URL" then "http://consumer"
    else if name = "CLUSTER_ID" then "c1"
    else if name = "EXCLUDE_NAMESPACES" then namespaces
    else ""
  tokenFile := some "secret"
  parseDuration v := .error v

theorem exclusion_by_prefix : ∃ c, load (sampleHost " kube-system, openshift-*,") = .ok c ∧
    (shouldExclude (newController c) "openshift-etcd" = true ↔
      ∃ e, Entry " kube-system, openshift-*," e ∧ (e = "openshift-etcd" ∨ Covers e "openshift-etcd")) := by
  obtain ⟨c,hc⟩ : ∃ c, load (sampleHost " kube-system, openshift-*,") = .ok c := ⟨_,rfl⟩
  refine ⟨c,hc,(exclusion_by_entries_iff hc _).mpr (.inr ?_)⟩
  refine iff_of_true (by decide) ⟨"openshift-*",(entry_iff _ _).mpr (by decide),"openshift-".toList,rfl,?_⟩
  decide

/-- An entry with `*` that is not followed, and a namespace that is excluded without one. -/
theorem exclusion_not_by_entries :
    (∃ c, load (sampleHost "kube-system,dev-*") = .ok c ∧
      shouldExclude (newController c) "dev-web" = false ∧
      ∃ e, Entry "kube-system,dev-*" e ∧ Covers e "dev-web") ∧
    ∃ c, load (sampleHost "kube-system") = .ok c ∧
      shouldExclude (newController c) "openshift-etcd" = true ∧
      ¬ ∃ e, Entry "kube-system" e ∧ (e = "openshift-etcd" ∨ Covers e "openshift-etcd") := by
  constructor
  · refine ⟨_,rfl,by decide,"dev-*",(entry_iff _ _).mpr (by decide),"dev-".toList,rfl,?_⟩
    decide
  · refine ⟨_,rfl,by decide,?_⟩
    rintro ⟨e,he,hns⟩
    have hlist : excludeNamespaces "kube-system" = ["kube-system"] := by decide
    rw [entry_iff,hlist,List.mem_singleton] at he
    subst he
    rcases hns with hns | ⟨start,hstart,-⟩
    · exact absurd hns (by decide)
    · have hlast := congrArg List.getLast? hstart
      simp at hlast

end CostConsumer.Agent.Configuration
