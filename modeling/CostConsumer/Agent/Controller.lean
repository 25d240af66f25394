import CostConsumer.Agent.Emitter
import CostConsumer.Foundation.GoTime
import CostConsumer.Foundation.Table
import Mathlib.Data.List.Perm.Basic
import Mathlib.Data.String.Basic
import Mathlib.Logic.Function.Basic
set_option autoImplicit false

/-!
The pods as the cluster agent sees them. The informer's cache follows the cluster, and
the handlers of its notifications run later; a tick of the heartbeat loop takes a
snapshot of the cache and goes through it pod by pod. Handlers and ticks share only
the map of the last heartbeats, which is kept by the names of the pods and is lost
when the agent restarts.
-/

namespace CostConsumer.Agent
open Foundation

inductive PodPhase where
  | pending : PodPhase
  | running : PodPhase
  | succeeded : PodPhase
  | failed : PodPhase
  | unknown : PodPhase
  deriving DecidableEq, Repr

/-- The resources of `requests` or `limits` that are read. -/
structure ResourceList where
  cpu : Option Rat
  memory : Option Rat
  gpu : Option Rat
  deriving DecidableEq, Repr

structure Container where
  requests : ResourceList
  limits : ResourceList
  deriving DecidableEq, Repr

/-- One incarnation of a pod, with what stays the same as long as it exists.
`startTime` is what it is once the pod runs. -/
structure Pod where
  uid : String
  ns : String
  name : String
  nodeName : String
  creationTimestamp : Int
  startTime : Option Int
  containers : List Container
  qosClass : String
  owners : List (String × String)
  labels : List (String × String)
  slash : '/' ∉ ns.toList
  deriving DecidableEq

/-- The key of the cache, the map and the events. -/
def Pod.key (pod : Pod) : String := pod.ns ++ "/" ++ pod.name

def Pod.start (pod : Pod) : Int := pod.startTime.getD pod.creationTimestamp

structure CachedPod where
  pod : Pod
  phase : PodPhase
  deriving DecidableEq

structure Config extends Emitter.Config where
  defaultTenant : String
  excludeNamespaces : List String

def resolveTenant (c : Config) (ns : String) : String := if c.defaultTenant ≠ "" then c.defaultTenant else ns

def shouldExclude (c : Config) (ns : String) : Bool :=
  ns ∈ c.excludeNamespaces || "openshift-".toList.isPrefixOf ns.toList

def quantityValue (q : Rat) : Int := if 0 ≤ q then q.ceil else q.floor

def aggregate (pod : Pod) (resource : Container → Option Rat) : Rat :=
  pod.containers.foldl (fun sum container => sum + (resource container).getD 0) 0

def aggregateRequests (pod : Pod) : Rat × Rat :=
  (aggregate pod (·.requests.cpu),aggregate pod (·.requests.memory))

def aggregateLimits (pod : Pod) : Rat × Rat :=
  (aggregate pod (·.limits.cpu),aggregate pod (·.limits.memory))

def Container.requestedGPUs (container : Container) : Int :=
  (container.requests.gpu.map quantityValue).getD 0

def Container.limitedGPUs (container : Container) : Int :=
  (container.limits.gpu.map quantityValue).getD 0

/-- A limit is counted as long as nothing has been. The total is a 64-bit number. -/
def addGPUs (total : Int) (container : Container) : Int :=
  let total := GoTime.wrap (total + container.requestedGPUs)
  if total = 0 then GoTime.wrap (total + container.limitedGPUs) else total

def countGPUs (pod : Pod) : Int := pod.containers.foldl addGPUs 0

def resolveOwner (pod : Pod) : String × String := pod.owners.head?.getD ("","")

inductive Action where
  | created : Action
  | deleted : Action
  deriving DecidableEq, Repr

structure LifecycleData where
  clusterID : String
  tenant : String
  action : Action
  ns : String
  pod : String
  node : String
  cpuRequest : Rat
  cpuLimit : Rat
  memRequest : Int
  memLimit : Int
  gpuCount : Int
  qos : String
  ownerKind : String
  ownerName : String
  labels : List (String × String)

def podEventData (c : Config) (pod : Pod) (action : Action) : LifecycleData :=
  ⟨c.clusterID,resolveTenant c pod.ns,action,pod.ns,pod.name,pod.nodeName,(aggregateRequests pod).1,
    (aggregateLimits pod).1,quantityValue (aggregateRequests pod).2,quantityValue (aggregateLimits pod).2,
    countGPUs pod,pod.qosClass,(resolveOwner pod).1,(resolveOwner pod).2,pod.labels⟩

structure HeartbeatData where
  clusterID : String
  tenant : String
  ns : String
  pod : String
  node : String
  cpuRequest : Rat
  memoryRequest : Int
  durationSeconds : Rat

def heartbeatData (c : Config) (pod : Pod) (now last : Int) : HeartbeatData :=
  ⟨c.clusterID,resolveTenant c pod.ns,pod.ns,pod.name,pod.nodeName,(aggregateRequests pod).1,
    quantityValue (aggregateRequests pod).2,GoTime.seconds (GoTime.sub now last)⟩

/-- A call of `Emit`, and whether the event went on the channel. -/
structure Emission (δ : Type) where
  eventType : String
  subject : String
  data : δ
  queued : Bool

def emit {δ : Type} (c : Config) (fill : Nat) (eventType subject : String) (data : δ) : Emission δ :=
  ⟨eventType,subject,data,fill < c.capacity⟩

theorem queued_iff_push {δ ε : Type} (c : Config) (s : Emitter.State ε) (ce : Emitter.CloudEvent ε)
    (eventType subject : String) (data : δ) :
    (emit c s.channel.length eventType subject data).queued = true ↔
      (s.push c.capacity ce).queued = s.queued ++ [ce] := by
  unfold Emitter.State.push emit
  split
  · simp_all
  · simp_all

/-- A heartbeat, with the incarnation it is for and the time it covers. -/
structure Heartbeat where
  pod : Pod
  since : Int
  now : Int
  emission : Emission HeartbeatData

inductive Notification where
  | add (pod : Pod) : Notification
  | delete (pod : Pod) : Notification
  deriving DecidableEq

/-- Where a tick is: with the snapshot taken, before a pod of it, with the last
heartbeat of a pod read, or with the heartbeat emitted and the map to be written. -/
inductive Tick where
  | idle : Tick
  | listed (items : List CachedPod) : Tick
  | loop (now : Int) (items : List CachedPod) : Tick
  | emit (now : Int) (pod : Pod) (last : Int) (rest : List CachedPod) : Tick
  | write (now : Int) (pod : Pod) (rest : List CachedPod) : Tick
  deriving DecidableEq

/-- `created` are all incarnations so far; `heartbeats` and `lifecycle` are the events
that were emitted. -/
structure State where
  cache : Table String CachedPod (·.pod.key)
  created : List Pod
  notifications : List Notification
  lastHeartbeat : String → Option Int
  tick : Tick
  heartbeats : List Heartbeat
  lifecycle : List (Emission LifecycleData)

/-- `replace` is a deletion and a new pod that fall in a gap of the watch: the next list
has another pod under the key, which is notified as an update. -/
inductive Label where
  | create (pod : Pod) (phase : PodPhase) : Label
  | replace (pod : Pod) (phase : PodPhase) : Label
  | status (key : String) (phase : PodPhase) : Label
  | delete (key : String) : Label
  | handle (fill : Nat) : Label
  | list (items : List CachedPod) : Label
  | listFailed : Label
  | now (t : Int) : Label
  | next : Label
  | emit (fill : Nat) : Label
  | write : Label
  | restart : Label

namespace State

def fresh (s : State) (pod : Pod) : Bool := s.created.all fun old => old.uid ≠ pod.uid

def create (s : State) (pod : Pod) (phase : PodPhase) : State :=
  { s with
    cache := s.cache.insert ⟨pod,phase⟩
    created := s.created ++ [pod]
    notifications := s.notifications ++ [.add pod] }

def replace (s : State) (pod : Pod) (phase : PodPhase) : State :=
  { s with
    cache := (s.cache.erase pod.key).insert ⟨pod,phase⟩
    created := s.created ++ [pod] }

def status (s : State) (key : String) (phase : PodPhase) : State :=
  { s with cache := s.cache.updateWhere (·.pod.key = key) (fun p => { p with phase }) fun _ => rfl }

def delete (s : State) (pod : Pod) : State :=
  { s with cache := s.cache.erase pod.key, notifications := s.notifications ++ [.delete pod] }

def onPodAdd (c : Config) (s : State) (fill : Nat) (pod : Pod) : State :=
  if shouldExclude c pod.ns then s
  else { s with lifecycle := s.lifecycle ++
          [Agent.emit c fill "kube.pod.lifecycle" pod.key (podEventData c pod .created)] }

def onPodDelete (c : Config) (s : State) (fill : Nat) (pod : Pod) : State :=
  if shouldExclude c pod.ns then s
  else { s with
          lifecycle := s.lifecycle ++
            [Agent.emit c fill "kube.pod.lifecycle" pod.key (podEventData c pod .deleted)]
          lastHeartbeat := Function.update s.lastHeartbeat pod.key none }

def onNotification (c : Config) (s : State) (fill : Nat) : Notification → State
  | .add pod => s.onPodAdd c fill pod
  | .delete pod => s.onPodDelete c fill pod

def goto (s : State) (tick : Tick) : State := { s with tick }

def lastFor (s : State) (pod : Pod) : Int := (s.lastHeartbeat pod.key).getD pod.start

/-- Pods that do not run and pods of excluded namespaces are passed over. -/
def read (c : Config) (s : State) (now : Int) (p : CachedPod) (rest : List CachedPod) : State :=
  if p.phase ≠ .running ∨ shouldExclude c p.pod.ns then s.goto (.loop now rest)
  else s.goto (.emit now p.pod (s.lastFor p.pod) rest)

def emitHeartbeat (c : Config) (s : State) (fill : Nat) (now : Int) (pod : Pod) (last : Int)
    (rest : List CachedPod) : State :=
  { s with
    heartbeats := s.heartbeats ++
      [⟨pod,last,now,Agent.emit c fill "kube.pod.heartbeat" pod.key (heartbeatData c pod now last)⟩]
    tick := .write now pod rest }

def writeLast (s : State) (now : Int) (pod : Pod) (rest : List CachedPod) : State :=
  { s with lastHeartbeat := Function.update s.lastHeartbeat pod.key (some now), tick := .loop now rest }

def restart (s : State) : State :=
  { s with
    notifications := s.cache.rows.map fun p => .add p.pod
    lastHeartbeat := fun _ => none
    tick := .idle }

end State

def step (c : Config) (s : State) : Label → Option State
  | .create pod phase =>
    if s.fresh pod ∧ s.cache.find? pod.key = none then some (s.create pod phase) else none
  | .replace pod phase =>
    if s.fresh pod ∧ s.cache.find? pod.key ≠ none then some (s.replace pod phase) else none
  | .status key phase => some (s.status key phase)
  | .delete key => (s.cache.find? key).map fun p => s.delete p.pod
  | .handle fill => match s.notifications with
    | [] => none
    | n :: rest => some ({ s with notifications := rest }.onNotification c fill n)
  | .list items => if s.tick = .idle ∧ items.Perm s.cache.rows then some (s.goto (.listed items)) else none
  | .listFailed => if s.tick = .idle then some s else none
  | .now t => match s.tick with
    | .listed items => some (s.goto (.loop t items))
    | _ => none
  | .next => match s.tick with
    | .loop _ [] => some (s.goto .idle)
    | .loop now (p :: rest) => some (s.read c now p rest)
    | _ => none
  | .emit fill => match s.tick with
    | .emit now pod last rest => some (s.emitHeartbeat c fill now pod last rest)
    | _ => none
  | .write => match s.tick with
    | .write now pod rest => some (s.writeLast now pod rest)
    | _ => none
  | .restart => some s.restart

inductive Moves (c : Config) (s : State) : Label → State → Prop
  | create {pod : Pod} (phase : PodPhase) (hf : s.fresh pod = true) (hnone : s.cache.find? pod.key = none) :
      Moves c s (.create pod phase) (s.create pod phase)
  | replace {pod : Pod} (phase : PodPhase) (hf : s.fresh pod = true) (hsome : s.cache.find? pod.key ≠ none) :
      Moves c s (.replace pod phase) (s.replace pod phase)
  | status (key : String) (phase : PodPhase) : Moves c s (.status key phase) (s.status key phase)
  | delete {key : String} {p : CachedPod} (hp : s.cache.find? key = some p) :
      Moves c s (.delete key) (s.delete p.pod)
  | handle {n : Notification} {rest : List Notification} (fill : Nat) (hn : s.notifications = n :: rest) :
      Moves c s (.handle fill) ({ s with notifications := rest }.onNotification c fill n)
  | list {items : List CachedPod} (hidle : s.tick = .idle) (hperm : items.Perm s.cache.rows) :
      Moves c s (.list items) (s.goto (.listed items))
  | listFailed : Moves c s .listFailed s
  | now {items : List CachedPod} (t : Int) (ht : s.tick = .listed items) :
      Moves c s (.now t) (s.goto (.loop t items))
  | finish {now : Int} (ht : s.tick = .loop now []) : Moves c s .next (s.goto .idle)
  | read {now : Int} {p : CachedPod} {rest : List CachedPod} (ht : s.tick = .loop now (p :: rest)) :
      Moves c s .next (s.read c now p rest)
  | emit {now last : Int} {pod : Pod} {rest : List CachedPod} (fill : Nat)
      (ht : s.tick = .emit now pod last rest) :
      Moves c s (.emit fill) (s.emitHeartbeat c fill now pod last rest)
  | write {now : Int} {pod : Pod} {rest : List CachedPod} (ht : s.tick = .write now pod rest) :
      Moves c s .write (s.writeLast now pod rest)
  | restart : Moves c s .restart s.restart

theorem step_moves {c : Config} {s t : State} {l : Label} (h : step c s l = some t) : Moves c s l t := by
  unfold step at h
  split at h
  · split at h
    · rename_i hg
      cases h
      exact .create _ hg.1 hg.2
    · cases h
  · split at h
    · rename_i hg
      cases h
      exact .replace _ hg.1 hg.2
    · cases h
  · cases h
    exact .status _ _
  · obtain ⟨p,hp,rfl⟩ := Option.map_eq_some_iff.mp h
    exact .delete hp
  · split at h
    · cases h
    · rename_i hn
      cases h
      exact .handle _ hn
  · split at h
    · rename_i hg
      cases h
      exact .list hg.1 hg.2
    · cases h
  · split at h
    · cases h
      exact .listFailed
    · cases h
  · split at h
    · rename_i ht
      cases h
      exact .now _ ht
    · cases h
  · split at h
    · rename_i ht
      cases h
      exact .finish ht
    · rename_i ht
      cases h
      exact .read ht
    · cases h
  · split at h
    · rename_i ht
      cases h
      exact .emit _ ht
    · cases h
  · split at h
    · rename_i ht
      cases h
      exact .write ht
    · cases h
  · cases h
    exact .restart

def empty : State := ⟨.empty,[],[],fun _ => none,.idle,[],[]⟩

def initial (s : State) : Prop := s = empty

end CostConsumer.Agent
