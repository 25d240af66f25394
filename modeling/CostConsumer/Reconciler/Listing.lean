import CostConsumer.Reconciler.Reconcile
set_option autoImplicit false

namespace CostConsumer.Reconciler
open Foundation Inventory Service Watcher Osac
open Ingest (Env)

variable {α δ : Type}

/-- `size` and `total` are what the service writes; nothing ties them to the items. -/
structure ListResponse (α : Type) where
  items : List α
  size : Int
  total : Int

inductive ListError where
  | request (err : String) : ListError
  | status (code : Nat) : ListError
  | decoding (err : String) : ListError
  deriving DecidableEq, Repr

def listPageSize : Nat := 100
def listMaxItems : Nat := 10000

/-- A listing, and the number and the offset of the last page that was asked for. -/
structure Listing (α : Type) where
  result : Except ListError (List α)
  page : Nat
  offset : Int

/-- The loop of `listAll` from page `i` on. `serve` answers the request for a page
with an offset; `none` says that the fuel is used up. -/
def listPages (serve : Nat → Int → Except ListError (ListResponse α)) :
    Nat → Nat → Int → List α → Option (Listing α)
  | 0, _, _, _ => none
  | fuel+1, i, offset, all =>
    match serve i offset with
    | .error e => some ⟨.error e,i,offset⟩
    | .ok page =>
      let all := all ++ page.items
      if all.length ≥ page.total ∨ page.size = 0 then some ⟨.ok all,i,offset⟩
      -- the cap is logged, and the list is returned as if it were whole
      else if all.length ≥ listMaxItems then some ⟨.ok all,i,offset⟩
      else listPages serve fuel (i+1) (offset+page.size) all

/-- The collection when a page is asked for, and how many items the service puts on
it at most. -/
structure Reply (α : Type) where
  collection : List α
  count : Nat

def Reply.page (r : Reply α) (offset limit : Nat) : ListResponse α :=
  let items := (r.collection.drop offset).take (min r.count limit)
  ⟨items,items.length,r.collection.length⟩

/-- The service: what it does with the request for each page. -/
abbrev Server (α : Type) := Nat → Except ListError (Reply α)

def Server.serve (server : Server α) (i : Nat) (offset : Int) : Except ListError (ListResponse α) :=
  (server i).map (·.page offset.toNat listPageSize)

def listAll (server : Server α) : Option (Listing α) :=
  listPages server.serve (listMaxItems+1) 0 0 []

/-- The reconciliation of one kind of resource. Without a listing nothing is done. -/
def reconcileKind (k : Kind) (server : Server (Object k)) (pass : (listed : List (Object k)) → Pass k listed)
    (env : Env δ) (s : Metering.State) : Option Metering.State :=
  match listAll server with
  | none => none
  | some l =>
    match l.result with
    | .error _ => some s
    | .ok listed => (pass listed).run env s

/-- One page of a correct service: the listing ends here, with all items, an empty page
or the cap, or goes on with more items than before and fewer than the cap. -/
theorem listPages_succ (server : Server α) (fuel i : Nat) (all : List α) :
    (∃ e, server i = .error e ∧ listPages server.serve (fuel+1) i all.length all =
      some ⟨.error e,i,all.length⟩) ∨
    ∃ reply, server i = .ok reply ∧
      let next := all ++ (reply.page all.length listPageSize).items
      (listPages server.serve (fuel+1) i all.length all = some ⟨.ok next,i,all.length⟩ ∧
        (reply.collection.length ≤ next.length ∨ (reply.page all.length listPageSize).items = [] ∨
          listMaxItems ≤ next.length)) ∨
      all.length < next.length ∧ next.length < listMaxItems ∧ next.length < reply.collection.length ∧
        listPages server.serve (fuel+1) i all.length all =
          listPages server.serve fuel (i+1) next.length next := by
  cases hr : server i with
  | error e =>
    refine .inl ⟨e,rfl,?_⟩
    simp [listPages,Server.serve,hr,Except.map]
  | ok reply =>
    refine .inr ⟨reply,rfl,?_⟩
    have hsize : (reply.page all.length listPageSize).size =
      (reply.page all.length listPageSize).items.length := rfl
    have htotal : (reply.page all.length listPageSize).total = reply.collection.length := rfl
    simp only [listPages,Server.serve,hr,Except.map,List.length_append,Int.toNat_natCast]
    rw [hsize,htotal]
    split
    · rename_i hend
      refine .inl ⟨rfl,?_⟩
      rw [Int.natCast_eq_zero,List.length_eq_zero_iff] at hend
      exact hend.imp Int.ofNat_le.mp .inl
    rename_i hmore
    split
    · rename_i hcap
      exact .inl ⟨rfl,.inr (.inr hcap)⟩
    rename_i hcap
    exact .inr ⟨by omega,by omega,by omega,by rw [Int.natCast_add]⟩

theorem listPages_ends (server : Server α) (fuel i : Nat) (all : List α) (hall : all.length < listMaxItems)
    (h : listMaxItems ≤ fuel + all.length) :
    ∃ l, listPages server.serve fuel i all.length all = some l := by
  induction fuel generalizing i all with
  | zero => omega
  | succ fuel ih =>
    rcases listPages_succ server fuel i all with ⟨e,-,he⟩ | ⟨reply,-,⟨he,-⟩ | ⟨hmore,hcap,-,he⟩⟩
    · exact ⟨_,he⟩
    · exact ⟨_,he⟩
    · rw [he]
      exact ih _ _ hcap (by omega)

theorem listAll_ends (server : Server α) : ∃ l, listAll server = some l :=
  listPages_ends server (listMaxItems+1) 0 [] (by simp [listMaxItems]) (by simp)

namespace Server

variable (server : Server α)

/-- The offset that request `i` asks for: every page begins where the one before ended. -/
def offset : Nat → Nat
  | 0 => 0
  | i+1 =>
    match server i with
    | .error _ => offset i
    | .ok reply => offset i + min (min reply.count listPageSize) (reply.collection.length - offset i)

/-- Request `i` is the last one: it fails, or its page ends at the end of the collection or
behind the cap, or has nothing on it. -/
def Ends (i : Nat) : Prop :=
  match server i with
  | .error _ => True
  | .ok reply => reply.collection.length ≤ server.offset (i+1) ∨ server.offset (i+1) = server.offset i ∨
      listMaxItems ≤ server.offset (i+1)

def Asks (i : Nat) : Prop := ∀ j < i, ¬ server.Ends j

def Fails : Prop := ∃ i e, server.Asks i ∧ server i = .error e

/-- The item is in the collection at a position that the request asks for. -/
def Shows (i : Nat) (o : α) : Prop :=
  ∃ reply, server i = .ok reply ∧
    ∃ n, server.offset i ≤ n ∧ n < server.offset (i+1) ∧ reply.collection[n]? = some o

end Server

section Pages
variable {server : Server α}

theorem offset_succ {i : Nat} {reply : Reply α} (h : server i = .ok reply) :
    server.offset (i+1) = server.offset i + (reply.page (server.offset i) listPageSize).items.length := by
  rw [Server.offset,h]
  simp only [Reply.page,List.length_take,List.length_drop]

theorem shows_iff {i : Nat} {reply : Reply α} (h : server i = .ok reply) {o : α} :
    server.Shows i o ↔ o ∈ (reply.page (server.offset i) listPageSize).items := by
  have hlen := offset_succ h
  rw [List.mem_iff_getElem?]
  constructor
  · rintro ⟨reply',hr,n,hlow,hhigh,hn⟩
    cases h.symm.trans hr
    refine ⟨n - server.offset i,?_⟩
    rw [hlen] at hhigh
    have hlt : n - server.offset i < (reply.page (server.offset i) listPageSize).items.length := by omega
    simp only [Reply.page,List.length_take] at hlt ⊢
    rw [List.getElem?_take_of_lt (by omega),List.getElem?_drop,Nat.add_sub_cancel' hlow,hn]
  · rintro ⟨n,hn⟩
    have hlt := (List.getElem?_eq_some_iff.mp hn).1
    refine ⟨reply,h,server.offset i + n,Nat.le_add_right _ _,by omega,?_⟩
    simp only [Reply.page,List.length_take] at hlt hn
    rw [List.getElem?_take_of_lt (by omega),List.getElem?_drop] at hn
    exact hn

theorem Server.Asks.le {i j : Nat} (hi : server.Ends i) (hj : server.Asks j) : j ≤ i :=
  Nat.le_of_not_lt fun hlt => hj i hlt hi

theorem Server.Asks.succ {i : Nat} (h : server.Asks i) (hi : ¬ server.Ends i) : server.Asks (i+1) := by
  intro j hj
  rcases Nat.lt_succ_iff_lt_or_eq.mp hj with hj | rfl
  · exact h j hj
  · exact hi

/-- What a listing that goes on with request `i` comes to: the error of a request, or what
there is already with the items of all pages from there on. -/
inductive Lists (server : Server α) (i : Nat) (all : List α) (l : Listing α) : Prop
  | failed {j : Nat} {e : ListError} (asked : server.Asks j) (error : server j = .error e)
      (result : l.result = .error e) : Lists server i all l
  | done {listed : List α} (result : l.result = .ok listed)
      (works : ∀ j, i ≤ j → server.Asks j → ∃ reply, server j = .ok reply)
      (items : ∀ o, o ∈ listed ↔ o ∈ all ∨ ∃ j, i ≤ j ∧ server.Asks j ∧ server.Shows j o) :
      Lists server i all l

theorem listPages_lists {all : List α} {fuel i : Nat} {l : Listing α} (hall : all.length = server.offset i)
    (hasks : server.Asks i) (h : listPages server.serve fuel i all.length all = some l) :
    Lists server i all l := by
  induction fuel generalizing i all with
  | zero => cases h
  | succ fuel ih =>
    rcases listPages_succ server fuel i all with ⟨e,hr,he⟩ | ⟨reply,hr,hnext⟩
    · rw [h] at he
      cases he
      exact .failed hasks hr rfl
    have hoffset := offset_succ hr
    have hshows := fun {o : α} => shows_iff hr (o := o)
    rw [← hall] at hoffset hshows
    rw [← List.length_append] at hoffset
    have hends : server.Ends i ↔ reply.collection.length ≤ server.offset (i+1) ∨
        server.offset (i+1) = server.offset i ∨ listMaxItems ≤ server.offset (i+1) := by
      rw [Server.Ends,hr]
    rcases hnext with ⟨he,hlast⟩ | ⟨hmore,hcap,hrest,he⟩
    · rw [h] at he
      cases he
      have hend : server.Ends i := by
        rw [hends,hoffset,← hall]
        refine hlast.imp_right (Or.imp_left fun hnil => ?_)
        rw [hnil,List.append_nil]
      refine .done rfl (fun j hij hj => ?_) fun o => ?_
      · obtain rfl := Nat.le_antisymm (hj.le hend) hij
        exact ⟨reply,hr⟩
      · rw [List.mem_append,← hshows]
        refine or_congr_right ⟨fun hs => ⟨i,le_rfl,hasks,hs⟩,fun ⟨j,hij,hj,hs⟩ => ?_⟩
        obtain rfl := Nat.le_antisymm (hj.le hend) hij
        exact hs
    · have hend : ¬ server.Ends i := by
        rw [hends,hoffset,← hall]
        omega
      rw [he] at h
      cases ih hoffset.symm (hasks.succ hend) h with
      | failed asked error result => exact .failed asked error result
      | done result works items =>
        refine .done result (fun j hij hj => ?_) fun o => ?_
        · rcases Nat.lt_or_eq_of_le hij with hij | rfl
          · exact works j hij hj
          · exact ⟨reply,hr⟩
        · rw [items,List.mem_append,← hshows,or_assoc]
          refine or_congr_right ⟨?_,?_⟩
          · rintro (hs | ⟨j,hij,hj,hs⟩)
            · exact ⟨i,le_rfl,hasks,hs⟩
            · exact ⟨j,Nat.le_of_succ_le hij,hj,hs⟩
          · rintro ⟨j,hij,hj,hs⟩
            rcases Nat.lt_or_eq_of_le hij with hij | rfl
            · exact .inr ⟨j,hij,hj,hs⟩
            · exact .inl hs

theorem listAll_lists {l : Listing α} (h : listAll server = some l) : Lists server 0 [] l :=
  listPages_lists rfl (fun _ hj => absurd hj (Nat.not_lt_zero _)) h

end Pages

/-- The resource is in the collection whenever a page is asked for. -/
def Throughout {k : Kind} (server : Server (Object k)) (id : String) : Prop :=
  ∀ i reply, server.Asks i → server i = .ok reply → ∃ o ∈ reply.collection, objectID k o = id

/-- The resource is at one of the positions that are asked for, when they are asked for. -/
def Shown {k : Kind} (server : Server (Object k)) (id : String) : Prop :=
  ∃ i o, server.Asks i ∧ server.Shows i o ∧ objectID k o = id

theorem listed_iff_shown {k : Kind} {server : Server (Object k)} {listed : List (Object k)}
    (items : ∀ o, o ∈ listed ↔ o ∈ [] ∨ ∃ j, 0 ≤ j ∧ server.Asks j ∧ server.Shows j o) (id : String) :
    Listed listed id ↔ Shown server id := by
  constructor
  · rintro ⟨o,ho,hid⟩
    obtain ⟨j,-,hj,hs⟩ := ((items o).mp ho).resolve_left List.not_mem_nil
    exact ⟨j,o,hj,hs,hid⟩
  · rintro ⟨j,o,hj,hs,hid⟩
    exact ⟨o,(items o).mpr (.inr ⟨j,Nat.zero_le j,hj,hs⟩),hid⟩

/-- What a reconciliation leaves alive of the rows that were: all of them if a request fails,
else those whose resource is shown on a page. -/
theorem reconcileKind_alive {k : Kind} (server : Server (Object k))
    (pass : (listed : List (Object k)) → Pass k listed) (env : Env δ) (s : Metering.State) :
    ∃ t, reconcileKind k server pass env s = some t ∧
      ∀ r ∈ s.store.alive k, r ∈ t.store.alive k ↔ server.Fails ∨ Shown server (k.id r) := by
  obtain ⟨l,hlist⟩ := listAll_ends server
  cases listAll_lists hlist with
  | failed asked error result =>
    exact ⟨s,by simp [reconcileKind,hlist,result],fun r hr => iff_of_true hr (.inl ⟨_,_,asked,error⟩)⟩
  | @done listed result works items =>
    obtain ⟨t,ht,-,hc⟩ := (pass listed).converges env s
    refine ⟨t,by simp [reconcileKind,hlist,result,ht],fun r hr => ?_⟩
    have hworks : ¬ server.Fails := by
      rintro ⟨i,e,hi,he⟩
      obtain ⟨reply,hr⟩ := works i (Nat.zero_le i) hi
      exact absurd (hr.symm.trans he) (by simp)
    rw [or_iff_right hworks,← listed_iff_shown items]
    constructor
    · exact fun ht => (hc.live _).mp ⟨r,ht,rfl⟩
    · intro hl
      have hd := (Store.mem_alive.mp hr).2
      exact Store.mem_alive.mpr ⟨Table.find?_eq_some.mpr ⟨hc.kept r hr hl,rfl⟩,hd⟩

/-- A reconciliation marks none of the resources that are there all the time if and only if a
request fails, or each of them is at one of the positions that are asked for when the pages
are served. -/
theorem reconciliation_spares_live_iff {k : Kind} (server : Server (Object k))
    (pass : (listed : List (Object k)) → Pass k listed) (env : Env δ) (s : Metering.State) :
    ∃ t, reconcileKind k server pass env s = some t ∧
      ((∀ r ∈ s.store.alive k, Throughout server (k.id r) → r ∈ t.store.alive k) ↔
        server.Fails ∨ ∀ r ∈ s.store.alive k, Throughout server (k.id r) → Shown server (k.id r)) := by
  obtain ⟨t,ht,halive⟩ := reconcileKind_alive server pass env s
  refine ⟨t,ht,?_⟩
  by_cases hf : server.Fails
  · exact iff_of_true (fun r hr _ => (halive r hr).mpr (.inl hf)) (.inl hf)
  · rw [or_iff_right hf]
    refine forall₂_congr fun r hr => imp_congr_right fun _ => ?_
    rw [halive r hr,or_iff_right hf]

def vm (n : Nat) : ComputeInstance :=
  ⟨String.ofList (List.replicate n 'x'),{ tenant := "acme" },{},⟨"COMPUTE_INSTANCE_STATE_RUNNING"⟩⟩

def knownVM (n : Nat) : Metering.State where
  store := ({} : Store).upsert .computeInstance 0 (record .computeInstance 0 (vm n))
  nextID := 1
  projectCache := fun _ => none
  phase := .idle

theorem knownVM_alive (n : Nat) :
    record .computeInstance 0 (vm n) ∈ (knownVM n).store.alive .computeInstance := by
  refine Store.mem_alive.mpr ⟨?_,rfl⟩
  rw [knownVM,Store.find?_upsert,if_pos rfl]
  rfl

def growing : Server (Object .computeInstance) := fun i =>
  .ok (if i = 0 then ⟨[vm 1,vm 2],1⟩ else ⟨[vm 1,vm 2,vm 3],2⟩)

theorem growing_shown : Shown growing (vm 2).id := by
  refine ⟨1,vm 2,fun j hj => ?_,⟨_,rfl,1,Nat.le_refl 1,by decide,rfl⟩,rfl⟩
  obtain rfl := Nat.lt_one_iff.mp hj
  simp [Server.Ends,growing,Server.offset,listPageSize,listMaxItems]

theorem growing_works : ¬ growing.Fails := by
  rintro ⟨i,e,-,he⟩
  cases he

theorem knownVM_id {n : Nat} {r : ComputeInstanceRecord} (h : r ∈ (knownVM n).store.alive .computeInstance) :
    r.instanceID = (vm n).id := by
  have hfind := (Store.mem_alive.mp h).1
  rw [knownVM,Store.find?_upsert] at hfind
  split at hfind
  · rename_i hid
    exact hid.symm
  · cases hfind

theorem live_instances_spared : ∃ t,
    reconcileKind .computeInstance growing (fun listed => .atOnce .computeInstance listed 7) sampleEnv
      (knownVM 2) = some t ∧ ¬ growing.Fails ∧ Throughout growing (vm 2).id ∧
    record .computeInstance 0 (vm 2) ∈ t.store.alive .computeInstance := by
  obtain ⟨t,ht,hiff⟩ := reconciliation_spares_live_iff growing
    (fun listed => .atOnce .computeInstance listed 7) sampleEnv (knownVM 2)
  have hthere : Throughout growing (vm 2).id := by
    intro i reply _ hr
    cases hr
    refine ⟨vm 2,?_,rfl⟩
    split <;> simp
  refine ⟨t,ht,growing_works,hthere,hiff.mpr (.inr fun r hr _ => ?_) _ (knownVM_alive 2) hthere⟩
  rw [show Kind.id .computeInstance r = (vm 2).id from knownVM_id hr]
  exact growing_shown

def stable (collection : List α) : Server α := fun _ => .ok ⟨collection,listPageSize⟩

theorem stable_collection {collection : List α} {i : Nat} {reply : Reply α}
    (h : stable collection i = .ok reply) : reply.collection = collection := by
  cases h
  rfl

theorem listPages_full {collection : List α} {i : Nat} (hi : listPageSize*(i+1) < collection.length)
    (fuel : Nat) :
    listPages (stable collection).serve (fuel+1) i (listPageSize*i : Nat)
        (collection.take (listPageSize*i)) =
      if listPageSize*(i+1) ≥ listMaxItems then
        some ⟨.ok (collection.take (listPageSize*(i+1))),i,listPageSize*i⟩
      else listPages (stable collection).serve fuel (i+1) (listPageSize*(i+1) : Nat)
        (collection.take (listPageSize*(i+1))) := by
  have hpage : (stable collection).serve i (listPageSize*i : Nat) =
      .ok ⟨(collection.drop (listPageSize*i)).take listPageSize,listPageSize,collection.length⟩ := by
    simp only [Server.serve,stable,Except.map,Reply.page,min_self,List.length_take,List.length_drop,
      Int.toNat_natCast]
    rw [min_eq_left (by unfold listPageSize at *; omega)]
  have hall : collection.take (listPageSize*i) ++ (collection.drop (listPageSize*i)).take listPageSize =
      collection.take (listPageSize*(i+1)) := by
    rw [Nat.mul_succ,List.take_add]
  have hlen : (collection.take (listPageSize*(i+1))).length = listPageSize*(i+1) := by
    rw [List.length_take,min_eq_left hi.le]
  rw [listPages,hpage]
  simp only [hall,hlen]
  rw [if_neg (by unfold listPageSize at *; omega)]
  rfl

/-- A service with one fixed collection. An answer has some of the items from the offset
on, at least one while any remain; how many is up to the service, page by page. -/
def Slices (collection : List α) (serve : Nat → Int → Except ListError (ListResponse α)) : Prop :=
  ∀ (i offset : Nat), ∃ n ≤ collection.length - offset, (offset < collection.length → 0 < n) ∧
    serve i offset = .ok ⟨(collection.drop offset).take n,n,collection.length⟩

theorem listPages_slices {collection : List α} (hcap : collection.length ≤ listMaxItems)
    {serve : Nat → Int → Except ListError (ListResponse α)} (h : Slices collection serve)
    {fuel n : Nat} (i : Nat) (hn : n ≤ collection.length) (hfuel : collection.length - n < fuel) :
    ∃ l, listPages serve fuel i n (collection.take n) = some l ∧ l.result = .ok collection := by
  induction fuel generalizing i n with
  | zero => omega
  | succ fuel ih =>
    obtain ⟨m,hm,hpos,hs⟩ := h i n
    have hnext : collection.take n ++ (collection.drop n).take m = collection.take (n+m) :=
      List.take_add.symm
    have hlen : (collection.take (n+m)).length = n+m := by
      rw [List.length_take]
      omega
    simp only [listPages,hs,hnext,hlen]
    by_cases hend : n+m = collection.length
    · rw [if_pos (.inl (by omega)),hend,List.take_length]
      exact ⟨_,rfl,rfl⟩
    · have hmore : n+m < collection.length := by omega
      have hm0 := hpos (by omega)
      rw [if_neg (by omega),if_neg (by omega)]
      exact ih (i+1) hmore.le (by omega)

/-- A collection that does not change and is within the cap is listed as it is, on pages
of any lengths. -/
theorem listing_whole {collection : List α} (hcap : collection.length ≤ listMaxItems)
    {serve : Nat → Int → Except ListError (ListResponse α)} (h : Slices collection serve) :
    ∃ l, listPages serve (listMaxItems+1) 0 0 [] = some l ∧ l.result = .ok collection :=
  listPages_slices hcap h 0 (Nat.zero_le _) (by omega)

theorem listing_whole_longer : ∃ l, listPages (fun i offset =>
      let n := min (i+1) (5-offset.toNat)
      .ok ⟨([5,3,5,8,1] : List Nat).drop offset.toNat |>.take n,n,5⟩)
      (listMaxItems+1) 0 0 [] = some l ∧ l.result = .ok [5,3,5,8,1] :=
  listing_whole (by decide)
    (fun i offset => ⟨min (i+1) (5-offset),Nat.min_le_right _ _,fun ho => by
      simp only [List.length_cons,List.length_nil] at ho
      omega,rfl⟩)

theorem stable_slices (collection : List α) : Slices collection (stable collection).serve := by
  intro i offset
  refine ⟨min listPageSize (collection.length - offset),Nat.min_le_right _ _,fun ho => ?_,?_⟩
  · unfold listPageSize
    omega
  · simp [Server.serve,stable,Except.map,Reply.page,List.take_eq_take_iff]

/-- Of a collection within the cap that does not change every item is shown. -/
theorem stable_shown {k : Kind} {collection : List (Object k)} (h : collection.length ≤ listMaxItems)
    {o : Object k} (ho : o ∈ collection) : Shown (stable collection) (objectID k o) := by
  obtain ⟨l,hlist,hl⟩ : ∃ l, listAll (stable collection) = some l ∧ l.result = .ok collection :=
    listPages_slices h (stable_slices collection) 0 (Nat.zero_le _) (by omega)
  cases listAll_lists hlist with
  | failed asked error result => cases error
  | done result works items =>
    cases hl.symm.trans result
    exact (listed_iff_shown items _).mp ⟨o,ho,rfl⟩

def collected (responses : Nat → ListResponse α) (n : Nat) : List α :=
  (List.range n).flatMap fun i => (responses i).items

theorem collected_succ (responses : Nat → ListResponse α) (n : Nat) :
    collected responses (n+1) = collected responses n ++ (responses n).items := by
  simp [collected,List.range_succ]

/-- The answer says that it is empty, or its total or the cap is reached with its items. -/
def Final (responses : Nat → ListResponse α) (i : Nat) : Prop :=
  (responses i).size = 0 ∨ (responses i).total ≤ (collected responses (i+1)).length ∨
    listMaxItems ≤ (collected responses (i+1)).length

/-- The service answers request `i` with status 200 and `responses i`, whatever the offset. -/
def answering (responses : Nat → ListResponse α) (i : Nat) (_ : Int) : Except ListError (ListResponse α) :=
  .ok (responses i)

/-- The listing returns after finitely many requests, one for each unit of the fuel. -/
def Ends (responses : Nat → ListResponse α) : Prop :=
  ∃ fuel l, listPages (answering responses) fuel 0 0 [] = some l

theorem listPages_final {responses : Nat → ListResponse α} {i : Nat} (h : Final responses i) (fuel : Nat)
    (offset : Int) :
    listPages (answering responses) (fuel+1) i offset (collected responses i) =
      some ⟨.ok (collected responses (i+1)),i,offset⟩ := by
  simp only [listPages,answering,← collected_succ]
  split
  · rfl
  · rename_i hmore
    rw [not_or] at hmore
    rw [if_pos ((h.resolve_left hmore.2).resolve_left hmore.1)]

theorem listPages_next {responses : Nat → ListResponse α} {i : Nat} (h : ¬ Final responses i) (fuel : Nat)
    (offset : Int) :
    listPages (answering responses) (fuel+1) i offset (collected responses i) =
      listPages (answering responses) fuel (i+1) (offset+(responses i).size) (collected responses (i+1)) := by
  obtain ⟨hsize,htotal,hcap⟩ : _ ∧ _ ∧ _ := by simpa only [Final,not_or] using h
  simp only [listPages,answering,← collected_succ]
  rw [if_neg (not_or.mpr ⟨htotal,hsize⟩),if_neg hcap]

theorem listPages_eq_none_iff (responses : Nat → ListResponse α) (fuel i : Nat) (offset : Int) :
    listPages (answering responses) fuel i offset (collected responses i) = none ↔
      ∀ j < fuel, ¬ Final responses (i+j) := by
  induction fuel generalizing i offset with
  | zero => simp [listPages]
  | succ fuel ih =>
    by_cases hf : Final responses i
    · rw [listPages_final hf]
      simp only [reduceCtorEq,false_iff]
      exact fun h => h 0 (Nat.succ_pos fuel) hf
    · rw [listPages_next hf,ih]
      constructor
      · intro h j hj
        cases j with
        | zero => exact hf
        | succ j =>
          rw [Nat.add_comm j 1,← Nat.add_assoc]
          exact h j (by omega)
      · intro h j hj
        rw [Nat.add_assoc,Nat.add_comm 1 j]
        exact h (j+1) (by omega)

theorem listing_ends_iff (responses : Nat → ListResponse α) :
    Ends responses ↔ ∃ i, (responses i).size = 0 ∨
      (responses i).total ≤ (collected responses (i+1)).length ∨
      listMaxItems ≤ (collected responses (i+1)).length := by
  have hnone := fun fuel => listPages_eq_none_iff responses fuel 0 0
  simp only [Nat.zero_add] at hnone
  constructor
  · rintro ⟨fuel,l,hl⟩
    by_contra hno
    have hused := (hnone fuel).mpr fun j _ hj => hno ⟨j,hj⟩
    exact absurd (hl.symm.trans hused) (Option.some_ne_none l)
  · rintro ⟨i,hi⟩
    have hleft : listPages (answering responses) (i+1) 0 0 [] ≠ none :=
      fun h => (hnone (i+1)).mp h i (Nat.lt_succ_self i) hi
    exact ⟨i+1,Option.ne_none_iff_exists'.mp hleft⟩

/-- Empty pages that claim an item and a total of one. -/
def phantom : Nat → ListResponse (Object .computeInstance) := fun _ => ⟨[],1,1⟩

theorem listing_never_ends : ¬ Ends phantom := by
  rintro ⟨fuel,l,hl⟩
  have hnone : listPages (answering phantom) fuel 0 0 [] = none := by
    refine (listPages_eq_none_iff phantom fuel 0 0).mpr fun j _ hj => ?_
    simp [Final,collected,phantom,listMaxItems] at hj
  exact absurd (hl.symm.trans hnone) (Option.some_ne_none l)

/-- With more items than the cap, each of the first hundred pages is full, and the
last of them ends the listing. -/
theorem listPages_stable {collection : List α} (h : listMaxItems < collection.length) (n : Nat) {i fuel : Nat}
    (hi : i+n = 99) (hf : n < fuel) :
    listPages (stable collection).serve fuel i (listPageSize*i : Nat) (collection.take (listPageSize*i)) =
      some ⟨.ok (collection.take listMaxItems),99,9900⟩ := by
  unfold listMaxItems at h
  induction n generalizing i fuel with
  | zero =>
    obtain ⟨fuel,rfl⟩ := Nat.exists_eq_succ_of_ne_zero (by omega : fuel ≠ 0)
    obtain rfl : i = 99 := hi
    exact listPages_full h fuel
  | succ n ih =>
    obtain ⟨fuel,rfl⟩ := Nat.exists_eq_succ_of_ne_zero (by omega : fuel ≠ 0)
    have hmore : listPageSize*(i+1) < listMaxItems := by
      unfold listPageSize listMaxItems
      omega
    rw [listPages_full (hmore.trans h) fuel,if_neg (not_le.mpr hmore)]
    exact ih (by omega) (by omega)

theorem listAll_capped {collection : List α} (h : listMaxItems < collection.length) :
    listAll (stable collection) = some ⟨.ok (collection.take listMaxItems),99,9900⟩ :=
  listPages_stable h 99 rfl (by decide)

def MarksLive (server : Server (Object .computeInstance)) (n : Nat) : Prop :=
  ∃ t, ¬ server.Fails ∧ Throughout server (vm n).id ∧
    record .computeInstance 0 (vm n) ∈ (knownVM n).store.alive .computeInstance ∧
    reconcileKind .computeInstance server (fun listed => .atOnce .computeInstance listed 7) sampleEnv
      (knownVM n) = some t ∧
    ∀ r ∈ t.store.alive .computeInstance, r.instanceID ≠ (vm n).id

theorem marksLive_of_unlisted {server : Server (Object .computeInstance)}
    {l : Listing (Object .computeInstance)} {listed : List (Object .computeInstance)} {n : Nat}
    (hworks : ¬ server.Fails) (hlist : listAll server = some l) (hl : l.result = .ok listed)
    (hthere : Throughout server (vm n).id) (hno : ¬ Listed listed (vm n).id) : MarksLive server n := by
  obtain ⟨t,ht,-,hc⟩ := (Pass.atOnce .computeInstance listed 7).converges sampleEnv (knownVM n)
  exact ⟨t,hworks,hthere,knownVM_alive n,by simp [reconcileKind,hlist,hl,ht],
    fun r hr hid => hno ((hc.live _).mp ⟨r,hr,hid⟩)⟩

/-- The first instance is deleted between two pages of one item. -/
def shrinking : Server (Object .computeInstance) := fun i =>
  .ok (if i = 0 then ⟨[vm 1,vm 2],1⟩ else ⟨[vm 2],1⟩)

def many : List (Object .computeInstance) := (List.range 10001).map vm

theorem vm_injective {m n : Nat} (h : (vm m).id = (vm n).id) : m = n := by
  simpa [vm] using congrArg String.length h

theorem vm_mem_many {n : Nat} (h : n < 10001) : vm n ∈ many :=
  List.mem_map_of_mem (List.mem_range.mpr h)

theorem live_instance_marked : MarksLive shrinking 2 ∧ MarksLive (stable many) 10000 := by
  constructor
  · refine marksLive_of_unlisted (l := ⟨.ok [vm 1],1,1⟩) (fun ⟨i,e,_,he⟩ => by cases he) rfl rfl
      (fun i reply _ hr => ?_) ?_
    · cases hr
      refine ⟨vm 2,?_,rfl⟩
      split <;> simp
    · rintro ⟨o,ho,hid⟩
      rw [List.mem_singleton.mp ho] at hid
      exact absurd (vm_injective hid) (by decide)
  · refine marksLive_of_unlisted (fun ⟨i,e,_,he⟩ => by cases he)
      (listAll_capped (by simp [many,listMaxItems])) rfl (fun i reply _ hr => ?_) ?_
    · rw [stable_collection hr]
      exact ⟨vm 10000,vm_mem_many (by norm_num),rfl⟩
    · rintro ⟨o,ho,hid⟩
      rw [many,← List.map_take,List.take_range] at ho
      obtain ⟨m,hm,rfl⟩ := List.mem_map.mp ho
      have heq : m = 10000 := vm_injective (m := m) (n := 10000) hid
      have hlt := List.mem_range.mp hm
      rw [heq] at hlt
      exact absurd hlt (by decide)

end CostConsumer.Reconciler
