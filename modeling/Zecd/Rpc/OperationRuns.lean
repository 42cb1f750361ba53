import Mathlib
import Zecd.Foundation.Runs
import Zecd.Rpc.Operations

/-! # What the operation registry guarantees

Over any interleaving of calls and tasks: a wallet's unfinished operations stay within their
cap, only finished entries leave, and a result is handed out once.
-/

namespace Zecd.Operations

variable {V : Type*} {r : OperationRegistry V} {e : Event V} {x y : OperationEntry V}
  {wallet : String} {it : Interleaving V} {ts : List (Transition V)}

namespace OperationRegistry

@[simp] theorem mem_settle : x ∈ (r.settle ts).map ↔ ∃ y ∈ r.map, y.after ts = x := List.mem_map

theorem mem_remove {gone : List OperationId} :
    x ∈ (r.remove gone).map ↔ x ∈ r.map ∧ x.id ∉ gone := by
  simp only [remove, List.mem_filter, decide_eq_true_eq]

@[simp] theorem settle_ids : (r.settle ts).ids = r.ids := map_after_id r.map ts

theorem settle_length : (r.settle ts).map.length = r.map.length := List.length_map _

theorem mem_ids : x ∈ r.map → x.id ∈ r.ids := List.mem_map_of_mem

theorem notMem_remove_ids {gone : List OperationId} {id : OperationId} (h : id ∈ gone) :
    id ∉ (r.remove gone).ids := by
  rintro hid
  obtain ⟨x, hx, rfl⟩ := List.mem_map.mp hid
  exact (mem_remove.mp hx).2 h

theorem eq_of_id (hx : x ∈ r.map) (hy : y ∈ r.map) (h : x.id = y.id) : x = y :=
  List.inj_on_of_nodup_map r.nodup hx hy h

/-! ### Eviction -/

theorem mem_evicted (h : x ∈ r.evicted it) : x ∈ r.map ∧ (it.atSecond x).isFinished = true := by
  unfold evicted at h
  split at h
  · cases h
  · obtain ⟨hx, hfin⟩ := List.mem_filter.mp (mem_of_mem_oldest h)
    exact ⟨(it.order_perm r.map).mem_iff.mp hx, hfin⟩

theorem evicted_nodup : (r.evicted it).Nodup := by
  unfold evicted
  split
  · exact List.nodup_nil
  · have hmap : r.map.Nodup := List.Nodup.of_map _ r.nodup
    have horder : (it.order r.map).Nodup := (it.order_perm r.map).nodup_iff.mpr hmap
    exact nodup_oldest (horder.filter _)

/-- The entries kept over the cap were all read unfinished, or there are none. -/
theorem evictIfOverCap_settles : (r.evictIfOverCap it).map.length ≤ maxOperations ∨
    ∀ x ∈ (r.evictIfOverCap it).map, (it.atSecond x).isFinished = false := by
  have hlen : (r.evictIfOverCap it).map.length + (r.evicted it).length ≤ r.map.length := by
    have hsub : (r.evicted it).Subperm
        (r.map.filter fun x => x.id ∈ (r.evicted it).map OperationEntry.id) := by
      apply List.subperm_of_subset evicted_nodup
      intro x hx
      apply List.mem_filter.mpr
      exact ⟨(mem_evicted hx).1, decide_eq_true (List.mem_map_of_mem hx)⟩
    have hsplit := List.length_eq_length_filter_add (l := r.map)
      (fun x => decide (x.id ∈ (r.evicted it).map OperationEntry.id))
    have hkept : (r.evictIfOverCap it).map =
        r.map.filter fun x => !decide (x.id ∈ (r.evicted it).map OperationEntry.id) :=
      List.filter_congr fun x _ => decide_not
    have hle := hsub.length_le
    rw [hkept]
    omega
  by_cases hcap : r.map.length ≤ maxOperations
  · left
    omega
  have hev : r.evicted it = oldest OperationEntry.creationTime (r.map.length - maxOperations)
      ((it.order r.map).filter fun e => (it.atSecond e).isFinished) := by
    rw [evicted, if_neg hcap]
  rcases Nat.lt_or_ge ((it.order r.map).filter fun e => (it.atSecond e).isFinished).length
    (r.map.length - maxOperations) with hfew | hmany
  · right
    intro x hx
    obtain ⟨hmem, hid⟩ := mem_remove.mp hx
    apply Bool.eq_false_iff.mpr
    intro hfin
    apply hid
    apply List.mem_map_of_mem
    rw [hev, mem_oldest_of_length_le hfew.le]
    exact List.mem_filter.mpr ⟨(it.order_perm r.map).mem_iff.mpr hmem, hfin⟩
  · left
    rw [hev, length_oldest, min_eq_left hmany] at hlen
    omega

/-- No entry read finished and kept is older than one evicted. -/
theorem evicted_oldest (hx : x ∈ r.evicted it) (hy : y ∈ r.map) (hny : y ∉ r.evicted it)
    (hfin : (it.atSecond y).isFinished = true) : x.creationTime ≤ y.creationTime := by
  unfold evicted at hx hny
  split at hx
  · cases hx
  · next hcap =>
    rw [if_neg hcap] at hny
    apply time_le_of_mem_oldest hx _ hny
    exact List.mem_filter.mpr ⟨(it.order_perm r.map).mem_iff.mpr hy, hfin⟩

/-! ### The in-flight cap -/

def inflight (r : OperationRegistry V) (wallet : String) : ℕ :=
  (r.map.filter fun e => e.wallet = wallet ∧ e.isFinished = false).length

/-- The wallet's operations that a call reads unfinished at its first look. -/
def inflightRead (r : OperationRegistry V) (wallet : String) (it : Interleaving V) : ℕ :=
  (r.map.filter fun e => e.wallet = wallet ∧ (it.atFirst e).isFinished = false).length

theorem not_isFinished_of_after {n : ℕ} (h : (x.after ts).isFinished = false) :
    (x.after (ts.take n)).isFinished = false :=
  Bool.eq_false_iff.mpr fun hfin =>
    Bool.eq_false_iff.mp h (OperationEntry.isFinished_after hfin)

theorem inflight_eq_countP : r.inflight wallet =
    r.map.countP fun e => e.wallet = wallet ∧ e.isFinished = false :=
  List.countP_eq_length_filter.symm

theorem inflight_settle_le_countP {q : OperationEntry V → Bool}
    (h : ∀ x ∈ r.map, x.wallet = wallet → (x.after ts).isFinished = false → q x = true) :
    (r.settle ts).inflight wallet ≤ r.map.countP q := by
  rw [inflight_eq_countP]
  change (r.map.map (·.after ts)).countP _ ≤ _
  rw [List.countP_map]
  apply List.countP_mono_left
  intro x hx hp
  obtain ⟨hw, hfin⟩ := of_decide_eq_true hp
  exact h x hx hw hfin

theorem inflight_settle_le : (r.settle ts).inflight wallet ≤ r.inflight wallet := by
  rw [r.inflight_eq_countP]
  apply inflight_settle_le_countP
  intro x hx hw hfin
  have hnow : x.isFinished = false := not_isFinished_of_after (n := 0) hfin
  exact decide_eq_true ⟨hw, hnow⟩

theorem countP_remove_le {gone : List OperationId} {q : OperationEntry V → Bool} :
    (r.remove gone).map.countP q ≤ r.map.countP q :=
  List.filter_sublist.countP_le

theorem inflight_remove_le {gone : List OperationId} :
    (r.remove gone).inflight wallet ≤ r.inflight wallet := by
  rw [inflight_eq_countP, inflight_eq_countP]
  exact countP_remove_le

theorem inflight_insertOp_le {w : String} {context : Option (ContextInfo V)} {now : SystemTime}
    (hcap : r.inflight w ≤ maxInflightOperationsPerWallet)
    (hread : r.inflightRead wallet it < maxInflightOperationsPerWallet) :
    ((r.insertOp wallet context now it).settle it.during).inflight w ≤
      maxInflightOperationsPerWallet := by
  rcases eq_or_ne w wallet with rfl | hne
  · calc ((r.insertOp w context now it).settle it.during).inflight w
        ≤ (r.insertOp w context now it).map.countP
            fun e => e.wallet = w ∧ (it.atFirst e).isFinished = false := by
          apply inflight_settle_le_countP
          intro x hx hw hfin
          exact decide_eq_true ⟨hw, not_isFinished_of_after hfin⟩
      _ ≤ (r.push w context now).map.countP
            fun e => e.wallet = w ∧ (it.atFirst e).isFinished = false := countP_remove_le
      _ ≤ r.inflightRead w it + 1 := by
          change (r.map ++ [_]).countP _ ≤ _
          rw [List.countP_append, inflightRead, ← List.countP_eq_length_filter]
          exact Nat.add_le_add_left List.countP_le_length _
      _ ≤ maxInflightOperationsPerWallet := hread
  · calc ((r.insertOp wallet context now it).settle it.during).inflight w
        ≤ (r.insertOp wallet context now it).inflight w := inflight_settle_le
      _ ≤ (r.push wallet context now).inflight w := inflight_remove_le
      _ = r.inflight w := by
          change ((r.map ++ [_]).filter _).length = _
          rw [List.filter_append, List.filter_cons_of_neg, List.filter_nil, List.append_nil]
          · rfl
          · simp [hne.symm]
      _ ≤ maxInflightOperationsPerWallet := hcap

theorem inflight_handle_le (hcap : r.inflight wallet ≤ maxInflightOperationsPerWallet) :
    (r.handle e).1.inflight wallet ≤ maxInflightOperationsPerWallet := by
  cases e with
  | tryInsert w context now it =>
    simp only [handle, tryInsert]
    split
    · exact inflight_settle_le.trans hcap
    · next hread => exact inflight_insertOp_le hcap (not_le.mp hread)
  | takeResults w ids it => exact inflight_settle_le.trans (inflight_remove_le.trans hcap)
  | status | statusOf | listIds | task => exact inflight_settle_le.trans hcap

/-! ### What the calls return -/

variable {ids : Option (List OperationId)} {extra : AsyncOperation V → Bool}
  {st : OperationStatus V} {id : OperationId}

theorem map_snd_sortByTime {α β : Type*} (l : List α) (time : α → SystemTime) (f : α → β) :
    ((sortByTime Prod.fst (l.map fun x => (time x, f x))).map Prod.snd).Perm (l.map f) := by
  refine (sortByTime_perm.map Prod.snd).trans (List.Perm.of_eq ?_)
  rw [List.map_map]
  rfl

theorem mem_collect (h : st ∈ r.collect wallet ids it extra) :
    ∃ x ∈ r.map, x.wallet = wallet ∧ extra (it.atFirst x).op = true ∧
      st = (it.atSecond x).op.toStatus := by
  have hst := (map_snd_sortByTime _ _ _).mem_iff.mp h
  obtain ⟨x, hx, rfl⟩ := List.mem_map.mp hst
  obtain ⟨hx, hp⟩ := List.mem_filter.mp hx
  obtain ⟨hw, -, hextra⟩ := of_decide_eq_true hp
  exact ⟨x, (it.order_perm r.map).mem_iff.mp hx, hw, hextra, rfl⟩

theorem toStatus_atSecond_id : (it.atSecond x).op.toStatus.id = x.id :=
  Interleaving.atSecond_id

theorem collect_nodup : ((r.collect wallet ids it extra).map OperationStatus.id).Nodup := by
  refine (((map_snd_sortByTime _ _ _).map OperationStatus.id).nodup_iff).mpr ?_
  rw [List.map_map]
  have hids : ((it.order r.map).map OperationEntry.id).Nodup :=
    ((it.order_perm r.map).map _).nodup_iff.mpr r.nodup
  have hfun : OperationStatus.id ∘ (fun e : OperationEntry V => (it.atSecond e).op.toStatus) =
      OperationEntry.id := funext fun _ => toStatus_atSecond_id
  rw [hfun]
  exact hids.sublist (List.filter_sublist.map _)

theorem mem_listIds {f : Option String} (h : id ∈ (r.listIds wallet f it).2) :
    ∃ x ∈ r.map, x.wallet = wallet ∧ x.id = id := by
  obtain ⟨x, hx, rfl⟩ := List.mem_map.mp ((map_snd_sortByTime _ _ _).mem_iff.mp h)
  obtain ⟨hx, hp⟩ := List.mem_filter.mp hx
  exact ⟨x, (it.order_perm r.map).mem_iff.mp hx, (of_decide_eq_true hp).1, rfl⟩

theorem mem_statusOf (h : st ∈ (r.statusOf wallet id it).2) :
    ∃ x ∈ r.map, x.wallet = wallet ∧ x.id = st.id := by
  obtain ⟨x, hx, rfl⟩ := Option.map_eq_some_iff.mp h
  have hp : x.id = id ∧ x.wallet = wallet := by simpa using List.find?_some hx
  exact ⟨x, List.mem_of_find?_eq_some hx, hp.2, Interleaving.atFirst_id.symm⟩

end OperationRegistry

/-! ### The laws of one call -/

def Event.caller : Event V → Option String
  | .tryInsert wallet _ _ _ | .status wallet _ _ | .statusOf wallet _ _
  | .takeResults wallet _ _ | .listIds wallet _ _ => some wallet
  | .task _ => none

/-- What the tasks do while the event is handled. -/
def Event.during : Event V → List (Transition V)
  | .tryInsert _ _ _ it | .status _ _ it | .statusOf _ _ it | .takeResults _ _ it
  | .listIds _ _ it => it.during
  | .task t => [t]

def Call.named (c : Call V) : List OperationId :=
  match c.answer with
  | .inserted (.ok id) => [id]
  | .inserted (.error _) => []
  | .statuses l | .taken l => l.map OperationStatus.id
  | .ids l => l

/-- The ids whose results a call hands out for good. -/
def Call.reaped (c : Call V) : List OperationId :=
  match c.answer with
  | .taken l => l.map OperationStatus.id
  | _ => []

/-- The ids a call tells its wallet about, other than one it just launched. -/
def Call.returned (c : Call V) : List OperationId :=
  match c.answer with
  | .inserted _ => []
  | _ => c.named

/-- An entry leaves once read finished, taken by its own wallet or evicted by an insertion. -/
def Leaves (x : OperationEntry V) : Event V → Prop
  | .takeResults wallet _ it => x.wallet = wallet ∧ (it.atFirst x).isFinished = true
  | .tryInsert _ _ _ it => (it.atSecond x).isFinished = true
  | _ => False

/-- What every event does to the registry, and what it answers. -/
structure CallLaws (r : OperationRegistry V) (e : Event V) : Prop where
  kept : ∀ x ∈ r.map, x.after e.during ∈ (r.handle e).1.map ∨
    x.id ∉ (r.handle e).1.ids ∧ Leaves x e
  answered : ∀ c ∈ (r.handle e).2, e.caller = some c.wallet ∧
    ∀ id ∈ c.returned, ∃ x ∈ r.map, x.id = id ∧ x.wallet = c.wallet
  capped : ∀ wallet context now it, e = .tryInsert wallet context now it →
    (r.tryInsert wallet context now it).2.isOk = true →
      (r.handle e).1.map.length ≤ maxOperations ∨
        ∀ x ∈ (r.push wallet context now).map, x.id ∈ (r.handle e).1.ids →
          (it.atSecond x).isFinished = false
  oldestFirst : ∀ wallet context now it, e = .tryInsert wallet context now it →
    (r.tryInsert wallet context now it).2.isOk = true →
      ∀ x ∈ (r.push wallet context now).map, x.id ∉ (r.handle e).1.ids →
        (it.atSecond x).isFinished = true ∧
        ∀ y ∈ (r.push wallet context now).map, y.id ∈ (r.handle e).1.ids →
          (it.atSecond y).isFinished = true → x.creationTime ≤ y.creationTime
  taken : ∀ wallet ids it, e = .takeResults wallet ids it →
    (∀ st ∈ (r.takeResults wallet ids it).2, st.status.isFinished = true) ∧
    ∀ x ∈ r.map, x.id ∉ (r.handle e).1.ids →
      x.id ∈ (r.takeResults wallet ids it).2.map OperationStatus.id

namespace OperationRegistry

theorem settle_keeps (hx : x ∈ r.map) : x.after ts ∈ (r.settle ts).map :=
  mem_settle.mpr ⟨x, hx, rfl⟩

theorem remove_settle_keeps {gone : List OperationId} (hx : x ∈ r.map) (hid : x.id ∉ gone) :
    x.after ts ∈ ((r.remove gone).settle ts).map :=
  settle_keeps (mem_remove.mpr ⟨hx, hid⟩)

theorem mem_evicted_of_id (hx : x ∈ r.map)
    (hid : x.id ∈ (r.evicted it).map OperationEntry.id) : x ∈ r.evicted it := by
  obtain ⟨y, hy, hyx⟩ := List.mem_map.mp hid
  rwa [← eq_of_id (mem_evicted hy).1 hx hyx]

theorem mem_evictIfOverCap_ids (hx : x ∈ r.map) :
    x.id ∈ (r.evictIfOverCap it).ids ↔ x ∉ r.evicted it := by
  constructor
  · rintro hid hev
    exact notMem_remove_ids (List.mem_map_of_mem hev) hid
  · intro hev
    apply mem_ids
    exact mem_remove.mpr ⟨hx, fun hid => hev (mem_evicted_of_id hx hid)⟩

theorem mem_push {context : Option (ContextInfo V)} {now : SystemTime} (hx : x ∈ r.map) :
    x ∈ (r.push wallet context now).map := List.mem_append_left _ hx

theorem tryInsert_cases (wallet : String) (context : Option (ContextInfo V)) (now : SystemTime)
    (it : Interleaving V) :
    (∃ err, r.tryInsert wallet context now it = (r.settle it.during, .error err)) ∨
    r.tryInsert wallet context now it =
      ((r.insertOp wallet context now it).settle it.during, .ok r.nextId) := by
  simp only [tryInsert]
  split
  · exact Or.inl ⟨_, rfl⟩
  · exact Or.inr rfl

theorem handle_kept (r : OperationRegistry V) (e : Event V) (x : OperationEntry V)
    (hx : x ∈ r.map) :
    x.after e.during ∈ (r.handle e).1.map ∨ x.id ∉ (r.handle e).1.ids ∧ Leaves x e := by
  cases e with
  | tryInsert wallet context now it =>
    rcases r.tryInsert_cases wallet context now it with ⟨err, h⟩ | h <;> simp only [handle, h]
    · exact Or.inl (settle_keeps hx)
    · by_cases hev : x ∈ (r.push wallet context now).evicted it
      · refine Or.inr ⟨?_, (mem_evicted hev).2⟩
        rw [settle_ids]
        exact notMem_remove_ids (List.mem_map_of_mem hev)
      · exact Or.inl (remove_settle_keeps (mem_push hx)
          fun hid => hev (mem_evicted_of_id (mem_push hx) hid))
  | takeResults wallet ids it =>
    by_cases hid : x.id ∈ (r.takeResults wallet ids it).2.map OperationStatus.id
    · right
      constructor
      · simp only [handle, takeResults, settle_ids]
        exact notMem_remove_ids hid
      · obtain ⟨st, hst, hstx⟩ := List.mem_map.mp hid
        have hst : st ∈ r.collect wallet ids it fun op => op.data.state.isFinished := hst
        obtain ⟨y, hy, hw, hfin, rfl⟩ := mem_collect hst
        obtain rfl := eq_of_id hy hx (toStatus_atSecond_id.symm.trans hstx)
        exact ⟨hw, hfin⟩
    · exact Or.inl (remove_settle_keeps hx hid)
  | status | statusOf | listIds | task => exact Or.inl (settle_keeps hx)

theorem handle_answered (r : OperationRegistry V) (e : Event V) (c : Call V)
    (hc : c ∈ (r.handle e).2) : e.caller = some c.wallet ∧
      ∀ id ∈ c.returned, ∃ x ∈ r.map, x.id = id ∧ x.wallet = c.wallet := by
  have hcollect : ∀ {wallet ids it} {extra : AsyncOperation V → Bool},
      ∀ id ∈ (r.collect wallet ids it extra).map OperationStatus.id,
        ∃ x ∈ r.map, x.id = id ∧ x.wallet = wallet := by
    rintro wallet ids it extra id hid
    obtain ⟨st, hst, rfl⟩ := List.mem_map.mp hid
    obtain ⟨x, hx, hw, -, rfl⟩ := mem_collect hst
    exact ⟨x, hx, toStatus_atSecond_id.symm, hw⟩
  cases e with
  | tryInsert wallet context now it =>
    obtain rfl := Option.some.inj hc
    exact ⟨rfl, fun id hid => absurd hid List.not_mem_nil⟩
  | status wallet ids it =>
    obtain rfl := Option.some.inj hc
    exact ⟨rfl, hcollect⟩
  | statusOf wallet id it =>
    obtain rfl := Option.some.inj hc
    refine ⟨rfl, fun id hid => ?_⟩
    obtain ⟨st, hst, rfl⟩ := List.mem_map.mp hid
    obtain ⟨x, hx, hw, hid⟩ := mem_statusOf (Option.mem_toList.mp hst)
    exact ⟨x, hx, hid, hw⟩
  | takeResults wallet ids it =>
    obtain rfl := Option.some.inj hc
    exact ⟨rfl, hcollect⟩
  | listIds wallet f it =>
    obtain rfl := Option.some.inj hc
    refine ⟨rfl, fun id hid => ?_⟩
    obtain ⟨x, hx, hw, hid⟩ := mem_listIds hid
    exact ⟨x, hx, hid, hw⟩
  | task t => cases hc

theorem handle_lawful (r : OperationRegistry V) (e : Event V) : CallLaws r e where
  kept := r.handle_kept e
  answered := r.handle_answered e
  capped := by
    rintro wallet context now it rfl hok
    rcases r.tryInsert_cases wallet context now it with ⟨err, h⟩ | h
    · rw [h] at hok
      cases hok
    simp only [handle, h, settle_ids, settle_length]
    apply evictIfOverCap_settles.imp_right
    intro hkept x hx hid
    apply hkept x
    apply mem_remove.mpr
    exact ⟨hx, fun hgone => notMem_remove_ids hgone hid⟩
  oldestFirst := by
    rintro wallet context now it rfl hok x hx hid
    rcases r.tryInsert_cases wallet context now it with ⟨err, h⟩ | h
    · rw [h] at hok
      cases hok
    simp only [handle, h, settle_ids] at hid ⊢
    have hev : x ∈ (r.push wallet context now).evicted it := by
      by_contra hev
      exact hid ((mem_evictIfOverCap_ids hx).mpr hev)
    refine ⟨(mem_evicted hev).2, fun y hy hyid hfin => ?_⟩
    exact evicted_oldest hev hy ((mem_evictIfOverCap_ids hy).mp hyid) hfin
  taken := by
    rintro wallet ids it rfl
    constructor
    · intro st hst
      have hst : st ∈ r.collect wallet ids it fun op => op.data.state.isFinished := hst
      obtain ⟨x, -, -, hfin, rfl⟩ := mem_collect hst
      exact Interleaving.atSecond_isFinished hfin
    · intro x hx hid
      by_contra hkept
      apply hid
      rw [← OperationEntry.after_id]
      exact mem_ids (remove_settle_keeps hx hkept)

/-! ### Ids over time -/

variable {id : OperationId}

theorem remove_ids_subset {gone : List OperationId} : (r.remove gone).ids ⊆ r.ids :=
  (List.filter_sublist.map _).subset

theorem push_ids {context : Option (ContextInfo V)} {now : SystemTime} :
    (r.push wallet context now).ids = r.ids ++ [r.nextId] := List.map_append

theorem nextId_le_handle : r.nextId ≤ (r.handle e).1.nextId := by
  cases e with
  | tryInsert wallet context now it =>
    rcases r.tryInsert_cases wallet context now it with ⟨err, h⟩ | h <;> simp only [handle, h]
    · exact le_rfl
    · exact Nat.le_succ _
  | status | statusOf | takeResults | listIds | task => exact le_rfl

theorem handle_ids (h : id ∈ (r.handle e).1.ids) : id ∈ r.ids ∨ r.nextId ≤ id := by
  cases e with
  | tryInsert wallet context now it =>
    rcases r.tryInsert_cases wallet context now it with ⟨err, hr⟩ | hr <;>
      simp only [handle, hr, settle_ids] at h
    · exact Or.inl h
    · have hpush : id ∈ r.ids ++ [r.nextId] := push_ids ▸ remove_ids_subset h
      exact (List.mem_append.mp hpush).imp_right fun hnew => (List.mem_singleton.mp hnew).ge
  | takeResults wallet ids it =>
    simp only [handle, takeResults, settle_ids] at h
    exact Or.inl (remove_ids_subset h)
  | status | statusOf | listIds | task => exact Or.inl (settle_ids ▸ h)

theorem handle_named {c : Call V} (hc : c ∈ (r.handle e).2) (hid : id ∈ c.named) :
    (id ∈ r.ids ∨ r.nextId ≤ id) ∧ id < (r.handle e).1.nextId := by
  by_cases hret : id ∈ c.returned
  · obtain ⟨x, hx, rfl, -⟩ := (r.handle_answered e c hc).2 id hret
    exact ⟨Or.inl (mem_ids hx), (r.fresh x hx).trans_le nextId_le_handle⟩
  · cases e with
    | tryInsert wallet context now it =>
      rcases r.tryInsert_cases wallet context now it with ⟨err, h⟩ | h <;>
        simp only [handle, h] at hc ⊢ <;> obtain rfl := Option.some.inj hc
      · cases hid
      · obtain rfl := List.mem_singleton.mp hid
        exact ⟨Or.inr le_rfl, Nat.lt_succ_self _⟩
    | task t => cases hc
    | status | statusOf | takeResults | listIds =>
      obtain rfl := Option.some.inj hc
      exact absurd hid hret

theorem handle_reaped {c : Call V} (hc : c ∈ (r.handle e).2) :
    c.reaped.Nodup ∧ ∀ id ∈ c.reaped, id ∉ (r.handle e).1.ids := by
  cases e with
  | takeResults wallet ids it =>
    obtain rfl := Option.some.inj hc
    refine ⟨collect_nodup, fun id hid => ?_⟩
    simp only [handle, takeResults, settle_ids]
    exact notMem_remove_ids hid
  | task t => cases hc
  | tryInsert | status | statusOf | listIds =>
    obtain rfl := Option.some.inj hc
    exact ⟨List.nodup_nil, fun id hid => absurd hid List.not_mem_nil⟩

end OperationRegistry

/-! ### Whole runs -/

theorem Call.named_of_reaped {c : Call V} {id : OperationId} (h : id ∈ c.reaped) :
    id ∈ c.named := by
  unfold Call.reaped at h
  split at h
  · next hc => simpa only [Call.named, hc] using h
  · cases h

/-- A result is handed out by one call, and no later call knows the operation. -/
structure TakenOnce (calls : List (Call V)) : Prop where
  nodup : ∀ c ∈ calls, c.reaped.Nodup
  absent : calls.Pairwise fun c c' => ∀ id ∈ c.reaped, id ∉ c'.named

/-- The calls answered so far against the ids in use. -/
structure Logged (s : State V) : Prop where
  below : ∀ c ∈ s.calls, ∀ id ∈ c.named, id < s.registry.nextId
  gone : ∀ c ∈ s.calls, ∀ id ∈ c.reaped, id ∉ s.registry.ids
  once : TakenOnce s.calls

namespace State

variable {s : State V}

theorem mem_calls_step {c : Call V} :
    c ∈ (s.step e).calls ↔ c ∈ s.calls ∨ c ∈ (s.registry.handle e).2 := by
  rw [step, List.mem_append, Option.mem_toList, Option.mem_def]

theorem logged_init : Logged (init : State V) where
  below _ hc := absurd hc List.not_mem_nil
  gone _ hc := absurd hc List.not_mem_nil
  once := ⟨fun _ hc => absurd hc List.not_mem_nil, List.Pairwise.nil⟩

theorem logged_step (h : Logged s) : Logged (s.step e) where
  below c hc id hid := by
    rcases mem_calls_step.mp hc with hc | hc
    · exact (h.below c hc id hid).trans_le OperationRegistry.nextId_le_handle
    · exact (OperationRegistry.handle_named hc hid).2
  gone c hc id hid := by
    rcases mem_calls_step.mp hc with hc | hc
    · intro hmem
      rcases OperationRegistry.handle_ids hmem with hold | hnew
      · exact h.gone c hc id hid hold
      · exact absurd (h.below c hc id (Call.named_of_reaped hid)) (not_lt.mpr hnew)
    · exact (OperationRegistry.handle_reaped hc).2 id hid
  once := by
    constructor
    · intro c hc
      rcases mem_calls_step.mp hc with hc | hc
      · exact h.once.nodup c hc
      · exact (OperationRegistry.handle_reaped hc).1
    · apply List.pairwise_append.mpr
      refine ⟨h.once.absent, ?_, ?_⟩
      · cases (s.registry.handle e).2 with
        | none => exact List.Pairwise.nil
        | some c => exact List.pairwise_singleton _ c
      · intro c hc c' hc' id hid hnamed
        rcases (OperationRegistry.handle_named (Option.mem_toList.mp hc') hnamed).1 with hold | hnew
        · exact h.gone c hc id hid hold
        · exact absurd (h.below c hc id (Call.named_of_reaped hid)) (not_lt.mpr hnew)

theorem run_logged (es : List (Event V)) : Logged (Runs.run step init es) :=
  Runs.invariant (P := fun _ _ => True) (fun _ _ h _ => logged_step h) logged_init
    (Runs.along_of_always fun _ _ => trivial)

theorem run_inflight (es : List (Event V)) (wallet : String) :
    (Runs.run step init es).registry.inflight wallet ≤ maxInflightOperationsPerWallet := by
  have hinit : (init : State V).registry.inflight wallet ≤ maxInflightOperationsPerWallet :=
    Nat.zero_le _
  exact Runs.invariant (P := fun _ _ => True)
    (I := fun s : State V => s.registry.inflight wallet ≤ maxInflightOperationsPerWallet)
    (fun _ _ h _ => OperationRegistry.inflight_handle_le h) hinit
    (Runs.along_of_always fun _ _ => trivial)

end State

/-! ### A task that finishes under an insertion -/

namespace Stranded

/-- Wallets apart by the lengths of their names. -/
def walletName (i : ℕ) : String := String.ofList (List.replicate i 'w')

def quiet : Interleaving ℕ where
  during := []
  first _ := 0
  second _ := 0
  first_le_second _ := le_rfl
  order := id
  order_perm := List.Perm.refl

/-- Operation 0 runs while the map is walked, after its entry was passed. -/
def busy : Interleaving ℕ := { quiet with during := [.start 0 1, .finish 0 2 (.ok 0)] }

def queued (i : ℕ) : OperationEntry ℕ := ⟨walletName i, .new i none 0⟩

/-- One operation for each of `n` wallets, none of which gets to run. -/
def launches (n : ℕ) : List (Event ℕ) :=
  (List.range n).map fun i => .tryInsert (walletName i) none 0 quiet

theorem walletName_injective : Function.Injective walletName := by
  intro i j h
  have hlist : List.replicate i 'w' = List.replicate j 'w' := by
    simpa only [walletName, String.toList_ofList] using congrArg String.toList h
  simpa only [List.length_replicate] using congrArg List.length hlist

/-- An insertion that reads no entry finished keeps every entry. -/
theorem insert_of_unread {r : OperationRegistry ℕ} {n : ℕ} (it : Interleaving ℕ)
    (hmap : r.map = (List.range n).map queued) (hnext : r.nextId = n)
    (hread : ∀ x, it.atSecond x = x) :
    (r.tryInsert (walletName n) none 0 it).1.map =
        ((List.range (n + 1)).map queued).map (·.after it.during) ∧
      (r.tryInsert (walletName n) none 0 it).2 = .ok n ∧
      (r.tryInsert (walletName n) none 0 it).1.nextId = n + 1 := by
  have hpush : (r.push (walletName n) none 0).map = (List.range (n + 1)).map queued := by
    rw [List.range_succ, List.map_append, ← hmap, List.map_singleton, queued, ← hnext]
    rfl
  have hev : (r.push (walletName n) none 0).evicted it = [] := by
    apply List.eq_nil_iff_forall_not_mem.mpr
    intro x hx
    obtain ⟨hx, hfin⟩ := OperationRegistry.mem_evicted hx
    rw [hpush] at hx
    obtain ⟨i, -, rfl⟩ := List.mem_map.mp hx
    rw [hread] at hfin
    cases hfin
  have hins : (r.insertOp (walletName n) none 0 it).map = (List.range (n + 1)).map queued := by
    rw [← hpush]
    apply List.filter_eq_self.mpr
    intro x _
    rw [hev]
    rfl
  have hcount : ¬ r.inflightRead (walletName n) it ≥ maxInflightOperationsPerWallet := by
    have hnone : r.inflightRead (walletName n) it = 0 := by
      apply List.length_eq_zero_iff.mpr
      apply List.filter_eq_nil_iff.mpr
      intro x hx hp
      rw [hmap] at hx
      obtain ⟨i, hi, rfl⟩ := List.mem_map.mp hx
      have hw : i = n := walletName_injective (of_decide_eq_true hp).1
      exact absurd (List.mem_range.mp hi) hw.not_lt
    rw [hnone]
    decide
  have hins' : r.tryInsert (walletName n) none 0 it =
      ((r.insertOp (walletName n) none 0 it).settle it.during, .ok r.nextId) := if_neg hcount
  rw [hins', ← hins, ← hnext]
  exact ⟨rfl, rfl, rfl⟩

theorem run_launches (n : ℕ) :
    (Runs.run State.step State.init (launches n)).registry.map = (List.range n).map queued ∧
      (Runs.run State.step State.init (launches n)).registry.nextId = n := by
  induction n with
  | zero => exact ⟨rfl, rfl⟩
  | succ n ih =>
    obtain ⟨hmap, -, hnext⟩ := insert_of_unread quiet ih.1 ih.2 fun _ => rfl
    rw [launches, List.range_succ, List.map_append, Runs.run_append]
    refine ⟨?_, hnext⟩
    apply hmap.trans
    rw [List.range_succ]
    exact List.map_id _

theorem run_strands (n : ℕ) :
    let s := Runs.run State.step State.init (launches n)
    (s.registry.tryInsert (walletName n) none 0 busy).2 = .ok n ∧
    (s.step (.tryInsert (walletName n) none 0 busy)).registry.map.length = n + 1 ∧
    ∃ x ∈ (s.step (.tryInsert (walletName n) none 0 busy)).registry.map, x.isFinished = true := by
  intro s
  obtain ⟨hmap, hnext⟩ := run_launches n
  obtain ⟨hafter, hok, -⟩ := insert_of_unread busy hmap hnext fun _ => rfl
  have hstep : (s.step (.tryInsert (walletName n) none 0 busy)).registry.map =
      ((List.range (n + 1)).map queued).map (·.after busy.during) := hafter
  rw [hstep]
  refine ⟨hok, ?_, (queued 0).after busy.during, ?_, rfl⟩
  · rw [List.length_map, List.length_map, List.length_range]
  · exact List.mem_map_of_mem (List.mem_map_of_mem (List.mem_range.mpr (Nat.succ_pos n)))

end Stranded

/-- An insertion can leave more entries than the cap with a finished one among them: its task
finished after its entry was read. -/
theorem insertion_strands_finished :
    ¬ ∀ (es : List (Event ℕ)) (wallet : String) (context : Option (ContextInfo ℕ))
        (now : SystemTime) (it : Interleaving ℕ),
      ((Runs.run State.step State.init es).registry.tryInsert wallet context now it).2.isOk →
      let s := (Runs.run State.step State.init es).step (.tryInsert wallet context now it)
      s.registry.map.length ≤ maxOperations ∨ ∀ x ∈ s.registry.map, x.isFinished = false := by
  intro hclaim
  obtain ⟨hok, hlen, x, hx, hfin⟩ := Stranded.run_strands maxOperations
  rcases hclaim (Stranded.launches maxOperations) (Stranded.walletName maxOperations) none 0
    Stranded.busy (by rw [hok]; rfl) with hle | hall
  · exact absurd (hlen.ge.trans hle) (Nat.not_succ_le_self _)
  · exact absurd hfin (Bool.eq_false_iff.mp (hall x hx))

/-- In every run each wallet stays within its cap, every event keeps the laws of one call, and
every result is handed out once. -/
theorem operations_lawful (es : List (Event V)) :
    (∀ wallet, (Runs.run State.step State.init es).registry.inflight wallet ≤
      maxInflightOperationsPerWallet) ∧
    (∀ e, CallLaws (Runs.run State.step State.init es).registry e) ∧
    TakenOnce (Runs.run State.step State.init es).calls :=
  ⟨State.run_inflight es, OperationRegistry.handle_lawful _, (State.run_logged es).once⟩

end Zecd.Operations
