import Mathlib
import Zecd.Foundation.Oldest
import Zecd.Rpc.Error

/-! # Asynchronous operations

The in-memory registry behind `z_sendmany` and its tracking calls. A call holds the registry's
lock throughout, but every operation keeps its state behind a lock of its own, so the tasks go
on while a call walks the registry: an `Interleaving` says what they did meanwhile and how much
of it the call saw at each entry.
-/

namespace Zecd.Operations

variable {V : Type*}

/-- Nanoseconds since the Unix epoch. -/
abbrev SystemTime := ℤ

/-- A drawn UUID, named by when it was drawn. -/
abbrev OperationId := ℕ

def maxOperations : ℕ := 1024
def maxInflightOperationsPerWallet : ℕ := 16

inductive OperationState
  | ready
  | executing
  | cancelled
  | failed
  | success
  deriving DecidableEq, Repr

namespace OperationState

def asStr : OperationState → String
  | ready => "queued"
  | executing => "executing"
  | cancelled => "cancelled"
  | failed => "failed"
  | success => "success"

def isFinished : OperationState → Bool
  | ready | executing => false
  | cancelled | failed | success => true

end OperationState

structure ContextInfo (V : Type*) where
  method : String
  params : V

structure OperationData (V : Type*) where
  state : OperationState
  startTime : Option SystemTime
  endTime : Option SystemTime
  result : Option (Except RpcError V)

structure AsyncOperation (V : Type*) where
  operationId : OperationId
  context : Option (ContextInfo V)
  creationTime : SystemTime
  data : OperationData V

/-- A critical section of the task that drives one operation. -/
inductive Transition (V : Type*)
  | start (id : OperationId) (now : SystemTime)
  | finish (id : OperationId) (endTime : SystemTime) (res : Except RpcError V)

structure OperationError where
  code : ℤ
  message : String

structure OperationStatus (V : Type*) where
  id : OperationId
  method : Option String
  params : Option V
  status : OperationState
  creationTime : ℕ
  error : Option OperationError
  result : Option V
  executionSecs : Option ℕ

/-- Whole seconds from one time to a later one, none when the clock went back. -/
def secsSince (later earlier : SystemTime) : ℕ := ((later - earlier) / 1000000000).toNat

namespace AsyncOperation

def new (id : OperationId) (context : Option (ContextInfo V)) (now : SystemTime) :
    AsyncOperation V :=
  ⟨id, context, now, ⟨.ready, none, none, none⟩⟩

/-- The task runs once, so the state tells which of its critical sections comes next. -/
def advance (op : AsyncOperation V) : Transition V → AsyncOperation V
  | .start id now =>
    if id = op.operationId ∧ op.data.state = .ready then
      { op with data := { op.data with state := .executing, startTime := some now } }
    else op
  | .finish id endTime res =>
    if id = op.operationId ∧ op.data.state = .executing then
      { op with data := { op.data with
          state := if res.isOk then .success else .failed
          endTime := some endTime
          result := some res } }
    else op

def after (op : AsyncOperation V) (ts : List (Transition V)) : AsyncOperation V :=
  ts.foldl advance op

def toStatus (op : AsyncOperation V) : OperationStatus V where
  id := op.operationId
  method := op.context.map ContextInfo.method
  params := op.context.map ContextInfo.params
  status := op.data.state
  creationTime := secsSince op.creationTime 0
  error := match op.data.result with
    | some (.error e) => some ⟨e.code, e.message⟩
    | _ => none
  result := match op.data.result with
    | some (.ok v) => some v
    | _ => none
  executionSecs := match op.data.result, op.data.endTime, op.data.startTime with
    | some (.ok _), some stop, some start => some (secsSince stop start)
    | _, _, _ => none

end AsyncOperation

structure OperationEntry (V : Type*) where
  wallet : String
  op : AsyncOperation V

namespace OperationEntry

def id (e : OperationEntry V) : OperationId := e.op.operationId
def creationTime (e : OperationEntry V) : SystemTime := e.op.creationTime
def isFinished (e : OperationEntry V) : Bool := e.op.data.state.isFinished
def after (e : OperationEntry V) (ts : List (Transition V)) : OperationEntry V :=
  { e with op := e.op.after ts }

end OperationEntry

/-- The map from operation ids to entries. An id is drawn fresh for each operation. -/
structure OperationRegistry (V : Type*) where
  map : List (OperationEntry V)
  nextId : OperationId
  nodup : (map.map OperationEntry.id).Nodup
  fresh : ∀ e ∈ map, e.id < nextId

/-- What happens beside a call that holds the map: the transitions of the tasks, how many of
them an entry's state reflects at the call's first and second look at it, and the order in
which the map is walked. -/
structure Interleaving (V : Type*) where
  during : List (Transition V)
  first : OperationId → ℕ
  second : OperationId → ℕ
  first_le_second : ∀ id, first id ≤ second id
  order : List (OperationEntry V) → List (OperationEntry V)
  order_perm : ∀ map, (order map).Perm map

namespace Interleaving

variable (it : Interleaving V)

def atFirst (e : OperationEntry V) : OperationEntry V := e.after (it.during.take (it.first e.id))
def atSecond (e : OperationEntry V) : OperationEntry V := e.after (it.during.take (it.second e.id))

end Interleaving

section Lemmas

variable {op : AsyncOperation V} {e : OperationEntry V} {t : Transition V}
  {ts ts' : List (Transition V)} {it : Interleaving V}

theorem AsyncOperation.advance_operationId : (op.advance t).operationId = op.operationId := by
  cases t <;> simp only [AsyncOperation.advance] <;> split <;> rfl

theorem AsyncOperation.advance_creationTime : (op.advance t).creationTime = op.creationTime := by
  cases t <;> simp only [AsyncOperation.advance] <;> split <;> rfl

theorem AsyncOperation.advance_of_isFinished (h : op.data.state.isFinished = true) :
    op.advance t = op := by
  cases t with
  | start id now =>
    apply if_neg
    rintro ⟨-, hs⟩
    rw [hs] at h
    cases h
  | finish id now res =>
    apply if_neg
    rintro ⟨-, hs⟩
    rw [hs] at h
    cases h

@[simp] theorem AsyncOperation.after_nil : op.after [] = op := rfl

theorem AsyncOperation.after_append : op.after (ts ++ ts') = (op.after ts).after ts' :=
  List.foldl_append

@[simp] theorem AsyncOperation.after_operationId : (op.after ts).operationId = op.operationId := by
  induction ts generalizing op with
  | nil => rfl
  | cons t ts ih => exact ih.trans AsyncOperation.advance_operationId

@[simp] theorem AsyncOperation.after_creationTime :
    (op.after ts).creationTime = op.creationTime := by
  induction ts generalizing op with
  | nil => rfl
  | cons t ts ih => exact ih.trans AsyncOperation.advance_creationTime

theorem AsyncOperation.after_of_isFinished (h : op.data.state.isFinished = true) :
    op.after ts = op := by
  induction ts with
  | nil => rfl
  | cons t ts ih =>
    calc op.after (t :: ts) = (op.advance t).after ts := rfl
      _ = op.after ts := by rw [AsyncOperation.advance_of_isFinished h]
      _ = op := ih

@[simp] theorem AsyncOperation.toStatus_id : op.toStatus.id = op.operationId := rfl

@[simp] theorem OperationEntry.after_nil : e.after [] = e := rfl
@[simp] theorem OperationEntry.after_wallet : (e.after ts).wallet = e.wallet := rfl
@[simp] theorem OperationEntry.after_id : (e.after ts).id = e.id :=
  AsyncOperation.after_operationId
@[simp] theorem OperationEntry.after_creationTime : (e.after ts).creationTime = e.creationTime :=
  AsyncOperation.after_creationTime

theorem OperationEntry.after_append : e.after (ts ++ ts') = (e.after ts).after ts' := by
  simp only [OperationEntry.after, AsyncOperation.after_append]

theorem OperationEntry.after_of_isFinished (h : e.isFinished = true) : e.after ts = e := by
  rw [OperationEntry.after, AsyncOperation.after_of_isFinished h]

theorem OperationEntry.isFinished_mono {n m : ℕ} (hnm : n ≤ m)
    (h : (e.after (ts.take n)).isFinished = true) : (e.after (ts.take m)).isFinished = true := by
  have hsplit : ts.take m = ts.take n ++ (ts.take m).drop n := by
    have htake : (ts.take m).take n = ts.take n := by
      rw [List.take_take, min_eq_left hnm]
    rw [← htake, List.take_append_drop]
  rw [hsplit, OperationEntry.after_append, OperationEntry.after_of_isFinished h]
  exact h

theorem OperationEntry.isFinished_after {n : ℕ}
    (h : (e.after (ts.take n)).isFinished = true) : (e.after ts).isFinished = true := by
  rw [← List.take_append_drop n ts, OperationEntry.after_append,
    OperationEntry.after_of_isFinished h]
  exact h

@[simp] theorem Interleaving.atFirst_id : (it.atFirst e).id = e.id := OperationEntry.after_id
@[simp] theorem Interleaving.atSecond_id : (it.atSecond e).id = e.id := OperationEntry.after_id

theorem Interleaving.atSecond_isFinished (h : (it.atFirst e).isFinished = true) :
    (it.atSecond e).isFinished = true :=
  OperationEntry.isFinished_mono (it.first_le_second e.id) h

end Lemmas

namespace OperationRegistry

variable (r : OperationRegistry V)

def empty : OperationRegistry V := ⟨[], 0, List.nodup_nil, fun _ h => absurd h List.not_mem_nil⟩

def ids : List OperationId := r.map.map OperationEntry.id

theorem map_after_id (map : List (OperationEntry V)) (ts : List (Transition V)) :
    (map.map (·.after ts)).map OperationEntry.id = map.map OperationEntry.id := by
  rw [List.map_map]
  exact List.map_congr_left fun _ _ => OperationEntry.after_id

/-- The transitions of the tasks, in the entries the registry still holds. -/
def settle (ts : List (Transition V)) : OperationRegistry V where
  map := r.map.map (·.after ts)
  nextId := r.nextId
  nodup := by rw [map_after_id]; exact r.nodup
  fresh e he := by
    obtain ⟨x, hx, rfl⟩ := List.mem_map.mp he
    rw [OperationEntry.after_id]
    exact r.fresh x hx

def remove (gone : List OperationId) : OperationRegistry V where
  map := r.map.filter fun e => e.id ∉ gone
  nextId := r.nextId
  nodup := r.nodup.sublist (List.filter_sublist.map OperationEntry.id)
  fresh e he := r.fresh e (List.mem_of_mem_filter he)

/-- Launch an operation under a fresh id. -/
def push (wallet : String) (context : Option (ContextInfo V)) (now : SystemTime) :
    OperationRegistry V where
  map := r.map ++ [⟨wallet, .new r.nextId context now⟩]
  nextId := r.nextId + 1
  nodup := by
    rw [List.map_append, List.map_singleton]
    apply List.Nodup.append r.nodup (List.nodup_singleton _)
    rintro id hid hnew
    obtain ⟨e, he, rfl⟩ := List.mem_map.mp hid
    exact (r.fresh e he).ne (List.mem_singleton.mp hnew)
  fresh e he := by
    rcases List.mem_append.mp he with he | he
    · exact (r.fresh e he).trans (Nat.lt_succ_self _)
    · rw [List.mem_singleton.mp he]
      exact Nat.lt_succ_self _

/-- The finished entries an insertion drops: as many of the oldest as the map is over its cap. -/
def evicted (it : Interleaving V) : List (OperationEntry V) :=
  if r.map.length ≤ maxOperations then []
  else
    let finished := (it.order r.map).filter fun e => (it.atSecond e).isFinished
    let excess := r.map.length - maxOperations
    oldest OperationEntry.creationTime excess finished

def evictIfOverCap (it : Interleaving V) : OperationRegistry V :=
  r.remove ((r.evicted it).map OperationEntry.id)

def insertOp (wallet : String) (context : Option (ContextInfo V)) (now : SystemTime)
    (it : Interleaving V) : OperationRegistry V :=
  (r.push wallet context now).evictIfOverCap it

def tryInsert (wallet : String) (context : Option (ContextInfo V)) (now : SystemTime)
    (it : Interleaving V) : OperationRegistry V × Except RpcError OperationId :=
  let inflight :=
    (r.map.filter fun e => e.wallet = wallet ∧ (it.atFirst e).isFinished = false).length
  if inflight ≥ maxInflightOperationsPerWallet then
    (r.settle it.during, .error <| .wallet <|
      s!"Too many operations already in progress ({inflight}); the limit is " ++
      s!"{maxInflightOperationsPerWallet}. Wait for in-flight operations to finish " ++
      "before starting another.")
  else
    ((r.insertOp wallet context now it).settle it.during, .ok r.nextId)

/-- The status objects of the wallet's entries that are listed and pass `extra`. -/
def collect (wallet : String) (ids : Option (List OperationId)) (it : Interleaving V)
    (extra : AsyncOperation V → Bool) : List (OperationStatus V) :=
  let entries := (it.order r.map).filter fun e =>
    e.wallet = wallet ∧ (∀ l ∈ ids, e.id ∈ l) ∧ extra (it.atFirst e).op = true
  let statuses := entries.map fun e => (e.creationTime, (it.atSecond e).op.toStatus)
  (sortByTime Prod.fst statuses).map Prod.snd

def status (wallet : String) (ids : Option (List OperationId)) (it : Interleaving V) :
    OperationRegistry V × List (OperationStatus V) :=
  (r.settle it.during, r.collect wallet ids it fun _ => true)

def statusOf (wallet : String) (id : OperationId) (it : Interleaving V) :
    OperationRegistry V × Option (OperationStatus V) :=
  (r.settle it.during,
    (r.map.find? fun e => e.id = id ∧ e.wallet = wallet).map fun e => (it.atFirst e).op.toStatus)

def takeResults (wallet : String) (ids : Option (List OperationId)) (it : Interleaving V) :
    OperationRegistry V × List (OperationStatus V) :=
  let statuses := r.collect wallet ids it fun op => op.data.state.isFinished
  let returned := statuses.map OperationStatus.id
  ((r.remove returned).settle it.during, statuses)

def listIds (wallet : String) (statusFilter : Option String) (it : Interleaving V) :
    OperationRegistry V × List OperationId :=
  let entries := (it.order r.map).filter fun e =>
    e.wallet = wallet ∧ ∀ f ∈ statusFilter, (it.atFirst e).op.data.state.asStr = f
  (r.settle it.during,
    (sortByTime Prod.fst (entries.map fun e => (e.creationTime, e.id))).map Prod.snd)

end OperationRegistry

/-- A call of one wallet, with what goes on beside it, or a task going on by itself. -/
inductive Event (V : Type*)
  | tryInsert (wallet : String) (context : Option (ContextInfo V)) (now : SystemTime)
      (it : Interleaving V)
  | status (wallet : String) (ids : Option (List OperationId)) (it : Interleaving V)
  | statusOf (wallet : String) (id : OperationId) (it : Interleaving V)
  | takeResults (wallet : String) (ids : Option (List OperationId)) (it : Interleaving V)
  | listIds (wallet : String) (statusFilter : Option String) (it : Interleaving V)
  | task (t : Transition V)

inductive Answer (V : Type*)
  | inserted (res : Except RpcError OperationId)
  | statuses (l : List (OperationStatus V))
  | taken (l : List (OperationStatus V))
  | ids (l : List OperationId)

structure Call (V : Type*) where
  wallet : String
  answer : Answer V

def OperationRegistry.handle (r : OperationRegistry V) :
    Event V → OperationRegistry V × Option (Call V)
  | .tryInsert wallet context now it =>
    let (r', res) := r.tryInsert wallet context now it
    (r', some ⟨wallet, .inserted res⟩)
  | .status wallet ids it =>
    let (r', l) := r.status wallet ids it
    (r', some ⟨wallet, .statuses l⟩)
  | .statusOf wallet id it =>
    let (r', st) := r.statusOf wallet id it
    (r', some ⟨wallet, .statuses st.toList⟩)
  | .takeResults wallet ids it =>
    let (r', l) := r.takeResults wallet ids it
    (r', some ⟨wallet, .taken l⟩)
  | .listIds wallet statusFilter it =>
    let (r', l) := r.listIds wallet statusFilter it
    (r', some ⟨wallet, .ids l⟩)
  | .task t => (r.settle [t], none)

/-- The registry, and the calls it answered so far. -/
structure State (V : Type*) where
  registry : OperationRegistry V
  calls : List (Call V)

namespace State

def init : State V := ⟨OperationRegistry.empty, []⟩

def step (s : State V) (e : Event V) : State V :=
  ⟨(s.registry.handle e).1, s.calls ++ (s.registry.handle e).2.toList⟩

end State

end Zecd.Operations
