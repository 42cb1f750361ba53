import Zecd.Foundation.Lru
import Zecd.Foundation.Runs
import Zecd.Upstream.Upgrades

/-! # Concurrent calls on the shared connection

Every wallet holds a handle onto the one connection and calls it at the same time as the others.
A call asks the upstream, waits, and goes on when the answer is there. It holds the lock of the
cache it fills meanwhile, except for a transaction fetch and a refresh, which take theirs only to
store. An event starts a call, answers it, or lets it go on.
-/

namespace Zecd.ChainHub

open Upstream

structure ChainTip where
  height : ℕ
  hash : List ℕ
  deriving DecidableEq, Repr

structure FetchedTx where
  data : List ℕ
  minedHeight : Option ℕ
  deriving DecidableEq, Repr

abbrev TxId := ℕ

structure SubtreeRootInfo where
  root : List ℕ
  completingHeight : ℕ
  deriving DecidableEq, Repr

inductive ShieldedPool where
  | sapling | orchard | ironwood
  deriving DecidableEq, Repr

structure Chain where
  tip : ChainTip
  tx : TxId → Option FetchedTx

/-- A consumer's handle: the generation it was issued for, and the dial whose connection it
cloned. -/
structure HubSource where
  generation : ℕ
  inner : ℕ
  deriving DecidableEq, Repr

/-- An answer of the upstream, with the dial it came over, and how many chain switches there
were and how many tip changes the hub had noted when it was given. -/
structure Answer (α : Type) where
  value : α
  dial : ℕ
  forks : ℕ
  changes : ℕ
  deriving DecidableEq, Repr

structure Conn where
  source : Option ℕ
  generation : ℕ
  deriving DecidableEq, Repr

structure TipCache where
  tip : Option (Answer ChainTip)
  generation : ℕ
  deriving DecidableEq, Repr

structure InfoCache where
  generation : ℕ
  serverInfo : Option (Answer ServerInfo)
  roots : ShieldedPool → Option (Answer (List SubtreeRootInfo))

/-- The mempool subscription: the dial its stream was opened on, and whether it closed. -/
structure MempoolHub where
  generation : ℕ
  stream : Option ℕ
  closed : Bool
  deriving DecidableEq, Repr

/-- A call under way. Its answer is absent until the upstream gave it. -/
inductive Call where
  | acquire
  | latestBlock (h : HubSource) (answer : Option (Answer ChainTip))
  | serverInfo (h : HubSource) (answer : Option (Answer ServerInfo))
  | subtreeRoots (h : HubSource) (pool : ShieldedPool)
      (answer : Option (Answer (List SubtreeRootInfo)))
  | refreshServerInfo (h : HubSource) (answer : Option (Answer ServerInfo))
  | fetchTx (h : HubSource) (txid : TxId) (answer : Option (Answer (Option FetchedTx)))
  | subscribeMempool (h : HubSource)
  /-- The report of a failure, before and after it has dropped the connection. -/
  | invalidate (generation : ℕ) (dropped : Bool)
  deriving DecidableEq, Repr

namespace Call

def holdsConn : Call → Bool
  | .acquire => true
  | _ => false

def holdsTip : Call → Bool
  | .latestBlock _ _ => true
  | _ => false

def holdsInfo : Call → Bool
  | .serverInfo _ _ | .subtreeRoots _ _ _ => true
  | _ => false

def holdsMempool : Call → Bool
  | .subscribeMempool _ => true
  | _ => false

end Call

inductive Served where
  | tip (generation : ℕ) (a : Answer ChainTip)
  | info (generation : ℕ) (a : Answer ServerInfo)
  | roots (generation : ℕ) (a : Answer (List SubtreeRootInfo))
  /-- A transaction, with the tip changes noted by then and the chain of the last of them. -/
  | tx (a : Answer FetchedTx) (changes observed : ℕ)

structure State where
  chain : Chain
  conn : Conn
  tip : TipCache
  info : InfoCache
  txs : Lru TxId (Answer FetchedTx)
  mempool : MempoolHub
  handles : List HubSource
  calls : List Call
  /-- Successful dials. -/
  connects : ℕ
  /-- Chain switches of the upstream. -/
  forks : ℕ
  /-- Tip changes the hub noted. -/
  changes : ℕ
  /-- The chain of the last tip change noted, by the switches before it. -/
  observed : ℕ
  served : List Served

def txCacheEntries : ℕ := 2048

def State.start (chain : Chain) : State where
  chain := chain
  conn := ⟨none, 0⟩
  tip := ⟨none, 0⟩
  info := ⟨0, none, fun _ => none⟩
  txs := .empty txCacheEntries
  mempool := ⟨0, none, false⟩
  handles := []
  calls := []
  connects := 0
  forks := 0
  changes := 0
  observed := 0
  served := []

namespace State

variable (s : State)

/-- What the upstream says now, over a handle's connection. -/
def answer {α : Type} (h : HubSource) (value : α) : Answer α := ⟨value, h.inner, s.forks, s.changes⟩

def push (c : Call) : State := { s with calls := s.calls ++ [c] }

def drop (i : ℕ) : State := { s with calls := s.calls.eraseIdx i }

def serve (x : Served) : State := { s with served := s.served ++ [x] }

/-- The end of `acquire`: a handle onto the live connection. -/
def issue : State :=
  match s.conn.source with
  | some source => { s with handles := s.handles ++ [⟨s.conn.generation, source⟩] }
  | none => s

/-- `acquire`, up to the dial of a connection that is down. -/
def acquire : State :=
  if s.calls.any Call.holdsConn then s
  else if s.conn.source.isSome then s.issue
  else s.push .acquire

/-- `acquire`, from the outcome of the dial on. -/
def dialed (i : ℕ) (ok : Bool) : State :=
  if s.calls[i]? = some .acquire then
    if ok then
      { s.drop i with
        conn := ⟨some (s.connects + 1), s.conn.generation + 1⟩
        connects := s.connects + 1 : State }.issue
    else s.drop i
  else s

def noteTip (previous : Option (Answer ChainTip)) (current : Answer ChainTip) : State :=
  if previous.all fun p => p.value = current.value then s
  else { s with txs := s.txs.clear, changes := s.changes + 1, observed := current.forks }

def latestBlock (h : HubSource) (expired : Bool) : State :=
  if s.calls.any Call.holdsTip then s
  else
    match s.tip.tip with
    | some a =>
      if s.tip.generation = h.generation ∧ expired = false then s.serve (.tip h.generation a)
      else s.push (.latestBlock h none)
    | none => s.push (.latestBlock h none)

/-- An information cache that another generation filled is emptied for this one. -/
def resetInfo (h : HubSource) : State :=
  if s.info.generation = h.generation then s
  else { s with info := ⟨h.generation, none, fun _ => none⟩ }

def subtreeRoots (h : HubSource) (pool : ShieldedPool) : State :=
  if s.calls.any Call.holdsInfo then s
  else
    match (s.resetInfo h).info.roots pool with
    | some a => s.serve (.roots h.generation a)
    | none => (s.resetInfo h).push (.subtreeRoots h pool none)

def getServerInfo (h : HubSource) : State :=
  if s.calls.any Call.holdsInfo then s
  else
    match (s.resetInfo h).info.serverInfo with
    | some a => s.serve (.info h.generation a)
    | none => (s.resetInfo h).push (.serverInfo h none)

def fetchTx (h : HubSource) (txid : TxId) : State :=
  match s.txs.get txid with
  | (some a, txs) => { s with txs }.serve (.tx a s.changes s.observed)
  | (none, _) => s.push (.fetchTx h txid none)

/-- Tear the mempool subscription down. -/
def shutdownMempool : State :=
  { s with mempool := { s.mempool with stream := none, closed := true } }

/-- `subscribe_mempool`, up to the opening of a stream when there is no live one to join. -/
def subscribeMempool (h : HubSource) : State :=
  if s.calls.any Call.holdsMempool then s
  else
    let s' := if s.mempool.generation < h.generation then
        { s.shutdownMempool with
          mempool := { s.shutdownMempool.mempool with generation := h.generation } }
      else s
    if s'.mempool.stream.isSome && !s'.mempool.closed then s'
    else s'.push (.subscribeMempool h)

/-- A step of `invalidate`. A report against a superseded generation is ignored. -/
def invalidate (i generation : ℕ) (dropped : Bool) : State :=
  if dropped then
    if s.calls.any Call.holdsMempool then s
    else
      let s' := if s.mempool.generation = generation then s.shutdownMempool else s
      { s'.drop i with txs := s.txs.clear }
  else if s.calls.any Call.holdsConn then s
  else if s.conn.generation ≠ generation ∨ s.conn.source = none then s.drop i
  else { s with
    conn := { s.conn with source := none }
    calls := s.calls.set i (.invalidate generation true) }

/-- A call goes on: with its answer if it waits for one. -/
def resume (i : ℕ) : State :=
  match s.calls[i]? with
  | some (.latestBlock h (some a)) =>
    { (s.drop i).noteTip s.tip.tip a with tip := ⟨some a, h.generation⟩ }
  | some (.serverInfo _ (some a)) => { s.drop i with info := { s.info with serverInfo := some a } }
  | some (.subtreeRoots _ pool (some a)) =>
    { s.drop i with info := { s.info with roots := Function.update s.info.roots pool (some a) } }
  | some (.refreshServerInfo h (some a)) =>
    if s.calls.any Call.holdsInfo then s
    else if s.info.generation = h.generation then
      { s.drop i with info := { s.info with serverInfo := some a } }
    else s.drop i
  | some (.fetchTx _ txid (some a)) =>
    match a.value with
    | some tx => { s.drop i with txs := s.txs.insert txid { a with value := tx } }
    | none => s.drop i
  | some (.subscribeMempool h) =>
    { s.drop i with mempool := { s.mempool with stream := some h.inner, closed := false } }
  | some (.invalidate generation dropped) => s.invalidate i generation dropped
  | _ => s

/-- The upstream answers a call, from its chain as it is now. -/
def respond (i : ℕ) (info : ServerInfo) (roots : List SubtreeRootInfo) : State :=
  match s.calls[i]? with
  | some (.latestBlock h none) =>
    { s with calls := s.calls.set i (.latestBlock h (some (s.answer h s.chain.tip))) }
  | some (.serverInfo h none) =>
    { s with calls := s.calls.set i (.serverInfo h (some (s.answer h info))) }
  | some (.subtreeRoots h pool none) =>
    { s with calls := s.calls.set i (.subtreeRoots h pool (some (s.answer h roots))) }
  | some (.refreshServerInfo h none) =>
    { s with calls := s.calls.set i (.refreshServerInfo h (some (s.answer h info))) }
  | some (.fetchTx h txid none) =>
    { s with calls := s.calls.set i (.fetchTx h txid (some (s.answer h (s.chain.tx txid)))) }
  | _ => s

/-- A call fails, and reports it against the generation of its handle. -/
def fail (i : ℕ) : State :=
  match s.calls[i]? with
  | some (.latestBlock h _) | some (.serverInfo h _) | some (.subtreeRoots h _ _)
  | some (.refreshServerInfo h _) | some (.fetchTx h _ _) | some (.subscribeMempool h) =>
    (s.drop i).push (.invalidate h.generation false)
  | _ => s

end State

inductive Event where
  /-- The upstream's chain grows or is replaced. -/
  | switch (chain : Chain)
  | acquire
  | dialed (call : ℕ) (ok : Bool)
  | latestBlock (handle : ℕ) (expired : Bool)
  | serverInfo (handle : ℕ)
  | subtreeRoots (handle : ℕ) (pool : ShieldedPool)
  | refreshServerInfo (handle : ℕ)
  | fetchTx (handle : ℕ) (txid : TxId)
  | subscribeMempool (handle : ℕ)
  /-- A call that no cache is for fails. -/
  | passthroughFails (handle : ℕ)
  | respond (call : ℕ) (info : ServerInfo) (roots : List SubtreeRootInfo)
  | resume (call : ℕ)
  | fail (call : ℕ)
  /-- A call is abandoned: its caller timed out or shut down. -/
  | cancel (call : ℕ)
  /-- The upstream closes the mempool stream. -/
  | pumpEnds

def State.onHandle (s : State) (handle : ℕ) (call : HubSource → State) : State :=
  match s.handles[handle]? with
  | some h => call h
  | none => s

def step (s : State) : Event → State
  | .switch chain => { s with chain, forks := s.forks + 1 }
  | .acquire => s.acquire
  | .dialed i ok => s.dialed i ok
  | .latestBlock k expired => s.onHandle k fun h => s.latestBlock h expired
  | .serverInfo k => s.onHandle k s.getServerInfo
  | .subtreeRoots k pool => s.onHandle k fun h => s.subtreeRoots h pool
  | .refreshServerInfo k => s.onHandle k fun h => s.push (.refreshServerInfo h none)
  | .fetchTx k txid => s.onHandle k fun h => s.fetchTx h txid
  | .subscribeMempool k => s.onHandle k s.subscribeMempool
  | .passthroughFails k => s.onHandle k fun h => s.push (.invalidate h.generation false)
  | .respond i info roots => s.respond i info roots
  | .resume i => s.resume i
  | .fail i => s.fail i
  | .cancel i => s.drop i
  | .pumpEnds => { s with mempool := { s.mempool with closed := true } }

end Zecd.ChainHub
