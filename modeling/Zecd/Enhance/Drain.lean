import Mathlib

/-! # The enhancement drain and the status it publishes

Scanning records what is still to be fetched in a request table. A drain pass services a
bounded part of it, and each publish of the sync status summarises what is left: the count,
and the height through which everything is known to be enhanced.
-/

namespace Zecd.Enhance

abbrev TxId := ℕ

structure AddressRequest where
  address : ℕ
  blockRangeStart : ℕ
  /-- Its transaction filter is `Mined`. -/
  minedOnly : Bool
  /-- Its output filter is `All`. -/
  anyOutput : Bool
  deriving DecidableEq, Repr

inductive EnhanceRequest where
  | getStatus (txid : TxId)
  | enhancement (txid : TxId)
  | transactionsInvolvingAddress (r : AddressRequest)
  deriving DecidableEq, Repr

/-- What the wallet database holds of this: the request table's three sources, the height each
transaction is mined at (never genesis, which no wallet scans), the transactions the wallet
spent in, and how far it is fully scanned. -/
structure WalletDb where
  statusWork : List TxId
  enhancementWork : List TxId
  dataRequests : List AddressRequest
  txHeight : TxId → Option ℕ+
  spendingTxids : List TxId
  fullyScanned : Option ℕ

def enhanceRequests (db : WalletDb) : List EnhanceRequest :=
  db.statusWork.map .getStatus ++ db.enhancementWork.map .enhancement ++
    db.dataRequests.map .transactionsInvolvingAddress

/-- `[sync] fetch_memos` and `[sync] enhance_concurrency`. -/
structure Config where
  fetchMemos : Bool
  enhanceConcurrency : ℕ
  deriving DecidableEq, Repr

structure Reads where
  fullyScanned : Bool
  requests : Bool
  spending : Bool
  /-- Whether the lookup gives the height, and no error or no record instead. -/
  height : TxId → Bool

def allReads : Reads := ⟨true, true, true, fun _ => true⟩

def isSpendSearch (r : AddressRequest) : Bool := r.minedOnly && r.anyOutput

def requestInScope (fetchMemos : Bool) (spending : List TxId) : EnhanceRequest → Bool
  | .enhancement txid => fetchMemos || decide (txid ∈ spending)
  | .transactionsInvolvingAddress r => !isSpendSearch r
  | .getStatus _ => true

/-- In scope, not yet attempted in this drain, and deduplicated. -/
def outstandingRequests (requests satisfied : List EnhanceRequest) (fetchMemos : Bool)
    (spending : List TxId) : List EnhanceRequest :=
  (requests.filter fun r =>
    requestInScope fetchMemos spending r && decide (r ∉ satisfied)).eraseDups

/-- The requests in scope and not yet attempted, with every table read as it is. -/
def outstanding (cfg : Config) (db : WalletDb) (satisfied : List EnhanceRequest) :
    List EnhanceRequest :=
  outstandingRequests (enhanceRequests db) satisfied cfg.fetchMemos db.spendingTxids

def spendingTxids (cfg : Config) (reads : Reads) (db : WalletDb) : List TxId :=
  if cfg.fetchMemos then [] else if reads.spending then db.spendingTxids else []

/-! ## Status -/

structure SyncStatus where
  connected : Bool
  chainTip : Option ℕ
  fullyScanned : Option ℕ
  scanning : Bool
  pendingEnhancements : ℕ
  enhancedThrough : Option ℕ
  deriving DecidableEq, Repr

/-- A published status, with the database and the attempted requests at that moment. -/
structure Publication where
  status : SyncStatus
  db : WalletDb
  satisfied : List EnhanceRequest

structure State where
  db : WalletDb
  tipHeight : Option ℕ
  client : Bool
  satisfied : List EnhanceRequest
  published : List Publication

def enhancedThroughMaxProbe : ℕ := 2048

def enhancedThrough (fullyScanned : ℕ) : Option ℕ → ℕ
  | some h => min fullyScanned (h - 1)
  | none => fullyScanned

/-- The height a request refers to; a failed lookup counts as none. -/
def enhancementRequestHeight (reads : Reads) (db : WalletDb) : EnhanceRequest → Option ℕ
  | .getStatus txid | .enhancement txid =>
    if reads.height txid then (db.txHeight txid).map PNat.val else none
  | .transactionsInvolvingAddress r => some r.blockRangeStart

def summarizeBacklog (reads : Reads) (db : WalletDb) (pending : List EnhanceRequest) :
    ℕ × Option ℕ :=
  if pending.length = 0 then (0, none)
  else if enhancedThroughMaxProbe < pending.length then (pending.length, some 0)
  else (pending.length, (pending.filterMap (enhancementRequestHeight reads db)).min?)

theorem summarizeBacklog_fst (reads : Reads) (db : WalletDb) (pending : List EnhanceRequest) :
    (summarizeBacklog reads db pending).1 = pending.length := by
  unfold summarizeBacklog
  split
  · next h => exact h.symm
  · split <;> rfl

def freshRequests (cfg : Config) (reads : Reads) (s : State) : List EnhanceRequest :=
  outstandingRequests (enhanceRequests s.db) s.satisfied cfg.fetchMemos
    (spendingTxids cfg reads s.db)

def enhancementBacklog (cfg : Config) (reads : Reads) (s : State) : ℕ × Option ℕ :=
  if reads.requests then summarizeBacklog reads s.db (freshRequests cfg reads s)
  else (0, some 0)

def statusOf (cfg : Config) (reads : Reads) (s : State) (known : Option (ℕ × Option ℕ)) :
    SyncStatus :=
  match if reads.fullyScanned then s.db.fullyScanned else none, s.tipHeight with
  | some scanned, some tip =>
    if scanned < tip then ⟨s.client, s.tipHeight, some scanned, true, 0, none⟩
    else
      let (count, lowest) := known.getD (enhancementBacklog cfg reads s)
      ⟨s.client, s.tipHeight, some scanned, false, count,
        if cfg.fetchMemos then some (enhancedThrough scanned lowest) else none⟩
  | _, _ => ⟨s.client, s.tipHeight, none, true, 0, none⟩

def updateStatusInner (cfg : Config) (reads : Reads) (s : State)
    (known : Option (ℕ × Option ℕ)) : State :=
  { s with published := s.published ++ [⟨statusOf cfg reads s known, s.db, s.satisfied⟩] }

def updateStatus (cfg : Config) (reads : Reads) (s : State) : State :=
  updateStatusInner cfg reads s none

def updateStatusWithBacklog (cfg : Config) (reads : Reads) (s : State)
    (backlog : ℕ × Option ℕ) : State :=
  updateStatusInner cfg reads s (some backlog)

/-! ## A drain pass -/

inductive TransactionStatus
  | txidNotRecognized | notInMainChain | mined (height : ℕ+)
  deriving DecidableEq, Repr

/-- A fetched transaction's mined height, or `none` for a transaction the upstream does not
know. -/
abbrev FetchedTransaction := Option (Option ℕ+)

/-- The upstream and the wallet layer as a pass meets them. Storing a transaction may change
the request table in any way. -/
structure Layer where
  /-- `none` is a transport failure. -/
  fetchTx : TxId → Option FetchedTransaction
  decryptAndStore : WalletDb → TxId → Option ℕ+ → Option WalletDb
  notifyNotFound : WalletDb → TxId → Option WalletDb
  setTransactionStatus : WalletDb → TxId → TransactionStatus → Option WalletDb
  /-- The address query over a block range, the stores it leads to and the notification: the
  database after it, and whether it succeeded with the client kept. -/
  checkAddress : WalletDb → AddressRequest → ℕ → ℕ → WalletDb × Bool × Bool
  /-- Whether a shutdown is seen before the fetches (0) and before each address search. -/
  shutdownSeen : ℕ → Bool

def txidRequest : EnhanceRequest → Option (TxId × Bool)
  | .getStatus txid => some (txid, false)
  | .enhancement txid => some (txid, true)
  | .transactionsInvolvingAddress _ => none

def addressRequest : EnhanceRequest → Option AddressRequest
  | .transactionsInvolvingAddress r => some r
  | _ => none

def applyFetched (l : Layer) (db : WalletDb) (txid : TxId) (enhance : Bool) :
    FetchedTransaction → Option WalletDb
  | some mined =>
    if enhance then l.decryptAndStore db txid mined
    else l.setTransactionStatus db txid (mined.elim .notInMainChain .mined)
  | none =>
    if enhance then l.notifyNotFound db txid
    else l.setTransactionStatus db txid .txidNotRecognized

/-- `apply_fetched_requests`: all or nothing. -/
def applyFetchedRequests (l : Layer) (db : WalletDb) :
    List (EnhanceRequest × (TxId × Bool) × FetchedTransaction) → Option WalletDb
  | [] => some db
  | (_, (txid, enhance), found) :: rest =>
    (applyFetched l db txid enhance found).bind fun db => applyFetchedRequests l db rest

/-- The fetched requests up to the first transport failure. -/
def fetchedPrefix (l : Layer) :
    List EnhanceRequest → List (EnhanceRequest × (TxId × Bool) × FetchedTransaction)
  | [] => []
  | r :: rs =>
    match txidRequest r with
    | none => fetchedPrefix l rs
    | some t =>
      match l.fetchTx t.1 with
      | none => []
      | some found => (r, t, found) :: fetchedPrefix l rs

def fetchFails (l : Layer) (pass : List EnhanceRequest) : Bool :=
  pass.any fun r => (txidRequest r).any fun t => (l.fetchTx t.1).isNone

/-- What a pass has done so far: the state, the requests handled, and whether it ended early. -/
structure PassState where
  state : State
  handled : ℕ
  aborted : Bool

/-- The concurrent half of a pass. -/
def serviceTxids (l : Layer) (s : State) (pass : List EnhanceRequest) : PassState :=
  let toApply := fetchedPrefix l pass
  let failed := fetchFails l pass
  let s := { s with client := s.client && !failed }
  match applyFetchedRequests l s.db toApply with
  | none => ⟨s, 0, true⟩
  | some db =>
    ⟨{ s with db, satisfied := s.satisfied ++ toApply.map (·.1) }, toApply.length, failed⟩

def tiaCheckRange (blockRangeStart chainTip : ℕ) : Option (ℕ × ℕ) :=
  let start := max blockRangeStart 1
  if start ≤ chainTip then some (start, chainTip) else none

/-- One address search: what `service_address_request` leaves, and whether it succeeded. -/
def serviceAddressRequest (l : Layer) (tip : ℕ) (s : State) (r : AddressRequest) :
    State × Bool :=
  match tiaCheckRange r.blockRangeStart tip with
  | none => (s, true)
  | some (start, asOf) =>
    let (db, ok, kept) := l.checkAddress s.db r start asOf
    ({ s with db, client := s.client && kept }, ok)

/-- The sequential half of a pass; `none` when a shutdown ends it without a publish. -/
def serviceAddresses (l : Layer) (tip : ℕ) : ℕ → PassState → List EnhanceRequest →
    PassState × Bool
  | _, p, [] => (p, false)
  | i, p, r :: rs =>
    match addressRequest r with
    | none => serviceAddresses l tip i p rs
    | some a =>
      if p.aborted then (p, false)
      else if l.shutdownSeen i then (p, true)
      else
        let (s, ok) := serviceAddressRequest l tip p.state a
        if ok then
          serviceAddresses l tip (i + 1)
            ⟨{ s with satisfied := s.satisfied ++ [r] }, p.handled + 1, false⟩ rs
        else (⟨s, p.handled, true⟩, false)

def passRequests (cfg : Config) (pending : List EnhanceRequest) : List EnhanceRequest :=
  pending.take (max cfg.enhanceConcurrency 1)

/-- What servicing the pass's requests leaves, and whether a shutdown ended it. -/
def servicePass (l : Layer) (tip : ℕ) (s : State) (pass : List EnhanceRequest) :
    PassState × Bool :=
  serviceAddresses l tip 1 (serviceTxids l s pass) pass

def remainingRequests (pending : List EnhanceRequest) (p : PassState) : List EnhanceRequest :=
  pending.filter fun r => decide (r ∉ p.state.satisfied)

/-- The publish that ends a pass: over what the pass read, unless it ended early or cleared
everything it saw. -/
def republish (cfg : Config) (publish : Reads) (pending : List EnhanceRequest) (p : PassState) :
    State :=
  if p.aborted || (remainingRequests pending p).isEmpty then updateStatus cfg publish p.state
  else updateStatusWithBacklog cfg publish p.state
    (summarizeBacklog publish p.state.db (remainingRequests pending p))

/-- `enhance_step`: the state after it, and whether serviceable requests remain. -/
def enhanceStep (cfg : Config) (l : Layer) (reads publish : Reads) (s : State) : State × Bool :=
  match s.tipHeight with
  | none => (s, false)
  | some tip =>
    if !s.client || !reads.requests || l.shutdownSeen 0 then (s, false)
    else
      let pending := freshRequests cfg reads s
      match servicePass l tip s (passRequests cfg pending) with
      | (p, true) => (p.state, false)
      | (p, false) =>
        (republish cfg publish pending p, !p.aborted && decide (p.handled < pending.length))

/-! ## Runs -/

/-- A spawned actor over an existing database. -/
def State.start (db : WalletDb) : State := ⟨db, none, false, [], []⟩

inductive Event where
  /-- The single writer changes the database: a mempool store, a send, a bootstrap. -/
  | write (db : WalletDb)
  /-- A `sync_step`: a batch or a rewind, and the publish that ends it. The main loop starts a
  new drain after a pass that worked; a send's catch-up does not. -/
  | syncStep (db : WalletDb) (worked mainLoop : Bool) (publish : Reads)
  | refreshTip (tip : ℕ) (publish : Reads)
  | connection (client : Bool)
  /-- `update_status` from anywhere else. -/
  | publish (publish : Reads)
  | enhanceStep (l : Layer) (reads publish : Reads)

def step (cfg : Config) (s : State) : Event → State
  | .write db => { s with db }
  | .syncStep db worked mainLoop publish =>
    let s := updateStatus cfg publish { s with db }
    if worked && mainLoop then { s with satisfied := [] } else s
  | .refreshTip tip publish =>
    updateStatus cfg publish { s with tipHeight := some tip, client := true }
  | .connection client => { s with client }
  | .publish publish => updateStatus cfg publish s
  | .enhanceStep l reads publish => (Enhance.enhanceStep cfg l reads publish s).1

end Zecd.Enhance
