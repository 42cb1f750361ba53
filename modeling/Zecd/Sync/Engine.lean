import Zecd.Foundation.Runs
import Zecd.Sync.Chain
import Zecd.Sync.Coverage

/-! # The transparent side of the block scan

One pass of `sync_step`: refresh the address and outpoint sets if they are stale, download
the blocks of a batch while matching outputs and inputs against the sets, and, once the
range is applied, record the matched receives and spends. A stream killed by a load shed
resumes after the last block held, so the matching state is that of one uninterrupted fold.
-/

namespace Zecd

open Runs

/-! ## Download -/

structure MatchedReceive where
  output : ReceivedOutput
  coinbase : Bool
  deriving DecidableEq, Repr

structure MatchedSpend where
  spendingTxid : ℕ
  height : ℕ
  deriving DecidableEq, Repr

/-- What a download accumulates, across however many streaming attempts it takes. -/
structure DownloadProgress where
  blocks : ℕ
  received : List MatchedReceive
  spent : List MatchedSpend
  watch : Option (Finset OutPoint)

namespace DownloadProgress

/-- An owned output is watched for a spend later in the same batch. -/
def matchOutput (addresses : Finset Taddr) (p : DownloadProgress) (u : BlockOutput) :
    DownloadProgress :=
  match ownedTransparentOutput addresses u with
  | none => p
  | some output =>
    { p with
      watch := p.watch.map (insert output.outpoint)
      received := p.received ++ [⟨output, u.coinbase⟩] }

/-- A spend of a watched outpoint retires it; a transaction is listed once. -/
def matchInput (height : ℕ) (p : DownloadProgress) (i : OutPoint × ℕ) : DownloadProgress :=
  match p.watch with
  | none => p
  | some w =>
    if i.1 ∈ w then
      { p with
        watch := some (w.erase i.1)
        spent := if ⟨i.2, height⟩ ∈ p.spent then p.spent else p.spent ++ [⟨i.2, height⟩] }
    else p

/-- The loop body of `download_range_once`: outputs are matched before inputs. -/
def block (transparent : Option (Finset Taddr)) (p : DownloadProgress) (x : ℕ × Block) :
    DownloadProgress :=
  let p := match transparent with
    | some addresses => x.2.outputs.foldl (matchOutput addresses) p
    | none => p
  let p := x.2.inputs.foldl (matchInput x.1) p
  { p with blocks := p.blocks + 1 }

end DownloadProgress

def maxStalledStreamRestarts : ℕ := 3

/-- `download_blocks`: `sheds` lists how many blocks each stream delivered before a load shed
killed it, and the stream after the last one completes. -/
def downloadBlocks (transparent : Option (Finset Taddr)) :
    List ℕ → ℕ → List (ℕ × Block) → DownloadProgress → Option DownloadProgress
  | [], _, rest, p => some (rest.foldl (DownloadProgress.block transparent) p)
  | _ :: _, _, [], p => some p
  | k :: sheds, stalled, rest, p =>
    let p' := (rest.take k).foldl (DownloadProgress.block transparent) p
    if p.blocks < p'.blocks then downloadBlocks transparent sheds 0 (rest.drop k) p'
    else if maxStalledStreamRestarts < stalled + 1 then none
    else downloadBlocks transparent sheds (stalled + 1) (rest.drop k) p'

/-! ## One batch -/

structure ScanRange where
  start : ℕ
  stop : ℕ
  verify : Bool
  deriving DecidableEq, Repr

/-- The part of the first suggested range one batch scans: a `Verify` range whole, otherwise
its first `batch_size` blocks. -/
def ScanRange.batch (batchSize : ℕ) (r : ScanRange) : ScanRange :=
  if r.verify then r else { r with stop := min r.stop (r.start + batchSize) }

/-- One pass: the range ranked first, and the load sheds its download meets. -/
structure ScanEvent where
  range : ScanRange
  sheds : List ℕ
  deriving DecidableEq, Repr

/-- The actor's transparent state, with the transactions the wallet stored. -/
structure SyncState extends MatcherState where
  stored : List Tx
  unspent : Option (Finset OutPoint)
  unspentDirty : Bool

def unspentTransparentOutpoints (db : TransparentDb) (stored : List Tx) : Finset OutPoint :=
  (db.received.image ReceivedOutput.outpoint).filter fun o => ∀ t ∈ stored, o ∉ t.inputs

/-- The recording loop's state. -/
structure Recording where
  db : TransparentDb
  stored : List Tx
  coinbaseStored : List ℕ
  recorded : ℕ

/-- Record one matched receive, and store its transaction once if it is a coinbase. -/
def recordMatched (c : Chain) (gap : GapMaintenance) (m : TransparentMatcher) (acc : Recording)
    (r : MatchedReceive) : Recording :=
  match acc.db.recordReceive gap m r.output with
  | (db, false) => { acc with db }
  | (db, true) =>
    if r.coinbase ∧ r.output.outpoint.1 ∉ acc.coinbaseStored then
      { db
        stored := acc.stored ++ (c.fetchTx r.output.outpoint.1).toList
        coinbaseStored := r.output.outpoint.1 :: acc.coinbaseStored
        recorded := acc.recorded + 1 }
    else { acc with db, recorded := acc.recorded + 1 }

def recordSpend (c : Chain) (acc : List Tx × ℕ) (sp : MatchedSpend) : List Tx × ℕ :=
  match c.fetchTx sp.spendingTxid with
  | some t => (acc.1 ++ [t], acc.2 + 1)
  | none => acc

namespace SyncState

/-- The stale sets are rebuilt before the scan. -/
def refresh (cfg : TransparentConfig) (s : SyncState) : SyncState :=
  let s := if s.setDirty then
      { s with
        matcher := some (rebuildTransparentSet cfg s.db.rows s.db.change), setDirty := false }
    else s
  if s.unspentDirty then
    { s with unspent := some (unspentTransparentOutpoints s.db s.stored), unspentDirty := false }
  else s

/-- The receives of an applied range, recorded against the matcher they were found with. -/
def recordReceives (c : Chain) (gap : GapMaintenance) (s : SyncState)
    (received : List MatchedReceive) : Recording :=
  match s.matcher with
  | none => ⟨s.db, s.stored, [], 0⟩
  | some m => received.foldl (recordMatched c gap m) ⟨s.db, s.stored, [], 0⟩

/-- Apply what a download matched, and mark the sets stale where it changed them. -/
def apply (c : Chain) (gap : GapMaintenance) (s : SyncState) (p : DownloadProgress) : SyncState :=
  let acc := s.recordReceives c gap p.received
  let spends := p.spent.foldl (recordSpend c) (acc.stored, 0)
  { s with
    db := acc.db
    stored := spends.1
    setDirty := s.setDirty || decide (0 < acc.recorded)
    unspentDirty := s.unspentDirty || decide (0 < acc.recorded) || decide (0 < spends.2) }

end SyncState

def ScanEvent.blocks (c : Chain) (batchSize : ℕ) (e : ScanEvent) : List (ℕ × Block) :=
  c.range (e.range.batch batchSize).start (e.range.batch batchSize).stop

/-- Every load shed of the download is recovered from. -/
def ScanEvent.Succeeds (c : Chain) (batchSize : ℕ) (e : ScanEvent) : Prop :=
  ∀ transparent p, downloadBlocks transparent e.sheds 0 (e.blocks c batchSize) p ≠ none

/-- `sync_step` past pre-exposure. A failed download applies nothing. -/
def syncStep (cfg : TransparentConfig) (gap : GapMaintenance) (c : Chain) (batchSize : ℕ)
    (s : SyncState) (e : ScanEvent) : SyncState :=
  let s := s.refresh cfg
  match downloadBlocks (s.matcher.map TransparentMatcher.all) e.sheds 0 (e.blocks c batchSize)
      ⟨0, [], [], s.unspent⟩ with
  | none => s
  | some p => s.apply c gap p

/-- The actor before its first scan. -/
def SyncState.start (rows : AddressRows) (change : Finset ℕ) : SyncState where
  db := ⟨rows, change, ∅⟩
  matcher := none
  setDirty := true
  stored := []
  unspent := none
  unspentDirty := true

end Zecd
