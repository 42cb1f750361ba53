import Mathlib
import Zecd.Rpc.Error

/-! # The transparent receive matcher

The external `addresses` rows of a wallet, the window pre-exposed before a scan, and the
set every scanned output is matched against: the recorded receivers together with an
in-memory gap lookahead past the issuance frontier. The lookahead is not stored; it is
recomputed from the highest exposed index on every rebuild.
-/

namespace Zecd

/-- A transparent script as the wallet's keys see it: the receiving address at a child index,
a change address, or a script of somebody else. -/
inductive Taddr where
  | external (index : ℕ)
  | internal (index : ℕ)
  | foreign (script : ℕ)
  deriving DecidableEq, Repr

/-- The funding txid and the output index. -/
abbrev OutPoint := ℕ × ℕ

def u32Max : ℕ := 2 ^ 32 - 1

def saturatingAdd (a b : ℕ) : ℕ := min (a + b) u32Max

/-- The child indices a transparent address can be derived at are those below. -/
def nonHardenedChildren : ℕ := 2 ^ 31

theorem nonHardenedChildren_pos : 0 < nonHardenedChildren := by decide

/-- The settings of `[pools]` that shape transparent receiving, with the account's default
address frontier. -/
structure TransparentConfig where
  initialScan : ℕ
  gapLimit : ℕ
  /-- The child index of the account's default address, if it has a transparent receiver. -/
  defaultIndex : Option (Fin nonHardenedChildren)
  allowBeyondRecoveryWindow : Bool
  deriving DecidableEq, Repr

/-- `default_transparent_frontier`: the frontier a fresh restore of the account starts with. -/
def TransparentConfig.defaultFrontier (cfg : TransparentConfig) : Option ℕ :=
  cfg.defaultIndex.map fun d => saturatingAdd d.val 1

theorem TransparentConfig.defaultFrontier_of_some {cfg : TransparentConfig}
    {d : Fin nonHardenedChildren} (h : cfg.defaultIndex = some d) :
    cfg.defaultFrontier = some (d.val + 1) := by
  have hd : d.val < 2 ^ 31 := d.isLt
  rw [defaultFrontier, h, Option.map_some, saturatingAdd, u32Max]
  congr 1
  omega

def recoveryHorizonFor (initialScan : ℕ) (defaultFrontier : Option ℕ) (gapLimit : ℕ) : ℕ :=
  saturatingAdd (max initialScan (defaultFrontier.getD 0)) gapLimit

def TransparentConfig.recoveryHorizon (cfg : TransparentConfig) : ℕ :=
  recoveryHorizonFor cfg.initialScan cfg.defaultFrontier cfg.gapLimit

/-! ## Address rows -/

/-- The external rows of the `addresses` table: the recorded child indices, and those of them
that were handed out or seen funded. -/
structure AddressRows where
  recorded : Finset ℕ
  exposed : Finset ℕ
  exposed_subset : exposed ⊆ recorded

namespace AddressRows

/-- `get_address_for_index`: record and expose exactly this index. -/
def getAddressForIndex (rows : AddressRows) (i : ℕ) : AddressRows where
  recorded := insert i rows.recorded
  exposed := insert i rows.exposed
  exposed_subset := Finset.insert_subset_insert i rows.exposed_subset

def generate (rows : AddressRows) (new : Finset ℕ) : AddressRows where
  recorded := rows.recorded ∪ new
  exposed := rows.exposed
  exposed_subset := rows.exposed_subset.trans Finset.subset_union_left

/-- `next_external_transparent_index`: one past the highest exposed index. -/
def nextExternalTransparentIndex (rows : AddressRows) : ℕ := rows.exposed.sup (saturatingAdd · 1)

/-- `next_unexposed_external_index`: one past the highest recorded index, exposed or not. -/
def nextUnexposedExternalIndex (rows : AddressRows) : ℕ := rows.recorded.sup (saturatingAdd · 1)

end AddressRows

/-- The rows account creation leaves: those up to the default address, which alone is exposed,
and the first gap window. -/
def freshAccount (cfg : TransparentConfig) : AddressRows where
  recorded := Finset.range
    (max (cfg.defaultFrontier.getD 0) (min cfg.gapLimit nonHardenedChildren))
  exposed := cfg.defaultIndex.elim ∅ fun d => {d.val}
  exposed_subset := by
    intro i hi
    cases h : cfg.defaultIndex with
    | none => simp [h] at hi
    | some d =>
      obtain rfl : i = d.val := by simpa [h] using hi
      rw [TransparentConfig.defaultFrontier_of_some h, Finset.mem_range, Option.getD_some]
      omega

/-! ## Pre-exposure -/

def transparentPreexposeChunk : ℕ := 1000

/-- `preexpose_transparent_chunk`: the rows, the cursor and whether more indices remain. A chunk
reaching past the derivable indices fails, and its transaction is rolled back. -/
def preexposeChunk (cfg : TransparentConfig) (rows : AddressRows) (done : Option ℕ) :
    AddressRows × Option ℕ × Bool :=
  if cfg.initialScan = 0 then (rows, done, false)
  else
    let start := done.getD rows.nextUnexposedExternalIndex
    if cfg.initialScan ≤ start then (rows, done, false)
    else
      let stop := min cfg.initialScan (saturatingAdd start transparentPreexposeChunk)
      if nonHardenedChildren < stop then (rows, some start, false)
      else
        ((List.range' start (stop - start)).foldl AddressRows.getAddressForIndex rows, some stop,
          decide (stop < cfg.initialScan))

/-- The passes of `sync_step` before the first scan: chunk after chunk until none remains. -/
def preexpose (cfg : TransparentConfig) : ℕ → AddressRows → Option ℕ → AddressRows
  | 0, rows, _ => rows
  | fuel + 1, rows, done =>
    match preexposeChunk cfg rows done with
    | (rows', done', true) => preexpose cfg fuel rows' done'
    | (rows', _, false) => rows'

def restoreRows (cfg : TransparentConfig) : AddressRows :=
  preexpose cfg (cfg.initialScan + 1) (freshAccount cfg) none

/-! ## The matcher -/

/-- The membership set of the scan, and the indices in it whose address has no row yet. -/
structure TransparentMatcher where
  all : Finset Taddr
  lookahead : Finset ℕ
  deriving DecidableEq

namespace TransparentMatcher

def lookaheadIndex (m : TransparentMatcher) : Taddr → Option ℕ
  | .external i => if i ∈ m.lookahead then some i else none
  | _ => none

/-- Whether a receive at the external index is matched. -/
def Covers (m : TransparentMatcher) (i : ℕ) : Prop := .external i ∈ m.all

instance (m : TransparentMatcher) (i : ℕ) : Decidable (m.Covers i) :=
  inferInstanceAs (Decidable (_ ∈ _))

end TransparentMatcher

/-- The issuance frontier: past every pre-exposed and every exposed index. -/
def AddressRows.frontier (rows : AddressRows) (cfg : TransparentConfig) : ℕ :=
  max cfg.initialScan rows.nextExternalTransparentIndex

def gapWindow (cfg : TransparentConfig) (frontier : ℕ) : Finset ℕ :=
  Finset.Ico frontier (min (saturatingAdd frontier cfg.gapLimit) nonHardenedChildren)

/-- `rebuild_transparent_set`, from the external rows and the recorded change receivers. -/
def rebuildTransparentSet (cfg : TransparentConfig) (rows : AddressRows) (change : Finset ℕ) :
    TransparentMatcher where
  all := rows.recorded.image .external ∪ change.image .internal ∪
    (gapWindow cfg (rows.frontier cfg)).image .external
  lookahead := gapWindow cfg (rows.frontier cfg) \ rows.recorded

/-! ## Receives -/

structure ReceivedOutput where
  outpoint : OutPoint
  recipient : Taddr
  deriving DecidableEq, Repr

/-- The receiving side of the wallet database. -/
structure TransparentDb where
  rows : AddressRows
  change : Finset ℕ
  received : Finset ReceivedOutput

/-- The rows gap maintenance generates once these indices are funded. -/
abbrev GapMaintenance := Finset ℕ → Finset ℕ

/-- At most the `gap_limit` rows after the highest funded index. -/
def GapMaintenance.Lawful (cfg : TransparentConfig) (gap : GapMaintenance) : Prop :=
  ∀ funded, ∀ i ∈ gap funded, funded.sup id < i ∧ i ≤ funded.sup id + cfg.gapLimit

namespace TransparentDb

/-- The external indices the recorded outputs pay. -/
def funded (db : TransparentDb) : Finset ℕ :=
  db.received.biUnion fun out => match out.recipient with
    | .external i => {i}
    | _ => ∅

/-- `put_received_transparent_utxo`: an output paying an address without a row is refused
(`AddressNotRecognized`); a funded address counts as exposed. -/
def putReceivedTransparentUtxo (gap : GapMaintenance) (db : TransparentDb)
    (out : ReceivedOutput) : Option TransparentDb :=
  let db' := { db with received := insert out db.received }
  match out.recipient with
  | .external i =>
    if i ∈ db.rows.recorded then
      some { db' with rows := (db.rows.getAddressForIndex i).generate (gap db'.funded) }
    else none
  | .internal i => if i ∈ db.change then some db' else none
  | .foreign _ => none

/-- `record_lookahead_address`, where the recipient is a lookahead address. -/
def recordLookaheadAddress (m : TransparentMatcher) (db : TransparentDb) (addr : Taddr) :
    TransparentDb :=
  match m.lookaheadIndex addr with
  | some i => { db with rows := db.rows.getAddressForIndex i }
  | none => db

/-- One matched output: its row first, if it needs one, then the receive itself. The flag is
whether it was recorded. -/
def recordReceive (gap : GapMaintenance) (m : TransparentMatcher) (db : TransparentDb)
    (out : ReceivedOutput) : TransparentDb × Bool :=
  let db := db.recordLookaheadAddress m out.recipient
  match db.putReceivedTransparentUtxo gap out with
  | some db' => (db', true)
  | none => (db, false)

end TransparentDb

def beyondRecoveryHorizon (cfg : TransparentConfig) (i : ℕ) : RpcError :=
  .wallet ("transparent address gap limit reached: external index (" ++ toString i ++
    ") is beyond the recovery horizon (" ++ toString cfg.recoveryHorizon ++
    " = transparent_gap_limit past the restore floor), so it would not be recoverable from " ++
    "seed. Raise [pools] transparent_initial_scan to your issuance high-water mark " ++
    "(preferred - a large transparent_gap_limit makes every recorded transparent receive " ++
    "re-derive the whole window), fund a lower-index address, or set " ++
    "transparent_allow_beyond_recovery_window = true to issue beyond the horizon anyway.")

/-- `expose_transparent_index`: record and expose an index, refused past the recovery horizon
unless the operator allows it. -/
def exposeTransparentIndex (cfg : TransparentConfig) (db : TransparentDb) (i : ℕ) :
    Except RpcError TransparentDb :=
  if cfg.recoveryHorizon ≤ i ∧ cfg.allowBeyondRecoveryWindow = false then
    .error (beyondRecoveryHorizon cfg i)
  else if nonHardenedChildren ≤ i then
    .error (.wallet "address generation failed: transparent child index out of range")
  else .ok { db with rows := db.rows.getAddressForIndex i }

/-! ## The matcher of the actor -/

/-- The fields of the actor around the matcher; `set_dirty` asks the next pass for a rebuild. -/
structure MatcherState where
  db : TransparentDb
  matcher : Option TransparentMatcher
  setDirty : Bool

inductive MatcherEvent where
  /-- An output of a scanned block or of the mempool. -/
  | receive (out : ReceivedOutput)
  | expose (i : ℕ)
  | rebuild
  deriving DecidableEq, Repr

def MatcherEvent.step (cfg : TransparentConfig) (gap : GapMaintenance) (s : MatcherState) :
    MatcherEvent → MatcherState
  | .receive out =>
    match s.matcher with
    | none => s
    | some m =>
      if out.recipient ∈ m.all then
        let (db, recorded) := s.db.recordReceive gap m out
        { s with db, setDirty := s.setDirty || recorded }
      else s
  | .expose i =>
    match exposeTransparentIndex cfg s.db i with
    | .ok db => { s with db, setDirty := true }
    | .error _ => s
  | .rebuild =>
    { s with matcher := some (rebuildTransparentSet cfg s.db.rows s.db.change), setDirty := false }

end Zecd
