import Zecd.Sync.Engine

/-! # What a batch is matched against

The actor keeps an address set and an outpoint set, each with a flag that asks for a rebuild
before the next batch. A rebuild reads the database; one whose read fails keeps the old set and
the flag, and the batch is scanned all the same. The wallet layer records outputs and receivers
of its own accord whenever a transaction is stored, and most stores set no flag.
-/

namespace Zecd.Watch

open Runs

/-! ## The actor -/

structure RebuildReads where
  /-- Every receiver of the account, change included. -/
  receivers : Bool
  /-- The external receivers, for the frontier. -/
  external : Bool
  /-- The account's viewing key; without it the set has no lookahead. -/
  viewingKey : Bool
  outpoints : Bool
  deriving DecidableEq, Repr

/-- A batch handed to the scanner: its sets, and what the database held when it started. -/
structure Batch where
  matcher : Option TransparentMatcher
  unspent : Option (Finset OutPoint)
  db : TransparentDb
  stored : List Tx

structure State where
  sync : SyncState
  batches : List Batch

/-- The wallet's rows and transactions when the actor starts; neither set is built. -/
def State.start (db : TransparentDb) (stored : List Tx) : State :=
  ⟨{ SyncState.start db.rows db.change with db, stored }, []⟩

/-- `put_received_transparent_utxo`: whatever it records, or nothing. -/
abbrev Put := TransparentDb → ReceivedOutput → Option TransparentDb

/-- A transaction handed to the wallet layer to store, and what it records of it: the outputs that
pay the account's own addresses, and the rows of the gap these extend. -/
structure StoredTx where
  tx : Tx
  records : TransparentDb → TransparentDb

/-- What came of a batch over a range the scan queue suggests. -/
inductive BatchOutcome where
  /-- The download or the scan fails. -/
  | failed
  | reorged
  /-- The range is applied: the outputs found in it, and the transactions stored for coinbase
  receives and for spends. -/
  | applied (outputs : List ReceivedOutput) (put : Put) (coinbases spending : List StoredTx)

inductive Event where
  /-- A transparent address is handed out, whatever rows that leaves. -/
  | issue (rows : AddressRows) (change : Finset ℕ)
  /-- A transaction of the mempool or of an address search is stored, and its outputs matched. -/
  | transaction (x : StoredTx) (outputs : List ReceivedOutput) (put : Put)
  /-- Any other transaction is stored: an enhancement, a shielded send, a shielding of coinbase. -/
  | store (x : StoredTx)
  /-- `do_send_transparent`: the rows an external change address leaves, where no internal one is
  found, and the transaction, if it gets as far as storing one. -/
  | sendTransparent (change : Option AddressRows) (x : Option StoredTx)
  /-- A merge stores its transaction; a failed read back ends it before the flag is set. -/
  | merge (x : StoredTx) (readBack : Bool)
  /-- A rewind un-mines transactions. It deletes no receiver, no output and no spend. -/
  | rewind
  /-- A chunk of the initial window is exposed; a pass that leaves more does not scan. -/
  | preexpose (rows : AddressRows)
  /-- The rest of `sync_step`; with nothing suggested, no batch is scanned. -/
  | pass (reads : RebuildReads) (outcome : Option BatchOutcome)

/-- `rebuild_transparent_set`, where the viewing key may be unreadable. -/
def buildSet (cfg : TransparentConfig) (viewingKey : Bool) (db : TransparentDb) :
    TransparentMatcher :=
  if viewingKey then rebuildTransparentSet cfg db.rows db.change
  else ⟨db.rows.recorded.image .external ∪ db.change.image .internal, ∅⟩

def rebuildSet (cfg : TransparentConfig) (reads : RebuildReads) (s : SyncState) : SyncState :=
  if reads.receivers && reads.external then
    { s with matcher := some (buildSet cfg reads.viewingKey s.db), setDirty := false }
  else s

def rebuildUnspent (reads : RebuildReads) (s : SyncState) : SyncState :=
  if reads.outpoints then
    { s with unspent := some (unspentTransparentOutpoints s.db s.stored), unspentDirty := false }
  else s

/-- What a pass does before its batch. -/
def refresh (cfg : TransparentConfig) (reads : RebuildReads) (s : SyncState) : SyncState :=
  let s := if s.setDirty then rebuildSet cfg reads s else s
  if s.unspentDirty then rebuildUnspent reads s else s

/-- One matched output: its row first, if it needs one, then the receive itself. -/
def record (put : Put) (m : TransparentMatcher) (acc : TransparentDb × ℕ) (out : ReceivedOutput) :
    TransparentDb × ℕ :=
  let db := acc.1.recordLookaheadAddress m out.recipient
  match put db out with
  | some db => (db, acc.2 + 1)
  | none => (db, acc.2)

/-- The outputs the matcher knows, recorded in turn, and how many were. -/
def recordMatched (put : Put) (s : SyncState) (outputs : List ReceivedOutput) :
    TransparentDb × ℕ :=
  match s.matcher with
  | none => (s.db, 0)
  | some m => (outputs.filter fun out => decide (out.recipient ∈ m.all)).foldl (record put m)
      (s.db, 0)

def storeTx (s : SyncState) (x : StoredTx) : SyncState :=
  { s with db := x.records s.db, stored := s.stored ++ [x.tx] }

/-- Matched outputs are recorded, and the sets marked stale if any was. -/
def recordReceives (s : SyncState) (outputs : List ReceivedOutput) (put : Put) : SyncState :=
  let (db, recorded) := recordMatched put s outputs
  { s with
    db
    setDirty := s.setDirty || decide (0 < recorded)
    unspentDirty := s.unspentDirty || decide (0 < recorded) }

/-- The receives of an applied range. The flag of its spends, which the actor sets once they are
stored, is set here already: no store reads it. -/
def recordBatch (s : SyncState) (outputs : List ReceivedOutput) (put : Put)
    (spending : List StoredTx) : SyncState :=
  let s := recordReceives s outputs put
  { s with unspentDirty := s.unspentDirty || !spending.isEmpty }

def applyBatch (s : SyncState) : BatchOutcome → SyncState
  | .failed | .reorged => s
  | .applied outputs put coinbases spending =>
    run storeTx (recordBatch s outputs put spending) (coinbases ++ spending)

def pass (cfg : TransparentConfig) (s : State) (reads : RebuildReads)
    (outcome : Option BatchOutcome) : State :=
  let sync := refresh cfg reads s.sync
  match outcome with
  | none => { s with sync }
  | some outcome =>
    ⟨applyBatch sync outcome, s.batches ++ [⟨sync.matcher, sync.unspent, sync.db, sync.stored⟩]⟩

/-- The external change address a transparent send falls back to. -/
def exposeChange (s : SyncState) (change : Option AddressRows) : SyncState :=
  { s with db := { s.db with rows := change.getD s.db.rows } }

def step (cfg : TransparentConfig) (s : State) : Event → State
  | .issue rows change => { s with
      sync := { s.sync with db := { s.sync.db with rows, change }, setDirty := true } }
  | .transaction x outputs put => { s with
      sync := recordReceives (storeTx s.sync x) outputs put }
  | .store x => { s with sync := storeTx s.sync x }
  | .sendTransparent change x =>
    let sync := exposeChange s.sync change
    match x with
    | none => { s with sync }
    | some x => { s with sync := storeTx { sync with unspentDirty := true } x }
  | .merge x readBack => { s with
      sync := storeTx { s.sync with unspentDirty := s.sync.unspentDirty || readBack } x }
  | .rewind => s
  | .preexpose rows => { s with
      sync := { s.sync with db := { s.sync.db with rows }, setDirty := true } }
  | .pass reads outcome => pass cfg s reads outcome

/-! ## What a batch should be matched against -/

/-- The set has every receiver the database records. -/
def Holds (m : TransparentMatcher) (db : TransparentDb) : Prop :=
  (∀ i ∈ db.rows.recorded, .external i ∈ m.all) ∧ ∀ i ∈ db.change, .internal i ∈ m.all

structure Batch.Watched (b : Batch) : Prop where
  addresses : ∃ m, b.matcher = some m ∧ Holds m b.db
  outpoints : ∃ watch, b.unspent = some watch ∧ unspentTransparentOutpoints b.db b.stored ⊆ watch

/-- What the wallet layer newly records with a transaction is in the sets that are not marked stale
for it: its receivers in the address set, its outputs, unless they are spent, in the other. -/
structure Known (s : SyncState) (x : StoredTx) : Prop where
  external : s.setDirty = false → ∀ m ∈ s.matcher, ∀ i ∈ (x.records s.db).rows.recorded,
    i ∉ s.db.rows.recorded → .external i ∈ m.all
  internal : s.setDirty = false → ∀ m ∈ s.matcher, ∀ i ∈ (x.records s.db).change,
    i ∉ s.db.change → .internal i ∈ m.all
  outputs : s.unspentDirty = false → ∀ watch ∈ s.unspent, ∀ out ∈ (x.records s.db).received,
    out ∉ s.db.received → out.outpoint ∈ watch ∨ ∃ t ∈ s.stored ++ [x.tx], out.outpoint ∈ t.inputs

/-- The rebuilds a pass asks for can read what they need, a change address exposed by a send is one
the set has, or will be rebuilt with, and what a store records without marking a set stale is in
the set. -/
def Refreshed (cfg : TransparentConfig) (s : State) : Event → Prop
  | .pass reads outcome =>
    (s.sync.setDirty = true → reads.receivers = true ∧ reads.external = true) ∧
    (s.sync.unspentDirty = true → reads.outpoints = true) ∧
    ∀ outputs put coinbases spending, outcome = some (.applied outputs put coinbases spending) →
      Along storeTx Known (recordBatch (refresh cfg reads s.sync) outputs put spending)
        (coinbases ++ spending)
  | .transaction x outputs put =>
    (recordMatched put (storeTx s.sync x) outputs).2 = 0 → Known s.sync x
  | .store x => Known s.sync x
  | .sendTransparent change x =>
    (∀ rows ∈ change, s.sync.setDirty = false →
      ∀ m ∈ s.sync.matcher, ∀ i ∈ rows.recorded, .external i ∈ m.all) ∧
    ∀ y ∈ x, Known { exposeChange s.sync change with unspentDirty := true } y
  | .merge x readBack => Known { s.sync with unspentDirty := s.sync.unspentDirty || readBack } x
  | _ => True

/-! ## The invariant -/

/-- A set that is not marked stale has what it should. -/
structure Fresh (s : SyncState) : Prop where
  addresses : s.setDirty = false → ∃ m, s.matcher = some m ∧ Holds m s.db
  outpoints : s.unspentDirty = false →
    ∃ watch, s.unspent = some watch ∧ unspentTransparentOutpoints s.db s.stored ⊆ watch

variable {cfg : TransparentConfig} {s : SyncState} {db : TransparentDb} {m : TransparentMatcher}
  {put : Put}

theorem buildSet_holds (cfg : TransparentConfig) (viewingKey : Bool) (db : TransparentDb) :
    Holds (buildSet cfg viewingKey db) db := by
  cases viewingKey with
  | true =>
    constructor
    · intro i hi
      simp [buildSet, rebuildTransparentSet, hi]
    · intro i hi
      simp [buildSet, rebuildTransparentSet, hi]
  | false =>
    constructor
    · intro i hi
      simp [buildSet, hi]
    · intro i hi
      simp [buildSet, hi]

theorem Fresh.storeTx (h : Fresh s) {x : StoredTx} (hx : Known s x) : Fresh (storeTx s x) := by
  constructor
  · intro hclean
    obtain ⟨m, hm, hholds⟩ := h.addresses hclean
    refine ⟨m, hm, fun i hi => ?_, fun i hi => ?_⟩
    · by_cases hold : i ∈ s.db.rows.recorded
      · exact hholds.1 i hold
      · exact hx.external hclean m hm i hi hold
    · by_cases hold : i ∈ s.db.change
      · exact hholds.2 i hold
      · exact hx.internal hclean m hm i hi hold
  · intro hclean
    obtain ⟨watch, hwatch, hsub⟩ := h.outpoints hclean
    refine ⟨watch, hwatch, fun o ho => ?_⟩
    obtain ⟨hrec, hnone⟩ := Finset.mem_filter.mp ho
    obtain ⟨out, hout, rfl⟩ := Finset.mem_image.mp hrec
    by_cases hold : out ∈ s.db.received
    · refine hsub (Finset.mem_filter.mpr ⟨Finset.mem_image_of_mem _ hold, fun t ht => ?_⟩)
      exact hnone t (List.mem_append_left _ ht)
    · rcases hx.outputs hclean watch hwatch out hout hold with hin | ⟨t, ht, hspent⟩
      · exact hin
      · exact absurd hspent (hnone t ht)

theorem Fresh.mark (h : Fresh s) {setDirty unspentDirty : Bool}
    (hset : setDirty = false → s.setDirty = false)
    (hunspent : unspentDirty = false → s.unspentDirty = false) :
    Fresh { s with setDirty, unspentDirty } :=
  ⟨fun hclean => h.addresses (hset hclean), fun hclean => h.outpoints (hunspent hclean)⟩

/-! ## Rebuilding -/

theorem Fresh.rebuildSet (h : Fresh s) (reads : RebuildReads) :
    Fresh (Watch.rebuildSet cfg reads s) := by
  unfold Watch.rebuildSet
  split
  · exact ⟨fun _ => ⟨_, rfl, buildSet_holds cfg reads.viewingKey s.db⟩, h.outpoints⟩
  · exact h

theorem Fresh.rebuildUnspent (h : Fresh s) (reads : RebuildReads) :
    Fresh (Watch.rebuildUnspent reads s) := by
  unfold Watch.rebuildUnspent
  split
  · exact ⟨h.addresses, fun _ => ⟨_, rfl, Finset.Subset.refl _⟩⟩
  · exact h

theorem Fresh.refresh (h : Fresh s) (reads : RebuildReads) : Fresh (refresh cfg reads s) := by
  have hset : Fresh (if s.setDirty then Watch.rebuildSet cfg reads s else s) := by
    split
    · exact h.rebuildSet reads
    · exact h
  unfold Watch.refresh
  dsimp only
  generalize (if s.setDirty then Watch.rebuildSet cfg reads s else s) = s' at hset ⊢
  split
  · exact hset.rebuildUnspent reads
  · exact hset

variable (cfg) in
theorem refresh_clean {reads : RebuildReads}
    (hset : s.setDirty = true → reads.receivers = true ∧ reads.external = true)
    (hunspent : s.unspentDirty = true → reads.outpoints = true) :
    (refresh cfg reads s).setDirty = false ∧ (refresh cfg reads s).unspentDirty = false := by
  have hfirst : ∃ s' : SyncState, (if s.setDirty then rebuildSet cfg reads s else s) = s' ∧
      s'.setDirty = false ∧ s'.unspentDirty = s.unspentDirty := by
    split
    · next hdirty =>
      obtain ⟨hr, he⟩ := hset hdirty
      exact ⟨_, rfl, by simp [rebuildSet, hr, he]⟩
    · next hclean => exact ⟨s, rfl, by simpa using hclean, rfl⟩
  obtain ⟨s', heq, hclean, hsame⟩ := hfirst
  unfold refresh
  dsimp only
  rw [heq]
  split
  · next hdirty =>
    have hread := hunspent (hsame ▸ hdirty)
    simp [rebuildUnspent, hread, hclean]
  · next hdirty => exact ⟨hclean, by simpa using hdirty⟩

/-! ## Recording -/

theorem record_le (put : Put) (m : TransparentMatcher) (outs : List ReceivedOutput) :
    ∀ acc : TransparentDb × ℕ, acc.2 ≤ (outs.foldl (record put m) acc).2 := by
  induction outs with
  | nil => exact fun acc => le_rfl
  | cons out outs ih =>
    intro acc
    have hone : acc.2 ≤ (record put m acc out).2 := by
      unfold record
      dsimp only
      split
      · exact Nat.le_succ _
      · exact le_rfl
    exact hone.trans (ih _)

theorem lookaheadIndex_eq_some {addr : Taddr} {i : ℕ} (h : m.lookaheadIndex addr = some i) :
    addr = .external i := by
  cases addr with
  | external j =>
    simp only [TransparentMatcher.lookaheadIndex] at h
    split at h
    · rw [Option.some.inj h]
    · cases h
  | internal j => cases h
  | foreign j => cases h

variable (db) in
theorem recordLookaheadAddress_holds {addr : Taddr} (hknown : addr ∈ m.all) :
    (Holds m db → Holds m (db.recordLookaheadAddress m addr)) ∧
      (db.recordLookaheadAddress m addr).received = db.received := by
  unfold TransparentDb.recordLookaheadAddress
  split
  · next i hi =>
    obtain rfl := lookaheadIndex_eq_some hi
    refine ⟨fun hm => ⟨?_, hm.2⟩, rfl⟩
    intro j hj
    rcases Finset.mem_insert.mp hj with rfl | hold
    · exact hknown
    · exact hm.1 j hold
  · exact ⟨id, rfl⟩

theorem record_none {outs : List ReceivedOutput} {n : ℕ}
    (hknown : ∀ out ∈ outs, out.recipient ∈ m.all)
    (hcount : (outs.foldl (record put m) (db, n)).2 = n) :
    (Holds m db → Holds m (outs.foldl (record put m) (db, n)).1) ∧
      (outs.foldl (record put m) (db, n)).1.received = db.received := by
  induction outs generalizing db with
  | nil => exact ⟨id, rfl⟩
  | cons out outs ih =>
    have hrow := recordLookaheadAddress_holds db (hknown out List.mem_cons_self)
    rw [List.foldl_cons] at hcount ⊢
    cases hput : put (db.recordLookaheadAddress m out.recipient) out with
    | some db' =>
      have hone : record put m (db, n) out = (db', n + 1) := by simp [record, hput]
      have hle := record_le put m outs (db', n + 1)
      rw [hone] at hcount
      simp only at hle
      omega
    | none =>
      have hone : record put m (db, n) out = (db.recordLookaheadAddress m out.recipient, n) := by
        simp [record, hput]
      rw [hone] at hcount ⊢
      obtain ⟨hholds, hreceived⟩ :=
        ih (fun o ho => hknown o (List.mem_cons_of_mem _ ho)) hcount
      exact ⟨hholds ∘ hrow.1, hreceived.trans hrow.2⟩

theorem recordMatched_none {outputs : List ReceivedOutput}
    (hcount : (recordMatched put s outputs).2 = 0) :
    (∀ m, s.matcher = some m → Holds m s.db → Holds m (recordMatched put s outputs).1) ∧
      (recordMatched put s outputs).1.received = s.db.received := by
  unfold recordMatched at hcount ⊢
  cases hm : s.matcher with
  | none => exact ⟨nofun, rfl⟩
  | some m =>
    rw [hm] at hcount
    obtain ⟨hholds, hreceived⟩ := record_none
      (fun out ho => of_decide_eq_true (List.mem_filter.mp ho).2) hcount
    refine ⟨?_, hreceived⟩
    intro m' hm'
    obtain rfl := Option.some.inj hm'
    exact hholds

theorem unspentTransparentOutpoints_congr {db' : TransparentDb} {stored : List Tx}
    (h : db'.received = db.received) :
    unspentTransparentOutpoints db' stored = unspentTransparentOutpoints db stored := by
  rw [unspentTransparentOutpoints, unspentTransparentOutpoints, h]

theorem flag_clean {dirty : Bool} {n : ℕ} (h : (dirty || decide (0 < n)) = false) :
    dirty = false ∧ n = 0 := by
  simpa using h

/-- Recording keeps the sets fresh, since what it records marks them stale. -/
theorem Fresh.recordReceives (h : Fresh s) (outputs : List ReceivedOutput) (put : Put) :
    Fresh (recordReceives s outputs put) := by
  constructor
  · intro hclean
    obtain ⟨hclean, hcount⟩ := flag_clean hclean
    obtain ⟨m, hm, hholds⟩ := h.addresses hclean
    exact ⟨m, hm, (recordMatched_none hcount).1 m hm hholds⟩
  · intro hclean
    obtain ⟨hclean, hcount⟩ := flag_clean hclean
    obtain ⟨watch, hwatch, hsub⟩ := h.outpoints hclean
    refine ⟨watch, hwatch, ?_⟩
    rwa [Watch.recordReceives, unspentTransparentOutpoints_congr (recordMatched_none hcount).2]

theorem applyBatch_fresh (h : Fresh s) (outcome : BatchOutcome)
    (hknown : ∀ outputs put coinbases spending, outcome = .applied outputs put coinbases spending →
      Along storeTx Known (recordBatch s outputs put spending) (coinbases ++ spending)) :
    Fresh (applyBatch s outcome) := by
  cases outcome with
  | failed => exact h
  | reorged => exact h
  | applied outputs put coinbases spending =>
    refine invariant (fun s x hs hx => hs.storeTx hx) ?_ (hknown _ _ _ _ rfl)
    exact (h.recordReceives outputs put).mark id fun hclean => (Bool.or_eq_false_iff.mp hclean).1

/-! ## Runs -/

structure Inv (s : State) : Prop where
  fresh : Fresh s.sync
  batches : ∀ b ∈ s.batches, b.Watched

theorem start_inv (db : TransparentDb) (stored : List Tx) : Inv (.start db stored) :=
  ⟨⟨nofun, nofun⟩, nofun⟩

theorem pass_inv {s : State} (hi : Inv s) {reads : RebuildReads} (outcome : Option BatchOutcome)
    (he : Refreshed cfg s (.pass reads outcome)) : Inv (pass cfg s reads outcome) := by
  have hfresh : Fresh (refresh cfg reads s.sync) := hi.fresh.refresh reads
  cases outcome with
  | none => exact ⟨hfresh, hi.batches⟩
  | some outcome =>
    refine ⟨applyBatch_fresh hfresh outcome fun outputs put coinbases spending heq =>
      he.2.2 outputs put coinbases spending (congrArg some heq), ?_⟩
    intro b hb
    rcases List.mem_append.mp hb with hold | hnew
    · exact hi.batches b hold
    · obtain rfl := List.mem_singleton.mp hnew
      obtain ⟨hset, hunspent⟩ := refresh_clean cfg he.1 he.2.1
      exact ⟨hfresh.addresses hset, hfresh.outpoints hunspent⟩

theorem exposeChange_fresh (h : Fresh s) {change : Option AddressRows}
    (hchange : ∀ rows ∈ change, s.setDirty = false →
      ∀ m ∈ s.matcher, ∀ i ∈ rows.recorded, .external i ∈ m.all) :
    Fresh (exposeChange s change) := by
  refine ⟨fun hclean => ?_, h.outpoints⟩
  obtain ⟨m, hm, hholds⟩ := h.addresses hclean
  refine ⟨m, hm, ?_, hholds.2⟩
  cases change with
  | none => exact hholds.1
  | some rows => exact hchange rows rfl hclean m hm

theorem step_inv (s : State) (e : Event) (hi : Inv s) (he : Refreshed cfg s e) :
    Inv (step cfg s e) := by
  cases e with
  | issue rows change => exact ⟨⟨nofun, hi.fresh.outpoints⟩, hi.batches⟩
  | transaction x outputs put =>
    refine ⟨?_, hi.batches⟩
    by_cases hcount : (recordMatched put (storeTx s.sync x) outputs).2 = 0
    · exact (hi.fresh.storeTx (he hcount)).recordReceives outputs put
    · -- what is recorded marks both sets stale
      constructor
      · exact fun hclean => absurd (flag_clean hclean).2 hcount
      · exact fun hclean => absurd (flag_clean hclean).2 hcount
  | store x => exact ⟨hi.fresh.storeTx he, hi.batches⟩
  | sendTransparent change x =>
    have hexposed : Fresh (exposeChange s.sync change) := exposeChange_fresh hi.fresh he.1
    cases x with
    | none => exact ⟨hexposed, hi.batches⟩
    | some x =>
      have hmarked : Fresh { exposeChange s.sync change with unspentDirty := true } :=
        hexposed.mark id nofun
      exact ⟨hmarked.storeTx (he.2 x rfl), hi.batches⟩
  | merge x readBack =>
    have hmarked : Fresh { s.sync with unspentDirty := s.sync.unspentDirty || readBack } :=
      hi.fresh.mark id fun hclean => (Bool.or_eq_false_iff.mp hclean).1
    exact ⟨hmarked.storeTx he, hi.batches⟩
  | rewind => exact hi
  | preexpose rows => exact ⟨⟨nofun, hi.fresh.outpoints⟩, hi.batches⟩
  | pass reads outcome => exact pass_inv hi outcome he

def allRead : RebuildReads := ⟨true, true, true, true⟩

/-- An enhancement of a transaction that pays the second address. -/
def enhancement : StoredTx where
  tx := ⟨7, false, [], [(.external 1, 500)]⟩
  records db := { db with received := insert ⟨(7, 0), .external 1⟩ db.received }

end Zecd.Watch
