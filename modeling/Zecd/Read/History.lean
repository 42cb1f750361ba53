import Mathlib
import Zecd.Read.Tables

/-! # Transaction history

How the history RPCs read a transaction out of the wallet database and render it: the records
of `get_transaction` and `received_tx_records`, the entries of `listtransactions`,
`z_listtransactions` and `gettransaction`, and the received-by aggregation. Address encodings
and memo parsing belong to the key layer and are parameters.
-/

namespace Zecd

structure BlockRow where
  height : ℕ
  hash : String
  time : ℤ
  deriving DecidableEq, Repr

/-- A wallet database with its scanned blocks. -/
structure HistoryDb extends WalletDb where
  blocks : List BlockRow

/-- The address and memo functions of the key layer, for the wallet's network and receivers. -/
structure AddressCodec where
  singleReceiverForPool : String → PoolType → Option String
  issuedEncoding : String → Option String
  isEmptyMemo : String → Bool
  memoText : String → Option String

/-! ## Records -/

structure TxRecord where
  minedHeight : Option ℕ
  txid : ℕ
  expiryHeight : Option ℕ
  accountBalanceDelta : ℤ
  feePaid : Option ℕ
  blockTime : Option ℤ
  expiredUnmined : Bool
  txIndex : Option ℕ
  blockHash : Option String
  outputs : List TxOutputRecord
  deriving DecidableEq, Repr

namespace HistoryDb

variable (db : HistoryDb)

def maxHeight : Option ℕ := (db.blocks.map BlockRow.height).max?

def expiredUnmined (t : TransactionRow) : Bool :=
  t.minedHeight.isNone && db.maxHeight.any fun tip =>
    match t.expiryHeight with
    | some expiry => decide (1 ≤ expiry ∧ expiry ≤ tip)
    | none => decide (t.targetHeight.getD t.minObservedHeight + 120 ≤ tip)

def blockOf (t : TransactionRow) : Option BlockRow :=
  t.minedHeight.bind fun h => db.blocks.find? (·.height == h)

/-- Whether the scoped account received or spent in the transaction. -/
def involves (scope : AccountScope) (t : TransactionRow) : Bool :=
  !(db.mineNotes scope t.idTx).isEmpty

/-- The record of `get_transaction`, and of the history queries, for a transaction row. -/
def txRecord (scope : AccountScope) (omitMemos : Bool) (t : TransactionRow) : TxRecord where
  minedHeight := t.minedHeight
  txid := t.txid
  expiryHeight := t.expiryHeight
  accountBalanceDelta := db.accountBalanceDelta scope t.idTx
  feePaid := t.fee
  blockTime := (db.blockOf t).map BlockRow.time
  expiredUnmined := db.expiredUnmined t
  txIndex := t.txIndex
  blockHash := (db.blockOf t).map BlockRow.hash
  outputs := db.loadOutputs scope t.idTx omitMemos

structure ReceivedRow where
  transaction : TransactionRow
  output : TxOutputRecord

/-- `o.to_address IN (..)`. -/
def addressMatches (addressFilter : Option (List String)) (out : TxOutputRecord) : Bool :=
  match addressFilter with
  | none => true
  | some candidates => out.toAddress.any candidates.contains

/-- The joined rows: every output of every transaction the scoped account is involved in. -/
def receivedRows (scope : AccountScope) (addressFilter : Option (List String)) :
    List ReceivedRow :=
  (db.vTransactions.filter fun v => WalletDb.scopeByUuid scope (some v.accountUuid)).flatMap
    fun v => (db.transactions.filter (·.txid == v.transaction.txid)).flatMap fun t =>
      ((db.vTxOutputs.filter fun o =>
        o.1 == v.transaction.txid && addressMatches addressFilter o.2)).map fun o => ⟨t, o.2⟩

/-- `ORDER BY` of the flat query: by height, rows without a height last, then by transaction
and output. -/
def sortKey (r : ReceivedRow) : List ℕ :=
  (match r.transaction.minedHeight.or (r.transaction.expiryHeight.filter (· != 0)) with
    | some h => [0, h]
    | none => [1, 0]) ++
  [r.transaction.txid, r.output.pool.code, r.output.outputIndex]

/-- The columns the aggregation does not use are not read. -/
def receivedOutput (out : TxOutputRecord) : TxOutputRecord :=
  { out with outputIndex := 0, fromAccount := none, memo := none, diversifierIndex := none }

def receivedRecord (t : TransactionRow) (rows : List ReceivedRow) : TxRecord where
  minedHeight := t.minedHeight
  txid := t.txid
  expiryHeight := none
  accountBalanceDelta := 0
  feePaid := none
  blockTime := none
  expiredUnmined := db.expiredUnmined t
  txIndex := t.txIndex
  blockHash := none
  outputs := rows.map fun r => receivedOutput r.output

def groupRows (rows : List ReceivedRow) : List TxRecord :=
  (rows.map fun r => r.transaction.txid).reverse.dedup.reverse.flatMap fun txid =>
    match rows.filter fun r => r.transaction.txid == txid with
    | [] => []
    | r :: rs => [db.receivedRecord r.transaction (r :: rs)]

def receivedTxRecords (scope : AccountScope) (addressFilter : Option (List String)) :
    List TxRecord :=
  db.groupRows ((db.receivedRows scope addressFilter).insertionSort fun x y =>
    sortKey x ≤ sortKey y)

end HistoryDb

/-! ## Entries -/

inductive Category
  | send
  | receive
  deriving DecidableEq, Repr

/-- The categories of an output: a self-transfer is a pair. -/
def outputCategories (fromAccount toAccount : Bool) : List Category :=
  match fromAccount, toAccount with
  | false, true => [.receive]
  | true, false => [.send]
  | true, true => [.send, .receive]
  | false, false => []

/-- The amount of an entry: sends are negative. -/
def Category.amount (category : Category) (value : ℤ) : ℤ :=
  match category with
  | .send => -value
  | .receive => value

/-- What the history methods know of the chain from the actor. -/
structure ScanStatus where
  fullyScanned : Option ℕ
  deriving DecidableEq, Repr

def ScanStatus.confirmations (st : ScanStatus) (minedHeight : Option ℕ) : ℤ :=
  match st.fullyScanned, minedHeight with
  | some scanned, some h => if h ≤ scanned then (scanned : ℤ) - h + 1 else 0
  | _, _ => 0

/-- Confirmations of a transaction, -1 once it can no longer confirm. -/
def txConfirmations (st : ScanStatus) (tx : TxRecord) : ℤ :=
  if tx.expiredUnmined then -1 else st.confirmations tx.minedHeight

/-- The address shown for an output: the receiver actually paid. -/
def displayAddress (codec : AddressCodec) (out : TxOutputRecord) : String :=
  match out.toAddress with
  | none => ""
  | some addr => (codec.singleReceiverForPool addr out.pool).getD addr

/-- The memo fields of an output; the canonical empty memo is dropped. -/
structure MemoFields where
  memo : Option String
  memoStr : Option String
  deriving DecidableEq, Repr

def pushMemoFields (codec : AddressCodec) (memo : Option String) : MemoFields :=
  match memo.filter fun m => !codec.isEmptyMemo m with
  | none => ⟨none, none⟩
  | some m => ⟨some m, codec.memoText m⟩

/-- The block and time fields shared by the history methods. -/
structure WalletTxFields where
  blockHash : Option String
  blockHeight : Option ℕ
  blockIndex : Option ℕ
  blockTime : Option ℤ
  trusted : Option Bool
  time : ℤ
  deriving DecidableEq, Repr

def pushWalletTxFields (tx : TxRecord) (time : ℤ) : WalletTxFields :=
  match tx.minedHeight with
  | some h => ⟨tx.blockHash, some h, tx.txIndex, tx.blockTime, none, time⟩
  | none =>
    ⟨none, none, none, none, some (!tx.expiredUnmined && decide (tx.accountBalanceDelta < 0)), time⟩

/-- One entry for each category of each output that is not internal change. -/
def outputEntries {α : Type} (entry : TxOutputRecord → Category → α)
    (outputs : List TxOutputRecord) : List α :=
  (outputs.filter fun out => !out.isInternalChange).flatMap fun out =>
    (outputCategories out.fromAccount.isSome out.toAccount.isSome).map (entry out)

/-- The fields that every kind of entry has of its output. -/
structure EntryCore where
  address : String
  category : Category
  amount : ℤ
  vout : ℕ
  pool : PoolType
  diversifierIndex : Option ℕ
  fee : Option ℤ
  memo : MemoFields
  deriving DecidableEq, Repr

def entryCore (codec : AddressCodec) (tx : TxRecord) (out : TxOutputRecord)
    (category : Category) : EntryCore where
  address := displayAddress codec out
  category := category
  amount := category.amount out.value
  vout := out.outputIndex
  pool := out.pool
  diversifierIndex := if category = .receive then out.diversifierIndex else none
  fee := if category = .send then tx.feePaid.map fun fee => -(fee : ℤ) else none
  memo := pushMemoFields codec out.memo

structure TxEntry extends EntryCore where
  confirmations : ℤ
  txid : ℕ
  abandoned : Option Bool
  walletTx : WalletTxFields
  deriving DecidableEq, Repr

/-- The entries of `listtransactions` and `listsinceblock`. No label is ever stored, so a
filter for one matches nothing. -/
def txEntries (codec : AddressCodec) (tx : TxRecord) (confirmations time : ℤ)
    (labelFilter : Option String) : List TxEntry :=
  if labelFilter.any fun f => !f.isEmpty then []
  else outputEntries (fun out category =>
    { toEntryCore := entryCore codec tx out category
      confirmations := confirmations
      txid := tx.txid
      abandoned := if category = .send then some tx.expiredUnmined else none
      walletTx := pushWalletTxFields tx time }) tx.outputs

inductive ZTxStatus
  | mined
  | expired
  | waiting
  deriving DecidableEq, Repr

def zTxStatus (tx : TxRecord) : ZTxStatus :=
  if tx.minedHeight.isSome then .mined else if tx.expiredUnmined then .expired else .waiting

structure ZTxEntry extends EntryCore where
  txid : ℕ
  status : ZTxStatus
  confirmations : ℤ
  time : ℤ
  change : Bool
  outgoing : Bool
  blockHash : Option String
  blockHeight : Option ℕ
  blockIndex : Option ℕ
  blockTime : Option ℤ
  expiryHeight : Option ℕ
  deriving DecidableEq, Repr

def zTxEntries (codec : AddressCodec) (tx : TxRecord) (confirmations time : ℤ) : List ZTxEntry :=
  outputEntries (fun out category =>
    { toEntryCore := entryCore codec tx out category
      txid := tx.txid
      status := zTxStatus tx
      confirmations := confirmations
      time := time
      change := false
      outgoing := category = .send
      blockHash := if tx.minedHeight.isSome then tx.blockHash else none
      blockHeight := tx.minedHeight
      blockIndex := if tx.minedHeight.isSome then tx.txIndex else none
      blockTime := if tx.minedHeight.isSome then tx.blockTime else none
      expiryHeight := tx.expiryHeight.filter (· != 0) }) tx.outputs

structure DetailEntry extends EntryCore where
  abandoned : Option Bool
  deriving DecidableEq, Repr

def gettransactionDetails (codec : AddressCodec) (tx : TxRecord) : List DetailEntry :=
  outputEntries (fun out category =>
    { toEntryCore := entryCore codec tx out category
      abandoned := if category = .send then some tx.expiredUnmined else none }) tx.outputs

def walletFundedTx (accountBalanceDelta : ℤ) : Bool := decide (accountBalanceDelta < 0)

/-- `gettransaction.amount`, which excludes the fee of a transaction the wallet funded. -/
def gettransactionAmount (accountBalanceDelta : ℤ) (feePaid : Option ℕ) : ℤ :=
  if walletFundedTx accountBalanceDelta then accountBalanceDelta + (feePaid.getD 0 : ℤ)
  else accountBalanceDelta

/-! ## Received by address -/

def coinbaseMaturityConfirmations : ℤ := 100

/-- An output the aggregation counts, with what it adds. -/
structure Receipt where
  address : String
  value : ℤ
  confirmations : ℤ
  txid : ℕ
  deriving DecidableEq, Repr

/-- Immature transparent coinbase value is left out unless asked for. -/
def isImmatureCoinbase (tx : TxRecord) (conf : ℤ) (out : TxOutputRecord) : Bool :=
  tx.txIndex == some 0 && out.pool == .transparent && decide (conf < coinbaseMaturityConfirmations)

/-- What an output of a transaction adds to the aggregation, if it is counted. -/
def receiptOf (codec : AddressCodec) (includeImmatureCoinbase : Bool) (tx : TxRecord) (conf : ℤ)
    (out : TxOutputRecord) : Option Receipt :=
  if out.isInternalChange || out.toAccount.isNone then none
  else if !includeImmatureCoinbase && isImmatureCoinbase tx conf out then none
  else out.toAddress.map fun addr =>
    ⟨(codec.issuedEncoding addr).getD addr, max out.value 0, conf, tx.txid⟩

/-- The outputs `received_by_address` counts. -/
def countedReceipts (codec : AddressCodec) (txs : List TxRecord) (st : ScanStatus) (minconf : ℤ)
    (includeImmatureCoinbase : Bool) : List Receipt :=
  txs.flatMap fun tx =>
    if txConfirmations st tx < minconf then []
    else tx.outputs.filterMap (receiptOf codec includeImmatureCoinbase tx (txConfirmations st tx))

/-- An address's line: what it received, the confirmations of the newest receipt, and the
transactions. -/
structure ReceivedLine where
  amount : ℤ
  confirmations : ℤ
  txids : List ℕ
  deriving DecidableEq, Repr

def ReceivedLine.add (line : ReceivedLine) (r : Receipt) : ReceivedLine :=
  ⟨line.amount + r.value, min line.confirmations r.confirmations, line.txids ++ [r.txid]⟩

/-- Add a receipt to its address's line, or start one. -/
def addReceipt (lines : List (String × ReceivedLine)) (r : Receipt) :
    List (String × ReceivedLine) :=
  if lines.any fun l => l.1 == r.address then
    lines.map fun l => if l.1 = r.address then (l.1, l.2.add r) else l
  else lines ++ [(r.address, ⟨r.value, r.confirmations, [r.txid]⟩)]

def receivedByAddress (codec : AddressCodec) (txs : List TxRecord) (st : ScanStatus)
    (minconf : ℤ) (includeImmatureCoinbase : Bool) : List (String × ReceivedLine) :=
  (countedReceipts codec txs st minconf includeImmatureCoinbase).foldl addReceipt []

end Zecd
