import Mathlib
import Zecd.Send.Proposal

/-! # The wallet database the reads are served from

The tables of one wallet database, which may hold the accounts of several wallets, and the
statements that read them: the account scope, the expiry rule, a transaction's outputs and
what a transaction does to an account's balance. Where the source writes a view of the wallet
layer out, the view is that statement.
-/

namespace Zecd

abbrev AccountUuid := ℕ

/-- No account carries the nil UUID. -/
def nilUuid : AccountUuid := 0

inductive AccountScope where
  | any
  | only (account : AccountUuid)
  | noAccount
  deriving DecidableEq, Repr

namespace AccountScope

/-- The value bound to `:scope_account`. -/
def param : AccountScope → Option AccountUuid
  | any => none
  | only account => some account
  | noAccount => some nilUuid

def excludes : AccountScope → AccountUuid → Bool
  | any, _ => false
  | only account, a => account != a
  | noAccount, _ => true

end AccountScope

/-! ## Tables -/

structure AccountRow where
  id : ℕ
  uuid : AccountUuid
  deriving DecidableEq, Repr

structure AddressRow where
  id : ℕ
  /-- 0 external, 1 internal, -1 imported. -/
  keyScope : ℤ
  address : String
  cachedTransparentReceiverAddress : Option String
  diversifierIndex : ℕ
  deriving DecidableEq, Repr

structure TransactionRow where
  idTx : ℕ
  txid : ℕ
  minedHeight : Option ℕ
  txIndex : Option ℕ
  expiryHeight : Option ℕ
  targetHeight : Option ℕ
  minObservedHeight : ℕ
  fee : Option ℕ
  deriving DecidableEq, Repr

/-- A row of a received-note table, or of `transparent_received_outputs`, which alone carries an
address and never the change flag. -/
structure OutputRow where
  id : ℕ
  transactionId : ℕ
  outputIndex : ℕ
  accountId : ℕ
  value : ℤ
  isChange : Bool
  memo : Option String
  addressId : Option ℕ
  address : Option String
  deriving DecidableEq, Repr

structure SpendRow where
  outputId : ℕ
  transactionId : ℕ
  deriving DecidableEq, Repr

structure SentNoteRow where
  transactionId : ℕ
  outputPool : PoolType
  outputIndex : ℕ
  fromAccountId : ℕ
  value : ℤ
  toAddress : Option String
  memo : Option String
  deriving DecidableEq, Repr

def PoolType.code : PoolType → ℕ
  | .transparent => 0
  | .shielded .sapling => 2
  | .shielded .orchard => 3
  | .shielded .ironwood => 4

def allPools : List PoolType :=
  [.transparent, .shielded .sapling, .shielded .orchard, .shielded .ironwood]

/-- The tables, with the keys the schema declares unique. -/
structure WalletDb where
  accounts : List AccountRow
  addresses : List AddressRow
  transactions : List TransactionRow
  outputs : PoolType → List OutputRow
  spends : PoolType → List SpendRow
  sentNotes : List SentNoteRow
  chainHeight : Option ℕ
  uuid_ne_nil : ∀ x ∈ accounts, x.uuid ≠ nilUuid
  accounts_nodup : (accounts.map AccountRow.id).Nodup
  uuids_nodup : (accounts.map AccountRow.uuid).Nodup
  transactions_nodup : (transactions.map TransactionRow.idTx).Nodup
  txids_nodup : (transactions.map TransactionRow.txid).Nodup
  outputs_nodup : ∀ pool, ((outputs pool).map fun r => (r.transactionId, r.outputIndex)).Nodup
  sentNotes_nodup :
    (sentNotes.map fun s => (s.transactionId, s.outputPool, s.outputIndex)).Nodup
  outputs_account : ∀ pool, ∀ r ∈ outputs pool, r.accountId ∈ accounts.map AccountRow.id
  sentNotes_account : ∀ s ∈ sentNotes, s.fromAccountId ∈ accounts.map AccountRow.id

namespace WalletDb

variable (db : WalletDb)

def accountId (uuid : AccountUuid) : Option ℕ :=
  (db.accounts.find? (·.uuid == uuid)).map AccountRow.id

def accountUuid (id : ℕ) : Option AccountUuid :=
  (db.accounts.find? (·.id == id)).map AccountRow.uuid

/-! ## Scope -/

def scopeByUuid (scope : AccountScope) (column : Option AccountUuid) : Bool :=
  match scope.param with
  | none => true
  | some account => column == some account

/-- `scope_by_id`: a scope whose account has no row matches nothing. -/
def scopeById (scope : AccountScope) (accountId : ℕ) : Bool :=
  match scope.param with
  | none => true
  | some account => db.accountId account == some accountId

/-! ## Expiry -/

def preNu7DefaultTxExpiryDelta : ℕ := 40

def nu7DefaultTxExpiryDelta : ℕ := 120

/-- `tx_unexpired_sql` on a network that activates NU7 at the given height, if it does. A
comparison with a null height is not true. -/
def txUnexpired (nu7 : Option ℕ) (target : ℕ) (t : TransactionRow) : Bool :=
  let observed := t.targetHeight.getD t.minObservedHeight
  let delta := match nu7 with
    | some nu7 => if nu7 ≤ observed then nu7DefaultTxExpiryDelta else preNu7DefaultTxExpiryDelta
    | none => preNu7DefaultTxExpiryDelta
  t.minedHeight.any (· < target) || t.expiryHeight == some 0 ||
    t.expiryHeight.any (target ≤ ·) ||
    (t.expiryHeight.isNone && decide (target ≤ observed + delta))

def transactionsOf (id : ℕ) : List TransactionRow := db.transactions.filter (·.idTx == id)

/-- The output has a spend whose transaction is mined or unexpired. -/
def liveSpent (nu7 : Option ℕ) (target : ℕ) (pool : PoolType) (id : ℕ) : Bool :=
  (db.spends pool).any fun s => s.outputId == id &&
    (db.transactionsOf s.transactionId).any (txUnexpired nu7 target)

/-! ## The outputs of a transaction -/

/-- SQL `MAX`, which ignores nulls. -/
def sqlMax {α : Type} [Max α] (xs : List (Option α)) : Option α := (xs.filterMap id).max?

/-- A row of `LOAD_OUTPUTS_SQL`'s union of received and sent outputs. -/
structure UnionedRow where
  pool : PoolType
  outputIndex : ℕ
  fromAccount : Option AccountUuid
  toAccount : Option AccountUuid
  toAddress : Option String
  isSentRow : Bool
  value : ℤ
  isChange : Bool
  memo : Option String
  recipientKeyScope : Option ℤ
  diversifierIndex : Option ℕ

def sentNoteAt (idTx : ℕ) (pool : PoolType) (outputIndex : ℕ) : Option SentNoteRow :=
  db.sentNotes.find? fun s =>
    s.transactionId == idTx && s.outputPool == pool && s.outputIndex == outputIndex

def addressOf (r : OutputRow) : Option AddressRow :=
  r.addressId.bind fun id => db.addresses.find? (·.id == id)

def receivedRow (pool : PoolType) (r : OutputRow) : UnionedRow where
  pool := pool
  outputIndex := r.outputIndex
  fromAccount :=
    (db.sentNoteAt r.transactionId pool r.outputIndex).bind fun s => db.accountUuid s.fromAccountId
  toAccount := db.accountUuid r.accountId
  toAddress := (db.addressOf r).bind fun a =>
    if pool = .transparent then a.cachedTransparentReceiverAddress else some a.address
  isSentRow := false
  value := r.value
  isChange := decide (pool ≠ .transparent) && r.isChange
  memo := if pool = .transparent then none else r.memo
  recipientKeyScope := (db.addressOf r).map AddressRow.keyScope
  diversifierIndex := (db.addressOf r).map AddressRow.diversifierIndex

def sentRow (s : SentNoteRow) : UnionedRow where
  pool := s.outputPool
  outputIndex := s.outputIndex
  fromAccount := db.accountUuid s.fromAccountId
  toAccount := none
  toAddress := s.toAddress
  isSentRow := true
  value := s.value
  isChange := false
  memo := s.memo
  recipientKeyScope := none
  diversifierIndex := none

def unioned (idTx : ℕ) : List UnionedRow :=
  (allPools.flatMap fun pool =>
      ((db.outputs pool).filter (·.transactionId == idTx)).map (db.receivedRow pool)) ++
    (db.sentNotes.filter (·.transactionId == idTx)).map db.sentRow

end WalletDb

structure TxOutputRecord where
  pool : PoolType
  outputIndex : ℕ
  fromAccount : Option AccountUuid
  toAccount : Option AccountUuid
  toAddress : Option String
  value : ℤ
  isChange : Bool
  recipientKeyScope : Option ℤ
  memo : Option String
  diversifierIndex : Option ℕ
  deriving DecidableEq, Repr

def externalKeyScope : ℤ := 0

/-- Whether the output is internal change, which the history hides. -/
def TxOutputRecord.isInternalChange (out : TxOutputRecord) : Bool :=
  match out.recipientKeyScope with
  | some scope => scope != externalKeyScope
  | none => out.isChange

namespace WalletDb

variable (db : WalletDb)

/-- The aggregate of one `(output_pool, output_index)` group; an address the wallet recorded when
it created the output comes before the one it was received at. -/
def aggregate (pool : PoolType) (outputIndex : ℕ) (rows : List UnionedRow) : TxOutputRecord where
  pool := pool
  outputIndex := outputIndex
  fromAccount := sqlMax (rows.map UnionedRow.fromAccount)
  toAccount := sqlMax (rows.map UnionedRow.toAccount)
  toAddress := (sqlMax ((rows.filter UnionedRow.isSentRow).map UnionedRow.toAddress)).or
    (sqlMax ((rows.filter fun row => !row.isSentRow).map UnionedRow.toAddress))
  value := (sqlMax (rows.map fun row => some row.value)).getD 0
  isChange := rows.any UnionedRow.isChange
  recipientKeyScope := sqlMax (rows.map UnionedRow.recipientKeyScope)
  memo := sqlMax (rows.map UnionedRow.memo)
  diversifierIndex := sqlMax (rows.map UnionedRow.diversifierIndex)

/-- The groups of a transaction, in the order of pool and index. -/
def outputKeys (idTx : ℕ) : List (PoolType × ℕ) :=
  (((db.unioned idTx).map fun row => (row.pool, row.outputIndex)).dedup).mergeSort fun x y =>
    decide (x.1.code < y.1.code) || (x.1.code == y.1.code && decide (x.2 ≤ y.2))

def outputAt (idTx : ℕ) (key : PoolType × ℕ) : TxOutputRecord :=
  aggregate key.1 key.2
    ((db.unioned idTx).filter fun row => row.pool == key.1 && row.outputIndex == key.2)

def loadOutputs (scope : AccountScope) (idTx : ℕ) (omitMemos : Bool) : List TxOutputRecord :=
  let outs := ((db.outputKeys idTx).map (db.outputAt idTx)).filter fun out =>
    scopeByUuid scope out.toAccount || scopeByUuid scope out.fromAccount
  if omitMemos then outs.map fun out => { out with memo := none } else outs

/-- `v_tx_outputs`, with the txid of each row. -/
def vTxOutputs : List (ℕ × TxOutputRecord) :=
  db.transactions.flatMap fun t => (db.loadOutputs .any t.idTx false).map (t.txid, ·)

/-! ## What a transaction does to an account -/

/-- The `notes` of `TX_RECORD_SQL`: what accounts received in the transaction, and, negative,
what it spends of theirs. -/
def balanceNotes (idTx : ℕ) : List (ℕ × ℤ) :=
  (allPools.flatMap fun pool =>
      ((db.outputs pool).filter (·.transactionId == idTx)).map fun r => (r.accountId, r.value)) ++
    (allPools.flatMap fun pool =>
      ((db.spends pool).filter (·.transactionId == idTx)).flatMap fun s =>
        ((db.outputs pool).filter (·.id == s.outputId)).map fun r => (r.accountId, -r.value))

def mineNotes (scope : AccountScope) (idTx : ℕ) : List ℤ :=
  ((db.balanceNotes idTx).filter fun x => db.scopeById scope x.1).map Prod.snd

def accountBalanceDelta (scope : AccountScope) (idTx : ℕ) : ℤ := (db.mineNotes scope idTx).sum

structure VTransactionRow where
  accountUuid : AccountUuid
  transaction : TransactionRow
  accountBalanceDelta : ℤ
  deriving DecidableEq, Repr

/-- `v_transactions`: one row for each account and each transaction it is involved in. -/
def vTransactions : List VTransactionRow :=
  db.accounts.flatMap fun account => db.transactions.filterMap fun t =>
    if db.mineNotes (.only account.uuid) t.idTx = [] then none
    else some ⟨account.uuid, t, db.accountBalanceDelta (.only account.uuid) t.idTx⟩

end WalletDb

/-! ## The account of the examples -/

theorem oneAccount_uuid_ne_nil : ∀ x ∈ [(⟨1, 10⟩ : AccountRow)], x.uuid ≠ nilUuid := by decide

theorem oneAccount_nodup : ([(⟨1, 10⟩ : AccountRow)].map AccountRow.id).Nodup := by decide

theorem oneAccount_uuids_nodup : ([(⟨1, 10⟩ : AccountRow)].map AccountRow.uuid).Nodup := by
  decide

theorem noSentNotes_nodup : (([] : List SentNoteRow).map fun s =>
    (s.transactionId, s.outputPool, s.outputIndex)).Nodup := by
  decide

theorem noSentNotes_account : ∀ s ∈ ([] : List SentNoteRow),
    s.fromAccountId ∈ [(⟨1, 10⟩ : AccountRow)].map AccountRow.id := by
  decide

end Zecd
