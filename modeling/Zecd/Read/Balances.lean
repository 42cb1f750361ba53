import Zecd.Read.Tables

/-! # Balances and unspent outputs

`balance`, `tx_count` and `list_unspent`. What they take from the wallet layer, the summary of
balances and the selection of unspent notes, is a parameter.
-/

namespace Zecd

structure PoolBalance where
  spendableValue : ℕ
  valuePendingSpendability : ℕ
  changePendingConfirmation : ℕ
  deriving DecidableEq, Repr

structure AccountBalance where
  sapling : PoolBalance
  orchard : PoolBalance
  ironwood : PoolBalance
  unshielded : PoolBalance
  deriving DecidableEq, Repr

structure WalletSummary where
  chainTipHeight : ℕ
  accountBalances : List (AccountUuid × AccountBalance)
  deriving DecidableEq, Repr

structure SelectedNote where
  txid : ℕ
  outputIndex : ℕ
  value : ℕ
  deriving DecidableEq, Repr

structure SpendableNotes where
  sapling : List SelectedNote
  orchard : List SelectedNote
  ironwood : List SelectedNote
  deriving DecidableEq, Repr

structure WalletRead where
  getWalletSummary : ConfirmationsPolicy → WalletDb → Option WalletSummary
  selectUnspentNotes : WalletDb → AccountUuid → ℕ → SpendableNotes

def coinbaseMaturity : ℕ := 100

namespace WalletDb

variable (db : WalletDb) (nu7 : Option ℕ)

/-! ## Balance -/

/-- The transaction's recorded block index is that of a coinbase. -/
def isCoinbase (t : TransactionRow) : Bool := t.txIndex.getD 1 == 0

def countsAsCoinbase (scope : AccountScope) (target : ℕ) (mature : Bool) (r : OutputRow)
    (t : TransactionRow) : Bool :=
  (match t.minedHeight with
    | some mined => isCoinbase t && (decide ((target : ℤ) - mined < coinbaseMaturity) != mature)
    | none => false) &&
    db.scopeById scope r.accountId && !db.liveSpent nu7 target .transparent r.id

def coinbaseZats (scope : AccountScope) (target : ℕ) (mature : Bool) : ℕ :=
  (((db.outputs .transparent).flatMap fun r =>
    ((db.transactionsOf r.transactionId).filter
      (db.countsAsCoinbase nu7 scope target mature r)).map fun _ => r.value).sum).toNat

end WalletDb

structure BalanceInfo where
  orchardSpendable : ℕ
  saplingSpendable : ℕ
  ironwoodSpendable : ℕ
  transparentSpendable : ℕ
  totalSpendable : ℕ
  pending : ℕ
  immature : ℕ
  matureCoinbase : ℕ
  deriving DecidableEq, Repr

namespace BalanceInfo

def zero : BalanceInfo := ⟨0, 0, 0, 0, 0, 0, 0, 0⟩

/-- One account's balance on top of what is summed so far. -/
def add (info : BalanceInfo) (bal : AccountBalance) : BalanceInfo :=
  { info with
    orchardSpendable := info.orchardSpendable + bal.orchard.spendableValue
    saplingSpendable := info.saplingSpendable + bal.sapling.spendableValue
    ironwoodSpendable := info.ironwoodSpendable + bal.ironwood.spendableValue
    transparentSpendable := info.transparentSpendable + bal.unshielded.spendableValue
    pending := info.pending + bal.orchard.valuePendingSpendability +
      bal.sapling.valuePendingSpendability + bal.unshielded.valuePendingSpendability +
      bal.ironwood.valuePendingSpendability
    immature := info.immature + bal.orchard.changePendingConfirmation +
      bal.sapling.changePendingConfirmation + bal.unshielded.changePendingConfirmation +
      bal.ironwood.changePendingConfirmation }

/-- Immature coinbase value is moved out of the pending, then the transparent bucket; the mature
part is broken out of the transparent bucket. -/
def reclassify (info : BalanceInfo) (immatureCoinbase matureCoinbase : ℕ) : BalanceInfo :=
  let fromPending := min immatureCoinbase info.pending
  let fromSpendable := min (immatureCoinbase - fromPending) info.transparentSpendable
  let transparent := info.transparentSpendable - fromSpendable
  { info with
    pending := info.pending - fromPending
    transparentSpendable := transparent
    immature := info.immature + fromSpendable + fromPending
    matureCoinbase := min matureCoinbase transparent
    totalSpendable :=
      info.orchardSpendable + info.saplingSpendable + transparent + info.ironwoodSpendable }

end BalanceInfo

def balance (wallet : WalletRead) (nu7 : Option ℕ) (db : WalletDb) (scope : AccountScope)
    (policy : ConfirmationsPolicy) : BalanceInfo :=
  match wallet.getWalletSummary policy db with
  | none => .zero
  | some summary =>
    let target := summary.chainTipHeight + 1
    let info := ((summary.accountBalances.filter fun x => !scope.excludes x.1).map Prod.snd).foldl
      BalanceInfo.add .zero
    info.reclassify (db.coinbaseZats nu7 scope target false) (db.coinbaseZats nu7 scope target true)

/-! ## Transaction count -/

namespace WalletDb

variable (db : WalletDb)

/-- `TX_INVOLVEMENT_SQL`: the accounts and transactions `v_transactions` has a row for. -/
def txInvolvement : List (ℕ × ℕ) :=
  ((allPools.flatMap fun pool =>
      (db.outputs pool).map fun r => (r.accountId, r.transactionId)) ++
    (allPools.flatMap fun pool => (db.spends pool).flatMap fun s =>
      ((db.outputs pool).filter (·.id == s.outputId)).map fun r =>
        (r.accountId, s.transactionId))).dedup

def txCount (scope : AccountScope) : ℕ :=
  (db.txInvolvement.filter fun x => db.scopeById scope x.1).length

end WalletDb

/-! ## Unspent outputs -/

structure UnspentNote where
  txid : ℕ
  vout : ℕ
  value : ℕ
  minedHeight : Option ℕ
  trusted : Bool
  address : Option String
  pool : PoolType
  generated : Bool
  deriving DecidableEq, Repr

namespace WalletDb

variable (db : WalletDb) (nu7 : Option ℕ)

/-- The transaction rows of the scoped account, by txid; a later row replaces an earlier one. -/
def txMeta (scope : AccountScope) (txid : ℕ) : Option ℕ × Bool :=
  match (db.vTransactions.filter fun v => scopeByUuid scope (some v.accountUuid)).reverse.find?
      (·.transaction.txid == txid) with
  | some v => (v.transaction.minedHeight, decide (v.accountBalanceDelta < 0))
  | none => (none, false)

/-- The recorded addresses of the scoped account's shielded outputs. -/
def outAddr (scope : AccountScope) (txid : ℕ) (pool : PoolType) (vout : ℕ) : Option String :=
  ((db.vTxOutputs.filter fun x => decide (x.2.pool ≠ .transparent) &&
      (scopeByUuid scope x.2.toAccount || scopeByUuid scope x.2.fromAccount)).reverse.find?
    fun x => x.1 == txid && x.2.pool == pool && x.2.outputIndex == vout &&
      x.2.toAddress.isSome).bind fun x => x.2.toAddress

def shieldedEntry (scope : AccountScope) (pool : ShieldedPool) (txid vout value : ℕ) :
    UnspentNote where
  txid := txid
  vout := vout
  value := value
  minedHeight := (db.txMeta scope txid).1
  trusted := (db.txMeta scope txid).2
  address := db.outAddr scope txid (.shielded pool) vout
  pool := .shielded pool
  generated := false

def selectedNotes (wallet : WalletRead) (scope : AccountScope) (target : ℕ) : List UnspentNote :=
  ((db.accounts.map AccountRow.uuid).filter fun a => !scope.excludes a).flatMap fun a =>
    let notes := wallet.selectUnspentNotes db a target
    (notes.sapling.map fun n => db.shieldedEntry scope .sapling n.txid n.outputIndex n.value) ++
    (notes.orchard.map fun n => db.shieldedEntry scope .orchard n.txid n.outputIndex n.value) ++
    (notes.ironwood.map fun n => db.shieldedEntry scope .ironwood n.txid n.outputIndex n.value)

/-- An unmined, unexpired note no live transaction spends. -/
def isUnminedNote (target : ℕ) (pool : ShieldedPool) (r : OutputRow) (t : TransactionRow) : Bool :=
  t.minedHeight.isNone && txUnexpired nu7 target t && !db.liveSpent nu7 target (.shielded pool) r.id

def unminedNotes (scope : AccountScope) (target : ℕ) (seen : List (ℕ × PoolType × ℕ))
    (pool : ShieldedPool) : List UnspentNote :=
  (db.outputs (.shielded pool)).flatMap fun r =>
    ((db.transactionsOf r.transactionId).filter (db.isUnminedNote nu7 target pool r)).filterMap
      fun t =>
        if (t.txid, .shielded pool, r.outputIndex) ∈ seen then none
        else some (db.shieldedEntry scope pool t.txid r.outputIndex r.value.toNat)

/-- A transparent output `list_unspent` lists: mined or unexpired, not an immature coinbase (nor
one without a height, where the comparison is null), and without a live spend. -/
def isListedOutput (target : ℕ) (r : OutputRow) (t : TransactionRow) : Bool :=
  (t.minedHeight.isSome || txUnexpired nu7 target t) &&
    !(isCoinbase t && t.minedHeight.all fun mined =>
      decide ((target : ℤ) - mined < coinbaseMaturity)) &&
    !db.liveSpent nu7 target .transparent r.id

def transparentUnspent (scope : AccountScope) (target : ℕ) : List UnspentNote :=
  (db.outputs .transparent).flatMap fun r =>
    ((db.transactionsOf r.transactionId).filter (db.isListedOutput nu7 target r)).map fun t =>
      { txid := t.txid
        vout := r.outputIndex
        value := r.value.toNat
        minedHeight := (db.txMeta scope t.txid).1
        trusted := (db.txMeta scope t.txid).2
        address := r.address
        pool := .transparent
        generated := isCoinbase t }

def listUnspent (wallet : WalletRead) (scope : AccountScope) : List UnspentNote :=
  match db.chainHeight with
  | none => []
  | some chainHeight =>
    let target := chainHeight + 1
    let out := db.selectedNotes wallet scope target
    let seen := out.map fun u => (u.txid, u.pool, u.vout)
    out ++ ([.sapling, .orchard, .ironwood].flatMap fun pool =>
        db.unminedNotes nu7 scope target seen pool) ++
      db.transparentUnspent nu7 scope target

end WalletDb

end Zecd
