import Zecd.Read.Balances
import Zecd.Read.Outputs

/-! # Account isolation of the balance reads

A database may hold the accounts of many wallets. What a wallet's reads report must not depend
on the rows of the others. The balance and the transaction count never do.
-/

namespace Zecd

namespace WalletDb

variable (db : WalletDb)

/-! ## The rows of an account -/

def ownOutputs (a : AccountUuid) (pool : PoolType) : List OutputRow :=
  (db.outputs pool).filter fun r => db.scopeById (.only a) r.accountId

def ownSpends (a : AccountUuid) (pool : PoolType) : List SpendRow :=
  (db.spends pool).filter fun s => (db.ownOutputs a pool).any (·.id == s.outputId)

def ownSentNotes (a : AccountUuid) : List SentNoteRow :=
  db.sentNotes.filter fun s => db.scopeById (.only a) s.fromAccountId

/-- The transactions the account's rows name. -/
def ownTransactions (a : AccountUuid) : List ℕ :=
  (allPools.flatMap fun pool => (db.ownOutputs a pool).map OutputRow.transactionId) ++
    (allPools.flatMap fun pool => (db.ownSpends a pool).map SpendRow.transactionId) ++
    (db.ownSentNotes a).map SentNoteRow.transactionId

/-- The databases agree on the rows of the account and on the chain. -/
structure AgreesOn (a : AccountUuid) (db db' : WalletDb) : Prop where
  accounts : db.accounts.filter (·.uuid == a) = db'.accounts.filter (·.uuid == a)
  outputs : ∀ pool, db.ownOutputs a pool = db'.ownOutputs a pool
  spends : ∀ pool, db.ownSpends a pool = db'.ownSpends a pool
  sentNotes : db.ownSentNotes a = db'.ownSentNotes a
  addresses : ∀ pool, ∀ r ∈ db.ownOutputs a pool, db.addressOf r = db'.addressOf r
  transactions : ∀ id ∈ db.ownTransactions a, db.transactionsOf id = db'.transactionsOf id
  chainHeight : db.chainHeight = db'.chainHeight

/-- The output pays the account or was funded by it. -/
def Names (a : AccountUuid) (idTx : ℕ) (key : PoolType × ℕ) : Prop :=
  db.paysTo idTx key = some a ∨ db.fundedBy idTx key = some a

/-- The databases record the same address for an output that names the account. -/
def AddressAgrees (a : AccountUuid) (db db' : WalletDb) (txid : ℕ) (key : PoolType × ℕ) : Prop :=
  ∀ t ∈ db.transactions, t.txid = txid → db.Names a t.idTx key →
    db.recordedAddress t.idTx key = db'.recordedAddress t.idTx key

/-- The notes the wallet layer selects for the account, with their pools. -/
def selectedKeys (wallet : WalletRead) (a : AccountUuid) (target : ℕ) :
    List (ShieldedPool × SelectedNote) :=
  (db.accounts.filter (·.uuid == a)).flatMap fun _ =>
    let notes := wallet.selectUnspentNotes db a target
    notes.sapling.map (.sapling, ·) ++ notes.orchard.map (.orchard, ·) ++
      notes.ironwood.map (.ironwood, ·)

/-- The databases record the same addresses for the notes selected for the account. -/
def SelectedAgree (wallet : WalletRead) (a : AccountUuid) (db db' : WalletDb) : Prop :=
  ∀ chainHeight, db.chainHeight = some chainHeight →
    ∀ x ∈ db.selectedKeys wallet a (chainHeight + 1),
      db.AddressAgrees a db' x.2.txid (.shielded x.1, x.2.outputIndex)

end WalletDb

def WalletSummary.scoped (a : AccountUuid) (summary : WalletSummary) :
    ℕ × List (AccountUuid × AccountBalance) :=
  (summary.chainTipHeight, summary.accountBalances.filter (·.1 == a))

/-- What the wallet layer reports of an account depends only on the account's rows. -/
structure WalletRead.Lawful (wallet : WalletRead) : Prop where
  summary : ∀ a db db', WalletDb.AgreesOn a db db' → ∀ policy,
    (wallet.getWalletSummary policy db).map (·.scoped a) =
      (wallet.getWalletSummary policy db').map (·.scoped a)
  notes : ∀ a db db', WalletDb.AgreesOn a db db' → ∀ target,
    wallet.selectUnspentNotes db a target = wallet.selectUnspentNotes db' a target

structure ScopedReadsAgree (wallet : WalletRead) (nu7 : Option ℕ) (policy : ConfirmationsPolicy)
    (a : AccountUuid) (db db' : WalletDb) : Prop where
  balance : balance wallet nu7 db (.only a) policy = balance wallet nu7 db' (.only a) policy
  txCount : db.txCount (.only a) = db'.txCount (.only a)
  listUnspent : db.listUnspent nu7 wallet (.only a) = db'.listUnspent nu7 wallet (.only a)

structure ReportsNothing (wallet : WalletRead) (nu7 : Option ℕ) (policy : ConfirmationsPolicy)
    (db : WalletDb) : Prop where
  balance : balance wallet nu7 db .noAccount policy = .zero
  txCount : db.txCount .noAccount = 0
  listUnspent : db.listUnspent nu7 wallet .noAccount = []

def ReadsIsolated (wallet : WalletRead) (nu7 : Option ℕ) (policy : ConfirmationsPolicy)
    (a : AccountUuid) (db db' : WalletDb) : Prop :=
  ScopedReadsAgree wallet nu7 policy a db db' ∧ ReportsNothing wallet nu7 policy db ∧
    ReportsNothing wallet nu7 policy db'

/-- Of the rows the predicate picks, none is an unmined note or a transparent output of the kind
`list_unspent` reads without an account predicate. -/
def WalletDb.Quiet (db : WalletDb) (nu7 : Option ℕ) (p : OutputRow → Prop) : Prop :=
  ∀ chainHeight, db.chainHeight = some chainHeight →
    (∀ pool, ∀ r ∈ db.outputs (.shielded pool), p r → ∀ t ∈ db.transactionsOf r.transactionId,
      db.isUnminedNote nu7 (chainHeight + 1) pool r t = false) ∧
    ∀ r ∈ db.outputs .transparent, p r → ∀ t ∈ db.transactionsOf r.transactionId,
      db.isListedOutput nu7 (chainHeight + 1) r t = false

/-- The row is another account's. -/
def WalletDb.Foreign (db : WalletDb) (a : AccountUuid) (r : OutputRow) : Prop :=
  db.scopeById (.only a) r.accountId = false

/-! ## Scoped rows -/

section Scope

variable {db db' : WalletDb} {a : AccountUuid} {nu7 : Option ℕ} {target : ℕ} {pool : PoolType}

theorem flatMap_eq_filter {α β : Type} {l : List α} {p : α → Bool} {f : α → List β}
    (h : ∀ x ∈ l, p x = false → f x = []) : l.flatMap f = (l.filter p).flatMap f := by
  induction l with
  | nil => rfl
  | cons x l ih =>
    have ih := ih fun y hy => h y (List.mem_cons_of_mem _ hy)
    cases hx : p x with
    | true => rw [List.filter_cons_of_pos hx, List.flatMap_cons, List.flatMap_cons, ih]
    | false =>
      rw [List.filter_cons_of_neg (by simp [hx]), List.flatMap_cons, h x List.mem_cons_self hx, ih,
        List.nil_append]

theorem scopeById_noAccount (id : ℕ) : db.scopeById .noAccount id = false := by
  have hnone : db.accountId nilUuid = none := by
    rw [WalletDb.accountId, Option.map_eq_none_iff, List.find?_eq_none]
    intro x hx
    simpa using db.uuid_ne_nil x hx
  simp [WalletDb.scopeById, AccountScope.param, hnone]

theorem WalletDb.AgreesOn.accountId (h : AgreesOn a db db') : db.accountId a = db'.accountId a := by
  rw [WalletDb.accountId, WalletDb.accountId, ← List.head?_filter, ← List.head?_filter, h.accounts]

theorem WalletDb.AgreesOn.scopeById (h : AgreesOn a db db') (id : ℕ) :
    db.scopeById (.only a) id = db'.scopeById (.only a) id := by
  simp only [WalletDb.scopeById, AccountScope.param, h.accountId]

theorem mem_ownOutputs {r : OutputRow} : r ∈ db.ownOutputs a pool ↔
    r ∈ db.outputs pool ∧ db.scopeById (.only a) r.accountId = true := by
  simp [WalletDb.ownOutputs]

theorem mem_ownSpends {s : SpendRow} : s ∈ db.ownSpends a pool ↔
    s ∈ db.spends pool ∧ ∃ r ∈ db.ownOutputs a pool, r.id = s.outputId := by
  simp [WalletDb.ownSpends]

theorem mem_allPools (pool : PoolType) : pool ∈ allPools := by
  rcases pool with _ | _ | _ | _ <;> simp [allPools]

theorem ownOutput_mem_ownTransactions {r : OutputRow} (hr : r ∈ db.ownOutputs a pool) :
    r.transactionId ∈ db.ownTransactions a :=
  List.mem_append_left _ (List.mem_append_left _
    (List.mem_flatMap.mpr ⟨pool, mem_allPools pool, List.mem_map_of_mem hr⟩))

theorem ownSpend_mem_ownTransactions {s : SpendRow} (hs : s ∈ db.ownSpends a pool) :
    s.transactionId ∈ db.ownTransactions a :=
  List.mem_append_left _ (List.mem_append_right _
    (List.mem_flatMap.mpr ⟨pool, mem_allPools pool, List.mem_map_of_mem hs⟩))

theorem ownSentNote_mem_ownTransactions {s : SentNoteRow} (hs : s ∈ db.ownSentNotes a) :
    s.transactionId ∈ db.ownTransactions a :=
  List.mem_append_right _ (List.mem_map_of_mem hs)

theorem WalletDb.AgreesOn.symm (h : AgreesOn a db db') : AgreesOn a db' db where
  accounts := h.accounts.symm
  outputs pool := (h.outputs pool).symm
  spends pool := (h.spends pool).symm
  sentNotes := h.sentNotes.symm
  addresses pool r hr := (h.addresses pool r (h.outputs pool ▸ hr)).symm
  transactions id hid := by
    refine (h.transactions id ?_).symm
    simpa only [WalletDb.ownTransactions, h.outputs, h.spends, h.sentNotes] using hid
  chainHeight := h.chainHeight.symm

theorem WalletDb.AgreesOn.transactionsOf (h : AgreesOn a db db') {r : OutputRow}
    (hr : r ∈ db.ownOutputs a pool) :
    db.transactionsOf r.transactionId = db'.transactionsOf r.transactionId :=
  h.transactions _ (ownOutput_mem_ownTransactions hr)

theorem WalletDb.AgreesOn.mem_transactions (h : AgreesOn a db db') {t : TransactionRow}
    (hid : t.idTx ∈ db.ownTransactions a) (ht : t ∈ db.transactions) : t ∈ db'.transactions := by
  have hof : t ∈ db.transactionsOf t.idTx := List.mem_filter.mpr ⟨ht, by simp⟩
  rw [h.transactions _ hid] at hof
  exact (List.mem_filter.mp hof).1

theorem liveSpent_eq_true {r : OutputRow} (hr : r ∈ db.ownOutputs a pool) :
    db.liveSpent nu7 target pool r.id = true ↔ ∃ s ∈ db.ownSpends a pool, s.outputId = r.id ∧
      (db.transactionsOf s.transactionId).any (WalletDb.txUnexpired nu7 target) = true := by
  simp only [WalletDb.liveSpent, List.any_eq_true, Bool.and_eq_true, beq_iff_eq, mem_ownSpends]
  constructor
  · rintro ⟨s, hs, hid, ht⟩
    exact ⟨s, ⟨hs, r, hr, hid.symm⟩, hid, ht⟩
  · rintro ⟨s, ⟨hs, _⟩, hid, ht⟩
    exact ⟨s, hs, hid, ht⟩

theorem WalletDb.AgreesOn.liveSpent (h : AgreesOn a db db') {r : OutputRow}
    (hr : r ∈ db.ownOutputs a pool) :
    db.liveSpent nu7 target pool r.id = db'.liveSpent nu7 target pool r.id := by
  have hr' : r ∈ db'.ownOutputs a pool := h.outputs pool ▸ hr
  rw [Bool.eq_iff_iff, liveSpent_eq_true hr, liveSpent_eq_true hr', ← h.spends pool]
  refine exists_congr fun s => and_congr_right fun hs => ?_
  rw [h.transactions _ (ownSpend_mem_ownTransactions hs)]

/-! ## Balance and count -/

theorem WalletDb.coinbaseZats_eq (mature : Bool) :
    db.coinbaseZats nu7 (.only a) target mature =
      (((db.ownOutputs a .transparent).flatMap fun r =>
        ((db.transactionsOf r.transactionId).filter
          (db.countsAsCoinbase nu7 (.only a) target mature r)).map
            fun _ => r.value).sum).toNat := by
  rw [WalletDb.coinbaseZats, flatMap_eq_filter (p := fun r => db.scopeById (.only a) r.accountId),
    WalletDb.ownOutputs]
  intro r _ hr
  have hnone : ∀ t, db.countsAsCoinbase nu7 (.only a) target mature r t = false := by
    intro t
    simp [WalletDb.countsAsCoinbase, hr]
  simp [hnone]

theorem WalletDb.AgreesOn.coinbaseZats (h : AgreesOn a db db') (mature : Bool) :
    db.coinbaseZats nu7 (.only a) target mature = db'.coinbaseZats nu7 (.only a) target mature := by
  rw [WalletDb.coinbaseZats_eq, WalletDb.coinbaseZats_eq, ← h.outputs]
  congr 2
  apply List.flatMap_congr
  intro r hr
  have hcount : db.countsAsCoinbase nu7 (.only a) target mature r =
      db'.countsAsCoinbase nu7 (.only a) target mature r := by
    funext t
    simp only [WalletDb.countsAsCoinbase, h.scopeById, h.liveSpent hr]
  rw [h.transactionsOf hr, hcount]

theorem coinbaseZats_noAccount (mature : Bool) :
    db.coinbaseZats nu7 .noAccount target mature = 0 := by
  have hnone : ∀ r, (db.transactionsOf r.transactionId).filter
      (db.countsAsCoinbase nu7 .noAccount target mature r) = [] := by
    intro r
    rw [List.filter_eq_nil_iff]
    intro t _
    simp [WalletDb.countsAsCoinbase, scopeById_noAccount]
  simp only [WalletDb.coinbaseZats, hnone, List.map_nil]
  rw [List.flatMap_eq_nil_iff.mpr fun _ _ => rfl]
  rfl

theorem not_excludes_only (x : AccountUuid) :
    (!(AccountScope.only a).excludes x) = (x == a) := by
  simp only [AccountScope.excludes, bne, Bool.not_not]
  rw [Bool.eq_iff_iff, beq_iff_eq, beq_iff_eq, eq_comm]

theorem WalletDb.AgreesOn.balance {wallet : WalletRead} (hw : wallet.Lawful) (h : AgreesOn a db db')
    (policy : ConfirmationsPolicy) :
    balance wallet nu7 db (.only a) policy = balance wallet nu7 db' (.only a) policy := by
  have hsum := hw.summary a db db' h policy
  unfold Zecd.balance
  cases hs : wallet.getWalletSummary policy db with
  | none =>
    rw [hs] at hsum
    rw [Option.map_eq_none_iff.mp hsum.symm]
  | some summary =>
    rw [hs, Option.map_some] at hsum
    obtain ⟨summary', hs', hscoped⟩ := Option.map_eq_some_iff.mp hsum.symm
    obtain ⟨htip, hentries⟩ := Prod.mk.inj hscoped
    simp only [hs', not_excludes_only, hentries, htip, h.coinbaseZats]

theorem balance_noAccount (wallet : WalletRead) (policy : ConfirmationsPolicy) :
    balance wallet nu7 db .noAccount policy = .zero := by
  unfold balance
  split
  · rfl
  · simp only [AccountScope.excludes, Bool.not_true, List.filter_false, List.map_nil,
      List.foldl_nil, coinbaseZats_noAccount]
    rfl

theorem mem_txInvolvement {x : ℕ × ℕ} (hx : db.scopeById (.only a) x.1 = true) :
    x ∈ db.txInvolvement ↔ ∃ pool ∈ allPools,
      (∃ r ∈ db.ownOutputs a pool, (r.accountId, r.transactionId) = x) ∨
      ∃ s ∈ db.ownSpends a pool, ∃ r ∈ db.ownOutputs a pool, r.id = s.outputId ∧
        (r.accountId, s.transactionId) = x := by
  simp only [WalletDb.txInvolvement, List.mem_dedup, List.mem_append, List.mem_flatMap,
    List.mem_map, List.mem_filter, beq_iff_eq, ← exists_or, ← and_or_left]
  refine exists_congr fun pool => and_congr_right fun _ => or_congr ?_ ?_
  · constructor
    · rintro ⟨r, hr, rfl⟩
      exact ⟨r, mem_ownOutputs.mpr ⟨hr, hx⟩, rfl⟩
    · rintro ⟨r, hr, rfl⟩
      exact ⟨r, (mem_ownOutputs.mp hr).1, rfl⟩
  · constructor
    · rintro ⟨s, hs, r, ⟨hr, hid⟩, rfl⟩
      have hown := mem_ownOutputs.mpr ⟨hr, hx⟩
      exact ⟨s, mem_ownSpends.mpr ⟨hs, r, hown, hid⟩, r, hown, hid, rfl⟩
    · rintro ⟨s, hs, r, hr, hid, rfl⟩
      exact ⟨s, (mem_ownSpends.mp hs).1, r, ⟨(mem_ownOutputs.mp hr).1, hid⟩, rfl⟩

theorem WalletDb.AgreesOn.txCount (h : AgreesOn a db db') :
    db.txCount (.only a) = db'.txCount (.only a) := by
  unfold WalletDb.txCount
  have hnodup : ∀ db : WalletDb, (db.txInvolvement.filter fun x =>
      db.scopeById (.only a) x.1).Nodup := fun db => (List.nodup_dedup _).filter _
  apply List.Perm.length_eq
  apply (List.perm_ext_iff_of_nodup (hnodup db) (hnodup db')).mpr
  intro x
  rw [List.mem_filter, List.mem_filter, ← h.scopeById]
  refine and_congr_left fun hx => ?_
  rw [mem_txInvolvement hx, mem_txInvolvement (h.scopeById x.1 ▸ hx)]
  simp only [h.outputs, h.spends]

theorem txCount_noAccount : db.txCount .noAccount = 0 := by
  have hnone : (db.txInvolvement.filter fun x => db.scopeById .noAccount x.1) = [] := by
    rw [List.filter_eq_nil_iff]
    intro x _
    simp [scopeById_noAccount]
  rw [WalletDb.txCount, hnone, List.length_nil]

end Scope

end Zecd
