import Zecd.Read.Amounts

/-! # What the received-by aggregation counts

The flat query joins the transactions an account takes part in with all their outputs, so the
rows of one transaction are its outputs whoever they pay. Of these the aggregation counts those
that pay any account of the database.
-/

namespace Zecd.HistoryDb

variable {db : HistoryDb} {a : AccountUuid} {t : TransactionRow} {codec : AddressCodec}
  {addressFilter : Option (List String)} {st : ScanStatus} {minconf : ℤ}
  {includeImmatureCoinbase : Bool}

theorem vTxOutputs_filter (ht : t ∈ db.transactions) (p : TxOutputRecord → Bool) :
    (db.vTxOutputs.filter fun o => o.1 == t.txid && p o.2) =
      (((db.outputKeys t.idTx).map (db.outputAt t.idTx)).filter p).map (t.txid, ·) := by
  unfold WalletDb.vTxOutputs
  rw [List.filter_flatMap, Keyed.flatMap_eq db.txids_nodup ht, WalletDb.loadOutputs_any,
    List.filter_map]
  · simp [Function.comp_def]
  · intro t' _ hne
    apply List.filter_eq_nil_iff.mpr
    intro o ho
    obtain ⟨out, -, rfl⟩ := List.mem_map.mp ho
    simp [hne]

theorem transactions_filter (ht : t ∈ db.transactions) :
    (db.transactions.filter fun t' => t'.txid == t.txid) = [t] := by
  rw [Keyed.filter_eq_find? db.txids_nodup (k := t.txid) (by simp),
    Keyed.find?_eq_some db.txids_nodup (by simp) ht rfl]
  rfl

/-- The rows the flat query joins to a transaction of the account. -/
def joinedRows (db : HistoryDb) (addressFilter : Option (List String)) (t : TransactionRow) :
    List ReceivedRow :=
  (db.transactions.filter fun t' => t'.txid == t.txid).flatMap fun t' =>
    (db.vTxOutputs.filter fun o => o.1 == t.txid && addressMatches addressFilter o.2).map
      fun o => ⟨t', o.2⟩

theorem joinedRows_eq (ht : t ∈ db.transactions) : db.joinedRows addressFilter t =
    (((db.outputKeys t.idTx).map (db.outputAt t.idTx)).filter
      (addressMatches addressFilter)).map (⟨t, ·⟩) := by
  unfold joinedRows
  rw [transactions_filter ht, List.flatMap_singleton, vTxOutputs_filter ht, List.map_map]
  rfl

theorem joinedRows_txid {r : ReceivedRow} (hr : r ∈ db.joinedRows addressFilter t) :
    r.transaction.txid = t.txid := by
  obtain ⟨t', ht', hr⟩ := List.mem_flatMap.mp hr
  obtain ⟨o, -, rfl⟩ := List.mem_map.mp hr
  simpa using (List.mem_filter.mp ht').2

theorem exists_account (hinvolves : db.involves (.only a) t = true) :
    ∃ x ∈ db.accounts, x.uuid = a := by
  unfold involves at hinvolves
  cases hnotes : db.mineNotes (.only a) t.idTx with
  | nil => simp [hnotes] at hinvolves
  | cons v notes =>
    have hv : v ∈ db.mineNotes (.only a) t.idTx := hnotes ▸ List.mem_cons_self
    obtain ⟨x, hx, -⟩ := List.mem_map.mp hv
    have hscope := (List.mem_filter.mp hx).2
    rw [WalletDb.scopeById_only, beq_iff_eq] at hscope
    obtain ⟨row, hrow, huuid⟩ := Option.map_eq_some_iff.mp hscope
    exact ⟨row, List.mem_of_find?_eq_some hrow, huuid⟩

theorem receivedRows_only {x : AccountRow} (hx : x ∈ db.accounts) :
    db.receivedRows (.only x.uuid) addressFilter =
      db.transactions.flatMap fun t => if db.mineNotes (.only x.uuid) t.idTx = [] then []
        else db.joinedRows addressFilter t := by
  unfold receivedRows WalletDb.vTransactions
  rw [List.filter_flatMap, List.flatMap_assoc, Keyed.flatMap_eq db.uuids_nodup hx]
  · rw [List.filter_eq_self.mpr, List.filterMap_eq_flatMap_toList, List.flatMap_assoc]
    · apply List.flatMap_congr
      intro t _
      split
      · rfl
      · exact List.flatMap_singleton _ _
    · intro v hv
      obtain ⟨t, -, hv⟩ := List.mem_filterMap.mp hv
      split at hv
      · cases hv
      · cases hv
        simp [WalletDb.scopeByUuid, AccountScope.param]
  · intro y _ hne
    rw [List.filter_eq_nil_iff.mpr]
    · rfl
    · intro v hv
      obtain ⟨t, -, hv⟩ := List.mem_filterMap.mp hv
      split at hv
      · cases hv
      · cases hv
        simpa [WalletDb.scopeByUuid, AccountScope.param] using hne

theorem receivedRows_filter (ht : t ∈ db.transactions)
    (hinvolves : db.involves (.only a) t = true) :
    ((db.receivedRows (.only a) addressFilter).filter fun r => r.transaction.txid == t.txid) =
      (((db.outputKeys t.idTx).map (db.outputAt t.idTx)).filter
        (addressMatches addressFilter)).map (⟨t, ·⟩) := by
  obtain ⟨x, hx, rfl⟩ := exists_account hinvolves
  have hmine : db.mineNotes (.only x.uuid) t.idTx ≠ [] := by
    simpa [involves] using hinvolves
  rw [receivedRows_only hx, List.filter_flatMap, Keyed.flatMap_eq db.txids_nodup ht,
    if_neg hmine, List.filter_eq_self.mpr fun r hr => by simpa using joinedRows_txid hr,
    joinedRows_eq ht]
  intro t' _ hne
  apply List.filter_eq_nil_iff.mpr
  intro r hr
  split at hr
  · cases hr
  · simpa [joinedRows_txid hr] using hne

/-! ## Receipts -/

def receiptsOf (codec : AddressCodec) (st : ScanStatus) (minconf : ℤ)
    (includeImmatureCoinbase : Bool) (tx : TxRecord) : List Receipt :=
  if txConfirmations st tx < minconf then []
  else tx.outputs.filterMap (receiptOf codec includeImmatureCoinbase tx (txConfirmations st tx))

theorem receiptsOf_txid {tx : TxRecord} {r : Receipt}
    (hr : r ∈ receiptsOf codec st minconf includeImmatureCoinbase tx) : r.txid = tx.txid := by
  unfold receiptsOf at hr
  split at hr
  · cases hr
  · obtain ⟨out, -, hr⟩ := List.mem_filterMap.mp hr
    unfold receiptOf at hr
    split at hr
    · cases hr
    · split at hr
      · cases hr
      · obtain ⟨addr, -, rfl⟩ := Option.map_eq_some_iff.mp hr
        rfl

def groupOf (db : HistoryDb) (rows : List ReceivedRow) (txid : ℕ) : List TxRecord :=
  match rows.filter fun r => r.transaction.txid == txid with
  | [] => []
  | r :: rs => [db.receivedRecord r.transaction (r :: rs)]

theorem groupOf_txid {rows : List ReceivedRow} {txid : ℕ} {tx : TxRecord}
    (htx : tx ∈ db.groupOf rows txid) : tx.txid = txid := by
  unfold groupOf at htx
  split at htx
  · cases htx
  · next r rs hrows =>
    have hr : r ∈ rows.filter fun r => r.transaction.txid == txid := hrows ▸ List.mem_cons_self
    have htxid : r.transaction.txid = txid := by simpa using (List.mem_filter.mp hr).2
    rw [List.mem_singleton.mp htx]
    exact htxid

theorem countedReceipts_groupRows {rows : List ReceivedRow}
    (hrows : ∀ r ∈ rows, r.transaction.txid = t.txid → r.transaction = t) :
    ((countedReceipts codec (db.groupRows rows) st minconf includeImmatureCoinbase).filter
        fun r => r.txid == t.txid) =
      receiptsOf codec st minconf includeImmatureCoinbase
        (db.receivedRecord t (rows.filter fun r => r.transaction.txid == t.txid)) := by
  have hcounted : countedReceipts codec (db.groupRows rows) st minconf includeImmatureCoinbase =
      (rows.map fun r => r.transaction.txid).reverse.dedup.reverse.flatMap fun txid =>
        (db.groupOf rows txid).flatMap
          (receiptsOf codec st minconf includeImmatureCoinbase) := List.flatMap_assoc
  have hother : ∀ txid, txid ≠ t.txid → ((db.groupOf rows txid).flatMap
      (receiptsOf codec st minconf includeImmatureCoinbase)).filter
        (fun r => r.txid == t.txid) = [] := by
    intro txid hne
    apply List.filter_eq_nil_iff.mpr
    intro r hr
    obtain ⟨tx, htx, hr⟩ := List.mem_flatMap.mp hr
    rw [receiptsOf_txid hr, groupOf_txid htx]
    simpa using hne
  rw [hcounted, List.filter_flatMap]
  cases hgroup : rows.filter fun r => r.transaction.txid == t.txid with
  | nil =>
    have hempty : db.groupOf rows t.txid = [] := by
      unfold groupOf
      rw [hgroup]
    rw [List.flatMap_eq_nil_iff.mpr]
    · simp [receiptsOf, receivedRecord]
    · intro txid _
      by_cases htxid : txid = t.txid
      · rw [htxid, hempty]
        rfl
      · exact hother txid htxid
  | cons r rs =>
    have hr : r ∈ rows.filter fun r => r.transaction.txid == t.txid :=
      hgroup ▸ List.mem_cons_self
    obtain ⟨hmem, htxid⟩ := List.mem_filter.mp hr
    have hself : r.transaction.txid = t.txid := by simpa using htxid
    have hsome : db.groupOf rows t.txid = [db.receivedRecord t (r :: rs)] := by
      unfold groupOf
      rw [hgroup, ← hrows r hmem hself]
    have hlisted : t.txid ∈ (rows.map fun r => r.transaction.txid).reverse.dedup.reverse := by
      simp only [List.mem_reverse, List.mem_dedup, List.mem_map]
      exact ⟨r, hmem, hself⟩
    have hnodup : ((rows.map fun r => r.transaction.txid).reverse.dedup.reverse.map id).Nodup := by
      simpa using List.nodup_dedup _
    rw [Keyed.flatMap_eq hnodup hlisted fun txid _ hne => hother txid hne, hsome,
      List.flatMap_singleton]
    apply List.filter_eq_self.mpr
    intro receipt hreceipt
    have htx := receiptsOf_txid hreceipt
    simpa [receivedRecord] using htx

theorem receivedRows_mem {scope : AccountScope} {r : ReceivedRow}
    (hr : r ∈ db.receivedRows scope addressFilter) : r.transaction ∈ db.transactions := by
  obtain ⟨v, -, hr⟩ := List.mem_flatMap.mp hr
  obtain ⟨t, ht, hr⟩ := List.mem_flatMap.mp hr
  obtain ⟨o, -, rfl⟩ := List.mem_map.mp hr
  exact (List.mem_filter.mp ht).1

theorem receiptsOf_perm {rows rows' : List ReceivedRow} (h : rows.Perm rows') :
    (receiptsOf codec st minconf includeImmatureCoinbase (db.receivedRecord t rows)).Perm
      (receiptsOf codec st minconf includeImmatureCoinbase (db.receivedRecord t rows')) := by
  have hconf : txConfirmations st (db.receivedRecord t rows) =
      txConfirmations st (db.receivedRecord t rows') := rfl
  unfold receiptsOf
  rw [hconf]
  split
  · exact List.Perm.nil
  · exact (h.map _).filterMap _

/-- What an output adds to the aggregation, if it is counted. -/
def paymentReceipt (db : HistoryDb) (a : AccountUuid) (t : TransactionRow) (codec : AddressCodec)
    (st : ScanStatus) (includeImmatureCoinbase : Bool) (key : PoolType × ℕ) : Option Receipt :=
  receiptOf codec includeImmatureCoinbase (db.txRecord (.only a) false t)
    (txConfirmations st (db.txRecord (.only a) false t)) (db.outputAt t.idTx key)

theorem countedReceipts_perm (ht : t ∈ db.transactions)
    (hinvolves : db.involves (.only a) t = true) :
    ((countedReceipts codec (db.receivedTxRecords (.only a) addressFilter) st minconf
        includeImmatureCoinbase).filter fun r => r.txid == t.txid).Perm
      (if txConfirmations st (db.txRecord (.only a) false t) < minconf then []
      else ((db.outputKeys t.idTx).filter fun key =>
        addressMatches addressFilter (db.outputAt t.idTx key)).filterMap
          (db.paymentReceipt a t codec st includeImmatureCoinbase)) := by
  have hsorted := List.perm_insertionSort (fun x y => sortKey x ≤ sortKey y)
    (db.receivedRows (.only a) addressFilter)
  unfold receivedTxRecords
  rw [countedReceipts_groupRows]
  · apply (receiptsOf_perm (hsorted.filter _)).trans
    rw [receivedRows_filter ht hinvolves]
    apply List.Perm.of_eq
    have hconf : ∀ rows, txConfirmations st (db.receivedRecord t rows) =
        txConfirmations st (db.txRecord (.only a) false t) := fun _ => rfl
    unfold receiptsOf
    rw [hconf]
    split
    · rfl
    · rw [List.filter_map]
      simp only [receivedRecord, List.map_map, List.filterMap_map]
      rfl
  · intro r hr htxid
    have hmem := receivedRows_mem (hsorted.mem_iff.mp hr)
    exact List.inj_on_of_nodup_map db.txids_nodup hmem ht htxid

theorem filter_filterMap_map_some {α β : Type} {l : List α} {p q : α → Bool}
    {c g : α → Option β}
    (h : ∀ x ∈ l, (if p x then (c x).map some else none) = if q x then some (g x) else none) :
    ((l.filter p).filterMap c).map some = (l.filter q).map g := by
  induction l with
  | nil => rfl
  | cons x l ih =>
    have hx := h x List.mem_cons_self
    have ih := ih fun y hy => h y (List.mem_cons_of_mem _ hy)
    cases hp : p x with
    | false =>
      have hq : q x = false := by simpa [hp] using hx
      rw [List.filter_cons_of_neg (by simp [hp]), List.filter_cons_of_neg (by simp [hq]), ih]
    | true =>
      rw [List.filter_cons_of_pos hp]
      cases hc : c x with
      | none =>
        have hq : q x = false := by simpa [hp, hc] using hx
        rw [List.filterMap_cons_none hc, List.filter_cons_of_neg (by simp [hq]), ih]
      | some y =>
        have hq : q x = true ∧ some y = g x := by
          cases hq : q x with
          | false => simp [hp, hc, hq] at hx
          | true => simpa [hp, hc, hq] using hx
        rw [List.filterMap_cons_some hc, List.filter_cons_of_pos hq.1, List.map_cons,
          List.map_cons, ih, hq.2]

/-- An output is counted if it pays some account externally at a recorded address, and is not
immature coinbase that was not asked for. -/
theorem paymentReceipt_eq (key : PoolType × ℕ) :
    db.paymentReceipt a t codec st includeImmatureCoinbase key =
      if db.onInternalScope t.idTx key || (db.paysTo t.idTx key).isNone then none
      else if !includeImmatureCoinbase && isImmatureCoinbase (db.txRecord (.only a) false t)
          (txConfirmations st (db.txRecord (.only a) false t)) (db.outputAt t.idTx key) then none
      else (db.recordedAddress t.idTx key).map fun addr =>
        ⟨(codec.issuedEncoding addr).getD addr, max (db.outputAt t.idTx key).value 0,
          txConfirmations st (db.txRecord (.only a) false t), t.txid⟩ := by
  unfold paymentReceipt receiptOf
  rw [WalletDb.outputAt_isInternalChange, WalletDb.outputAt_toAccount,
    WalletDb.outputAt_toAddress]
  rfl

/-- Counting is the account's own exactly when, of the transaction's external payments, those
with a recorded address are the ones to the account. -/
theorem receiptsAttributed_iff (ht : t ∈ db.transactions)
    (hinvolves : db.involves (.only a) t = true) :
    db.ReceiptsAttributed a t ↔ db.NoForeignPayee a t := by
  constructor
  · intro h
    have hcounted : ∀ key, (db.paymentReceipt a t plainCodec ⟨none⟩ true key).isSome =
        (!db.onInternalScope t.idTx key && (db.paysTo t.idTx key).isSome &&
          (db.recordedAddress t.idTx key).isSome) := by
      intro key
      rw [paymentReceipt_eq]
      cases db.onInternalScope t.idTx key <;> cases db.paysTo t.idTx key <;> simp
    have hperm := ((countedReceipts_perm ht hinvolves).map some).symm.trans
      (h plainCodec none ⟨none⟩ (txConfirmations ⟨none⟩ (db.txRecord (.only a) false t)) true)
    unfold ownReceipts at hperm
    simp only [lt_irrefl, if_false, addressMatches, Bool.and_true, Bool.true_or,
      List.filter_true] at hperm
    -- Every external payment to the account is counted, so it has an address.
    have hown : ∀ key ∈ db.outputKeys t.idTx, db.paysExternally a t key = true →
        (db.paymentReceipt a t plainCodec ⟨none⟩ true key).isSome = true := by
      intro key hkey hext
      have hmem := hperm.mem_iff.mpr
        (List.mem_map_of_mem (List.mem_filter.mpr ⟨hkey, hext⟩))
      obtain ⟨r, -, hr⟩ := List.mem_map.mp hmem
      obtain ⟨addr, haddr, -⟩ := Option.map_eq_some_iff.mp hr.symm
      simp only [paysExternally, Bool.and_eq_true, beq_iff_eq, Bool.not_eq_true'] at hext
      rw [hcounted, hext.1, hext.2, haddr]
      rfl
    -- As many outputs are counted as pay the account, so no others are.
    have hsame : (db.outputKeys t.idTx).filter (db.paysExternally a t) =
        (db.outputKeys t.idTx).filter fun key =>
          (db.paymentReceipt a t plainCodec ⟨none⟩ true key).isSome := by
      have hsub : ((db.outputKeys t.idTx).filter (db.paysExternally a t)).Sublist
          ((db.outputKeys t.idTx).filter fun key =>
            (db.paymentReceipt a t plainCodec ⟨none⟩ true key).isSome) := by
        have hboth : (db.outputKeys t.idTx).filter (db.paysExternally a t) =
            ((db.outputKeys t.idTx).filter fun key =>
              (db.paymentReceipt a t plainCodec ⟨none⟩ true key).isSome).filter
                (db.paysExternally a t) := by
          rw [List.filter_filter]
          apply List.filter_congr
          intro key hkey
          cases hext : db.paysExternally a t key with
          | false => rfl
          | true => rw [hown key hkey hext]; rfl
        rw [hboth]
        exact List.filter_sublist
      apply hsub.eq_of_length
      have hlength := hperm.length_eq
      rw [List.length_map, List.length_map, List.length_filterMap_eq_countP] at hlength
      rw [← hlength, List.countP_eq_length_filter]
    intro key hsome hint
    obtain ⟨b, hb⟩ := Option.isSome_iff_exists.mp hsome
    have hkey := mem_outputKeys_of_paysTo hb
    constructor
    · intro haddr
      have hmem : key ∈ (db.outputKeys t.idTx).filter (db.paysExternally a t) := by
        rw [hsame]
        apply List.mem_filter.mpr
        rw [hcounted, hint, hb, haddr]
        exact ⟨hkey, rfl⟩
      have hext := (List.mem_filter.mp hmem).2
      simp only [paysExternally, Bool.and_eq_true, beq_iff_eq] at hext
      exact hext.1
    · intro hpays
      have hsome := hown key hkey (by simp [paysExternally, hpays, hint])
      rw [hcounted] at hsome
      simp only [Bool.and_eq_true] at hsome
      exact hsome.2
  · intro h codec addressFilter st minconf includeImmatureCoinbase
    apply ((countedReceipts_perm ht hinvolves).map some).trans
    unfold ownReceipts
    dsimp only
    split
    · exact List.Perm.nil
    · apply List.Perm.of_eq
      apply filter_filterMap_map_some
      intro key _
      rw [paymentReceipt_eq, paysExternally]
      cases hint : db.onInternalScope t.idTx key with
      | true => simp
      | false =>
        cases hpays : db.paysTo t.idTx key with
        | none => simp
        | some b =>
          have hiff := h key (by rw [hpays]; rfl) hint
          rw [hpays] at hiff
          cases haddr : db.recordedAddress t.idTx key with
          | none =>
            have hne : b ≠ a := by simpa [haddr] using hiff
            simp [hne]
          | some addr =>
            have heq : b = a := by simpa [haddr] using hiff
            cases addressMatches addressFilter (db.outputAt t.idTx key) <;>
              cases includeImmatureCoinbase <;>
              cases isImmatureCoinbase (db.txRecord (.only a) false t)
                (txConfirmations st (db.txRecord (.only a) false t))
                (db.outputAt t.idTx key) <;> simp [heq]

/-! ## Attribution -/

/-- The history of a transaction is the account's own exactly when no other account stands on the
other side of its outputs, no change comes from a transaction it did not fund, and the external
payments with a recorded address are those to the account. -/
theorem historyAttributed_iff (db : HistoryDb) (a : AccountUuid) (t : TransactionRow)
    (ht : t ∈ db.transactions) (hinvolves : db.involves (.only a) t = true) :
    db.HistoryAttributed a t ↔
      db.NoCounterparty a t ∧ db.NoForeignChange a t ∧ db.NoForeignPayee a t := by
  unfold HistoryAttributed
  rw [entriesAttributed_iff, receiptsAttributed_iff ht hinvolves]
  constructor
  · rintro ⟨hno, hadd, hpayee⟩
    exact ⟨hno, (detailsAddUp_iff hno).mp hadd, hpayee⟩
  · rintro ⟨hno, hchange, hpayee⟩
    exact ⟨hno, (detailsAddUp_iff hno).mpr hchange, hpayee⟩

theorem eq_none_of_not_mem {key : PoolType × ℕ} (h : key ∉ db.outputKeys t.idTx) :
    db.paysTo t.idTx key = none ∧ db.fundedBy t.idTx key = none := by
  rw [WalletDb.mem_outputKeys, not_or, Option.not_isSome_iff_eq_none,
    Option.not_isSome_iff_eq_none] at h
  simp [WalletDb.paysTo, WalletDb.fundedBy, h.1, h.2]

def sampleTx : TransactionRow := ⟨1, 101, some 5, some 1, some 45, none, 5, some 10⟩

theorem twoAccounts_uuid_ne_nil :
    ∀ x ∈ [(⟨1, 10⟩ : AccountRow), ⟨2, 20⟩], x.uuid ≠ nilUuid := by decide

theorem twoAccounts_nodup : ([(⟨1, 10⟩ : AccountRow), ⟨2, 20⟩].map AccountRow.id).Nodup := by
  decide

theorem twoAccounts_uuids_nodup :
    ([(⟨1, 10⟩ : AccountRow), ⟨2, 20⟩].map AccountRow.uuid).Nodup := by decide

/-- A shard of two accounts. Account 10 spends a note of 100 in the transaction, pays 60 out and
gets 30 back as change. -/
def ownSend : HistoryDb where
  accounts := [⟨1, 10⟩, ⟨2, 20⟩]
  addresses := [⟨1, 0, "ua10", none, 0⟩, ⟨2, 1, "change10", none, 0⟩]
  transactions := [sampleTx, ⟨2, 102, some 4, some 1, some 44, none, 4, none⟩]
  outputs
    | .shielded .orchard =>
      [⟨1, 2, 0, 1, 100, false, none, some 1, none⟩, ⟨2, 1, 1, 1, 30, true, none, some 2, none⟩]
    | _ => []
  spends
    | .shielded .orchard => [⟨1, 1⟩]
    | _ => []
  sentNotes := [⟨1, .shielded .orchard, 0, 1, 60, some "payee", none⟩,
    ⟨1, .shielded .orchard, 1, 1, 30, none, none⟩]
  chainHeight := some 5
  blocks := [⟨4, "b4", 400⟩, ⟨5, "b5", 500⟩]
  uuid_ne_nil := twoAccounts_uuid_ne_nil
  accounts_nodup := twoAccounts_nodup
  uuids_nodup := twoAccounts_uuids_nodup
  transactions_nodup := by decide
  outputs_nodup := by rintro (_ | _ | _ | _) <;> decide
  sentNotes_nodup := by decide
  outputs_account := by rintro (_ | _ | _ | _) <;> decide
  sentNotes_account := by decide
  txids_nodup := by decide

theorem ownSend_outputKeys {key : PoolType × ℕ}
    (h : key ∈ ownSend.outputKeys sampleTx.idTx) :
    key = (.shielded .orchard, 0) ∨ key = (.shielded .orchard, 1) := by
  have hrows : ((ownSend.unioned sampleTx.idTx).map fun row => (row.pool, row.outputIndex)) =
      [(.shielded .orchard, 1), (.shielded .orchard, 0), (.shielded .orchard, 1)] := by
    decide
  rw [WalletDb.outputKeys, List.mem_mergeSort, List.mem_dedup, hrows] at h
  rcases h with _ | ⟨_, _ | ⟨_, _ | ⟨_, h⟩⟩⟩
  · exact Or.inr rfl
  · exact Or.inl rfl
  · exact Or.inr rfl
  · cases h

theorem ownSend_attributed : ownSend.HistoryAttributed 10 sampleTx := by
  have hspent : ownSend.spentBy 10 sampleTx = [100] := by decide
  apply (historyAttributed_iff ownSend 10 sampleTx (by decide) (by decide)).mpr
  constructor
  · intro key
    by_cases hkey : key ∈ ownSend.outputKeys sampleTx.idTx
    · rcases ownSend_outputKeys hkey with rfl | rfl
      · decide
      · decide
    · obtain ⟨hpays, hfunded⟩ := eq_none_of_not_mem hkey
      simp [hpays, hfunded]
  · constructor
    · intro outputs _ hnone
      rw [hspent] at hnone
      cases hnone
    · intro key hsome
      obtain ⟨b, hb⟩ := Option.isSome_iff_exists.mp hsome
      rcases ownSend_outputKeys (mem_outputKeys_of_paysTo hb) with rfl | rfl
      · exact absurd hsome (by decide)
      · decide

/-- Account 20 pays account 10 of the same shard, with the payment recorded on both sides. -/
def shardPayment : HistoryDb where
  accounts := [⟨1, 10⟩, ⟨2, 20⟩]
  addresses := [⟨1, 0, "ua10", none, 0⟩, ⟨2, 0, "ua20", none, 0⟩]
  transactions := [sampleTx, ⟨2, 102, some 4, some 1, some 44, none, 4, none⟩]
  outputs
    | .shielded .orchard =>
      [⟨1, 2, 0, 2, 100, false, none, some 2, none⟩, ⟨2, 1, 0, 1, 90, false, none, some 1, none⟩]
    | _ => []
  spends
    | .shielded .orchard => [⟨1, 1⟩]
    | _ => []
  sentNotes := [⟨1, .shielded .orchard, 0, 2, 90, some "ua10", none⟩]
  chainHeight := some 5
  blocks := [⟨4, "b4", 400⟩, ⟨5, "b5", 500⟩]
  uuid_ne_nil := twoAccounts_uuid_ne_nil
  accounts_nodup := twoAccounts_nodup
  uuids_nodup := twoAccounts_uuids_nodup
  transactions_nodup := by decide
  outputs_nodup := by rintro (_ | _ | _ | _) <;> decide
  sentNotes_nodup := by decide
  outputs_account := by rintro (_ | _ | _ | _) <;> decide
  sentNotes_account := by decide
  txids_nodup := by decide

/-- The payee's history shows the payment as sent by it too, and its details add up to nothing. -/
theorem shardPayment_shown_as_sent :
    sampleTx ∈ shardPayment.transactions ∧ shardPayment.involves (.only 10) sampleTx = true ∧
    (gettransactionDetails plainCodec (shardPayment.txRecord (.only 10) false sampleTx)).map
        (fun e => (e.category, e.amount)) = [(.send, -90), (.receive, 90)] ∧
    gettransactionAmount (shardPayment.accountBalanceDelta (.only 10) sampleTx.idTx)
        sampleTx.fee = 90 ∧
    ¬ shardPayment.HistoryAttributed 10 sampleTx := by
  constructor
  · decide
  · constructor
    · decide
    · constructor
      · decide +kernel
      · constructor
        · decide
        · rintro ⟨hentries, -⟩
          have hsend := ((hentries plainCodec false 0 0 none (Or.inl rfl)).2.2
            (.shielded .orchard, 0)).2.mp (by unfold HasEntry; decide +kernel)
          exact absurd hsend.1 (by decide)

end Zecd.HistoryDb
