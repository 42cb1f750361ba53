import Zecd.Read.Outputs

/-! # Whose history an output belongs to

A wallet scoped to an account `a` should show an output as received when it pays `a`, as sent
when `a` funded it, and count it as received by address when it pays `a`; and the amounts of a
transaction's details should add up to its amount. The history decides the category from
whether an account is recorded on either side at all, and the received-by query loads every
output of the transactions `a` takes part in, so both hold exactly when no other account of the
database appears where `a` would.
-/

namespace Zecd

namespace HistoryDb

variable (db : HistoryDb) (a : AccountUuid) (t : TransactionRow)

section Statement

/-- The output pays the account on a scope that is handed out. -/
def paysExternally (key : PoolType × ℕ) : Bool :=
  db.paysTo t.idTx key == some a && !db.onInternalScope t.idTx key

/-- The output is the account's own change: it pays the account on an internal scope. -/
def paysInternally (key : PoolType × ℕ) : Bool :=
  db.paysTo t.idTx key == some a && db.onInternalScope t.idTx key

def HasEntry (entries : List EntryCore) (category : Category) (key : PoolType × ℕ) : Prop :=
  ∃ e ∈ entries, e.category = category ∧ (e.pool, e.vout) = key

/-- An output has a receive entry exactly when it pays the account externally, and a send entry
exactly when the account funded it and it is not the account's own change. -/
def AttributesEntries (entries : List EntryCore) : Prop :=
  ∀ key, (HasEntry entries .receive key ↔ db.paysExternally a t key = true) ∧
    (HasEntry entries .send key ↔
      db.fundedBy t.idTx key = some a ∧ db.paysInternally a t key = false)

/-- All three renderings of the transaction attribute its outputs to the account. -/
def EntriesAttributed : Prop :=
  ∀ (codec : AddressCodec) (omitMemos : Bool) (confirmations time : ℤ) (label : Option String),
    label = none ∨ label = some "" →
    let tx := db.txRecord (.only a) omitMemos t
    AttributesEntries db a t
        ((txEntries codec tx confirmations time label).map TxEntry.toEntryCore) ∧
      AttributesEntries db a t ((zTxEntries codec tx confirmations time).map ZTxEntry.toEntryCore) ∧
      AttributesEntries db a t ((gettransactionDetails codec tx).map DetailEntry.toEntryCore)

def spentBy : List ℤ :=
  allPools.flatMap fun pool => ((db.spends pool).filter (·.transactionId == t.idTx)).flatMap
    fun s => (((db.outputs pool).filter (·.id == s.outputId)).filter
      fun r => db.accountUuid r.accountId == some a).map OutputRow.value

/-- The premises on a transaction with the given outputs and values, under which its details add
up: the tables hold the values of the outputs; and either its inputs are all the account's, its
recorded fee is inputs minus outputs and every output is recorded as sent by the account or as
its change, or none of its inputs is the account's. -/
structure AddsUp (outputs : List ((PoolType × ℕ) × ℤ)) : Prop where
  keys_nodup : (outputs.map Prod.fst).Nodup
  nonneg : ∀ o ∈ outputs, 0 ≤ o.2
  received : ∀ pool, ∀ r ∈ db.outputs pool, r.transactionId = t.idTx →
    ((pool, r.outputIndex), r.value) ∈ outputs
  sent : ∀ s ∈ db.sentNotes, s.transactionId = t.idTx →
    ((s.outputPool, s.outputIndex), s.value) ∈ outputs
  funding :
    (∃ fee, t.fee = some fee ∧ (fee : ℤ) = (db.spentBy a t).sum - (outputs.map Prod.snd).sum ∧
      ∀ o ∈ outputs, db.fundedBy t.idTx o.1 = some a ∨ db.paysInternally a t o.1 = true) ∨
    (db.spentBy a t = [] ∧ ∀ o ∈ outputs, db.fundedBy t.idTx o.1 ≠ some a)

def DetailsAddUp : Prop :=
  ∀ outputs, db.AddsUp a t outputs → ∀ (codec : AddressCodec) (omitMemos : Bool),
    ((gettransactionDetails codec (db.txRecord (.only a) omitMemos t)).map
        fun e => e.amount).sum =
      gettransactionAmount (db.accountBalanceDelta (.only a) t.idTx) t.fee

/-- The receipts the account's payments in the transaction should make, none for an output
without a recorded address. -/
def ownReceipts (codec : AddressCodec) (addressFilter : Option (List String)) (st : ScanStatus)
    (minconf : ℤ) (includeImmatureCoinbase : Bool) : List (Option Receipt) :=
  let tx := db.txRecord (.only a) false t
  let conf := txConfirmations st tx
  if conf < minconf then []
  else ((db.outputKeys t.idTx).filter fun key => db.paysExternally a t key &&
      addressMatches addressFilter (db.outputAt t.idTx key) &&
      (includeImmatureCoinbase || !isImmatureCoinbase tx conf (db.outputAt t.idTx key))).map
    fun key => (db.recordedAddress t.idTx key).map fun addr =>
      ⟨(codec.issuedEncoding addr).getD addr, max (db.outputAt t.idTx key).value 0, conf, t.txid⟩

/-- Of the transaction, the received-by aggregation counts exactly the outputs that pay the
account externally. -/
def ReceiptsAttributed : Prop :=
  ∀ (codec : AddressCodec) (addressFilter : Option (List String)) (st : ScanStatus) (minconf : ℤ)
    (includeImmatureCoinbase : Bool),
    (((countedReceipts codec (db.receivedTxRecords (.only a) addressFilter) st minconf
        includeImmatureCoinbase).filter fun r => r.txid == t.txid).map some).Perm
      (db.ownReceipts a t codec addressFilter st minconf includeImmatureCoinbase)

def HistoryAttributed : Prop :=
  db.EntriesAttributed a t ∧ db.DetailsAddUp a t ∧ db.ReceiptsAttributed a t

/-- No other account appears on the other side of an output of the account: what it funded pays
no other account, and what pays it externally is not recorded as funded by another. -/
def NoCounterparty : Prop :=
  ∀ key, (db.fundedBy t.idTx key = some a → ∀ b ∈ db.paysTo t.idTx key, b = a) ∧
    (db.paysExternally a t key = true → ∀ b ∈ db.fundedBy t.idTx key, b = a)

/-- A transaction that spends nothing of the account pays it nothing on an internal scope. -/
def NoForeignChange : Prop :=
  ∀ outputs, db.AddsUp a t outputs → db.spentBy a t = [] →
    ∀ key, ∀ r ∈ db.receivedAt t.idTx key.1 key.2, db.paysInternally a t key = true → r.value = 0

/-- The outputs that pay some account externally at a recorded address are those that pay this
account externally. -/
def NoForeignPayee : Prop :=
  ∀ key, (db.paysTo t.idTx key).isSome → db.onInternalScope t.idTx key = false →
    ((db.recordedAddress t.idTx key).isSome ↔ db.paysTo t.idTx key = some a)

end Statement

/-- A codec that knows no other encoding of an address. -/
def plainCodec : AddressCodec :=
  ⟨fun _ _ => none, fun _ => none, fun _ => false, fun _ => none⟩

section Entries

variable {db} {a} {t} {key : PoolType × ℕ} {codec : AddressCodec} {tx : TxRecord}

theorem mem_outputCategories {fromAccount toAccount : Bool} :
    (.receive ∈ outputCategories fromAccount toAccount ↔ toAccount = true) ∧
      (.send ∈ outputCategories fromAccount toAccount ↔ fromAccount = true) := by
  cases fromAccount <;> cases toAccount <;> decide

theorem map_outputEntries {α : Type} {entry : TxOutputRecord → Category → α}
    {core : α → EntryCore} (hcore : ∀ out c, core (entry out c) = entryCore codec tx out c)
    (outs : List TxOutputRecord) :
    (outputEntries entry outs).map core = outputEntries (entryCore codec tx) outs := by
  unfold outputEntries
  rw [List.map_flatMap]
  apply List.flatMap_congr
  intro out _
  rw [List.map_map]
  apply List.map_congr_left
  intro c _
  exact hcore out c

theorem entriesAttributed_iff_core : db.EntriesAttributed a t ↔ ∀ codec omitMemos,
    AttributesEntries db a t (outputEntries (entryCore codec (db.txRecord (.only a) omitMemos t))
      (db.loadOutputs (.only a) t.idTx omitMemos)) := by
  have hlist : ∀ (codec : AddressCodec) (tx : TxRecord) (confirmations time : ℤ)
      (label : Option String), label = none ∨ label = some "" →
      (txEntries codec tx confirmations time label).map TxEntry.toEntryCore =
        outputEntries (entryCore codec tx) tx.outputs := by
    intro codec tx confirmations time label hlabel
    have hkeep : (label.any fun f => !f.isEmpty) = false := by
      rcases hlabel with rfl | rfl
      · rfl
      · rfl
    rw [txEntries, hkeep]
    exact map_outputEntries (fun _ _ => rfl) tx.outputs
  constructor
  · intro h codec omitMemos
    have hentries := (h codec omitMemos 0 0 none (Or.inl rfl)).1
    rw [hlist codec _ 0 0 none (Or.inl rfl)] at hentries
    exact hentries
  · intro h codec omitMemos confirmations time label hlabel
    have hz : (zTxEntries codec (db.txRecord (.only a) omitMemos t) confirmations time).map
        ZTxEntry.toEntryCore = _ := map_outputEntries (fun _ _ => rfl) _
    have hdetails : (gettransactionDetails codec (db.txRecord (.only a) omitMemos t)).map
        DetailEntry.toEntryCore = _ := map_outputEntries (fun _ _ => rfl) _
    dsimp only
    rw [hlist _ _ _ _ _ hlabel, hz, hdetails]
    exact ⟨h codec omitMemos, h codec omitMemos, h codec omitMemos⟩

theorem mem_outputKeys_of_paysTo {b : AccountUuid} (h : db.paysTo t.idTx key = some b) :
    key ∈ db.outputKeys t.idTx := by
  obtain ⟨r, hr, -⟩ := Option.bind_eq_some_iff.mp h
  exact WalletDb.mem_outputKeys.mpr (Or.inl (by rw [hr]; rfl))

theorem mem_outputKeys_of_fundedBy {b : AccountUuid} (h : db.fundedBy t.idTx key = some b) :
    key ∈ db.outputKeys t.idTx := by
  obtain ⟨s, hs, -⟩ := Option.bind_eq_some_iff.mp h
  exact WalletDb.mem_outputKeys.mpr (Or.inr (by rw [hs]; rfl))

theorem hasEntry_iff {omitMemos : Bool} {c : Category} :
    HasEntry (outputEntries (entryCore codec tx) (db.loadOutputs (.only a) t.idTx omitMemos))
      c key ↔
    (db.paysTo t.idTx key = some a ∨ db.fundedBy t.idTx key = some a) ∧
      db.onInternalScope t.idTx key = false ∧
      c ∈ outputCategories (db.fundedBy t.idTx key).isSome (db.paysTo t.idTx key).isSome := by
  have hfields : ∀ key, (db.outputOf t.idTx omitMemos key).isInternalChange =
      db.onInternalScope t.idTx key ∧
      (db.outputOf t.idTx omitMemos key).fromAccount = db.fundedBy t.idTx key ∧
      (db.outputOf t.idTx omitMemos key).toAccount = db.paysTo t.idTx key ∧
      ((db.outputOf t.idTx omitMemos key).pool,
        (db.outputOf t.idTx omitMemos key).outputIndex) = key := by
    intro key
    rw [← WalletDb.outputAt_isInternalChange, ← WalletDb.outputAt_fromAccount,
      ← WalletDb.outputAt_toAccount]
    unfold WalletDb.outputOf
    split
    · exact ⟨rfl, rfl, rfl, rfl⟩
    · exact ⟨rfl, rfl, rfl, rfl⟩
  rw [WalletDb.loadOutputs_only]
  constructor
  · rintro ⟨e, he, rfl, rfl⟩
    obtain ⟨out, hout, he⟩ := List.mem_flatMap.mp he
    obtain ⟨hout, hinternal⟩ := List.mem_filter.mp hout
    obtain ⟨key, hkey, rfl⟩ := List.mem_map.mp hout
    obtain ⟨hint, hfrom, hto, hself⟩ := hfields key
    obtain ⟨c, hc, rfl⟩ := List.mem_map.mp he
    have hscope := (List.mem_filter.mp hkey).2
    simp only [Bool.or_eq_true, beq_iff_eq] at hscope
    rw [hint, Bool.not_eq_true'] at hinternal
    rw [hfrom, hto] at hc
    have hkeyeq : ((entryCore codec tx (db.outputOf t.idTx omitMemos key) c).pool,
        (entryCore codec tx (db.outputOf t.idTx omitMemos key) c).vout) = key := hself
    rw [hkeyeq]
    exact ⟨hscope, hinternal, hc⟩
  · rintro ⟨hscope, hinternal, hc⟩
    obtain ⟨hint, hfrom, hto, hself⟩ := hfields key
    have hkey : key ∈ db.outputKeys t.idTx := by
      rcases hscope with h | h
      · exact mem_outputKeys_of_paysTo h
      · exact mem_outputKeys_of_fundedBy h
    apply Exists.intro (entryCore codec tx (db.outputOf t.idTx omitMemos key) c)
    constructor
    · apply List.mem_flatMap.mpr
      apply Exists.intro (db.outputOf t.idTx omitMemos key)
      constructor
      · apply List.mem_filter.mpr
        rw [hint, hinternal]
        constructor
        · apply List.mem_map_of_mem
          apply List.mem_filter.mpr
          simpa [hkey] using hscope
        · rfl
      · rw [hfrom, hto]
        exact List.mem_map_of_mem hc
    · exact ⟨rfl, hself⟩

/-- The entries attribute the outputs to the account exactly when no other account stands on
the other side of one. -/
theorem entriesAttributed_iff : db.EntriesAttributed a t ↔ db.NoCounterparty a t := by
  rw [entriesAttributed_iff_core]
  constructor
  · intro h key
    obtain ⟨hreceive, hsend⟩ := h plainCodec false key
    rw [hasEntry_iff, mem_outputCategories.1] at hreceive
    rw [hasEntry_iff, mem_outputCategories.2] at hsend
    constructor
    · intro hfunded b hb
      rw [Option.mem_def] at hb
      by_contra hne
      have hpays : (db.paysTo t.idTx key == some a) = false := by simp [hb, hne]
      cases hinternal : db.onInternalScope t.idTx key with
      | false =>
        have hext := hreceive.mp ⟨Or.inr hfunded, hinternal, by rw [hb]; rfl⟩
        simp [paysExternally, hpays] at hext
      | true =>
        have hshown := hsend.mpr ⟨hfunded, by simp [paysInternally, hpays]⟩
        rw [hinternal] at hshown
        exact absurd hshown.2.1 (by simp)
    · intro hext b hb
      rw [Option.mem_def] at hb
      simp only [paysExternally, Bool.and_eq_true, beq_iff_eq, Bool.not_eq_true'] at hext
      have hfunded := (hsend.mp ⟨Or.inl hext.1, hext.2, by rw [hb]; rfl⟩).1
      rw [hb, Option.some.injEq] at hfunded
      exact hfunded
  · intro h codec omitMemos key
    obtain ⟨hpayee, hfunder⟩ := h key
    rw [hasEntry_iff, hasEntry_iff, mem_outputCategories.1, mem_outputCategories.2]
    simp only [paysExternally, paysInternally, Bool.and_eq_true, beq_iff_eq,
      Bool.not_eq_true', Bool.and_eq_false_iff, beq_eq_false_iff_ne] at hfunder ⊢
    constructor
    · constructor
      · rintro ⟨hpays | hfunded, hinternal, hto⟩
        · exact ⟨hpays, hinternal⟩
        · obtain ⟨b, hb⟩ := Option.isSome_iff_exists.mp hto
          exact ⟨hpayee hfunded b hb ▸ hb, hinternal⟩
      · rintro ⟨hpays, hinternal⟩
        exact ⟨Or.inl hpays, hinternal, by rw [hpays]; rfl⟩
    · constructor
      · rintro ⟨hscope, hinternal, hfrom⟩
        obtain ⟨b, hb⟩ := Option.isSome_iff_exists.mp hfrom
        rcases hscope with hpays | hfunded
        · exact ⟨hfunder ⟨hpays, hinternal⟩ b hb ▸ hb, Or.inr hinternal⟩
        · exact ⟨hfunded, Or.inr hinternal⟩
      · rintro ⟨hfunded, hown⟩
        have hinternal : db.onInternalScope t.idTx key = false := by
          rcases hown with hown | hinternal
          · -- An internal output pays an account of the database, here this one.
            by_contra hinternal
            cases hr : db.receivedAt t.idTx key.1 key.2 with
            | none => simp [WalletDb.onInternalScope, hr] at hinternal
            | some r =>
              obtain ⟨b, hb⟩ := WalletDb.exists_paysTo hr
              exact hown (hpayee hfunded b hb ▸ hb)
          · exact hinternal
        exact ⟨Or.inr hfunded, hinternal, by rw [hfunded]; rfl⟩

end Entries

end HistoryDb

end Zecd
