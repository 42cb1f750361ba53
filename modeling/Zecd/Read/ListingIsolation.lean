import Zecd.Read.Isolation

/-! # Account isolation of the listing of unspent outputs

The listing does depend on the rows of other accounts: through the two statements that carry no
account predicate, and through the address of a listed note, which another account's sent note
can give.
-/

namespace Zecd

/-! ## Unspent outputs -/

section Unspent

variable {db db' : WalletDb} {a : AccountUuid} {nu7 : Option ℕ} {target : ℕ}

theorem mineNotes_eq (idTx : ℕ) : db.mineNotes (.only a) idTx =
    (allPools.flatMap fun pool =>
      ((db.ownOutputs a pool).filter (·.transactionId == idTx)).map OutputRow.value) ++
    (allPools.flatMap fun pool =>
      ((db.ownSpends a pool).filter (·.transactionId == idTx)).flatMap fun s =>
        ((db.ownOutputs a pool).filter (·.id == s.outputId)).map fun r => -r.value) := by
  simp only [WalletDb.mineNotes, WalletDb.balanceNotes, List.filter_append, List.map_append,
    List.filter_flatMap, List.map_flatMap, List.filter_map, List.map_map, List.filter_filter,
    Function.comp_def]
  congr 1
  · apply List.flatMap_congr
    intro pool _
    rw [WalletDb.ownOutputs, List.filter_filter]
    simp only [Bool.and_comm]
  · apply List.flatMap_congr
    intro pool _
    rw [flatMap_eq_filter (p := fun s => (db.ownOutputs a pool).any (·.id == s.outputId)),
      WalletDb.ownSpends, List.filter_filter, List.filter_filter]
    · simp only [WalletDb.ownOutputs, List.filter_filter, Bool.and_comm]
    · -- a spend of another account's output
      intro s _ hs
      rw [List.map_eq_nil_iff, List.filter_eq_nil_iff]
      intro r hr hown
      have hr : r ∈ db.ownOutputs a pool ∧ r.id = s.outputId := by
        simp only [Bool.and_eq_true, beq_iff_eq] at hown
        exact ⟨mem_ownOutputs.mpr ⟨hr, hown.1⟩, hown.2⟩
      simp only [List.any_eq_false, beq_iff_eq] at hs
      exact hs r hr.1 hr.2

theorem WalletDb.AgreesOn.mineNotes (h : AgreesOn a db db') (idTx : ℕ) :
    db.mineNotes (.only a) idTx = db'.mineNotes (.only a) idTx := by
  simp only [mineNotes_eq, h.outputs, h.spends]

theorem mem_ownTransactions_of_mineNotes {idTx : ℕ} (h : db.mineNotes (.only a) idTx ≠ []) :
    idTx ∈ db.ownTransactions a := by
  obtain ⟨v, hv⟩ := List.exists_mem_of_ne_nil _ h
  rw [mineNotes_eq] at hv
  simp only [List.mem_append, List.mem_flatMap, List.mem_map, List.mem_filter, beq_iff_eq] at hv
  rcases hv with ⟨pool, -, r, ⟨hr, rfl⟩, -⟩ | ⟨pool, -, s, ⟨hs, rfl⟩, -⟩
  · exact ownOutput_mem_ownTransactions hr
  · exact ownSpend_mem_ownTransactions hs

theorem mem_vTransactions {v : WalletDb.VTransactionRow} : v ∈ db.vTransactions ↔
    v.accountUuid ∈ db.accounts.map AccountRow.uuid ∧ v.transaction ∈ db.transactions ∧
      db.mineNotes (.only v.accountUuid) v.transaction.idTx ≠ [] ∧
      v.accountBalanceDelta =
        db.accountBalanceDelta (.only v.accountUuid) v.transaction.idTx := by
  simp only [WalletDb.vTransactions, List.mem_flatMap, List.mem_filterMap, List.mem_map,
    Option.ite_none_left_eq_some, Option.some.injEq]
  constructor
  · rintro ⟨x, hx, t, ht, hmine, rfl⟩
    exact ⟨⟨x, hx, rfl⟩, ht, hmine, rfl⟩
  · rintro ⟨⟨x, hx, huuid⟩, ht, hmine, hdelta⟩
    refine ⟨x, hx, v.transaction, ht, huuid ▸ hmine, ?_⟩
    rw [huuid, ← hdelta]

theorem WalletDb.AgreesOn.mem_vTransactions (h : AgreesOn a db db') {v : VTransactionRow}
    (hv : v.accountUuid = a) (hmem : v ∈ db.vTransactions) : v ∈ db'.vTransactions := by
  subst hv
  obtain ⟨haccount, ht, hmine, hdelta⟩ := Zecd.mem_vTransactions.mp hmem
  have hmem : v.accountUuid ∈ (db.accounts.filter (·.uuid == v.accountUuid)).map
      AccountRow.uuid := by
    obtain ⟨x, hx, huuid⟩ := List.mem_map.mp haccount
    exact List.mem_map.mpr ⟨x, List.mem_filter.mpr ⟨hx, by simpa using huuid⟩, huuid⟩
  rw [h.accounts] at hmem
  obtain ⟨x, hx, huuid⟩ := List.mem_map.mp hmem
  refine Zecd.mem_vTransactions.mpr ⟨List.mem_map.mpr ⟨x, (List.mem_filter.mp hx).1, huuid⟩,
    h.mem_transactions (mem_ownTransactions_of_mineNotes hmine) ht, ?_, ?_⟩
  · rwa [← h.mineNotes]
  · rw [hdelta, WalletDb.accountBalanceDelta, WalletDb.accountBalanceDelta, h.mineNotes]

theorem scopeByUuid_only (x : Option AccountUuid) :
    WalletDb.scopeByUuid (.only a) x = (x == some a) := rfl

theorem txMeta_find? (txid : ℕ) (v : WalletDb.VTransactionRow) :
    (db.vTransactions.filter fun v => WalletDb.scopeByUuid (.only a)
      (some v.accountUuid)).reverse.find? (·.transaction.txid == txid) = some v ↔
      v ∈ db.vTransactions ∧ v.accountUuid = a ∧ v.transaction.txid = txid := by
  have hscope : ∀ v : WalletDb.VTransactionRow,
      WalletDb.scopeByUuid (.only a) (some v.accountUuid) = true ↔ v.accountUuid = a := by
    simp [scopeByUuid_only]
  rw [Keyed.find?_eq_some_iff]
  · simp only [List.mem_reverse, List.mem_filter, hscope, beq_iff_eq, and_assoc]
  · intro x hx y hy hxid hyid
    rw [List.mem_reverse, List.mem_filter, hscope] at hx hy
    obtain ⟨hx, rfl⟩ := hx
    obtain ⟨hy, huuid⟩ := hy
    obtain ⟨-, htx, -, hdx⟩ := mem_vTransactions.mp hx
    obtain ⟨-, hty, -, hdy⟩ := mem_vTransactions.mp hy
    rw [beq_iff_eq] at hxid hyid
    have ht := List.inj_on_of_nodup_map db.txids_nodup htx hty (hxid.trans hyid.symm)
    cases x
    cases y
    simp_all

theorem WalletDb.AgreesOn.txMeta (h : AgreesOn a db db') (txid : ℕ) :
    db.txMeta (.only a) txid = db'.txMeta (.only a) txid := by
  have hfind : (db.vTransactions.filter fun v => WalletDb.scopeByUuid (.only a)
      (some v.accountUuid)).reverse.find? (·.transaction.txid == txid) =
      (db'.vTransactions.filter fun v => WalletDb.scopeByUuid (.only a)
        (some v.accountUuid)).reverse.find? (·.transaction.txid == txid) := by
    ext v
    rw [txMeta_find?, txMeta_find?]
    constructor
    · rintro ⟨hv, huuid, htxid⟩
      exact ⟨h.mem_vTransactions huuid hv, huuid, htxid⟩
    · rintro ⟨hv, huuid, htxid⟩
      exact ⟨h.symm.mem_vTransactions huuid hv, huuid, htxid⟩
  rw [WalletDb.txMeta, WalletDb.txMeta, hfind]

/-! ## The address of a listed note -/

theorem mem_vTxOutputs {x : ℕ × TxOutputRecord} : x ∈ db.vTxOutputs ↔
    ∃ t ∈ db.transactions, ∃ key ∈ db.outputKeys t.idTx, (t.txid, db.outputAt t.idTx key) = x := by
  simp only [WalletDb.vTxOutputs, WalletDb.loadOutputs_any, List.mem_flatMap, List.mem_map,
    exists_exists_and_eq_and]

theorem mem_outputKeys_of_names {idTx : ℕ} {key : PoolType × ℕ} (h : db.Names a idTx key) :
    key ∈ db.outputKeys idTx := by
  rw [WalletDb.mem_outputKeys]
  rcases h with h | h
  · obtain ⟨r, hr, -⟩ := Option.bind_eq_some_iff.mp h
    exact .inl (by simp [hr])
  · obtain ⟨s, hs, -⟩ := Option.bind_eq_some_iff.mp h
    exact .inr (by simp [hs])

theorem outAddr_eq_some {txid vout : ℕ} {pool : ShieldedPool} {addr : String} :
    db.outAddr (.only a) txid (.shielded pool) vout = some addr ↔
      ∃ t ∈ db.transactions, t.txid = txid ∧ db.Names a t.idTx (.shielded pool, vout) ∧
        db.recordedAddress t.idTx (.shielded pool, vout) = some addr := by
  unfold WalletDb.outAddr
  simp only [Option.bind_eq_some_iff]
  constructor
  · rintro ⟨x, hx, haddr⟩
    have hmem := List.mem_of_find?_eq_some hx
    have hkey := List.find?_some hx
    simp only [List.mem_reverse, List.mem_filter, mem_vTxOutputs, scopeByUuid_only,
      Bool.and_eq_true, Bool.or_eq_true, beq_iff_eq] at hmem hkey
    obtain ⟨⟨t, ht, ⟨pool', vout'⟩, -, rfl⟩, -, hnames⟩ := hmem
    obtain ⟨⟨⟨htxid, rfl⟩, rfl⟩, -⟩ := hkey
    refine ⟨t, ht, htxid, ?_, ?_⟩
    · simpa [WalletDb.Names] using hnames
    · simpa using haddr
  · rintro ⟨t, ht, htxid, hnames, haddr⟩
    refine ⟨(t.txid, db.outputAt t.idTx (.shielded pool, vout)), ?_, by simpa using haddr⟩
    rw [Keyed.find?_eq_some_iff]
    · simp only [List.mem_reverse, List.mem_filter, mem_vTxOutputs, scopeByUuid_only]
      refine ⟨⟨⟨t, ht, _, mem_outputKeys_of_names hnames, rfl⟩, ?_⟩, ?_⟩
      · simpa [WalletDb.Names] using hnames
      · simp [htxid, haddr]
    · -- the txid, the pool and the index name one output
      intro x hx y hy hkx hky
      simp only [List.mem_reverse, List.mem_filter, mem_vTxOutputs, Bool.and_eq_true,
        beq_iff_eq] at hx hy hkx hky
      obtain ⟨⟨tx, htx, ⟨px, ix⟩, -, rfl⟩, -⟩ := hx
      obtain ⟨⟨ty, hty, ⟨py, iy⟩, -, rfl⟩, -⟩ := hy
      obtain ⟨⟨⟨hx, rfl⟩, rfl⟩, -⟩ := hkx
      obtain ⟨⟨⟨hy, rfl⟩, rfl⟩, -⟩ := hky
      obtain rfl := List.inj_on_of_nodup_map db.txids_nodup htx hty (hx.trans hy.symm)
      rfl

theorem WalletDb.AgreesOn.paysTo (h : AgreesOn a db db') {idTx : ℕ} {key : PoolType × ℕ}
    (hpays : db.paysTo idTx key = some a) : db'.paysTo idTx key = some a := by
  obtain ⟨r, hr, huuid⟩ := Option.bind_eq_some_iff.mp hpays
  obtain ⟨hmem, rfl, hi⟩ := WalletDb.receivedAt_some hr
  have hown : r ∈ db.ownOutputs a key.1 :=
    mem_ownOutputs.mpr ⟨hmem, by simp [WalletDb.scopeById_only, huuid]⟩
  rw [h.outputs] at hown
  obtain ⟨hmem', hscope⟩ := mem_ownOutputs.mp hown
  rw [WalletDb.scopeById_only, beq_iff_eq] at hscope
  rw [WalletDb.paysTo, ← hi, WalletDb.receivedAt_eq_some hmem', Option.bind_some, hscope]

theorem WalletDb.AgreesOn.fundedBy (h : AgreesOn a db db') {idTx : ℕ} {key : PoolType × ℕ}
    (hfunded : db.fundedBy idTx key = some a) : db'.fundedBy idTx key = some a := by
  obtain ⟨s, hs, huuid⟩ := Option.bind_eq_some_iff.mp hfunded
  obtain ⟨hmem, rfl, hpool, hi⟩ := WalletDb.sentNoteAt_some hs
  have hown : s ∈ db.ownSentNotes a :=
    List.mem_filter.mpr ⟨hmem, by simp [WalletDb.scopeById_only, huuid]⟩
  rw [h.sentNotes] at hown
  obtain ⟨hmem', hscope⟩ := List.mem_filter.mp hown
  rw [WalletDb.scopeById_only, beq_iff_eq] at hscope
  rw [WalletDb.fundedBy, ← hpool, ← hi, WalletDb.sentNoteAt_eq_some hmem', Option.bind_some,
    hscope]

theorem WalletDb.AgreesOn.names (h : AgreesOn a db db') {idTx : ℕ} {key : PoolType × ℕ}
    (hnames : db.Names a idTx key) : db'.Names a idTx key :=
  hnames.imp h.paysTo h.fundedBy

theorem mem_ownTransactions_of_names {idTx : ℕ} {key : PoolType × ℕ}
    (h : db.Names a idTx key) : idTx ∈ db.ownTransactions a := by
  rcases h with h | h
  · obtain ⟨r, hr, huuid⟩ := Option.bind_eq_some_iff.mp h
    obtain ⟨hmem, rfl, -⟩ := WalletDb.receivedAt_some hr
    exact ownOutput_mem_ownTransactions
      (mem_ownOutputs.mpr ⟨hmem, by simp [WalletDb.scopeById_only, huuid]⟩)
  · obtain ⟨s, hs, huuid⟩ := Option.bind_eq_some_iff.mp h
    obtain ⟨hmem, rfl, -⟩ := WalletDb.sentNoteAt_some hs
    exact ownSentNote_mem_ownTransactions
      (List.mem_filter.mpr ⟨hmem, by simp [WalletDb.scopeById_only, huuid]⟩)

theorem WalletDb.AgreesOn.addressAgrees_symm (h : AgreesOn a db db') {txid : ℕ}
    {key : PoolType × ℕ} (haddr : db.AddressAgrees a db' txid key) :
    db'.AddressAgrees a db txid key := by
  intro t ht htxid hnames
  have hmem := h.symm.mem_transactions (mem_ownTransactions_of_names hnames) ht
  exact (haddr t hmem htxid (h.symm.names hnames)).symm

theorem WalletDb.AgreesOn.outAddr_of_agrees (h : AgreesOn a db db') {txid vout : ℕ}
    {pool : ShieldedPool} {addr : String}
    (haddr : db.AddressAgrees a db' txid (.shielded pool, vout))
    (hout : db.outAddr (.only a) txid (.shielded pool) vout = some addr) :
    db'.outAddr (.only a) txid (.shielded pool) vout = some addr := by
  obtain ⟨t, ht, htxid, hnames, hrecorded⟩ := outAddr_eq_some.mp hout
  refine outAddr_eq_some.mpr ⟨t, h.mem_transactions (mem_ownTransactions_of_names hnames) ht,
    htxid, h.names hnames, ?_⟩
  rw [← haddr t ht htxid hnames, hrecorded]

theorem WalletDb.AgreesOn.outAddr (h : AgreesOn a db db') (txid vout : ℕ) (pool : ShieldedPool) :
    db.outAddr (.only a) txid (.shielded pool) vout =
        db'.outAddr (.only a) txid (.shielded pool) vout ↔
      db.AddressAgrees a db' txid (.shielded pool, vout) := by
  constructor
  · intro hout t ht htxid hnames
    have hmem := h.mem_transactions (mem_ownTransactions_of_names hnames) ht
    have hshown : ∀ db : WalletDb, t ∈ db.transactions → db.Names a t.idTx (.shielded pool, vout) →
        db.outAddr (.only a) txid (.shielded pool) vout =
          db.recordedAddress t.idTx (.shielded pool, vout) := by
      intro db ht hnames
      ext addr
      rw [outAddr_eq_some]
      constructor
      · rintro ⟨t', ht', htxid', -, hrecorded⟩
        obtain rfl := List.inj_on_of_nodup_map db.txids_nodup ht' ht (htxid'.trans htxid.symm)
        exact hrecorded
      · intro hrecorded
        exact ⟨t, ht, htxid, hnames, hrecorded⟩
    rw [← hshown db ht hnames, hout, hshown db' hmem (h.names hnames)]
  · intro haddr
    ext addr
    exact ⟨h.outAddr_of_agrees haddr, h.symm.outAddr_of_agrees (h.addressAgrees_symm haddr)⟩

theorem WalletDb.AgreesOn.shieldedEntry (h : AgreesOn a db db') (pool : ShieldedPool)
    (txid vout value : ℕ) :
    db.shieldedEntry (.only a) pool txid vout value =
        db'.shieldedEntry (.only a) pool txid vout value ↔
      db.AddressAgrees a db' txid (.shielded pool, vout) := by
  rw [← h.outAddr]
  simp [WalletDb.shieldedEntry, h.txMeta]

theorem selectedNotes_eq (wallet : WalletRead) :
    db.selectedNotes wallet (.only a) target = (db.selectedKeys wallet a target).map fun x =>
      db.shieldedEntry (.only a) x.1 x.2.txid x.2.outputIndex x.2.value := by
  have haccounts : ((db.accounts.map AccountRow.uuid).filter fun x =>
      !(AccountScope.only a).excludes x) = (db.accounts.filter (·.uuid == a)).map
        AccountRow.uuid := by
    simp only [not_excludes_only, List.filter_map, Function.comp_def]
  rw [WalletDb.selectedNotes, haccounts, WalletDb.selectedKeys, List.map_flatMap,
    List.flatMap_map]
  apply List.flatMap_congr
  intro x hx
  have huuid : x.uuid = a := by simpa using (List.mem_filter.mp hx).2
  simp only [huuid, List.map_append, List.map_map, Function.comp_def]

theorem WalletDb.AgreesOn.selectedKeys {wallet : WalletRead} (hw : wallet.Lawful)
    (h : AgreesOn a db db') :
    db.selectedKeys wallet a target = db'.selectedKeys wallet a target := by
  simp only [WalletDb.selectedKeys, h.accounts, hw.notes a db db' h target]

theorem WalletDb.AgreesOn.selectedNotes {wallet : WalletRead} (hw : wallet.Lawful)
    (h : AgreesOn a db db') :
    db.selectedNotes wallet (.only a) target = db'.selectedNotes wallet (.only a) target ↔
      ∀ x ∈ db.selectedKeys wallet a target,
        db.AddressAgrees a db' x.2.txid (.shielded x.1, x.2.outputIndex) := by
  rw [selectedNotes_eq, selectedNotes_eq, ← h.selectedKeys hw, List.map_inj_left]
  simp only [h.shieldedEntry]

theorem unminedNotes_eq {seen : List (ℕ × PoolType × ℕ)} {pool : ShieldedPool}
    (hquiet : ∀ r ∈ db.outputs (.shielded pool), db.Foreign a r →
      ∀ t ∈ db.transactionsOf r.transactionId, db.isUnminedNote nu7 target pool r t = false) :
    db.unminedNotes nu7 (.only a) target seen pool =
      (db.ownOutputs a (.shielded pool)).flatMap fun r =>
        ((db.transactionsOf r.transactionId).filter
          (db.isUnminedNote nu7 target pool r)).filterMap fun t =>
            if (t.txid, .shielded pool, r.outputIndex) ∈ seen then none
            else some (db.shieldedEntry (.only a) pool t.txid r.outputIndex r.value.toNat) := by
  rw [WalletDb.unminedNotes, WalletDb.ownOutputs]
  apply flatMap_eq_filter
  intro r hr hforeign
  have hnone : (db.transactionsOf r.transactionId).filter (db.isUnminedNote nu7 target pool r) =
      [] := by
    rw [List.filter_eq_nil_iff]
    intro t ht
    simp [hquiet r hr hforeign t ht]
  rw [hnone, List.filterMap_nil]

theorem WalletDb.AgreesOn.unminedNotes (h : AgreesOn a db db') {seen : List (ℕ × PoolType × ℕ)}
    {pool : ShieldedPool} (haddr : ∀ txid key, db.AddressAgrees a db' txid key)
    (hquiet : ∀ r ∈ db.outputs (.shielded pool), db.Foreign a r →
      ∀ t ∈ db.transactionsOf r.transactionId, db.isUnminedNote nu7 target pool r t = false)
    (hquiet' : ∀ r ∈ db'.outputs (.shielded pool), db'.Foreign a r →
      ∀ t ∈ db'.transactionsOf r.transactionId, db'.isUnminedNote nu7 target pool r t = false) :
    db.unminedNotes nu7 (.only a) target seen pool =
      db'.unminedNotes nu7 (.only a) target seen pool := by
  rw [unminedNotes_eq hquiet, unminedNotes_eq hquiet', ← h.outputs]
  apply List.flatMap_congr
  intro r hr
  have hnote : db.isUnminedNote nu7 target pool r = db'.isUnminedNote nu7 target pool r := by
    funext t
    simp only [WalletDb.isUnminedNote, h.liveSpent hr]
  have hentry : ∀ txid vout value, db.shieldedEntry (.only a) pool txid vout value =
      db'.shieldedEntry (.only a) pool txid vout value := fun txid vout value =>
    (h.shieldedEntry pool txid vout value).mpr (haddr _ _)
  simp only [h.transactionsOf hr, hnote, hentry]

theorem transparentUnspent_eq
    (hquiet : ∀ r ∈ db.outputs .transparent, db.Foreign a r →
      ∀ t ∈ db.transactionsOf r.transactionId, db.isListedOutput nu7 target r t = false) :
    db.transparentUnspent nu7 (.only a) target =
      (db.ownOutputs a .transparent).flatMap fun r =>
        ((db.transactionsOf r.transactionId).filter (db.isListedOutput nu7 target r)).map fun t =>
          { txid := t.txid
            vout := r.outputIndex
            value := r.value.toNat
            minedHeight := (db.txMeta (.only a) t.txid).1
            trusted := (db.txMeta (.only a) t.txid).2
            address := r.address
            pool := .transparent
            generated := WalletDb.isCoinbase t } := by
  rw [WalletDb.transparentUnspent, WalletDb.ownOutputs]
  apply flatMap_eq_filter
  intro r hr hforeign
  have hnone :
      (db.transactionsOf r.transactionId).filter (db.isListedOutput nu7 target r) = [] := by
    rw [List.filter_eq_nil_iff]
    intro t ht
    simp [hquiet r hr hforeign t ht]
  rw [hnone, List.map_nil]

theorem WalletDb.AgreesOn.transparentUnspent (h : AgreesOn a db db')
    (hquiet : ∀ r ∈ db.outputs .transparent, db.Foreign a r →
      ∀ t ∈ db.transactionsOf r.transactionId, db.isListedOutput nu7 target r t = false)
    (hquiet' : ∀ r ∈ db'.outputs .transparent, db'.Foreign a r →
      ∀ t ∈ db'.transactionsOf r.transactionId, db'.isListedOutput nu7 target r t = false) :
    db.transparentUnspent nu7 (.only a) target = db'.transparentUnspent nu7 (.only a) target := by
  rw [transparentUnspent_eq hquiet, transparentUnspent_eq hquiet', ← h.outputs]
  apply List.flatMap_congr
  intro r hr
  have hlisted : db.isListedOutput nu7 target r = db'.isListedOutput nu7 target r := by
    funext t
    simp only [WalletDb.isListedOutput, h.liveSpent hr]
  simp only [h.transactionsOf hr, hlisted, h.txMeta]

/-- Where no row of another account is of the unscoped kind and the addresses agree, the listing
is isolated. -/
theorem WalletDb.AgreesOn.listUnspent {wallet : WalletRead} (hw : wallet.Lawful)
    (h : AgreesOn a db db') (hquiet : db.Quiet nu7 (db.Foreign a))
    (hquiet' : db'.Quiet nu7 (db'.Foreign a))
    (haddr : ∀ txid key, db.AddressAgrees a db' txid key) :
    db.listUnspent nu7 wallet (.only a) = db'.listUnspent nu7 wallet (.only a) := by
  unfold WalletDb.listUnspent
  rw [← h.chainHeight]
  cases hc : db.chainHeight with
  | none => rfl
  | some chainHeight =>
    obtain ⟨hnotes, hutxos⟩ := hquiet chainHeight hc
    obtain ⟨hnotes', hutxos'⟩ := hquiet' chainHeight (h.chainHeight ▸ hc)
    have hunmined : ∀ seen pool, db.unminedNotes nu7 (.only a) (chainHeight + 1) seen pool =
        db'.unminedNotes nu7 (.only a) (chainHeight + 1) seen pool := fun seen pool =>
      h.unminedNotes haddr (hnotes pool) (hnotes' pool)
    have hselected : db.selectedNotes wallet (.only a) (chainHeight + 1) =
        db'.selectedNotes wallet (.only a) (chainHeight + 1) :=
      (h.selectedNotes hw).mpr fun x _ => haddr _ _
    simp only [hselected, hunmined, h.transparentUnspent hutxos hutxos']

theorem listUnspent_of_quiet (wallet : WalletRead) {chainHeight : ℕ}
    (hc : db.chainHeight = some chainHeight) (hquiet : db.Quiet nu7 fun _ => True) :
    db.listUnspent nu7 wallet (.only a) =
      db.selectedNotes wallet (.only a) (chainHeight + 1) := by
  obtain ⟨hnotes, hutxos⟩ := hquiet chainHeight hc
  have hunmined : ∀ seen pool,
      db.unminedNotes nu7 (.only a) (chainHeight + 1) seen pool = [] := by
    intro seen pool
    refine List.flatMap_eq_nil_iff.mpr fun r hr => ?_
    rw [List.filter_eq_nil_iff.mpr, List.filterMap_nil]
    intro t ht
    simp [hnotes pool r hr trivial t ht]
  have htransparent : db.transparentUnspent nu7 (.only a) (chainHeight + 1) = [] := by
    refine List.flatMap_eq_nil_iff.mpr fun r hr => ?_
    rw [List.filter_eq_nil_iff.mpr, List.map_nil]
    intro t ht
    simp [hutxos r hr trivial t ht]
  simp only [WalletDb.listUnspent, hc, hunmined, htransparent, List.append_nil]
  simp

theorem listUnspent_noAccount (wallet : WalletRead) :
    db.listUnspent nu7 wallet .noAccount = [] ↔ db.Quiet nu7 fun _ => True := by
  unfold WalletDb.listUnspent WalletDb.Quiet
  cases hc : db.chainHeight with
  | none => simp
  | some chainHeight =>
    have hselected : db.selectedNotes wallet .noAccount (chainHeight + 1) = [] := by
      simp [WalletDb.selectedNotes, AccountScope.excludes]
    simp only [hselected, List.map_nil, List.nil_append, List.append_eq_nil_iff,
      List.flatMap_eq_nil_iff, WalletDb.unminedNotes, WalletDb.transparentUnspent,
      List.filterMap_eq_nil_iff, List.map_eq_nil_iff, List.filter_eq_nil_iff, List.not_mem_nil,
      if_false, List.mem_filter, reduceCtorEq, imp_false, not_and, Option.some.injEq]
    constructor
    · rintro ⟨hnotes, hutxos⟩ _ rfl
      refine ⟨fun pool r hr _ t ht => ?_, fun r hr _ t ht => ?_⟩
      · have := hnotes pool (by cases pool <;> simp) r hr t ht
        simpa using this
      · simpa using hutxos r hr t ht
    · intro hquiet
      obtain ⟨hnotes, hutxos⟩ := hquiet chainHeight rfl
      refine ⟨fun pool _ r hr t ht => ?_, fun r hr t ht => ?_⟩
      · simp [hnotes pool r hr trivial t ht]
      · simp [hutxos r hr trivial t ht]

end Unspent

/-- Without rows of the unscoped kind, the account's listing is the same exactly if the addresses
of the selected notes are. -/
theorem listUnspent_eq_iff {wallet : WalletRead} (hw : wallet.Lawful) {nu7 : Option ℕ}
    {a : AccountUuid} {db db' : WalletDb} (h : WalletDb.AgreesOn a db db')
    (hquiet : db.Quiet nu7 fun _ => True) (hquiet' : db'.Quiet nu7 fun _ => True) :
    db.listUnspent nu7 wallet (.only a) = db'.listUnspent nu7 wallet (.only a) ↔
      db.SelectedAgree wallet a db' := by
  unfold WalletDb.SelectedAgree
  cases hc : db.chainHeight with
  | none =>
    have hc' : db'.chainHeight = none := h.chainHeight ▸ hc
    simp [WalletDb.listUnspent, hc, hc']
  | some chainHeight =>
    have hc' : db'.chainHeight = some chainHeight := h.chainHeight ▸ hc
    rw [listUnspent_of_quiet wallet hc hquiet, listUnspent_of_quiet wallet hc' hquiet',
      h.selectedNotes hw]
    simp

/-- The reads are isolated on two databases that agree on the account exactly if neither holds an
unmined note or a transparent output of the kind that is read unscoped, and both record the same
addresses for the notes selected for the account. Rows of the unscoped kind of the account itself
only matter to a wallet without one. -/
theorem readsIsolated_iff (wallet : WalletRead) (hw : wallet.Lawful) (nu7 : Option ℕ)
    (policy : ConfirmationsPolicy) (a : AccountUuid) (db db' : WalletDb)
    (h : WalletDb.AgreesOn a db db') :
    (ReadsIsolated wallet nu7 policy a db db' ↔
      (db.Quiet nu7 fun _ => True) ∧ (db'.Quiet nu7 fun _ => True) ∧
        db.SelectedAgree wallet a db') ∧
    (db.Quiet nu7 (db.Foreign a) → db'.Quiet nu7 (db'.Foreign a) →
      (∀ txid key, db.AddressAgrees a db' txid key) →
        ScopedReadsAgree wallet nu7 policy a db db') := by
  constructor
  · constructor
    · rintro ⟨hscoped, hnothing, hnothing'⟩
      have hquiet := (listUnspent_noAccount wallet).mp hnothing.listUnspent
      have hquiet' := (listUnspent_noAccount wallet).mp hnothing'.listUnspent
      exact ⟨hquiet, hquiet', (listUnspent_eq_iff hw h hquiet hquiet').mp hscoped.listUnspent⟩
    · rintro ⟨hquiet, hquiet', hselected⟩
      refine ⟨⟨h.balance hw policy, h.txCount, ?_⟩, ?_, ?_⟩
      · exact (listUnspent_eq_iff hw h hquiet hquiet').mpr hselected
      · exact ⟨balance_noAccount wallet policy, txCount_noAccount,
          (listUnspent_noAccount wallet).mpr hquiet⟩
      · exact ⟨balance_noAccount wallet policy, txCount_noAccount,
          (listUnspent_noAccount wallet).mpr hquiet'⟩
  · intro hquiet hquiet' haddr
    exact ⟨h.balance hw policy, h.txCount, h.listUnspent hw hquiet hquiet' haddr⟩

/-! ## A wallet layer that reads the tables -/

namespace WalletDb

/-- The account's mined outputs no live transaction spends. -/
def minedUnspent (db : WalletDb) (nu7 : Option ℕ) (a : AccountUuid) (target : ℕ)
    (pool : PoolType) : List (OutputRow × TransactionRow) :=
  (db.ownOutputs a pool).flatMap fun r =>
    ((db.transactionsOf r.transactionId).filter fun t =>
      t.minedHeight.any (· < target) && !db.liveSpent nu7 target pool r.id).map (r, ·)

theorem AgreesOn.minedUnspent {a : AccountUuid} {db db' : WalletDb} (h : AgreesOn a db db')
    (nu7 : Option ℕ) (target : ℕ) (pool : PoolType) :
    db.minedUnspent nu7 a target pool = db'.minedUnspent nu7 a target pool := by
  simp only [WalletDb.minedUnspent, ← h.outputs]
  apply List.flatMap_congr
  intro r hr
  simp only [h.transactionsOf hr, h.liveSpent hr]

/-- Spendable with the confirmations the policy asks of a foreign output, pending before. -/
def poolBalance (db : WalletDb) (nu7 : Option ℕ) (policy : ConfirmationsPolicy) (a : AccountUuid)
    (target : ℕ) (pool : PoolType) : PoolBalance :=
  let confirmed := fun x : OutputRow × TransactionRow =>
    x.2.minedHeight.any fun mined => decide (mined + policy.untrusted ≤ target)
  let total := fun xs : List (OutputRow × TransactionRow) => (xs.map (·.1.value.toNat)).sum
  let unspent := db.minedUnspent nu7 a target pool
  ⟨total (unspent.filter confirmed), total (unspent.filter fun x => !confirmed x), 0⟩

end WalletDb

/-- The summary and the selection, as far as outputs of others' transactions go. -/
def tableReads (nu7 : Option ℕ) : WalletRead where
  getWalletSummary policy db := db.chainHeight.map fun height =>
    ⟨height, db.accounts.map fun account => (account.uuid,
      ⟨db.poolBalance nu7 policy account.uuid (height + 1) (.shielded .sapling),
        db.poolBalance nu7 policy account.uuid (height + 1) (.shielded .orchard),
        db.poolBalance nu7 policy account.uuid (height + 1) (.shielded .ironwood),
        db.poolBalance nu7 policy account.uuid (height + 1) .transparent⟩)⟩
  selectUnspentNotes db a target :=
    let notes := fun pool => (db.minedUnspent nu7 a target (.shielded pool)).map fun x =>
      ⟨x.2.txid, x.1.outputIndex, x.1.value.toNat⟩
    ⟨notes .sapling, notes .orchard, notes .ironwood⟩

theorem tableReads_lawful (nu7 : Option ℕ) : (tableReads nu7).Lawful := by
  constructor
  · intro a db db' h policy
    have hbal : ∀ target pool, db.poolBalance nu7 policy a target pool =
        db'.poolBalance nu7 policy a target pool := fun target pool => by
      simp only [WalletDb.poolBalance, h.minedUnspent]
    simp only [tableReads, h.chainHeight, Option.map_map]
    congr 1
    funext height
    simp only [Function.comp_def, WalletSummary.scoped, List.filter_map]
    rw [h.accounts]
    congr 1
    apply List.map_congr_left
    intro account haccount
    have heq : account.uuid = a := by simpa using (List.mem_filter.mp haccount).2
    simp only [heq, hbal]
  · intro a db db' h target
    simp only [tableReads, h.minedUnspent]

/-! ## Two wallets of a shard -/

/-- Two accounts, the first of which holds a mined Orchard note. -/
def shardAlone : WalletDb where
  accounts := [⟨1, 10⟩, ⟨2, 20⟩]
  addresses := [⟨1, 0, "u1full", none, 0⟩]
  transactions := [⟨1, 100, some 5, some 3, none, none, 5, none⟩,
    ⟨2, 200, some 6, some 1, none, none, 6, none⟩]
  outputs := fun
    | .shielded .orchard => [⟨1, 1, 0, 1, 650, false, none, some 1, none⟩]
    | _ => []
  spends := fun _ => []
  sentNotes := []
  chainHeight := some 50
  uuid_ne_nil := by decide
  accounts_nodup := by decide
  uuids_nodup := by decide
  transactions_nodup := by decide
  txids_nodup := by decide
  outputs_nodup := by rintro (_ | _ | _ | _) <;> decide
  sentNotes_nodup := by decide
  outputs_account := by rintro (_ | _ | _ | _) <;> decide
  sentNotes_account := by decide

/-- The second account also holds a transparent output. -/
def shardWithUtxo : WalletDb :=
  { shardAlone with
    outputs := fun
      | .shielded .orchard => [⟨1, 1, 0, 1, 650, false, none, some 1, none⟩]
      | .transparent => [⟨1, 2, 0, 2, 700, false, none, none, some "t1mate"⟩]
      | _ => []
    outputs_nodup := by rintro (_ | _ | _ | _) <;> decide
    outputs_account := by rintro (_ | _ | _ | _) <;> decide }

/-- The second account sent the first its note, at another encoding of the address. -/
def shardWithPayer : WalletDb :=
  { shardAlone with
    sentNotes := [⟨1, .shielded .orchard, 0, 2, 650, some "u1orchardonly", none⟩]
    sentNotes_nodup := by decide
    sentNotes_account := by decide }

/-- The second account also holds a mined Orchard note. -/
def shardWithNote : WalletDb :=
  { shardAlone with
    outputs := fun
      | .shielded .orchard => [⟨1, 1, 0, 1, 650, false, none, some 1, none⟩,
          ⟨2, 2, 0, 2, 700, false, none, none, none⟩]
      | _ => []
    outputs_nodup := by rintro (_ | _ | _ | _) <;> decide
    outputs_account := by rintro (_ | _ | _ | _) <;> decide }

theorem shardWithUtxo_agrees : WalletDb.AgreesOn 10 shardAlone shardWithUtxo where
  accounts := by decide
  outputs := by rintro (_ | _ | _ | _) <;> decide
  spends := by rintro (_ | _ | _ | _) <;> decide
  sentNotes := by decide
  addresses := by rintro (_ | _ | _ | _) <;> decide
  transactions := by decide
  chainHeight := rfl

theorem shardWithPayer_agrees : WalletDb.AgreesOn 10 shardAlone shardWithPayer where
  accounts := by decide
  outputs := by rintro (_ | _ | _ | _) <;> decide
  spends := by rintro (_ | _ | _ | _) <;> decide
  sentNotes := by decide
  addresses := by rintro (_ | _ | _ | _) <;> decide
  transactions := by decide
  chainHeight := rfl

theorem shardWithNote_agrees : WalletDb.AgreesOn 10 shardAlone shardWithNote where
  accounts := by decide
  outputs := by rintro (_ | _ | _ | _) <;> decide
  spends := by rintro (_ | _ | _ | _) <;> decide
  sentNotes := by decide
  addresses := by rintro (_ | _ | _ | _) <;> decide
  transactions := by decide
  chainHeight := rfl

/-- The transparent output of the second account is listed under the first one's name, and under
that of a wallet without an account; the second account's own record of what it sent decides the
address the first one's note is listed with. -/
theorem shardMate_utxo_listed :
    (tableReads none).Lawful ∧ WalletDb.AgreesOn 10 shardAlone shardWithUtxo ∧
    (shardAlone.listUnspent none (tableReads none) (.only 10)).map (·.txid) = [100] ∧
    (shardWithUtxo.listUnspent none (tableReads none) (.only 10)).map (·.txid) = [100, 200] ∧
    (shardWithUtxo.listUnspent none (tableReads none) .noAccount).map (·.txid) = [200] ∧
    ¬ ReadsIsolated (tableReads none) none ⟨3, 10⟩ 10 shardAlone shardWithUtxo ∧
    WalletDb.AgreesOn 10 shardAlone shardWithPayer ∧
    (shardAlone.listUnspent none (tableReads none) (.only 10)).map (·.address) =
      [some "u1full"] ∧
    (shardWithPayer.listUnspent none (tableReads none) (.only 10)).map (·.address) =
      [some "u1orchardonly"] ∧
    ¬ ReadsIsolated (tableReads none) none ⟨3, 10⟩ 10 shardAlone shardWithPayer := by
  have halone : (shardAlone.listUnspent none (tableReads none) (.only 10)).map (·.txid) =
      [100] := by decide
  have hmate : (shardWithUtxo.listUnspent none (tableReads none) (.only 10)).map (·.txid) =
      [100, 200] := by decide
  have haddress : (shardAlone.listUnspent none (tableReads none) (.only 10)).map (·.address) =
      [some "u1full"] := by decide +kernel
  have hpayer : (shardWithPayer.listUnspent none (tableReads none) (.only 10)).map (·.address) =
      [some "u1orchardonly"] := by decide +kernel
  refine ⟨tableReads_lawful none, shardWithUtxo_agrees, halone, hmate, by decide, ?_,
    shardWithPayer_agrees, haddress, hpayer, ?_⟩
  · intro h
    rw [h.1.listUnspent, hmate] at halone
    cases halone
  · intro h
    rw [h.1.listUnspent, hpayer] at haddress
    exact absurd haddress (by decide)

theorem quiet_of_mined {db : WalletDb} {nu7 : Option ℕ}
    (hmined : ∀ t ∈ db.transactions, t.minedHeight.isNone = false)
    (htransparent : db.outputs .transparent = []) : db.Quiet nu7 fun _ => True := by
  intro chainHeight _
  refine ⟨fun pool r hr _ t ht => ?_, by simp [htransparent]⟩
  simp [WalletDb.isUnminedNote, hmined t (List.mem_filter.mp ht).1]

theorem addressAgrees_of_rows {a : AccountUuid} {db db' : WalletDb} {txid : ℕ}
    {key : PoolType × ℕ}
    (hsent : ∀ t ∈ db.transactions, t.txid = txid →
      db.sentNoteAt t.idTx key.1 key.2 = db'.sentNoteAt t.idTx key.1 key.2)
    (hreceived : ∀ t ∈ db.transactions, t.txid = txid →
      db.receivedAt t.idTx key.1 key.2 = db'.receivedAt t.idTx key.1 key.2)
    (haddresses : db.addresses = db'.addresses) : db.AddressAgrees a db' txid key := by
  intro t ht htxid _
  simp only [WalletDb.recordedAddress, WalletDb.addressOf, hsent t ht htxid,
    hreceived t ht htxid, haddresses]

/-- Mined shielded notes of the second account change nothing. -/
theorem shardMate_note_isolated :
    (shardWithNote.listUnspent none (tableReads none) (.only 10)).map (·.txid) = [100] ∧
    ReadsIsolated (tableReads none) none ⟨3, 10⟩ 10 shardAlone shardWithNote := by
  have hkeys : shardAlone.selectedKeys (tableReads none) 10 51 = [(.orchard, ⟨100, 0, 650⟩)] := by
    decide
  refine ⟨by decide, (readsIsolated_iff (tableReads none) (tableReads_lawful none) none
    ⟨3, 10⟩ 10 shardAlone shardWithNote shardWithNote_agrees).1.mpr ⟨?_, ?_, ?_⟩⟩
  · exact quiet_of_mined (by decide) rfl
  · exact quiet_of_mined (by decide) rfl
  · rintro chainHeight hc x hx
    obtain rfl : 50 = chainHeight := Option.some.inj hc
    rw [hkeys, List.mem_singleton] at hx
    subst hx
    exact addressAgrees_of_rows (by decide) (by decide) rfl

end Zecd
