import Zecd.Read.Balances
import Zecd.Read.History
import Zecd.Sync.LoadShed

/-! # Outputs listed and outputs watched

The scan finds a spend of a transparent output only if it watches the output. The listing and
the coinbase sums release an output once every transaction recorded to spend it has expired; the
watch set drops it at the first spend recorded. The two agree unless an output has been released
by expiry.
-/

namespace Zecd

namespace WalletDb

variable (db : WalletDb)

def hasRecordedSpend (id : ℕ) : Bool := (db.spends .transparent).any (·.outputId == id)

def unspentTransparentOutpoints : Finset OutPoint :=
  ((db.outputs .transparent).flatMap fun r =>
    if db.hasRecordedSpend r.id then []
    else (db.transactionsOf r.transactionId).map fun t => (t.txid, r.outputIndex)).toFinset

/-- Spends of the output are recorded, all of them by expired unmined transactions. -/
def releasedByExpiry (nu7 : Option ℕ) (target id : ℕ) : Bool :=
  db.hasRecordedSpend id && !db.liveSpent nu7 target .transparent id

/-- An output of this transaction is listed, or is summed as coinbase, unless it is spent: the
transaction is mined, or is an unexpired transfer. -/
def standing (nu7 : Option ℕ) (target : ℕ) (t : TransactionRow) : Bool :=
  t.minedHeight.isSome || (txUnexpired nu7 target t && !isCoinbase t)

/-- Every transparent output `list_unspent` lists at this tip, and every output `coinbase_zats`
sums, is watched. -/
structure StillWatched (nu7 : Option ℕ) (wallet : WalletRead) (tip : ℕ) : Prop where
  listed : ∀ scope, ∀ u ∈ db.listUnspent nu7 wallet scope, u.pool = .transparent →
    (u.txid, u.vout) ∈ db.unspentTransparentOutpoints
  summed : ∀ scope mature, ∀ r ∈ db.outputs .transparent,
    ∀ t ∈ db.transactionsOf r.transactionId,
      db.countsAsCoinbase nu7 scope (tip + 1) mature r t = true →
        (t.txid, r.outputIndex) ∈ db.unspentTransparentOutpoints

variable {db} {nu7 : Option ℕ} {target : ℕ} {r : OutputRow} {t : TransactionRow}

theorem mem_unspentTransparentOutpoints {o : OutPoint} :
    o ∈ db.unspentTransparentOutpoints ↔ ∃ r ∈ db.outputs .transparent,
      db.hasRecordedSpend r.id = false ∧
        ∃ t ∈ db.transactionsOf r.transactionId, (t.txid, r.outputIndex) = o := by
  simp only [unspentTransparentOutpoints, List.mem_toFinset, List.mem_flatMap]
  refine exists_congr fun r => and_congr_right fun _ => ?_
  cases db.hasRecordedSpend r.id <;> simp

/-- An output without a live spend is watched by its row unless it was released by expiry. -/
theorem hasRecordedSpend_eq_releasedByExpiry {id : ℕ}
    (h : db.liveSpent nu7 target .transparent id = false) :
    db.hasRecordedSpend id = db.releasedByExpiry nu7 target id := by
  simp [releasedByExpiry, h]

/-- Listed or summed is: standing, and without a live spend. -/
theorem listed_or_summed_iff : (db.isListedOutput nu7 target r t = true ∨
      ∃ scope mature, db.countsAsCoinbase nu7 scope target mature r t = true) ↔
    standing nu7 target t = true ∧ db.liveSpent nu7 target .transparent r.id = false := by
  constructor
  · rintro (h | ⟨scope, mature, h⟩)
    · simp only [isListedOutput, Bool.and_eq_true, Bool.or_eq_true, Bool.not_eq_true',
        Bool.and_eq_false_iff] at h
      obtain ⟨⟨hlive, hmature⟩, hspent⟩ := h
      refine ⟨?_, hspent⟩
      cases hm : t.minedHeight with
      | some m => simp [standing, hm]
      | none => simp_all [standing]
    · simp only [countsAsCoinbase, Bool.and_eq_true, Bool.not_eq_true'] at h
      obtain ⟨⟨hmined, _⟩, hspent⟩ := h
      refine ⟨?_, hspent⟩
      cases hm : t.minedHeight with
      | some m => simp [standing, hm]
      | none => simp [hm] at hmined
  · rintro ⟨hstanding, hspent⟩
    cases hm : t.minedHeight with
    | none =>
      left
      simp only [standing, hm, Option.isSome_none, Bool.false_or, Bool.and_eq_true,
        Bool.not_eq_true'] at hstanding
      simp [isListedOutput, hm, hstanding, hspent]
    | some m =>
      cases hc : isCoinbase t with
      | false =>
        left
        simp [isListedOutput, hm, hc, hspent]
      | true =>
        -- a mined coinbase is summed on the side of the maturity boundary it is on
        right
        refine ⟨.any, !decide ((target : ℤ) - m < coinbaseMaturity), ?_⟩
        simp [countsAsCoinbase, hm, hc, hspent, scopeById, AccountScope.param]

theorem mem_transactionsOf {id : ℕ} :
    t ∈ db.transactionsOf id ↔ t ∈ db.transactions ∧ t.idTx = id := by
  simp [transactionsOf]

variable (nu7) in
theorem mem_listUnspent_transparent (wallet : WalletRead) (scope : AccountScope) {tip : ℕ}
    (htip : db.chainHeight = some tip) {o : OutPoint} :
    (∃ u ∈ db.listUnspent nu7 wallet scope, u.pool = .transparent ∧ (u.txid, u.vout) = o) ↔
      ∃ r ∈ db.outputs .transparent, ∃ t ∈ db.transactionsOf r.transactionId,
        db.isListedOutput nu7 (tip + 1) r t = true ∧ (t.txid, r.outputIndex) = o := by
  simp only [listUnspent, htip, List.mem_append, List.mem_flatMap]
  constructor
  · rintro ⟨u, (hu | ⟨pool, _, hu⟩) | hu, hpool, rfl⟩
    · simp only [selectedNotes, List.mem_flatMap, List.mem_append, List.mem_map] at hu
      obtain ⟨a, _, (⟨n, _, rfl⟩ | ⟨n, _, rfl⟩) | ⟨n, _, rfl⟩⟩ := hu <;> cases hpool
    · simp only [unminedNotes, List.mem_flatMap, List.mem_filterMap] at hu
      obtain ⟨r, _, t, _, hu⟩ := hu
      split at hu
      · cases hu
      · cases hu
        cases hpool
    · simp only [transparentUnspent, List.mem_flatMap, List.mem_map, List.mem_filter] at hu
      obtain ⟨r, hr, t, ⟨ht, hlisted⟩, rfl⟩ := hu
      exact ⟨r, hr, t, ht, hlisted, rfl⟩
  · rintro ⟨r, hr, t, ht, hlisted, rfl⟩
    have hentry := List.mem_map_of_mem (f := fun t => UnspentNote.mk t.txid r.outputIndex
      r.value.toNat (db.txMeta scope t.txid).1 (db.txMeta scope t.txid).2 r.address .transparent
      (isCoinbase t)) (List.mem_filter.mpr ⟨ht, hlisted⟩)
    exact ⟨_, .inr (List.mem_flatMap.mpr ⟨r, hr, hentry⟩), rfl, rfl⟩

end WalletDb

namespace HistoryDb

variable {db : HistoryDb} {nu7 : Option ℕ} {tip : ℕ}

/-- A txid names one transaction and an outpoint one output: only the output's own row can put
it in the watch set. -/
theorem outpoint_mem_iff {r : OutputRow} {t : TransactionRow} (hr : r ∈ db.outputs .transparent)
    (ht : t ∈ db.transactionsOf r.transactionId) :
    (t.txid, r.outputIndex) ∈ db.unspentTransparentOutpoints ↔
      db.hasRecordedSpend r.id = false := by
  rw [WalletDb.mem_unspentTransparentOutpoints]
  constructor
  · rintro ⟨r', hr', hspend, t', ht', heq⟩
    obtain ⟨htxid, hindex⟩ := Prod.mk.inj heq
    obtain ⟨hmem, hid⟩ := WalletDb.mem_transactionsOf.mp ht
    obtain ⟨hmem', hid'⟩ := WalletDb.mem_transactionsOf.mp ht'
    obtain rfl := List.inj_on_of_nodup_map db.txids_nodup hmem' hmem htxid
    have hrow := List.inj_on_of_nodup_map (db.outputs_nodup .transparent) hr' hr
      (Prod.ext (hid'.symm.trans hid) hindex)
    exact hrow ▸ hspend
  · intro hspend
    exact ⟨r, hr, hspend, t, ht, rfl⟩

/-- Everything listed or summed is watched exactly when no output that would stand without its
spends has been released by expiry. -/
theorem stillWatched_iff (wallet : WalletRead) (htip : db.chainHeight = some tip) :
    db.StillWatched nu7 wallet tip ↔ ∀ r ∈ db.outputs .transparent,
      ∀ t ∈ db.transactionsOf r.transactionId, WalletDb.standing nu7 (tip + 1) t = true →
        db.releasedByExpiry nu7 (tip + 1) r.id = false := by
  constructor
  · rintro ⟨hlisted, hsummed⟩ r hr t ht hstanding
    cases hspent : db.liveSpent nu7 (tip + 1) .transparent r.id with
    | true => simp [WalletDb.releasedByExpiry, hspent]
    | false =>
      rw [← WalletDb.hasRecordedSpend_eq_releasedByExpiry hspent, ← outpoint_mem_iff hr ht]
      rcases WalletDb.listed_or_summed_iff.mpr ⟨hstanding, hspent⟩ with h | ⟨scope, mature, h⟩
      · obtain ⟨u, hu, hpool, heq⟩ :=
          (WalletDb.mem_listUnspent_transparent nu7 wallet .any htip).mpr ⟨r, hr, t, ht, h, rfl⟩
        rw [← heq]
        exact hlisted .any u hu hpool
      · exact hsummed scope mature r hr t ht h
  · intro hreleased
    have hwatched (r) (hr : r ∈ db.outputs .transparent) (t)
        (ht : t ∈ db.transactionsOf r.transactionId)
        (h : db.isListedOutput nu7 (tip + 1) r t = true ∨
          ∃ scope mature, db.countsAsCoinbase nu7 scope (tip + 1) mature r t = true) :
        (t.txid, r.outputIndex) ∈ db.unspentTransparentOutpoints := by
      obtain ⟨hstanding, hspent⟩ := WalletDb.listed_or_summed_iff.mp h
      rw [outpoint_mem_iff hr ht, WalletDb.hasRecordedSpend_eq_releasedByExpiry hspent]
      exact hreleased r hr t ht hstanding
    constructor
    · intro scope u hu hpool
      obtain ⟨r, hr, t, ht, h, heq⟩ :=
        (WalletDb.mem_listUnspent_transparent nu7 wallet scope htip).mp ⟨u, hu, hpool, rfl⟩
      rw [← heq]
      exact hwatched r hr t ht (.inl h)
    · intro scope mature r hr t ht h
      exact hwatched r hr t ht (.inr ⟨scope, mature, h⟩)

end HistoryDb

/-! ## An expired send -/

def noWalletReads : WalletRead := ⟨fun _ _ => none, fun _ _ _ => ⟨[], [], []⟩⟩

/-- An output mined at height 10, spent by a transaction that expired unmined at height 50. -/
def expiredSend : HistoryDb where
  accounts := [⟨1, 10⟩]
  addresses := []
  transactions := [⟨1, 100, some 10, some 3, none, none, 10, none⟩,
    ⟨2, 200, none, none, some 50, some 11, 11, none⟩]
  outputs := fun
    | .transparent => [⟨1, 1, 0, 1, 500, false, none, none, some "t1mine"⟩]
    | _ => []
  spends := fun
    | .transparent => [⟨1, 2⟩]
    | _ => []
  sentNotes := []
  chainHeight := some 60
  uuid_ne_nil := oneAccount_uuid_ne_nil
  accounts_nodup := oneAccount_nodup
  uuids_nodup := oneAccount_uuids_nodup
  transactions_nodup := by decide
  outputs_nodup := by rintro (_ | _ | _ | _) <;> decide
  sentNotes_nodup := noSentNotes_nodup
  outputs_account := by rintro (_ | _ | _ | _) <;> decide
  sentNotes_account := noSentNotes_account
  blocks := []
  txids_nodup := by decide

/-- Before the send expires the output is neither listed nor watched. -/
theorem expiredSend_before : ({ expiredSend with chainHeight := some 40 } : HistoryDb).StillWatched
    none noWalletReads 40 :=
  (HistoryDb.stillWatched_iff noWalletReads rfl).mpr (by decide)

/-- Once it has expired, the output is listed again and no block can show its spend: one that
spends it leaves no match. -/
theorem expiredSend_unwatched :
    (expiredSend.listUnspent none noWalletReads .any).map (fun u => (u.txid, u.vout)) =
      [(100, 0)] ∧
    ¬ expiredSend.StillWatched none noWalletReads 60 ∧
    (LoadShed.DownloadProgress.matchInput
        (LoadShed.DownloadProgress.new (some expiredSend.unspentTransparentOutpoints) :
          LoadShed.DownloadProgress String)
      ⟨100, 0, 300, 61⟩).spent = [] := by
  refine ⟨by decide, ?_, by decide⟩
  rintro ⟨hlisted, _⟩
  have hwatched : (100, 0) ∈ expiredSend.unspentTransparentOutpoints :=
    hlisted .any ⟨100, 0, 500, some 10, false, some "t1mine", .transparent, false⟩ (by decide) rfl
  exact absurd hwatched (by decide)

end Zecd
