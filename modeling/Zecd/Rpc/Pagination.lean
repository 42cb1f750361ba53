import Zecd.Foundation.Paging
import Zecd.Foundation.Sql
import Zecd.Read.History
import Zecd.Send.TxSize
import Zecd.Sync.Matcher

/-! # Paged history

The history methods list the entries of the newest transactions, oldest first. They read
transactions newest first, in pages that double until the wanted entries are covered or the
wallet is exhausted, and turn the window round. No read asks for more than `u32::MAX`
transactions, so a page is one of the history of the newest `u32::MAX` of them.
-/

namespace Zecd

/-! ## The query -/

structure TxQuery where
  startHeight : Option ℕ
  endHeight : Option ℕ
  offset : ℕ
  limit : Option ℕ
  newestFirst : Bool
  omitMemos : Bool
  deriving DecidableEq, Repr

namespace TxQuery

open Sql

/-- The height bounds: an unmined transaction is only within a range without an upper bound. -/
def admits (q : TxQuery) (t : TransactionRow) : Truth :=
  and (or (isNull q.startHeight) (or (le q.startHeight t.minedHeight)
      (and (isNull t.minedHeight) (isNull q.endHeight))))
    (or (isNull q.endHeight) (lt t.minedHeight q.endHeight))

/-- `sort_height`: the mined height, else an expiry height other than zero. -/
def sortHeight (v : WalletDb.VTransactionRow) : Option ℕ :=
  coalesce v.transaction.minedHeight
    (caseWhen (eq v.transaction.expiryHeight (some 0)) none v.transaction.expiryHeight)

def sortTxid (v : WalletDb.VTransactionRow) : ℕ := v.transaction.txid

/-- The `ORDER BY` clause of `tx_query_sql`. -/
def order (newestFirst : Bool) : WalletDb.VTransactionRow → WalletDb.VTransactionRow → Bool :=
  if newestFirst then descending sortHeight sortTxid else ascending sortHeight sortTxid

end TxQuery

namespace HistoryDb

variable (db : HistoryDb)

def historyRecord (scope : AccountScope) (omitMemos : Bool) (v : WalletDb.VTransactionRow) :
    TxRecord :=
  { db.txRecord scope omitMemos v.transaction with accountBalanceDelta := v.accountBalanceDelta }

def selectedRows (scope : AccountScope) (q : TxQuery) : List WalletDb.VTransactionRow :=
  db.vTransactions.filter fun v =>
    decide (q.admits v.transaction = some true) && WalletDb.scopeByUuid scope (some v.accountUuid)

def queryTransactions (scope : AccountScope) (q : TxQuery) : List TxRecord :=
  let rows := (Sql.orderBy (TxQuery.order q.newestFirst) (db.selectedRows scope q)).drop q.offset
  (match q.limit with
    | some limit => rows.take limit
    | none => rows).map (db.historyRecord scope q.omitMemos)

end HistoryDb

/-! ## The window -/

section Window

variable {α β : Type} (expand : α → List β)

/-- Entries newest first, until `want` of them are in hand. -/
def collectEntries (want : ℕ) : List β → List α → List β
  | entries, [] => entries
  | entries, tx :: txs =>
    let entries := entries ++ (expand tx).reverse
    if want ≤ entries.length then entries else collectEntries want entries txs

def windowHistoryFromTxs (newestFirstTxs : List α) (skip count : ℕ) : List β :=
  let want := min (skip + count) usizeMax
  let entries := collectEntries expand want [] newestFirstTxs
  ((entries.take (min want entries.length)).drop (min skip entries.length)).reverse

/-- The loop of `paginate_history` over pages of `query limit` transactions, none out of fuel. -/
def paginateLoop (query : ℕ → List α) (skip count : ℕ) : ℕ → ℕ → Option (List β)
  | 0, _ => none
  | fuel + 1, limit =>
    let txs := query limit
    let fullPage := limit ≤ txs.length
    let entries := windowHistoryFromTxs expand txs skip count
    if count ≤ entries.length ∨ ¬ fullPage then some entries
    else if limit * 2 ≤ u32Max then paginateLoop query skip count fuel (limit * 2)
    else if limit = u32Max then some entries
    else paginateLoop query skip count fuel u32Max

def paginateHistory (query : ℕ → List α) (skip count fuel : ℕ) : Option (List β) :=
  let want := min (skip + count) usizeMax
  paginateLoop expand query skip count fuel (min (max want 1) u32Max)

variable {expand} {skip count want : ℕ} {txs : List α}

variable (expand) in
theorem take_collectEntries (want : ℕ) (entries : List β) (txs : List α) :
    (collectEntries expand want entries txs).take want =
      (entries ++ txs.flatMap fun tx => (expand tx).reverse).take want := by
  induction txs generalizing entries with
  | nil => simp [collectEntries]
  | cons tx txs ih =>
    simp only [collectEntries, List.flatMap_cons, ← List.append_assoc]
    split
    · rename_i hfull
      rw [List.take_append_of_le_length hfull]
    · exact ih _

theorem windowHistoryFromTxs_eq (expand : α → List β) (txs : List α) (skip count : ℕ) :
    windowHistoryFromTxs expand txs skip count =
      (((txs.flatMap fun tx => (expand tx).reverse).take (min (skip + count) usizeMax)).drop
        skip).reverse := by
  have htake := take_collectEntries expand (min (skip + count) usizeMax) [] txs
  rw [List.nil_append] at htake
  rw [← htake, windowHistoryFromTxs]
  generalize collectEntries expand (min (skip + count) usizeMax) [] txs = entries
  rw [← List.take_eq_take_min]
  congr 1
  rcases le_total skip entries.length with hle | hge
  · rw [min_eq_left hle]
  · rw [min_eq_right hge, List.drop_eq_nil_of_le (by simp), List.drop_eq_nil_of_le]
    rw [List.length_take]
    omega

theorem entries_initial (expand : α → List β) {limit bound : ℕ} (hle : limit ≤ bound) :
    ((txs.take limit).flatMap fun tx => (expand tx).reverse) <+:
      (txs.take bound).flatMap fun tx => (expand tx).reverse := by
  have htake : txs.take limit = (txs.take bound).take limit := by
    rw [List.take_take, min_eq_left hle]
  obtain ⟨rest, hrest⟩ := List.take_prefix limit (txs.take bound)
  rw [htake]
  conv_rhs => rw [← hrest, List.flatMap_append]
  exact List.prefix_append _ _

theorem window_of_count_le (expand : α → List β) {limit bound : ℕ} (hle : limit ≤ bound)
    (hfull : count ≤ (windowHistoryFromTxs expand (txs.take limit) skip count).length) :
    windowHistoryFromTxs expand (txs.take limit) skip count =
      windowHistoryFromTxs expand (txs.take bound) skip count := by
  rw [windowHistoryFromTxs_eq, windowHistoryFromTxs_eq]
  rw [windowHistoryFromTxs_eq, List.length_reverse] at hfull
  rw [window_of_initial (entries_initial expand hle) (min_le_left _ _) hfull]

variable (skip count) in
theorem paginateLoop_eq (expand : α → List β) (txs : List α) {fuel limit : ℕ}
    (hmax : limit ≤ u32Max) (hfuel : 2 ^ 32 ≤ limit * 2 ^ fuel) :
    paginateLoop expand (txs.take ·) skip count (fuel + 2) limit =
      some (windowHistoryFromTxs expand (txs.take u32Max) skip count) := by
  -- a page that is not full is the whole list
  have hshort (l : ℕ) (hl : l ≤ u32Max) (hnot : ¬ l ≤ (txs.take l).length) :
      txs.take l = txs.take u32Max := by
    rw [List.length_take] at hnot
    rw [List.take_of_length_le (by omega), List.take_of_length_le (by omega)]
  have hlast (fuel : ℕ) : paginateLoop expand (txs.take ·) skip count (fuel + 1) u32Max =
      some (windowHistoryFromTxs expand (txs.take u32Max) skip count) := by
    simp only [paginateLoop]
    split
    · rfl
    · rw [if_neg (by decide), if_pos trivial]
  induction fuel generalizing limit with
  | zero =>
    rw [Nat.pow_zero, Nat.mul_one] at hfuel
    exact absurd (hfuel.trans hmax) (by decide)
  | succ fuel ih =>
    rw [paginateLoop]
    split
    · rename_i hdone
      rcases hdone with hfull | hnot
      · rw [window_of_count_le expand hmax hfull]
      · rw [hshort limit hmax hnot]
    · split
      · rename_i hdouble
        exact ih hdouble (by rwa [Nat.mul_assoc, ← Nat.pow_succ'])
      · split
        · rename_i hlimit
          rw [hlimit]
        · exact hlast _

/-- The entries of the newest `u32::MAX` transactions of an oldest-first list. -/
def newestHistory (expand : α → List β) (oldestFirst : List α) : List β :=
  (oldestFirst.drop (oldestFirst.length - u32Max)).flatMap expand

theorem newestHistory_of_length_le {oldestFirst : List α} (h : oldestFirst.length ≤ u32Max) :
    newestHistory expand oldestFirst = oldestFirst.flatMap expand := by
  rw [newestHistory, Nat.sub_eq_zero_of_le h, List.drop_zero]

/-- A page of the history, for every transaction list, expansion, offset and count. -/
theorem paginateHistory_eq (expand : α → List β) (oldestFirst : List α) {fuel : ℕ}
    (hfuel : 34 ≤ fuel) (hwant : skip + count ≤ usizeMax ∨
      (newestHistory expand oldestFirst).length ≤ usizeMax) :
    paginateHistory expand (oldestFirst.reverse.take ·) skip count fuel =
      some (pageOf (newestHistory expand oldestFirst) skip count) := by
  obtain ⟨fuel, rfl⟩ := Nat.exists_eq_add_of_le' (show 2 ≤ fuel by omega)
  have hlimit : 1 ≤ min (max (min (skip + count) usizeMax) 1) u32Max :=
    le_min (le_max_right _ _) (by decide)
  have hpow : 2 ^ 32 ≤ min (max (min (skip + count) usizeMax) 1) u32Max * 2 ^ fuel :=
    (Nat.pow_le_pow_right (by decide) (by omega)).trans (Nat.le_mul_of_pos_left _ hlimit)
  rw [paginateHistory, paginateLoop_eq skip count expand _ (min_le_right _ _) hpow,
    windowHistoryFromTxs_eq]
  have hentries : ((oldestFirst.reverse.take u32Max).flatMap fun tx => (expand tx).reverse) =
      (newestHistory expand oldestFirst).reverse := by
    rw [newestHistory, List.reverse_flatMap, List.take_reverse]
    rfl
  rw [hentries, ← reverse_window_eq_pageOf]
  rcases hwant with hwant | hwant
  · rw [min_eq_left hwant]
  · congr 3
    rcases le_total (skip + count) usizeMax with hle | hle
    · rw [min_eq_left hle]
    · rw [min_eq_right hle, List.take_of_length_le (by simpa using hwant),
        List.take_of_length_le (by simpa using hwant.trans hle)]

end Window

/-! ## The order of the query -/

namespace WalletDb

variable (db : WalletDb)

def accountRows (account : AccountRow) : List VTransactionRow :=
  db.transactions.filterMap fun t =>
    if db.mineNotes (.only account.uuid) t.idTx = [] then none
    else some ⟨account.uuid, t, db.accountBalanceDelta (.only account.uuid) t.idTx⟩

theorem vTransactions_eq : db.vTransactions = db.accounts.flatMap db.accountRows := rfl

variable {db}

theorem accountUuid_of_mem_accountRows {account : AccountRow} {v : VTransactionRow}
    (h : v ∈ db.accountRows account) : v.accountUuid = account.uuid := by
  obtain ⟨t, _, ht⟩ := List.mem_filterMap.mp h
  split at ht
  · cases ht
  · cases ht
    rfl

theorem accountRows_sublist (account : AccountRow) :
    ((db.accountRows account).map fun v => v.transaction.txid).Sublist
      (db.transactions.map TransactionRow.txid) := by
  rw [accountRows]
  induction db.transactions with
  | nil => simp
  | cons t ts ih =>
    rw [List.filterMap_cons, List.map_cons]
    split
    · exact ih.cons _
    · rename_i hrow
      split at hrow
      · cases hrow
      · cases hrow
        exact ih.cons_cons _

theorem account_eq_of_scopeByUuid {scope : AccountScope} (hscope : scope ≠ .any)
    {x y : AccountRow} (hx : scopeByUuid scope (some x.uuid) = true)
    (hy : scopeByUuid scope (some y.uuid) = true) : x.uuid = y.uuid := by
  cases scope with
  | any => exact absurd rfl hscope
  | only a =>
    simp only [scopeByUuid, AccountScope.param, beq_iff_eq, Option.some.injEq] at hx hy
    rw [hx, hy]
  | noAccount =>
    simp only [scopeByUuid, AccountScope.param, beq_iff_eq, Option.some.injEq] at hx hy
    rw [hx, hy]

end WalletDb

namespace HistoryDb

variable {db : HistoryDb} {scope : AccountScope}

/-- Where `any` is the scope of a database of at most one account, no transaction is selected
twice: the order of the query is total. -/
theorem scopedRows_nodup (hscope : scope = .any → db.accounts.length ≤ 1) :
    ((db.vTransactions.filter fun v =>
      WalletDb.scopeByUuid scope (some v.accountUuid)).map TxQuery.sortTxid).Nodup := by
  rw [WalletDb.vTransactions_eq, List.filter_flatMap, List.map_flatMap, List.nodup_flatMap]
  constructor
  · intro account _
    refine List.Nodup.sublist ?_ db.txids_nodup
    exact (List.filter_sublist.map _).trans (WalletDb.accountRows_sublist account)
  · by_cases hany : scope = .any
    · have hone := hscope hany
      match hacc : db.accounts with
      | [] => exact List.Pairwise.nil
      | [account] => exact List.pairwise_singleton _ _
      | _ :: _ :: _ =>
        rw [hacc] at hone
        exact absurd hone (by simp)
    · have hne : db.accounts.Pairwise fun x y => x.uuid ≠ y.uuid :=
        List.pairwise_map.mp db.uuids_nodup
      refine hne.imp fun {x y} hxy => ?_
      rw [Function.onFun, List.disjoint_left]
      intro txid hx hy
      obtain ⟨v, hv, _⟩ := List.mem_map.mp hx
      obtain ⟨w, hw, _⟩ := List.mem_map.mp hy
      obtain ⟨hv, hvx⟩ := List.mem_filter.mp hv
      obtain ⟨hw, hwy⟩ := List.mem_filter.mp hw
      rw [WalletDb.accountUuid_of_mem_accountRows hv] at hvx
      rw [WalletDb.accountUuid_of_mem_accountRows hw] at hwy
      exact hxy (WalletDb.account_eq_of_scopeByUuid hany hvx hwy)

theorem selectedRows_nodup (hscope : scope = .any → db.accounts.length ≤ 1) (q : TxQuery) :
    ((db.selectedRows scope q).map TxQuery.sortTxid).Nodup := by
  refine List.Nodup.sublist (List.Sublist.map _ ?_) (scopedRows_nodup hscope)
  rw [selectedRows]
  exact List.monotone_filter_right _ fun v h => (Bool.and_eq_true_iff.mp h).2

variable (db scope) in
/-- The whole query of a history page's range, in either direction. -/
def historyQuery (startHeight endHeight : Option ℕ) (omitMemos newestFirst : Bool)
    (limit : Option ℕ) : List TxRecord :=
  db.queryTransactions scope ⟨startHeight, endHeight, 0, limit, newestFirst, omitMemos⟩

variable {startHeight endHeight : Option ℕ} {omitMemos : Bool}

theorem historyQuery_newestFirst (hscope : scope = .any → db.accounts.length ≤ 1) :
    db.historyQuery scope startHeight endHeight omitMemos true none =
      (db.historyQuery scope startHeight endHeight omitMemos false none).reverse := by
  have hrows := Sql.orderBy_descending TxQuery.sortHeight
    (selectedRows_nodup hscope ⟨startHeight, endHeight, 0, none, true, omitMemos⟩)
  simp only [historyQuery, queryTransactions, TxQuery.order, List.drop_zero, if_true,
    Bool.false_eq_true, if_false, hrows, List.map_reverse]
  rfl

theorem historyQuery_limit (limit : ℕ) (newestFirst : Bool) :
    db.historyQuery scope startHeight endHeight omitMemos newestFirst (some limit) =
      (db.historyQuery scope startHeight endHeight omitMemos newestFirst none).take limit := by
  simp only [historyQuery, queryTransactions, List.map_take]
  rfl

/-- A page of the history is the slice of the expanded oldest-first history of the newest
`u32::MAX` transactions, pages join to that history, it is the whole one for no more than
`u32::MAX` transactions, and newest first is oldest first reversed. -/
theorem history_paged {β : Type} (db : HistoryDb) (scope : AccountScope)
    (hscope : scope = .any → db.accounts.length ≤ 1) (startHeight endHeight : Option ℕ)
    (omitMemos : Bool) (expand : TxRecord → List β) :
    let query := db.historyQuery scope startHeight endHeight omitMemos
    let history := newestHistory expand (query false none)
    query true none = (query false none).reverse ∧
    (∀ skip count fuel, 34 ≤ fuel → (skip + count ≤ usizeMax ∨ history.length ≤ usizeMax) →
      paginateHistory expand (fun limit => query true (some limit)) skip count fuel =
        some (pageOf history skip count)) ∧
    (∀ c k fuel, 34 ≤ fuel → (k * c ≤ usizeMax ∨ history.length ≤ usizeMax) →
      history.length ≤ k * c →
        (List.range k).reverse.flatMap (fun i => (paginateHistory expand
          (fun limit => query true (some limit)) (i * c) c fuel).getD []) = history) ∧
    ((query false none).length ≤ u32Max → history = (query false none).flatMap expand) := by
  intro query history
  have hreverse : query true none = (query false none).reverse := historyQuery_newestFirst hscope
  have hquery : (fun limit => query true (some limit)) = ((query false none).reverse.take ·) := by
    funext limit
    rw [← hreverse]
    exact historyQuery_limit limit true
  have hpage (skip count fuel : ℕ) (hfuel : 34 ≤ fuel)
      (hwant : skip + count ≤ usizeMax ∨ history.length ≤ usizeMax) :
      paginateHistory expand (fun limit => query true (some limit)) skip count fuel =
        some (pageOf history skip count) := by
    rw [hquery]
    exact paginateHistory_eq expand _ hfuel hwant
  refine ⟨hreverse, hpage, fun c k fuel hfuel hwant hcover => ?_, newestHistory_of_length_le⟩
  have hpages : ∀ i ∈ (List.range k).reverse, (paginateHistory expand
      (fun limit => query true (some limit)) (i * c) c fuel).getD [] =
        pageOf history (i * c) c := by
    intro i hi
    have hik : i + 1 ≤ k := List.mem_range.mp (List.mem_reverse.mp hi)
    have hle : i * c + c ≤ k * c := Nat.succ_mul i c ▸ Nat.mul_le_mul_right c hik
    rw [hpage (i * c) c fuel hfuel (hwant.imp_left hle.trans), Option.getD_some]
  rw [List.flatMap_congr hpages, pages_join, Nat.sub_eq_zero_of_le hcover, List.drop_zero]

end HistoryDb

/-- A mined receive, an unmined one that never expires, and one mined later. -/
def threeReceives : HistoryDb where
  accounts := [⟨1, 10⟩]
  addresses := []
  transactions := [⟨1, 100, some 5, some 3, none, none, 5, none⟩,
    ⟨2, 200, none, none, some 0, none, 7, none⟩, ⟨3, 300, some 6, some 2, none, none, 6, none⟩]
  outputs := fun
    | .shielded .orchard => [⟨1, 1, 0, 1, 500, false, none, none, none⟩,
        ⟨2, 2, 0, 1, 600, false, none, none, none⟩, ⟨3, 3, 0, 1, 700, false, none, none, none⟩]
    | _ => []
  spends := fun _ => []
  sentNotes := []
  chainHeight := some 9
  uuid_ne_nil := oneAccount_uuid_ne_nil
  accounts_nodup := oneAccount_nodup
  uuids_nodup := oneAccount_uuids_nodup
  transactions_nodup := by decide
  outputs_nodup := by rintro (_ | _ | _ | _) <;> decide
  sentNotes_nodup := noSentNotes_nodup
  outputs_account := by rintro (_ | _ | _ | _) <;> decide
  sentNotes_account := noSentNotes_account
  blocks := []
  txids_nodup := by decide

theorem threeReceives_paged :
    paginateHistory (fun tx => tx.outputs.map TxOutputRecord.value)
      (fun limit => threeReceives.historyQuery (.only 10) none none false true (some limit))
      1 2 34 = some [500, 700] := by
  have hlength : (threeReceives.historyQuery (.only 10) none none false false none).length = 3 := by
    decide
  have hentries : (threeReceives.historyQuery (.only 10) none none false false none).flatMap
      (fun tx => tx.outputs.map TxOutputRecord.value) = [500, 700, 600] := by
    decide +kernel
  obtain ⟨_, hpage, _, hwhole⟩ := HistoryDb.history_paged threeReceives (.only 10)
    (fun h => by cases h) none none false fun tx => tx.outputs.map TxOutputRecord.value
  rw [hpage 1 2 34 le_rfl (.inl (by decide)), hwhole (by rw [hlength]; decide), hentries]
  rfl

/-! ## A history past the largest page -/

def receivedZat : TxOutputRecord :=
  ⟨.transparent, 0, none, some 10, some "t1mine", 1, false, none, none, none⟩

def minedRecord (height : ℕ) (outputs : List TxOutputRecord) : TxRecord :=
  ⟨some height, height, none, 0, none, none, false, none, none, outputs⟩

/-- One receive in the first block, then a transaction without an entry in each of the `n` next
ones. -/
def receiveThenSilence (n : ℕ) : List TxRecord :=
  minedRecord 0 [receivedZat] :: (List.range n).map fun i => minedRecord (i + 1) []

theorem silence_entries (n : ℕ) :
    ((List.range n).map fun i => minedRecord (i + 1) []).flatMap TxRecord.outputs = [] := by
  rw [List.flatMap_map, List.flatMap_eq_nil_iff]
  exact fun _ _ => rfl

/-- Behind `u32::MAX` newer transactions that give no entry, the one entry of the history is
never returned. -/
theorem receiveThenSilence_lost :
    pageOf ((receiveThenSilence u32Max).flatMap TxRecord.outputs) 0 1 = [receivedZat] ∧
    paginateHistory TxRecord.outputs ((receiveThenSilence u32Max).reverse.take ·) 0 1 34 =
      some [] := by
  constructor
  · rw [receiveThenSilence, List.flatMap_cons, silence_entries]
    rfl
  · have hnewest : newestHistory TxRecord.outputs (receiveThenSilence u32Max) = [] := by
      have hlength : (receiveThenSilence u32Max).length - u32Max = 1 := by
        rw [receiveThenSilence, List.length_cons, List.length_map, List.length_range,
          Nat.add_sub_cancel_left]
      rw [newestHistory, hlength, receiveThenSilence, List.drop_one, List.tail_cons,
        silence_entries]
    rw [paginateHistory_eq TxRecord.outputs _ le_rfl (.inl (by decide)), hnewest]
    rfl

end Zecd
