import Zecd.Foundation.Grouping
import Zecd.Read.AddressKeys
import Zecd.Read.Receipts

/-! # Received by address

`getreceivedbyaddress` filters the stored outputs by the encodings recorded at the queried index
and adds up those filed under the query's key. An output is found by it exactly when it is
recorded under the query itself, or under a recorded encoding of the index that carries the same
configured receivers; a narrower encoding, or the bare Sapling address, finds nothing else.
-/

namespace Zecd.ReceivedBy

open HistoryDb (ReceivedRow)

/-! ## The methods -/

/-- Of the codec the aggregation uses the issued encoding only. -/
def KeyLayer.codec (keys : KeyLayer) (receivers : ReceiverSet) : AddressCodec where
  singleReceiverForPool _ _ := none
  issuedEncoding s := issuedEncoding keys s receivers
  isEmptyMemo _ := false
  memoText _ := none

def lineOf (lines : List (String × ReceivedLine)) (addr : String) : Option ReceivedLine :=
  (lines.find? (·.1 == addr)).map Prod.snd

structure ReceivedQuery where
  minconf : ℤ
  includeImmatureCoinbase : Bool

variable (keys : KeyLayer) (receivers : ReceiverSet) (db : ReceivedDb) (scope : AccountScope)
  (st : ScanStatus) (q : ReceivedQuery)

/-- `received_by_address` over the outputs stored under one of the candidates. -/
def received (candidates : Option (List String)) : List (String × ReceivedLine) :=
  receivedByAddress (keys.codec receivers) (db.receivedTxRecords scope candidates) st q.minconf
    q.includeImmatureCoinbase

def getReceivedByAddress (addr : String) : Except RpcError ℤ :=
  if (keys.decodeOnNetwork addr).isNone then
    .error (.invalidAddressOrKey s!"Invalid Zcash address: {addr}")
  else match classifyUnifiedReceivers keys db.toHistoryDb scope addr with
    | .inconsistent why => .error (.invalidAddressOrKey why)
    | _ =>
      if isMine keys db.toHistoryDb scope addr then
        let candidates := receivedAddressCandidates keys db scope addr
        .ok (((lineOf (received keys receivers db scope st q (some candidates))
          (receivedAddressKey keys receivers addr)).map ReceivedLine.amount).getD 0)
      else .error (.wallet "Address not found in wallet")

structure ReceivedEntry where
  address : String
  amount : ℤ
  confirmations : ℤ
  txids : List ℕ
  deriving DecidableEq, Repr

def allAddresses : List String :=
  (scopedAccounts db.toHistoryDb scope).flatMap fun a =>
    keys.listAddresses a ++ keys.transparentReceivers a

def listedAddresses (lines : List (String × ReceivedLine)) (includeEmpty : Bool)
    (addressFilter : Option String) : List String :=
  let addrs := lines.map Prod.fst ++ if includeEmpty then
    (allAddresses keys db scope).map (receivedAddressKey keys receivers) else []
  (addrs.dedup.insertionSort (· ≤ ·)).filter fun addr =>
    (addressFilter.map (receivedAddressKey keys receivers)).all (· == addr)

def receivedEntry (lines : List (String × ReceivedLine)) (addr : String) : ReceivedEntry :=
  let line := (lineOf lines addr).getD ⟨0, 0, []⟩
  ⟨addr, line.amount, if line.txids.isEmpty then 0 else line.confirmations, line.txids⟩

def listReceivedByAddress (includeEmpty : Bool) (addressFilter : Option String) :
    List ReceivedEntry :=
  let candidates := addressFilter.map (receivedAddressCandidates keys db scope)
  let lines := received keys receivers db scope st q candidates
  (listedAddresses keys receivers db scope lines includeEmpty addressFilter).map
    (receivedEntry lines)

/-! ## What the aggregation adds up -/

/-- What the lines hold for an address. -/
def amountIn (lines : List (String × ReceivedLine)) (addr : String) : ℤ :=
  ((lineOf lines addr).map ReceivedLine.amount).getD 0

theorem lineOf_isSome {lines : List (String × ReceivedLine)} {addr : String} :
    (lineOf lines addr).isSome = lines.any (·.1 == addr) := by
  rw [lineOf, Option.isSome_map, Bool.eq_iff_iff, List.find?_isSome, List.any_eq_true]

theorem lineOf_map_add (lines : List (String × ReceivedLine)) (r : Receipt) (addr : String) :
    lineOf (lines.map fun l => if l.1 = r.address then (l.1, l.2.add r) else l) addr =
      (lineOf lines addr).map fun line => if addr = r.address then line.add r else line := by
  induction lines with
  | nil => rfl
  | cons l lines ih =>
    simp only [lineOf, List.map_cons] at ih ⊢
    by_cases hl : l.1 = addr
    · by_cases hr : l.1 = r.address
      · simp [hl, hl.symm.trans hr]
      · have hne : addr ≠ r.address := fun h => hr (hl.trans h)
        simp [hl, hne]
    · have hskip : ((if l.1 = r.address then (l.1, l.2.add r) else l).1 == addr) = false := by
        split <;> simpa using hl
      rw [List.find?_cons_of_neg (by simpa using hskip), List.find?_cons_of_neg (by simpa using hl)]
      exact ih

theorem lineOf_append (lines : List (String × ReceivedLine)) (addr : String)
    (l : String × ReceivedLine) : lineOf (lines ++ [l]) addr =
      (lineOf lines addr).or (if l.1 = addr then some l.2 else none) := by
  simp only [lineOf, List.find?_append, Option.map_or]
  congr 1
  by_cases h : l.1 = addr <;> simp [h]

theorem amountIn_addReceipt (lines : List (String × ReceivedLine)) (r : Receipt) (addr : String) :
    amountIn (addReceipt lines r) addr =
      amountIn lines addr + if r.address = addr then r.value else 0 := by
  have hline : (lineOf lines r.address).isSome = lines.any (·.1 == r.address) := lineOf_isSome
  unfold addReceipt amountIn
  by_cases hany : lines.any (fun l => l.1 == r.address) = true
  · rw [if_pos hany, lineOf_map_add]
    by_cases haddr : addr = r.address
    · subst haddr
      obtain ⟨line, hsome⟩ := Option.isSome_iff_exists.mp (hline.trans hany)
      simp [hsome, ReceivedLine.add]
    · simp [haddr, Ne.symm haddr]
  · rw [if_neg hany, lineOf_append]
    by_cases haddr : r.address = addr
    · subst haddr
      have hnone : lineOf lines r.address = none := by
        rw [← Option.not_isSome_iff_eq_none, hline]
        exact hany
      simp [hnone]
    · simp [haddr]

theorem amountIn_foldl (rs : List Receipt) (lines : List (String × ReceivedLine)) (addr : String) :
    amountIn (rs.foldl addReceipt lines) addr =
      amountIn lines addr + (rs.map fun r => if r.address = addr then r.value else 0).sum := by
  induction rs generalizing lines with
  | nil => simp
  | cons r rs ih =>
    rw [List.foldl_cons, ih, amountIn_addReceipt, List.map_cons, List.sum_cons, add_assoc]

/-! ## Receipts row by row -/

variable {keys receivers db scope st q}

variable (keys receivers db st q) in
def rowReceipt (r : ReceivedRow) : Option Receipt :=
  let tx := db.receivedRecord r.transaction []
  if txConfirmations st tx < q.minconf then none
  else receiptOf (keys.codec receivers) q.includeImmatureCoinbase tx (txConfirmations st tx)
    (HistoryDb.receivedOutput r.output)

theorem receiptsOf_receivedRecord (t : TransactionRow) (rows : List ReceivedRow)
    (hrows : ∀ r ∈ rows, r.transaction = t) :
    HistoryDb.receiptsOf (keys.codec receivers) st q.minconf q.includeImmatureCoinbase
      (db.receivedRecord t rows) = rows.filterMap (rowReceipt keys receivers db st q) := by
  have hrow : ∀ r ∈ rows, rowReceipt keys receivers db st q r =
      if txConfirmations st (db.receivedRecord t rows) < q.minconf then none
      else receiptOf (keys.codec receivers) q.includeImmatureCoinbase (db.receivedRecord t rows)
        (txConfirmations st (db.receivedRecord t rows)) (HistoryDb.receivedOutput r.output) := by
    intro r hr
    obtain rfl := hrows r hr
    rfl
  rw [List.filterMap_congr hrow, HistoryDb.receiptsOf]
  split
  · simp
  · simp only [HistoryDb.receivedRecord, List.filterMap_map]
    rfl

theorem countedReceipts_groupRows {rows : List ReceivedRow}
    (hrows : ∀ r ∈ rows, ∀ r' ∈ rows, r.transaction.txid = r'.transaction.txid →
      r.transaction = r'.transaction) :
    (countedReceipts (keys.codec receivers) (db.groupRows rows) st q.minconf
      q.includeImmatureCoinbase).Perm (rows.filterMap (rowReceipt keys receivers db st q)) := by
  have hgroup : ∀ txid, (db.groupOf rows txid).flatMap (HistoryDb.receiptsOf
      (keys.codec receivers) st q.minconf q.includeImmatureCoinbase) =
        (rows.filter fun r => r.transaction.txid == txid).filterMap
          (rowReceipt keys receivers db st q) := by
    intro txid
    unfold HistoryDb.groupOf
    split
    · rename_i hnil
      rw [hnil]
      rfl
    · rename_i r rs hcons
      have hmem : ∀ r' ∈ r :: rs, r' ∈ rows ∧ r'.transaction.txid = txid := by
        intro r' hr'
        rw [← hcons] at hr'
        simpa using List.mem_filter.mp hr'
      obtain ⟨hr, htxid⟩ := hmem r List.mem_cons_self
      rw [hcons, List.flatMap_singleton]
      refine receiptsOf_receivedRecord r.transaction (r :: rs) fun r' hr' => ?_
      obtain ⟨hr', htxid'⟩ := hmem r' hr'
      exact hrows r' hr' r hr (htxid'.trans htxid.symm)
  have hcounted : countedReceipts (keys.codec receivers) (db.groupRows rows) st q.minconf
      q.includeImmatureCoinbase =
        ((rows.map fun r => r.transaction.txid).reverse.dedup.reverse.flatMap fun txid =>
          rows.filter fun r => r.transaction.txid == txid).filterMap
            (rowReceipt keys receivers db st q) := by
    rw [List.filterMap_flatMap]
    simp only [← hgroup]
    exact List.flatMap_assoc
  rw [hcounted]
  refine (Grouping.groups_perm ?_ ?_).filterMap _
  · exact List.nodup_reverse.mpr (List.nodup_dedup _)
  · intro r hr
    simp only [List.mem_reverse, List.mem_dedup, List.mem_map]
    exact ⟨r, hr, rfl⟩

/-- What a row adds to an address's line. -/
def filedValue (keys : KeyLayer) (receivers : ReceiverSet) (db : ReceivedDb) (st : ScanStatus)
    (q : ReceivedQuery) (addr : String) (r : ReceivedRow) : ℤ :=
  match rowReceipt keys receivers db st q r with
  | some receipt => if receipt.address = addr then receipt.value else 0
  | none => 0

theorem sum_filterMap_rowReceipt (rows : List ReceivedRow) (addr : String) :
    ((rows.filterMap (rowReceipt keys receivers db st q)).map fun receipt =>
      if receipt.address = addr then receipt.value else 0).sum =
        (rows.map (filedValue keys receivers db st q addr)).sum := by
  induction rows with
  | nil => rfl
  | cons r rows ih =>
    rw [List.map_cons, List.sum_cons, ← ih, filedValue]
    cases h : rowReceipt keys receivers db st q r with
    | none => simp [h]
    | some receipt => simp [h]

def confirmationsOf (db : ReceivedDb) (st : ScanStatus) (t : TransactionRow) : ℤ :=
  txConfirmations st (db.receivedRecord t [])

/-- A row is counted, and under this address. -/
structure Filed (keys : KeyLayer) (receivers : ReceiverSet) (db : ReceivedDb) (st : ScanStatus)
    (q : ReceivedQuery) (addr : String) (r : ReceivedRow) : Prop where
  deep : q.minconf ≤ confirmationsOf db st r.transaction
  notChange : r.output.isInternalChange = false
  owned : r.output.toAccount.isSome
  mature : q.includeImmatureCoinbase = true ∨ isImmatureCoinbase
    (db.receivedRecord r.transaction []) (confirmationsOf db st r.transaction) r.output = false
  recorded : ∃ s, r.output.toAddress = some s ∧ receivedAddressKey keys receivers s = addr

theorem rowReceipt_filed {r : ReceivedRow} {addr : String}
    (h : Filed keys receivers db st q addr r) :
    rowReceipt keys receivers db st q r = some ⟨addr, max r.output.value 0,
      confirmationsOf db st r.transaction, r.transaction.txid⟩ := by
  obtain ⟨s, hs, rfl⟩ := h.recorded
  have hdeep : ¬ txConfirmations st (db.receivedRecord r.transaction []) < q.minconf :=
    not_lt.mpr h.deep
  have hchange : (HistoryDb.receivedOutput r.output).isInternalChange = false := h.notChange
  have howned : (HistoryDb.receivedOutput r.output).toAccount.isNone = false := by
    simpa [HistoryDb.receivedOutput] using h.owned
  have hmature : (!q.includeImmatureCoinbase && isImmatureCoinbase
      (db.receivedRecord r.transaction []) (txConfirmations st (db.receivedRecord r.transaction []))
        (HistoryDb.receivedOutput r.output)) = false := by
    rcases h.mature with hall | hmature
    · rw [hall]
      rfl
    · rw [Bool.and_eq_false_iff]
      exact .inr hmature
  simp only [rowReceipt, receiptOf]
  rw [if_neg hdeep, hchange, howned, hmature]
  simp [HistoryDb.receivedOutput, hs, receivedAddressKey, confirmationsOf, KeyLayer.codec,
    HistoryDb.receivedRecord]

theorem filed_of_rowReceipt {r : ReceivedRow} {receipt : Receipt}
    (h : rowReceipt keys receivers db st q r = some receipt) :
    Filed keys receivers db st q receipt.address r := by
  simp only [rowReceipt, receiptOf, Option.ite_none_left_eq_some, Option.map_eq_some_iff,
    Bool.or_eq_true, not_or, Bool.not_eq_true, Bool.and_eq_false_iff, Bool.not_eq_false'] at h
  obtain ⟨hdeep, ⟨hchange, howned⟩, hmature, s, hs, rfl⟩ := h
  constructor
  · exact not_lt.mp hdeep
  · exact hchange
  · simpa [HistoryDb.receivedOutput] using howned
  · exact hmature
  · exact ⟨s, hs, rfl⟩

theorem filedValue_of_filed {r : ReceivedRow} {addr : String}
    (h : Filed keys receivers db st q addr r) :
    filedValue keys receivers db st q addr r = max r.output.value 0 := by
  simp [filedValue, rowReceipt_filed h]

theorem filedValue_of_not_filed {r : ReceivedRow} {addr : String}
    (h : ¬ Filed keys receivers db st q addr r) :
    filedValue keys receivers db st q addr r = 0 := by
  unfold filedValue
  split
  · rename_i receipt hreceipt
    rw [if_neg]
    rintro rfl
    exact h (filed_of_rowReceipt hreceipt)
  · rfl

/-! ## What a query adds up -/

theorem receivedRows_some (scope : AccountScope) (candidates : List String) :
    db.receivedRows scope (some candidates) = (db.receivedRows scope none).filter fun r =>
      HistoryDb.addressMatches (some candidates) r.output := by
  simp only [HistoryDb.receivedRows, List.filter_flatMap, List.filter_map, List.filter_filter]
  refine List.flatMap_congr fun v _ => List.flatMap_congr fun t _ => congrArg _ ?_
  refine List.filter_congr fun o _ => ?_
  simp [HistoryDb.addressMatches, Bool.and_comm]

theorem receivedRows_transaction {scope : AccountScope} {candidates : Option (List String)}
    {r r' : ReceivedRow} (hr : r ∈ db.receivedRows scope candidates)
    (hr' : r' ∈ db.receivedRows scope candidates)
    (h : r.transaction.txid = r'.transaction.txid) : r.transaction = r'.transaction :=
  List.inj_on_of_nodup_map db.txids_nodup (HistoryDb.receivedRows_mem hr)
    (HistoryDb.receivedRows_mem hr') h

variable (keys receivers db scope st q) in
theorem received_receipts (candidates : Option (List String)) :
    (countedReceipts (keys.codec receivers) (db.receivedTxRecords scope candidates) st q.minconf
      q.includeImmatureCoinbase).Perm
        ((db.receivedRows scope candidates).filterMap (rowReceipt keys receivers db st q)) := by
  have hsorted := List.perm_insertionSort
    (fun x y => HistoryDb.sortKey x ≤ HistoryDb.sortKey y) (db.receivedRows scope candidates)
  refine (countedReceipts_groupRows ?_).trans (hsorted.filterMap _)
  intro r hr r' hr' h
  exact receivedRows_transaction (hsorted.mem_iff.mp hr) (hsorted.mem_iff.mp hr') h

variable (keys receivers db st q) in
/-- What a row adds to an address's line, if the row is selected. -/
def selectedValue (candidates : Option (List String)) (addr : String) (r : ReceivedRow) : ℤ :=
  if HistoryDb.addressMatches candidates r.output then filedValue keys receivers db st q addr r
  else 0

variable (keys receivers db scope st q) in
theorem amountIn_received (candidates : Option (List String)) (addr : String) :
    amountIn (received keys receivers db scope st q candidates) addr =
      ((db.receivedRows scope none).map
        (selectedValue keys receivers db st q candidates addr)).sum := by
  have hselect : ((db.receivedRows scope candidates).map
      (filedValue keys receivers db st q addr)).sum =
        ((db.receivedRows scope none).map
          (selectedValue keys receivers db st q candidates addr)).sum := by
    cases candidates with
    | none => rfl
    | some candidates =>
      rw [receivedRows_some]
      exact Grouping.sum_map_filter
  unfold received receivedByAddress
  rw [amountIn_foldl, ← hselect, ← sum_filterMap_rowReceipt]
  rw [((received_receipts keys receivers db scope st q candidates).map _).sum_eq]
  simp [amountIn, lineOf]

theorem filedValue_nonneg {r : ReceivedRow} {addr : String} :
    0 ≤ filedValue keys receivers db st q addr r := by
  by_cases h : Filed keys receivers db st q addr r
  · rw [filedValue_of_filed h]
    exact le_max_right _ _
  · exact (filedValue_of_not_filed h).ge

theorem selectedValue_le {r : ReceivedRow} {candidates : Option (List String)} {addr : String} :
    selectedValue keys receivers db st q candidates addr r ≤
      filedValue keys receivers db st q addr r := by
  unfold selectedValue
  split
  · exact le_rfl
  · exact filedValue_nonneg

theorem selectedValue_eq_iff {r : ReceivedRow} {candidates : Option (List String)}
    {addr : String} : selectedValue keys receivers db st q candidates addr r =
      filedValue keys receivers db st q addr r ↔
        (Filed keys receivers db st q addr r → 0 < r.output.value →
          HistoryDb.addressMatches candidates r.output = true) := by
  unfold selectedValue
  split
  · rename_i hmatches
    exact iff_of_true rfl fun _ _ => hmatches
  · rename_i hother
    by_cases hfiled : Filed keys receivers db st q addr r
    · rw [filedValue_of_filed hfiled]
      constructor
      · intro hzero _ hpos
        exact absurd (hzero.trans (max_eq_left hpos.le)) hpos.ne
      · intro h
        exact (max_eq_right (not_lt.mp fun hpos => hother (h hfiled hpos))).symm
    · rw [filedValue_of_not_filed hfiled]
      exact iff_of_true rfl fun hfiled' => absurd hfiled' hfiled

variable (keys receivers db scope st q) in
/-- Selected rows add up to everything filed under the address exactly when every receipt filed
there is selected. -/
theorem amountIn_received_eq_iff (candidates : Option (List String)) (addr : String) :
    amountIn (received keys receivers db scope st q candidates) addr =
        amountIn (received keys receivers db scope st q none) addr ↔
      ∀ r ∈ db.receivedRows scope none, Filed keys receivers db st q addr r →
        0 < r.output.value → HistoryDb.addressMatches candidates r.output = true := by
  have hall : selectedValue keys receivers db st q none addr =
      filedValue keys receivers db st q addr := rfl
  rw [amountIn_received, amountIn_received, hall,
    Grouping.sum_map_eq_iff fun r _ => selectedValue_le]
  exact forall₂_congr fun r _ => selectedValue_eq_iff

end Zecd.ReceivedBy
