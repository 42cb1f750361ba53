import Zecd.Read.ReceivedBy

/-! # Received at a diversifier index

Any encoding of an index should be answered with the receipts at the index. A query is answered
so exactly when the receipts are recorded under the query itself, or under recorded encodings of
the index that carry the query's configured receivers. Every listed address is answered with the
amount listed for it exactly when it is accepted as a query, and the receipts filed under it are
recorded where that query looks.
-/

namespace Zecd.ReceivedBy

open HistoryDb (ReceivedRow addressMatches)

/-! ## Indices and their receipts -/

def DecodedAddress.shielded : DecodedAddress → List (Receiver × ℕ)
  | .unified ua => (ua.orchard.map fun r => (Receiver.orchard, r)).toList ++
      (ua.sapling.map fun r => (Receiver.sapling, r)).toList
  | .sapling receiver => [(.sapling, receiver)]
  | .transparent _ => []
  | .tex _ => []

def KeyLayer.receiverIndex (keys : KeyLayer) (a : AccountUuid) :
    Receiver × ℕ → Option (ℕ × KeyScope)
  | (.orchard, receiver) => keys.orchardReceiverIndex a receiver
  | (.sapling, receiver) => keys.saplingReceiverIndex a receiver

/-- The address encodes shielded receivers at an index of the account's, at least one. -/
def EncodesIndex (keys : KeyLayer) (a : AccountUuid) (j : ℕ) (s : String) : Prop :=
  ∃ d, keys.decodeOnNetwork s = some d ∧ d.shielded ≠ [] ∧
    ∀ r ∈ d.shielded, keys.receiverIndex a r = some (j, .external)

def outputsOf (db : ReceivedDb) (t : TransactionRow) : List TxOutputRecord :=
  (db.outputKeys t.idTx).map (db.outputAt t.idTx)

/-- What the wallet layer records: an address row carries receivers of its own index, and an
output received outside change, if its address has shielded receivers, was paid to one of them
and is recorded at that receiver's index. -/
structure Derived (keys : KeyLayer) (db : ReceivedDb) : Prop where
  addresses : ∀ x ∈ db.addresses, ∀ b d, db.accountUuid (db.addressAccount x) = some b →
    keys.decodeOnNetwork x.address = some d → ∀ r ∈ d.shielded,
      ∃ keyScope, KeyScope.code keyScope = x.keyScope ∧
        keys.receiverIndex b r = some (x.diversifierIndex, keyScope)
  receipts : ∀ t ∈ db.transactions, ∀ out ∈ outputsOf db t, out.isInternalChange = false →
    ∀ b s d, out.toAccount = some b → out.toAddress = some s →
      keys.decodeOnNetwork s = some d → d.shielded ≠ [] →
        out.pool ≠ .transparent ∧ ∃ r ∈ d.shielded, ∃ i keyScope,
          keys.receiverIndex b r = some (i, keyScope) ∧ out.diversifierIndex = some i ∧
            out.recipientKeyScope = some keyScope.code

/-- A shielded receipt at an index of the account's external scope. -/
def atIndex (a : AccountUuid) (j : ℕ) (out : TxOutputRecord) : Bool :=
  decide (out.pool ≠ .transparent) && out.toAccount == some a &&
    out.recipientKeyScope == some externalKeyScope && out.diversifierIndex == some j

def receivedAtIndex (db : ReceivedDb) (st : ScanStatus) (minconf : ℤ) (a : AccountUuid)
    (j : ℕ) : ℤ :=
  (db.transactions.map fun t => if minconf ≤ confirmationsOf db st t then
    (((outputsOf db t).filter (atIndex a j)).map fun out => max out.value 0).sum else 0).sum

def RecordedAt (db : ReceivedDb) (a : AccountUuid) (j : ℕ) (s : String) : Prop :=
  ∃ x ∈ db.addresses, x.address = s ∧ x.diversifierIndex = j ∧ x.keyScope = externalKeyScope ∧
    db.accountUuid (db.addressAccount x) = some a

/-- A query finds what is stored under it, and what is stored under a recorded encoding of its
index that carries the same configured receivers. -/
def Finds (keys : KeyLayer) (receivers : ReceiverSet) (db : ReceivedDb) (a : AccountUuid)
    (j : ℕ) (addr s : String) : Prop :=
  s = addr ∨ (RecordedAt db a j s ∧ SameConfigured keys receivers s addr)

/-- Every counted receipt at the index is recorded where the query finds it. -/
def RecordedForQuery (keys : KeyLayer) (receivers : ReceiverSet) (db : ReceivedDb)
    (st : ScanStatus) (minconf : ℤ) (a : AccountUuid) (j : ℕ) (addr : String) : Prop :=
  ∀ t ∈ db.transactions, minconf ≤ confirmationsOf db st t → ∀ out ∈ outputsOf db t,
    atIndex a j out = true → 0 < out.value →
      ∃ s, out.toAddress = some s ∧ Finds keys receivers db a j addr s

variable {keys : KeyLayer} {receivers : ReceiverSet} {db : ReceivedDb} {a b : AccountUuid}
  {st : ScanStatus} {q : ReceivedQuery} {j : ℕ} {addr s : String} {r : ReceivedRow}

/-! ## The rows of an account -/

theorem atIndex_iff {out : TxOutputRecord} : atIndex a j out = true ↔ out.pool ≠ .transparent ∧
    out.toAccount = some a ∧ out.recipientKeyScope = some externalKeyScope ∧
      out.diversifierIndex = some j := by
  simp [atIndex, and_assoc]

theorem atIndex_notChange {out : TxOutputRecord} (h : atIndex a j out = true) :
    out.isInternalChange = false := by
  obtain ⟨-, -, hscope, -⟩ := atIndex_iff.mp h
  simp [TxOutputRecord.isInternalChange, hscope]

theorem mineNotes_ne_nil {t : TransactionRow} {key : PoolType × ℕ}
    (h : db.paysTo t.idTx key = some a) : db.mineNotes (.only a) t.idTx ≠ [] := by
  obtain ⟨row, hrow, haccount⟩ := Option.bind_eq_some_iff.mp h
  obtain ⟨hmem, htx, -⟩ := WalletDb.receivedAt_some hrow
  have hpool : key.1 ∈ allPools := by
    rcases key with ⟨_ | _ | _ | _, _⟩ <;> simp [allPools]
  have hnote : (row.accountId, row.value) ∈ db.balanceNotes t.idTx := by
    unfold WalletDb.balanceNotes
    refine List.mem_append_left _ (List.mem_flatMap.mpr ⟨key.1, hpool, ?_⟩)
    exact List.mem_map.mpr ⟨row, List.mem_filter.mpr ⟨hmem, by simpa using htx⟩, rfl⟩
  apply List.ne_nil_of_mem
  refine List.mem_map.mpr ⟨_, List.mem_filter.mpr ⟨hnote, ?_⟩, rfl⟩
  rw [WalletDb.scopeById_only, haccount]
  exact beq_self_eq_true _

theorem exists_paysTo_of_atIndex {t : TransactionRow} {out : TxOutputRecord}
    (hout : out ∈ outputsOf db t) (h : atIndex a j out = true) :
    ∃ key, db.paysTo t.idTx key = some a := by
  obtain ⟨key, -, rfl⟩ := List.mem_map.mp hout
  obtain ⟨-, howner, -⟩ := atIndex_iff.mp h
  exact ⟨key, WalletDb.outputAt_toAccount ▸ howner⟩

theorem joinedRows_outputsOf {t : TransactionRow} (ht : t ∈ db.transactions) :
    db.joinedRows none t = (outputsOf db t).map (⟨t, ·⟩) := by
  have hall : (outputsOf db t).filter (addressMatches none) = outputsOf db t :=
    List.filter_eq_self.mpr fun _ _ => rfl
  rw [HistoryDb.joinedRows_eq ht]
  exact congrArg _ hall

theorem mem_receivedRows {x : AccountRow} (hx : x ∈ db.accounts)
    (hr : r ∈ db.receivedRows (.only x.uuid) none) :
    r.transaction ∈ db.transactions ∧ r.output ∈ outputsOf db r.transaction := by
  rw [HistoryDb.receivedRows_only hx] at hr
  obtain ⟨t, ht, hr⟩ := List.mem_flatMap.mp hr
  split at hr
  · cases hr
  · rw [joinedRows_outputsOf ht] at hr
    obtain ⟨out, hout, rfl⟩ := List.mem_map.mp hr
    exact ⟨ht, hout⟩

theorem receivedRows_of_atIndex {x : AccountRow} (hx : x ∈ db.accounts) {t : TransactionRow}
    (ht : t ∈ db.transactions) {out : TxOutputRecord} (hout : out ∈ outputsOf db t)
    (h : atIndex x.uuid j out = true) :
    (⟨t, out⟩ : ReceivedRow) ∈ db.receivedRows (.only x.uuid) none := by
  obtain ⟨key, hkey⟩ := exists_paysTo_of_atIndex hout h
  rw [HistoryDb.receivedRows_only hx]
  refine List.mem_flatMap.mpr ⟨t, ht, ?_⟩
  rw [if_neg (mineNotes_ne_nil hkey), joinedRows_outputsOf ht]
  exact List.mem_map_of_mem hout

variable (db st q a j) in
def indexValue (r : ReceivedRow) : ℤ :=
  if q.minconf ≤ confirmationsOf db st r.transaction ∧ atIndex a j r.output = true then
    max r.output.value 0
  else 0

theorem indexValue_nonneg : 0 ≤ indexValue db a st q j r := by
  unfold indexValue
  split
  · exact le_max_right _ _
  · exact le_rfl

theorem receivedAtIndex_eq {x : AccountRow} (hx : x ∈ db.accounts) :
    receivedAtIndex db st q.minconf x.uuid j =
      ((db.receivedRows (.only x.uuid) none).map (indexValue db x.uuid st q j)).sum := by
  rw [HistoryDb.receivedRows_only hx, List.map_flatMap, List.flatMap_def, List.sum_flatten,
    List.map_map, receivedAtIndex]
  refine congrArg List.sum (List.map_congr_left fun t ht => ?_)
  have houtputs : (if q.minconf ≤ confirmationsOf db st t then
      (((outputsOf db t).filter (atIndex x.uuid j)).map fun out => max out.value 0).sum else 0) =
        (((outputsOf db t).map (⟨t, ·⟩)).map (indexValue db x.uuid st q j)).sum := by
    rw [List.map_map, Grouping.sum_map_filter]
    split
    · rename_i hdeep
      simp [indexValue, Function.comp_def, hdeep]
    · rename_i hdeep
      simp [indexValue, Function.comp_def, hdeep]
  rw [houtputs, Function.comp_apply]
  split
  · rename_i hnil
    rw [List.map_map]
    refine List.sum_eq_zero fun v hv => ?_
    obtain ⟨out, hout, rfl⟩ := List.mem_map.mp hv
    refine if_neg fun h => ?_
    obtain ⟨key, hkey⟩ := exists_paysTo_of_atIndex hout h.2
    exact mineNotes_ne_nil hkey hnil
  · rw [joinedRows_outputsOf ht]

/-! ## A query at an index -/

theorem receiverIndex_owner (hkeys : keys.Lawful) {receiver : Receiver × ℕ}
    {p p' : ℕ × KeyScope} (h : keys.receiverIndex a receiver = some p)
    (h' : keys.receiverIndex b receiver = some p') : a = b ∧ p = p' := by
  have howner : a = b := by
    rcases receiver with ⟨_ | _, receiver⟩
    · exact hkeys.sapling_owner a b receiver p p' h h'
    · exact hkeys.orchard_owner a b receiver p p' h h'
  subst howner
  exact ⟨rfl, Option.some.inj (h.symm.trans h')⟩

theorem scopedAccounts_only {x : AccountRow} (hx : x ∈ db.accounts) :
    scopedAccounts db.toHistoryDb (.only x.uuid) = [x.uuid] := by
  have hmem : x.uuid ∈ db.accounts.map AccountRow.uuid := List.mem_map_of_mem hx
  have hsame : ∀ c ∈ db.accounts.map AccountRow.uuid,
      (!AccountScope.excludes (.only x.uuid) c) = (c == x.uuid) := by
    intro c _
    simp [AccountScope.excludes, bne, Bool.beq_comm]
  rw [scopedAccounts, List.filter_congr hsame, List.filter_beq,
    List.count_eq_one_of_mem db.uuids_nodup hmem]
  rfl

theorem exists_account_of_isMine (h : isMine keys db.toHistoryDb (.only a) addr = true) :
    ∃ x ∈ db.accounts, x.uuid = a := by
  obtain ⟨c, hc, -⟩ := List.any_eq_true.mp h
  obtain ⟨hc, hscope⟩ := List.mem_filter.mp hc
  obtain ⟨x, hx, rfl⟩ := List.mem_map.mp hc
  exact ⟨x, hx, (by simpa [AccountScope.excludes] using hscope : a = x.uuid).symm⟩

theorem indexUnder_encodes {d : DecodedAddress} {p : ℕ × KeyScope} (hne : d.shielded ≠ [])
    (h : ∀ r ∈ d.shielded, keys.receiverIndex a r = some p) : indexUnder keys d a = some p := by
  cases d with
  | unified ua =>
    rcases ua with ⟨_ | orchard, sapling, transparent⟩
    · cases sapling with
      | none => exact absurd rfl hne
      | some sapling => exact h (.sapling, sapling) (by simp [DecodedAddress.shielded])
    · have horchard : keys.orchardReceiverIndex a orchard = some p :=
        h (.orchard, orchard) (by simp [DecodedAddress.shielded])
      simp [indexUnder, horchard]
  | sapling receiver => exact h (.sapling, receiver) List.mem_cons_self
  | transparent receiver => exact absurd rfl hne
  | tex receiver => exact absurd rfl hne

theorem diversifierIndexOf_encodes {x : AccountRow} (hx : x ∈ db.accounts)
    (h : EncodesIndex keys x.uuid j addr) :
    diversifierIndexOf keys db.toHistoryDb (.only x.uuid) addr = some (j, .external) := by
  obtain ⟨d, hdecode, hne, hindex⟩ := h
  simp [diversifierIndexOf, hdecode, scopedAccounts_only hx, indexUnder_encodes hne hindex]

theorem classifyReceivers_same {ua : UnifiedReceivers} {orchard sapling : ℕ}
    {p : ℕ × KeyScope} (horchard : ua.orchard = some orchard) (hsapling : ua.sapling = some sapling)
    (hfirst : keys.orchardReceiverIndex a orchard = some p)
    (hsecond : keys.saplingReceiverIndex a sapling = some p) :
    classifyReceiversWithUfvk keys a ua = .mineConsistent := by
  have hsame : [p, p].all (· == p) = true := by simp
  simp only [classifyReceiversWithUfvk, horchard, hsapling, Option.map_some, hfirst, hsecond]
  exact (if_neg Bool.false_ne_true).trans (if_pos hsame)

theorem classify_encodes {x : AccountRow} (hx : x ∈ db.accounts)
    (h : EncodesIndex keys x.uuid j addr) (why : String) :
    classifyUnifiedReceivers keys db.toHistoryDb (.only x.uuid) addr ≠ .inconsistent why := by
  obtain ⟨d, hdecode, -, hindex⟩ := h
  unfold classifyUnifiedReceivers
  rw [hdecode]
  cases d with
  | unified ua =>
    dsimp only
    split
    · rename_i htwo
      obtain ⟨hsapling, horchard⟩ := Bool.and_eq_true_iff.mp htwo
      obtain ⟨sapling, hsapling⟩ := Option.isSome_iff_exists.mp hsapling
      obtain ⟨orchard, horchard⟩ := Option.isSome_iff_exists.mp horchard
      have hfirst : keys.orchardReceiverIndex x.uuid orchard = some (j, .external) :=
        hindex (.orchard, orchard) (by simp [DecodedAddress.shielded, horchard])
      have hsecond : keys.saplingReceiverIndex x.uuid sapling = some (j, .external) :=
        hindex (.sapling, sapling) (by simp [DecodedAddress.shielded, hsapling])
      rw [scopedAccounts_only hx, List.map_singleton,
        classifyReceivers_same horchard hsapling hfirst hsecond]
      intro hinconsistent
      cases hinconsistent
    · intro hinconsistent
      cases hinconsistent
  | sapling receiver =>
    intro hinconsistent
    cases hinconsistent
  | transparent receiver =>
    intro hinconsistent
    cases hinconsistent
  | tex receiver =>
    intro hinconsistent
    cases hinconsistent

/-- The address is a query the method answers. -/
structure Accepted (keys : KeyLayer) (db : ReceivedDb) (scope : AccountScope) (addr : String) :
    Prop where
  valid : (keys.decodeOnNetwork addr).isSome
  consistent : ∀ why, classifyUnifiedReceivers keys db.toHistoryDb scope addr ≠ .inconsistent why
  mine : isMine keys db.toHistoryDb scope addr = true

theorem EncodesIndex.accepted (h : EncodesIndex keys a j addr)
    (hmine : isMine keys db.toHistoryDb (.only a) addr = true) :
    Accepted keys db (.only a) addr := by
  obtain ⟨x, hx, rfl⟩ := exists_account_of_isMine hmine
  constructor
  · obtain ⟨d, hdecode, -⟩ := h
    rw [hdecode]
    rfl
  · exact classify_encodes hx h
  · exact hmine

theorem getReceivedByAddress_eq_ok {scope : AccountScope} {v : ℤ} :
    getReceivedByAddress keys receivers db scope st q addr = .ok v ↔
      Accepted keys db scope addr ∧ amountIn (received keys receivers db scope st q
        (some (receivedAddressCandidates keys db scope addr)))
          (receivedAddressKey keys receivers addr) = v := by
  unfold getReceivedByAddress
  by_cases hvalid : (keys.decodeOnNetwork addr).isNone = true
  · rw [if_pos hvalid]
    constructor
    · intro h
      cases h
    · rintro ⟨haccepted, -⟩
      exact absurd haccepted.valid (by simpa using hvalid)
  · rw [if_neg hvalid]
    split
    · rename_i why hwhy
      constructor
      · intro h
        cases h
      · rintro ⟨haccepted, -⟩
        exact absurd hwhy (haccepted.consistent why)
    · rename_i hconsistent
      split
      · rename_i hmine
        have haccepted : Accepted keys db scope addr :=
          ⟨by simpa [Option.isSome_iff_ne_none] using hvalid, hconsistent, hmine⟩
        rw [Except.ok.injEq, and_iff_right haccepted]
        rfl
      · rename_i hmine
        constructor
        · intro h
          cases h
        · rintro ⟨haccepted, -⟩
          exact absurd haccepted.mine hmine

/-! ## What a query finds -/

theorem mem_candidates_iff {x : AccountRow} (hx : x ∈ db.accounts)
    (h : EncodesIndex keys x.uuid j addr) :
    s ∈ receivedAddressCandidates keys db (.only x.uuid) addr ↔
      RecordedAt db x.uuid j s ∨ s = addr := by
  rw [mem_receivedAddressCandidates, recordedEncodingsOf, diversifierIndexOf_encodes hx h]
  simp [RecordedAt, WalletDb.scopeById_only, KeyScope.code, externalKeyScope, and_comm,
    and_left_comm, and_assoc]

theorem shielded_ne_nil {ua kept : UnifiedReceivers} (h : ua.keep receivers = some kept) :
    (DecodedAddress.unified ua).shielded ≠ [] := by
  rcases ua with ⟨_ | orchard, _ | sapling, transparent⟩
  · cases h
  · simp [DecodedAddress.shielded]
  · simp [DecodedAddress.shielded]
  · simp [DecodedAddress.shielded]

theorem finds_iff (hkeys : keys.Lawful) {x : AccountRow} (hx : x ∈ db.accounts)
    (h : EncodesIndex keys x.uuid j addr) :
    s ∈ receivedAddressCandidates keys db (.only x.uuid) addr ∧
      receivedAddressKey keys receivers s = receivedAddressKey keys receivers addr ↔
        Finds keys receivers db x.uuid j addr s := by
  rw [mem_candidates_iff hx h, Finds]
  by_cases hs : s = addr
  · simp [hs]
  · rw [receivedAddressKey_eq_iff hkeys hs]
    simp [hs]

theorem Finds.encodes (hdb : Derived keys db) (h : EncodesIndex keys a j addr)
    (hfinds : Finds keys receivers db a j addr s) : EncodesIndex keys a j s := by
  rcases hfinds with rfl | ⟨⟨x, hx, rfl, hindex, hscope, haccount⟩, u, -, kept, hu, -, hkept, -⟩
  · exact h
  · refine ⟨.unified u, hu, shielded_ne_nil hkept, fun r hr => ?_⟩
    obtain ⟨keyScope, hcode, hr⟩ := hdb.addresses x hx a (.unified u) haccount hu r hr
    rw [hr, hindex]
    cases keyScope with
    | external => rfl
    | internal =>
      rw [hscope] at hcode
      cases hcode

theorem atIndex_of_encodes (hkeys : keys.Lawful) (hdb : Derived keys db)
    (h : EncodesIndex keys a j s) {t : TransactionRow} (ht : t ∈ db.transactions)
    {out : TxOutputRecord} (hout : out ∈ outputsOf db t) (hchange : out.isInternalChange = false)
    (howned : out.toAccount.isSome) (hs : out.toAddress = some s) : atIndex a j out = true := by
  obtain ⟨b, hb⟩ := Option.isSome_iff_exists.mp howned
  obtain ⟨d, hdecode, hne, hindex⟩ := h
  obtain ⟨hpool, receiver, hreceiver, i, keyScope, hpaid, hi, hscope⟩ :=
    hdb.receipts t ht out hout hchange b s d hb hs hdecode hne
  obtain ⟨rfl, hp⟩ := receiverIndex_owner hkeys (hindex receiver hreceiver) hpaid
  cases hp
  exact atIndex_iff.mpr ⟨hpool, hb, hscope, hi⟩

theorem mature_of_shielded {tx : TxRecord} {conf : ℤ} {out : TxOutputRecord}
    (h : out.pool ≠ .transparent) : isImmatureCoinbase tx conf out = false := by
  simp [isImmatureCoinbase, h]

def Selected (keys : KeyLayer) (receivers : ReceiverSet) (db : ReceivedDb) (scope : AccountScope)
    (st : ScanStatus) (q : ReceivedQuery) (addr : String) (r : ReceivedRow) : Prop :=
  Filed keys receivers db st q (receivedAddressKey keys receivers addr) r ∧
    addressMatches (some (receivedAddressCandidates keys db scope addr)) r.output = true

/-- What the query selects are the receipts at its index that are recorded where it finds
them. -/
theorem selected_iff (hkeys : keys.Lawful) (hdb : Derived keys db) {x : AccountRow}
    (hx : x ∈ db.accounts) (h : EncodesIndex keys x.uuid j addr)
    (hr : r ∈ db.receivedRows (.only x.uuid) none) :
    Selected keys receivers db (.only x.uuid) st q addr r ↔
      (q.minconf ≤ confirmationsOf db st r.transaction ∧ atIndex x.uuid j r.output = true) ∧
        ∃ s, r.output.toAddress = some s ∧ Finds keys receivers db x.uuid j addr s := by
  constructor
  · rintro ⟨hfiled, hmatches⟩
    obtain ⟨ht, hout⟩ := mem_receivedRows hx hr
    obtain ⟨s, hs, hkey⟩ := hfiled.recorded
    have hcandidate : s ∈ receivedAddressCandidates keys db (.only x.uuid) addr := by
      simpa [addressMatches, hs] using hmatches
    have hfinds := (finds_iff hkeys hx h).mp ⟨hcandidate, hkey⟩
    have hat := atIndex_of_encodes hkeys hdb (hfinds.encodes hdb h) ht hout hfiled.notChange
      hfiled.owned hs
    exact ⟨⟨hfiled.deep, hat⟩, s, hs, hfinds⟩
  · rintro ⟨⟨hdeep, hat⟩, s, hs, hfinds⟩
    obtain ⟨hpool, howner, -, -⟩ := atIndex_iff.mp hat
    obtain ⟨hcandidate, hkey⟩ := (finds_iff hkeys hx h).mpr hfinds
    constructor
    · constructor
      · exact hdeep
      · exact atIndex_notChange hat
      · rw [howner]
        rfl
      · exact .inr (mature_of_shielded hpool)
      · exact ⟨s, hs, hkey⟩
    · simpa [addressMatches, hs] using hcandidate

theorem selectedValue_of_selected {scope : AccountScope}
    (h : Selected keys receivers db scope st q addr r) :
    selectedValue keys receivers db st q (some (receivedAddressCandidates keys db scope addr))
      (receivedAddressKey keys receivers addr) r = max r.output.value 0 := by
  rw [selectedValue, if_pos h.2, filedValue_of_filed h.1]

theorem selectedValue_of_not_selected {scope : AccountScope}
    (h : ¬ Selected keys receivers db scope st q addr r) :
    selectedValue keys receivers db st q (some (receivedAddressCandidates keys db scope addr))
      (receivedAddressKey keys receivers addr) r = 0 := by
  unfold selectedValue
  split
  · rename_i hmatches
    exact filedValue_of_not_filed fun hfiled => h ⟨hfiled, hmatches⟩
  · rfl

/-- A query is answered with the receipts at its index exactly when they are all recorded where
it finds them. -/
theorem getReceivedByAddress_atIndex (hkeys : keys.Lawful) (hdb : Derived keys db)
    (h : EncodesIndex keys a j addr)
    (hmine : isMine keys db.toHistoryDb (.only a) addr = true) :
    getReceivedByAddress keys receivers db (.only a) st q addr =
        .ok (receivedAtIndex db st q.minconf a j) ↔
      RecordedForQuery keys receivers db st q.minconf a j addr := by
  have haccepted := h.accepted hmine
  obtain ⟨x, hx, rfl⟩ := exists_account_of_isMine hmine
  have hle : ∀ r ∈ db.receivedRows (.only x.uuid) none,
      selectedValue keys receivers db st q
        (some (receivedAddressCandidates keys db (.only x.uuid) addr))
          (receivedAddressKey keys receivers addr) r ≤ indexValue db x.uuid st q j r := by
    intro r hr
    by_cases hselected : Selected keys receivers db (.only x.uuid) st q addr r
    · have hin := ((selected_iff hkeys hdb hx h hr).mp hselected).1
      rw [selectedValue_of_selected hselected, indexValue, if_pos hin]
    · rw [selectedValue_of_not_selected hselected]
      exact indexValue_nonneg
  rw [getReceivedByAddress_eq_ok, and_iff_right haccepted, amountIn_received,
    receivedAtIndex_eq hx]
  refine (Grouping.sum_map_eq_iff hle).trans ?_
  constructor
  · intro hall t ht hdeep out hout hat hpos
    have hr := receivedRows_of_atIndex hx ht hout hat
    by_cases hselected : Selected keys receivers db (.only x.uuid) st q addr ⟨t, out⟩
    · exact ((selected_iff hkeys hdb hx h hr).mp hselected).2
    · have hvalue := hall ⟨t, out⟩ hr
      rw [selectedValue_of_not_selected hselected, indexValue, if_pos ⟨hdeep, hat⟩,
        max_eq_left hpos.le] at hvalue
      exact absurd hvalue hpos.ne
  · intro hrecorded r hr
    obtain ⟨ht, hout⟩ := mem_receivedRows hx hr
    by_cases hselected : Selected keys receivers db (.only x.uuid) st q addr r
    · have hin := ((selected_iff hkeys hdb hx h hr).mp hselected).1
      rw [selectedValue_of_selected hselected, indexValue, if_pos hin]
    · rw [selectedValue_of_not_selected hselected, indexValue]
      split
      · rename_i hin
        -- A row at the index that is not selected adds nothing.
        have hzero : ¬ 0 < r.output.value := by
          intro hpos
          apply hselected
          exact (selected_iff hkeys hdb hx h hr).mpr
            ⟨hin, hrecorded r.transaction ht hin.1 r.output hout hin.2 hpos⟩
        exact (max_eq_right (not_lt.mp hzero)).symm
      · rfl

end Zecd.ReceivedBy
