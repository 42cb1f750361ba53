import Zecd.Read.ReceivedIndex

/-! # Listed addresses as queries

`listreceivedbyaddress` reports every receipt under the key it is filed under, but a query by that
key finds only what is recorded at the key's own index, and is answered only for an address the
wallet accepts. This decides when what is listed can be asked for.
-/

namespace Zecd.ReceivedBy

open HistoryDb (ReceivedRow addressMatches)

variable {keys : KeyLayer} {receivers : ReceiverSet} {db : ReceivedDb} {scope : AccountScope}
  {a : AccountUuid} {st : ScanStatus} {q : ReceivedQuery} {addr : String} {r : ReceivedRow}
  {addressFilter : Option String} {includeEmpty : Bool}

/-! ## What is listed -/

theorem mem_addReceipt {lines : List (String × ReceivedLine)} {receipt : Receipt} :
    addr ∈ (addReceipt lines receipt).map Prod.fst ↔
      addr ∈ lines.map Prod.fst ∨ receipt.address = addr := by
  unfold addReceipt
  split
  · rename_i hany
    have hfst : (lines.map fun l => if l.1 = receipt.address then (l.1, l.2.add receipt)
        else l).map Prod.fst = lines.map Prod.fst := by
      rw [List.map_map]
      refine List.map_congr_left fun l _ => ?_
      simp only [Function.comp_apply]
      split <;> rfl
    rw [hfst]
    constructor
    · exact .inl
    · rintro (h | rfl)
      · exact h
      · obtain ⟨l, hl, hkey⟩ := List.any_eq_true.mp hany
        exact List.mem_map.mpr ⟨l, hl, by simpa using hkey⟩
  · rw [List.map_append, List.mem_append, List.map_singleton, List.mem_singleton,
      eq_comm (a := addr)]

theorem mem_foldl_addReceipt (receipts : List Receipt) (lines : List (String × ReceivedLine)) :
    addr ∈ (receipts.foldl addReceipt lines).map Prod.fst ↔
      addr ∈ lines.map Prod.fst ∨ ∃ receipt ∈ receipts, receipt.address = addr := by
  induction receipts generalizing lines with
  | nil => simp
  | cons receipt receipts ih =>
    rw [List.foldl_cons, ih, mem_addReceipt, List.exists_mem_cons_iff, or_assoc]

theorem mem_received {candidates : Option (List String)} :
    addr ∈ (received keys receivers db scope st q candidates).map Prod.fst ↔
      ∃ r ∈ db.receivedRows scope none, addressMatches candidates r.output = true ∧
        Filed keys receivers db st q addr r := by
  have hrows : ∀ r, r ∈ db.receivedRows scope candidates ↔
      r ∈ db.receivedRows scope none ∧ addressMatches candidates r.output = true := by
    intro r
    cases candidates with
    | none => simp [addressMatches]
    | some candidates => rw [receivedRows_some, List.mem_filter]
  unfold received receivedByAddress
  rw [mem_foldl_addReceipt]
  simp only [(received_receipts keys receivers db scope st q candidates).mem_iff,
    List.mem_filterMap, List.map_nil, List.not_mem_nil, false_or]
  constructor
  · rintro ⟨receipt, ⟨r, hr, hreceipt⟩, rfl⟩
    obtain ⟨hr, hmatches⟩ := (hrows r).mp hr
    exact ⟨r, hr, hmatches, filed_of_rowReceipt hreceipt⟩
  · rintro ⟨r, hr, hmatches, hfiled⟩
    exact ⟨_, ⟨r, (hrows r).mpr ⟨hr, hmatches⟩, rowReceipt_filed hfiled⟩, rfl⟩

variable (keys receivers db scope st q) in
/-- An address a listing with this filter may have an entry for: a selected receipt is filed
under it, or it is the key of an address of the wallet's. -/
def Listable (addressFilter : Option String) (addr : String) : Prop :=
  (∀ f ∈ addressFilter, receivedAddressKey keys receivers f = addr) ∧
    ((∃ r ∈ db.receivedRows scope none, addressMatches
        (addressFilter.map (receivedAddressCandidates keys db scope)) r.output = true ∧
          Filed keys receivers db st q addr r) ∨
      ∃ s ∈ allAddresses keys db scope, receivedAddressKey keys receivers s = addr)

theorem mem_listedAddresses {lines : List (String × ReceivedLine)} :
    addr ∈ listedAddresses keys receivers db scope lines includeEmpty addressFilter ↔
      (∀ f ∈ addressFilter, receivedAddressKey keys receivers f = addr) ∧
        (addr ∈ lines.map Prod.fst ∨ includeEmpty = true ∧
          ∃ s ∈ allAddresses keys db scope, receivedAddressKey keys receivers s = addr) := by
  have hfilter : (addressFilter.map (receivedAddressKey keys receivers)).all (· == addr) = true ↔
      ∀ f ∈ addressFilter, receivedAddressKey keys receivers f = addr := by
    cases addressFilter <;> simp
  rw [listedAddresses, List.mem_filter, List.mem_insertionSort, List.mem_dedup, List.mem_append,
    hfilter, and_comm]
  cases includeEmpty <;> simp

theorem listable_iff : Listable keys receivers db scope st q addressFilter addr ↔
    ∃ includeEmpty, addr ∈ listedAddresses keys receivers db scope (received keys receivers db
      scope st q (addressFilter.map (receivedAddressCandidates keys db scope))) includeEmpty
        addressFilter := by
  simp only [mem_listedAddresses, mem_received, Listable]
  constructor
  · rintro ⟨hfilter, hrow | hown⟩
    · exact ⟨false, hfilter, .inl hrow⟩
    · exact ⟨true, hfilter, .inr ⟨rfl, hown⟩⟩
  · rintro ⟨includeEmpty, hfilter, hrow | ⟨-, hown⟩⟩
    · exact ⟨hfilter, .inl hrow⟩
    · exact ⟨hfilter, .inr hown⟩

theorem receivedEntry_amount {lines : List (String × ReceivedLine)} :
    (receivedEntry lines addr).amount = amountIn lines addr := by
  unfold receivedEntry amountIn
  cases lineOf lines addr <;> rfl

/-! ## Asking for what is listed -/

theorem Listable.key_eq (hkeys : keys.Lawful)
    (h : Listable keys receivers db scope st q addressFilter addr) :
    receivedAddressKey keys receivers addr = addr := by
  rcases h.2 with ⟨r, -, -, hfiled⟩ | ⟨s, -, rfl⟩
  · obtain ⟨s, -, rfl⟩ := hfiled.recorded
    exact receivedAddressKey_key hkeys s
  · exact receivedAddressKey_key hkeys s

variable (keys receivers db scope st q) in
/-- Every listable address is accepted as a query, and every receipt filed under it is recorded
where that query looks, and where the filter it is listed with looks. -/
def Askable : Prop :=
  ∀ addressFilter addr, Listable keys receivers db scope st q addressFilter addr →
    Accepted keys db scope addr ∧
      ∀ r ∈ db.receivedRows scope none, Filed keys receivers db st q addr r →
        0 < r.output.value →
          addressMatches (some (receivedAddressCandidates keys db scope addr)) r.output = true ∧
            addressMatches (addressFilter.map (receivedAddressCandidates keys db scope))
              r.output = true

variable (keys receivers db scope st q) in
def ListedAnswered : Prop :=
  ∀ includeEmpty addressFilter, ∀ entry ∈ listReceivedByAddress keys receivers db scope st q
    includeEmpty addressFilter,
      getReceivedByAddress keys receivers db scope st q entry.address = .ok entry.amount

theorem listedAnswered_iff (hkeys : keys.Lawful) : ListedAnswered keys receivers db scope st q ↔
    ∀ addressFilter addr, Listable keys receivers db scope st q addressFilter addr →
      Accepted keys db scope addr ∧ amountIn (received keys receivers db scope st q
        (some (receivedAddressCandidates keys db scope addr))) addr =
          amountIn (received keys receivers db scope st q
            (addressFilter.map (receivedAddressCandidates keys db scope))) addr := by
  constructor
  · intro hall addressFilter addr hlistable
    obtain ⟨includeEmpty, hmem⟩ := listable_iff.mp hlistable
    have hentry := hall includeEmpty addressFilter _ (List.mem_map_of_mem hmem)
    rw [receivedEntry_amount, getReceivedByAddress_eq_ok] at hentry
    simpa [receivedEntry, hlistable.key_eq hkeys] using hentry
  · intro hall includeEmpty addressFilter entry hentry
    obtain ⟨addr, hmem, rfl⟩ := List.mem_map.mp hentry
    have hlistable : Listable keys receivers db scope st q addressFilter addr :=
      listable_iff.mpr ⟨includeEmpty, hmem⟩
    rw [receivedEntry_amount, getReceivedByAddress_eq_ok]
    simpa [receivedEntry, hlistable.key_eq hkeys] using hall addressFilter addr hlistable

/-- What is listed can be asked for exactly when every listable address is accepted and its
receipts are recorded where it looks. -/
theorem listedAnswered_iff_askable (hkeys : keys.Lawful) :
    ListedAnswered keys receivers db scope st q ↔ Askable keys receivers db scope st q := by
  rw [listedAnswered_iff hkeys]
  constructor
  · intro hall addressFilter addr hlistable
    obtain ⟨haccepted, hsame⟩ := hall addressFilter addr hlistable
    refine ⟨haccepted, fun r hr hfiled hpos => ?_⟩
    -- The receipt itself makes the address listable without a filter.
    have hunfiltered : Listable keys receivers db scope st q none addr := by
      constructor
      · intro f hf
        cases hf
      · exact .inl ⟨r, hr, rfl, hfiled⟩
    have htotal := (hall none addr hunfiltered).2
    constructor
    · exact (amountIn_received_eq_iff keys receivers db scope st q _ addr).mp htotal r hr hfiled
        hpos
    · exact (amountIn_received_eq_iff keys receivers db scope st q _ addr).mp
        (hsame.symm.trans htotal) r hr hfiled hpos
  · intro hask addressFilter addr hlistable
    obtain ⟨haccepted, hrecorded⟩ := hask addressFilter addr hlistable
    refine ⟨haccepted, ?_⟩
    have hquery := (amountIn_received_eq_iff keys receivers db scope st q
      (some (receivedAddressCandidates keys db scope addr)) addr).mpr
        fun r hr hfiled hpos => (hrecorded r hr hfiled hpos).1
    have hlisting := (amountIn_received_eq_iff keys receivers db scope st q
      (addressFilter.map (receivedAddressCandidates keys db scope)) addr).mpr
        fun r hr hfiled hpos => (hrecorded r hr hfiled hpos).2
    exact hquery.trans hlisting.symm

/-- Any encoding of an index is answered with the receipts at the index exactly when they are
recorded where it finds them, and what is listed can be asked for exactly when the receipts are
recorded where its address looks. -/
theorem received_at_index_iff (hkeys : keys.Lawful) (hdb : Derived keys db) :
    (∀ j addr, EncodesIndex keys a j addr →
      isMine keys db.toHistoryDb (.only a) addr = true →
        (getReceivedByAddress keys receivers db (.only a) st q addr =
            .ok (receivedAtIndex db st q.minconf a j) ↔
          RecordedForQuery keys receivers db st q.minconf a j addr)) ∧
    (ListedAnswered keys receivers db (.only a) st q ↔
      Askable keys receivers db (.only a) st q) := by
  constructor
  · intro j addr h hmine
    exact getReceivedByAddress_atIndex hkeys hdb h hmine
  · exact listedAnswered_iff_askable hkeys

/-! ## One receipt -/

def shieldedReceivers : ReceiverSet := ⟨[.orchard, .sapling], by decide⟩

/-- The key layer of one account, which has both receivers at its first index. -/
def oneAccountKeys : KeyLayer where
  decodeOnNetwork
    | "u-both" => some (.unified ⟨some 1, some 2, none⟩)
    | "u-orchard" => some (.unified ⟨some 1, none, none⟩)
    | "u-sapling" => some (.unified ⟨none, some 2, none⟩)
    | _ => none
  encode
    | ⟨some _, some _, _⟩ => "u-both"
    | ⟨some _, none, _⟩ => "u-orchard"
    | ⟨none, _, _⟩ => "u-sapling"
  orchardReceiverIndex a receiver := if a = 10 ∧ receiver = 1 then some (0, .external) else none
  saplingReceiverIndex a receiver := if a = 10 ∧ receiver = 2 then some (0, .external) else none
  listAddresses a := if a = 10 then ["u-both"] else []
  transparentReceivers _ := []

/-- A note of 500 paid to the Orchard receiver of the address the wallet handed out. -/
def oneReceipt : ReceivedDb where
  accounts := [⟨1, 10⟩]
  addresses := [⟨1, 0, "u-both", none, 0⟩]
  transactions := [HistoryDb.sampleTx]
  outputs
    | .shielded .orchard => [⟨1, 1, 0, 1, 500, false, none, some 1, none⟩]
    | _ => []
  spends _ := []
  sentNotes := []
  chainHeight := some 5
  blocks := [⟨5, "b5", 500⟩]
  uuid_ne_nil := oneAccount_uuid_ne_nil
  accounts_nodup := oneAccount_nodup
  uuids_nodup := oneAccount_uuids_nodup
  transactions_nodup := by decide
  outputs_nodup := by rintro (_ | _ | _ | _) <;> decide
  sentNotes_nodup := noSentNotes_nodup
  outputs_account := by rintro (_ | _ | _ | _) <;> decide
  sentNotes_account := noSentNotes_account
  txids_nodup := by decide
  addressAccount _ := 1

theorem filter_cases {α : Type} (o : Option α) (b : Bool) :
    (o.filter fun _ => b) = none ∨ (o.filter fun _ => b) = o := by
  cases o <;> cases b <;> simp

theorem keep_cases {ua kept : UnifiedReceivers} (h : ua.keep receivers = some kept) :
    (kept.orchard = none ∨ kept.orchard = ua.orchard) ∧
      (kept.sapling = none ∨ kept.sapling = ua.sapling) ∧ kept.transparent = none ∧
        ¬ (kept.orchard = none ∧ kept.sapling = none) := by
  simp only [UnifiedReceivers.keep, fromReceivers, Option.ite_none_left_eq_some] at h
  obtain ⟨hsome, hkept⟩ := h
  obtain rfl := Option.some.inj hkept
  refine ⟨filter_cases _ _, filter_cases _ _, rfl, fun hnone => hsome ?_⟩
  rw [Bool.and_eq_true, Option.isNone_iff_eq_none, Option.isNone_iff_eq_none]
  exact hnone

theorem oneAccountKeys_decode_encode (s : String) (ua : UnifiedReceivers)
    (receivers : ReceiverSet) (kept : UnifiedReceivers)
    (hdecode : oneAccountKeys.decodeOnNetwork s = some (.unified ua))
    (hkeep : ua.keep receivers = some kept) :
    oneAccountKeys.decodeOnNetwork (oneAccountKeys.encode kept) = some (.unified kept) := by
  obtain ⟨horchard, hsapling, htransparent, hsome⟩ := keep_cases hkeep
  rcases kept with ⟨orchard, sapling, transparent⟩
  dsimp only at horchard hsapling htransparent hsome
  subst htransparent
  simp only [oneAccountKeys] at hdecode
  split at hdecode
  all_goals cases hdecode
  all_goals
    rcases horchard with rfl | rfl <;> rcases hsapling with rfl | rfl
    all_goals first | rfl | exact absurd ⟨rfl, rfl⟩ hsome

theorem oneAccountKeys_lawful : oneAccountKeys.Lawful := by
  constructor
  · exact oneAccountKeys_decode_encode
  · intro a b receiver p q ha hb
    simp only [oneAccountKeys, Option.ite_none_right_eq_some] at ha hb
    exact ha.1.1.trans hb.1.1.symm
  · intro a b receiver p q ha hb
    simp only [oneAccountKeys, Option.ite_none_right_eq_some] at ha hb
    exact ha.1.1.trans hb.1.1.symm

theorem oneReceipt_outputs : outputsOf oneReceipt HistoryDb.sampleTx =
    [⟨.shielded .orchard, 0, none, some 10, some "u-both", 500, false, some 0, none, some 0⟩] := by
  decide +kernel

theorem oneReceipt_derived : Derived oneAccountKeys oneReceipt := by
  constructor
  · intro x hx b d haccount hdecode r hr
    obtain rfl := List.mem_singleton.mp hx
    cases haccount
    cases hdecode
    rcases List.mem_cons.mp hr with rfl | hr
    · exact ⟨.external, rfl, rfl⟩
    · obtain rfl := List.mem_singleton.mp hr
      exact ⟨.external, rfl, rfl⟩
  · intro t ht out hout _ b s d hb hs hdecode _
    obtain rfl := List.mem_singleton.mp ht
    rw [oneReceipt_outputs] at hout
    obtain rfl := List.mem_singleton.mp hout
    cases hb
    cases hs
    cases hdecode
    exact ⟨by decide, (.orchard, 1), List.mem_cons_self, 0, .external, rfl, rfl, rfl⟩

/-- The address handed out is answered with its receipt. -/
theorem oneReceipt_answered : getReceivedByAddress oneAccountKeys shieldedReceivers oneReceipt
    (.only 10) ⟨some 5⟩ ⟨1, false⟩ "u-both" =
      .ok (receivedAtIndex oneReceipt ⟨some 5⟩ 1 10 0) := by
  refine ((received_at_index_iff oneAccountKeys_lawful oneReceipt_derived).1 0 "u-both"
    ⟨.unified ⟨some 1, some 2, none⟩, rfl, by decide, by decide⟩
      (by decide)).mpr ?_
  intro t ht _ out hout _ _
  obtain rfl := List.mem_singleton.mp ht
  rw [oneReceipt_outputs] at hout
  obtain rfl := List.mem_singleton.mp hout
  exact ⟨"u-both", rfl, .inl rfl⟩

theorem oneReceipt_encodes : EncodesIndex oneAccountKeys 10 0 "u-orchard" :=
  ⟨.unified ⟨some 1, none, none⟩, rfl, by decide, by decide⟩

/-- The Orchard receiver of the same index, encoded on its own, is the wallet's too, and is
answered with nothing. -/
theorem oneReceipt_narrower : oneAccountKeys.Lawful ∧ Derived oneAccountKeys oneReceipt ∧
    EncodesIndex oneAccountKeys 10 0 "u-orchard" ∧
    isMine oneAccountKeys oneReceipt.toHistoryDb (.only 10) "u-orchard" = true ∧
    receivedAtIndex oneReceipt ⟨some 5⟩ 1 10 0 = 500 ∧
    getReceivedByAddress oneAccountKeys shieldedReceivers oneReceipt (.only 10) ⟨some 5⟩
      ⟨1, false⟩ "u-orchard" = .ok 0 := by
  have hmine : isMine oneAccountKeys oneReceipt.toHistoryDb (.only 10) "u-orchard" = true := by
    decide
  constructor
  · exact oneAccountKeys_lawful
  · constructor
    · exact oneReceipt_derived
    · constructor
      · exact oneReceipt_encodes
      · constructor
        · exact hmine
        · constructor
          · decide +kernel
          · rw [getReceivedByAddress_eq_ok]
            exact ⟨oneReceipt_encodes.accepted hmine, by decide +kernel⟩

end Zecd.ReceivedBy
