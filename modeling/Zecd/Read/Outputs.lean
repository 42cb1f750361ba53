import Mathlib
import Zecd.Foundation.Keyed
import Zecd.Read.History

/-! # One output of a transaction

The schema allows one received row and one sent row for an output of a transaction. The record
of the output is read off these two rows, and the outputs of a transaction are the keys that
have one of them.
-/

namespace Zecd.WalletDb

variable (db : WalletDb)

def receivedAt (idTx : ℕ) (pool : PoolType) (outputIndex : ℕ) : Option OutputRow :=
  (db.outputs pool).find? fun r => r.transactionId == idTx && r.outputIndex == outputIndex

/-- The account an output pays, of those in the database. -/
def paysTo (idTx : ℕ) (key : PoolType × ℕ) : Option AccountUuid :=
  (db.receivedAt idTx key.1 key.2).bind fun r => db.accountUuid r.accountId

def fundedBy (idTx : ℕ) (key : PoolType × ℕ) : Option AccountUuid :=
  (db.sentNoteAt idTx key.1 key.2).bind fun s => db.accountUuid s.fromAccountId

/-- Whether a received row landed on a scope that is never handed out. Without a recorded
address the change flag decides. -/
def internalScope (pool : PoolType) (r : OutputRow) : Bool :=
  match db.addressOf r with
  | some addr => addr.keyScope != externalKeyScope
  | none => decide (pool ≠ .transparent) && r.isChange

def onInternalScope (idTx : ℕ) (key : PoolType × ℕ) : Bool :=
  (db.receivedAt idTx key.1 key.2).any (db.internalScope key.1)

/-- The address recorded for an output: the one it was sent to, else the one it arrived at. -/
def recordedAddress (idTx : ℕ) (key : PoolType × ℕ) : Option String :=
  ((db.sentNoteAt idTx key.1 key.2).bind SentNoteRow.toAddress).or
    ((db.receivedAt idTx key.1 key.2).bind fun r => (db.addressOf r).bind fun addr =>
      if key.1 = .transparent then addr.cachedTransparentReceiverAddress else some addr.address)

variable {db} {idTx : ℕ} {pool : PoolType} {i : ℕ} {key : PoolType × ℕ} {r : OutputRow}
  {s : SentNoteRow} {a : AccountUuid}

theorem receivedAt_some (h : db.receivedAt idTx pool i = some r) :
    r ∈ db.outputs pool ∧ r.transactionId = idTx ∧ r.outputIndex = i := by
  have hp : r.transactionId = idTx ∧ r.outputIndex = i := by simpa using List.find?_some h
  exact ⟨List.mem_of_find?_eq_some h, hp⟩

theorem sentNoteAt_some (h : db.sentNoteAt idTx pool i = some s) :
    s ∈ db.sentNotes ∧ s.transactionId = idTx ∧ s.outputPool = pool ∧ s.outputIndex = i := by
  have hp : (s.transactionId = idTx ∧ s.outputPool = pool) ∧ s.outputIndex = i := by
    simpa using List.find?_some h
  exact ⟨List.mem_of_find?_eq_some h, hp.1.1, hp.1.2, hp.2⟩

theorem receivedAt_eq_some (hr : r ∈ db.outputs pool) :
    db.receivedAt r.transactionId pool r.outputIndex = some r :=
  Keyed.find?_eq_some (db.outputs_nodup pool) (by simp) hr rfl

theorem sentNoteAt_eq_some (hs : s ∈ db.sentNotes) :
    db.sentNoteAt s.transactionId s.outputPool s.outputIndex = some s :=
  Keyed.find?_eq_some db.sentNotes_nodup (by simp [and_assoc]) hs rfl

theorem exists_paysTo (h : db.receivedAt idTx key.1 key.2 = some r) :
    ∃ b, db.paysTo idTx key = some b := by
  obtain ⟨x, hx, hid⟩ := List.mem_map.mp (db.outputs_account key.1 r (receivedAt_some h).1)
  have hfound : db.accounts.find? (·.id == r.accountId) = some x :=
    Keyed.find?_eq_some db.accounts_nodup (by simp) hx hid
  exact ⟨x.uuid, by simp [paysTo, h, accountUuid, hfound]⟩

theorem scopeById_only (id : ℕ) :
    db.scopeById (.only a) id = (db.accountUuid id == some a) := by
  have hiff : db.accountId a = some id ↔ db.accountUuid id = some a := by
    unfold accountId accountUuid
    constructor
    · intro h
      obtain ⟨x, hx, rfl⟩ := Option.map_eq_some_iff.mp h
      have huuid : x.uuid = a := by simpa using List.find?_some hx
      rw [Keyed.find?_eq_some db.accounts_nodup (by simp) (List.mem_of_find?_eq_some hx) rfl,
        Option.map_some, huuid]
    · intro h
      obtain ⟨x, hx, rfl⟩ := Option.map_eq_some_iff.mp h
      have hid : x.id = id := by simpa using List.find?_some hx
      rw [Keyed.find?_eq_some db.uuids_nodup (by simp) (List.mem_of_find?_eq_some hx) rfl,
        Option.map_some, hid]
  unfold scopeById
  rw [Bool.eq_iff_iff]
  simpa [AccountScope.param] using hiff

theorem unioned_filter :
    ((db.unioned idTx).filter fun row => row.pool == pool && row.outputIndex == i) =
      ((db.receivedAt idTx pool i).map (db.receivedRow pool)).toList ++
        ((db.sentNoteAt idTx pool i).map db.sentRow).toList := by
  have hreceived : ((allPools.flatMap fun pool' =>
      ((db.outputs pool').filter (·.transactionId == idTx)).map (db.receivedRow pool')).filter
        fun row => row.pool == pool && row.outputIndex == i) =
      ((db.receivedAt idTx pool i).map (db.receivedRow pool)).toList := by
    have hpool : ∀ pool', ((((db.outputs pool').filter (·.transactionId == idTx)).map
        (db.receivedRow pool')).filter fun row => row.pool == pool && row.outputIndex == i) =
        if pool' = pool then ((db.receivedAt idTx pool i).map (db.receivedRow pool)).toList
        else [] := by
      intro pool'
      rw [List.filter_map, List.filter_filter]
      split
      · next heq =>
        subst heq
        rw [receivedAt, Option.toList_map, ← Keyed.filter_eq_find? (db.outputs_nodup pool')
          (k := (idTx, i)) (by simp)]
        congr 1
        apply List.filter_congr
        intro r _
        simp [receivedRow, Bool.and_comm]
      · next hne =>
        simp [receivedRow, hne]
    rw [List.filter_flatMap]
    simp only [hpool]
    rcases pool with _ | _ | _ | _ <;> simp [allPools]
  have hsent : (((db.sentNotes.filter (·.transactionId == idTx)).map db.sentRow).filter
      fun row => row.pool == pool && row.outputIndex == i) =
      ((db.sentNoteAt idTx pool i).map db.sentRow).toList := by
    rw [List.filter_map, List.filter_filter, sentNoteAt, Option.toList_map,
      ← Keyed.filter_eq_find? db.sentNotes_nodup (k := (idTx, pool, i)) (by simp [and_assoc])]
    congr 1
    apply List.filter_congr
    intro s _
    simp only [Function.comp, sentRow]
    rw [Bool.and_comm, Bool.and_assoc]
  rw [unioned, List.filter_append, hreceived, hsent]

/-! ## The record of an output -/

theorem sqlMax_pair_self {α : Type} [LinearOrder α] (x : Option α) : sqlMax [x, x] = x := by
  cases x with
  | none => rfl
  | some x => simp [sqlMax]

theorem sqlMax_pair_none {α : Type} [LinearOrder α] (x : Option α) : sqlMax [x, none] = x := by
  cases x with
  | none => rfl
  | some x => simp [sqlMax]

theorem sqlMax_nil {α : Type} [Max α] : sqlMax ([] : List (Option α)) = none := rfl

theorem sqlMax_singleton {α : Type} [Max α] (x : Option α) : sqlMax [x] = x := by
  cases x with
  | none => rfl
  | some x => simp [sqlMax]

theorem outputAt_eq : db.outputAt idTx key = aggregate key.1 key.2
    (((db.receivedAt idTx key.1 key.2).map (db.receivedRow key.1)).toList ++
      ((db.sentNoteAt idTx key.1 key.2).map db.sentRow).toList) := by
  rw [outputAt, unioned_filter]

@[simp] theorem outputAt_pool : (db.outputAt idTx key).pool = key.1 := rfl
@[simp] theorem outputAt_outputIndex : (db.outputAt idTx key).outputIndex = key.2 := rfl

theorem receivedRow_fromAccount (h : db.receivedAt idTx pool i = some r) :
    (db.receivedRow pool r).fromAccount = db.fundedBy idTx (pool, i) := by
  obtain ⟨-, rfl, rfl⟩ := receivedAt_some h
  rfl

@[simp] theorem outputAt_fromAccount :
    (db.outputAt idTx key).fromAccount = db.fundedBy idTx key := by
  rw [outputAt_eq]
  cases hr : db.receivedAt idTx key.1 key.2 with
  | none =>
    cases hs : db.sentNoteAt idTx key.1 key.2 with
    | none => simp [aggregate, fundedBy, hs, sqlMax]
    | some s => simp [aggregate, fundedBy, hs, sqlMax_singleton, sentRow]
  | some r =>
    have hfrom := receivedRow_fromAccount hr
    cases hs : db.sentNoteAt idTx key.1 key.2 with
    | none => simp [aggregate, hfrom, sqlMax_singleton]
    | some s =>
      have hsent : (db.sentRow s).fromAccount = db.fundedBy idTx key := by
        simp [sentRow, fundedBy, hs]
      simp [aggregate, hfrom, hsent, sqlMax_pair_self]

@[simp] theorem outputAt_toAccount : (db.outputAt idTx key).toAccount = db.paysTo idTx key := by
  rw [outputAt_eq, paysTo]
  cases hr : db.receivedAt idTx key.1 key.2 with
  | none => cases hs : db.sentNoteAt idTx key.1 key.2 <;> simp [aggregate, sqlMax, sentRow]
  | some r =>
    cases hs : db.sentNoteAt idTx key.1 key.2 with
    | none => simp [aggregate, sqlMax_singleton, receivedRow]
    | some s => simp [aggregate, sqlMax_pair_none, receivedRow, sentRow]

@[simp] theorem outputAt_toAddress :
    (db.outputAt idTx key).toAddress = db.recordedAddress idTx key := by
  rw [outputAt_eq, recordedAddress]
  cases hr : db.receivedAt idTx key.1 key.2 with
  | none =>
    cases hs : db.sentNoteAt idTx key.1 key.2 with
    | none => simp [aggregate, sqlMax]
    | some s => simp [aggregate, sqlMax_singleton, sqlMax_nil, sentRow]
  | some r =>
    cases hs : db.sentNoteAt idTx key.1 key.2 with
    | none => simp [aggregate, sqlMax_singleton, sqlMax_nil, receivedRow]
    | some s => simp [aggregate, sqlMax_singleton, receivedRow, sentRow]

@[simp] theorem outputAt_isInternalChange :
    (db.outputAt idTx key).isInternalChange = db.onInternalScope idTx key := by
  rw [outputAt_eq, onInternalScope]
  cases hr : db.receivedAt idTx key.1 key.2 with
  | none =>
    cases hs : db.sentNoteAt idTx key.1 key.2 <;>
      simp [aggregate, sqlMax, sentRow, TxOutputRecord.isInternalChange]
  | some r =>
    have hscope : ∀ s : Option SentNoteRow, (aggregate key.1 key.2
        (db.receivedRow key.1 r :: (s.map db.sentRow).toList)).recipientKeyScope =
        (db.addressOf r).map AddressRow.keyScope := by
      rintro (_ | s)
      · simp [aggregate, sqlMax_singleton, receivedRow]
      · simp [aggregate, sqlMax_pair_none, receivedRow, sentRow]
    simp only [Option.map_some, Option.toList_some, List.singleton_append, Option.any_some]
    unfold TxOutputRecord.isInternalChange internalScope
    rw [hscope]
    cases db.addressOf r with
    | some addr => rfl
    | none => cases hs : db.sentNoteAt idTx key.1 key.2 <;> simp [aggregate, receivedRow, sentRow]

/-! ## The outputs of a transaction -/

theorem mem_outputKeys : key ∈ db.outputKeys idTx ↔
    (db.receivedAt idTx key.1 key.2).isSome ∨ (db.sentNoteAt idTx key.1 key.2).isSome := by
  have hrows : key ∈ db.outputKeys idTx ↔
      ((db.unioned idTx).filter fun row => row.pool == key.1 && row.outputIndex == key.2) ≠ [] := by
    rw [outputKeys, List.mem_mergeSort, List.mem_dedup, List.mem_map, Ne,
      List.filter_eq_nil_iff]
    constructor
    · rintro ⟨row, hrow, rfl⟩ hnone
      exact hnone row hrow (by simp)
    · intro hsome
      push Not at hsome
      obtain ⟨row, hrow, hkey⟩ := hsome
      simp only [Bool.and_eq_true, beq_iff_eq] at hkey
      exact ⟨row, hrow, Prod.ext hkey.1 hkey.2⟩
  rw [hrows, unioned_filter]
  cases db.receivedAt idTx key.1 key.2 <;> cases db.sentNoteAt idTx key.1 key.2 <;> simp

theorem outputAt_value {v : ℤ} (hkey : key ∈ db.outputKeys idTx)
    (hr : ∀ r ∈ db.receivedAt idTx key.1 key.2, r.value = v)
    (hs : ∀ s ∈ db.sentNoteAt idTx key.1 key.2, s.value = v) :
    (db.outputAt idTx key).value = v := by
  rw [mem_outputKeys] at hkey
  rw [outputAt_eq]
  cases hrow : db.receivedAt idTx key.1 key.2 with
  | none =>
    cases hsent : db.sentNoteAt idTx key.1 key.2 with
    | none => simp [hrow, hsent] at hkey
    | some s => simp [aggregate, sqlMax_singleton, sentRow, hs s hsent]
  | some r =>
    cases hsent : db.sentNoteAt idTx key.1 key.2 with
    | none => simp [aggregate, sqlMax_singleton, receivedRow, hr r hrow]
    | some s => simp [aggregate, receivedRow, sentRow, hr r hrow, hs s hsent, sqlMax_pair_self]

theorem nodup_outputKeys : (db.outputKeys idTx).Nodup :=
  (List.mergeSort_perm _ _).nodup_iff.mpr (List.nodup_dedup _)

def outputOf (db : WalletDb) (idTx : ℕ) (omitMemos : Bool) (key : PoolType × ℕ) :
    TxOutputRecord :=
  if omitMemos then { db.outputAt idTx key with memo := none } else db.outputAt idTx key

theorem loadOutputs_only (omitMemos : Bool) :
    db.loadOutputs (.only a) idTx omitMemos = ((db.outputKeys idTx).filter fun key =>
      db.paysTo idTx key == some a || db.fundedBy idTx key == some a).map
        (db.outputOf idTx omitMemos) := by
  have hfilter : (((db.outputKeys idTx).map (db.outputAt idTx)).filter fun out =>
      scopeByUuid (.only a) out.toAccount || scopeByUuid (.only a) out.fromAccount) =
      ((db.outputKeys idTx).filter fun key =>
        db.paysTo idTx key == some a || db.fundedBy idTx key == some a).map
          (db.outputAt idTx) := by
    rw [List.filter_map]
    congr 1
    apply List.filter_congr
    intro key _
    simp [scopeByUuid, AccountScope.param]
  unfold loadOutputs
  rw [hfilter]
  cases omitMemos with
  | false => rfl
  | true => simp [outputOf, Function.comp_def]

theorem loadOutputs_any : db.loadOutputs .any idTx false =
    (db.outputKeys idTx).map (db.outputAt idTx) := by
  simp [loadOutputs, scopeByUuid, AccountScope.param]

end Zecd.WalletDb
