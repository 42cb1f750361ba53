import Mathlib
import Zecd.Read.Attribution

/-! # What the details of a transaction add up to

The amount of a transaction comes from the account's balance, the amounts of its details from
its outputs. Both are sums over the outputs of the transaction, and are compared output by
output: for a transaction the account funded, an output adds what it does not pay the account;
for one it did not fund, what it pays it.
-/

namespace Zecd.HistoryDb

variable {db : HistoryDb} {a : AccountUuid} {t : TransactionRow} {key : PoolType × ℕ}
  {codec : AddressCodec} {tx : TxRecord} {outputs : List ((PoolType × ℕ) × ℤ)}

theorem sum_filter_map {α : Type} (l : List α) (p : α → Bool) (f : α → ℤ) :
    ((l.filter p).map f).sum = (l.map fun x => if p x then f x else 0).sum := by
  induction l with
  | nil => rfl
  | cons x l ih => cases hp : p x <;> simp [hp, ih]

theorem sum_filterMap_map {α β : Type} (l : List α) (f : α → Option β) (g : β → ℤ) :
    ((l.filterMap f).map g).sum = (l.map fun x => ((f x).map g).getD 0).sum := by
  induction l with
  | nil => rfl
  | cons x l ih => cases hf : f x <;> simp [hf, ih]

def detailShare (out : TxOutputRecord) : ℤ :=
  if out.isInternalChange then 0
  else ((outputCategories out.fromAccount.isSome out.toAccount.isSome).map
    fun c => c.amount out.value).sum

theorem sum_outputEntries (outs : List TxOutputRecord) :
    ((outputEntries (entryCore codec tx) outs).map EntryCore.amount).sum =
      (outs.map detailShare).sum := by
  induction outs with
  | nil => rfl
  | cons out outs ih =>
    unfold outputEntries at ih ⊢
    cases hint : out.isInternalChange with
    | true =>
      rw [List.filter_cons_of_neg (by simp [hint]), ih]
      simp [detailShare, hint]
    | false =>
      rw [List.filter_cons_of_pos (by simp [hint]), List.flatMap_cons, List.map_append,
        List.sum_append, ih, List.map_cons, List.sum_cons, List.map_map]
      simp [detailShare, hint, Function.comp_def, entryCore]

theorem sum_details (omitMemos : Bool) :
    ((gettransactionDetails codec (db.txRecord (.only a) omitMemos t)).map
        fun e => e.amount).sum =
      ((db.outputKeys t.idTx).map fun key =>
        if db.paysTo t.idTx key == some a || db.fundedBy t.idTx key == some a then
          detailShare (db.outputAt t.idTx key) else 0).sum := by
  have hcore : (gettransactionDetails codec (db.txRecord (.only a) omitMemos t)).map
      DetailEntry.toEntryCore = _ := map_outputEntries (fun _ _ => rfl) _
  have hamount : (gettransactionDetails codec (db.txRecord (.only a) omitMemos t)).map
      (fun e => e.amount) = ((gettransactionDetails codec
        (db.txRecord (.only a) omitMemos t)).map DetailEntry.toEntryCore).map EntryCore.amount := by
    rw [List.map_map]
    rfl
  have hmemo : ∀ key, detailShare (db.outputOf t.idTx omitMemos key) =
      detailShare (db.outputAt t.idTx key) := by
    intro key
    unfold WalletDb.outputOf
    split
    · rfl
    · rfl
  have houtputs : (db.txRecord (.only a) omitMemos t).outputs =
      db.loadOutputs (.only a) t.idTx omitMemos := rfl
  rw [hamount, hcore, sum_outputEntries, houtputs, WalletDb.loadOutputs_only, List.map_map,
    ← sum_filter_map]
  simp [Function.comp_def, hmemo]

def receivedPairs (db : HistoryDb) (t : TransactionRow) : List (PoolType × OutputRow) :=
  allPools.flatMap fun pool =>
    ((db.outputs pool).filter (·.transactionId == t.idTx)).map (pool, ·)

theorem mem_allPools (pool : PoolType) : pool ∈ allPools := by
  rcases pool with _ | _ | _ | _ <;> decide

theorem mem_receivedPairs {x : PoolType × OutputRow} : x ∈ db.receivedPairs t ↔
    x.2 ∈ db.outputs x.1 ∧ x.2.transactionId = t.idTx := by
  unfold receivedPairs
  simp only [List.mem_flatMap, List.mem_map, List.mem_filter, beq_iff_eq]
  constructor
  · rintro ⟨pool, -, r, hr, rfl⟩
    exact hr
  · intro h
    exact ⟨x.1, mem_allPools x.1, x.2, h, rfl⟩

theorem nodup_receivedPairs : (db.receivedPairs t).Nodup := by
  unfold receivedPairs
  apply List.nodup_flatMap.mpr
  constructor
  · intro pool _
    apply List.Nodup.map
    · exact fun r r' h => (Prod.mk.inj h).2
    · exact ((db.outputs_nodup pool).of_map _).filter _
  · have hpools : allPools.Pairwise (· ≠ ·) := by decide
    apply hpools.imp
    intro pool pool' hne x hx hx'
    obtain ⟨r, -, rfl⟩ := List.mem_map.mp hx
    obtain ⟨r', -, heq⟩ := List.mem_map.mp hx'
    exact hne (Prod.mk.inj heq).1.symm

theorem receivedPairs_perm : ((db.outputKeys t.idTx).filterMap fun key =>
    (db.receivedAt t.idTx key.1 key.2).map (key.1, ·)).Perm (db.receivedPairs t) := by
  apply (List.perm_ext_iff_of_nodup _ nodup_receivedPairs).mpr
  · intro x
    rw [mem_receivedPairs, List.mem_filterMap]
    constructor
    · rintro ⟨key, -, hx⟩
      obtain ⟨r, hr, rfl⟩ := Option.map_eq_some_iff.mp hx
      obtain ⟨hmem, htx, -⟩ := WalletDb.receivedAt_some hr
      exact ⟨hmem, htx⟩
    · rintro ⟨hmem, htx⟩
      have hr := WalletDb.receivedAt_eq_some hmem
      rw [htx] at hr
      exact ⟨(x.1, x.2.outputIndex), WalletDb.mem_outputKeys.mpr (Or.inl (by rw [hr]; rfl)),
        by rw [hr]; rfl⟩
  · apply List.Nodup.filterMap _ WalletDb.nodup_outputKeys
    intro key key' x hx hx'
    obtain ⟨r, hr, rfl⟩ := Option.map_eq_some_iff.mp hx
    obtain ⟨r', hr', heq⟩ := Option.map_eq_some_iff.mp hx'
    obtain ⟨hpool, rfl⟩ := Prod.mk.inj heq
    exact Prod.ext hpool.symm
      ((WalletDb.receivedAt_some hr).2.2.symm.trans (WalletDb.receivedAt_some hr').2.2)

def paidValue (db : HistoryDb) (a : AccountUuid) (t : TransactionRow) (key : PoolType × ℕ) : ℤ :=
  ((db.receivedAt t.idTx key.1 key.2).map fun r =>
    if db.accountUuid r.accountId == some a then r.value else 0).getD 0

/-- The balance delta is what the outputs pay the account less what it spends. -/
theorem accountBalanceDelta_eq : db.accountBalanceDelta (.only a) t.idTx =
    ((db.outputKeys t.idTx).map (db.paidValue a t)).sum - (db.spentBy a t).sum := by
  have hreceived : ((((allPools.flatMap fun pool =>
      ((db.outputs pool).filter (·.transactionId == t.idTx)).map fun r => (r.accountId, r.value))
        ).filter fun x => db.scopeById (.only a) x.1).map Prod.snd).sum =
      ((db.outputKeys t.idTx).map (db.paidValue a t)).sum := by
    have hpairs : (allPools.flatMap fun pool => ((db.outputs pool).filter
        (·.transactionId == t.idTx)).map fun r => (r.accountId, r.value)) =
        (db.receivedPairs t).map fun x => (x.2.accountId, x.2.value) := by
      simp [receivedPairs, List.map_flatMap, Function.comp_def]
    rw [hpairs, sum_filter_map, List.map_map, ← (receivedPairs_perm.map _).sum_eq,
      sum_filterMap_map]
    congr 1
    apply List.map_congr_left
    intro key _
    rw [paidValue, Option.map_map]
    congr 1
    simp [Function.comp_def, WalletDb.scopeById_only]
  have hspent : ((((allPools.flatMap fun pool =>
      ((db.spends pool).filter (·.transactionId == t.idTx)).flatMap fun s =>
        ((db.outputs pool).filter (·.id == s.outputId)).map fun r => (r.accountId, -r.value))
        ).filter fun x => db.scopeById (.only a) x.1).map Prod.snd).sum =
      -(db.spentBy a t).sum := by
    have hlist : (((allPools.flatMap fun pool =>
        ((db.spends pool).filter (·.transactionId == t.idTx)).flatMap fun s =>
          ((db.outputs pool).filter (·.id == s.outputId)).map fun r => (r.accountId, -r.value))
          ).filter fun x => db.scopeById (.only a) x.1).map Prod.snd =
        (db.spentBy a t).map (- ·) := by
      simp only [spentBy, List.filter_flatMap, List.map_flatMap, List.filter_map, List.map_map,
        WalletDb.scopeById_only, Function.comp_def]
    rw [hlist]
    exact (List.sum_neg _).symm
  unfold WalletDb.accountBalanceDelta WalletDb.mineNotes WalletDb.balanceNotes
  rw [List.filter_append, List.map_append, List.sum_append, hreceived, hspent, sub_eq_add_neg]

theorem AddsUp.mem_of_received (h : db.AddsUp a t outputs) {r : OutputRow}
    (hr : db.receivedAt t.idTx key.1 key.2 = some r) : (key, r.value) ∈ outputs := by
  obtain ⟨hmem, htx, hindex⟩ := WalletDb.receivedAt_some hr
  have hout := h.received key.1 r hmem htx
  rwa [hindex] at hout

theorem AddsUp.value_eq (h : db.AddsUp a t outputs) {o : (PoolType × ℕ) × ℤ} (ho : o ∈ outputs)
    (hkey : o.1 ∈ db.outputKeys t.idTx) : (db.outputAt t.idTx o.1).value = o.2 := by
  have hunique : ∀ v, (o.1, v) ∈ outputs → v = o.2 := by
    intro v hv
    exact congrArg Prod.snd (List.inj_on_of_nodup_map h.keys_nodup hv ho rfl)
  apply WalletDb.outputAt_value hkey
  · intro r hr
    exact hunique _ (h.mem_of_received hr)
  · intro s hs
    obtain ⟨hmem, htx, hpool, hindex⟩ := WalletDb.sentNoteAt_some hs
    apply hunique
    have hv := h.sent s hmem htx
    rwa [hpool, hindex] at hv

theorem AddsUp.exists_output (h : db.AddsUp a t outputs) (hkey : key ∈ db.outputKeys t.idTx) :
    ∃ v, (key, v) ∈ outputs := by
  rcases WalletDb.mem_outputKeys.mp hkey with hr | hs
  · obtain ⟨r, hr⟩ := Option.isSome_iff_exists.mp hr
    exact ⟨r.value, h.mem_of_received hr⟩
  · obtain ⟨s, hs⟩ := Option.isSome_iff_exists.mp hs
    obtain ⟨hmem, htx, hpool, hindex⟩ := WalletDb.sentNoteAt_some hs
    have hv := h.sent s hmem htx
    rw [hpool, hindex] at hv
    exact ⟨s.value, hv⟩

theorem AddsUp.value_nonneg (h : db.AddsUp a t outputs) (hkey : key ∈ db.outputKeys t.idTx) :
    0 ≤ (db.outputAt t.idTx key).value := by
  obtain ⟨v, hv⟩ := h.exists_output hkey
  rw [h.value_eq hv hkey]
  exact h.nonneg _ hv

theorem AddsUp.paidValue_eq (h : db.AddsUp a t outputs) (hkey : key ∈ db.outputKeys t.idTx) :
    db.paidValue a t key =
      if db.paysTo t.idTx key = some a then (db.outputAt t.idTx key).value else 0 := by
  cases hr : db.receivedAt t.idTx key.1 key.2 with
  | none => simp [paidValue, WalletDb.paysTo, hr]
  | some r =>
    have hvalue : (db.outputAt t.idTx key).value = r.value :=
      h.value_eq (h.mem_of_received hr) hkey
    simp [paidValue, WalletDb.paysTo, hr, hvalue]

theorem AddsUp.sum_outputs (h : db.AddsUp a t outputs)
    (hrecorded : ∀ o ∈ outputs, o.1 ∈ db.outputKeys t.idTx) : (outputs.map Prod.snd).sum =
      ((db.outputKeys t.idTx).map fun key => (db.outputAt t.idTx key).value).sum := by
  have hkeys : (outputs.map Prod.fst).Perm (db.outputKeys t.idTx) := by
    apply (List.perm_ext_iff_of_nodup h.keys_nodup WalletDb.nodup_outputKeys).mpr
    intro key
    constructor
    · intro hkey
      obtain ⟨o, ho, rfl⟩ := List.mem_map.mp hkey
      exact hrecorded o ho
    · intro hkey
      obtain ⟨v, hv⟩ := h.exists_output hkey
      exact List.mem_map.mpr ⟨_, hv, rfl⟩
  have hvalues : outputs.map Prod.snd =
      (outputs.map Prod.fst).map fun key => (db.outputAt t.idTx key).value := by
    rw [List.map_map]
    apply List.map_congr_left
    intro o ho
    exact (h.value_eq ho (hrecorded o ho)).symm
  rw [hvalues, (hkeys.map _).sum_eq]

theorem share_of_funded (hno : db.NoCounterparty a t) (h : db.AddsUp a t outputs)
    (hkey : key ∈ db.outputKeys t.idTx)
    (hrecorded : db.fundedBy t.idTx key = some a ∨ db.paysInternally a t key = true) :
    (if db.paysTo t.idTx key == some a || db.fundedBy t.idTx key == some a then
      detailShare (db.outputAt t.idTx key) else 0) =
      db.paidValue a t key - (db.outputAt t.idTx key).value := by
  rw [h.paidValue_eq hkey]
  unfold detailShare
  rw [WalletDb.outputAt_isInternalChange, WalletDb.outputAt_fromAccount,
    WalletDb.outputAt_toAccount]
  rcases hrecorded with hfunded | hown
  · cases hpays : db.paysTo t.idTx key with
    | none =>
      have hint : db.onInternalScope t.idTx key = false := by
        cases hr : db.receivedAt t.idTx key.1 key.2 with
        | none => simp [WalletDb.onInternalScope, hr]
        | some r =>
          obtain ⟨b, hb⟩ := WalletDb.exists_paysTo hr
          rw [hpays] at hb
          cases hb
      simp [hfunded, hint, outputCategories, Category.amount]
    | some b =>
      obtain rfl := (hno key).1 hfunded b hpays
      cases hint : db.onInternalScope t.idTx key with
      | true => simp
      | false => simp [hfunded, outputCategories, Category.amount]
  · simp only [paysInternally, Bool.and_eq_true, beq_iff_eq] at hown
    simp [hown.1, hown.2]

theorem share_of_unfunded (hno : db.NoCounterparty a t) (h : db.AddsUp a t outputs)
    (hkey : key ∈ db.outputKeys t.idTx) (hfunded : db.fundedBy t.idTx key ≠ some a) :
    (if db.paysTo t.idTx key == some a || db.fundedBy t.idTx key == some a then
      detailShare (db.outputAt t.idTx key) else 0) =
      db.paidValue a t key -
        if db.paysInternally a t key then (db.outputAt t.idTx key).value else 0 := by
  rw [h.paidValue_eq hkey]
  unfold detailShare
  rw [WalletDb.outputAt_isInternalChange, WalletDb.outputAt_fromAccount,
    WalletDb.outputAt_toAccount]
  by_cases hpays : db.paysTo t.idTx key = some a
  · cases hint : db.onInternalScope t.idTx key with
    | true => simp [hpays, hint, paysInternally]
    | false =>
      have hnone : db.fundedBy t.idTx key = none := by
        cases hb : db.fundedBy t.idTx key with
        | none => rfl
        | some b =>
          have heq := (hno key).2 (by simp [paysExternally, hpays, hint]) b hb
          exact absurd (heq ▸ hb) hfunded
      simp [hpays, hint, hnone, paysInternally, outputCategories, Category.amount]
  · simp [hpays, hfunded, paysInternally]

theorem mem_outputKeys_of_recorded
    (h : db.fundedBy t.idTx key = some a ∨ db.paysInternally a t key = true) :
    key ∈ db.outputKeys t.idTx := by
  rcases h with hfunded | hown
  · exact mem_outputKeys_of_fundedBy hfunded
  · simp only [paysInternally, Bool.and_eq_true, beq_iff_eq] at hown
    exact mem_outputKeys_of_paysTo hown.1

theorem sum_map_sub {α : Type} (l : List α) (f g : α → ℤ) :
    (l.map fun x => f x - g x).sum = (l.map f).sum - (l.map g).sum := by
  induction l with
  | nil => rfl
  | cons x l ih =>
    simp only [List.map_cons, List.sum_cons, ih]
    omega

theorem sum_details_of_funded (hno : db.NoCounterparty a t) (h : db.AddsUp a t outputs)
    (hrecorded : ∀ o ∈ outputs,
      db.fundedBy t.idTx o.1 = some a ∨ db.paysInternally a t o.1 = true) (omitMemos : Bool) :
    ((gettransactionDetails codec (db.txRecord (.only a) omitMemos t)).map
        fun e => e.amount).sum =
      ((db.outputKeys t.idTx).map (db.paidValue a t)).sum - (outputs.map Prod.snd).sum := by
  have hkeys : ∀ o ∈ outputs, o.1 ∈ db.outputKeys t.idTx := fun o ho =>
    mem_outputKeys_of_recorded (hrecorded o ho)
  rw [sum_details, h.sum_outputs hkeys, ← sum_map_sub]
  congr 1
  apply List.map_congr_left
  intro key hkey
  obtain ⟨v, hv⟩ := h.exists_output hkey
  exact share_of_funded hno h hkey (hrecorded _ hv)

theorem sum_details_of_unfunded (hno : db.NoCounterparty a t) (h : db.AddsUp a t outputs)
    (hunfunded : ∀ o ∈ outputs, db.fundedBy t.idTx o.1 ≠ some a) (omitMemos : Bool) :
    ((gettransactionDetails codec (db.txRecord (.only a) omitMemos t)).map
        fun e => e.amount).sum =
      ((db.outputKeys t.idTx).map (db.paidValue a t)).sum -
        ((db.outputKeys t.idTx).map fun key =>
          if db.paysInternally a t key then (db.outputAt t.idTx key).value else 0).sum := by
  rw [sum_details, ← sum_map_sub]
  congr 1
  apply List.map_congr_left
  intro key hkey
  obtain ⟨v, hv⟩ := h.exists_output hkey
  exact share_of_unfunded hno h hkey (hunfunded _ hv)

theorem AddsUp.sum_paid_nonneg (h : db.AddsUp a t outputs) :
    0 ≤ ((db.outputKeys t.idTx).map (db.paidValue a t)).sum := by
  apply List.sum_nonneg
  intro x hx
  obtain ⟨key, hkey, rfl⟩ := List.mem_map.mp hx
  rw [h.paidValue_eq hkey]
  split
  · exact h.value_nonneg hkey
  · exact le_rfl

theorem AddsUp.sum_paid_le (h : db.AddsUp a t outputs)
    (hkeys : ∀ o ∈ outputs, o.1 ∈ db.outputKeys t.idTx) :
    ((db.outputKeys t.idTx).map (db.paidValue a t)).sum ≤ (outputs.map Prod.snd).sum := by
  rw [h.sum_outputs hkeys]
  apply List.sum_le_sum
  intro key hkey
  rw [h.paidValue_eq hkey]
  split
  · exact le_rfl
  · exact h.value_nonneg hkey

theorem amount_of_unspent (h : db.AddsUp a t outputs) (hspent : db.spentBy a t = []) :
    gettransactionAmount (db.accountBalanceDelta (.only a) t.idTx) t.fee =
      ((db.outputKeys t.idTx).map (db.paidValue a t)).sum := by
  have hpaid := h.sum_paid_nonneg
  rw [accountBalanceDelta_eq, hspent, List.sum_nil, sub_zero]
  unfold gettransactionAmount walletFundedTx
  rw [if_neg (by simpa using hpaid)]

/-- While no other account stands opposite to an output, the details add up exactly when no
change comes from a transaction the account did not fund. -/
theorem detailsAddUp_iff (hno : db.NoCounterparty a t) :
    db.DetailsAddUp a t ↔ db.NoForeignChange a t := by
  constructor
  · intro hadd outputs h hspent key r hr hown
    have hkey : key ∈ db.outputKeys t.idTx :=
      WalletDb.mem_outputKeys.mpr (Or.inl (by rw [Option.mem_def.mp hr]; rfl))
    have hout := h.mem_of_received hr
    rcases h.funding with ⟨fee, hfee, hsum, -⟩ | ⟨-, hunfunded⟩
    · -- Without inputs there is nothing to pay out.
      have hvalues : ∀ v ∈ outputs.map Prod.snd, 0 ≤ v := by
        intro v hv
        obtain ⟨o, ho, rfl⟩ := List.mem_map.mp hv
        exact h.nonneg o ho
      have hzero : (outputs.map Prod.snd).sum = 0 := by
        have hle := List.sum_nonneg hvalues
        rw [hspent, List.sum_nil] at hsum
        omega
      exact List.all_zero_of_le_zero_le_of_sum_eq_zero hvalues hzero
        (List.mem_map.mpr ⟨_, hout, rfl⟩)
    · have heq := hadd outputs h plainCodec false
      rw [sum_details_of_unfunded hno h hunfunded, amount_of_unspent h hspent] at heq
      have hvalues : ∀ v ∈ (db.outputKeys t.idTx).map fun key =>
          if db.paysInternally a t key then (db.outputAt t.idTx key).value else 0, 0 ≤ v := by
        intro v hv
        obtain ⟨key, hkey, rfl⟩ := List.mem_map.mp hv
        split
        · exact h.value_nonneg hkey
        · exact le_rfl
      have hzero := List.all_zero_of_le_zero_le_of_sum_eq_zero hvalues (by omega)
        (List.mem_map.mpr ⟨key, hkey, rfl⟩)
      rw [if_pos hown] at hzero
      exact (h.value_eq hout hkey).symm.trans hzero
  · intro hchange outputs h codec omitMemos
    rcases h.funding with ⟨fee, hfee, hsum, hrecorded⟩ | ⟨hspent, hunfunded⟩
    · have hle := h.sum_paid_le fun o ho => mem_outputKeys_of_recorded (hrecorded o ho)
      rw [sum_details_of_funded hno h hrecorded, accountBalanceDelta_eq, hfee]
      unfold gettransactionAmount walletFundedTx
      simp only [Option.getD_some, decide_eq_true_eq]
      split
      · omega
      · omega
    · rw [sum_details_of_unfunded hno h hunfunded, amount_of_unspent h hspent]
      have hzero : ((db.outputKeys t.idTx).map fun key =>
          if db.paysInternally a t key then (db.outputAt t.idTx key).value else 0).sum = 0 := by
        apply List.sum_eq_zero
        intro v hv
        obtain ⟨key, hkey, rfl⟩ := List.mem_map.mp hv
        split
        · next hown =>
          obtain ⟨r, hr⟩ : ∃ r, db.receivedAt t.idTx key.1 key.2 = some r := by
            have hpays := hown
            simp only [paysInternally, Bool.and_eq_true, beq_iff_eq] at hpays
            obtain ⟨r, hr, -⟩ := Option.bind_eq_some_iff.mp hpays.1
            exact ⟨r, hr⟩
          rw [h.value_eq (h.mem_of_received hr) hkey]
          exact hchange outputs h hspent key r hr hown
        · rfl
      rw [hzero, sub_zero]

end Zecd.HistoryDb
