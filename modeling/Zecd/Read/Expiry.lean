import Zecd.Foundation.Sql
import Zecd.Read.History

/-! # Expiry in the history and in the balance

Two statements decide whether an unmined transaction still counts: the balance's predicate, at
the height after the tip, and the history's flag, at the highest scanned block. Both read
nullable heights. The history may call a transaction expired late, never early.
-/

namespace Zecd

structure TxHeights where
  minedHeight : Option ℕ
  expiryHeight : Option ℕ
  targetHeight : Option ℕ
  minObservedHeight : Option ℕ
  deriving DecidableEq, Repr

namespace TxHeights

open Sql

/-- `COALESCE(target_height, min_observed_height)`. -/
def observed (t : TxHeights) : Option ℕ := coalesce t.targetHeight t.minObservedHeight

/-- The expiry delta of the height a transaction was built for. -/
def defaultDelta (nu7 : Option ℕ) (t : TxHeights) : ℕ :=
  match nu7 with
  | some nu7 => caseWhen (le (some nu7) t.observed) WalletDb.nu7DefaultTxExpiryDelta
      WalletDb.preNu7DefaultTxExpiryDelta
  | none => WalletDb.preNu7DefaultTxExpiryDelta

/-- `tx_unexpired_sql`, at the next height to be mined. -/
def txUnexpiredSql (nu7 : Option ℕ) (targetHeight : ℕ) (t : TxHeights) : Truth :=
  or (lt t.minedHeight (some targetHeight)) <|
  or (eq t.expiryHeight (some 0)) <|
  or (le (some targetHeight) t.expiryHeight) <|
  and (isNull t.expiryHeight) (le (some targetHeight) (add t.observed (some (t.defaultDelta nu7))))

/-- `expired_unmined_sql`; `scanned` is `MAX(height)` of the scanned blocks. -/
def expiredUnminedSql (scanned : Option ℕ) (t : TxHeights) : Truth :=
  ifNull (and (isNull t.minedHeight) <|
    or (between t.expiryHeight (some 1) scanned) <|
    and (isNull t.expiryHeight) (le (add t.observed (some 120)) scanned)) (some false)

variable {t : TxHeights} {nu7 scanned : Option ℕ} {tip : ℕ}

theorem defaultDelta_le (nu7 : Option ℕ) (t : TxHeights) : t.defaultDelta nu7 ≤ 120 := by
  unfold defaultDelta
  split
  · unfold caseWhen
    split <;> decide
  · decide

theorem txUnexpiredSql_eq_true {targetHeight : ℕ} :
    t.txUnexpiredSql nu7 targetHeight = some true ↔
      (∃ m ∈ t.minedHeight, m < targetHeight) ∨ t.expiryHeight = some 0 ∨
      (∃ e ∈ t.expiryHeight, targetHeight ≤ e) ∨
      t.expiryHeight = none ∧ ∃ o ∈ t.observed, targetHeight ≤ o + t.defaultDelta nu7 := by
  simp [txUnexpiredSql]

theorem expiredUnminedSql_eq_true :
    t.expiredUnminedSql scanned = some true ↔ t.minedHeight = none ∧ ∃ s ∈ scanned,
      ((∃ e ∈ t.expiryHeight, 1 ≤ e ∧ e ≤ s) ∨
        t.expiryHeight = none ∧ ∃ o ∈ t.observed, o + 120 ≤ s) := by
  simp only [expiredUnminedSql, ifNull_false_eq_true, and_eq_true, isNull_eq_true, or_eq_true,
    between_eq_true, le_eq_true, Option.mem_def, add_eq_some]
  cases scanned <;> cases t.expiryHeight <;> simp

/-- A transaction the history calls expired is not counted by the balance. -/
theorem txUnexpiredSql_of_expired (nu7 : Option ℕ) (htip : ∀ s ∈ scanned, s ≤ tip)
    (h : t.expiredUnminedSql scanned = some true) :
    t.txUnexpiredSql nu7 (tip + 1) ≠ some true := by
  rw [expiredUnminedSql_eq_true] at h
  obtain ⟨hmined, s, hs, hpast⟩ := h
  rw [Ne, txUnexpiredSql_eq_true]
  intro hunexpired
  have hle := htip s hs
  have hdelta := t.defaultDelta_le nu7
  rcases hpast with ⟨e, he, h1, hes⟩ | ⟨hnone, o, ho, hos⟩
  · rcases hunexpired with ⟨m, hm, _⟩ | h0 | ⟨e', he', hge⟩ | ⟨hnone, _⟩
    · simp [hmined] at hm
    · obtain rfl := Option.mem_unique he h0
      omega
    · obtain rfl := Option.mem_unique he he'
      omega
    · simp [hnone] at he
  · rcases hunexpired with ⟨m, hm, _⟩ | h0 | ⟨e, he, _⟩ | ⟨_, o', ho', hge⟩
    · simp [hmined] at hm
    · simp [hnone] at h0
    · simp [hnone] at he
    · obtain rfl := Option.mem_unique ho ho'
      omega

/-- At the tip, an unmined transaction of known expiry that the balance does not count is one
the history calls expired. -/
theorem expiredUnminedSql_of_not_unexpired (hmined : t.minedHeight = none)
    (hknown : t.expiryHeight ≠ none) (h : t.txUnexpiredSql nu7 (tip + 1) ≠ some true) :
    t.expiredUnminedSql (some tip) = some true := by
  obtain ⟨e, he⟩ := Option.ne_none_iff_exists'.mp hknown
  rw [Ne, txUnexpiredSql_eq_true] at h
  push Not at h
  obtain ⟨_, hzero, hpast, _⟩ := h
  have hlt := hpast e he
  have hpos : e ≠ 0 := fun h0 => hzero (h0 ▸ he)
  exact expiredUnminedSql_eq_true.mpr ⟨hmined, tip, rfl, .inl ⟨e, he, by omega⟩⟩

/-- The history's flag against the balance's predicate: never early, never null, and at one
height the exact complement on the unmined transactions of known expiry. -/
theorem expiredUnminedSql_spec (t : TxHeights) (nu7 scanned : Option ℕ) (tip : ℕ)
    (htip : ∀ s ∈ scanned, s ≤ tip) :
    (t.expiredUnminedSql scanned = some true → t.txUnexpiredSql nu7 (tip + 1) ≠ some true) ∧
    t.expiredUnminedSql scanned ≠ none ∧
    (t.expiryHeight ≠ none → t.minedHeight = none → scanned = some tip →
      (t.expiredUnminedSql scanned = some true ↔ t.txUnexpiredSql nu7 (tip + 1) ≠ some true)) := by
  refine ⟨txUnexpiredSql_of_expired nu7 htip, ifNull_ne_none _ _, ?_⟩
  rintro hknown hmined rfl
  exact ⟨txUnexpiredSql_of_expired nu7 htip, expiredUnminedSql_of_not_unexpired hmined hknown⟩

def expiresAt (height : ℕ) : TxHeights := ⟨none, some height, none, some 60⟩

/-- A known expiry that has passed, and one with a block to go. -/
theorem expiresAt_parted :
    ((expiresAt 100).expiredUnminedSql (some 100) = some true ∧
      (expiresAt 100).txUnexpiredSql none 101 ≠ some true) ∧
    (expiresAt 101).expiredUnminedSql (some 100) ≠ some true ∧
      (expiresAt 101).txUnexpiredSql none 101 = some true := by
  have hpassed : (expiresAt 100).expiredUnminedSql (some 100) = some true := by decide
  have hcounted : (expiresAt 101).txUnexpiredSql none 101 = some true := by decide
  obtain ⟨hordered, _⟩ := expiredUnminedSql_spec (expiresAt 100) none (some 100) 100 (by simp)
  obtain ⟨_, _, hparted⟩ := expiredUnminedSql_spec (expiresAt 101) none (some 100) 100 (by simp)
  exact ⟨⟨hpassed, hordered hpassed⟩,
    fun h => (hparted (by decide) rfl rfl).mp h hcounted, hcounted⟩

end TxHeights

/-! ## The statements over the tables -/

def TransactionRow.heights (t : TransactionRow) : TxHeights :=
  ⟨t.minedHeight, t.expiryHeight, t.targetHeight, some t.minObservedHeight⟩

theorem TransactionRow.observed_heights (t : TransactionRow) :
    t.heights.observed = some (t.targetHeight.getD t.minObservedHeight) := by
  rw [TxHeights.observed, heights, Sql.coalesce]
  cases t.targetHeight <;> rfl

theorem WalletDb.txUnexpired_iff {nu7 : Option ℕ} {target : ℕ} {t : TransactionRow} :
    txUnexpired nu7 target t = true ↔ t.heights.txUnexpiredSql nu7 target = some true := by
  rw [TxHeights.txUnexpiredSql_eq_true]
  cases nu7 <;>
    simp [txUnexpired, TransactionRow.heights, TxHeights.defaultDelta, TxHeights.observed,
      Sql.coalesce, Sql.caseWhen, Option.any_eq_true, or_assoc]

theorem HistoryDb.expiredUnmined_iff {db : HistoryDb} {t : TransactionRow} :
    db.expiredUnmined t = true ↔ t.heights.expiredUnminedSql db.maxHeight = some true := by
  rw [TxHeights.expiredUnminedSql_eq_true, TransactionRow.observed_heights]
  simp only [expiredUnmined, TransactionRow.heights]
  cases t.expiryHeight <;> simp [Option.any_eq_true]

/-- At no tip from the highest scanned block on does the balance count what the history calls
expired. -/
theorem HistoryDb.expired_not_counted (db : HistoryDb) (t : TransactionRow) (nu7 : Option ℕ)
    (lag : ℕ) :
    (db.expiredUnmined t && WalletDb.txUnexpired nu7 (db.maxHeight.getD 0 + lag + 1) t) =
      false := by
  have htip : ∀ s ∈ db.maxHeight, s ≤ db.maxHeight.getD 0 + lag := by
    intro s hs
    rw [Option.mem_def.mp hs]
    exact Nat.le_add_right s lag
  rw [Bool.and_eq_false_imp]
  intro hexpired
  rw [expiredUnmined_iff] at hexpired
  have hnot := TxHeights.txUnexpiredSql_of_expired nu7 htip hexpired
  rwa [Ne, ← WalletDb.txUnexpired_iff, Bool.not_eq_true] at hnot

end Zecd
