import Mathlib

/-! # The scanned blocks of a wallet database

The `blocks` and `transactions` tables as the sync writer leaves them: ranges are scanned in
any order, a rewind deletes the blocks above a height and turns the transactions mined there
unmined. Heights are counted from the wallet's birthday.
-/

namespace Zecd

/-- The wallet transactions of a block: those the scan of the block itself stores, and the
transparent ones, which are recorded one by one once the scan was applied. -/
structure BlockContent where
  nonce : ℕ
  shielded : List ℕ
  transparent : List ℕ
  deriving DecidableEq, Repr

def BlockContent.txids (b : BlockContent) : List ℕ := b.shielded ++ b.transparent

/-- A block hash commits to the block and to every block below it, from the birthday on. -/
abbrev BlockHash := List BlockContent

/-- A branch of the chain, which holds a transaction in one block only. -/
structure Branch where
  blocks : List BlockContent
  unique : blocks.Pairwise fun b b' => ∀ txid ∈ b.txids, txid ∉ b'.txids

def Branch.hashAt (β : Branch) (h : ℕ) : BlockHash := β.blocks.take (h + 1)

/-- The tables: the hash of each scanned block by its height, and each stored transaction with
the height it is mined at. -/
structure ScanDb where
  blocks : List (Option BlockHash)
  transactions : List (ℕ × Option ℕ)

namespace ScanDb

/-! ## Reads -/

def blockInfoAt (db : ScanDb) (height : ℕ) : Option BlockHash := (db.blocks[height]?).join

def firstScannedBlock (db : ScanDb) : Option BlockHash := db.blocks.findSome? id

def blockHeightByHash (db : ScanDb) (hash : BlockHash) : Option ℕ :=
  db.blocks.findIdx? (· == some hash)

def fullyScanned (db : ScanDb) : Option ℕ :=
  match (db.blocks.takeWhile Option.isSome).length with
  | 0 => none
  | n + 1 => some n

/-- `query_transactions` with an open end: the transactions mined from the start height on, and
all unmined ones. -/
def queryTransactions (db : ScanDb) (startHeight : Option ℕ) : List ℕ :=
  (db.transactions.filter fun x => match startHeight, x.2 with
    | some start, some mined => decide (start ≤ mined)
    | _, _ => true).map Prod.fst

/-! ## Writes -/

def putTransaction (db : ScanDb) (x : ℕ × Option ℕ) : ScanDb :=
  { db with transactions := x :: db.transactions.filter fun y => y.1 != x.1 }

def putBlocks (db : ScanDb) (β : Branch) (start stop : ℕ) : ScanDb :=
  { db with
    blocks := (List.range (max db.blocks.length (min stop β.blocks.length))).map fun h =>
      if start ≤ h ∧ h < stop ∧ h < β.blocks.length then some (β.hashAt h) else db.blockInfoAt h }

def truncateToHeight (db : ScanDb) (height : ℕ) : ScanDb where
  blocks := db.blocks.take (height + 1)
  transactions := db.transactions.map fun x => (x.1, x.2.filter (· ≤ height))

end ScanDb

/-- Pair the transactions some part of each block of a range holds with the block's height. -/
def Branch.minedIn (β : Branch) (start stop : ℕ) (part : BlockContent → List ℕ) : List (ℕ × ℕ) :=
  (List.range' start (stop - start)).flatMap fun h =>
    (β.blocks[h]?.elim [] part).map (·, h)

/-! ## Lemmas -/

/-- The scanned block at the height holds the transaction. -/
def ScanDb.Mines (db : ScanDb) (h txid : ℕ) : Prop :=
  ∃ hash b, db.blockInfoAt h = some hash ∧ hash.getLast? = some b ∧ txid ∈ b.txids

/-- The transaction is stored, unmined or at the height of a scanned block that holds it. -/
def ScanDb.Held (db : ScanDb) (txid : ℕ) : Prop :=
  ∃ mined, (txid, mined) ∈ db.transactions ∧ ∀ h, mined = some h → db.Mines h txid

def ScanDb.OnBranch (db : ScanDb) (β : Branch) : Prop :=
  ∀ h < db.blocks.length, ∀ hash ∈ db.blockInfoAt h, hash = β.hashAt h ∧ h < β.blocks.length

instance (db : ScanDb) (β : Branch) : Decidable (db.OnBranch β) :=
  inferInstanceAs (Decidable (∀ h < db.blocks.length, ∀ hash ∈ db.blockInfoAt h,
    hash = β.hashAt h ∧ h < β.blocks.length))

section Lemmas

variable {db db' : ScanDb} {β : Branch} {start stop h h' height txid : ℕ} {hash : BlockHash}

theorem ScanDb.lt_of_blockInfoAt (hh : db.blockInfoAt h = some hash) : h < db.blocks.length := by
  by_contra hlt
  simp [blockInfoAt, List.getElem?_eq_none (Nat.le_of_not_lt hlt)] at hh

theorem ScanDb.OnBranch.eq (hβ : db.OnBranch β) (hh : db.blockInfoAt h = some hash) :
    hash = β.hashAt h ∧ h < β.blocks.length :=
  hβ h (lt_of_blockInfoAt hh) hash hh

theorem Branch.getLast?_hashAt (hh : h < β.blocks.length) :
    (β.hashAt h).getLast? = β.blocks[h]? := by
  rw [hashAt, List.getLast?_eq_getElem?, List.length_take, Nat.min_eq_left (by omega),
    Nat.add_sub_cancel, List.getElem?_take_of_lt (Nat.lt_succ_self h)]

theorem ScanDb.OnBranch.mines (hβ : db.OnBranch β) (hm : db.Mines h txid) :
    ∃ b, β.blocks[h]? = some b ∧ txid ∈ b.txids := by
  obtain ⟨hash, b, hh, hb, htx⟩ := hm
  obtain ⟨rfl, hlt⟩ := hβ.eq hh
  exact ⟨b, (Branch.getLast?_hashAt hlt).symm.trans hb, htx⟩

theorem ScanDb.OnBranch.mines_unique (hβ : db.OnBranch β) (hm : db.Mines h txid)
    (hm' : db.Mines h' txid) : h = h' := by
  obtain ⟨b, hb, htx⟩ := hβ.mines hm
  obtain ⟨b', hb', htx'⟩ := hβ.mines hm'
  obtain ⟨hlt, rfl⟩ := List.getElem?_eq_some_iff.mp hb
  obtain ⟨hlt', rfl⟩ := List.getElem?_eq_some_iff.mp hb'
  have hpair := List.pairwise_iff_getElem.mp β.unique
  rcases Nat.lt_trichotomy h h' with hlt'' | heq | hlt''
  · exact absurd htx' (hpair h h' hlt hlt' hlt'' txid htx)
  · exact heq
  · exact absurd htx (hpair h' h hlt' hlt hlt'' txid htx')

theorem ScanDb.OnBranch.mines_below (hβ : db.OnBranch β) (hh : db.blockInfoAt h = some hash)
    (htx : txid ∈ hash.flatMap BlockContent.txids) :
    ∃ k ≤ h, (db.blockInfoAt k).isSome → db.Mines k txid := by
  obtain ⟨rfl, hlt⟩ := hβ.eq hh
  obtain ⟨b, hb, htx⟩ := List.mem_flatMap.mp htx
  obtain ⟨k, hk, rfl⟩ := List.mem_take_iff_getElem.mp hb
  refine ⟨k, by omega, fun hsome => ?_⟩
  obtain ⟨hash, hhash⟩ := Option.isSome_iff_exists.mp hsome
  obtain ⟨rfl, hklt⟩ := hβ.eq hhash
  exact ⟨_, _, hhash, (Branch.getLast?_hashAt hklt).trans (List.getElem?_eq_getElem hklt), htx⟩

theorem ScanDb.mem_queryTransactions {startHeight : Option ℕ} :
    txid ∈ db.queryTransactions startHeight ↔ ∃ mined, (txid, mined) ∈ db.transactions ∧
      ∀ start ∈ startHeight, ∀ h ∈ mined, start ≤ h := by
  have hmatch : ∀ mined : Option ℕ, (match startHeight, mined with
      | some start, some mined => decide (start ≤ mined)
      | _, _ => true) = true ↔ ∀ start ∈ startHeight, ∀ h ∈ mined, start ≤ h := by
    intro mined
    cases startHeight <;> cases mined <;> simp
  simp only [queryTransactions, List.mem_map, List.mem_filter]
  constructor
  · rintro ⟨⟨_, mined⟩, ⟨hmem, hkeep⟩, rfl⟩
    exact ⟨mined, hmem, (hmatch mined).mp hkeep⟩
  · rintro ⟨mined, hmem, hkeep⟩
    exact ⟨(txid, mined), ⟨hmem, (hmatch mined).mpr hkeep⟩, rfl⟩

theorem ScanDb.firstScannedBlock_eq (hh : db.blockInfoAt 0 = some hash) :
    db.firstScannedBlock = some hash := by
  obtain ⟨rows, txs⟩ := db
  cases rows with
  | nil => simp [blockInfoAt] at hh
  | cons row rows =>
    obtain rfl : row = some hash := by simpa [blockInfoAt] using hh
    rfl

theorem ScanDb.firstScannedBlock_eq_none :
    db.firstScannedBlock = none ↔ ∀ h, db.blockInfoAt h = none := by
  simp only [firstScannedBlock, List.findSome?_eq_none_iff, id_eq, blockInfoAt]
  constructor
  · intro hnone h
    cases hrow : db.blocks[h]? with
    | none => rfl
    | some row => rw [hnone row (List.mem_of_getElem? hrow)]; rfl
  · intro hnone row hrow
    obtain ⟨h, hh⟩ := List.mem_iff_getElem?.mp hrow
    simpa [hh] using hnone h

/-! ### The writes -/

theorem ScanDb.blockInfoAt_putBlocks : (db.putBlocks β start stop).blockInfoAt h =
    if start ≤ h ∧ h < stop ∧ h < β.blocks.length then some (β.hashAt h)
    else db.blockInfoAt h := by
  by_cases hlt : h < max db.blocks.length (min stop β.blocks.length)
  · simp only [blockInfoAt, putBlocks, List.getElem?_map, List.getElem?_range hlt, Option.map_some,
      Option.join_some]
  · have hout : db.blocks.length ≤ h := by omega
    rw [if_neg (by omega)]
    simp [blockInfoAt, putBlocks, hlt, hout]

theorem ScanDb.OnBranch.putBlocks_mono (hβ : db.OnBranch β) (hh : db.blockInfoAt h = some hash) :
    (db.putBlocks β start stop).blockInfoAt h = some hash := by
  rw [blockInfoAt_putBlocks, ← (hβ.eq hh).1, hh, ite_self]

theorem ScanDb.OnBranch.putBlocks (hβ : db.OnBranch β) :
    (db.putBlocks β start stop).OnBranch β := by
  intro h _ hash hh
  rw [Option.mem_def, blockInfoAt_putBlocks] at hh
  split at hh
  · rename_i hin
    cases hh
    exact ⟨rfl, hin.2.2⟩
  · exact hβ.eq hh

theorem ScanDb.blockInfoAt_truncate : (db.truncateToHeight height).blockInfoAt h =
    if h ≤ height then db.blockInfoAt h else none := by
  simp only [blockInfoAt, truncateToHeight, List.getElem?_take, Nat.lt_succ_iff]
  split <;> rfl

theorem ScanDb.Mines.congr (hm : db.Mines h txid)
    (hrows : ∀ hash, db.blockInfoAt h = some hash → db'.blockInfoAt h = some hash) :
    db'.Mines h txid := by
  obtain ⟨hash, b, hh, hb, htx⟩ := hm
  exact ⟨hash, b, hrows hash hh, hb, htx⟩

theorem ScanDb.Held.mono (ht : db.Held txid) (htxs : db'.transactions = db.transactions)
    (hrows : ∀ h hash, db.blockInfoAt h = some hash → db'.blockInfoAt h = some hash) :
    db'.Held txid := by
  obtain ⟨mined, hmem, hmined⟩ := ht
  exact ⟨mined, htxs ▸ hmem, fun h hh => (hmined h hh).congr (hrows h)⟩

theorem ScanDb.held_putTransaction {x : ℕ × ℕ} (hx : db.Mines x.2 x.1) :
    (db.putTransaction (x.1, some x.2)).Held x.1 ∧
      ∀ txid, db.Held txid → (db.putTransaction (x.1, some x.2)).Held txid := by
  have hself : (db.putTransaction (x.1, some x.2)).Held x.1 :=
    ⟨some x.2, List.mem_cons_self, by rintro h ⟨⟩; exact hx⟩
  refine ⟨hself, fun txid ht => ?_⟩
  by_cases heq : txid = x.1
  · exact heq ▸ hself
  · obtain ⟨mined, hmem, hmined⟩ := ht
    exact ⟨mined, List.mem_cons_of_mem _ (List.mem_filter.mpr ⟨hmem, by simpa using heq⟩), hmined⟩

theorem ScanDb.blocks_foldl_put (xs : List (ℕ × ℕ)) (db : ScanDb) :
    (xs.foldl (fun db x => db.putTransaction (x.1, some x.2)) db).blocks = db.blocks := by
  induction xs generalizing db with
  | nil => rfl
  | cons x xs ih => exact ih _

theorem ScanDb.held_foldl_put (xs : List (ℕ × ℕ)) (db : ScanDb)
    (hxs : ∀ x ∈ xs, db.Mines x.2 x.1) :
    (∀ x ∈ xs, (xs.foldl (fun db x => db.putTransaction (x.1, some x.2)) db).Held x.1) ∧
      ∀ txid, db.Held txid →
        (xs.foldl (fun db x => db.putTransaction (x.1, some x.2)) db).Held txid := by
  induction xs generalizing db with
  | nil => simp
  | cons x xs ih =>
    obtain ⟨hself, hkeep⟩ := held_putTransaction (hxs x List.mem_cons_self)
    obtain ⟨hall, hrest⟩ := ih (db.putTransaction (x.1, some x.2)) fun y hy =>
      hxs y (List.mem_cons_of_mem _ hy)
    refine ⟨fun y hy => ?_, fun txid ht => hrest txid (hkeep txid ht)⟩
    rcases List.mem_cons.mp hy with rfl | hy
    · exact hrest _ hself
    · exact hall y hy

theorem ScanDb.Held.truncate (ht : db.Held txid) : (db.truncateToHeight height).Held txid := by
  obtain ⟨mined, hmem, hmined⟩ := ht
  refine ⟨mined.filter (· ≤ height), List.mem_map.mpr ⟨_, hmem, rfl⟩, fun h hh => ?_⟩
  obtain ⟨hmined', hle⟩ := Option.filter_eq_some_iff.mp hh
  apply (hmined h hmined').congr
  intro hash hhash
  rw [blockInfoAt_truncate, if_pos (by simpa using hle), hhash]

theorem Branch.mem_minedIn {part : BlockContent → List ℕ} {x : ℕ × ℕ} :
    x ∈ β.minedIn start stop part ↔
      start ≤ x.2 ∧ x.2 < stop ∧ ∃ b, β.blocks[x.2]? = some b ∧ x.1 ∈ part b := by
  simp only [minedIn, List.mem_flatMap, List.mem_range'_1, List.mem_map]
  constructor
  · rintro ⟨h, ⟨hle, hlt⟩, txid, hmem, rfl⟩
    cases hb : β.blocks[h]? with
    | none => simp [hb] at hmem
    | some b => exact ⟨hle, by omega, b, rfl, by simpa [hb] using hmem⟩
  · rintro ⟨hle, hlt, b, hb, hmem⟩
    exact ⟨x.2, ⟨hle, by omega⟩, x.1, by simpa [hb] using hmem, rfl⟩

end Lemmas

end Zecd
