import Zecd.Foundation.Runs
import Zecd.Poll.ScanDb

/-! # Polling with `listsinceblock`

One call reads the published status, the height of the cursor, the transactions and the block
to return as the next cursor, each from its own snapshot, while the sync writer goes on. The
next cursor vouches for every transaction up to its height, so nothing may be missing below
it: neither a block still to be scanned nor one replaced since the transactions were read.
-/

namespace Zecd

open Runs

/-! ## The call and the writer -/

def checkedSub (a b : ℕ) : Option ℕ := if b ≤ a then some (a - b) else none

inductive CallProgress where
  | started
  | resolved (since : Option ℕ)
  | listed (transactions : List ℕ)
  /-- No block was found at the depth of the target. -/
  | missing (transactions : List ℕ)
  deriving DecidableEq, Repr

/-- A call in progress: the fully scanned height of the status it took, and its target. -/
structure OpenCall where
  scanned : Option ℕ
  target : ℕ
  progress : CallProgress
  deriving DecidableEq, Repr

def OpenCall.lastHeight (c : OpenCall) : Option ℕ :=
  c.scanned.bind fun scanned => checkedSub scanned (c.target - 1)

/-- What a call returned; no hash is the null hash. -/
structure PollReply where
  transactions : List ℕ
  lastblock : Option BlockHash
  deriving DecidableEq, Repr

/-- The writer's database, the transparent receives of an applied range it has still to record,
the status it published last, and the poller. -/
structure PollState where
  db : ScanDb
  pending : List (ℕ × ℕ)
  status : Option ℕ
  call : Option OpenCall
  replies : List PollReply

inductive PollEvent where
  /-- `sync_one_batch` applies a range of the branch the upstream serves. -/
  | scan (β : Branch) (start stop : ℕ)
  /-- The next receive of the applied range is recorded. -/
  | record
  /-- `perform_rewind`. -/
  | rewind (height : ℕ)
  /-- `update_status`. -/
  | publish (tipKnown : Bool)
  /-- A call takes the status. -/
  | begin (target : ℕ)
  /-- The call in progress makes its next read. -/
  | read

namespace PollState

def init : PollState := ⟨⟨[], []⟩, [], none, none, []⟩

/-- The client feeds back the last `lastblock`. -/
def cursor (s : PollState) : Option BlockHash := s.replies.getLast?.bind PollReply.lastblock

/-- The first block of a range extends the scanned block below it, if there is one. -/
def Continues (s : PollState) (β : Branch) (start : ℕ) : Prop :=
  start = 0 ∨ ∀ hash ∈ s.db.blockInfoAt (start - 1), hash = β.hashAt (start - 1)

instance (s : PollState) (β : Branch) (start : ℕ) : Decidable (s.Continues β start) :=
  inferInstanceAs (Decidable (_ ∨ _))

def scan (s : PollState) (β : Branch) (start stop : ℕ) : PollState :=
  { s with
    db := (β.minedIn start stop BlockContent.shielded).foldl
      (fun db x => db.putTransaction (x.1, some x.2)) (s.db.putBlocks β start stop)
    pending := β.minedIn start stop BlockContent.transparent }

def finish (s : PollState) (transactions : List ℕ) (lastblock : Option BlockHash) : PollState :=
  { s with call := none, replies := s.replies ++ [⟨transactions, lastblock⟩] }

def read (s : PollState) (c : OpenCall) : PollState :=
  match c.progress with
  | .started =>
    { s with
      call := some { c with progress := .resolved (s.cursor.bind s.db.blockHeightByHash) } }
  | .resolved since =>
    { s with
      call := some { c with progress := .listed (s.db.queryTransactions (since.map (· + 1))) } }
  | .listed transactions =>
    match c.lastHeight.bind s.db.blockInfoAt with
    | some hash => s.finish transactions (some hash)
    | none => { s with call := some { c with progress := .missing transactions } }
  | .missing transactions => s.finish transactions s.db.firstScannedBlock

end PollState

/-- The writer is one task: it scans, rewinds or publishes only once every receive of the last
range is recorded. A range that does not continue the scanned block below it is not applied. -/
def PollEvent.step (s : PollState) : PollEvent → PollState
  | .scan β start stop =>
    if s.pending = [] ∧ s.Continues β start then s.scan β start stop else s
  | .record =>
    match s.pending with
    | [] => s
    | x :: pending => { s with db := s.db.putTransaction (x.1, some x.2), pending }
  | .rewind height =>
    if s.pending = [] then { s with db := s.db.truncateToHeight height } else s
  | .publish tipKnown =>
    if s.pending = [] then { s with status := if tipKnown then s.db.fullyScanned else none } else s
  | .begin target =>
    if s.call = none ∧ 1 ≤ target ∧ target < 2 ^ 32 then
      { s with call := some ⟨s.status, target, .started⟩ }
    else s
  | .read =>
    match s.call with
    | none => s
    | some c => s.read c

/-! ## The guarantee -/

def Listed (replies : List PollReply) (txid : ℕ) : Prop := ∃ r ∈ replies, txid ∈ r.transactions

/-- Whatever is mined on the branch of a returned `lastblock` up to its height is listed by that
call, an earlier one or the next one. -/
def PollState.MissesNothing (s : PollState) : Prop :=
  ∀ k r hash txid, s.replies[k]? = some r → r.lastblock = some hash →
    txid ∈ hash.flatMap BlockContent.txids →
      Listed (s.replies.take (k + 1)) txid ∨
        ∀ next, s.replies[k + 1]? = some next → txid ∈ next.transactions

/-- Every block up to the height is scanned, and none of their transactions waits for being
recorded. -/
def PollState.Settled (s : PollState) (height : ℕ) : Prop :=
  (∀ h ≤ height, (s.db.blockInfoAt h).isSome) ∧ ∀ x ∈ s.pending, height < x.2

instance (s : PollState) (height : ℕ) : Decidable (s.Settled height) :=
  inferInstanceAs (Decidable ((∀ h ≤ height, (s.db.blockInfoAt h).isSome) ∧
    ∀ x ∈ s.pending, height < x.2))

/-- Blocks of another branch are scanned only once those off it are rewound; a call starts with
the blocks up to its cursor settled, and no rewind takes them away while it is in progress, or
else with nothing scanned, and then nothing is scanned while it is in progress. -/
def PollEvent.Safe (s : PollState) : PollEvent → Prop
  | .scan β _ _ => s.db.OnBranch β ∧ (s.call ≠ none → s.db.firstScannedBlock ≠ none)
  | .rewind height => ∀ c ∈ s.call, c.lastHeight.getD 0 ≤ height
  | .begin target => s.Settled ((⟨s.status, target, .started⟩ : OpenCall).lastHeight.getD 0) ∨
      s.db.firstScannedBlock = none
  | _ => True

instance (s : PollState) : DecidablePred (PollEvent.Safe s)
  | .scan β _ _ => inferInstanceAs (Decidable (s.db.OnBranch β ∧
      (s.call ≠ none → s.db.firstScannedBlock ≠ none)))
  | .rewind height => inferInstanceAs (Decidable (∀ c ∈ s.call, c.lastHeight.getD 0 ≤ height))
  | .begin target => inferInstanceAs (Decidable
      (s.Settled ((⟨s.status, target, .started⟩ : OpenCall).lastHeight.getD 0) ∨
        s.db.firstScannedBlock = none))
  | .record | .publish _ | .read => inferInstanceAs (Decidable True)

/-! ## The invariant -/

/-- The scanned blocks lie on one branch, and their transactions are stored or about to be. -/
structure WriterInv (s : PollState) : Prop where
  branch : ∃ β, s.db.OnBranch β
  pending_mined : ∀ x ∈ s.pending, s.db.Mines x.2 x.1
  stored : ∀ h txid, s.db.Mines h txid → s.db.Held txid ∨ (txid, h) ∈ s.pending

def ScanDb.Grounded (db : ScanDb) (height : ℕ) : Prop :=
  ∀ h ≤ height, (db.blockInfoAt h).isSome ∧ ∀ txid, db.Mines h txid → db.Held txid

/-- What a call has read accounts for the blocks up to the height it will return. -/
def OpenCall.Sound (s : PollState) (c : OpenCall) : Prop :=
  match c.progress with
  | .started => True
  | .resolved since => ∀ n ∈ since, ∀ h ≤ n, h ≤ c.lastHeight.getD 0 → ∀ txid,
      s.db.Mines h txid → Listed s.replies txid
  | .listed transactions | .missing transactions => ∀ h ≤ c.lastHeight.getD 0, ∀ txid,
      s.db.Mines h txid → txid ∈ transactions ∨ Listed s.replies txid

structure PollInv (s : PollState) : Prop where
  writer : WriterInv s
  replies : ∀ k r hash txid, s.replies[k]? = some r → r.lastblock = some hash →
    txid ∈ hash.flatMap BlockContent.txids → Listed (s.replies.take (k + 1)) txid
  call : ∀ c, s.call = some c → s.db.firstScannedBlock = none ∨
    s.db.Grounded (c.lastHeight.getD 0) ∧ c.Sound s

section Writer

variable {s s' : PollState} {db db' : ScanDb} {β : Branch} {start stop height d : ℕ}
  {c : OpenCall}

theorem ScanDb.blockInfoAt_congr (hb : db'.blocks = db.blocks) (h : ℕ) :
    db'.blockInfoAt h = db.blockInfoAt h := by
  rw [blockInfoAt, blockInfoAt, hb]

theorem ScanDb.mines_congr {h txid : ℕ} (hb : db'.blockInfoAt h = db.blockInfoAt h) :
    db'.Mines h txid ↔ db.Mines h txid := by
  rw [Mines, Mines, hb]

structure ScanDb.Keeps (d : ℕ) (db db' : ScanDb) : Prop where
  rows : ∀ h ≤ d, db'.blockInfoAt h = db.blockInfoAt h
  held : ∀ txid, db.Held txid → db'.Held txid

theorem ScanDb.Grounded.keep (hg : db.Grounded d) (hk : Keeps d db db') : db'.Grounded d := by
  intro h hh
  refine ⟨hk.rows h hh ▸ (hg h hh).1, fun txid hm => hk.held txid ((hg h hh).2 txid ?_)⟩
  exact (mines_congr (hk.rows h hh)).mp hm

theorem OpenCall.Sound.keep (hs : c.Sound s) (hr : s'.replies = s.replies)
    (hk : ScanDb.Keeps (c.lastHeight.getD 0) s.db s'.db) : c.Sound s' := by
  unfold OpenCall.Sound at hs ⊢
  split at hs
  · trivial
  · intro n hn h hh hd txid hm
    rw [hr]
    exact hs n hn h hh hd txid ((ScanDb.mines_congr (hk.rows h hd)).mp hm)
  · intro h hd txid hm
    rw [hr]
    exact hs h hd txid ((ScanDb.mines_congr (hk.rows h hd)).mp hm)
  · intro h hd txid hm
    rw [hr]
    exact hs h hd txid ((ScanDb.mines_congr (hk.rows h hd)).mp hm)

/-- A step of the writer leaves the poller's part of the invariant alone if it keeps what the
call in progress rests on. -/
theorem PollInv.of_writer (hinv : PollInv s) (hw : WriterInv s') (hcall : s'.call = s.call)
    (hr : s'.replies = s.replies)
    (hempty : s.call ≠ none → s.db.firstScannedBlock = none → s'.db.firstScannedBlock = none)
    (hkeep : ∀ c, s.call = some c → s.db.Grounded (c.lastHeight.getD 0) →
      ScanDb.Keeps (c.lastHeight.getD 0) s.db s'.db) : PollInv s' := by
  refine ⟨hw, hr ▸ hinv.replies, fun c hc => ?_⟩
  rw [hcall] at hc
  rcases hinv.call c hc with hnone | ⟨hg, hs⟩
  · exact .inl (hempty (by simp [hc]) hnone)
  · exact .inr ⟨hg.keep (hkeep c hc hg), hs.keep hr (hkeep c hc hg)⟩

theorem blockInfoAt_scan (h : ℕ) : (s.scan β start stop).db.blockInfoAt h =
    (s.db.putBlocks β start stop).blockInfoAt h :=
  ScanDb.blockInfoAt_congr (ScanDb.blocks_foldl_put _ _) h

theorem mines_scan {h txid : ℕ} : (s.scan β start stop).db.Mines h txid ↔
    (s.db.putBlocks β start stop).Mines h txid :=
  ScanDb.mines_congr (blockInfoAt_scan h)

theorem mines_scan_of_minedIn {part : BlockContent → List ℕ}
    (hpart : ∀ b, ∀ txid ∈ part b, txid ∈ b.txids) {x : ℕ × ℕ}
    (hx : x ∈ β.minedIn start stop part) : (s.db.putBlocks β start stop).Mines x.2 x.1 := by
  obtain ⟨hle, hlt, b, hb, htx⟩ := Branch.mem_minedIn.mp hx
  have hlen := (List.getElem?_eq_some_iff.mp hb).1
  refine ⟨β.hashAt x.2, b, ?_, (Branch.getLast?_hashAt hlen).trans hb, hpart b _ htx⟩
  rw [ScanDb.blockInfoAt_putBlocks, if_pos ⟨hle, hlt, hlen⟩]

theorem held_scan (hβ : s.db.OnBranch β) (txid : ℕ) (ht : s.db.Held txid) :
    (s.scan β start stop).db.Held txid := by
  have hput := ScanDb.held_foldl_put (β.minedIn start stop BlockContent.shielded)
    (s.db.putBlocks β start stop) fun x hx =>
      mines_scan_of_minedIn (fun b _ => List.mem_append_left _) hx
  exact hput.2 txid (ht.mono rfl fun _ _ => hβ.putBlocks_mono)

theorem WriterInv.scan (hw : WriterInv s) (hp : s.pending = []) (hβ : s.db.OnBranch β) :
    WriterInv (s.scan β start stop) := by
  have hput := ScanDb.held_foldl_put (β.minedIn start stop BlockContent.shielded)
    (s.db.putBlocks β start stop) fun x hx =>
      mines_scan_of_minedIn (fun b _ => List.mem_append_left _) hx
  refine ⟨⟨β, ?_⟩, fun x hx => ?_, fun h txid hm => ?_⟩
  · intro h _ hash hh
    rw [Option.mem_def, blockInfoAt_scan] at hh
    exact hβ.putBlocks.eq hh
  · exact mines_scan.mpr (mines_scan_of_minedIn (fun b _ => List.mem_append_right _) hx)
  · by_cases hin : start ≤ h ∧ h < stop ∧ h < β.blocks.length
    · -- the block is of the range: its shielded part is stored, its transparent part pending
      obtain ⟨b, hb, htx⟩ := hβ.putBlocks.mines (mines_scan.mp hm)
      rcases List.mem_append.mp htx with htx | htx
      · exact .inl (hput.1 (txid, h) (Branch.mem_minedIn.mpr ⟨hin.1, hin.2.1, b, hb, htx⟩))
      · exact .inr (Branch.mem_minedIn.mpr ⟨hin.1, hin.2.1, b, hb, htx⟩)
    · have hold : s.db.Mines h txid := by
        refine (ScanDb.mines_congr ?_).mp (mines_scan.mp hm)
        rw [ScanDb.blockInfoAt_putBlocks, if_neg hin]
      have hheld := (hw.stored h txid hold).resolve_right (by simp [hp])
      exact .inl (held_scan hβ txid hheld)

theorem WriterInv.record (hw : WriterInv s) {x : ℕ × ℕ} {pending : List (ℕ × ℕ)}
    (hp : s.pending = x :: pending) :
    WriterInv { s with db := s.db.putTransaction (x.1, some x.2), pending } := by
  have hput := ScanDb.held_putTransaction (hw.pending_mined x (hp ▸ List.mem_cons_self))
  obtain ⟨β, hβ⟩ := hw.branch
  refine ⟨⟨β, hβ⟩, fun y hy => ?_, fun h txid hm => ?_⟩
  · exact hw.pending_mined y (hp ▸ List.mem_cons_of_mem _ hy)
  · rcases hw.stored h txid hm with hheld | hmem
    · exact .inl (hput.2 txid hheld)
    · rcases List.mem_cons.mp (hp ▸ hmem) with rfl | hmem
      · exact .inl hput.1
      · exact .inr hmem

theorem mines_of_truncate {h txid : ℕ} (hm : (db.truncateToHeight height).Mines h txid) :
    db.Mines h txid := by
  refine hm.congr fun hash hh => ?_
  rw [ScanDb.blockInfoAt_truncate] at hh
  split at hh
  · exact hh
  · cases hh

theorem WriterInv.rewind (hw : WriterInv s) (hp : s.pending = []) :
    WriterInv { s with db := s.db.truncateToHeight height } := by
  obtain ⟨β, hβ⟩ := hw.branch
  refine ⟨⟨β, fun h _ hash hh => ?_⟩, fun x hx => ?_, fun h txid hm => ?_⟩
  · rw [Option.mem_def, ScanDb.blockInfoAt_truncate] at hh
    split at hh
    · exact hβ.eq hh
    · cases hh
  · simp [hp] at hx
  · have hheld := (hw.stored h txid (mines_of_truncate hm)).resolve_right (by simp [hp])
    exact .inl hheld.truncate

theorem firstScannedBlock_of_rows (hnone : db.firstScannedBlock = none)
    (hrows : ∀ h, db'.blockInfoAt h = db.blockInfoAt h ∨ db'.blockInfoAt h = none) :
    db'.firstScannedBlock = none := by
  rw [ScanDb.firstScannedBlock_eq_none] at hnone ⊢
  intro h
  rcases hrows h with heq | heq
  · rw [heq, hnone h]
  · exact heq

end Writer

/-! ## The reads -/

section Reads

variable {s : PollState} {db : ScanDb} {β : Branch} {c : OpenCall}

theorem ScanDb.blockInfoAt_of_height {hash : BlockHash} {n : ℕ}
    (hn : db.blockHeightByHash hash = some n) : db.blockInfoAt n = some hash := by
  obtain ⟨hlt, heq, _⟩ := List.findIdx?_eq_some_iff_getElem.mp hn
  rw [blockInfoAt, List.getElem?_eq_getElem hlt, eq_of_beq heq, Option.join_some]

theorem ScanDb.OnBranch.mem_of_mines (hβ : db.OnBranch β) {h n txid : ℕ} {hash : BlockHash}
    (hn : db.blockInfoAt n = some hash) (hle : h ≤ n) (hm : db.Mines h txid) :
    txid ∈ hash.flatMap BlockContent.txids := by
  obtain ⟨b, hb, htx⟩ := hβ.mines hm
  rw [(hβ.eq hn).1, Branch.hashAt]
  obtain ⟨hlt, rfl⟩ := List.getElem?_eq_some_iff.mp hb
  exact List.mem_flatMap.mpr ⟨_, List.mem_take_iff_getElem.mpr ⟨h, by omega, rfl⟩, htx⟩

theorem listed_of_cursor (hinv : PollInv s) {hash : BlockHash} (hc : s.cursor = some hash)
    {txid : ℕ} (htx : txid ∈ hash.flatMap BlockContent.txids) : Listed s.replies txid := by
  obtain ⟨r, hlast, hr⟩ := Option.bind_eq_some_iff.mp hc
  rw [List.getLast?_eq_getElem?] at hlast
  obtain ⟨x, hx, htx⟩ := hinv.replies _ r hash txid hlast hr htx
  exact ⟨x, List.mem_of_mem_take hx, htx⟩

theorem PollInv.finish (hinv : PollInv s) {transactions : List ℕ} {lastblock : Option BlockHash}
    (hlast : ∀ hash, lastblock = some hash → ∀ txid ∈ hash.flatMap BlockContent.txids,
      txid ∈ transactions ∨ Listed s.replies txid) :
    PollInv (s.finish transactions lastblock) := by
  refine ⟨⟨hinv.writer.branch, hinv.writer.pending_mined, hinv.writer.stored⟩, ?_, nofun⟩
  intro k r hash txid hk hr htx
  simp only [PollState.finish, List.getElem?_append, List.getElem?_singleton] at hk ⊢
  split at hk
  · rename_i hlt
    obtain ⟨x, hx, hmem⟩ := hinv.replies k r hash txid hk hr htx
    exact ⟨x, by rw [List.take_append_of_le_length (by omega)]; exact hx, hmem⟩
  · rename_i hge
    split at hk
    · rename_i heq
      cases hk
      rw [List.take_of_length_le (by simp; omega)]
      rcases hlast hash hr txid htx with hmem | ⟨x, hx, hmem⟩
      · exact ⟨_, List.mem_append_right _ List.mem_cons_self, hmem⟩
      · exact ⟨x, List.mem_append_left _ hx, hmem⟩
    · cases hk

theorem PollInv.advance (hinv : PollInv s) {progress : CallProgress}
    (h : s.db.firstScannedBlock = none ∨ s.db.Grounded (c.lastHeight.getD 0) ∧
      OpenCall.Sound s { c with progress }) :
    PollInv { s with call := some { c with progress } } := by
  refine ⟨⟨hinv.writer.branch, hinv.writer.pending_mined, hinv.writer.stored⟩, hinv.replies, ?_⟩
  rintro _ ⟨⟩
  exact h

/-- The cursor's own branch was listed when the cursor was returned. -/
theorem sound_resolved (hinv : PollInv s) :
    OpenCall.Sound s { c with progress := .resolved (s.cursor.bind s.db.blockHeightByHash) } := by
  intro n hn h hle _ txid hm
  obtain ⟨hash, hc, hheight⟩ := Option.bind_eq_some_iff.mp hn
  obtain ⟨β, hβ⟩ := hinv.writer.branch
  exact listed_of_cursor hinv hc
    (hβ.mem_of_mines (ScanDb.blockInfoAt_of_height hheight) hle hm)

/-- A stored transaction not above the cursor was listed before, any other is listed now. -/
theorem sound_listed (hinv : PollInv s) {since : Option ℕ}
    (hg : s.db.Grounded (c.lastHeight.getD 0))
    (hs : OpenCall.Sound s { c with progress := .resolved since }) :
    OpenCall.Sound s
      { c with progress := .listed (s.db.queryTransactions (since.map (· + 1))) } := by
  intro h hd txid hm
  obtain ⟨β, hβ⟩ := hinv.writer.branch
  obtain ⟨mined, hmem, hmined⟩ := (hg h hd).2 txid hm
  by_cases hlow : ∃ n ∈ since, h ≤ n
  · obtain ⟨n, hn, hle⟩ := hlow
    exact .inr (hs n hn h hle hd txid hm)
  · refine .inl (ScanDb.mem_queryTransactions.mpr ⟨mined, hmem, ?_⟩)
    rintro start hstart h' hh'
    obtain ⟨n, hn, rfl⟩ := Option.map_eq_some_iff.mp hstart
    have heq : h = h' := hβ.mines_unique hm (hmined h' hh')
    have hlt : ¬ h ≤ n := fun hle => hlow ⟨n, hn, hle⟩
    omega

/-- A block up to the call's height vouches for what the call accounts for. -/
theorem listed_below (hinv : PollInv s) {transactions : List ℕ}
    (hg : s.db.Grounded (c.lastHeight.getD 0))
    (hs : ∀ h ≤ c.lastHeight.getD 0, ∀ txid, s.db.Mines h txid →
      txid ∈ transactions ∨ Listed s.replies txid)
    {h : ℕ} (hd : h ≤ c.lastHeight.getD 0) {hash : BlockHash} (hh : s.db.blockInfoAt h = some hash)
    {txid : ℕ} (htx : txid ∈ hash.flatMap BlockContent.txids) :
    txid ∈ transactions ∨ Listed s.replies txid := by
  obtain ⟨β, hβ⟩ := hinv.writer.branch
  obtain ⟨k, hk, hm⟩ := hβ.mines_below hh htx
  exact hs k (by omega) txid (hm (hg k (by omega)).1)

theorem PollInv.read (hinv : PollInv s) (hc : s.call = some c) : PollInv (s.read c) := by
  have hcall := hinv.call c hc
  obtain ⟨scanned, target, progress⟩ := c
  cases progress with
  | started =>
    apply hinv.advance (c := ⟨scanned, target, .started⟩)
    exact hcall.imp id fun hg => ⟨hg.1, sound_resolved hinv⟩
  | resolved since =>
    apply hinv.advance (c := ⟨scanned, target, .resolved since⟩)
    exact hcall.imp id fun hg => ⟨hg.1, sound_listed hinv hg.1 hg.2⟩
  | listed transactions =>
    simp only [PollState.read]
    split
    · rename_i hash hhash
      obtain ⟨h, hh, hrow⟩ := Option.bind_eq_some_iff.mp hhash
      rcases hcall with hnone | ⟨hg, hs⟩
      · rw [ScanDb.firstScannedBlock_eq_none.mp hnone h] at hrow
        cases hrow
      · apply hinv.finish
        rintro _ ⟨⟩ txid htx
        exact listed_below hinv hg hs (by simp [hh]) hrow htx
    · apply hinv.advance (c := ⟨scanned, target, .listed transactions⟩)
      exact hcall
  | missing transactions =>
    refine hinv.finish fun hash hhash txid htx => ?_
    rcases hcall with hnone | ⟨hg, hs⟩
    · rw [hnone] at hhash
      cases hhash
    · -- the birthday block is scanned, so it is the earliest one
      obtain ⟨first, hfirst⟩ := Option.isSome_iff_exists.mp (hg 0 (Nat.zero_le _)).1
      rw [ScanDb.firstScannedBlock_eq hfirst] at hhash
      cases hhash
      exact listed_below hinv hg hs (Nat.zero_le _) hfirst htx

end Reads

/-! ## The result -/

section Result

variable {s : PollState}

theorem pollInv_init : PollInv .init := by
  have hrow : ∀ h, PollState.init.db.blockInfoAt h = none := fun _ => rfl
  refine ⟨⟨⟨⟨[], .nil⟩, fun h hh => ?_⟩, nofun, fun h txid hm => ?_⟩,
    fun k r hash txid hk => ?_, nofun⟩
  · cases hh
  · obtain ⟨hash, b, hh, _⟩ := hm
    rw [hrow h] at hh
    cases hh
  · cases hk

theorem PollInv.begin (hinv : PollInv s) {target : ℕ} (hsafe : (PollEvent.begin target).Safe s) :
    PollInv { s with call := some ⟨s.status, target, .started⟩ } := by
  refine ⟨⟨hinv.writer.branch, hinv.writer.pending_mined, hinv.writer.stored⟩, hinv.replies, ?_⟩
  rintro _ ⟨⟩
  rcases hsafe with ⟨hrows, hpending⟩ | hnone
  · refine .inr ⟨fun h hh => ⟨hrows h hh, fun txid hm => ?_⟩, trivial⟩
    refine (hinv.writer.stored h txid hm).resolve_right fun hmem => ?_
    have := hpending _ hmem
    omega
  · exact .inl hnone

theorem PollInv.step (hinv : PollInv s) {e : PollEvent} (hsafe : e.Safe s) :
    PollInv (e.step s) := by
  cases e with
  | scan β start stop =>
    simp only [PollEvent.step]
    split
    · rename_i happ
      obtain ⟨hβ, hrows⟩ := hsafe
      refine hinv.of_writer (hinv.writer.scan happ.1 hβ) rfl rfl
        (fun hc hnone => absurd hnone (hrows hc)) fun c hc hg => ⟨fun h hh => ?_, held_scan hβ⟩
      obtain ⟨hash, hhash⟩ := Option.isSome_iff_exists.mp (hg h hh).1
      rw [blockInfoAt_scan, hβ.putBlocks_mono hhash, hhash]
    · exact hinv
  | record =>
    simp only [PollEvent.step]
    split
    · exact hinv
    · rename_i x pending hp
      have hput := ScanDb.held_putTransaction
        (hinv.writer.pending_mined x (hp ▸ List.mem_cons_self))
      exact hinv.of_writer (hinv.writer.record hp) rfl rfl (fun _ hnone => hnone)
        fun _ _ _ => ⟨fun _ _ => rfl, hput.2⟩
  | rewind height =>
    simp only [PollEvent.step]
    split
    · rename_i hp
      refine hinv.of_writer (hinv.writer.rewind hp) rfl rfl (fun _ hnone => ?_)
        fun c hc _ => ⟨fun h hh => ?_, fun _ => ScanDb.Held.truncate⟩
      · refine firstScannedBlock_of_rows hnone fun h => ?_
        rw [ScanDb.blockInfoAt_truncate]
        split
        · exact .inl rfl
        · exact .inr rfl
      · rw [ScanDb.blockInfoAt_truncate, if_pos (Nat.le_trans hh (hsafe c hc))]
    · exact hinv
  | publish tipKnown =>
    simp only [PollEvent.step]
    split
    · exact hinv.of_writer
        ⟨hinv.writer.branch, hinv.writer.pending_mined, hinv.writer.stored⟩ rfl rfl
        (fun _ hnone => hnone) fun _ _ _ => ⟨fun _ _ => rfl, fun _ ht => ht⟩
    · exact hinv
  | begin target =>
    simp only [PollEvent.step]
    split
    · exact hinv.begin hsafe
    · exact hinv
  | read =>
    simp only [PollEvent.step]
    split
    · exact hinv
    · rename_i c hc
      exact hinv.read hc

end Result

/-- In every run whose steps are safe the poller misses nothing. -/
theorem missesNothing_of_safe (es : List PollEvent)
    (h : Along PollEvent.step PollEvent.Safe .init es) :
    (run PollEvent.step .init es).MissesNothing := by
  have hinv : PollInv (run PollEvent.step .init es) :=
    invariant (fun _ _ hs he => PollInv.step hs he) pollInv_init h
  intro k r hash txid hk hr htx
  exact .inl (hinv.replies k r hash txid hk hr htx)

/-! ## A restore that starts at the tip -/

/-- Three blocks, the first of which pays the wallet. -/
def paidAtBirthday : Branch where
  blocks := [⟨0, [7], []⟩, ⟨1, [], []⟩, ⟨2, [], []⟩]
  unique := by decide

/-- The tip is scanned first and a call falls back to it as the earliest scanned block; the rest
is scanned before the next call. -/
def tipFirstPolls : List PollEvent :=
  [.scan paidAtBirthday 2 3, .publish true, .begin 1, .read, .read, .read, .read,
    .scan paidAtBirthday 0 2, .publish true, .begin 1, .read, .read, .read]

/-- The cursor of the first call hides the payment from the second. -/
theorem tipFirst_payment_missed :
    (run PollEvent.step .init tipFirstPolls).replies =
      [⟨[], some (paidAtBirthday.hashAt 2)⟩, ⟨[], some (paidAtBirthday.hashAt 2)⟩] ∧
    ¬ (run PollEvent.step .init tipFirstPolls).MissesNothing := by
  have hreplies : (run PollEvent.step .init tipFirstPolls).replies =
      [⟨[], some (paidAtBirthday.hashAt 2)⟩, ⟨[], some (paidAtBirthday.hashAt 2)⟩] := by
    decide
  refine ⟨hreplies, fun h => ?_⟩
  have hmiss := h 0 ⟨[], some (paidAtBirthday.hashAt 2)⟩ _ 7 (by rw [hreplies]; rfl) rfl (by decide)
  rw [hreplies] at hmiss
  rcases hmiss with ⟨r, hr, hmem⟩ | hnext
  · cases List.mem_singleton.mp hr
    cases hmem
  · exact absurd (hnext _ rfl) (by decide)

/-- The other branch from the second block on. -/
def paidOnFork : Branch where
  blocks := [⟨0, [7], []⟩, ⟨3, [], [8]⟩, ⟨4, [], []⟩]
  unique := by decide

/-- Scanned from the birthday on, with a reorg between two calls. -/
def inOrderPolls : List PollEvent :=
  [.scan paidAtBirthday 0 2, .publish true, .begin 1, .read, .scan paidAtBirthday 2 3, .read, .read,
    .rewind 0, .scan paidOnFork 1 3, .record, .publish true, .begin 2, .read, .read, .read]

theorem inOrderPolls_misses_nothing :
    (run PollEvent.step .init inOrderPolls).replies =
      [⟨[7], some (paidAtBirthday.hashAt 1)⟩, ⟨[8, 7], some (paidOnFork.hashAt 1)⟩] ∧
    (run PollEvent.step .init inOrderPolls).MissesNothing :=
  ⟨by decide, missesNothing_of_safe inOrderPolls (by decide)⟩

end Zecd
