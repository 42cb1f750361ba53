import Zecd.Foundation.Runs

/-! # Rewinding past a reorg

A continuity break makes the wallet truncate its scanned chain below the stale block. The search
for a height it can be truncated to finds one whenever there is one. A pass that rewinds leaves
less of the chain unless the wallet's highest block is one the search ends at, as it can be for a
break inside the downloaded blocks.
-/

namespace Zecd.Rewind

open Runs

/-! ## The wallet database -/

inductive SqliteClientError where
  | requestedRewindInvalid (safeRewindHeight : Option ℕ)
  | other
  deriving DecidableEq, Repr

structure ScanRange where
  start : ℕ
  stop : ℕ
  priority : ℕ
  deriving DecidableEq, Repr

/-- The calls of the wallet database that the scan of a range makes. -/
structure WalletWrite (σ : Type) where
  truncateToHeight : ℕ → σ → Except SqliteClientError ℕ × σ
  suggestScanRanges : σ → Except SqliteClientError (List ScanRange)

inductive SyncError where
  | client (e : SqliteClientError)
  | unrecoverableReorg (atHeight requested : ℕ) (safeRewindHeight : Option ℕ)
  | walletApply
  deriving DecidableEq, Repr

variable {σ : Type} (db : WalletWrite σ)

/-! ## The rewind -/

def truncateFirst : List ℕ → σ → Except SyncError (Option ℕ) × σ
  | [], s => (.ok none, s)
  | target :: targets, s =>
    match db.truncateToHeight target s with
    | (.ok h, s) => (.ok (some h), s)
    | (.error (.requestedRewindInvalid _), s) => truncateFirst targets s
    | (.error .other, s) => (.error (.client .other), s)

/-- What is tried once the requested height is refused: the base distance, the height below the
stale block, and the height the database named, where they are not what was refused already. -/
def rewindCandidates (atHeight requested baseRequested : ℕ) (safeRewindHeight : Option ℕ) :
    List ℕ :=
  let shallow := atHeight - 2
  (if baseRequested < atHeight ∧ requested < baseRequested then [baseRequested] else []) ++
    shallow :: (safeRewindHeight.filter fun h => h < requested && h < shallow).toList

def performRewind (atHeight requested baseRequested : ℕ) (s : σ) : Except SyncError ℕ × σ :=
  match db.truncateToHeight requested s with
  | (.ok h, s) => (.ok h, s)
  | (.error .other, s) => (.error (.client .other), s)
  | (.error (.requestedRewindInvalid safeRewindHeight), s) =>
    match truncateFirst db
        (rewindCandidates atHeight requested baseRequested safeRewindHeight) s with
    | (.ok (some h), s) => (.ok h, s)
    | (.ok none, s) => (.error (.unrecoverableReorg atHeight requested safeRewindHeight), s)
    | (.error e, s) => (.error e, s)

/-! ## The pass -/

structure ScanOutcome where
  rangesChanged : Bool
  reorged : Bool
  deriving DecidableEq, Repr

def reorgBaseMargin : ℕ := 10
def reorgMaxMargin : ℕ := 10000

def nextReorgMargin (current : ℕ) (reorged : Bool) : ℕ :=
  if reorged then min (min (current * 2) (2 ^ 32 - 1)) reorgMaxMargin else reorgBaseMargin

/-- What the scanner makes of a downloaded range: a break or a failure applies none of it. -/
inductive ScanResult (σ : Type) where
  | scanned (s : σ)
  | continuityError (atHeight : ℕ)
  | failed

def scanBlocks (result : ScanResult σ) (scanRange : ScanRange) (reorgMargin : ℕ) (s : σ) :
    Except SyncError ScanOutcome × σ :=
  match result with
  | .continuityError atHeight =>
    let margin := max reorgMargin reorgBaseMargin
    match performRewind db atHeight (atHeight - margin) (atHeight - reorgBaseMargin) s with
    | (.ok _, s) => (.ok ⟨true, true⟩, s)
    | (.error e, s) => (.error e, s)
  | .scanned s =>
    match db.suggestScanRanges s with
    | .ok ranges =>
      (.ok ⟨ranges.head?.any fun range => decide (scanRange.priority < range.priority), false⟩, s)
    | .error e => (.error (.client e), s)
  | .failed => (.error .walletApply, s)

/-- The wallet between two passes. -/
structure SyncState (σ : Type) where
  wallet : σ
  reorgMargin : ℕ

/-- One pass over a range; the margin is kept if it fails. -/
def syncPass (st : SyncState σ) (e : ScanRange × ScanResult σ) :
    Except SyncError ScanOutcome × SyncState σ :=
  match scanBlocks db e.2 e.1 st.reorgMargin st.wallet with
  | (.ok outcome, s) => (.ok outcome, ⟨s, nextReorgMargin st.reorgMargin outcome.reorged⟩)
  | (.error err, s) => (.error err, ⟨s, st.reorgMargin⟩)

/-! ## The chain the wallet holds -/

/-- The scanned blocks, and those among them the wallet can be truncated to. -/
structure ScannedChain where
  scanned : Set ℕ
  targets : Set ℕ
  targets_subset : targets ⊆ scanned

namespace ScannedChain

/-- What is left below a height, and at it. -/
def truncate (c : ScannedChain) (h : ℕ) : ScannedChain where
  scanned := c.scanned ∩ Set.Iic h
  targets := c.targets ∩ Set.Iic h
  targets_subset := Set.inter_subset_inter_left _ c.targets_subset

/-- The height a truncation to `t` would leave as the highest. -/
def Below (c : ScannedChain) (t h : ℕ) : Prop := IsGreatest {v | v ∈ c.targets ∧ v ≤ t} h

def HasBelow (c : ScannedChain) (t : ℕ) : Prop := ∃ v ∈ c.targets, v ≤ t

variable {c : ScannedChain} {t t' h : ℕ}

theorem HasBelow.exists_below (hc : c.HasBelow t) : ∃ h, c.Below t h := by
  obtain ⟨v, hv, hle⟩ := hc
  have hbdd : BddAbove {v | v ∈ c.targets ∧ v ≤ t} := ⟨t, fun _ hu => hu.2⟩
  exact ⟨_, Nat.sSup_mem ⟨v, hv, hle⟩ hbdd, fun _ hu => le_csSup hbdd hu⟩

theorem Below.hasBelow (hb : c.Below t h) : c.HasBelow t := ⟨h, hb.1⟩

theorem HasBelow.mono (hc : c.HasBelow t) (ht : t ≤ t') : c.HasBelow t' := by
  obtain ⟨v, hv, hle⟩ := hc
  exact ⟨v, hv, hle.trans ht⟩

theorem isGreatest_truncate (hh : h ∈ c.targets) : IsGreatest (c.truncate h).scanned h :=
  ⟨⟨c.targets_subset hh, Set.mem_Iic.mpr le_rfl⟩, fun _ hb => hb.2⟩

end ScannedChain

/-- The contract of `truncate_to_height`: it truncates to the highest target at or below the
request, or refuses and leaves the wallet as it is. -/
structure TruncateContract (view : σ → ScannedChain) : Prop where
  rewinds : ∀ s t h, (view s).Below t h →
    ∃ s', db.truncateToHeight t s = (.ok h, s') ∧ view s' = (view s).truncate h
  refuses : ∀ s t, ¬ (view s).HasBelow t →
    ∃ safe, db.truncateToHeight t s = (.error (.requestedRewindInvalid safe), s)

/-! ## The search for a target -/

section Search

variable {db : WalletWrite σ} {view : σ → ScannedChain} {s : σ} {atHeight margin t h : ℕ}
  {ts : List ℕ}

/-- The heights that are tried for a break, the deepest first. -/
def attempts (atHeight margin : ℕ) : List ℕ :=
  [atHeight - margin, atHeight - reorgBaseMargin, atHeight - 2]

/-- The deepest height tried that has a target at or below it. -/
structure Deepest (c : ScannedChain) (atHeight margin t : ℕ) : Prop where
  attempted : t ∈ attempts atHeight margin
  hasBelow : c.HasBelow t
  le : ∀ t' ∈ attempts atHeight margin, c.HasBelow t' → t ≤ t'

theorem TruncateContract.truncateFirst_refused (hl : TruncateContract db view)
    (ht : ¬ (view s).HasBelow t) : truncateFirst db (t :: ts) s = truncateFirst db ts s := by
  obtain ⟨safe, hrefused⟩ := hl.refuses s t ht
  rw [truncateFirst, hrefused]

variable (ts) in
theorem TruncateContract.truncateFirst_rewound (hl : TruncateContract db view)
    (hb : (view s).Below t h) :
    ∃ s', truncateFirst db (t :: ts) s = (.ok (some h), s') ∧
      view s' = (view s).truncate h := by
  obtain ⟨s', hrewound, hview⟩ := hl.rewinds s t h hb
  exact ⟨s', by rw [truncateFirst, hrewound], hview⟩

/-- Once the requested height is refused, the candidates are the base distance and the height
below the stale block: what the database names is deeper than what it refused. -/
theorem TruncateContract.truncateFirst_candidates (hl : TruncateContract db view)
    (hmargin : reorgBaseMargin ≤ margin)
    (hreq : ¬ (view s).HasBelow (atHeight - margin)) (safe : Option ℕ) :
    truncateFirst db (rewindCandidates atHeight (atHeight - margin) (atHeight - reorgBaseMargin)
        safe) s =
      truncateFirst db [atHeight - reorgBaseMargin, atHeight - 2] s := by
  have hsafe : ∀ ts, truncateFirst db (((safe.filter fun h =>
      decide (h < atHeight - margin) && decide (h < atHeight - 2)).toList) ++ ts) s =
        truncateFirst db ts s := by
    intro ts
    cases hs : safe.filter fun h => decide (h < atHeight - margin) && decide (h < atHeight - 2) with
    | none => rfl
    | some v =>
      obtain ⟨-, hv⟩ := Option.filter_eq_some_iff.mp hs
      have hlt : v < atHeight - margin := by
        rw [Bool.and_eq_true] at hv
        exact of_decide_eq_true hv.1
      exact hl.truncateFirst_refused fun hbelow => hreq (hbelow.mono hlt.le)
  have hshallow : truncateFirst db ((atHeight - 2) :: (safe.filter fun h =>
      decide (h < atHeight - margin) && decide (h < atHeight - 2)).toList) s =
        truncateFirst db [atHeight - 2] s := by
    by_cases hbelow : (view s).HasBelow (atHeight - 2)
    · obtain ⟨h, hb⟩ := hbelow.exists_below
      obtain ⟨s', hrewound, -⟩ := hl.rewinds s _ _ hb
      simp only [truncateFirst, hrewound]
    · rw [hl.truncateFirst_refused hbelow, hl.truncateFirst_refused hbelow]
      simpa using hsafe []
  have hmargins : atHeight - margin ≤ atHeight - reorgBaseMargin := by omega
  unfold rewindCandidates
  split
  · by_cases hbase : (view s).HasBelow (atHeight - reorgBaseMargin)
    · obtain ⟨h, hb⟩ := hbase.exists_below
      obtain ⟨s', hrewound, -⟩ := hl.rewinds s _ _ hb
      simp only [List.singleton_append, truncateFirst, hrewound]
    · rw [List.singleton_append, hl.truncateFirst_refused hbase, hl.truncateFirst_refused hbase]
      exact hshallow
  · next hsame =>
    have heq : atHeight - reorgBaseMargin = atHeight - margin := by
      rw [reorgBaseMargin] at hsame hmargins ⊢
      omega
    rw [List.nil_append, heq, hl.truncateFirst_refused hreq]
    exact hshallow

variable (atHeight) in
/-- The rewind ends at the highest target at or below the deepest height that has one, or is
refused and changes nothing. -/
theorem TruncateContract.performRewind_cases (hl : TruncateContract db view)
    (hmargin : reorgBaseMargin ≤ margin) (s : σ) :
    (∃ t h s', Deepest (view s) atHeight margin t ∧ (view s).Below t h ∧
      performRewind db atHeight (atHeight - margin) (atHeight - reorgBaseMargin) s = (.ok h, s') ∧
      view s' = (view s).truncate h) ∨
    (¬ (view s).HasBelow (atHeight - 2) ∧ ∃ safe,
      performRewind db atHeight (atHeight - margin) (atHeight - reorgBaseMargin) s =
        (.error (.unrecoverableReorg atHeight (atHeight - margin) safe), s)) := by
  have hbase : atHeight - margin ≤ atHeight - reorgBaseMargin := by omega
  have hshallow : atHeight - reorgBaseMargin ≤ atHeight - 2 := by rw [reorgBaseMargin]; omega
  by_cases hreq : (view s).HasBelow (atHeight - margin)
  · left
    obtain ⟨h, hb⟩ := hreq.exists_below
    obtain ⟨s', hrewound, hview⟩ := hl.rewinds s _ _ hb
    refine ⟨_, h, s', ⟨by simp [attempts], hreq, ?_⟩, hb, by simp only [performRewind, hrewound],
      hview⟩
    intro t' ht' _
    simp only [attempts, List.mem_cons, List.not_mem_nil, or_false] at ht'
    omega
  obtain ⟨safe, hrefused⟩ := hl.refuses s _ hreq
  have hcandidates := hl.truncateFirst_candidates hmargin hreq safe
  by_cases hbelow : (view s).HasBelow (atHeight - reorgBaseMargin)
  · left
    obtain ⟨h, hb⟩ := hbelow.exists_below
    obtain ⟨s', hrewound, hview⟩ := hl.truncateFirst_rewound [atHeight - 2] hb
    refine ⟨_, h, s', ⟨by simp [attempts], hbelow, ?_⟩, hb, ?_, hview⟩
    · intro t' ht' hhas
      simp only [attempts, List.mem_cons, List.not_mem_nil, or_false] at ht'
      rcases ht' with rfl | rfl | rfl
      · exact absurd hhas hreq
      · exact le_rfl
      · exact hshallow
    · simp only [performRewind, hrefused, hcandidates, hrewound]
  by_cases hlast : (view s).HasBelow (atHeight - 2)
  · left
    obtain ⟨h, hb⟩ := hlast.exists_below
    obtain ⟨s', hrewound, hview⟩ := hl.truncateFirst_rewound [] hb
    refine ⟨_, h, s', ⟨by simp [attempts], hlast, ?_⟩, hb, ?_, hview⟩
    · intro t' ht' hhas
      simp only [attempts, List.mem_cons, List.not_mem_nil, or_false] at ht'
      rcases ht' with rfl | rfl | rfl
      · exact absurd hhas hreq
      · exact absurd hhas hbelow
      · exact le_rfl
    · simp only [performRewind, hrefused, hcandidates, hl.truncateFirst_refused hbelow, hrewound]
  · right
    have hnone : truncateFirst db [atHeight - reorgBaseMargin, atHeight - 2] s = (.ok none, s) := by
      rw [hl.truncateFirst_refused hbelow, hl.truncateFirst_refused hlast, truncateFirst]
    refine ⟨hlast, safe, ?_⟩
    simp only [performRewind, hrefused, hcandidates, hnone]

end Search

/-! ## Passes that rewind -/

section Passes

variable {db : WalletWrite σ} {view : σ → ScannedChain}

/-- The deepest height with a target is no lower than the wallet's highest block, and that block
is a target: the search ends at it. -/
def KeepsTop (c : ScannedChain) (atHeight margin top : ℕ) : Prop :=
  top ∈ c.targets ∧ ∃ t, Deepest c atHeight margin t ∧ top ≤ t

/-- A break that is not answered by truncating to the wallet's highest block. -/
def ScanResult.RemovesTop (c : ScannedChain) (reorgMargin : ℕ) : ScanResult σ → Prop
  | .continuityError atHeight => ∀ top, IsGreatest c.scanned top →
      ¬ KeepsTop c atHeight (max reorgMargin reorgBaseMargin) top
  | _ => True

theorem ScanResult.removesTop_of_stored {c : ScannedChain} {reorgMargin atHeight : ℕ}
    (hat : 2 ≤ atHeight) (hstored : atHeight - 1 ∈ c.scanned) :
    (ScanResult.continuityError atHeight : ScanResult σ).RemovesTop c reorgMargin := by
  rintro top htop ⟨-, t, hdeepest, hle⟩
  have hstale := htop.2 hstored
  have ht := hdeepest.attempted
  have hmargin := le_max_right reorgMargin reorgBaseMargin
  simp only [attempts, List.mem_cons, List.not_mem_nil, or_false, reorgBaseMargin] at ht hmargin
  omega

def Reorgs (db : WalletWrite σ) (st : SyncState σ) (e : ScanRange × ScanResult σ) : Prop :=
  ∃ outcome, (syncPass db st e).1 = .ok outcome ∧ outcome.reorged = true

theorem Reorgs.exists_rewind {st : SyncState σ} {e : ScanRange × ScanResult σ}
    (h : Reorgs db st e) : ∃ atHeight, e.2 = .continuityError atHeight ∧
      ∃ h, performRewind db atHeight (atHeight - max st.reorgMargin reorgBaseMargin)
        (atHeight - reorgBaseMargin) st.wallet = (.ok h, (syncPass db st e).2.wallet) := by
  obtain ⟨outcome, hok, hreorged⟩ := h
  obtain ⟨scanRange, result⟩ := e
  unfold syncPass at hok ⊢
  dsimp only at hok ⊢
  cases result with
  | failed => cases hok
  | scanned s =>
    unfold scanBlocks at hok
    dsimp only at hok
    cases hranges : db.suggestScanRanges s with
    | ok ranges =>
      rw [hranges] at hok
      cases hok
      cases hreorged
    | error e =>
      rw [hranges] at hok
      cases hok
  | continuityError atHeight =>
    refine ⟨atHeight, rfl, ?_⟩
    unfold scanBlocks at hok ⊢
    dsimp only at hok ⊢
    generalize performRewind db atHeight (atHeight - max st.reorgMargin reorgBaseMargin)
      (atHeight - reorgBaseMargin) st.wallet = rewound at hok ⊢
    obtain ⟨r, s⟩ := rewound
    cases r with
    | ok h => exact ⟨h, rfl⟩
    | error e => cases hok

/-- A pass that reports a reorg leaves a lower highest block, or ends at the one there was. -/
theorem TruncateContract.lowers_iff (hl : TruncateContract db view) {st : SyncState σ}
    {e : ScanRange × ScanResult σ} {atHeight top : ℕ} (h : Reorgs db st e)
    (hbreak : e.2 = .continuityError atHeight) (htop : IsGreatest (view st.wallet).scanned top) :
    (∃ top', IsGreatest (view (syncPass db st e).2.wallet).scanned top' ∧ top' < top) ↔
      ¬ KeepsTop (view st.wallet) atHeight (max st.reorgMargin reorgBaseMargin) top := by
  obtain ⟨atHeight', hbreak', h, hrewind⟩ := h.exists_rewind
  obtain rfl : atHeight' = atHeight := ScanResult.continuityError.inj (hbreak'.symm.trans hbreak)
  rcases hl.performRewind_cases _ (le_max_right st.reorgMargin _) st.wallet with
    ⟨t, h', s', hdeepest, hb, hperf, hview⟩ | ⟨-, safe, hperf⟩
  · rw [hrewind] at hperf
    obtain ⟨rfl, hs⟩ : h = h' ∧ (syncPass db st e).2.wallet = s' := by
      simpa using hperf
    have hleft : IsGreatest (view (syncPass db st e).2.wallet).scanned h := by
      rw [hs, hview]
      exact ScannedChain.isGreatest_truncate hb.1.1
    have hle : h ≤ top := htop.2 ((view st.wallet).targets_subset hb.1.1)
    constructor
    · rintro ⟨top', htop', hlt⟩ ⟨htarget, t', hdeepest', hle'⟩
      obtain rfl := htop'.unique hleft
      obtain rfl : t' = t := le_antisymm (hdeepest'.le _ hdeepest.attempted hdeepest.hasBelow)
        (hdeepest.le _ hdeepest'.attempted hdeepest'.hasBelow)
      have := hb.2 ⟨htarget, hle'⟩
      omega
    · intro hkeeps
      refine ⟨h, hleft, lt_of_le_of_ne hle ?_⟩
      rintro rfl
      exact hkeeps ⟨hb.1.1, t, hdeepest, hb.1.2⟩
  · rw [hrewind] at hperf
    cases hperf

/-- Consecutive passes that report a reorg, and are not answered at the wallet's highest block, are
fewer than the blocks below it. -/
theorem TruncateContract.reorgs_le (hl : TruncateContract db view)
    {es : List (ScanRange × ScanResult σ)} {st : SyncState σ}
    (h : Along (fun st e => (syncPass db st e).2)
      (fun st e => Reorgs db st e ∧ e.2.RemovesTop (view st.wallet) st.reorgMargin) st es) {top : ℕ}
    (htop : IsGreatest (view st.wallet).scanned top) : es.length ≤ top := by
  induction es generalizing st top with
  | nil => exact Nat.zero_le _
  | cons e es ih =>
    obtain ⟨⟨hreorgs, hremoves⟩, hrest⟩ := h
    obtain ⟨atHeight, hbreak, -⟩ := hreorgs.exists_rewind
    rw [hbreak] at hremoves
    obtain ⟨top', htop', hlt⟩ :=
      (hl.lowers_iff hreorgs hbreak htop).mpr (hremoves top htop)
    have := ih hrest htop'
    rw [List.length_cons]
    omega

end Passes

/-- For every break at two or above, a rewind is found exactly if the wallet has a target below
the stale block, and it ends at the highest one the deepest possible attempt allows. Otherwise
the reorg is reported as unrecoverable and the wallet unchanged. A pass that rewinds lowers the
highest block exactly unless the search ends at it, and only so many passes that lower it can
follow each other. -/
theorem rewinds_exactly {db : WalletWrite σ} {view : σ → ScannedChain}
    (hl : TruncateContract db view) :
    (∀ (s : σ) (atHeight margin : ℕ), 2 ≤ atHeight → reorgBaseMargin ≤ margin →
      let r := performRewind db atHeight (atHeight - margin) (atHeight - reorgBaseMargin) s
      ((∃ h, r.1 = .ok h ∧ h ∈ (view s).targets ∧ h ≤ atHeight - 2) ↔
        (view s).HasBelow (atHeight - 2)) ∧
      (∀ h, r.1 = .ok h →
        (∃ t, Deepest (view s) atHeight margin t ∧ (view s).Below t h) ∧
          view r.2 = (view s).truncate h) ∧
      (¬ (view s).HasBelow (atHeight - 2) → r.2 = s ∧
        ∃ safe, r.1 = .error (.unrecoverableReorg atHeight (atHeight - margin) safe))) ∧
    (∀ st e atHeight, Reorgs db st e → e.2 = .continuityError atHeight →
      ∀ top, IsGreatest (view st.wallet).scanned top →
        ((∃ top', IsGreatest (view (syncPass db st e).2.wallet).scanned top' ∧ top' < top) ↔
          ¬ KeepsTop (view st.wallet) atHeight (max st.reorgMargin reorgBaseMargin) top)) ∧
    ∀ st es, Along (fun st e => (syncPass db st e).2)
        (fun st e => Reorgs db st e ∧ e.2.RemovesTop (view st.wallet) st.reorgMargin) st es →
      ∀ top, IsGreatest (view st.wallet).scanned top → es.length ≤ top := by
  refine ⟨fun s atHeight margin hat hmargin => ?_,
    fun st e atHeight h hbreak top htop => hl.lowers_iff h hbreak htop,
    fun st es h top htop => hl.reorgs_le h htop⟩
  dsimp only
  rcases hl.performRewind_cases atHeight hmargin s with
    ⟨t, h, s', hdeepest, hb, hperf, hview⟩ | ⟨hnone, safe, hperf⟩
  · have hle : t ≤ atHeight - 2 := by
      have ht := hdeepest.attempted
      simp only [attempts, List.mem_cons, List.not_mem_nil, or_false, reorgBaseMargin] at ht hmargin
      omega
    have hhas := hdeepest.hasBelow.mono hle
    rw [hperf]
    refine ⟨iff_of_true ⟨h, rfl, hb.1.1, hb.1.2.trans hle⟩ hhas, ?_, fun hnot => absurd hhas hnot⟩
    rintro h' heq
    cases heq
    exact ⟨⟨t, hdeepest, hb⟩, hview⟩
  · rw [hperf]
    refine ⟨iff_of_false ?_ hnone, ?_, fun _ => ⟨rfl, safe, rfl⟩⟩
    · rintro ⟨h, heq, -⟩
      cases heq
    · intro h heq
      cases heq

/-! ### A wallet of five blocks -/

/-- A wallet that can be truncated to every block it scanned. -/
def finiteWallet : WalletWrite (Finset ℕ) where
  truncateToHeight t s :=
    if h : (s.filter (· ≤ t)).Nonempty then
      (.ok ((s.filter (· ≤ t)).max' h), s.filter (· ≤ (s.filter (· ≤ t)).max' h))
    else (.error (.requestedRewindInvalid none), s)
  suggestScanRanges _ := .ok []

def finiteChain (s : Finset ℕ) : ScannedChain := ⟨↑s, ↑s, subset_rfl⟩

theorem finiteWallet_contract : TruncateContract finiteWallet finiteChain where
  rewinds s t h hb := by
    have hmem : h ∈ s.filter (· ≤ t) := Finset.mem_filter.mpr hb.1
    have hmax : (s.filter (· ≤ t)).max' ⟨h, hmem⟩ = h := by
      refine ((s.filter (· ≤ t)).isGreatest_max' ⟨h, hmem⟩).unique ⟨hmem, fun v hv => ?_⟩
      exact hb.2 (Finset.mem_filter.mp hv)
    refine ⟨s.filter (· ≤ h), ?_, ?_⟩
    · simp only [finiteWallet, dif_pos (show (s.filter (· ≤ t)).Nonempty from ⟨h, hmem⟩), hmax]
    · simp only [finiteChain, ScannedChain.truncate, Finset.coe_filter, ScannedChain.mk.injEq]
      exact ⟨rfl, rfl⟩
  refuses s t hnone := by
    refine ⟨none, dif_neg ?_⟩
    rintro ⟨v, hv⟩
    exact hnone ⟨v, Finset.mem_filter.mp hv⟩

def fiveBlocks : Finset ℕ := {1, 2, 3, 4, 5}

theorem fiveBlocks_top : IsGreatest (finiteChain fiveBlocks).scanned 5 := by
  constructor
  · simp [finiteChain, fiveBlocks]
  · intro v hv
    simp only [finiteChain, fiveBlocks, Finset.coe_insert, Finset.coe_singleton,
      Set.mem_insert_iff, Set.mem_singleton_iff] at hv
    omega

/-- The stale block is the fifth: the requested height is below the first, and the search ends
at a block below the stale one. -/
theorem fiveBlocks_rewind :
    (∃ h, (performRewind finiteWallet 6 0 0 fiveBlocks).1 = .ok h ∧
      h ∈ (finiteChain fiveBlocks).targets ∧ h ≤ 4) ∧
    ∃ top', IsGreatest (finiteChain (syncPass finiteWallet ⟨fiveBlocks, 10⟩
      (⟨6, 10006, 0⟩, .continuityError 6)).2.wallet).scanned top' ∧ top' < 5 := by
  have hspec := rewinds_exactly finiteWallet_contract
  have hreorgs : Reorgs finiteWallet ⟨fiveBlocks, 10⟩ (⟨6, 10006, 0⟩, .continuityError 6) :=
    ⟨⟨true, true⟩, by decide, rfl⟩
  refine ⟨(hspec.1 fiveBlocks 6 10 (by decide) (by decide)).1.mpr ⟨4, ?_, by decide⟩, ?_⟩
  · simp [finiteChain, fiveBlocks]
  · refine (hspec.2.1 _ _ 6 hreorgs rfl 5 fiveBlocks_top).mpr ?_
    exact ScanResult.removesTop_of_stored (σ := Finset ℕ) (by decide)
      (by simp [finiteChain, fiveBlocks]) 5 fiveBlocks_top

theorem fiveBlocks_truncate {t : ℕ} (ht : 5 ≤ t) :
    finiteWallet.truncateToHeight t fiveBlocks = (.ok 5, fiveBlocks) := by
  have hall : fiveBlocks.filter (· ≤ t) = fiveBlocks := by
    refine Finset.filter_true_of_mem fun v hv => ?_
    exact (fiveBlocks_top.2 (Finset.mem_coe.mpr hv)).trans ht
  have hmax : ∀ h, fiveBlocks.max' h = 5 := by decide
  simp only [finiteWallet, hall, hmax]
  rw [dif_pos (by decide)]
  decide

/-- Two of the blocks just downloaded do not fit together, 10000 blocks above the wallet's highest:
every pass rewinds to that block, however often the margin was doubled, and so for ever. -/
theorem insideBatch_keeps : TruncateContract finiteWallet finiteChain ∧
    ∀ n, ∃ es : List (ScanRange × ScanResult (Finset ℕ)), es.length = n ∧
      Along (fun st e => (syncPass finiteWallet st e).2)
        (fun st e => Reorgs finiteWallet st e ∧ st.wallet = fiveBlocks) ⟨fiveBlocks, 10⟩ es := by
  refine ⟨finiteWallet_contract, fun n =>
    ⟨List.replicate n (⟨6, 10006, 0⟩, .continuityError 10005), List.length_replicate, ?_⟩⟩
  have hpass : ∀ margin ≤ reorgMaxMargin, syncPass finiteWallet ⟨fiveBlocks, margin⟩
      (⟨6, 10006, 0⟩, .continuityError 10005) =
      (.ok ⟨true, true⟩, ⟨fiveBlocks, nextReorgMargin margin true⟩) := by
    intro margin hmargin
    have htruncate : finiteWallet.truncateToHeight (10005 - max margin reorgBaseMargin)
        fiveBlocks = (.ok 5, fiveBlocks) :=
      fiveBlocks_truncate (by rw [reorgMaxMargin] at hmargin; rw [reorgBaseMargin]; omega)
    simp only [syncPass, scanBlocks, performRewind, htruncate]
  have hrun : ∀ n, ∀ margin ≤ reorgMaxMargin, Along (fun st e => (syncPass finiteWallet st e).2)
      (fun st e => Reorgs finiteWallet st e ∧ st.wallet = fiveBlocks) ⟨fiveBlocks, margin⟩
        (List.replicate n (⟨6, 10006, 0⟩, .continuityError 10005)) := by
    intro n
    induction n with
    | zero => exact fun _ _ => trivial
    | succ n ih =>
      intro margin hmargin
      have hnext : nextReorgMargin margin true ≤ reorgMaxMargin := min_le_right _ _
      rw [List.replicate_succ, along_cons, hpass margin hmargin]
      exact ⟨⟨⟨_, congrArg Prod.fst (hpass margin hmargin), rfl⟩, rfl⟩, ih _ hnext⟩
  exact hrun n 10 (by decide)

end Zecd.Rewind
