import Zecd.Foundation.Runs
import Zecd.Enhance.Drain

/-! # The enhancement watermark

A published watermark promises that no request at or below it is still to be attempted. It is
computed over a list of requests, and holds exactly when every request that is not in the list,
or whose height could not be read, lies above it all the same.
-/

namespace Zecd.Enhance

open Runs

variable {cfg : Config} {reads : Reads} {s : State} {db : WalletDb}

def Publication.Sound (p : Publication) : Prop :=
  ∀ h, p.status.enhancedThrough = some h →
    (∀ t ∈ p.db.enhancementWork, .enhancement t ∉ p.satisfied →
      ∀ k, p.db.txHeight t = some k → h < k) ∧
    ∃ scanned, p.status.fullyScanned = some scanned ∧ h ≤ scanned

/-! ## The watermark of a list -/

/-- The list is too long to probe, or refers to a height at or below this one. -/
def Bounds (reads : Reads) (db : WalletDb) (requests : List EnhanceRequest) (k : ℕ) : Prop :=
  enhancedThroughMaxProbe < requests.length ∨
    ∃ r ∈ requests, ∃ j, enhancementRequestHeight reads db r = some j ∧ j ≤ k

theorem enhancedThrough_le (scanned : ℕ) (lowest : Option ℕ) :
    enhancedThrough scanned lowest ≤ scanned := by
  cases lowest with
  | none => exact le_rfl
  | some h => exact min_le_left _ _

theorem enhancedThrough_some_lt {scanned m k : ℕ} (hk : 0 < k) :
    enhancedThrough scanned (some m) < k ↔ scanned < k ∨ m ≤ k := by
  simp only [enhancedThrough]
  omega

theorem summarized_lt_iff {requests : List EnhanceRequest} {scanned k : ℕ} (hk : 0 < k) :
    enhancedThrough scanned (summarizeBacklog reads db requests).2 < k ↔
      scanned < k ∨ Bounds reads db requests k := by
  unfold summarizeBacklog
  split
  · next hnil =>
    obtain rfl := List.length_eq_zero_iff.mp hnil
    simp [enhancedThrough, Bounds]
  · split
    · next hlong =>
      rw [enhancedThrough_some_lt hk]
      simp [Bounds, hlong]
    · next hshort =>
      cases hmin : (requests.filterMap (enhancementRequestHeight reads db)).min? with
      | none =>
        have hnone : ∀ r ∈ requests, enhancementRequestHeight reads db r = none := by
          simpa using List.min?_eq_none_iff.mp hmin
        simp only [enhancedThrough, Bounds]
        refine ⟨.inl, ?_⟩
        rintro (h | h | ⟨r, hr, j, hj, -⟩)
        · exact h
        · exact absurd h hshort
        · simp [hnone r hr] at hj
      | some m =>
        obtain ⟨hmem, hle⟩ := List.min?_eq_some_iff.mp hmin
        obtain ⟨r, hr, hrm⟩ := List.mem_filterMap.mp hmem
        rw [enhancedThrough_some_lt hk]
        refine or_congr_right ⟨fun h => .inr ⟨r, hr, m, hrm, h⟩, ?_⟩
        rintro (h | ⟨r', hr', j, hj, hjk⟩)
        · exact absurd h hshort
        · exact (hle j (List.mem_filterMap.mpr ⟨r', hr', hj⟩)).trans hjk

/-! ## Publishing -/

/-- What a publish is computed from: the state it is made in, its reads, and the requests it
summarises (`none` if the table could not be read). -/
structure Basis where
  state : State
  reads : Reads
  requests : Option (List EnhanceRequest)

def Basis.backlog (b : Basis) : ℕ × Option ℕ :=
  match b.requests with
  | none => (0, some 0)
  | some requests => summarizeBacklog b.reads b.state.db requests

def Basis.publication (cfg : Config) (b : Basis) : Publication :=
  ⟨statusOf cfg b.reads b.state (some b.backlog), b.state.db, b.state.satisfied⟩

def freshBasis (cfg : Config) (reads : Reads) (s : State) : Basis :=
  ⟨s, reads, if reads.requests then some (freshRequests cfg reads s) else none⟩

theorem updateStatus_published :
    (updateStatus cfg reads s).published =
      s.published ++ [(freshBasis cfg reads s).publication cfg] := by
  have hbacklog : enhancementBacklog cfg reads s = (freshBasis cfg reads s).backlog := by
    simp only [enhancementBacklog, Basis.backlog, freshBasis]
    split <;> rfl
  have hstatus : statusOf cfg reads s none =
      statusOf cfg reads s (some (freshBasis cfg reads s).backlog) := by
    simp only [statusOf, Option.getD_none, Option.getD_some, hbacklog]
  simp only [updateStatus, updateStatusInner, hstatus]
  rfl

/-- A request the summary does not show: it is not in the list, or its height was not read. -/
structure Basis.Hides (b : Basis) (requests : List EnhanceRequest) (t : TxId) : Prop where
  pending : t ∈ b.state.db.enhancementWork
  unattempted : .enhancement t ∉ b.state.satisfied
  unseen : .enhancement t ∉ requests ∨ b.reads.height t = false

/-- Where a caught-up wallet publishes a watermark, a hidden request of a mined transaction is
above the scanned height, or above another request of the list. -/
def Basis.SeesAll (cfg : Config) (b : Basis) : Prop :=
  ∀ scanned tip requests, b.reads.fullyScanned = true →
    b.state.db.fullyScanned = some scanned → b.state.tipHeight = some tip → tip ≤ scanned →
    cfg.fetchMemos = true → b.requests = some requests →
    ∀ t, b.Hides requests t → ∀ k : ℕ+, b.state.db.txHeight t = some k →
      scanned < k ∨ Bounds b.reads b.state.db requests k

theorem publication_enhancedThrough {b : Basis} {h : ℕ} :
    (b.publication cfg).status.enhancedThrough = some h ↔
      b.reads.fullyScanned = true ∧ cfg.fetchMemos = true ∧ ∃ scanned tip,
        b.state.db.fullyScanned = some scanned ∧ b.state.tipHeight = some tip ∧
        tip ≤ scanned ∧ h = enhancedThrough scanned b.backlog.2 := by
  simp only [Basis.publication, statusOf, Option.getD_some]
  split
  · next scanned tip hscanned htip =>
    split at hscanned
    · next hread =>
      rw [hread, hscanned, htip]
      by_cases hlt : scanned < tip
      · rw [if_pos hlt]
        refine ⟨nofun, ?_⟩
        rintro ⟨-, -, _, _, hs, ht, hle, -⟩
        cases hs
        cases ht
        omega
      · rw [if_neg hlt]
        cases hmemo : cfg.fetchMemos with
        | false => simp
        | true =>
          constructor
          · intro hh
            exact ⟨rfl, rfl, scanned, tip, rfl, rfl, not_lt.mp hlt, by simpa using hh.symm⟩
          · rintro ⟨-, -, _, _, hs, -, -, rfl⟩
            cases hs
            rfl
    · cases hscanned
  · next hnone =>
    refine ⟨nofun, ?_⟩
    rintro ⟨hread, -, scanned, tip, hs, ht, -⟩
    exact absurd ht (hnone scanned tip (by rw [if_pos hread, hs]))

theorem publication_fullyScanned {b : Basis} {h : ℕ}
    (hh : (b.publication cfg).status.enhancedThrough = some h) :
    (b.publication cfg).status.fullyScanned = b.state.db.fullyScanned := by
  obtain ⟨hread, -, scanned, tip, hs, ht, hle, -⟩ := publication_enhancedThrough.mp hh
  simp only [Basis.publication, statusOf, hread, if_true, hs, ht]
  rw [if_neg (not_lt.mpr hle)]

/-- A publish is sound exactly when it hides nothing below its watermark. -/
theorem sound_iff {b : Basis} : (b.publication cfg).Sound ↔ b.SeesAll cfg := by
  constructor
  · intro hsound scanned tip requests hread hs ht hle hmemo hreq t hhid k hk
    have hh : (b.publication cfg).status.enhancedThrough =
        some (enhancedThrough scanned b.backlog.2) :=
      publication_enhancedThrough.mpr ⟨hread, hmemo, scanned, tip, hs, ht, hle, rfl⟩
    have hlt := (hsound _ hh).1 t hhid.pending hhid.unattempted k hk
    rw [Basis.backlog, hreq] at hlt
    exact (summarized_lt_iff k.pos).mp hlt
  · intro hsees h hh
    have hfull := publication_fullyScanned hh
    obtain ⟨hread, hmemo, scanned, tip, hs, ht, hle, rfl⟩ := publication_enhancedThrough.mp hh
    refine ⟨fun t ht' hun k hk => ?_, scanned, hfull.trans hs, enhancedThrough_le _ _⟩
    cases hreq : b.requests with
    | none =>
      rw [Basis.backlog, hreq]
      exact (enhancedThrough_some_lt k.pos).mpr (.inr (Nat.zero_le _))
    | some requests =>
      rw [Basis.backlog, hreq]
      refine (summarized_lt_iff k.pos).mpr ?_
      by_cases hseen : .enhancement t ∈ requests ∧ b.reads.height t = true
      · refine .inr (.inr ⟨_, hseen.1, k, ?_, le_rfl⟩)
        have hk' : b.state.db.txHeight t = some k := hk
        simp [enhancementRequestHeight, hseen.2, hk']
      · have hunseen : .enhancement t ∉ requests ∨ b.reads.height t = false := by
          by_cases hmem : .enhancement t ∈ requests
          · exact .inr (by simpa using fun hread => hseen ⟨hmem, hread⟩)
          · exact .inl hmem
        exact hsees scanned tip requests hread hs ht hle hmemo hreq t ⟨ht', hun, hunseen⟩ k hk

/-! ## Runs -/

def passBasis (cfg : Config) (publish : Reads) (pending : List EnhanceRequest) (p : PassState) :
    Basis :=
  if p.aborted || (remainingRequests pending p).isEmpty then freshBasis cfg publish p.state
  else ⟨p.state, publish, some (remainingRequests pending p)⟩

/-- What the publish of an event is computed from, if the event publishes. -/
def basis (cfg : Config) (s : State) : Event → Option Basis
  | .write _ | .connection _ => none
  | .syncStep db _ _ publish => some (freshBasis cfg publish { s with db })
  | .refreshTip tip publish =>
    some (freshBasis cfg publish { s with tipHeight := some tip, client := true })
  | .publish publish => some (freshBasis cfg publish s)
  | .enhanceStep l reads publish =>
    match s.tipHeight with
    | none => none
    | some tip =>
      if !s.client || !reads.requests || l.shutdownSeen 0 then none
      else
        let pending := freshRequests cfg reads s
        match servicePass l tip s (passRequests cfg pending) with
        | (_, true) => none
        | (p, false) => some (passBasis cfg publish pending p)

/-- What a pass leaves alone until it publishes. -/
structure Keeps (s s' : State) : Prop where
  published : s'.published = s.published
  tipHeight : s'.tipHeight = s.tipHeight

theorem Keeps.trans {s₁ s₂ s₃ : State} (h : Keeps s₁ s₂) (h' : Keeps s₂ s₃) : Keeps s₁ s₃ :=
  ⟨h'.published.trans h.published, h'.tipHeight.trans h.tipHeight⟩

theorem serviceTxids_keeps (l : Layer) (s : State) (pass : List EnhanceRequest) :
    Keeps s (serviceTxids l s pass).state := by
  unfold serviceTxids
  dsimp only
  split <;> exact ⟨rfl, rfl⟩

theorem serviceAddresses_keeps (l : Layer) (tip : ℕ) (rs : List EnhanceRequest) :
    ∀ (i : ℕ) (p : PassState), Keeps p.state (serviceAddresses l tip i p rs).1.state := by
  induction rs with
  | nil => intro i p; exact ⟨rfl, rfl⟩
  | cons r rs ih =>
    intro i p
    have hone : ∀ a, Keeps p.state (serviceAddressRequest l tip p.state a).1 := by
      intro a
      unfold serviceAddressRequest
      split <;> exact ⟨rfl, rfl⟩
    simp only [serviceAddresses]
    split
    · exact ih i p
    · next a _ =>
      split
      · exact ⟨rfl, rfl⟩
      · split
        · exact ⟨rfl, rfl⟩
        · split
          · have hrest := ih (i + 1) ⟨{ (serviceAddressRequest l tip p.state a).1 with
              satisfied := (serviceAddressRequest l tip p.state a).1.satisfied ++ [r] },
              p.handled + 1, false⟩
            exact (hone a).trans ⟨hrest.published, hrest.tipHeight⟩
          · exact hone a

theorem servicePass_keeps (l : Layer) (tip : ℕ) (s : State) (pass : List EnhanceRequest) :
    Keeps s (servicePass l tip s pass).1.state :=
  (serviceTxids_keeps l s pass).trans (serviceAddresses_keeps l tip pass 1 _)

theorem republish_published {publish : Reads} {pending : List EnhanceRequest} {p : PassState}
    (hp : p.state.published = s.published) :
    (republish cfg publish pending p).published =
      s.published ++ [(passBasis cfg publish pending p).publication cfg] := by
  unfold republish passBasis
  split
  · rw [updateStatus_published, hp]
  · simp only [updateStatusWithBacklog, updateStatusInner, hp]
    rfl

theorem step_published (e : Event) :
    (step cfg s e).published =
      s.published ++ (basis cfg s e).toList.map (Basis.publication cfg) := by
  cases e with
  | write db => simp [step, basis]
  | connection client => simp [step, basis]
  | syncStep db worked mainLoop publish =>
    have h : (updateStatus cfg publish { s with db }).published =
        s.published ++ [(freshBasis cfg publish { s with db }).publication cfg] :=
      updateStatus_published
    simp only [step, basis, Option.toList_some, List.map_cons, List.map_nil]
    split <;> exact h
  | refreshTip tip publish =>
    simp only [step, basis, Option.toList_some, List.map_cons, List.map_nil]
    exact updateStatus_published
  | publish publish =>
    simp only [step, basis, Option.toList_some, List.map_cons, List.map_nil]
    exact updateStatus_published
  | enhanceStep l reads publish =>
    cases htip : s.tipHeight with
    | none => simp [step, Enhance.enhanceStep, basis, htip]
    | some tip =>
      simp only [step, Enhance.enhanceStep, basis, htip]
      by_cases hskip : (!s.client || !reads.requests || l.shutdownSeen 0) = true
      · rw [if_pos hskip, if_pos hskip]
        simp
      · rw [if_neg hskip, if_neg hskip]
        have hpass := (servicePass_keeps l tip s
          (passRequests cfg (freshRequests cfg reads s))).published
        cases heq : servicePass l tip s (passRequests cfg (freshRequests cfg reads s)) with
        | mk p stop =>
          rw [heq] at hpass
          cases stop with
          | true => simpa using hpass
          | false => exact republish_published hpass

/-- No publish of the event hides a request below its watermark. -/
def SeesAll (cfg : Config) (s : State) (e : Event) : Prop :=
  ∀ b ∈ basis cfg s e, b.SeesAll cfg

theorem run_sound_iff (es : List Event) :
    (∀ p ∈ (run (step cfg) s es).published, p.Sound) ↔
      (∀ p ∈ s.published, p.Sound) ∧ Along (step cfg) (SeesAll cfg) s es := by
  induction es generalizing s with
  | nil => simp
  | cons e es ih =>
    rw [run_cons, ih, along_cons, step_published]
    have hstep : (∀ p ∈ (basis cfg s e).toList.map (Basis.publication cfg), p.Sound) ↔
        SeesAll cfg s e := by
      simp [SeesAll, sound_iff]
    rw [List.forall_mem_append, hstep, and_assoc]

/-- In every run, every published watermark is sound exactly when no publish hides a request
below the watermark it computes. -/
theorem watermarks_sound_iff (cfg : Config) (db : WalletDb) (es : List Event) :
    (∀ p ∈ (run (step cfg) (.start db) es).published, p.Sound) ↔
      Along (step cfg) (SeesAll cfg) (.start db) es := by
  rw [run_sound_iff]
  exact and_iff_right (by simp [State.start])

/-! ## A request enqueued by a pass -/

/-- Scanned to 100, with memos of transactions at heights 50 and 60 still to be fetched. -/
def twoMemos : WalletDb where
  statusWork := []
  enhancementWork := [1, 2]
  dataRequests := []
  txHeight := fun t => if t = 1 then some 50 else if t = 2 then some 60 else some 40
  spendingTxids := []
  fullyScanned := some 100

/-- Storing transaction 1 discovers that transaction 3, mined at 40, is to be enhanced too. -/
def discovering : Layer where
  fetchTx _ := some (some none)
  decryptAndStore db t _ := some { db with
    enhancementWork := db.enhancementWork.erase t ++ if t = 1 then [3] else [] }
  notifyNotFound db _ := some db
  setTransactionStatus db _ _ := some db
  checkAddress db _ _ _ := (db, true, true)
  shutdownSeen _ := false

/-- One pass of one request, with one left over: the watermark 59 is published over the request
at 40 that the pass enqueued. -/
theorem discovered_memo_passed :
    ¬ ∀ p ∈ (run (step ⟨true, 1⟩) (.start twoMemos)
      [.refreshTip 100 allReads, .enhanceStep discovering allReads allReads]).published,
      p.Sound := by
  intro h
  have hpub : ∃ p ∈ (run (step ⟨true, 1⟩) (.start twoMemos)
      [.refreshTip 100 allReads, .enhanceStep discovering allReads allReads]).published,
      p.status.enhancedThrough = some 59 ∧ 3 ∈ p.db.enhancementWork ∧
        .enhancement 3 ∉ p.satisfied ∧ p.db.txHeight 3 = some 40 := by
    decide
  obtain ⟨p, hp, hthrough, hmem, hun, hheight⟩ := hpub
  have hlt := (h p hp 59 hthrough).1 3 hmem hun 40 hheight
  revert hlt
  decide

end Zecd.Enhance
