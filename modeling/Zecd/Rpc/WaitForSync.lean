import Zecd.Foundation.Runs
import Zecd.Enhance.Watermark

/-! # waitforsync

The call nudges the actor, reads the published status until it says caught up, and answers with
the best block of a second read. Meanwhile the upstream's chain moves, the hub caches the tip it
reports, and the actor refreshes, scans, enhances and publishes.
-/

namespace Zecd.WaitForSync

open Runs Enhance

variable {cfg : Config} {s : State} {db : WalletDb}

/-! ## The call and its surroundings -/

/-- What is true at one moment: the tip the upstream reports, and the wallet. -/
structure Instant where
  upstream : ℕ
  db : WalletDb
  satisfied : List EnhanceRequest

/-- What the loop of the call reads before it answers. -/
structure Decision where
  status : SyncStatus
  imported : Bool
  synced : Bool
  deriving DecidableEq, Repr

inductive Phase where
  | nudging
  | waiting
  | answering (d : Decision)
  deriving DecidableEq, Repr

/-- A call under way. The instants since its start, and whether the tip that the hub holds, the
actor holds and the status shows was reported at one of them, are only recorded. -/
structure Call where
  phase : Phase
  /-- How many statuses had been published when the call started. -/
  started : ℕ
  seen : List Instant
  hubTipSeen : Bool
  tipSeen : Bool
  statusTipSeen : Bool

structure SyncAnswer where
  height : ℕ
  chainTip : Option ℕ
  synced : Bool
  pendingEnhancements : ℕ
  enhancedThrough : Option ℕ
  imported : Bool
  deriving DecidableEq, Repr

structure Answered where
  answer : SyncAnswer
  seen : List Instant

structure World where
  actor : State
  upstream : ℕ
  /-- The tip the hub's cache holds. -/
  hubTip : Option ℕ
  call : Option Call
  answers : List Answered

/-- The status a spawned actor's channel starts with: accounts are seeded, nothing is scanned. -/
def seededStatus : SyncStatus := ⟨false, none, none, false, 0, none⟩

def World.status (w : World) : SyncStatus :=
  (w.actor.published.getLast?.map (·.status)).getD seededStatus

def World.instant (w : World) : Instant := ⟨w.upstream, w.actor.db, w.actor.satisfied⟩

def World.start (db : WalletDb) (upstream : ℕ) : World := ⟨.start db, upstream, none, none, []⟩

inductive Event where
  /-- The upstream's chain grows or reorganises. -/
  | upstreamTip (tip : ℕ)
  /-- The hub's cache expired, and one of the actors that share it asks the upstream. -/
  | hubFetch
  /-- `refresh_tip`, with the reply the hub holds. -/
  | refreshTip (publish : Reads)
  | write (db : WalletDb)
  | syncStep (db : WalletDb) (worked mainLoop : Bool) (publish : Reads)
  | connection (client : Bool)
  | publish (publish : Reads)
  | enhanceStep (l : Layer) (reads publish : Reads)
  | waitforsync
  /-- `sync_now` returns: the actor acknowledged the nudge, or refused it, or is gone. -/
  | nudged
  /-- One turn of the loop; whether the wallet is among the status's accounts or its import
  errors, and whether the wait is over (deadline, shutdown, actor gone). -/
  | poll (imported importError expired : Bool)
  /-- The second read, and whether its block lookup succeeds. -/
  | answer (blockInfo : Bool)

/-- What a status described when it was published. -/
def instantOf (upstream : ℕ) (p : Publication) : Instant := ⟨upstream, p.db, p.satisfied⟩

def Call.sees (c : Call) (tipSeen : Bool) (upstream : ℕ) (news : List Publication)
    (actor : State) : Call :=
  { c with
    seen := c.seen ++ news.map (instantOf upstream) ++ [⟨upstream, actor.db, actor.satisfied⟩]
    tipSeen
    statusTipSeen := if news.isEmpty then c.statusTipSeen else tipSeen }

/-- The actor handles an event, after which its tip is one the call has seen or not. -/
def act (cfg : Config) (w : World) (e : Enhance.Event) (tipSeen : Call → Bool) : World :=
  let actor := Enhance.step cfg w.actor e
  let news := actor.published.drop w.actor.published.length
  { w with actor, call := w.call.map fun c => c.sees (tipSeen c) w.upstream news actor }

def Call.start (w : World) : Call where
  phase := .nudging
  started := w.actor.published.length
  seen := [w.instant]
  hubTipSeen := w.hubTip = some w.upstream
  tipSeen := w.actor.tipHeight = some w.upstream
  statusTipSeen := w.status.chainTip = some w.upstream

def isSynced (imported : Bool) (st : SyncStatus) : Bool :=
  imported && !st.scanning && decide (st.pendingEnhancements = 0)

/-- One turn of the loop over the status it reads. -/
def Call.poll (c : Call) (st : SyncStatus) (imported importError expired : Bool) : Call :=
  match c.phase with
  | .waiting =>
    if isSynced imported st || importError || expired then
      { c with phase := .answering ⟨st, imported, isSynced imported st⟩ }
    else c
  | _ => c

/-- `best_block`: the height of the status it reads; the block's own lookup may fail. -/
def bestBlock (w : World) (blockInfo : Bool) : Option ℕ :=
  match w.status.fullyScanned with
  | some h => if blockInfo then some h else none
  | none => some 0

def answerOf (d : Decision) (height : ℕ) : SyncAnswer :=
  ⟨height, d.status.chainTip, d.synced, d.status.pendingEnhancements, d.status.enhancedThrough,
    d.imported⟩

def step (cfg : Config) (w : World) : Event → World
  | .upstreamTip tip => { w with
      upstream := tip
      call := w.call.map fun c => { c with
        seen := c.seen ++ [⟨tip, w.actor.db, w.actor.satisfied⟩] } }
  | .hubFetch => { w with
      hubTip := some w.upstream
      call := w.call.map fun c => { c with hubTipSeen := true } }
  | .refreshTip publish =>
    match w.hubTip with
    | none => w
    | some tip => act cfg w (.refreshTip tip publish) (·.hubTipSeen)
  | .write db => act cfg w (.write db) (·.tipSeen)
  | .syncStep db worked mainLoop publish =>
    act cfg w (.syncStep db worked mainLoop publish) (·.tipSeen)
  | .connection client => act cfg w (.connection client) (·.tipSeen)
  | .publish publish => act cfg w (.publish publish) (·.tipSeen)
  | .enhanceStep l reads publish => act cfg w (.enhanceStep l reads publish) (·.tipSeen)
  | .waitforsync =>
    match w.call with
    | some _ => w
    | none => { w with call := some (.start w) }
  | .nudged => { w with
      call := w.call.map fun c => if c.phase = .nudging then { c with phase := .waiting } else c }
  | .poll imported importError expired => { w with
      call := w.call.map fun c => c.poll w.status imported importError expired }
  | .answer blockInfo =>
    match w.call with
    | none => w
    | some c =>
      match c.phase with
      | .answering d => { w with
          call := none
          answers := w.answers ++
            (bestBlock w blockInfo).toList.map fun h => ⟨answerOf d h, c.seen⟩ }
      | _ => w

/-! ## What an answer promises -/

def Instant.outstanding (cfg : Config) (i : Instant) : List EnhanceRequest :=
  Enhance.outstanding cfg i.db i.satisfied

/-- Scanned through the height, with nothing outstanding at or below it. -/
def Instant.CaughtUp (cfg : Config) (i : Instant) (h : ℕ) : Prop :=
  (∃ scanned, i.db.fullyScanned = some scanned ∧ h ≤ scanned) ∧
    ∀ r ∈ i.outstanding cfg, ∀ k, enhancementRequestHeight allReads i.db r = some k → h < k

def Answered.Truthful (cfg : Config) (a : Answered) : Prop :=
  a.answer.synced = true →
    (∃ i ∈ a.seen, i.CaughtUp cfg a.answer.height) ∧
      ∃ i ∈ a.seen, i.upstream = a.answer.height

/-! ## What a published status says -/

/-- A status that shows the wallet caught up is right about the moment it was published. -/
def Caught (cfg : Config) (p : Publication) : Prop :=
  p.status.scanning = false → p.status.pendingEnhancements = 0 →
    ∃ scanned, p.status.fullyScanned = some scanned ∧
      ∀ upstream, (instantOf upstream p).CaughtUp cfg scanned

def publishReads : Enhance.Event → Option Reads
  | .write _ | .connection _ => none
  | .syncStep _ _ _ publish | .refreshTip _ publish | .publish publish
  | .enhanceStep _ _ publish => some publish

theorem publication_caughtUp {b : Basis} (h : (b.publication cfg).status.scanning = false) :
    ∃ scanned, b.state.db.fullyScanned = some scanned ∧
      (b.publication cfg).status.fullyScanned = some scanned ∧
      (b.publication cfg).status.pendingEnhancements = b.backlog.1 := by
  simp only [Basis.publication, statusOf, Option.getD_some] at h ⊢
  split at h
  · next scanned tip hscanned htip =>
    split at h
    · cases h
    · next hle =>
      rw [if_neg hle]
      split at hscanned
      · exact ⟨scanned, hscanned, rfl, rfl⟩
      · cases hscanned
  · cases h

theorem publication_chainTip {b : Basis} :
    (b.publication cfg).status.chainTip = b.state.tipHeight := by
  simp only [Basis.publication, statusOf]
  split
  · split <;> simp_all
  · rfl

theorem basis_cases {e : Enhance.Event} {b : Basis} (hb : b ∈ basis cfg s e) :
    b.state.tipHeight = (Enhance.step cfg s e).tipHeight ∧ publishReads e = some b.reads ∧
      (b = freshBasis cfg b.reads b.state ∨ ∃ rs, rs ≠ [] ∧ b.requests = some rs) := by
  cases e with
  | write db => cases hb
  | connection client => cases hb
  | syncStep db worked mainLoop publish =>
    obtain rfl := Option.some.inj hb
    refine ⟨?_, rfl, .inl rfl⟩
    simp only [Enhance.step]
    split <;> rfl
  | refreshTip tip publish =>
    obtain rfl := Option.some.inj hb
    exact ⟨rfl, rfl, .inl rfl⟩
  | publish publish =>
    obtain rfl := Option.some.inj hb
    exact ⟨rfl, rfl, .inl rfl⟩
  | enhanceStep l reads publish =>
    simp only [Enhance.step, Enhance.enhanceStep, basis] at hb ⊢
    cases htip : s.tipHeight with
    | none => simp [htip] at hb
    | some tip =>
      rw [htip] at hb
      dsimp only at hb ⊢
      by_cases hskip : (!s.client || !reads.requests || l.shutdownSeen 0) = true
      · simp [hskip] at hb
      · rw [if_neg hskip] at hb ⊢
        cases heq : servicePass l tip s (passRequests cfg (freshRequests cfg reads s)) with
        | mk p stop =>
          rw [heq] at hb
          cases stop with
          | true => cases hb
          | false =>
            obtain rfl := Option.some.inj hb
            simp only [passBasis, republish]
            split
            · exact ⟨rfl, rfl, .inl rfl⟩
            · next hrest =>
              refine ⟨rfl, rfl, .inr ⟨_, ?_, rfl⟩⟩
              simp only [Bool.or_eq_true, not_or, List.isEmpty_iff] at hrest
              exact hrest.2

/-- The publish could tell what is in scope. -/
def SeesScope (cfg : Config) (reads : Reads) : Prop :=
  cfg.fetchMemos = true ∨ reads.spending = true

theorem freshRequests_eq {reads : Reads} (hscope : SeesScope cfg reads) (upstream : ℕ) :
    freshRequests cfg reads s = Instant.outstanding cfg ⟨upstream, s.db, s.satisfied⟩ := by
  simp only [freshRequests, Instant.outstanding, outstanding, spendingTxids]
  cases hmemo : cfg.fetchMemos with
  | true =>
    -- with memos fetched, nothing depends on which transactions the wallet spent in
    have hin : ∀ spending r, requestInScope true spending r = requestInScope true [] r := by
      intro spending r
      cases r <;> simp [requestInScope]
    simp only [outstandingRequests, hin s.db.spendingTxids, if_true]
  | false =>
    have hspend : reads.spending = true := hscope.resolve_left (by simp [hmemo])
    simp [hspend]

theorem basis_caught {e : Enhance.Event} {b : Basis} (hb : b ∈ basis cfg s e)
    (hreads : b.reads.requests = true) (hscope : SeesScope cfg b.reads) :
    Caught cfg (b.publication cfg) := by
  intro hscan hnone
  obtain ⟨scanned, hdb, hfull, hcount⟩ := publication_caughtUp hscan
  refine ⟨scanned, hfull, fun upstream => ⟨⟨scanned, hdb, le_rfl⟩, fun r hr => ?_⟩⟩
  exfalso
  rw [hcount, Basis.backlog] at hnone
  obtain ⟨-, -, hfresh | ⟨rs, hne, hrs⟩⟩ := basis_cases hb
  · have hreq : b.requests = some (freshRequests cfg b.reads b.state) := by
      rw [hfresh]
      simp [freshBasis, hreads]
    rw [hreq] at hnone
    dsimp only at hnone
    rw [summarizeBacklog_fst, List.length_eq_zero_iff, freshRequests_eq hscope upstream] at hnone
    exact absurd (hnone ▸ hr) List.not_mem_nil
  · rw [hrs] at hnone
    dsimp only at hnone
    rw [summarizeBacklog_fst, List.length_eq_zero_iff] at hnone
    exact hne hnone

/-! ## When a call is answered in time -/

def Call.Reported (c : Call) (tip : ℕ) : Prop := ∃ i ∈ c.seen, i.upstream = tip

/-- The status was published since the call started, or described the wallet when it did. -/
def StatusSeen (w : World) (c : Call) : Prop :=
  c.started < w.actor.published.length ∨
    ∃ p ∈ w.actor.published.getLast?, ∃ i ∈ c.seen.head?,
      i.db = p.db ∧ i.satisfied = p.satisfied

/-- The status a call is about to decide on is of its own time, its tip is one that was still
current when the call started or was fetched since, and the scan has not passed that tip. -/
structure UpToDate (w : World) (c : Call) : Prop where
  statusSeen : StatusSeen w c
  tipSeen : c.statusTipSeen = true
  atTip : w.status.fullyScanned = w.status.chainTip

def Timely (cfg : Config) (w : World) : Event → Prop
  | .poll imported _ _ =>
    isSynced imported w.status = true → ∀ c ∈ w.call, c.phase = .waiting → UpToDate w c
  | .answer _ =>
    ∀ c ∈ w.call, ∀ d, c.phase = .answering d → d.synced = true →
      w.status.fullyScanned = d.status.fullyScanned
  | .refreshTip publish | .syncStep _ _ _ publish | .publish publish
  | .enhanceStep _ _ publish => SeesScope cfg publish
  | _ => True

def ReadsRequests : Event → Prop
  | .refreshTip publish | .syncStep _ _ _ publish | .publish publish
  | .enhanceStep _ _ publish => publish.requests = true
  | _ => True

/-! ## The invariant -/

/-- What the recorded flags of a call mean, and what its decision rests on. -/
structure CallInv (cfg : Config) (w : World) (c : Call) : Prop where
  started : c.started ≤ w.actor.published.length
  published : ∀ p ∈ w.actor.published.drop c.started, ∃ upstream, instantOf upstream p ∈ c.seen
  upstream : c.Reported w.upstream
  hubTip : c.hubTipSeen = true → ∀ tip ∈ w.hubTip, c.Reported tip
  tip : c.tipSeen = true → ∀ tip ∈ w.actor.tipHeight, c.Reported tip
  statusTip : c.statusTipSeen = true → ∀ tip ∈ w.status.chainTip, c.Reported tip
  decided : ∀ d, c.phase = .answering d → d.synced = true →
    ∃ h, d.status.fullyScanned = some h ∧ c.Reported h ∧ ∃ i ∈ c.seen, i.CaughtUp cfg h

structure Inv (cfg : Config) (w : World) : Prop where
  caught : ∀ p ∈ w.actor.published, Caught cfg p
  call : ∀ c ∈ w.call, CallInv cfg w c
  answers : ∀ a ∈ w.answers, a.Truthful cfg

variable {w w' : World} {c : Call}

theorem Call.Reported.mono {c' : Call} {tip : ℕ} (h : c.Reported tip) (hsub : c.seen ⊆ c'.seen) :
    c'.Reported tip := by
  obtain ⟨i, hi, htip⟩ := h
  exact ⟨i, hsub hi, htip⟩

theorem CallInv.frame {call : Option Call} {answers : List Answered} (h : CallInv cfg w c) :
    CallInv cfg { w with call, answers } c :=
  ⟨h.started, h.published, h.upstream, h.hubTip, h.tip, h.statusTip, h.decided⟩

/-- The instants of a call only grow, and with them what its decision rests on. -/
theorem CallInv.decided_mono {c' : Call} (h : CallInv cfg w c) (hphase : c'.phase = c.phase)
    (hsub : c.seen ⊆ c'.seen) :
    ∀ d, c'.phase = .answering d → d.synced = true →
      ∃ h, d.status.fullyScanned = some h ∧ c'.Reported h ∧ ∃ i ∈ c'.seen, i.CaughtUp cfg h := by
  intro d hd hs
  obtain ⟨n, hn, hrep, i, hi, hcaught⟩ := h.decided d (hphase ▸ hd) hs
  exact ⟨n, hn, hrep.mono hsub, i, hsub hi, hcaught⟩

theorem step_tipHeight {e : Enhance.Event} (he : ∀ tip publish, e ≠ .refreshTip tip publish) :
    (Enhance.step cfg s e).tipHeight = s.tipHeight := by
  cases e with
  | write db => rfl
  | connection client => rfl
  | publish publish => rfl
  | refreshTip tip publish => exact absurd rfl (he tip publish)
  | syncStep db worked mainLoop publish =>
    simp only [Enhance.step]
    split <;> rfl
  | enhanceStep l reads publish =>
    simp only [Enhance.step, Enhance.enhanceStep]
    split
    · rfl
    · next tip htip =>
      split
      · rfl
      · have hkeeps := servicePass_keeps l tip s (passRequests cfg (freshRequests cfg reads s))
        cases heq : servicePass l tip s (passRequests cfg (freshRequests cfg reads s)) with
        | mk p stop =>
          rw [heq] at hkeeps
          cases stop with
          | true => exact hkeeps.tipHeight
          | false =>
            simp only [republish]
            split <;> exact hkeeps.tipHeight

theorem act_eq (cfg : Config) (w : World) (e : Enhance.Event) (tipSeen : Call → Bool) :
    ∃ news, (act cfg w e tipSeen).actor.published = w.actor.published ++ news ∧
      (act cfg w e tipSeen).call =
        w.call.map (fun c => c.sees (tipSeen c) w.upstream news (Enhance.step cfg w.actor e)) ∧
      (∀ p ∈ news, ∃ b ∈ basis cfg w.actor e, p = b.publication cfg) ∧
      (act cfg w e tipSeen).status.chainTip =
        if news.isEmpty then w.status.chainTip else (Enhance.step cfg w.actor e).tipHeight := by
  refine ⟨(basis cfg w.actor e).toList.map (Basis.publication cfg), step_published e, ?_, ?_, ?_⟩
  · rw [act, step_published, List.drop_left]
  · intro p hp
    obtain ⟨b, hb, rfl⟩ := List.mem_map.mp hp
    exact ⟨b, by simpa using hb, rfl⟩
  · rw [World.status, World.status, act, step_published]
    cases hb : basis cfg w.actor e with
    | none => simp
    | some b => simpa [publication_chainTip] using (basis_cases hb).1

theorem act_inv {e : Enhance.Event} {tipSeen : Call → Bool} (hi : Inv cfg w)
    (hpub : ∀ b ∈ basis cfg w.actor e, Caught cfg (b.publication cfg))
    (htip : ∀ c ∈ w.call, tipSeen c = true →
      ∀ tip ∈ (Enhance.step cfg w.actor e).tipHeight, c.Reported tip) :
    Inv cfg (act cfg w e tipSeen) := by
  obtain ⟨news, happ, hcalls, hnews, hstatus⟩ := act_eq cfg w e tipSeen
  refine ⟨?_, ?_, hi.answers⟩
  · intro p hp
    rw [happ] at hp
    rcases List.mem_append.mp hp with hold | hnew
    · exact hi.caught p hold
    · obtain ⟨b, hb, rfl⟩ := hnews p hnew
      exact hpub b hb
  · intro c' hc'
    rw [hcalls] at hc'
    obtain ⟨c, hc, rfl⟩ := Option.mem_map.mp hc'
    have hcall := hi.call c hc
    have hsub : c.seen ⊆
        (c.sees (tipSeen c) w.upstream news (Enhance.step cfg w.actor e)).seen :=
      fun i hi => List.mem_append_left _ (List.mem_append_left _ hi)
    refine ⟨?_, ?_, hcall.upstream.mono hsub, ?_, ?_, ?_, hcall.decided_mono rfl hsub⟩
    · rw [happ, List.length_append]
      exact Nat.le_add_right_of_le hcall.started
    · intro p hp
      replace hp : p ∈ w.actor.published.drop c.started ++ news := by
        rwa [← List.drop_append_of_le_length hcall.started, ← happ]
      rcases List.mem_append.mp hp with hold | hnew
      · obtain ⟨upstream, hmem⟩ := hcall.published p hold
        exact ⟨upstream, hsub hmem⟩
      · refine ⟨w.upstream, List.mem_append_left _ (List.mem_append_right _ ?_)⟩
        exact List.mem_map_of_mem hnew
    · exact fun hseen tip ht => (hcall.hubTip hseen tip ht).mono hsub
    · exact fun hseen tip ht => (htip c hc hseen tip ht).mono hsub
    · intro hseen tip ht
      rw [hstatus] at ht
      simp only [Call.sees] at hseen
      split at ht
      · next hnil => exact (hcall.statusTip (by simpa [hnil] using hseen) tip ht).mono hsub
      · next hnil => exact (htip c hc (by simpa [hnil] using hseen) tip ht).mono hsub

theorem start_inv (cfg : Config) (db : WalletDb) (upstream : ℕ) :
    Inv cfg (.start db upstream) :=
  ⟨nofun, nofun, nofun⟩

theorem callStart_inv (cfg : Config) (w : World) : CallInv cfg w (.start w) := by
  have hself : (Call.start w).Reported w.upstream := ⟨_, List.mem_singleton_self _, rfl⟩
  have hknown : ∀ {known : Option ℕ}, decide (known = some w.upstream) = true →
      ∀ tip ∈ known, (Call.start w).Reported tip := by
    intro known hk tip ht
    have hk : known = some w.upstream := of_decide_eq_true hk
    rw [hk] at ht
    obtain rfl := Option.some.inj ht
    exact hself
  exact ⟨le_rfl, by simp [Call.start], hself, hknown, hknown, hknown, nofun⟩

theorem StatusSeen.instant (hw : Inv cfg w) (hc : CallInv cfg w c) (h : StatusSeen w c)
    (hscan : w.status.scanning = false) (hnone : w.status.pendingEnhancements = 0) :
    ∃ scanned, w.status.fullyScanned = some scanned ∧ ∃ i ∈ c.seen, i.CaughtUp cfg scanned := by
  cases hlast : w.actor.published.getLast? with
  | none =>
    rcases h with hnew | ⟨p, hp, -⟩
    · simp [List.getLast?_eq_none_iff.mp hlast] at hnew
    · simp [hlast] at hp
  | some p =>
    have hstatus : w.status = p.status := by simp [World.status, hlast]
    rw [hstatus] at hscan hnone ⊢
    obtain ⟨scanned, hfull, hcaught⟩ :=
      hw.caught p (List.mem_of_getLast? hlast) hscan hnone
    refine ⟨scanned, hfull, ?_⟩
    rcases h with hnew | ⟨p', hp', i, hi, hdb, hsat⟩
    · have hmem : p ∈ w.actor.published.drop c.started := by
        apply List.mem_of_getLast?
        rw [List.getLast?_drop, if_neg (not_le.mpr hnew), hlast]
      obtain ⟨upstream, hmem⟩ := hc.published p hmem
      exact ⟨_, hmem, hcaught upstream⟩
    · obtain rfl := Option.some.inj (hlast.symm.trans hp')
      refine ⟨i, List.mem_of_mem_head? hi, ?_⟩
      have hcaught := hcaught i.upstream
      rwa [instantOf, ← hdb, ← hsat] at hcaught

/-- A call that decides over an up-to-date status has what it answers. -/
theorem poll_inv {imported importError expired : Bool} (hw : Inv cfg w) (hc : CallInv cfg w c)
    (h : isSynced imported w.status = true → c.phase = .waiting → UpToDate w c) :
    CallInv cfg w (c.poll w.status imported importError expired) := by
  unfold Call.poll
  split
  · next hphase =>
    split
    · refine ⟨hc.started, hc.published, hc.upstream, hc.hubTip, hc.tip, hc.statusTip, ?_⟩
      rintro d hd hs
      obtain rfl := Phase.answering.inj hd
      have hup := h hs hphase
      simp only [isSynced, Bool.and_eq_true, Bool.not_eq_true', decide_eq_true_eq] at hs
      obtain ⟨scanned, hfull, hseen⟩ := hup.statusSeen.instant hw hc hs.1.2 hs.2
      have htip : w.status.chainTip = some scanned := hup.atTip.symm.trans hfull
      exact ⟨scanned, hfull, hc.statusTip hup.tipSeen scanned htip, hseen⟩
    · exact hc
  · exact hc

/-- An answer whose second read shows the height it was decided on. -/
theorem answer_truthful {d : Decision} {blockInfo : Bool} {h : ℕ} (hc : CallInv cfg w c)
    (hphase : c.phase = .answering d)
    (hsame : d.synced = true → w.status.fullyScanned = d.status.fullyScanned)
    (hh : h ∈ bestBlock w blockInfo) : Answered.Truthful cfg ⟨answerOf d h, c.seen⟩ := by
  intro hs
  obtain ⟨scanned, hfull, hrep, hcaught⟩ := hc.decided d hphase hs
  rw [bestBlock, hsame hs, hfull] at hh
  cases blockInfo with
  | false => cases hh
  | true =>
    obtain rfl := Option.some.inj hh
    exact ⟨hcaught, hrep⟩

theorem step_inv (w : World) (e : Event) (hi : Inv cfg w) (he : Timely cfg w e ∧ ReadsRequests e) :
    Inv cfg (step cfg w e) := by
  -- the tip an event of the actor other than a refresh leaves is the one it had
  have hkept : ∀ {a : Enhance.Event}, (∀ tip publish, a ≠ .refreshTip tip publish) →
      ∀ c ∈ w.call, c.tipSeen = true →
        ∀ tip ∈ (Enhance.step cfg w.actor a).tipHeight, c.Reported tip := by
    intro a ha c hc hseen tip ht
    rw [step_tipHeight ha] at ht
    exact (hi.call c hc).tip hseen tip ht
  have hcaught : ∀ {a : Enhance.Event} {publish : Reads}, publishReads a = some publish →
      SeesScope cfg publish → publish.requests = true →
      ∀ b ∈ basis cfg w.actor a, Caught cfg (b.publication cfg) := by
    intro a publish ha hscope hreads b hb
    obtain rfl := Option.some.inj (ha.symm.trans (basis_cases hb).2.1)
    exact basis_caught hb hreads hscope
  cases e with
  | upstreamTip tip =>
    refine ⟨hi.caught, ?_, hi.answers⟩
    intro c' hc'
    obtain ⟨c, hc, rfl⟩ := Option.mem_map.mp hc'
    have hcall := hi.call c hc
    have hsub : c.seen ⊆ c.seen ++ [⟨tip, w.actor.db, w.actor.satisfied⟩] :=
      List.subset_append_left _ _
    refine ⟨hcall.started, ?_, ⟨_, List.mem_append_right _ (List.mem_singleton_self _), rfl⟩,
      fun hs t ht => (hcall.hubTip hs t ht).mono hsub, fun hs t ht => (hcall.tip hs t ht).mono hsub,
      fun hs t ht => (hcall.statusTip hs t ht).mono hsub, hcall.decided_mono rfl hsub⟩
    intro p hp
    obtain ⟨upstream, hmem⟩ := hcall.published p hp
    exact ⟨upstream, hsub hmem⟩
  | hubFetch =>
    refine ⟨hi.caught, ?_, hi.answers⟩
    intro c' hc'
    obtain ⟨c, hc, rfl⟩ := Option.mem_map.mp hc'
    have hcall := hi.call c hc
    refine ⟨hcall.started, hcall.published, hcall.upstream, ?_, hcall.tip, hcall.statusTip,
      hcall.decided⟩
    intro _ tip ht
    obtain rfl := Option.some.inj ht
    exact hcall.upstream
  | refreshTip publish =>
    simp only [step]
    split
    · exact hi
    · next tip htip =>
      refine act_inv hi (hcaught rfl he.1 he.2) ?_
      intro c hc hseen t ht
      obtain rfl := Option.some.inj ht
      exact (hi.call c hc).hubTip hseen tip htip
  | write db => exact act_inv hi nofun (hkept nofun)
  | connection client => exact act_inv hi nofun (hkept nofun)
  | syncStep db worked mainLoop publish =>
    exact act_inv hi (hcaught rfl he.1 he.2) (hkept nofun)
  | publish publish => exact act_inv hi (hcaught rfl he.1 he.2) (hkept nofun)
  | enhanceStep l reads publish => exact act_inv hi (hcaught rfl he.1 he.2) (hkept nofun)
  | waitforsync =>
    simp only [step]
    split
    · exact hi
    · refine ⟨hi.caught, ?_, hi.answers⟩
      intro c hc
      obtain rfl := Option.some.inj hc
      exact (callStart_inv cfg w).frame
  | nudged =>
    refine ⟨hi.caught, ?_, hi.answers⟩
    intro c' hc'
    obtain ⟨c, hc, rfl⟩ := Option.mem_map.mp hc'
    have hcall := hi.call c hc
    split
    · exact ⟨hcall.started, hcall.published, hcall.upstream, hcall.hubTip, hcall.tip,
        hcall.statusTip, nofun⟩
    · exact hcall.frame
  | poll imported importError expired =>
    refine ⟨hi.caught, ?_, hi.answers⟩
    intro c' hc'
    obtain ⟨c, hc, rfl⟩ := Option.mem_map.mp hc'
    exact (poll_inv hi (hi.call c hc) fun hs => he.1 hs c hc).frame
  | answer blockInfo =>
    simp only [step]
    split
    · exact hi
    · next c hc =>
      split
      · next d hphase =>
        refine ⟨hi.caught, nofun, ?_⟩
        intro a ha
        rcases List.mem_append.mp ha with hold | hnew
        · exact hi.answers a hold
        · obtain ⟨h, hh, rfl⟩ := List.mem_map.mp hnew
          exact answer_truthful (hi.call c hc) hphase (he.1 c hc d hphase) (by simpa using hh)
      · exact hi

/-- In every run whose calls decide on up-to-date statuses and read the same height again, an
answer that says synced is true of an instant of its call, and its height is a tip the upstream
reported during it. -/
theorem answers_truthful (cfg : Config) (db : WalletDb) (upstream : ℕ) (es : List Event)
    (hreads : ∀ e ∈ es, ReadsRequests e)
    (h : Along (step cfg) (Timely cfg) (.start db upstream) es) :
    ∀ a ∈ (run (step cfg) (.start db upstream) es).answers, a.Truthful cfg :=
  (invariant step_inv (start_inv cfg db upstream) (along_and_forall h hreads)).answers

/-! ## A call over an old status, and one that waits -/

def scannedTo (h : ℕ) : WalletDb where
  statusWork := []
  enhancementWork := []
  dataRequests := []
  txHeight := fun _ => none
  spendingTxids := []
  fullyScanned := some h

/-- The tip 101 is refreshed and scanned while the call waits. -/
def patientCall : List Event :=
  [.hubFetch, .refreshTip allReads, .upstreamTip 101, .waitforsync, .nudged, .hubFetch,
    .refreshTip allReads, .syncStep (scannedTo 101) true true allReads, .poll true false false,
    .answer true]

theorem patientCall_truthful :
    (run (step ⟨true, 1⟩) (.start (scannedTo 100) 100) patientCall).answers.length = 1 ∧
    ∀ a ∈ (run (step ⟨true, 1⟩) (.start (scannedTo 100) 100) patientCall).answers,
      a.Truthful ⟨true, 1⟩ := by
  refine ⟨by decide, ?_⟩
  refine answers_truthful ⟨true, 1⟩ (scannedTo 100) 100 patientCall ?_ ?_
  · simp [patientCall, ReadsRequests, allReads]
  · refine ⟨trivial, .inl rfl, trivial, trivial, trivial, trivial, .inl rfl, .inl rfl, ?_, ?_,
      trivial⟩
    · rintro - c hc -
      obtain rfl := Option.some.inj hc
      exact ⟨.inl (by decide), by decide, by decide⟩
    · intro c hc d hd _
      obtain rfl := Option.some.inj hc
      obtain rfl := Phase.answering.inj hd
      decide

/-- The upstream is at 101 when the call starts, and the status still says 100 of 100. -/
def hastyCall : List Event :=
  [.hubFetch, .refreshTip allReads, .upstreamTip 101, .waitforsync, .nudged,
    .poll true false false, .answer true]

theorem hastyCall_untruthful :
    (∀ e ∈ hastyCall, ReadsRequests e) ∧
      ¬ ∀ a ∈ (run (step ⟨true, 1⟩) (.start (scannedTo 100) 100) hastyCall).answers,
        a.Truthful ⟨true, 1⟩ := by
  refine ⟨by simp [hastyCall, ReadsRequests, allReads], fun h => ?_⟩
  have hanswer : ∃ a ∈ (run (step ⟨true, 1⟩) (.start (scannedTo 100) 100) hastyCall).answers,
      a.answer.synced = true ∧ a.answer.height = 100 ∧ ∀ i ∈ a.seen, i.upstream = 101 := by
    decide
  obtain ⟨a, ha, hsynced, hheight, hseen⟩ := hanswer
  obtain ⟨-, i, hi, htip⟩ := h a ha hsynced
  rw [hseen i hi, hheight] at htip
  cases htip

end Zecd.WaitForSync
