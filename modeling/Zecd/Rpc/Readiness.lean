import Zecd.Rpc.WaitForSync

/-! # Readiness

The health server decides from a wallet's last published status whether the wallet is ready. In
the strict mode it allows the scan a lag behind the tip and waits for the enhancement backlog. The
actor measures that backlog only once the scan is at the tip, and publishes zero until then.
-/

namespace Zecd.Health

open Runs Enhance WaitForSync

/-! ## The check -/

inductive ReadinessMode where
  | synced | scanned | connected
  deriving DecidableEq, Repr

structure HealthConfig where
  readiness : ReadinessMode
  maxScanLag : ℕ
  deriving DecidableEq, Repr

structure Status where
  sync : SyncStatus
  upstreamRefusal : Option String
  birthday : Option ℕ
  deriving DecidableEq, Repr

def walletReady (st : Status) (cfg : HealthConfig) : Bool :=
  if !st.sync.connected || st.upstreamRefusal.isSome then false
  else
    match cfg.readiness with
    | .synced =>
      match st.sync.chainTip, st.sync.fullyScanned with
      | some tip, some scanned =>
        decide (tip - scanned ≤ cfg.maxScanLag) && decide (st.sync.pendingEnhancements = 0)
      | _, _ => false
    | .scanned =>
      match st.sync.chainTip, st.sync.fullyScanned with
      | some tip, some scanned => decide (tip - scanned ≤ cfg.maxScanLag)
      | _, _ => false
    | .connected =>
      match st.sync.chainTip, st.birthday with
      | some tip, some birthday => decide (birthday < tip)
      | _, _ => false

/-! ## The actor -/

/-- A published status, with the database and the attempted requests at that moment. -/
structure Reported where
  publication : Publication
  upstreamRefusal : Option String
  birthday : Option ℕ

def Reported.status (r : Reported) : Status :=
  ⟨r.publication.status, r.upstreamRefusal, r.birthday⟩

structure Actor where
  sync : Enhance.State
  upstreamRefusal : Option String
  birthday : ℕ
  reported : List Reported

def Actor.start (db : WalletDb) (birthday : ℕ) : Actor := ⟨.start db, none, birthday, []⟩

inductive Event where
  | sync (e : Enhance.Event)
  /-- `refuse_stale_upstream`, after connecting or, with the tip just fetched, during a tip
  refresh. A refusal drops the connection. -/
  | refuseStaleUpstream (tip : Option ℕ) (why : Option String)

def step (cfg : Config) (s : Actor) : Event → Actor
  | .sync e =>
    let sync := Enhance.step cfg s.sync e
    let news := sync.published.drop s.sync.published.length
    { s with
      sync
      reported := s.reported ++ news.map (⟨·, s.upstreamRefusal, some s.birthday⟩) }
  | .refuseStaleUpstream tip why =>
    let sync := { s.sync with
      tipHeight := tip.or s.sync.tipHeight
      client := s.sync.client && why.isNone }
    { s with sync, upstreamRefusal := why }

/-! ## Honesty -/

/-- A wallet reported ready was scanned to within the lag of the published tip, with no request
outstanding, when the status was published. -/
def Reported.Honest (cfg : Config) (health : HealthConfig) (r : Reported) : Prop :=
  walletReady r.status health = true →
    (∃ scanned tip, r.publication.db.fullyScanned = some scanned ∧
      r.publication.status.chainTip = some tip ∧ tip - scanned ≤ health.maxScanLag) ∧
    outstanding cfg r.publication.db r.publication.satisfied = []

/-- Nothing is outstanding when a connected actor publishes within the lag but below the tip, nor
when it publishes at the tip having failed to read which transactions the wallet spent in. -/
def Measures (cfg : Config) (maxScanLag : ℕ) (upstreamRefusal : Option String) (b : Basis) :
    Prop :=
  ∀ scanned tip, b.state.client = true → upstreamRefusal = none → b.reads.fullyScanned = true →
    b.state.db.fullyScanned = some scanned → b.state.tipHeight = some tip →
    (scanned < tip → tip ≤ scanned + maxScanLag →
      outstanding cfg b.state.db b.state.satisfied = []) ∧
    (tip ≤ scanned → ¬ SeesScope cfg b.reads → b.requests = some [] →
      outstanding cfg b.state.db b.state.satisfied = [])

variable {cfg : Config} {health : HealthConfig} {s : Actor} {b : Basis}
  {upstreamRefusal : Option String} {birthday : Option ℕ}

theorem ready_iff (hsynced : health.readiness = .synced) :
    walletReady (Reported.status ⟨b.publication cfg, upstreamRefusal, birthday⟩) health = true ↔
      b.state.client = true ∧ upstreamRefusal = none ∧ b.reads.fullyScanned = true ∧
      ∃ scanned tip, b.state.db.fullyScanned = some scanned ∧ b.state.tipHeight = some tip ∧
        tip - scanned ≤ health.maxScanLag ∧ (scanned < tip ∨ b.backlog.1 = 0) := by
  simp only [walletReady, Reported.status, Basis.publication, statusOf, hsynced,
    Option.getD_some]
  cases hread : b.reads.fullyScanned with
  | false => simp
  | true =>
    cases hscanned : b.state.db.fullyScanned with
    | none => simp
    | some scanned =>
      cases htip : b.state.tipHeight with
      | none => simp
      | some tip =>
        by_cases hlt : scanned < tip
        · simp [hlt, and_assoc]
        · simp [hlt, and_assoc]

theorem outstanding_of_unmeasured {e : Enhance.Event} (hb : b ∈ basis cfg s.sync e)
    (hscope : SeesScope cfg b.reads) (hnone : b.requests = some []) :
    outstanding cfg b.state.db b.state.satisfied = [] := by
  obtain ⟨-, -, hfresh | ⟨rs, hne, hrs⟩⟩ := basis_cases hb
  · have hrequests : b.reads.requests = true ∧ freshRequests cfg b.reads b.state = [] := by
      rw [hfresh] at hnone
      simpa [freshBasis] using hnone
    have heq := freshRequests_eq (s := b.state) hscope 0
    rw [hrequests.2] at heq
    exact heq.symm
  · rw [hrs] at hnone
    exact absurd (Option.some.inj hnone) hne

theorem backlog_eq_zero {e : Enhance.Event} (hb : b ∈ basis cfg s.sync e)
    (hreads : b.reads.requests = true) : b.backlog.1 = 0 ↔ b.requests = some [] := by
  have hsome : ∃ rs, b.requests = some rs := by
    obtain ⟨-, -, hfresh | ⟨rs, -, hrs⟩⟩ := basis_cases hb
    · rw [hfresh]
      exact ⟨_, if_pos hreads⟩
    · exact ⟨rs, hrs⟩
  obtain ⟨rs, hrs⟩ := hsome
  rw [Basis.backlog, hrs]
  dsimp only
  rw [summarizeBacklog_fst, List.length_eq_zero_iff, Option.some.injEq]

/-- A publish that reads the request table is honest exactly when it measures what is
outstanding. -/
theorem honest_iff (hsynced : health.readiness = .synced) {e : Enhance.Event}
    (hb : b ∈ basis cfg s.sync e) (hreads : b.reads.requests = true) :
    Reported.Honest cfg health ⟨b.publication cfg, upstreamRefusal, birthday⟩ ↔
      Measures cfg health.maxScanLag upstreamRefusal b := by
  rw [Reported.Honest, ready_iff hsynced, backlog_eq_zero hb hreads]
  constructor
  · intro hhonest scanned tip hclient hrefusal hread hscanned htip
    refine ⟨fun hlt hlag => ?_, fun hle _ hnone => ?_⟩
    · exact (hhonest ⟨hclient, hrefusal, hread, scanned, tip, hscanned, htip, by omega,
        .inl hlt⟩).2
    · exact (hhonest ⟨hclient, hrefusal, hread, scanned, tip, hscanned, htip, by omega,
        .inr hnone⟩).2
  · rintro hmeasures ⟨hclient, hrefusal, hread, scanned, tip, hscanned, htip, hlag, hcount⟩
    obtain ⟨hbelow, hat⟩ := hmeasures scanned tip hclient hrefusal hread hscanned htip
    refine ⟨⟨scanned, tip, hscanned, publication_chainTip.trans htip, hlag⟩, ?_⟩
    rcases Nat.lt_or_ge scanned tip with hlt | hle
    · exact hbelow hlt (by omega)
    · have hnone := hcount.resolve_left (not_lt.mpr hle)
      by_cases hscope : SeesScope cfg b.reads
      · exact outstanding_of_unmeasured hb hscope hnone
      · exact hat hle hscope hnone

/-! ## Runs -/

def ReadsTable : Event → Prop
  | .sync e => ∀ reads ∈ publishReads e, reads.requests = true
  | .refuseStaleUpstream _ _ => True

/-- Every publish of the event measures what is outstanding. -/
def MeasuresBacklog (cfg : Config) (maxScanLag : ℕ) (s : Actor) : Event → Prop
  | .sync e => ∀ b ∈ basis cfg s.sync e, Measures cfg maxScanLag s.upstreamRefusal b
  | .refuseStaleUpstream _ _ => True

theorem step_reported (e : Enhance.Event) :
    (step cfg s (.sync e)).reported = s.reported ++
      (basis cfg s.sync e).toList.map
        fun b => ⟨b.publication cfg, s.upstreamRefusal, some s.birthday⟩ := by
  simp only [step, step_published, List.drop_left, List.map_map]
  rfl

theorem step_honest_iff (hsynced : health.readiness = .synced) {e : Event} (hreads : ReadsTable e) :
    (∀ r ∈ (step cfg s e).reported, r.Honest cfg health) ↔
      (∀ r ∈ s.reported, r.Honest cfg health) ∧
        MeasuresBacklog cfg health.maxScanLag s e := by
  cases e with
  | refuseStaleUpstream tip why => exact (and_iff_left trivial).symm
  | sync e =>
    rw [step_reported, List.forall_mem_append]
    refine and_congr_right fun _ => ?_
    simp only [List.forall_mem_map, Option.mem_toList, MeasuresBacklog]
    refine forall₂_congr fun b hb => ?_
    obtain ⟨-, hpublish, -⟩ := basis_cases hb
    exact honest_iff hsynced hb (hreads _ hpublish)

/-- In every run, every wallet reported ready in the strict mode is caught up exactly when no
status is published, within the lag but below the tip or without knowing what is in scope, while
a request is outstanding. -/
theorem readiness_honest_iff (cfg : Config) (health : HealthConfig)
    (hsynced : health.readiness = .synced) (db : WalletDb) (birthday : ℕ) (es : List Event)
    (hreads : ∀ e ∈ es, ReadsTable e) :
    (∀ r ∈ (run (step cfg) (.start db birthday) es).reported, r.Honest cfg health) ↔
      Along (step cfg) (MeasuresBacklog cfg health.maxScanLag) (.start db birthday) es := by
  have hrun : ∀ s : Actor, (∀ r ∈ (run (step cfg) s es).reported, r.Honest cfg health) ↔
      (∀ r ∈ s.reported, r.Honest cfg health) ∧
        Along (step cfg) (MeasuresBacklog cfg health.maxScanLag) s es := by
    induction es with
    | nil => intro s; simp
    | cons e es ih =>
      intro s
      rw [run_cons, ih (fun e he => hreads e (List.mem_cons_of_mem _ he)),
        step_honest_iff hsynced (hreads e List.mem_cons_self), along_cons, and_assoc]
  rw [hrun]
  exact and_iff_right fun r hr => absurd hr List.not_mem_nil

/-- With no lag allowed and memos fetched, nothing goes unmeasured. -/
theorem honest_of_noLag (hsynced : health.readiness = .synced) (hlag : health.maxScanLag = 0)
    (hmemos : cfg.fetchMemos = true) {db : WalletDb} {birthday : ℕ} {es : List Event}
    (hreads : ∀ e ∈ es, ReadsTable e) :
    ∀ r ∈ (run (step cfg) (.start db birthday) es).reported, r.Honest cfg health := by
  refine (readiness_honest_iff cfg health hsynced db birthday es hreads).mpr ?_
  refine along_of_always fun s e => ?_
  cases e with
  | refuseStaleUpstream tip why => trivial
  | sync e =>
    intro b _ scanned tip _ _ _ _ _
    refine ⟨fun hlt hle => ?_, fun _ hscope => absurd (.inl hmemos) hscope⟩
    omega

/-! ## A block arrives -/

def strictHealth : HealthConfig := ⟨.synced, 4⟩

/-- The wallet is scanned to 100 with two memos to fetch, and the tip moves to 101: it reports
ready. -/
theorem newBlock_hides_backlog :
    (∀ e ∈ [Event.sync (.refreshTip 100 allReads), .sync (.refreshTip 101 allReads)],
      ReadsTable e) ∧
    ¬ ∀ r ∈ (run (step ⟨true, 1⟩) (.start twoMemos 10)
      [.sync (.refreshTip 100 allReads), .sync (.refreshTip 101 allReads)]).reported,
      r.Honest ⟨true, 1⟩ strictHealth := by
  refine ⟨by simp [ReadsTable, publishReads, allReads], fun h => ?_⟩
  have hready : ∃ r ∈ (run (step ⟨true, 1⟩) (.start twoMemos 10)
      [.sync (.refreshTip 100 allReads), .sync (.refreshTip 101 allReads)]).reported,
      walletReady r.status strictHealth = true ∧
        outstanding ⟨true, 1⟩ r.publication.db r.publication.satisfied ≠ [] := by
    decide
  obtain ⟨r, hr, hready, hleft⟩ := hready
  exact hleft (h r hr hready).2

/-- Scanned to 100 with nothing left to fetch. -/
def drainedWallet : WalletDb := { twoMemos with enhancementWork := [] }

theorem newBlock_honest :
    (run (step ⟨true, 1⟩) (.start drainedWallet 10)
        [.sync (.refreshTip 101 allReads)]).reported.any
      (fun r => walletReady r.status strictHealth) = true ∧
    ∀ r ∈ (run (step ⟨true, 1⟩) (.start drainedWallet 10)
      [.sync (.refreshTip 101 allReads)]).reported, r.Honest ⟨true, 1⟩ strictHealth :=
  ⟨by decide, (readiness_honest_iff ⟨true, 1⟩ strictHealth rfl drainedWallet 10
    [.sync (.refreshTip 101 allReads)] (by simp [ReadsTable, publishReads, allReads])).mpr
    ⟨fun b hb scanned tip _ _ _ _ _ => by
      obtain rfl := Option.some.inj hb
      exact ⟨fun _ _ => rfl, fun _ _ _ => rfl⟩, trivial⟩⟩

end Zecd.Health
