import Zecd.Enhance.Progress
import Zecd.Foundation.Draining

/-! # Drains

The actor calls for a pass again until one took all it read. With answers that parse and no new
requests such a drain ends, and has attempted each request once. What it publishes as its backlog
is zero only if a fresh read finds nothing.
-/

namespace Zecd.Enhance

/-- A publish that measured the backlog: while the scan runs, the count is zero for unmeasured. -/
def Publication.Measured (p : Publication) : Prop := p.status.scanning = false

structure Call where
  surroundings : Surroundings
  reads : Reads
  publish : Reads
  between : State → State

section Calls

variable (cfg : Config) (calls : ℕ → Call) (s : State)

def Call.run (c : Call) (s : State) : State × Bool :=
  enhanceStep cfg c.surroundings.layer c.reads c.publish s

def stateAt : ℕ → State
  | 0 => s
  | n + 1 => (calls n).between ((calls n).run cfg (stateAt n)).1

/-- The outstanding requests that the call reads. -/
def pendingAt (n : ℕ) : List EnhanceRequest :=
  freshRequests cfg (calls n).reads (stateAt cfg calls s n)

def attemptedAt (n : ℕ) : List EnhanceRequest :=
  ((calls n).run cfg (stateAt cfg calls s n)).1.satisfied.drop
    (stateAt cfg calls s n).satisfied.length

/-- The call asks to be made again. -/
def moreAt (n : ℕ) : Prop := ((calls n).run cfg (stateAt cfg calls s n)).2 = true

/-- The calls of a drain are serviced with answers that parse, and no requests are added. What
the actor does between them leaves the marks. -/
def QuietDrain : Prop :=
  ∀ n, (∀ m < n, moreAt cfg calls s m) →
    (∃ tip, Serviced (calls n).surroundings (calls n).reads (stateAt cfg calls s n) tip) ∧
      (calls n).surroundings.AllParse ∧
      (moreAt cfg calls s n →
        (stateAt cfg calls s (n + 1)).satisfied =
            ((calls n).run cfg (stateAt cfg calls s n)).1.satisfied ∧
          pendingAt cfg calls s (n + 1) ⊆ pendingAt cfg calls s n)

end Calls

structure DrainsRight (cfg : Config) : Prop where
  shrinks : ∀ (o : Surroundings) reads publish s tip, Serviced o reads s tip →
    freshRequests cfg reads s ≠ [] →
    (Shrinks (freshRequests cfg reads s) (enhanceStep cfg o.layer reads publish s).1 ↔
      ∀ r ∈ (serviceOrder (passRequests cfg (freshRequests cfg reads s))).head?,
        o.RequestParses tip s.db r)
  ends : ∀ calls s, QuietDrain cfg calls s →
    ∃ n ≤ (pendingAt cfg calls s 0).length, (∀ m < n, moreAt cfg calls s m) ∧
      ¬ moreAt cfg calls s n ∧ ∀ r,
        (Draining.taken (attemptedAt cfg calls s) (n + 1)).count r = 1 ∨
          (Draining.taken (attemptedAt cfg calls s) (n + 1)).count r = 0 ∧
            r ∉ pendingAt cfg calls s n
  zero : ∀ (l : Layer) reads publish s p,
    (enhanceStep cfg l reads publish s).1.published = s.published ++ [p] → p.Measured →
    publish.requests = true → p.status.pendingEnhancements = 0 →
    freshRequests cfg publish (enhanceStep cfg l reads publish s).1 = []

variable {cfg : Config} {o : Surroundings} {s : State} {db : WalletDb} {tip : ℕ}
  {pending : List EnhanceRequest} {r : EnhanceRequest}

/-! ## Quiet drains -/

theorem evidenceParses_of_allParse (h : o.AllParse) (db : WalletDb) (evidence : List TxEvidence)
    (hstreamed : ∀ txid parses mined, .raw txid parses mined ∈ evidence → parses = true) :
    o.EvidenceParses db evidence := by
  induction evidence generalizing db with
  | nil => trivial
  | cons item rest ih =>
    have hrest := fun db => ih db fun txid parses mined hmem =>
      hstreamed txid parses mined (List.mem_cons_of_mem _ hmem)
    cases item with
    | txid txid =>
      rw [Surroundings.EvidenceParses]
      by_cases hknown : o.txAlreadyRecorded db txid = true
      · rw [if_pos hknown]
        exact hrest db
      · rw [if_neg hknown]
        cases hfetch : o.fetchTx txid with
        | failed => exact hrest db
        | notFound => exact hrest db
        | found parses mined =>
          have hparses := h.fetches txid
          rw [hfetch] at hparses
          obtain rfl : parses = true := hparses
          exact hrest _
    | raw txid parses mined =>
      obtain rfl := hstreamed txid parses mined List.mem_cons_self
      rw [Surroundings.EvidenceParses]
      by_cases hknown : o.txAlreadyRecorded db txid = true
      · rw [if_pos hknown]
        exact hrest db
      · rw [if_neg hknown]
        exact hrest _

theorem requestParses_of_allParse (h : o.AllParse) (tip : ℕ) (db : WalletDb) (a : AddressRequest) :
    o.RequestParses tip db (.transactionsInvolvingAddress a) :=
  fun start asOf _ evidence hevidence =>
    evidenceParses_of_allParse h db evidence (h.streamed a start asOf evidence hevidence)

theorem fetchParses_of_allParse (h : o.AllParse) (r : EnhanceRequest) : o.fetchParses r = true := by
  unfold Surroundings.fetchParses
  cases txidRequest r with
  | none => rfl
  | some t => exact h.fetches t.1

theorem serviceOrder_perm (pass : List EnhanceRequest) : (serviceOrder pass).Perm pass :=
  List.filter_append_perm _ _

theorem servicePass_of_allParse (ha : o.Answers) (hw : o.Accepts) (hrun : o.Running)
    (hall : o.AllParse) (tip : ℕ) (s : State) (pass : List EnhanceRequest) :
    (servicePass o.layer tip s pass).1.state.satisfied = s.satisfied ++ serviceOrder pass ∧
      (servicePass o.layer tip s pass).1.handled = pass.length ∧
      (servicePass o.layer tip s pass).1.aborted = false := by
  obtain ⟨s', hservice, hmarks, -⟩ := serviceTxids_spec ha hw s pass
  have htake : (pass.filter isTxidRequest).takeWhile o.fetchParses =
      pass.filter isTxidRequest :=
    List.takeWhile_eq_self_iff.mpr fun r _ => fetchParses_of_allParse hall r
  have hnone : (pass.filter isTxidRequest).any (fun r => !o.fetchParses r) = false := by
    simp [fetchParses_of_allParse hall]
  rw [htake] at hmarks
  rw [htake, hnone] at hservice
  obtain ⟨hsatisfied, hhandled, haborted⟩ := serviceAddresses_of_parses 1
    ⟨s', (pass.filter isTxidRequest).length, false⟩ pass ha hw hrun
    (requestParses_of_allParse hall tip) rfl
  unfold servicePass
  rw [hservice, hsatisfied, hhandled, hmarks]
  refine ⟨List.append_assoc _ _ _, ?_, haborted⟩
  rw [← List.length_append]
  exact (serviceOrder_perm pass).length_eq

theorem enhanceStep_of_allParse (cfg : Config) {reads : Reads} (publish : Reads)
    (h : Serviced o reads s tip) (hall : o.AllParse) :
    let pending := freshRequests cfg reads s
    (enhanceStep cfg o.layer reads publish s).1.satisfied =
        s.satisfied ++ serviceOrder (passRequests cfg pending) ∧
      ((enhanceStep cfg o.layer reads publish s).2 = true ↔
        max cfg.enhanceConcurrency 1 < pending.length) := by
  obtain ⟨hmarks, hhandled, haborted⟩ := servicePass_of_allParse h.answers h.accepts h.running
    hall tip s (passRequests cfg (freshRequests cfg reads s))
  rw [enhanceStep_of_serviced h]
  simp only [republish_satisfied, Bool.and_eq_true, Bool.not_eq_true', decide_eq_true_eq]
  rw [hmarks, hhandled, haborted]
  refine ⟨rfl, ?_⟩
  rw [passRequests, List.length_take]
  simp only [true_and]
  omega

section Drain

variable {calls : ℕ → Call} {n : ℕ}

theorem attemptedAt_eq (hserviced : Serviced (calls n).surroundings (calls n).reads
    (stateAt cfg calls s n) tip) (hall : (calls n).surroundings.AllParse) :
    attemptedAt cfg calls s n = serviceOrder (passRequests cfg (pendingAt cfg calls s n)) ∧
      (moreAt cfg calls s n ↔
        max cfg.enhanceConcurrency 1 < (pendingAt cfg calls s n).length) := by
  obtain ⟨hmarks, hmore⟩ := enhanceStep_of_allParse cfg (calls n).publish hserviced hall
  refine ⟨?_, hmore⟩
  rw [attemptedAt, Call.run, hmarks, List.drop_left]
  rfl

theorem moreAt_of_reached (h : QuietDrain cfg calls s)
    (hn : Draining.Reached (max cfg.enhanceConcurrency 1) (pendingAt cfg calls s) n) :
    ∀ m < n, moreAt cfg calls s m := by
  induction n with
  | zero => exact fun m hm => absurd hm (Nat.not_lt_zero m)
  | succ n ih =>
    intro m hm
    rcases Nat.lt_succ_iff_lt_or_eq.mp hm with hlt | rfl
    · exact ih hn.of_succ m hlt
    · obtain ⟨⟨tip, hserviced⟩, hall, -⟩ := h m (ih hn.of_succ)
      exact (attemptedAt_eq hserviced hall).2.mpr (hn m (Nat.lt_succ_self m))

theorem drains_of_quiet (h : QuietDrain cfg calls s) :
    Draining.Drains (max cfg.enhanceConcurrency 1) (pendingAt cfg calls s)
      (attemptedAt cfg calls s) where
  nodup _ := nodup_freshRequests
  takes n hn := by
    obtain ⟨⟨tip, hserviced⟩, hall, -⟩ := h n (moreAt_of_reached h hn)
    rw [(attemptedAt_eq hserviced hall).1]
    exact serviceOrder_perm _
  shrinks n hn r hr := by
    obtain ⟨⟨tip, hserviced⟩, hall, hquiet⟩ := h n (moreAt_of_reached h hn.of_succ)
    obtain ⟨hkept, hnew⟩ := hquiet (moreAt_of_reached h hn n (Nat.lt_succ_self n))
    refine ⟨hnew hr, fun hattempted => mem_freshRequests hr ?_⟩
    rw [hkept]
    exact List.mem_of_mem_drop hattempted

/-- A quiet drain ends, and has then attempted each request once, unless it went away. -/
theorem quietDrain_ends (h : QuietDrain cfg calls s) :
    ∃ n ≤ (pendingAt cfg calls s 0).length, (∀ m < n, moreAt cfg calls s m) ∧
      ¬ moreAt cfg calls s n ∧ ∀ r,
        (Draining.taken (attemptedAt cfg calls s) (n + 1)).count r = 1 ∨
          (Draining.taken (attemptedAt cfg calls s) (n + 1)).count r = 0 ∧
            r ∉ pendingAt cfg calls s n := by
  have hdrains := drains_of_quiet h
  obtain ⟨n, hn, hreached, hend⟩ := hdrains.ends (by omega)
  have hmore := moreAt_of_reached h hreached
  obtain ⟨⟨tip, hserviced⟩, hall, -⟩ := h n hmore
  refine ⟨n, hn, hmore, ?_, hdrains.taken_once hreached hend⟩
  rw [(attemptedAt_eq hserviced hall).2]
  exact not_lt.mpr hend

end Drain

/-! ## Published backlogs -/

section Published

variable {reads publish : Reads} {p : Publication} {q : PassState} {s' : State}

theorem measured_count {known : Option (ℕ × Option ℕ)}
    (h : (updateStatusInner cfg publish s known).published = s'.published ++ [p])
    (hsame : s.published = s'.published) (hmeasured : p.Measured) :
    p.status.pendingEnhancements = (known.getD (enhancementBacklog cfg publish s)).1 := by
  rw [updateStatusInner, hsame] at h
  obtain rfl := List.singleton_inj.mp (List.append_cancel_left h)
  unfold Publication.Measured at hmeasured
  unfold statusOf at hmeasured ⊢
  split at hmeasured
  · split at hmeasured
    · cases hmeasured
    · next hcaught => rw [if_neg hcaught]
  · cases hmeasured

theorem freshRequests_eq_nil_of_count (hread : publish.requests = true)
    (h : (enhancementBacklog cfg publish s).1 = 0) : freshRequests cfg publish s = [] := by
  rw [enhancementBacklog, if_pos hread, summarizeBacklog_fst] at h
  exact List.length_eq_zero_iff.mp h

theorem serviceAddressRequest_published (l : Layer) (tip : ℕ) (s : State) (a : AddressRequest) :
    (serviceAddressRequest l tip s a).1.published = s.published := by
  unfold serviceAddressRequest
  split
  · rfl
  · rfl

theorem serviceAddresses_published (l : Layer) (tip i : ℕ) (q : PassState)
    (rs : List EnhanceRequest) :
    (serviceAddresses l tip i q rs).1.state.published = q.state.published := by
  induction rs generalizing i q with
  | nil => rfl
  | cons r rs ih =>
    rw [serviceAddresses]
    cases addressRequest r with
    | none => exact ih i q
    | some a =>
      have hkeep := serviceAddressRequest_published l tip q.state a
      dsimp only
      split
      · rfl
      · split
        · rfl
        · split
          · rw [ih]
            exact hkeep
          · exact hkeep

theorem servicePass_published (l : Layer) (tip : ℕ) (s : State) (pass : List EnhanceRequest) :
    (servicePass l tip s pass).1.state.published = s.published := by
  rw [servicePass, serviceAddresses_published]
  unfold serviceTxids
  dsimp only
  split
  · rfl
  · rfl

theorem republish_zero (hsame : q.state.published = s.published)
    (h : (republish cfg publish pending q).published = s.published ++ [p])
    (hmeasured : p.Measured) (hread : publish.requests = true)
    (hzero : p.status.pendingEnhancements = 0) :
    freshRequests cfg publish (republish cfg publish pending q) = [] := by
  unfold republish at h ⊢
  split at h
  · next hfresh =>
    rw [if_pos hfresh]
    rw [measured_count h hsame hmeasured] at hzero
    exact freshRequests_eq_nil_of_count hread hzero
  · next hknown =>
    rw [measured_count h hsame hmeasured, Option.getD_some, summarizeBacklog_fst] at hzero
    rw [List.length_eq_zero_iff.mp hzero] at hknown
    simp at hknown

/-- A measured count of zero is that of a fresh read. -/
theorem enhanceStep_zero {l : Layer}
    (h : (enhanceStep cfg l reads publish s).1.published = s.published ++ [p])
    (hmeasured : p.Measured) (hread : publish.requests = true)
    (hzero : p.status.pendingEnhancements = 0) :
    freshRequests cfg publish (enhanceStep cfg l reads publish s).1 = [] := by
  have hsilent : s.published ≠ s.published ++ [p] := by simp
  unfold enhanceStep at h ⊢
  split at h
  · exact (hsilent h).elim
  · next tip htip =>
    split at h
    · exact (hsilent h).elim
    · next hgo =>
      have hsame := servicePass_published l tip s (passRequests cfg (freshRequests cfg reads s))
      rw [if_neg hgo]
      dsimp only at h ⊢
      generalize servicePass l tip s (passRequests cfg (freshRequests cfg reads s)) = result
        at h hsame ⊢
      obtain ⟨q, interrupted⟩ := result
      cases interrupted with
      | true => exact (hsilent (hsame.symm.trans h)).elim
      | false => exact republish_zero hsame h hmeasured hread hzero

end Published

/-- What the drain owes its callers, and when. -/
theorem drainsRight (cfg : Config) : DrainsRight cfg where
  shrinks _ _ _ _ _ := enhanceStep_shrinks_iff
  ends _ _ := quietDrain_ends
  zero _ _ _ _ _ := enhanceStep_zero

/-! ## A transaction that does not parse -/

/-- A database that accepts every write, and an upstream that has bytes for every transaction,
which do not parse. -/
def garbled : Surroundings where
  fetchTx _ := .found false (some 5)
  addressEvidence _ _ _ := some []
  decryptAndStore db _ _ := some db
  recordReceives db _ _ := db
  notifyNotFound db _ := some db
  setTransactionStatus db _ _ := some db
  notifyAddressChecked db _ _ := some db
  heightRead _ := true
  shutdownSeen _ := false
  shutdownBefore _ _ := false

def oneRequest : State where
  db := ⟨[], [7], [], fun _ => none, [], some 10⟩
  tipHeight := some 10
  client := true
  satisfied := []
  published := []

theorem garbled_serviced : Serviced garbled allReads oneRequest 10 where
  tip := rfl
  client := rfl
  requests := rfl
  running := ⟨fun _ => rfl, fun _ _ => rfl⟩
  answers := ⟨nofun, fun _ _ _ => rfl⟩
  accepts := ⟨fun _ _ _ => rfl, fun _ _ => rfl, fun _ _ _ => rfl, fun _ _ _ => rfl⟩

/-- A call with every fetch answered and every write accepted leaves its only request unmarked:
the next call meets the same one. -/
theorem garbled_stuck : Serviced garbled allReads oneRequest 10 ∧
    freshRequests ⟨true, 4⟩ allReads oneRequest = [.enhancement 7] ∧
      ¬ Shrinks [.enhancement 7]
        (enhanceStep ⟨true, 4⟩ garbled.layer allReads allReads oneRequest).1 := by
  refine ⟨garbled_serviced, by decide, ?_⟩
  rw [shrinks_iff]
  decide

/-- The same upstream, if it does not know the transaction. -/
def unknowing : Surroundings := { garbled with fetchTx := fun _ => .notFound }

def unknowingCalls (_ : ℕ) : Call := ⟨unknowing, allReads, allReads, fun s => s⟩

theorem unknowing_quiet : QuietDrain ⟨true, 4⟩ unknowingCalls oneRequest := by
  have hlast : ¬ moreAt ⟨true, 4⟩ unknowingCalls oneRequest 0 := by
    unfold moreAt
    decide
  intro n hn
  cases n with
  | succ n => exact (hlast (hn 0 (Nat.succ_pos n))).elim
  | zero =>
    refine ⟨⟨10, ?_⟩, ⟨fun _ => rfl, ?_⟩, fun hmore => (hlast hmore).elim⟩
    · exact ⟨rfl, rfl, rfl, ⟨fun _ => rfl, fun _ _ => rfl⟩, ⟨nofun, fun _ _ _ => rfl⟩,
        ⟨fun _ _ _ => rfl, fun _ _ => rfl, fun _ _ _ => rfl, fun _ _ _ => rfl⟩⟩
    · intro _ _ _ evidence hevidence _ _ _ hmem
      cases hevidence
      cases hmem

/-- A drain of one request ends within two calls. -/
theorem unknowing_ends : ∃ n ≤ 1, (∀ m < n, moreAt ⟨true, 4⟩ unknowingCalls oneRequest m) ∧
    ¬ moreAt ⟨true, 4⟩ unknowingCalls oneRequest n ∧ ∀ r,
      (Draining.taken (attemptedAt ⟨true, 4⟩ unknowingCalls oneRequest) (n + 1)).count r = 1 ∨
        (Draining.taken (attemptedAt ⟨true, 4⟩ unknowingCalls oneRequest) (n + 1)).count r = 0 ∧
          r ∉ pendingAt ⟨true, 4⟩ unknowingCalls oneRequest n :=
  (drainsRight _).ends _ _ unknowing_quiet

end Zecd.Enhance
