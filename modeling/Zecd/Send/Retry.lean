import Mathlib
import Zecd.Foundation.Runs
import Zecd.Send.DoubleSpend

/-! # Retrying a failed payment

A client may re-issue a payment once an attempt was answered with an error. The retry is
safe exactly because an attempt that failed stored nothing; an attempt that fails after
its transaction was stored (a failed read back, or an explicit upstream refusal) leaves
the transaction in the rebroadcast set while the client is told to try again.
-/

namespace Zecd

open Runs

/-- The client issues a payment again only after an error reply to every earlier attempt. -/
def Event.ReissuesAfterError (s : SendState) : Event → Prop
  | .command _ payment _ => ∀ r a, s.attempts[r]? = some a → a.payment = payment →
      ∃ e, (r, Except.error e) ∈ s.replies
  | _ => True

def Event.FailsPastStore (cfg : SendConfig) (s : SendState) : Event → Prop
  | .command w _ cmd => ∃ route step txid expiry, Prepared cfg w s.stored cmd route step ∧
      w.store route s.stored step = .ok (txid, expiry) ∧ FailsAfterStore w route txid
  | .sendDone w _ i => ∃ job txid expiry, s.proofs[i]? = some job ∧
      w.store .pipelined s.stored job.step = .ok (txid, expiry) ∧
      FailsAfterStore w .pipelined txid
  | .maybeRebroadcast _ _ _ => False

/-- At most one of the transactions stored for a payment was ever accepted by the upstream. -/
def PaidAtMostOnce (s : SendState) : Prop :=
  ∀ t ∈ s.stored, ∀ u ∈ s.stored, t.txid ∈ s.accepted → u.txid ∈ s.accepted →
    ∀ a b, s.attempts[t.reply]? = some a → s.attempts[u.reply]? = some b →
      a.payment = b.payment → t = u

namespace SendState

/-- The attempts still waiting for a proof or for their turn. -/
def pending (s : SendState) : List ℕ := s.proofs.map (·.send.reply) ++ s.sendQueue.map (·.reply)

def storedIds (s : SendState) : List ℕ := s.stored.map (·.reply)

def Errored (s : SendState) (r : ℕ) : Prop := ∃ e, (r, Except.error e) ∈ s.replies

/-- An attempt that was issued and of which nothing is known yet. -/
structure Fresh (s : SendState) (r : ℕ) : Prop where
  issued : r < s.attempts.length
  not_pending : r ∉ s.pending
  not_stored : r ∉ s.storedIds
  unanswered : ∀ res, (r, res) ∉ s.replies

end SendState

/-- No attempt is stored and failed, and a payment has at most one attempt that did not fail. -/
structure RetryInv (s : SendState) : Prop where
  issued : ∀ r ∈ s.pending ++ s.storedIds, r < s.attempts.length
  distinct : (s.pending ++ s.storedIds).Nodup
  replied : ∀ r res, (r, res) ∈ s.replies → r < s.attempts.length
  waiting : ∀ r ∈ s.pending, ∀ res, (r, res) ∉ s.replies
  stored_ok : ∀ r ∈ s.storedIds, ¬ s.Errored r
  live : ∀ r r' a a', s.attempts[r]? = some a → s.attempts[r']? = some a' →
    a.payment = a'.payment → ¬ s.Errored r → ¬ s.Errored r' → r = r'

variable {cfg : SendConfig} {w : WalletLayer} {s : SendState} {r : ℕ}

theorem SendState.not_errored (h : ∀ res, (r, res) ∉ s.replies) : ¬ s.Errored r :=
  fun ⟨_, he⟩ => h _ he

theorem SendState.errored_reply {r' : ℕ} {res : Except RpcError TxId} :
    (s.reply r res).Errored r' ↔ s.Errored r' ∨ (r' = r ∧ ∃ e, res = .error e) := by
  simp only [Errored, reply_replies, List.mem_append, List.mem_singleton, Prod.mk.injEq]
  constructor
  · rintro ⟨e, he | ⟨rfl, rfl⟩⟩
    · exact .inl ⟨e, he⟩
    · exact .inr ⟨rfl, e, rfl⟩
  · rintro (⟨e, he⟩ | ⟨rfl, e, rfl⟩)
    · exact ⟨e, .inl he⟩
    · exact ⟨e, .inr ⟨rfl, rfl⟩⟩

theorem retryInv_init : RetryInv .init := by
  constructor <;> simp [SendState.init, SendState.pending, SendState.storedIds]

theorem RetryInv.reply (h : RetryInv s) {res : Except RpcError TxId} (hr : r < s.attempts.length)
    (hp : r ∉ s.pending) (hs : (∃ e, res = .error e) → r ∉ s.storedIds) :
    RetryInv (s.reply r res) where
  issued := h.issued
  distinct := h.distinct
  replied r' res' hmem := by
    rcases List.mem_append.mp hmem with hmem | hmem
    · exact h.replied r' res' hmem
    · cases List.mem_singleton.mp hmem; exact hr
  waiting r' hr' res' hmem := by
    rcases List.mem_append.mp hmem with hmem | hmem
    · exact h.waiting r' hr' res' hmem
    · cases List.mem_singleton.mp hmem; exact hp hr'
  stored_ok r' hr' herr := by
    rcases SendState.errored_reply.mp herr with hold | ⟨rfl, hnew⟩
    · exact h.stored_ok r' hr' hold
    · exact hs hnew hr'
  live r₁ r₂ a a' ha ha' hpay h₁ h₂ :=
    h.live r₁ r₂ a a' ha ha' hpay (fun he => h₁ (SendState.errored_reply.mpr (.inl he)))
      (fun he => h₂ (SendState.errored_reply.mpr (.inl he)))

theorem RetryInv.issue (h : RetryInv s) {payment : ℕ} (cmd : Command)
    (hre : ∀ r a, s.attempts[r]? = some a → a.payment = payment → s.Errored r) :
    RetryInv (s.issue payment cmd) ∧ (s.issue payment cmd).Fresh s.attempts.length := by
  have hold : ∀ r ∈ s.pending ++ s.storedIds, r ≠ s.attempts.length := fun r hr =>
    Nat.ne_of_lt (h.issued r hr)
  constructor
  · refine ⟨?_, h.distinct, ?_, h.waiting, h.stored_ok, ?_⟩
    · intro r hr
      have := h.issued r hr
      simp only [SendState.issue, List.length_append, List.length_singleton]
      omega
    · intro r res hr
      have := h.replied r res hr
      simp only [SendState.issue, List.length_append, List.length_singleton]
      omega
    · intro r r' a a' ha ha' hpay hr hr'
      simp only [SendState.issue, List.getElem?_append, List.getElem?_singleton] at ha ha'
      split at ha <;> split at ha'
      · exact h.live r r' a a' ha ha' hpay hr hr'
      · obtain ⟨_, rfl⟩ : r' - s.attempts.length = 0 ∧ _ = a' := by simpa using ha'
        exact absurd (hre r a ha hpay) hr
      · obtain ⟨_, rfl⟩ : r - s.attempts.length = 0 ∧ _ = a := by simpa using ha
        exact absurd (hre r' a' ha' hpay.symm) hr'
      · have h₁ : r - s.attempts.length = 0 := by
          by_contra hne; simp [hne] at ha
        have h₂ : r' - s.attempts.length = 0 := by
          by_contra hne; simp [hne] at ha'
        omega
  · refine ⟨by simp [SendState.issue], ?_, ?_, ?_⟩
    · intro hp; exact hold _ (List.mem_append_left _ hp) rfl
    · intro hp; exact hold _ (List.mem_append_right _ hp) rfl
    · intro res hres; exact absurd (h.replied _ _ hres) (Nat.lt_irrefl _)

theorem RetryInv.wait (h : RetryInv s) (hf : s.Fresh r) {s' : SendState}
    (hp : s'.pending.Perm (r :: s.pending)) (hs : s'.stored = s.stored)
    (ha : s'.attempts = s.attempts) (hr : s'.replies = s.replies) : RetryInv s' := by
  have hids : (s'.pending ++ s'.storedIds).Perm (r :: (s.pending ++ s.storedIds)) := by
    rw [SendState.storedIds, hs]
    exact hp.append_right _
  refine ⟨?_, ?_, ?_, ?_, ?_, ?_⟩
  · intro x hx
    rw [ha]
    rcases List.mem_cons.mp (hids.mem_iff.mp hx) with rfl | hx
    · exact hf.issued
    · exact h.issued x hx
  · refine hids.nodup_iff.mpr (List.nodup_cons.mpr ⟨?_, h.distinct⟩)
    simp [hf.not_pending, hf.not_stored]
  · rw [hr, ha]; exact h.replied
  · intro x hx
    rw [hr]
    rcases List.mem_cons.mp (hp.mem_iff.mp hx) with rfl | hx
    · exact hf.unanswered
    · exact h.waiting x hx
  · simpa only [SendState.storedIds, SendState.Errored, hs, hr] using h.stored_ok
  · simpa only [SendState.Errored, ha, hr] using h.live

theorem RetryInv.store (h : RetryInv s) {t : StoredTx} (hf : s.Fresh t.reply)
    (acc : List TxId) : RetryInv (s.stores t acc) := by
  have hids : (s.pending ++ (s.storedIds ++ [t.reply])).Perm
      (t.reply :: (s.pending ++ s.storedIds)) := by
    rw [← List.append_assoc]
    exact List.perm_append_singleton _ _
  have heq : (s.stores t acc).storedIds = s.storedIds ++ [t.reply] := by
    simp [SendState.storedIds, SendState.stores]
  refine ⟨?_, ?_, h.replied, h.waiting, ?_, h.live⟩
  · intro x hx
    rw [heq] at hx
    rcases List.mem_cons.mp (hids.mem_iff.mp hx) with rfl | hx
    · exact hf.issued
    · exact h.issued x hx
  · rw [heq]
    refine hids.nodup_iff.mpr (List.nodup_cons.mpr ⟨?_, h.distinct⟩)
    simp [hf.not_pending, hf.not_stored]
  · intro x hx
    rw [heq] at hx
    rcases List.mem_append.mp hx with hx | hx
    · exact h.stored_ok x hx
    · rw [List.mem_singleton.mp hx]; exact SendState.not_errored hf.unanswered

theorem RetryInv.refuse (h : RetryInv s) (hf : s.Fresh r) (e : RpcError) :
    RetryInv (s.reply r (.error e)) :=
  h.reply hf.issued hf.not_pending fun _ => hf.not_stored

/-- Committing a fresh attempt and replying keeps the invariant unless the step fails after the
store. -/
theorem RetryInv.commit (h : RetryInv s) (hf : s.Fresh r) {route : Route} {step : Step ℕ}
    (hfail : ∀ txid expiry, w.store route s.stored step = .ok (txid, expiry) →
      ¬ FailsAfterStore w route txid) :
    RetryInv ((commit w route s r step).1.reply r (commit w route s r step).2) := by
  rcases commit_cases w route s r step with ⟨e, heq⟩ | ⟨txid, expiry, acc, res, hst, heq, _, hres⟩
  · rw [heq]; exact h.refuse hf e
  · rw [heq]
    have hok : res = .ok txid := hres.resolve_right fun hbad => hfail _ _ hst hbad.2
    subst hok
    exact (h.store (t := ⟨txid, expiry, route, step, r⟩) hf acc).reply hf.issued hf.not_pending
      (by simp)

theorem RetryInv.leave (h : RetryInv s) (s' : SendState)
    (hp : s.pending.Perm (r :: s'.pending)) (hs : s'.stored = s.stored)
    (ha : s'.attempts = s.attempts) (hr : s'.replies = s.replies) :
    RetryInv s' ∧ s'.Fresh r := by
  have hids : (s.pending ++ s.storedIds).Perm (r :: (s'.pending ++ s'.storedIds)) := by
    rw [SendState.storedIds, SendState.storedIds, hs]
    exact hp.append_right _
  have hnodup := List.nodup_cons.mp (hids.nodup_iff.mp h.distinct)
  have hmem : r ∈ s.pending := hp.mem_iff.mpr List.mem_cons_self
  constructor
  · refine ⟨?_, hnodup.2, ?_, ?_, ?_, ?_⟩
    · intro x hx
      rw [ha]
      exact h.issued x (hids.mem_iff.mpr (List.mem_cons_of_mem _ hx))
    · rw [hr, ha]; exact h.replied
    · intro x hx
      rw [hr]
      exact h.waiting x (hp.mem_iff.mpr (List.mem_cons_of_mem _ hx))
    · simpa only [SendState.storedIds, SendState.Errored, hs, hr] using h.stored_ok
    · simpa only [SendState.Errored, ha, hr] using h.live
  · refine ⟨ha ▸ h.issued r (List.mem_append_left _ hmem), ?_, ?_, hr ▸ h.waiting r hmem⟩
    · intro hx; exact hnodup.1 (List.mem_append_left _ hx)
    · intro hx; exact hnodup.1 (List.mem_append_right _ hx)

theorem RetryInv.start (h : RetryInv s) {p : PendingSend} (hf : s.Fresh p.reply) (w : WalletLayer) :
    RetryInv (startPipelinedSend cfg w s p) := by
  rcases startPipelinedSend_cases cfg w s p with ⟨e, heq⟩ | ⟨step, _, heq⟩
  · rw [heq]; exact h.refuse hf e
  · rw [heq]
    refine h.wait hf ?_ rfl rfl rfl
    simp only [SendState.pending, List.map_append, List.map_cons, List.map_nil, List.append_assoc]
    exact List.perm_middle

/-- A command of a disciplined client keeps the invariant unless it fails after its store. -/
theorem RetryInv.handled (h : RetryInv s) (hf : s.Fresh r) {cmd : Command}
    (hfail : ∀ route step txid expiry, Prepared cfg w s.stored cmd route step →
      w.store route s.stored step = .ok (txid, expiry) → ¬ FailsAfterStore w route txid)
    {s' : SendState} (hs' : Handled cfg w s r cmd s') : RetryInv s' := by
  cases hs' with
  | refused e => exact h.refuse hf e
  | queued =>
    refine h.wait hf ?_ rfl rfl rfl
    simp only [SendState.pending, List.map_append, List.map_cons, List.map_nil,
      ← List.append_assoc]
    exact List.perm_append_singleton _ _
  | started =>
    refine h.wait hf ?_ rfl rfl rfl
    simp only [SendState.pending, List.map_append, List.map_cons, List.map_nil, List.append_assoc]
    exact List.perm_middle
  | committed hprep => exact h.commit hf fun txid expiry => hfail _ _ txid expiry hprep

theorem RetryInv.finish (h : RetryInv s) {i : ℕ} {job : ProofJob}
    (hjob : s.proofs[i]? = some job)
    (hfail : ∀ txid expiry, w.store .pipelined s.stored job.step = .ok (txid, expiry) →
      ¬ FailsAfterStore w .pipelined txid) :
    RetryInv (finishSend w { s with proofs := s.proofs.eraseIdx i } job) := by
  obtain ⟨hi, rfl⟩ := List.getElem?_eq_some_iff.mp hjob
  have hperm : s.proofs.Perm (s.proofs[i] :: s.proofs.eraseIdx i) :=
    (List.getElem_cons_eraseIdx_perm hi).symm
  obtain ⟨hinv, hfresh⟩ := h.leave (r := s.proofs[i].send.reply)
    { s with proofs := s.proofs.eraseIdx i, sendInFlight := false }
    ((hperm.map _).append_right _) rfl rfl rfl
  rcases finishSend_cases w { s with proofs := s.proofs.eraseIdx i } s.proofs[i] with
    ⟨e, heq⟩ | heq
  · rw [heq]; exact hinv.refuse hfresh e
  · rw [heq]; exact hinv.commit hfresh hfail

theorem RetryInv.pump (h : RetryInv s) (ws : ℕ → WalletLayer) :
    RetryInv (pumpSendQueue cfg ws s) := by
  refine pumpFrom_invariant ?_ h rfl
  intro i s p ps hs hq _
  obtain ⟨hinv, hfresh⟩ := hs.leave (r := p.reply) { s with sendQueue := ps }
    (by simp only [SendState.pending, hq, List.map_cons]; exact List.perm_middle) rfl rfl rfl
  exact hinv.start hfresh (ws i)

theorem RetryInv.step (h : RetryInv s) {e : Event} (hre : e.ReissuesAfterError s)
    (hfail : ¬ e.FailsPastStore cfg s) : RetryInv (e.step cfg s) := by
  cases e with
  | command w payment cmd =>
    obtain ⟨hinv, hfresh⟩ := h.issue cmd hre
    refine hinv.handled hfresh ?_ (handleCommand_handled ..)
    intro route step txid expiry hprep hst hbad
    exact hfail ⟨route, step, txid, expiry, hprep, hst, hbad⟩
  | sendDone w pump i =>
    simp only [Event.step]
    split
    · exact h
    · rename_i job hjob
      refine (h.finish hjob fun txid expiry hst hbad => ?_).pump pump
      exact hfail ⟨job, txid, expiry, hjob, hst, hbad⟩
  | maybeRebroadcast w tip mined =>
    simp only [Event.step]
    split
    · obtain ⟨acc, heq, _⟩ := rebroadcast_cases w (unminedRawTxs s.stored tip mined) s
      rw [heq]
      exact ⟨h.issued, h.distinct, h.replied, h.waiting, h.stored_ok, h.live⟩
    · exact h

theorem RetryInv.paidAtMostOnce (h : RetryInv s) : PaidAtMostOnce s := by
  intro t ht u hu _ _ a b ha hb hpay
  have hmem : ∀ x ∈ s.stored, x.reply ∈ s.storedIds := fun x hx => List.mem_map_of_mem hx
  have hreply := h.live _ _ a b ha hb hpay (h.stored_ok _ (hmem t ht)) (h.stored_ok _ (hmem u hu))
  exact List.inj_on_of_nodup_map (List.nodup_append.mp h.distinct).2.1 ht hu hreply

/-- In every run of a client that re-issues a payment only after errors, in which no step fails
once its transaction is stored, at most one transaction of each payment is ever accepted. -/
theorem paidAtMostOnce_of_no_late_failure (cfg : SendConfig) (es : List Event)
    (h : Along (Event.step cfg)
      (fun s e => e.ReissuesAfterError s ∧ ¬ e.FailsPastStore cfg s) .init es) :
    PaidAtMostOnce (run (Event.step cfg) .init es) := by
  refine (invariant (I := RetryInv) ?_ retryInv_init h).paidAtMostOnce
  intro s e hs he
  exact hs.step he.1 he.2

/-! ## A payment paid twice -/

def refusedWalletWith (notes : List (ReceivedNote ℕ)) : WalletLayer :=
  referenceWallet .main .orchard
    ⟨notes, [], true, ⟨false, some ⟨64, "tx unpaid action limit exceeded"⟩⟩⟩

def inlineConfig : SendConfig := { pipelineConfig with pipelineProving := false }

/-- A send the upstream refuses, a retry paid from the other note, and a rebroadcast pass after
which the upstream has taken the refused transaction as well. -/
def retriedSend : List Event :=
  let notes : List (ReceivedNote ℕ) := [⟨1, .orchard⟩, ⟨2, .orchard⟩]
  [sendTo (refusedWalletWith notes) 0 orchardRecipient none .unspecified,
    sendTo (walletWith notes) 0 orchardRecipient none .unspecified,
    .maybeRebroadcast (walletWith notes) 100 (fun _ => false)]

theorem SendState.errored_of_any (h : s.replies.any (fun x => x.1 == r && !x.2.isOk) = true) :
    s.Errored r := by
  obtain ⟨⟨r', res⟩, hmem, hx⟩ := List.any_eq_true.mp h
  cases res with
  | ok t => simp [Except.isOk, Except.toBool] at hx
  | error e =>
    obtain rfl : r' = r := by simpa [Except.isOk, Except.toBool] using hx
    exact ⟨e, hmem⟩

theorem reissuesAfterError_of_all {w : WalletLayer} {payment : ℕ} {cmd : Command}
    (h : ((List.range s.attempts.length).all fun r =>
      s.replies.any fun x => x.1 == r && !x.2.isOk) = true) :
    (Event.command w payment cmd).ReissuesAfterError s := by
  intro r a ha _
  obtain ⟨hr, _⟩ := List.getElem?_eq_some_iff.mp ha
  exact SendState.errored_of_any (List.all_eq_true.mp h r (List.mem_range.mpr hr))

/-- The client retries only after the error, and still pays twice. -/
theorem retriedSend_pays_twice :
    Along (Event.step inlineConfig) (fun s e => e.ReissuesAfterError s) .init retriedSend ∧
    ¬ PaidAtMostOnce (run (Event.step inlineConfig) .init retriedSend) := by
  constructor
  · simp only [retriedSend, sendTo, along_cons, along_nil, and_true]
    refine ⟨reissuesAfterError_of_all (by decide),
      reissuesAfterError_of_all (by decide), trivial⟩
  · intro h
    have htwo : ∃ t ∈ (run (Event.step inlineConfig) .init retriedSend).stored,
        ∃ u ∈ (run (Event.step inlineConfig) .init retriedSend).stored,
        t.txid ∈ (run (Event.step inlineConfig) .init retriedSend).accepted ∧
        u.txid ∈ (run (Event.step inlineConfig) .init retriedSend).accepted ∧
        t.reply = 0 ∧ u.reply = 1 := by decide
    obtain ⟨t, ht, u, hu, hta, hua, htr, hur⟩ := htwo
    have hatt : ∀ i < 2, ((run (Event.step inlineConfig) .init retriedSend).attempts[i]?).map
        (·.payment) = some 0 := by decide
    obtain ⟨a, ha, hpa⟩ := Option.map_eq_some_iff.mp (hatt t.reply (by omega))
    obtain ⟨b, hb, hpb⟩ := Option.map_eq_some_iff.mp (hatt u.reply (by omega))
    have heq := h t ht u hu hta hua a b ha hb (hpa.trans hpb.symm)
    rw [heq, hur] at htr
    cases htr

/-- A send that finds no funds, and its retry once a note arrived. -/
def retriedEarly : List Event :=
  [sendTo (walletWith []) 0 orchardRecipient none .unspecified,
    sendTo (walletWith [⟨1, .orchard⟩]) 0 orchardRecipient none .unspecified]

theorem walletWith_no_late_failure (notes : List (ReceivedNote ℕ)) (route : Route) (txid : TxId) :
    ¬ FailsAfterStore (walletWith notes) route txid := by
  rintro (⟨_, e, he⟩ | ⟨_, e, he⟩)
  · simp [walletWith, referenceWallet] at he
  · simp [walletWith, referenceWallet, verdictResult, BroadcastOutcome.isAccepted] at he

/-- A retry after a failure that stored nothing is paid once. -/
theorem retriedEarly_pays_once :
    (run (Event.step inlineConfig) .init retriedEarly).accepted = [0] ∧
    PaidAtMostOnce (run (Event.step inlineConfig) .init retriedEarly) := by
  refine ⟨by decide, paidAtMostOnce_of_no_late_failure inlineConfig retriedEarly ?_⟩
  simp only [retriedEarly, sendTo, along_cons, along_nil, and_true]
  refine ⟨⟨reissuesAfterError_of_all (by decide), ?_⟩,
    reissuesAfterError_of_all (by decide), ?_⟩
  · rintro ⟨route, step, txid, expiry, _, _, hbad⟩
    exact walletWith_no_late_failure [] route txid hbad
  · rintro ⟨route, step, txid, expiry, _, _, hbad⟩
    exact walletWith_no_late_failure [⟨1, .orchard⟩] route txid hbad

end Zecd
