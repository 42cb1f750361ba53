import Zecd.Foundation.Runs
import Zecd.Send.DoubleSpend

/-! # The privacy ladder

A transaction is stored only if every leak it makes is allowed by the policy of the send.
The per-recipient half of the law is checked by the RPC entry points only: `Node::send`
hands a caller-built request to the actor, which checks the source, and the proposal under
`FullPrivacy`, but not a transparent recipient under `AllowRevealedAmounts`.
-/

namespace Zecd

open Runs Fallible

structure LeaksAllowed (privacy : SendPrivacy) (step : Step ℕ) : Prop where
  recipient : .transparent ∈ step.paymentPools → privacy.allowsTransparentRecipient = true
  sender : step.transparentInputs ≠ [] → privacy.allowsTransparentInputs = true
  fullyTransparent : step.transparentInputs ≠ [] →
    .transparent ∈ step.paymentPools ∨ .transparent ∈ step.proposedChange →
      privacy = .allowFullyTransparent
  onePool : privacy = .fullPrivacy → step.involves .transparent = false ∧
    ∀ p q, step.involves (.shielded p) = true → step.involves (.shielded q) = true → p = q

def WalletLayer.Lawful (cfg : SendConfig) (w : WalletLayer) : Prop :=
  w.HonoursPolicy ∧ w.PaysRequest cfg.network cfg.changePool

def Payment.Payable (net : NetworkType) (p : Payment) : Prop :=
  p.amount.isSome ∧ ∃ addr pool, p.recipientAddress.convertIfNetwork net = some addr ∧
    (∀ t, addr ≠ .tex t) ∧ addr.PaysInto pool

/-- The one way past the per-recipient check: a payable request of `Node::send` that names a
transparent recipient under `AllowRevealedAmounts`, from a source that is not transparent. -/
def Entry.UncheckedRecipient (cfg : SendConfig) : Entry → Prop
  | .nodeSend request _ privacy source =>
    privacy.getD cfg.privacy = .allowRevealedAmounts ∧ source.isTransparent = false ∧
      requestPaysTransparentOutput cfg.network request = true ∧
      ∀ p ∈ request.payments, p.Payable cfg.network
  | _ => False

/-- In every run, whatever is stored for the entry leaks only what its policy allows. -/
def LadderHolds (cfg : SendConfig) (entry : Entry) : Prop :=
  ∀ es : List Event, (∀ e ∈ es, e.Uses (·.Lawful cfg)) →
    ∀ t ∈ (run (Event.step cfg) .init es).stored, ∀ att,
      (run (Event.step cfg) .init es).attempts[t.reply]? = some att →
      att.command = .send entry → ∀ a, entry.args cfg = .ok a → LeaksAllowed a.privacy t.step

/-! ## The entry points -/

theorem zSendManyPayments_ok {cfg : SendConfig} {privacy : SendPrivacy} {seen : List String}
    {outs : List OutputArg} {ps : List Payment}
    (h : zSendManyPayments cfg privacy seen outs = .ok ps) {p : Payment} (hp : p ∈ ps) :
    ∃ out ∈ outs, out.payment cfg privacy true = .ok p := by
  induction outs generalizing seen ps with
  | nil => cases h; cases hp
  | cons out outs ih =>
    simp only [zSendManyPayments, bind_eq_ok, pure_eq_ok] at h
    obtain ⟨_, _, q, hq, qs, hqs, rfl⟩ := h
    rcases List.mem_cons.mp hp with rfl | hp
    · exact ⟨out, List.mem_cons_self, hq⟩
    · obtain ⟨o, ho, heq⟩ := ih hqs hp
      exact ⟨o, List.mem_cons_of_mem _ ho, heq⟩

theorem Entry.payment_built {cfg : SendConfig} {entry : Entry} {a : SendArgs}
    (h : entry.args cfg = .ok a) (hnode : ∀ r m p s, entry ≠ .nodeSend r m p s)
    {p : Payment} (hp : p ∈ a.request.payments) :
    ∃ (out : OutputArg) (allowZero : Bool), out.payment cfg a.privacy allowZero = .ok p := by
  cases entry with
  | sendToAddress out =>
    simp only [Entry.args, bind_eq_ok, pure_eq_ok] at h
    obtain ⟨q, hq, rfl⟩ := h
    rw [List.mem_singleton.mp hp]
    exact ⟨out, false, hq⟩
  | sendMany outs =>
    simp only [Entry.args, bind_eq_ok, pure_eq_ok] at h
    obtain ⟨ps, hps, _, _, rfl⟩ := h
    obtain ⟨out, _, hout⟩ := exists_of_mem_mapM hps hp
    exact ⟨out, false, hout⟩
  | zSendMany fromAddress outs minconf privacyPolicy =>
    simp only [Entry.args, bind_eq_ok, pure_eq_ok] at h
    obtain ⟨_, _, _, _, _, _, _, _, _, _, ps, hps, _, _, rfl⟩ := h
    obtain ⟨out, _, hout⟩ := zSendManyPayments_ok hps hp
    exact ⟨out, true, hout⟩
  | nodeSend r m p s => exact absurd rfl (hnode r m p s)

/-! ## The actor -/

section Actor

variable {cfg : SendConfig} {w : WalletLayer} {db : List StoredTx} {a : SendArgs} {step : Step ℕ}

/-- The transaction was built for the send: from a proposal past the actor's gates, or by the
fully transparent path. -/
def SendBuilt (cfg : SendConfig) (a : SendArgs) (step : Step ℕ) : Prop :=
  (∃ w db, w.Lawful cfg ∧ Proposed cfg w db a step ∧
    (a.source.isTransparent = true → transparentSourceGates cfg a = .ok ())) ∨
  a.privacy = .allowFullyTransparent

theorem WalletLayer.PaysRequest.transparent_recipient {changePool : ShieldedPool}
    (hw : w.PaysRequest cfg.network changePool) {policy : ConfirmationsPolicy}
    {spend : SpendPolicy} {p : Proposal ℕ}
    (hp : w.proposeTransfer db a.request policy spend = .ok p) (htail : p.tail = [])
    (ht : .transparent ∈ p.head.paymentPools) :
    ∃ pay ∈ a.request.payments, ∃ addr,
      pay.recipientAddress.convertIfNetwork cfg.network = some addr ∧
      hasShieldedReceiver addr = false := by
  have hpays := hw.payments hp htail
  generalize a.request.payments = ps at hpays
  generalize p.head.paymentPools = pools at hpays ht
  induction hpays with
  | nil => cases ht
  | cons hpay _ ih =>
    rcases List.mem_cons.mp ht with rfl | ht
    · obtain ⟨_, addr, haddr, _, hinto⟩ := hpay
      exact ⟨_, List.mem_cons_self, addr, haddr, hinto.2 rfl⟩
    · obtain ⟨pay, hpay, rest⟩ := ih ht
      exact ⟨pay, List.mem_cons_of_mem _ hpay, rest⟩

theorem requestPaysTransparentOutput_of_mem {net : NetworkType} {request : TransactionRequest}
    {p : Payment} (hp : p ∈ request.payments) {addr : Address}
    (haddr : p.recipientAddress.convertIfNetwork net = some addr)
    (hsh : hasShieldedReceiver addr = false) : requestPaysTransparentOutput net request = true := by
  refine List.any_eq_true.mpr ⟨p, hp, ?_⟩
  simp [haddr, hsh]

theorem enforceFullPrivacy_ok {p : Proposal ℕ} (h : enforceFullPrivacy p = .ok ()) :
    p.head.involves .transparent = false ∧
      ∀ x y, p.head.involves (.shielded x) = true → p.head.involves (.shielded y) = true →
        x = y := by
  simp only [enforceFullPrivacy, ensure_eq_ok, Proposal.steps, List.all_cons,
    Bool.and_eq_true] at h
  have hone := h.1
  simp only [singlePoolViolated, Bool.not_eq_true', Bool.or_eq_false_iff,
    decide_eq_false_iff_not] at hone
  refine ⟨hone.1, fun x y hx hy => ?_⟩
  have hlen := hone.2
  by_contra hne
  have htwo : 1 < ([p.head.involves (.shielded .sapling), p.head.involves (.shielded .orchard),
      p.head.involves (.shielded .ironwood)].filter id).length := by
    cases x <;> cases y <;> first
      | exact absurd rfl hne
      | (rw [hx, hy]; generalize p.head.involves (.shielded _) = b; cases b <;> decide)
  exact hlen htwo

theorem transparentSourceGates_ok (h : transparentSourceGates cfg a = .ok ())
    (hs : a.source.isTransparent = true) :
    a.privacy.allowsTransparentInputs = true ∧
      (a.privacy = .allowFullyTransparent ∨
        requestPaysTransparentOutput cfg.network a.request = false) := by
  simp only [transparentSourceGates, hs, if_true, bind_eq_ok, ensure_eq_ok] at h
  obtain ⟨_, hin, hout⟩ := h
  exact ⟨hin, by simpa using hout⟩

theorem SendBuilt.leaksAllowed (h : SendBuilt cfg a step)
    (hrec : a.privacy = .allowRevealedAmounts → a.source.isTransparent = false →
      ∀ p ∈ a.request.payments, ∀ addr,
        p.recipientAddress.convertIfNetwork cfg.network = some addr →
        hasShieldedReceiver addr = true) : LeaksAllowed a.privacy step := by
  rcases h with ⟨w, db, hw, ⟨p, hp, htail, rfl, hfull⟩, hgates⟩ | haft
  · have hsource : p.head.transparentInputs ≠ [] → a.source.isTransparent = true := by
      intro hne
      by_contra hns
      exact hne (hw.1.transparent hp (by simpa using hns))
    have hpaid : .transparent ∈ p.head.paymentPools →
        requestPaysTransparentOutput cfg.network a.request = true := by
      intro ht
      obtain ⟨pay, hpay, addr, haddr, hsh⟩ := hw.2.transparent_recipient hp htail ht
      exact requestPaysTransparentOutput_of_mem hpay haddr hsh
    refine ⟨?_, ?_, ?_, fun hpriv => enforceFullPrivacy_ok (hfull hpriv)⟩
    · intro ht
      by_cases hs : a.source.isTransparent = true
      · obtain ⟨hin, _⟩ := transparentSourceGates_ok (hgates hs) hs
        cases hpriv : a.privacy <;> simp_all [SendPrivacy.allowsTransparentInputs,
          SendPrivacy.allowsTransparentRecipient]
      · obtain ⟨pay, hpay, addr, haddr, hsh⟩ := hw.2.transparent_recipient hp htail ht
        cases hpriv : a.privacy with
        | fullPrivacy =>
          have hno := (enforceFullPrivacy_ok (hfull hpriv)).1
          simp only [Step.involves, Bool.or_eq_false_iff, List.any_eq_false] at hno
          exact absurd BEq.rfl (hno.1.2 _ ht)
        | allowRevealedAmounts =>
          rw [hrec hpriv (by simpa using hs) pay hpay addr haddr] at hsh
          cases hsh
        | allowRevealedRecipients => rfl
        | allowRevealedSenders => rfl
        | allowFullyTransparent => rfl
    · intro hne
      exact (transparentSourceGates_ok (hgates (hsource hne)) (hsource hne)).1
    · intro hne hout
      rcases (transparentSourceGates_ok (hgates (hsource hne)) (hsource hne)).2 with haft | hno
      · exact haft
      · rcases hout with hout | hout
        · rw [hpaid hout] at hno; cases hno
        · rcases hw.2.change hp _ hout with hc | ⟨_, hc⟩ <;> cases hc
  · rw [haft]
    exact ⟨fun _ => rfl, fun _ => rfl, fun _ _ => rfl, nofun⟩

theorem SendBuilt.payable (h : SendBuilt cfg a step) (hpriv : a.privacy ≠ .allowFullyTransparent) :
    ∀ p ∈ a.request.payments, p.Payable cfg.network := by
  rcases h with ⟨w, db, hw, ⟨p, hp, htail, _⟩, _⟩ | haft
  · intro pay hpay
    obtain ⟨i, hi, rfl⟩ := List.mem_iff_getElem.mp hpay
    have hpays := hw.2.payments hp htail
    have hlen := hpays.length_eq
    obtain ⟨hamount, addr, haddr, htex, hinto⟩ :=
      List.forall₂_iff_get.mp hpays |>.2 i hi (hlen ▸ hi)
    exact ⟨hamount, addr, _, haddr, htex, hinto⟩
  · exact absurd haft hpriv

theorem prepareSend_built (hw : w.Lawful cfg) {route : Route}
    (h : prepareSend cfg w db a = .ok (route, step)) : SendBuilt cfg a step := by
  obtain ⟨hgates, hcases⟩ := prepareSend_cases h
  rcases hcases with ⟨_, _, hrec, _, _⟩ | ⟨_, _, hp⟩
  · refine .inr ?_
    by_contra hne
    simp [fullyTransparentRecipients, hne] at hrec
  · exact .inl ⟨w, db, hw, hp, fun _ => hgates⟩

theorem preparePipelined_built (hw : w.Lawful cfg) (hin : runsInline cfg a = false)
    (h : preparePipelined cfg w db a = .ok step) : SendBuilt cfg a step := by
  refine .inl ⟨w, db, hw, preparePipelined_ok h, fun hs => ?_⟩
  simp [runsInline, hs] at hin

end Actor

/-! ## Provenance -/

/-- The send was asked for by the command its reply channel belongs to, and rides the pipeline. -/
def PendingSend.IssuedIn (cfg : SendConfig) (s : SendState) (p : PendingSend) : Prop :=
  runsInline cfg p.toSendArgs = false ∧
    ∃ att entry, s.attempts[p.reply]? = some att ∧ att.command = .send entry ∧
      entry.args cfg = .ok p.toSendArgs

/-- The transaction was built for the command its reply channel belongs to. -/
def StoredTx.BuiltIn (cfg : SendConfig) (s : SendState) (t : StoredTx) : Prop :=
  ∃ att, s.attempts[t.reply]? = some att ∧
    ∀ entry, att.command = .send entry → ∃ a, entry.args cfg = .ok a ∧ SendBuilt cfg a t.step

/-- Everything queued, proved or stored for a send is what its entry point asked for. -/
structure Provenance (cfg : SendConfig) (s : SendState) : Prop where
  queued : ∀ p ∈ s.sendQueue, p.IssuedIn cfg s
  proving : ∀ j ∈ s.proofs, j.send.IssuedIn cfg s ∧ SendBuilt cfg j.send.toSendArgs j.step
  stored : ∀ t ∈ s.stored, t.BuiltIn cfg s

section Provenance

variable {cfg : SendConfig} {w : WalletLayer} {s : SendState} {r : ℕ}

theorem provenance_init : Provenance cfg .init := by
  constructor <;> simp [SendState.init]

theorem getElem?_issue {payment : ℕ} {cmd : Command} {att : Attempt}
    (h : s.attempts[r]? = some att) : (s.issue payment cmd).attempts[r]? = some att := by
  obtain ⟨hr, _⟩ := List.getElem?_eq_some_iff.mp h
  rw [SendState.issue, List.getElem?_append_left hr, h]

theorem Provenance.issue (h : Provenance cfg s) (payment : ℕ) (cmd : Command) :
    Provenance cfg (s.issue payment cmd) where
  queued p hp := by
    obtain ⟨hin, att, entry, hatt, rest⟩ := h.queued p hp
    exact ⟨hin, att, entry, getElem?_issue hatt, rest⟩
  proving j hj := by
    obtain ⟨⟨hin, att, entry, hatt, rest⟩, hbuilt⟩ := h.proving j hj
    exact ⟨⟨hin, att, entry, getElem?_issue hatt, rest⟩, hbuilt⟩
  stored t ht := by
    obtain ⟨att, hatt, rest⟩ := h.stored t ht
    exact ⟨att, getElem?_issue hatt, rest⟩

theorem Provenance.reply (h : Provenance cfg s) (r : ℕ) (res : Except RpcError TxId) :
    Provenance cfg (s.reply r res) := ⟨h.queued, h.proving, h.stored⟩

theorem Provenance.commit (h : Provenance cfg s) {route : Route} {step : Step ℕ}
    (hnew : ∀ txid expiry, StoredTx.BuiltIn cfg s ⟨txid, expiry, route, step, r⟩) :
    Provenance cfg ((commit w route s r step).1.reply r (commit w route s r step).2) := by
  rcases commit_cases w route s r step with ⟨e, heq⟩ | ⟨txid, expiry, acc, res, _, heq, _⟩
  · rw [heq]; exact h.reply r _
  · rw [heq]
    refine ⟨h.queued, h.proving, fun t ht => ?_⟩
    rcases List.mem_append.mp ht with ht | ht
    · exact h.stored t ht
    · rw [List.mem_singleton.mp ht]; exact hnew txid expiry

theorem Provenance.start (h : Provenance cfg s) (hw : w.Lawful cfg) {p : PendingSend}
    (hp : p.IssuedIn cfg s) : Provenance cfg (startPipelinedSend cfg w s p) := by
  rcases startPipelinedSend_cases cfg w s p with ⟨e, heq⟩ | ⟨step, hstep, heq⟩
  · rw [heq]; exact h.reply _ _
  · rw [heq]
    refine ⟨h.queued, fun j hj => ?_, h.stored⟩
    rcases List.mem_append.mp hj with hj | hj
    · exact h.proving j hj
    · rw [List.mem_singleton.mp hj]; exact ⟨hp, preparePipelined_built hw hp.1 hstep⟩

theorem Provenance.handled (h : Provenance cfg s) (hw : w.Lawful cfg) {att : Attempt}
    (hatt : s.attempts[r]? = some att) {s' : SendState}
    (hs' : Handled cfg w s r att.command s') : Provenance cfg s' := by
  have hissued : ∀ a, Pipelined cfg att.command a → PendingSend.IssuedIn cfg s ⟨a, r⟩ := by
    rintro a ⟨⟨entry, hcmd, ha⟩, hin⟩
    exact ⟨hin, att, entry, hatt, hcmd, ha⟩
  cases hs' with
  | refused e => exact h.reply r _
  | queued hp =>
    refine ⟨fun p hmem => ?_, h.proving, h.stored⟩
    rcases List.mem_append.mp hmem with hmem | hmem
    · exact h.queued p hmem
    · rw [List.mem_singleton.mp hmem]; exact hissued _ hp
  | started hp _ hstep =>
    refine ⟨h.queued, fun j hj => ?_, h.stored⟩
    rcases List.mem_append.mp hj with hj | hj
    · exact h.proving j hj
    · rw [List.mem_singleton.mp hj]
      exact ⟨hissued _ hp, preparePipelined_built hw hp.waits hstep⟩
  | committed hprep =>
    refine h.commit fun txid expiry => ⟨att, hatt, fun entry hcmd => ?_⟩
    rw [hcmd] at hprep
    cases hprep with
    | send ha _ hstep => exact ⟨_, ha, prepareSend_built hw hstep⟩

theorem Provenance.finish (h : Provenance cfg s) {i : ℕ} {job : ProofJob}
    (hjob : s.proofs[i]? = some job) :
    Provenance cfg (finishSend w { s with proofs := s.proofs.eraseIdx i } job) := by
  have hrest : Provenance cfg { s with proofs := s.proofs.eraseIdx i, sendInFlight := false } :=
    ⟨h.queued, fun j hj => h.proving j (List.mem_of_mem_eraseIdx hj), h.stored⟩
  obtain ⟨⟨_, att, entry, hatt, hcmd, ha⟩, hbuilt⟩ := h.proving job (List.mem_of_getElem? hjob)
  rcases finishSend_cases w { s with proofs := s.proofs.eraseIdx i } job with ⟨e, heq⟩ | heq
  · rw [heq]; exact hrest.reply _ _
  · rw [heq]
    refine hrest.commit fun txid expiry => ⟨att, hatt, fun entry' hcmd' => ?_⟩
    rw [hcmd] at hcmd'
    cases hcmd'
    exact ⟨_, ha, hbuilt⟩

theorem Provenance.step (h : Provenance cfg s) {e : Event} (he : e.Uses (·.Lawful cfg)) :
    Provenance cfg (e.step cfg s) := by
  cases e with
  | command w payment cmd =>
    have hatt : (s.issue payment cmd).attempts[s.attempts.length]? = some ⟨payment, cmd⟩ := by
      simp [SendState.issue]
    exact (h.issue payment cmd).handled he hatt (handleCommand_handled ..)
  | sendDone w pump i =>
    simp only [Event.step]
    split
    · exact h
    · rename_i job hjob
      refine pumpFrom_invariant ?_ (h.finish hjob) rfl
      intro i s p ps hs hq _
      have hp : p.IssuedIn cfg s := hs.queued p (hq ▸ List.mem_cons_self)
      have hrest : Provenance cfg { s with sendQueue := ps } :=
        ⟨fun q hmem => hs.queued q (hq ▸ List.mem_cons_of_mem _ hmem), hs.proving, hs.stored⟩
      exact hrest.start (he.2 i) hp
  | maybeRebroadcast w tip mined =>
    simp only [Event.step]
    split
    · obtain ⟨acc, heq, _⟩ := rebroadcast_cases w (unminedRawTxs s.stored tip mined) s
      rw [heq]
      exact ⟨h.queued, h.proving, h.stored⟩
    · exact h

end Provenance

/-! ## The law -/

/-- Past the RPC entry points every recipient is one the policy allows, and `Node::send` leaves
out only the unchecked ones. -/
theorem Entry.recipients_shielded {cfg : SendConfig} {entry : Entry}
    (hentry : ¬ entry.UncheckedRecipient cfg) {a : SendArgs} (ha : entry.args cfg = .ok a)
    (hpayable : ∀ p ∈ a.request.payments, p.Payable cfg.network)
    (hpriv : a.privacy = .allowRevealedAmounts) (hs : a.source.isTransparent = false) :
    ∀ p ∈ a.request.payments, ∀ addr,
      p.recipientAddress.convertIfNetwork cfg.network = some addr →
      hasShieldedReceiver addr = true := by
  intro p hp addr haddr
  by_cases hnode : ∃ r m pr src, entry = .nodeSend r m pr src
  · obtain ⟨r, m, pr, src, rfl⟩ := hnode
    simp only [Entry.args, pure_eq_ok] at ha
    subst ha
    by_contra hsh
    have hout := requestPaysTransparentOutput_of_mem hp haddr (by simpa using hsh)
    exact hentry ⟨hpriv, hs, hout, hpayable⟩
  · obtain ⟨out, allowZero, hout⟩ := Entry.payment_built ha
      (fun r m pr src heq => hnode ⟨r, m, pr, src, heq⟩) hp
    obtain ⟨addr', haddr', _, _, hshielded⟩ := buildPayment_ok hout
    rw [haddr'] at haddr
    cases haddr
    exact hshielded (by rw [hpriv]; rfl)

theorem ladderHolds_of_checked {cfg : SendConfig} {entry : Entry}
    (hentry : ¬ entry.UncheckedRecipient cfg) : LadderHolds cfg entry := by
  intro es hes t ht att hatt hcmd a ha
  have hprov : Provenance cfg (run (Event.step cfg) .init es) :=
    invariant (P := fun _ e => e.Uses (·.Lawful cfg)) (fun _ _ hs he => hs.step he)
      provenance_init (along_of_forall hes)
  obtain ⟨att', hatt', hbuilt⟩ := hprov.stored t ht
  rw [hatt'] at hatt
  cases hatt
  obtain ⟨a', ha', hb⟩ := hbuilt entry hcmd
  rw [ha'] at ha
  cases ha
  exact hb.leaksAllowed fun hpriv hs => entry.recipients_shielded hentry ha'
    (hb.payable (by rw [hpriv]; nofun)) hpriv hs

/-! ## The unchecked recipient -/

/-- A wallet with a note in each family, whose upstream accepts everything. -/
def fundedWallet (cfg : SendConfig) : WalletLayer :=
  referenceWallet cfg.network cfg.changePool
    ⟨[⟨0, .sapling⟩, ⟨1, .orchard⟩], [], true, ⟨true, some ⟨0, ""⟩⟩⟩

section Unchecked

variable {cfg : SendConfig} {a : SendArgs}

theorem fundedWallet_lawful (cfg : SendConfig) : (fundedWallet cfg).Lawful cfg :=
  ⟨referenceWallet_honoursPolicy, referenceWallet_paysRequest⟩

theorem Payment.Payable.pool? {net : NetworkType} {p : Payment} (h : p.Payable net) :
    ∃ pool, p.pool? net = some pool := by
  obtain ⟨hamount, addr, pool, haddr, htex, hinto, _⟩ := h
  obtain ⟨zats, hzats⟩ := Option.isSome_iff_exists.mp hamount
  cases addr with
  | tex t => exact absurd rfl (htex t)
  | transparent t => exact ⟨_, by simp [Payment.pool?, hzats, haddr, Address.canReceiveAs]; rfl⟩
  | sapling z => exact ⟨_, by simp [Payment.pool?, hzats, haddr, Address.canReceiveAs]; rfl⟩
  | unified ua =>
    rw [← Option.isSome_iff_exists]
    simp only [Payment.pool?, hzats, haddr, Option.isNone_some, Bool.false_eq_true, if_false]
    split
    · rfl
    · split
      · rfl
      · rename_i ho hz
        have ht : (Address.unified ua).canReceiveAs .transparent = true := by
          cases pool with
          | transparent => exact hinto
          | shielded q => cases q <;> simp_all [Address.canReceiveAs]
        simp [ht]

theorem exists_pools {net : NetworkType} {ps : List Payment}
    (h : ∀ p ∈ ps, p.Payable net) :
    ∃ pools, ps.mapM (·.pool? net) = some pools ∧
      (requestPaysTransparentOutput net ⟨ps⟩ = true → .transparent ∈ pools) := by
  induction ps with
  | nil => exact ⟨[], rfl, by simp [requestPaysTransparentOutput]⟩
  | cons p ps ih =>
    obtain ⟨pools, hpools, hmem⟩ := ih fun q hq => h q (List.mem_cons_of_mem _ hq)
    obtain ⟨pool, hpool⟩ := (h p List.mem_cons_self).pool?
    refine ⟨pool :: pools, by simp [List.mapM_cons, hpool, hpools], fun hout => ?_⟩
    simp only [requestPaysTransparentOutput, List.any_cons, Bool.or_eq_true] at hout
    rcases hout with hout | hout
    · obtain ⟨_, addr, haddr, _, hinto⟩ := Payment.pool?_spec hpool
      simp only [haddr, Bool.not_eq_true'] at hout
      suffices hp : pool = .transparent by rw [hp]; exact List.mem_cons_self
      have hcan := hinto.1
      simp only [hasShieldedReceiver, Bool.or_eq_false_iff] at hout
      cases pool with
      | transparent => rfl
      | shielded q => cases q <;> cases addr <;> simp_all [Address.canReceiveAs]
    · exact List.mem_cons_of_mem _ (hmem hout)

theorem fundedWallet_proposes (cfg : SendConfig) (hs : a.source.isTransparent = false)
    (hpayable : ∀ p ∈ a.request.payments, p.Payable cfg.network)
    (hout : requestPaysTransparentOutput cfg.network a.request = true)
    (policy : ConfirmationsPolicy) :
    ∃ p, (fundedWallet cfg).proposeTransfer [] a.request policy (spendPolicyForSource a.source) =
        .ok p ∧ p.tail = [] ∧ .transparent ∈ p.head.paymentPools := by
  obtain ⟨pools, hpools, hmem⟩ := exists_pools hpayable
  obtain ⟨n, ns, hn⟩ : ∃ n ns, Holdings.unspentNotes
      ⟨[⟨0, .sapling⟩, ⟨1, .orchard⟩], [], true, ⟨true, some ⟨0, ""⟩⟩⟩ []
      (spendPolicyForSource a.source) = n :: ns := by
    cases hsrc : a.source with
    | unspecified => exact ⟨_, _, rfl⟩
    | shielded => exact ⟨_, _, rfl⟩
    | shieldedFamily f => cases f <;> exact ⟨_, _, rfl⟩
    | transparent t => rw [hsrc] at hs; cases hs
  have hnone : (spendPolicyForSource a.source).transparent = none :=
    Option.isNone_iff_eq_none.mp (by rw [spendPolicyForSource_transparent_isNone, hs]; rfl)
  refine ⟨⟨⟨[], [n], pools, [.shielded cfg.changePool]⟩, []⟩, ?_, rfl, hmem hout⟩
  simp [fundedWallet, referenceWallet, hpools, hnone, hn]

theorem enforceProposal_revealedAmounts {p : Proposal ℕ} (htail : p.tail = []) :
    enforceProposal (fundedWallet cfg) .allowRevealedAmounts p = .ok () := by
  have hsingle : enforceSingleStep p = .ok () := enforceSingleStep_ok.mpr htail
  simp only [enforceProposal, hsingle, enforceSendPrivacy]
  rfl

theorem fundedWallet_builds (hpriv : a.privacy = .allowRevealedAmounts) {p : Proposal ℕ}
    (hp : (fundedWallet cfg).proposeTransfer [] a.request
      (a.confirmations.getD cfg.confirmationsPolicy) (spendPolicyForSource a.source) = .ok p)
    (htail : p.tail = []) :
    buildProposalAndPczt cfg (fundedWallet cfg) [] a = .ok p.head ∧
      prepareFused cfg (fundedWallet cfg) [] a = .ok p.head := by
  have hchecks : enforceProposal (fundedWallet cfg) a.privacy p = .ok () := by
    rw [hpriv]; exact enforceProposal_revealedAmounts htail
  constructor
  · simp only [buildProposalAndPczt, hp, bind_eq_ok, pure_eq_ok]
    exact ⟨(), rfl, p, rfl, (), hchecks, (), rfl, rfl⟩
  · simp only [prepareFused, hp, bind_eq_ok, pure_eq_ok]
    exact ⟨(), rfl, (), rfl, p, rfl, (), hchecks, rfl⟩

theorem fundedWallet_prepares (hpriv : a.privacy = .allowRevealedAmounts)
    (hs : a.source.isTransparent = false) {p : Proposal ℕ}
    (hp : (fundedWallet cfg).proposeTransfer [] a.request
      (a.confirmations.getD cfg.confirmationsPolicy) (spendPolicyForSource a.source) = .ok p)
    (htail : p.tail = []) :
    (∃ route, (route = .fused ∨ route = .inline) ∧
      prepareSend cfg (fundedWallet cfg) [] a = .ok (route, p.head)) ∧
      preparePipelined cfg (fundedWallet cfg) [] a = .ok p.head := by
  obtain ⟨hbuild, hfused⟩ := fundedWallet_builds hpriv hp htail
  have hgates : transparentSourceGates cfg a = .ok () := by simp [transparentSourceGates, hs]
  have hrec : fullyTransparentRecipients cfg a = .ok none := by
    simp [fullyTransparentRecipients, hpriv]
  constructor
  · by_cases hroute : (!cfg.cachedPcztPath || requestPaysSaplingOutput cfg.network a.request ||
        a.source.isTransparent) = true
    · refine ⟨.fused, .inl rfl, ?_⟩
      simp only [prepareSend, bind_eq_ok]
      refine ⟨(), hgates, (), rfl, (), rfl, (), rfl, (), rfl, none, hrec, ?_⟩
      simp only [hroute, if_true, hfused]
      rfl
    · refine ⟨.inline, .inr rfl, ?_⟩
      simp only [prepareSend, bind_eq_ok]
      refine ⟨(), hgates, (), rfl, (), rfl, (), rfl, (), rfl, none, hrec, ?_⟩
      simp only [hroute, hbuild]
      rfl
  · simp only [preparePipelined, bind_eq_ok]
    exact ⟨(), rfl, (), rfl, (), rfl, p.head, hbuild, (), rfl, (), rfl, rfl⟩

theorem fundedWallet_commits (s : SendState) (r : ℕ) (step : Step ℕ) {route : Route}
    (hroute : route ∉ [Route.shieldCoinbase, .mergeProposal, .mergeTransparent]) :
    ∃ t ∈ (commit (fundedWallet cfg) route s r step).1.stored, t.step = step ∧ t.reply = r := by
  have hstore : (fundedWallet cfg).store route s.stored step = .ok (s.stored.length, 0) :=
    if_neg fun h => hroute (List.mem_of_mem_take (i := 2) h.1)
  simp only [commit, hstore]
  obtain ⟨acc, res, heq, _⟩ := afterStore_cases (fundedWallet cfg) route
    { s with stored := s.stored ++ [⟨s.stored.length, 0, route, step, r⟩] } s.stored.length
  rw [heq]
  exact ⟨_, List.mem_append_right _ (List.mem_singleton_self _), rfl, rfl⟩

theorem not_ladderHolds_of_stored {entry : Entry} {es : List Event}
    (hes : ∀ e ∈ es, e.Uses (·.Lawful cfg)) (ha : entry.args cfg = .ok a)
    (hpriv : a.privacy = .allowRevealedAmounts)
    (hatt : (run (Event.step cfg) .init es).attempts = [⟨0, .send entry⟩])
    (hstored : ∃ t ∈ (run (Event.step cfg) .init es).stored,
      .transparent ∈ t.step.paymentPools ∧ t.reply = 0) : ¬ LadderHolds cfg entry := by
  intro h
  obtain ⟨t, ht, hpay, hreply⟩ := hstored
  have hleak := h es hes t ht ⟨0, .send entry⟩ (by rw [hatt, hreply]; rfl) rfl a ha
  have hallows := hleak.recipient hpay
  rw [hpriv] at hallows
  cases hallows

theorem fundedWallet_runs_inline {entry : Entry} {route : Route} {step : Step ℕ}
    (ha : entry.args cfg = .ok a) (hin : runsInline cfg a = true)
    (hroute : route = .fused ∨ route = .inline)
    (hprep : prepareSend cfg (fundedWallet cfg) [] a = .ok (route, step)) :
    (run (Event.step cfg) .init [.command (fundedWallet cfg) 0 (.send entry)]).attempts =
        [⟨0, .send entry⟩] ∧
      ∃ t ∈ (run (Event.step cfg) .init [.command (fundedWallet cfg) 0 (.send entry)]).stored,
        t.step = step ∧ t.reply = 0 := by
  have hrun : run (Event.step cfg) .init [.command (fundedWallet cfg) 0 (.send entry)] =
      (commit (fundedWallet cfg) route (SendState.init.issue 0 (.send entry)) 0 step).1.reply 0
        (commit (fundedWallet cfg) route (SendState.init.issue 0 (.send entry)) 0 step).2 := by
    simp only [run_cons, run_nil, Event.step, handleCommand, ha, beginOrQueueSend, hin,
      if_true, doSend]
    rw [show (SendState.init.issue 0 (.send entry)).stored = [] from rfl, hprep]
    rfl
  rw [hrun]
  constructor
  · simp [SendState.issue, SendState.init]
  · exact fundedWallet_commits _ 0 step (by rcases hroute with rfl | rfl <;> decide)

theorem fundedWallet_runs_pipelined {entry : Entry} {step : Step ℕ}
    (ha : entry.args cfg = .ok a) (hin : ¬ runsInline cfg a = true)
    (hprep : preparePipelined cfg (fundedWallet cfg) [] a = .ok step) :
    (run (Event.step cfg) .init [.command (fundedWallet cfg) 0 (.send entry),
        .sendDone (fundedWallet cfg) (fun _ => fundedWallet cfg) 0]).attempts =
        [⟨0, .send entry⟩] ∧
      ∃ t ∈ (run (Event.step cfg) .init [.command (fundedWallet cfg) 0 (.send entry),
          .sendDone (fundedWallet cfg) (fun _ => fundedWallet cfg) 0]).stored,
        t.step = step ∧ t.reply = 0 := by
  have hstart : Event.step cfg .init (.command (fundedWallet cfg) 0 (.send entry)) =
      ⟨[], true, [⟨⟨a, 0⟩, step⟩], [], [⟨0, .send entry⟩], [], []⟩ := by
    simp only [Event.step, handleCommand, ha, beginOrQueueSend, hin, startPipelinedSend]
    rw [show (SendState.init.issue 0 (.send entry)).stored = [] from rfl, hprep]
    rfl
  let idle : SendState := ⟨[], false, [], [], [⟨0, .send entry⟩], [], []⟩
  have hrun : run (Event.step cfg) .init [.command (fundedWallet cfg) 0 (.send entry),
      .sendDone (fundedWallet cfg) (fun _ => fundedWallet cfg) 0] =
      (commit (fundedWallet cfg) .pipelined idle 0 step).1.reply 0
        (commit (fundedWallet cfg) .pipelined idle 0 step).2 := by
    rw [run_cons, hstart, run_cons, run_nil]
    simp only [Event.step, List.getElem?_cons_zero, List.eraseIdx_cons_zero]
    have hfinish : finishSend (fundedWallet cfg)
        ⟨[], true, [], [], [⟨0, .send entry⟩], [], []⟩ ⟨⟨a, 0⟩, step⟩ =
        (commit (fundedWallet cfg) .pipelined idle 0 step).1.reply 0
          (commit (fundedWallet cfg) .pipelined idle 0 step).2 := rfl
    rw [hfinish, pumpSendQueue, SendState.reply_sendQueue, commit_sendQueue]
    rfl
  rw [hrun]
  constructor
  · simp [idle]
  · exact fundedWallet_commits idle 0 step (by decide)

theorem not_ladderHolds_of_unchecked {entry : Entry} (h : entry.UncheckedRecipient cfg) :
    ¬ LadderHolds cfg entry := by
  cases entry with
  | sendToAddress out => exact h.elim
  | sendMany outs => exact h.elim
  | zSendMany fromAddress outs minconf privacyPolicy => exact h.elim
  | nodeSend request minconf privacy source =>
    obtain ⟨hpriv, hs, hout, hpayable⟩ := h
    have hw := fundedWallet_lawful cfg
    let args : SendArgs := ⟨request, minconf, privacy.getD cfg.privacy, source⟩
    obtain ⟨p, hp, htail, hmem⟩ := fundedWallet_proposes cfg (a := args) hs hpayable hout
      (args.confirmations.getD cfg.confirmationsPolicy)
    obtain ⟨⟨route, hroute, hprep⟩, hpipe⟩ := fundedWallet_prepares hpriv hs hp htail
    have ha : (Entry.nodeSend request minconf privacy source).args cfg = .ok args := rfl
    by_cases hin : runsInline cfg args = true
    · obtain ⟨hatt, t, ht, hstep, hreply⟩ := fundedWallet_runs_inline ha hin hroute hprep
      refine not_ladderHolds_of_stored ?_ ha hpriv hatt ⟨t, ht, hstep ▸ hmem, hreply⟩
      simpa [Event.Uses] using hw
    · obtain ⟨hatt, t, ht, hstep, hreply⟩ := fundedWallet_runs_pipelined ha hin hpipe
      refine not_ladderHolds_of_stored ?_ ha hpriv hatt ⟨t, ht, hstep ▸ hmem, hreply⟩
      simpa [Event.Uses] using hw

end Unchecked

/-- Everything stored for an entry point respects the privacy ladder, in every run and on every
path, exactly when the entry is not a payable `Node::send` request with a transparent recipient
under `AllowRevealedAmounts`. -/
theorem ladderHolds_iff (cfg : SendConfig) (entry : Entry) :
    LadderHolds cfg entry ↔ ¬ entry.UncheckedRecipient cfg := by
  constructor
  · intro h hun
    exact not_ladderHolds_of_unchecked hun h
  · exact ladderHolds_of_checked

/-- A caller of `Node::send` pays a transparent address under `AllowRevealedAmounts`. -/
theorem transparentRecipient_unchecked :
    ¬ LadderHolds pipelineConfig
      (.nodeSend ⟨[⟨⟨.main, .transparent (.publicKeyHash 9)⟩, some 1000, none⟩]⟩ none
        (some .allowRevealedAmounts) .unspecified) := by
  refine not_ladderHolds_of_unchecked ⟨rfl, rfl, rfl, ?_⟩
  intro p hp
  rw [List.mem_singleton.mp hp]
  exact ⟨rfl, .transparent (.publicKeyHash 9), .transparent, rfl, nofun, rfl, fun _ => rfl⟩

end Zecd
