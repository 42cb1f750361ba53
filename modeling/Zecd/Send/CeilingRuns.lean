import Zecd.Foundation.Runs
import Zecd.Send.Plans

/-! # Ceilings over whole runs

The send actor with the plans it handed out, and the ceilings that were read for each attempt.
Every build through a proposal holds its transaction to them. The fully transparent build reads
none, and coinbase shielding does not apply the action limit.
-/

namespace Zecd

open Fallible Runs

/-- The actor, the plans waiting for their execution, and a log of the ceilings read: each
attempt, with what its build went by. -/
structure CeilingState where
  send : SendState
  plans : List (Command × Reading)
  readFor : List (ℕ × Reading)

def CeilingState.init : CeilingState := ⟨.init, [], []⟩

inductive CeilingEvent where
  | proposeShieldCoinbase (l : PlanLayer) (r : Reading) (req : ShieldCoinbaseRequest)
  | proposeMerge (l : PlanLayer) (r : Reading) (req : MergeRequest)
  /-- The operation behind a plan's opid runs. -/
  | executePlan (w : WalletLayer) (payment i : ℕ)
  | send (w : WalletLayer) (r : Reading) (payment : ℕ) (entry : Entry)
  /-- The proof at this position finished; each send the pump starts reads the ceilings anew. -/
  | sendDone (w : WalletLayer) (pump : ℕ → WalletLayer × Reading) (i : ℕ)
  | maybeRebroadcast (w : WalletLayer) (tip : ℕ) (mined : TxId → Bool)

/-- Whether the send reads its ceilings only when the proof in flight is done. -/
def Entry.waits (cfg : SendConfig) (s : SendState) (entry : Entry) : Bool :=
  match entry.args cfg with
  | .ok a => !runsInline cfg a && s.sendInFlight
  | .error _ => false

def pumpReads (cfg : SendConfig) : (ℕ → WalletLayer × Reading) → List PendingSend →
    SendState → List (ℕ × Reading)
  | _, [], _ => []
  | ws, p :: ps, s =>
    if s.sendInFlight then []
    else (p.reply, (ws 0).2) :: pumpReads cfg (fun i => ws (i + 1)) ps
      (startPipelinedSend cfg ((ws 0).1.under (ws 0).2) { s with sendQueue := ps } p)

def pumpLayers (ws : ℕ → WalletLayer × Reading) (i : ℕ) : WalletLayer := (ws i).1.under (ws i).2

def CeilingEvent.step (cfg : SendConfig) (s : CeilingState) : CeilingEvent → CeilingState
  | .proposeShieldCoinbase l r req =>
    match Zecd.proposeShieldCoinbase l r s.send.stored req with
    | .ok plan => { s with plans := s.plans ++ [(.executeShieldCoinbase plan.proposal, r)] }
    | .error _ => s
  | .proposeMerge l r req =>
    match proposeMergeToAddress cfg l r s.send.stored req with
    | .ok plan => { s with plans := s.plans ++ [(.executeMergeToAddress plan.work, r)] }
    | .error _ => s
  | .executePlan w payment i =>
    match s.plans[i]? with
    | none => s
    | some (cmd, r) => {
        send := (Event.command w payment cmd).step cfg s.send
        plans := s.plans.eraseIdx i
        readFor := s.readFor ++ [(s.send.attempts.length, r)] }
  | .send w r payment entry => { s with
      send := (Event.command (w.under r) payment (.send entry)).step cfg s.send
      readFor := s.readFor ++
        if entry.waits cfg s.send then [] else [(s.send.attempts.length, r)] }
  | .sendDone w pump i => { s with
      send := (Event.sendDone w (pumpLayers pump) i).step cfg s.send
      readFor := s.readFor ++
        match s.send.proofs[i]? with
        | none => []
        | some job =>
          let done := finishSend w { s.send with proofs := s.send.proofs.eraseIdx i } job
          pumpReads cfg pump done.sendQueue done }
  | .maybeRebroadcast w tip mined =>
    { s with send := (Event.maybeRebroadcast w tip mined).step cfg s.send }

theorem CeilingEvent.step_send (cfg : SendConfig) (s : CeilingState) (e : CeilingEvent) :
    (e.step cfg s).send = s.send ∨ ∃ ev : Event, (e.step cfg s).send = ev.step cfg s.send := by
  cases e with
  | proposeShieldCoinbase l r req =>
    left; simp only [CeilingEvent.step]; split <;> rfl
  | proposeMerge l r req =>
    left; simp only [CeilingEvent.step]; split <;> rfl
  | executePlan w payment i =>
    simp only [CeilingEvent.step]
    split
    · exact .inl rfl
    · next cmd r _ => exact .inr ⟨.command w payment cmd, rfl⟩
  | send w r payment entry => exact .inr ⟨.command (w.under r) payment (.send entry), rfl⟩
  | sendDone w pump i => exact .inr ⟨.sendDone w (pumpLayers pump) i, rfl⟩
  | maybeRebroadcast w tip mined => exact .inr ⟨.maybeRebroadcast w tip mined, rfl⟩

/-- Forgetting plans and readings, a run is a run of the actor. -/
theorem exists_actor_run (cfg : SendConfig) (es : List CeilingEvent) (s : CeilingState) :
    ∃ evs : List Event,
      (run (CeilingEvent.step cfg) s es).send = run (Event.step cfg) s.send evs := by
  induction es generalizing s with
  | nil => exact ⟨[], rfl⟩
  | cons e es ih =>
    obtain ⟨evs, hevs⟩ := ih (e.step cfg s)
    rw [run_cons, hevs]
    rcases e.step_send cfg s with heq | ⟨ev, heq⟩
    · exact ⟨evs, by rw [heq]⟩
    · exact ⟨ev :: evs, by rw [heq, run_cons]⟩

/-! ## What the stored transactions must respect -/

/-- What the transactions built from steps turn out to be: their serialized size and their
Orchard-family actions. -/
structure Builder where
  bytes : Reading → StoredTx → ℕ
  actions : Reading → StoredTx → ℕ

/-- A built transaction is within the estimator's upper bound. -/
structure Builder.Estimated (b : Builder) : Prop where
  bytes : ∀ r t, b.bytes r t ≤ estimateBytes (stepShape r.counts t.step)
  actions : ∀ r t, b.actions r t ≤ (stepShape r.counts t.step).orchardFamilyActions

/-- The transaction is within the ceilings of the reading, each unless it is zero. -/
structure Builder.Within (b : Builder) (r : Reading) (t : StoredTx) : Prop where
  bytes : r.limits.maxTxBytes ≠ 0 → b.bytes r t ≤ r.limits.maxTxBytes
  actions : r.limits.orchardActionLimit ≠ 0 → b.actions r t ≤ r.limits.orchardActionLimit

/-- Ceilings were read for every stored transaction, and it is within what was read for it. -/
def RespectsCeilings (b : Builder) (s : CeilingState) : Prop :=
  ∀ t ∈ s.send.stored, (∃ r, (t.reply, r) ∈ s.readFor) ∧
    ∀ r, (t.reply, r) ∈ s.readFor → b.Within r t

/-! ## The builds without a ceiling -/

/-- The address a transparent source narrows the selection to. -/
def SendArgs.fromAddress (a : SendArgs) : Option TransparentAddress :=
  match a.source with
  | .transparent t => t
  | _ => none

/-- The outputs a fully transparent send selects from, largest first. -/
def transparentUtxos (cfg : SendConfig) (w : WalletLayer) (db : List StoredTx) (a : SendArgs) :
    Except RpcError (List WalletTransparentOutput) := do
  let receivers ← w.transparentReceivers
  let outs ← (receivers.filter fun addr => a.fromAddress.all (· == addr)).mapM fun addr =>
    w.spendableTransparentOutputs db addr (a.confirmations.getD cfg.confirmationsPolicy)
  return outs.flatten.mergeSort fun u v => decide (v.value ≤ u.value)

/-- How many of them cover the recipients and the fee, and whether change is kept. -/
def transparentSelection (utxos : List WalletTransparentOutput)
    (recipients : List (TransparentAddress × ℕ)) : Option (ℕ × ℕ × ℕ × Bool) :=
  selectTransparentInputs (utxos.map (·.value)) (recipients.map (·.2)).sum
    (recipients.map (transparentTxoutSize ·.1)).sum (8 + 1 + 25) p2pkhStandardOutputSize
    marginalFee graceActions

def transparentOutShape (recipients : List (TransparentAddress × ℕ)) (hasChange : Bool) :
    TxShape :=
  { TxShape.default with transparentOutputs := recipients.length + hasChange.toNat }

/-- The outputs that cover the send are no more than the size ceiling leaves room for. -/
def TransparentFits (cfg : SendConfig) (w : WalletLayer) (r : Reading) (db : List StoredTx)
    (a : SendArgs) (recipients : List (TransparentAddress × ℕ)) : Prop :=
  ∀ utxos n change fee hasChange, transparentUtxos cfg w db a = .ok utxos →
    transparentSelection utxos recipients = some (n, change, fee, hasChange) →
    r.limits.maxTxBytes ≠ 0 →
    n ≤ maxTransparentInputs r.limits.maxTxBytes (transparentOutShape recipients hasChange)

/-- The bundle of a coinbase shield is within the action limit. -/
def ShieldFits (l : PlanLayer) (r : Reading) (db : List StoredTx) (req : ShieldCoinbaseRequest) :
    Prop :=
  ∀ addrs p, l.proposeShieldingCoinbase db addrs req.toAddress req.memo req.limit = .ok p →
    r.limits.orchardActionLimit ≠ 0 →
    (stepShape r.counts p.head.widen).orchardFamilyActions ≤ r.limits.orchardActionLimit

/-- The two builds that do not apply a ceiling stay within it anyway. -/
def CeilingEvent.Fits (cfg : SendConfig) (s : CeilingState) : CeilingEvent → Prop
  | .send w r _ entry => ∀ a recipients, entry.args cfg = .ok a →
      fullyTransparentRecipients cfg a = .ok (some recipients) →
      TransparentFits cfg w r s.send.stored a recipients
  | .proposeShieldCoinbase l r req => ShieldFits l r s.send.stored req
  | _ => True

/-! ## What each build promises -/

section Builds

variable {cfg : SendConfig} {w : WalletLayer} {l : PlanLayer} {r : Reading} {db : List StoredTx}
  {a : SendArgs} {step : Step ℕ} {route : Route} {req : MergeRequest}

theorem enforceProposal_allows {privacy : SendPrivacy} {p : Proposal ℕ} {u : Unit}
    (h : enforceProposal (w.under r) privacy p = .ok u) :
    r.Allows (stepShape r.counts p.head) := by
  simp only [enforceProposal, bind_eq_ok] at h
  obtain ⟨_, _, _, _, hceil⟩ := h
  exact Reading.enforceCeilings_ok hceil List.mem_cons_self

theorem buildProposalAndPczt_allows (h : buildProposalAndPczt cfg (w.under r) db a = .ok step) :
    r.Allows (stepShape r.counts step) := by
  simp only [buildProposalAndPczt, bind_eq_ok, pure_eq_ok] at h
  obtain ⟨_, _, p, _, _, hchecks, _, _, rfl⟩ := h
  exact enforceProposal_allows hchecks

theorem prepareFused_allows (h : prepareFused cfg (w.under r) db a = .ok step) :
    r.Allows (stepShape r.counts step) := by
  simp only [prepareFused, bind_eq_ok, pure_eq_ok] at h
  obtain ⟨_, _, _, _, p, _, _, hchecks, rfl⟩ := h
  exact enforceProposal_allows hchecks

theorem preparePipelined_allows (h : preparePipelined cfg (w.under r) db a = .ok step) :
    r.Allows (stepShape r.counts step) := by
  simp only [preparePipelined, bind_eq_ok, pure_eq_ok] at h
  obtain ⟨_, _, _, _, _, _, step', hbuild, _, _, _, _, rfl⟩ := h
  exact buildProposalAndPczt_allows hbuild

theorem lt_of_selectTransparentInputsFrom {total rest recip change p2pkh marginal grace : ℕ}
    {nIn n c f : ℕ} {hc : Bool} {vs : List ℕ}
    (h : selectTransparentInputsFrom rest recip change p2pkh marginal grace nIn total vs =
      some (n, c, f, hc)) : nIn < n := by
  induction vs generalizing nIn total with
  | nil => cases h
  | cons v vs ih =>
    simp only [selectTransparentInputsFrom] at h
    split_ifs at h
    · cases h; omega
    · cases h; omega
    · exact (ih h).trans' (Nat.lt_succ_self _)
    · cases h; omega
    · exact (ih h).trans' (Nat.lt_succ_self _)

theorem pos_of_transparentSelection {utxos : List WalletTransparentOutput}
    {recipients : List (TransparentAddress × ℕ)} {n c f : ℕ} {hasChange : Bool}
    (h : transparentSelection utxos recipients = some (n, c, f, hasChange)) : 0 < n :=
  lt_of_selectTransparentInputsFrom h

theorem prepareTransparent_selects {recipients : List (TransparentAddress × ℕ)}
    (h : prepareTransparent cfg w db a recipients a.fromAddress = .ok step) :
    ∃ utxos n change fee hasChange, transparentUtxos cfg w db a = .ok utxos ∧
      transparentSelection utxos recipients = some (n, change, fee, hasChange) ∧
      step = ⟨utxos.take n, [], recipients.map fun _ => .transparent,
        List.replicate hasChange.toNat .transparent⟩ := by
  simp only [prepareTransparent, bind_eq_ok] at h
  obtain ⟨_, _, _, _, receivers, hrecv, outs, houts, _, _, hsel⟩ := h
  have hutxos : transparentUtxos cfg w db a =
      .ok (outs.flatten.mergeSort fun u v => decide (v.value ≤ u.value)) := by
    simp only [transparentUtxos, bind_eq_ok, pure_eq_ok]
    exact ⟨receivers, hrecv, outs, houts, rfl⟩
  split at hsel
  · cases hsel
  · next n change fee hasChange heq =>
    refine ⟨_, n, change, fee, hasChange, hutxos, heq, ?_⟩
    split at hsel
    · next hchange =>
      simp only [bind_eq_ok, pure_eq_ok] at hsel
      obtain ⟨_, _, rfl⟩ := hsel
      rw [hchange]
      rfl
    · next hchange =>
      simp only [pure_eq_ok] at hsel
      rw [← hsel, Bool.not_eq_true _ |>.mp hchange]
      rfl

theorem prepareTransparent_of_selection {recipients : List (TransparentAddress × ℕ)}
    {utxos : List WalletTransparentOutput} {n change fee height : ℕ} {hasChange : Bool}
    {changeAddr : TransparentAddress} (hprover : w.requireProver = .ok ())
    (hheight : w.targetHeight = .ok height) (haddr : w.changeAddress = .ok changeAddr)
    (hutxos : transparentUtxos cfg w db a = .ok utxos)
    (hsel : transparentSelection utxos recipients = some (n, change, fee, hasChange)) :
    prepareTransparent cfg w db a recipients a.fromAddress = .ok ⟨utxos.take n, [],
      recipients.map fun _ => .transparent, List.replicate hasChange.toNat .transparent⟩ := by
  simp only [transparentUtxos, bind_eq_ok, pure_eq_ok] at hutxos
  obtain ⟨receivers, hrecv, outs, houts, rfl⟩ := hutxos
  simp only [prepareTransparent, bind_eq_ok]
  refine ⟨(), hprover, height, hheight, receivers, hrecv, outs, houts, (), ?_, ?_⟩
  · rw [ensure_eq_ok, Bool.not_eq_true', List.isEmpty_eq_false_iff]
    rintro hnil
    rw [hnil] at hsel
    cases hsel
  · unfold transparentSelection at hsel
    rw [hsel]
    cases hasChange with
    | true => simp only [if_true, bind_eq_ok, haddr]; exact ⟨_, rfl, rfl⟩
    | false => rfl

theorem Reading.allows_transparent {inputs n outputs : ℕ} (hle : inputs ≤ n) (hn : 0 < n)
    (h : r.limits.maxTxBytes ≠ 0 → n ≤ maxTransparentInputs r.limits.maxTxBytes
      { TxShape.default with transparentOutputs := outputs }) :
    r.Allows { TxShape.default with transparentInputs := inputs, transparentOutputs := outputs } :=
  ⟨fun hmax => (estimateBytes_inputs_mono hle).trans
      ((le_maxTransparentInputs_iff hmax hn).mp (h hmax)), fun _ => Nat.zero_le _⟩

theorem prepareSend_allows (h : prepareSend cfg (w.under r) db a = .ok (route, step))
    (hfit : ∀ recipients, fullyTransparentRecipients cfg a = .ok (some recipients) →
      TransparentFits cfg w r db a recipients) : r.Allows (stepShape r.counts step) := by
  simp only [prepareSend, bind_eq_ok] at h
  obtain ⟨_, _, _, _, _, _, _, _, _, _, recipients, hrec, h⟩ := h
  cases recipients with
  | some recipients =>
    simp only [bind_eq_ok, pure_eq_ok, Prod.mk.injEq] at h
    obtain ⟨_, hprep, _, rfl⟩ := h
    obtain ⟨utxos, n, change, fee, hasChange, hutxos, hsel, rfl⟩ := prepareTransparent_selects hprep
    rw [stepShape_transparent rfl (by simp) (by simp), List.length_map, List.length_replicate]
    refine Reading.allows_transparent (List.length_take_le n utxos)
      (pos_of_transparentSelection hsel) ?_
    exact hfit recipients hrec utxos n change fee hasChange hutxos hsel
  | none =>
    simp only at h
    split at h
    · simp only [bind_eq_ok, pure_eq_ok, Prod.mk.injEq] at h
      obtain ⟨_, hprep, _, rfl⟩ := h
      exact prepareFused_allows hprep
    · simp only [bind_eq_ok, pure_eq_ok, Prod.mk.injEq] at h
      obtain ⟨_, hprep, _, _, _, _, _, _, _, rfl⟩ := h
      exact buildProposalAndPczt_allows hprep

def Command.plannedStep : Command → Option (Step ℕ)
  | .send _ => none
  | .executeShieldCoinbase p => some p.head.widen
  | .executeMergeToAddress (.utxoProposal p) => some p.head.widen
  | .executeMergeToAddress (.noteProposal p) => some p.head
  | .executeMergeToAddress (.transparentTx inputs _ _ _) => some ⟨inputs, [], [.transparent], []⟩

theorem Prepared.plannedStep {cmd : Command} (h : Prepared cfg w db cmd route step)
    (hcmd : ∀ entry, cmd ≠ .send entry) : cmd.plannedStep = some step := by
  cases h with
  | send => exact absurd rfl (hcmd _)
  | shieldCoinbase hprep =>
    simp only [prepareShieldCoinbase, bind_eq_ok, pure_eq_ok, Prod.mk.injEq] at hprep
    obtain ⟨_, _, _, _, _, _, _, rfl⟩ := hprep
    rfl
  | @merge work _ _ hprep =>
    cases work with
    | utxoProposal p =>
      simp only [prepareMerge, bind_eq_ok, pure_eq_ok, Prod.mk.injEq] at hprep
      obtain ⟨_, _, _, _, _, _, _, rfl⟩ := hprep
      rfl
    | noteProposal p =>
      simp only [prepareMerge, bind_eq_ok, pure_eq_ok, Prod.mk.injEq] at hprep
      obtain ⟨_, _, _, _, _, _, _, rfl⟩ := hprep
      rfl
    | transparentTx inputs dest amount fee =>
      simp only [prepareMerge, bind_eq_ok, pure_eq_ok, Prod.mk.injEq] at hprep
      obtain ⟨_, _, _, _, _, _, _, _, _, rfl⟩ := hprep
      rfl

def PlanAllowed (r : Reading) (cmd : Command) : Prop :=
  ∃ step, cmd.plannedStep = some step ∧ r.Allows (stepShape r.counts step)

theorem proposeShieldCoinbase_allowed {req : ShieldCoinbaseRequest} {plan : ShieldCoinbasePlan}
    (h : proposeShieldCoinbase l r db req = .ok plan) (hfit : ShieldFits l r db req) :
    PlanAllowed r (.executeShieldCoinbase plan.proposal) := by
  simp only [proposeShieldCoinbase, bind_eq_ok, pure_eq_ok] at h
  obtain ⟨_, _, _, _, _, _, _, _, addrs, _, _, _, _, _, _, _, p, hp, _, hbytes, _, _, rfl⟩ := h
  exact ⟨_, rfl, fun hmax => enforceMaxTxBytes_ok hbytes hmax List.mem_cons_self, hfit addrs p hp⟩

theorem mergeProposal_allows {amount : ℕ} {privacy : SendPrivacy} {u : Unit}
    (h : mergeProposal l r req amount step privacy = .ok u) :
    r.Allows (stepShape r.counts step) := by
  simp only [mergeProposal, bind_eq_ok] at h
  obtain ⟨_, _, _, _, _, _, hceil⟩ := h
  exact Reading.enforceCeilings_ok hceil List.mem_cons_self

theorem selectMergeUtxos_fits {dest : Option TransparentAddress}
    {utxos : List WalletTransparentOutput} : (selectMergeUtxos r req dest utxos).length ≤
      maxTransparentInputs r.limits.maxTxBytes (mergeDestShape dest) := by
  rw [selectMergeUtxos, List.length_take]
  exact (Nat.min_le_left _ _).trans (Nat.min_le_right _ _)

theorem proposeMergeTransparent_allowed {destAddr : Address}
    {addrs : Option (List TransparentAddress)} {plan : MergePlan}
    (h : proposeMergeTransparent cfg l r db req destAddr addrs = .ok plan) :
    PlanAllowed r (.executeMergeToAddress plan.work) := by
  simp only [proposeMergeTransparent, bind_eq_ok, ensure_eq_ok] at h
  obtain ⟨_, _, _, _, outs, _, _, _, _, hne, _, _, h⟩ := h
  split at h
  · next t hdest =>
    simp only [bind_eq_ok, pure_eq_ok] at h
    obtain ⟨amount, _, rfl⟩ := h
    refine ⟨_, rfl, ?_⟩
    rw [stepShape_transparent rfl (by simp) (by simp)]
    refine Reading.allows_transparent le_rfl (by simpa [List.length_pos_iff] using hne) fun _ => ?_
    have hfits : (selectMergeUtxos r req (some t) outs.flatten).length ≤
        maxTransparentInputs r.limits.maxTxBytes (mergeDestShape (some t)) := selectMergeUtxos_fits
    rw [hdest]
    exact hfits
  · simp only [bind_eq_ok, pure_eq_ok] at h
    obtain ⟨_, _, _, _, _, _, _, _, _, hmerge, rfl⟩ := h
    exact ⟨_, rfl, mergeProposal_allows hmerge⟩

theorem proposeMergeShielded_allowed {destAddr : Address} {pools : List ShieldedPool}
    {plan : MergePlan} (h : proposeMergeShielded cfg l r db req destAddr pools = .ok plan) :
    PlanAllowed r (.executeMergeToAddress plan.work) := by
  simp only [proposeMergeShielded, bind_eq_ok] at h
  obtain ⟨_, _, _, _, h⟩ := h
  split at h
  · simp only [bind_eq_ok, pure_eq_ok] at h
    obtain ⟨p, _, _, _, _, hceil, rfl⟩ := h
    exact ⟨_, rfl, Reading.enforceCeilings_ok hceil List.mem_cons_self⟩
  · simp only [proposeMergeBounded, bind_eq_ok, pure_eq_ok] at h
    obtain ⟨_, _, _, _, _, _, _, _, _, _, _, _, _, hmerge, rfl⟩ := h
    exact ⟨_, rfl, mergeProposal_allows hmerge⟩

theorem proposeMergeToAddress_allowed {plan : MergePlan}
    (h : proposeMergeToAddress cfg l r db req = .ok plan) :
    PlanAllowed r (.executeMergeToAddress plan.work) := by
  simp only [proposeMergeToAddress, bind_eq_ok] at h
  obtain ⟨_, _, _, _, _, _, _, _, _, _, h⟩ := h
  split at h
  · cases h
  · split at h
    · exact proposeMergeTransparent_allowed h
    · exact proposeMergeShielded_allowed h

end Builds

end Zecd
