import Zecd.Foundation.Runs
import Zecd.Send.ReferenceWallet
import Zecd.Send.Steps

/-! # The double-spend surface of the send pipeline

Only one PCZT is uncommitted at a time, but a command that spends notes inline does not
wait for it, and a merge runs a plan that was fixed before it. As long as no inline spend runs
while a proof is in flight, and no plan outlives its inputs, the inputs of the uncommitted PCZT
stay disjoint from everything stored, and no two stored transactions spend the same note.
-/

namespace Zecd

open Runs Fallible

/-- The uncommitted PCZT shares no input with a stored transaction, and no two stored
transactions share one. -/
structure NoDoubleSpend (s : SendState) : Prop where
  uncommitted : ∀ j ∈ s.proofs, ∀ t ∈ s.stored, List.Disjoint j.step.inputs t.step.inputs
  stored : s.stored.Pairwise fun t u => List.Disjoint t.step.inputs u.step.inputs

/-- The command spends notes on a path that does not wait for an in-flight proof: a
Sapling-output send, an `AllowFullyTransparent` send that is not fully transparent, any
shielded-funded send where pipelining does not apply, and a merge of notes. -/
def spendsNotesInline (cfg : SendConfig) : Command → Bool
  | .send entry =>
    match entry.args cfg with
    | .error _ => false
    | .ok a =>
      runsInline cfg a && !a.source.isTransparent &&
        match fullyTransparentRecipients cfg a with
        | .ok (some _) => false
        | _ => true
  | .executeShieldCoinbase _ => false
  | .executeMergeToAddress (.noteProposal _) => true
  | .executeMergeToAddress _ => false

/-- The event runs a note-spending command past the proof in flight. -/
def Event.BypassesQueue (cfg : SendConfig) (s : SendState) : Event → Prop
  | .command _ _ cmd => s.sendInFlight = true ∧ spendsNotesInline cfg cmd = true
  | _ => False

/-- The inputs over which the plan of a merge or of a coinbase shielding was fixed. -/
def Command.planInputs : Command → List Input
  | .send _ => []
  | .executeShieldCoinbase proposal => proposal.head.widen.inputs
  | .executeMergeToAddress (.utxoProposal proposal) => proposal.head.widen.inputs
  | .executeMergeToAddress (.noteProposal proposal) => proposal.head.inputs
  | .executeMergeToAddress (.transparentTx inputs _ _ _) =>
    inputs.map fun u => .utxo u.outpoint

/-- The event runs a plan that a stored transaction has taken an input from since it was fixed:
another plan over that input, or a send that selected it. -/
def Event.RunsStalePlan (s : SendState) : Event → Prop
  | .command _ _ cmd => ∃ i ∈ cmd.planInputs, i ∈ spentInputs s.stored
  | _ => False

/-! ## What a build spends -/

theorem notMem_spentInputs_iff {step : Step ℕ} {db : List StoredTx} :
    (∀ i ∈ step.inputs, i ∉ spentInputs db) ↔
      ∀ t ∈ db, List.Disjoint step.inputs t.step.inputs := by
  simp only [spentInputs, List.mem_flatMap, not_exists, not_and, List.Disjoint]
  constructor
  · intro h t ht i hi hti; exact h i hi t ht hti
  · intro h i hi t ht hti; exact h t ht hi hti

theorem Step.disjoint_of_kinds {step step' : Step ℕ} (h : step.shieldedInputs = [])
    (h' : step'.transparentInputs = []) : List.Disjoint step'.inputs step.inputs := by
  intro i hi hi'
  simp only [Step.inputs, h, h', List.map_nil, List.append_nil, List.nil_append,
    List.mem_map] at hi hi'
  obtain ⟨n, _, rfl⟩ := hi
  obtain ⟨u, _, hu⟩ := hi'
  cases hu

section Builds

variable {cfg : SendConfig} {w : WalletLayer} {db : List StoredTx} {a : SendArgs} {step : Step ℕ}

theorem Proposed.unspent (hw : w.SelectsUnspent) (h : Proposed cfg w db a step) :
    ∀ i ∈ step.inputs, i ∉ spentInputs db := by
  obtain ⟨p, hp, _, rfl, _⟩ := h
  exact hw.propose hp

theorem Proposed.notesOnly (hw : w.HonoursPolicy) (h : Proposed cfg w db a step)
    (ha : a.source.isTransparent = false) : step.transparentInputs = [] := by
  obtain ⟨p, hp, _, rfl, _⟩ := h
  exact hw.transparent hp (by simp [ha])

theorem Proposed.utxosOnly (hw : w.HonoursPolicy) (h : Proposed cfg w db a step)
    (ha : a.source.isTransparent = true) : step.shieldedInputs = [] := by
  obtain ⟨p, hp, _, rfl, _⟩ := h
  rw [List.eq_nil_iff_forall_not_mem]
  intro n hn
  cases hsource : a.source with
  | transparent t => simpa [hsource, spendPolicyForSource] using hw.shielded hp n hn
  | unspecified => simp [hsource, SendSource.isTransparent] at ha
  | shielded => simp [hsource, SendSource.isTransparent] at ha
  | shieldedFamily f => simp [hsource, SendSource.isTransparent] at ha

theorem prepareTransparent_unspent (hw : w.SelectsUnspent)
    {recipients : List (TransparentAddress × ℕ)} {fromAddress : Option TransparentAddress}
    (h : prepareTransparent cfg w db a recipients fromAddress = .ok step) :
    ∀ i ∈ step.inputs, i ∉ spentInputs db := by
  obtain ⟨hnotes, hutxos⟩ := prepareTransparent_ok h
  intro i hi
  simp only [Step.inputs, hnotes, List.map_nil, List.append_nil, List.mem_map] at hi
  obtain ⟨u, hu, rfl⟩ := hi
  obtain ⟨addr, us, hus, hmem⟩ := hutxos u hu
  exact hw.utxos hus u hmem

theorem prepareShieldCoinbase_inputs {proposal : Proposal Empty} {route : Route}
    (h : prepareShieldCoinbase w proposal = .ok (route, step)) :
    step.inputs = (Command.executeShieldCoinbase proposal).planInputs := by
  simp only [prepareShieldCoinbase, bind_eq_ok, pure_eq_ok, Prod.mk.injEq] at h
  obtain ⟨_, _, _, _, _, _, _, rfl⟩ := h
  rfl

theorem prepareMerge_inputs {work : MergeWork} {route : Route}
    (h : prepareMerge w work = .ok (route, step)) :
    step.inputs = (Command.executeMergeToAddress work).planInputs := by
  simp only [prepareMerge, bind_eq_ok] at h
  obtain ⟨_, _, h⟩ := h
  cases work with
  | utxoProposal proposal =>
    simp only [bind_eq_ok, pure_eq_ok, Prod.mk.injEq] at h
    obtain ⟨_, _, _, _, _, rfl⟩ := h
    rfl
  | noteProposal proposal =>
    simp only [bind_eq_ok, pure_eq_ok, Prod.mk.injEq] at h
    obtain ⟨_, _, _, _, _, rfl⟩ := h
    rfl
  | transparentTx inputs dest amount fee =>
    simp only [bind_eq_ok, pure_eq_ok, Prod.mk.injEq] at h
    obtain ⟨_, _, _, _, _, _, _, rfl⟩ := h
    simp [Step.inputs, Command.planInputs]

/-- A command that stores a transaction spends only what was unspent before, if its plan does. -/
theorem Prepared.unspent (hw : w.SelectsUnspent) {cmd : Command} {route : Route}
    (h : Prepared cfg w db cmd route step)
    (hplan : ∀ i ∈ cmd.planInputs, i ∉ spentInputs db) :
    ∀ i ∈ step.inputs, i ∉ spentInputs db := by
  cases h with
  | send ha hin hprep =>
    rcases (prepareSend_cases hprep).2 with ⟨_, _, _, _, ht⟩ | ⟨_, _, hp⟩
    · exact prepareTransparent_unspent hw ht
    · exact hp.unspent hw
  | shieldCoinbase hprep =>
    rw [prepareShieldCoinbase_inputs hprep]
    exact hplan
  | merge hprep =>
    rw [prepareMerge_inputs hprep]
    exact hplan

theorem Prepared.utxosOnly (hw : w.HonoursPolicy) {cmd : Command} {route : Route}
    (h : Prepared cfg w db cmd route step) (hcmd : spendsNotesInline cfg cmd = false) :
    step.shieldedInputs = [] := by
  cases h with
  | send ha hin hprep =>
    rcases (prepareSend_cases hprep).2 with ⟨_, _, _, _, ht⟩ | ⟨hrec, _, hp⟩
    · exact (prepareTransparent_ok ht).1
    · refine hp.utxosOnly hw ?_
      simpa [spendsNotesInline, ha, hin, hrec] using hcmd
  | shieldCoinbase hprep =>
    simp only [prepareShieldCoinbase, bind_eq_ok, pure_eq_ok, Prod.mk.injEq] at hprep
    obtain ⟨_, _, _, _, _, _, _, rfl⟩ := hprep
    exact Step.widen_shieldedInputs _
  | @merge work _ _ hprep =>
    simp only [prepareMerge, bind_eq_ok] at hprep
    obtain ⟨_, _, hprep⟩ := hprep
    cases work with
    | noteProposal p => simp [spendsNotesInline] at hcmd
    | utxoProposal p =>
      simp only [bind_eq_ok, pure_eq_ok, Prod.mk.injEq] at hprep
      obtain ⟨_, _, _, _, _, rfl⟩ := hprep
      exact Step.widen_shieldedInputs _
    | transparentTx inputs dest amount fee =>
      simp only [bind_eq_ok, pure_eq_ok, Prod.mk.injEq] at hprep
      obtain ⟨_, _, _, _, _, _, _, rfl⟩ := hprep
      rfl

end Builds

/-! ## The invariant -/

/-- The pipeline invariant behind `NoDoubleSpend`: a proof is running exactly while
`send_in_flight` is set, it spends notes only, and so will every queued send. -/
structure PipelineInv (cfg : SendConfig) (s : SendState) : Prop extends NoDoubleSpend s where
  single : s.proofs.length = if s.sendInFlight then 1 else 0
  notesOnly : ∀ j ∈ s.proofs, j.step.transparentInputs = []
  queued : ∀ p ∈ s.sendQueue, runsInline cfg p.toSendArgs = false

variable {cfg : SendConfig} {w : WalletLayer} {s : SendState}

theorem pipelineInv_init : PipelineInv cfg .init :=
  ⟨⟨by simp [SendState.init], by simp [SendState.init]⟩, rfl, by simp [SendState.init],
    by simp [SendState.init]⟩

theorem PipelineInv.congr (h : PipelineInv cfg s) {s' : SendState}
    (hstored : s'.stored = s.stored) (hproofs : s'.proofs = s.proofs)
    (hflight : s'.sendInFlight = s.sendInFlight)
    (hqueue : ∀ p ∈ s'.sendQueue, runsInline cfg p.toSendArgs = false) : PipelineInv cfg s' := by
  obtain ⟨⟨hu, hs⟩, h1, hn, _⟩ := h
  exact ⟨⟨by rwa [hproofs, hstored], by rwa [hstored]⟩, by rwa [hproofs, hflight],
    by rwa [hproofs], hqueue⟩

theorem PipelineInv.reply (h : PipelineInv cfg s) (r : ℕ) (res : Except RpcError TxId) :
    PipelineInv cfg (s.reply r res) := h.congr rfl rfl rfl h.queued

theorem PipelineInv.commit (h : PipelineInv cfg s) {route : Route} {reply : ℕ} {step : Step ℕ}
    (hunspent : ∀ i ∈ step.inputs, i ∉ spentInputs s.stored)
    (hproofs : ∀ j ∈ s.proofs, List.Disjoint j.step.inputs step.inputs) :
    PipelineInv cfg (Zecd.commit w route s reply step).1 := by
  rcases commit_cases w route s reply step with ⟨e, heq⟩ | ⟨txid, expiry, acc, res, _, heq, _⟩
  · rw [heq]; exact h
  · rw [heq]
    have hnew := notMem_spentInputs_iff.mp hunspent
    refine ⟨⟨?_, ?_⟩, h.single, h.notesOnly, h.queued⟩
    · intro j hj t ht
      rcases List.mem_append.mp ht with ht | ht
      · exact h.uncommitted j hj t ht
      · rw [List.mem_singleton.mp ht]; exact hproofs j hj
    · refine List.pairwise_append.mpr ⟨h.stored, List.pairwise_singleton _ _, ?_⟩
      intro t ht u hu
      rw [List.mem_singleton.mp hu]
      exact List.disjoint_comm.mp (hnew t ht)

theorem source_of_not_runsInline {a : SendArgs} (h : runsInline cfg a = false) :
    a.source.isTransparent = false := by
  simp only [runsInline, Bool.or_eq_false_iff] at h
  exact h.1.1.2

theorem PipelineInv.start (h : PipelineInv cfg s) (hw : w.SelectsUnspent ∧ w.HonoursPolicy)
    (hs : s.sendInFlight = false) {p : PendingSend} {step : Step ℕ}
    (ha : runsInline cfg p.toSendArgs = false)
    (hp : preparePipelined cfg w s.stored p.toSendArgs = .ok step) :
    PipelineInv cfg { s with sendInFlight := true, proofs := s.proofs ++ [⟨p, step⟩] } := by
  have hproposed := preparePipelined_ok hp
  have hnone : s.proofs = [] := by simpa [hs] using h.single
  refine ⟨⟨?_, h.stored⟩, by simp [hnone], ?_, h.queued⟩
  · intro j hj
    simp only [hnone, List.nil_append, List.mem_singleton] at hj
    subst hj
    exact notMem_spentInputs_iff.mp (hproposed.unspent hw.1)
  · intro j hj
    simp only [hnone, List.nil_append, List.mem_singleton] at hj
    subst hj
    exact hproposed.notesOnly hw.2 (source_of_not_runsInline ha)

/-- A command keeps the invariant unless it spends notes past a proof in flight, or runs a plan
whose inputs are gone. -/
theorem PipelineInv.handled (h : PipelineInv cfg s) (hw : w.SelectsUnspent ∧ w.HonoursPolicy)
    {reply : ℕ} {cmd : Command}
    (hcmd : s.sendInFlight = true → spendsNotesInline cfg cmd = false)
    (hplan : ∀ i ∈ cmd.planInputs, i ∉ spentInputs s.stored) {s' : SendState}
    (hs' : Handled cfg w s reply cmd s') : PipelineInv cfg s' := by
  cases hs' with
  | refused e => exact h.reply _ _
  | @queued a hp _ _ =>
    refine h.congr rfl rfl rfl fun p hp' => ?_
    rcases List.mem_append.mp hp' with hp' | hp'
    · exact h.queued p hp'
    · rw [List.mem_singleton.mp hp']; exact hp.waits
  | @started a step hp hs hprep => exact h.start (p := ⟨a, reply⟩) hw hs hp.waits hprep
  | committed hprep =>
    refine PipelineInv.reply (h.commit (hprep.unspent hw.1 hplan) ?_) _ _
    intro j hj
    have hflight : s.sendInFlight = true := by
      by_contra hf
      have hnone : s.proofs = [] := by simpa [hf] using h.single
      simp [hnone] at hj
    exact Step.disjoint_of_kinds (hprep.utxosOnly hw.2 (hcmd hflight)) (h.notesOnly j hj)

/-- A finished proof leaves the pipeline free, and its transaction shares nothing with what was
stored while it ran. -/
theorem PipelineInv.finish (h : PipelineInv cfg s) {i : ℕ} {job : ProofJob}
    (hjob : s.proofs[i]? = some job) :
    PipelineInv cfg (finishSend w { s with proofs := s.proofs.eraseIdx i } job) := by
  obtain ⟨hi, rfl⟩ := List.getElem?_eq_some_iff.mp hjob
  have hone : s.proofs.length = 1 := by
    have h1 := h.single
    split at h1 <;> omega
  have herase : s.proofs.eraseIdx i = [] := by
    rw [List.eq_nil_iff_length_eq_zero, List.length_eraseIdx_of_lt hi, hone]
  have hfree : PipelineInv cfg { s with proofs := s.proofs.eraseIdx i, sendInFlight := false } :=
    ⟨⟨by simp [herase], h.stored⟩, by simp [herase], by simp [herase], h.queued⟩
  rcases finishSend_cases w { s with proofs := s.proofs.eraseIdx i } s.proofs[i] with
    ⟨e, heq⟩ | heq
  · rw [heq]; exact hfree.reply _ _
  · rw [heq]
    refine PipelineInv.reply (hfree.commit ?_ (by simp [herase])) _ _
    exact notMem_spentInputs_iff.mpr (h.uncommitted _ (List.getElem_mem hi))

theorem PipelineInv.pump (h : PipelineInv cfg s) {ws : ℕ → WalletLayer}
    (hws : ∀ i, (ws i).SelectsUnspent ∧ (ws i).HonoursPolicy) :
    PipelineInv cfg (pumpSendQueue cfg ws s) := by
  refine pumpFrom_invariant ?_ h rfl
  intro i s p ps hs hq hflight
  have hpop : PipelineInv cfg { s with sendQueue := ps } :=
    hs.congr rfl rfl rfl fun p' hp' => hs.queued p' (hq ▸ List.mem_cons_of_mem _ hp')
  rcases startPipelinedSend_cases cfg (ws i) { s with sendQueue := ps } p with
    ⟨e, heq⟩ | ⟨step, hstep, heq⟩
  · rw [heq]; exact hpop.reply _ _
  · rw [heq]
    exact hpop.start (hws i) hflight (hs.queued p (hq ▸ List.mem_cons_self)) hstep

theorem PipelineInv.step (h : PipelineInv cfg s) {e : Event}
    (hw : e.Uses fun w => w.SelectsUnspent ∧ w.HonoursPolicy)
    (he : ¬ e.BypassesQueue cfg s) (hplan : ¬ e.RunsStalePlan s) :
    PipelineInv cfg (e.step cfg s) := by
  cases e with
  | command w payment cmd =>
    have hcmd : s.sendInFlight = true → spendsNotesInline cfg cmd = false := by
      intro hf
      by_contra hne
      exact he ⟨hf, by simpa using hne⟩
    have h' : PipelineInv cfg (s.issue payment cmd) :=
      h.congr rfl rfl rfl h.queued
    have hfresh : ∀ i ∈ cmd.planInputs, i ∉ spentInputs s.stored :=
      fun i hi hspent => hplan ⟨i, hi, hspent⟩
    exact h'.handled hw hcmd hfresh (handleCommand_handled ..)
  | sendDone w pump i =>
    simp only [Event.step]
    split
    · exact h
    · rename_i job hjob
      exact (h.finish hjob).pump hw.2
  | maybeRebroadcast w tip mined =>
    simp only [Event.step]
    split
    · obtain ⟨acc, heq, _⟩ := rebroadcast_cases w (unminedRawTxs s.stored tip mined) s
      rw [heq]
      exact h.congr rfl rfl rfl h.queued
    · exact h

/-- In every run whose commands never spend notes past a proof in flight, and never run a plan
that has lost an input, the uncommitted PCZT shares no input with a stored transaction and no two
stored transactions share one. -/
theorem noDoubleSpend_of_no_bypass (cfg : SendConfig) (es : List Event)
    (hw : ∀ e ∈ es, e.Uses fun w => w.SelectsUnspent ∧ w.HonoursPolicy)
    (h : Along (Event.step cfg) (fun s e => ¬ e.BypassesQueue cfg s ∧ ¬ e.RunsStalePlan s)
      .init es) :
    NoDoubleSpend (run (Event.step cfg) .init es) := by
  have hboth : Along (Event.step cfg)
      (fun s e => (¬ e.BypassesQueue cfg s ∧ ¬ e.RunsStalePlan s) ∧
        e.Uses fun w => w.SelectsUnspent ∧ w.HonoursPolicy) .init es := along_and_forall h hw
  refine (invariant (I := PipelineInv cfg) ?_ pipelineInv_init hboth).toNoDoubleSpend
  intro s e hs he
  exact hs.step he.2 he.1.1 he.1.2

/-! ## Racing sends -/

/-- An Orchard-only wallet with the proving key cached and `pipeline_proving` on. -/
def pipelineConfig : SendConfig where
  network := .main
  enabledPools := [.orchard]
  orchardKeys := true
  pipelineProving := true
  confirmationsPolicy := ⟨3, 10⟩
  privacy := .allowRevealedRecipients
  allowDuplicateShieldedRecipients := false

/-- A wallet with these notes whose upstream accepts everything. -/
def walletWith (notes : List (ReceivedNote ℕ)) : WalletLayer :=
  referenceWallet .main .orchard ⟨notes, [], true, ⟨true, some ⟨0, ""⟩⟩⟩

def sendTo (w : WalletLayer) (payment : ℕ) (addr : Address) (privacy : Option SendPrivacy)
    (source : SendSource) : Event :=
  .command w payment (.send (.nodeSend ⟨[⟨⟨.main, addr⟩, some 1000, none⟩]⟩ none privacy source))

def orchardRecipient : Address := .unified ⟨true, false, false, 7⟩

/-- A pipelined send, then a fully-transparent-policy send from a shielded source while its
proof is running, then the completion of that proof. -/
def racingSends : List Event :=
  let w := walletWith [⟨1, .orchard⟩]
  [sendTo w 0 orchardRecipient none .unspecified,
    sendTo w 1 (.transparent (.publicKeyHash 9)) (some .allowFullyTransparent) .shielded,
    .sendDone w (fun _ => w) 0]

theorem walletWith_lawful (notes : List (ReceivedNote ℕ)) :
    (walletWith notes).SelectsUnspent ∧ (walletWith notes).HonoursPolicy :=
  ⟨referenceWallet_selectsUnspent, referenceWallet_honoursPolicy⟩

/-- A merge of one output, executed twice: both plans were fixed before either ran. -/
def repeatedMerge : List Event :=
  let merge : Command := .executeMergeToAddress
    (.transparentTx [⟨5, .publicKeyHash 1, 60000⟩] (.publicKeyHash 9) 50000 10000)
  [.command (walletWith []) 0 merge, .command (walletWith []) 1 merge]

/-- The inline send takes the note of the PCZT in flight, and both transactions are stored. So are
both merges. -/
theorem racingSends_double_spend :
    (∀ e ∈ racingSends ++ repeatedMerge, e.Uses fun w => w.SelectsUnspent ∧ w.HonoursPolicy) ∧
    ¬ NoDoubleSpend (run (Event.step pipelineConfig) .init (racingSends.take 2)) ∧
    ¬ NoDoubleSpend (run (Event.step pipelineConfig) .init racingSends) ∧
    ¬ NoDoubleSpend (run (Event.step pipelineConfig) .init repeatedMerge) := by
  refine ⟨?_, ?_, ?_, ?_⟩
  · have hw := walletWith_lawful [⟨1, .orchard⟩]
    have hw' := walletWith_lawful []
    simp only [racingSends, repeatedMerge, List.cons_append, List.nil_append,
      List.forall_mem_cons]
    exact ⟨hw, hw, ⟨hw, fun _ => hw⟩, hw', hw', by simp⟩
  · intro h
    have hproof : ∃ j ∈ (run (Event.step pipelineConfig) .init (racingSends.take 2)).proofs,
        Input.note .orchard 1 ∈ j.step.inputs := by decide
    have hstored : ∃ t ∈ (run (Event.step pipelineConfig) .init (racingSends.take 2)).stored,
        Input.note .orchard 1 ∈ t.step.inputs := by decide
    obtain ⟨j, hj, hji⟩ := hproof
    obtain ⟨t, ht, hti⟩ := hstored
    exact h.uncommitted j hj t ht hji hti
  · intro h
    have hstored : (run (Event.step pipelineConfig) .init racingSends).stored.map
        (·.step.inputs) = [[.note .orchard 1], [.note .orchard 1]] := by decide
    have hpair := List.pairwise_map.mpr h.stored
    rw [hstored] at hpair
    simp at hpair
  · intro h
    have hstored : (run (Event.step pipelineConfig) .init repeatedMerge).stored.map
        (·.step.inputs) = [[.utxo 5], [.utxo 5]] := by decide
    have hpair := List.pairwise_map.mpr h.stored
    rw [hstored] at hpair
    simp at hpair

/-- Two pipelined sends with different notes, the second queued behind the first proof: the
queue is respected and both commit. -/
def queuedSends : List Event :=
  let w := walletWith [⟨1, .orchard⟩, ⟨2, .orchard⟩]
  [sendTo w 0 orchardRecipient none .unspecified, sendTo w 1 orchardRecipient none .shielded,
    .sendDone w (fun _ => w) 0, .sendDone w (fun _ => w) 0]

theorem queuedSends_no_double_spend :
    (run (Event.step pipelineConfig) .init queuedSends).stored.map (·.step.inputs) =
      [[.note .orchard 1], [.note .orchard 2]] ∧
    NoDoubleSpend (run (Event.step pipelineConfig) .init queuedSends) := by
  refine ⟨by decide, noDoubleSpend_of_no_bypass pipelineConfig queuedSends ?_ ?_⟩
  · have hw := walletWith_lawful [⟨1, .orchard⟩, ⟨2, .orchard⟩]
    simp only [queuedSends, List.forall_mem_cons]
    exact ⟨hw, hw, ⟨hw, fun _ => hw⟩, ⟨hw, fun _ => hw⟩, by simp⟩
  · refine ⟨⟨?_, ?_⟩, ⟨?_, ?_⟩, ⟨id, id⟩, ⟨id, id⟩, trivial⟩
    · rintro ⟨_, h⟩; revert h; decide
    · rintro ⟨_, h, _⟩; cases h
    · rintro ⟨_, h⟩; revert h; decide
    · rintro ⟨_, h, _⟩; cases h

end Zecd
