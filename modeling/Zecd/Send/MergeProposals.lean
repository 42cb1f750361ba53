import Zecd.Send.CeilingRuns
import Zecd.Send.MergeRounds
import Zecd.Send.ReferenceWallet

/-! # Merge proposals

The propose functions plan what a merge fixes, or refuse it. Where some selection passes the
ceilings, a merge is refused for size exactly where it wedges. Every other refusal has a cause
that has nothing to do with size.
-/

namespace Zecd

open Fallible

variable {cfg : SendConfig} {l : PlanLayer} {r : Reading} {db : List StoredTx}
  {req : MergeRequest} {destAddr : Address} {destPool : PoolType} {m : Mergeable}
  {notes : List SpendableNote} {utxos : List WalletTransparentOutput} {step : Step ℕ}
  {plan : MergePlan} {e : RpcError}

/-! ## What a request merges -/

/-- What a source reads. Send-max, by its documentation, proposes nothing but one step that
spends every spendable note. -/
inductive MergeSource.Reads (cfg : SendConfig) (l : PlanLayer) (db : List StoredTx)
    (req : MergeRequest) (destPool : PoolType) : MergeSource → Mergeable → Prop
  | shielded {pools : List ShieldedPool} {notes : List SpendableNote}
      (hnotes : l.selectSpendableNotes db pools cfg.confirmationsPolicy = .ok notes)
      (hmax : ∀ p, l.proposeSendMaxTransfer db pools req.toAddress req.memo
        cfg.confirmationsPolicy = .ok p → p = ⟨mergeStep destPool notes, []⟩) :
      Reads cfg l db req destPool (.shielded pools) (.notes notes)
  | transparent {addrs : Option (List TransparentAddress)}
      {receivers fromAddrs : List TransparentAddress}
      {outs : List (List WalletTransparentOutput)}
      (hreceivers : l.transparentReceivers = .ok receivers)
      (hfrom : mergeAddresses receivers addrs = .ok fromAddrs)
      (houts : fromAddrs.mapM (fun addr => l.spendableTransparentOutputs db addr
        cfg.confirmationsPolicy) = .ok outs) :
      Reads cfg l db req destPool (.transparent addrs) (.utxos outs.flatten)

/-- The request merges these notes or outputs into the pool its destination is paid in. -/
structure MergeRequest.Of (cfg : SendConfig) (l : PlanLayer) (db : List StoredTx)
    (req : MergeRequest) (destAddr : Address) (destPool : PoolType) (m : Mergeable) : Prop where
  address : req.toAddress.convertIfNetwork cfg.network = some destAddr
  destination : mergeDestinationPool destAddr l.ironwoodActive = .ok destPool
  source : req.source.Reads cfg l db req destPool m

/-! ## What else is asked of a merge -/

/-- What a merge of the notes is asked beside the ceilings: a fee below their value, a payment of
the rest, and a proposal that is consistent and private enough. -/
def notesOffer (l : PlanLayer) (req : MergeRequest) (destAddr : Address) (destPool : PoolType)
    (notes : List SpendableNote) : Except RpcError Unit := do
  let (saplingOut, orchardAct, ironwoodAct) ← mergeActionCounts l destPool
    (notesIn .sapling notes) (notesIn .orchard notes) (notesIn .ironwood notes)
  let fee ← l.feeRequired 0 ((destinationOf destAddr).map transparentTxoutSize).toList
    (notesIn .sapling notes) saplingOut orchardAct ironwoodAct
  let amount ← mergePayment (noteValue notes) fee
  ensure (Payment.new req.toAddress amount req.memo).isSome invalidPayment
  l.singleStep (mergeStep destPool notes)
  enforceSendPrivacy req.privacy ⟨mergeStep destPool notes, []⟩

/-- The same of transparent outputs. To a transparent destination there is only the fee. -/
def outputsOffer (l : PlanLayer) (req : MergeRequest) (destAddr : Address) (destPool : PoolType)
    (utxos : List WalletTransparentOutput) : Except RpcError Unit :=
  match destinationOf destAddr with
  | some t => do
    let _ ← mergePayment (totalValue utxos) (mergeTransparentFee utxos.length
      (transparentTxoutSize t) p2pkhStandardOutputSize marginalFee graceActions)
    return ()
  | none => do
    let (saplingOut, orchardAct, ironwoodAct) ← mergeActionCounts l destPool 0 0 0
    let fee ← l.feeRequired utxos.length [] 0 saplingOut orchardAct ironwoodAct
    let amount ← mergePayment (totalValue utxos) fee
    ensure (Payment.new req.toAddress amount req.memo).isSome invalidPayment
    l.singleStep (sweepStep destPool utxos)
    enforceSendPrivacy .allowFullyTransparent ⟨sweepStep destPool utxos, []⟩

/-- Why a merge may be refused other than for size: the wallet is locked, not synced or has no
account, the caller's privacy policy, or what some selection is asked beside the ceilings. -/
inductive Hindrance (cfg : SendConfig) (l : PlanLayer) (db : List StoredTx) (req : MergeRequest)
    (destAddr : Address) (destPool : PoolType) : Mergeable → RpcError → Prop
  | locked {m : Mergeable} {e : RpcError} (h : spendingKey l.toWalletLayer = .error e) :
      Hindrance cfg l db req destAddr destPool m e
  | sync {m : Mergeable} {e : RpcError} (h : l.syncToTipForSend = .error e) :
      Hindrance cfg l db req destAddr destPool m e
  | account {m : Mergeable} {e : RpcError} (h : l.requireAccount = .error e) :
      Hindrance cfg l db req destAddr destPool m e
  | target {m : Mergeable} {e : RpcError} (h : l.targetHeight = .error e) :
      Hindrance cfg l db req destAddr destPool m e
  | sender {utxos : List WalletTransparentOutput}
      (h : req.privacy.allowsTransparentInputs = false) :
      Hindrance cfg l db req destAddr destPool (.utxos utxos)
        (insufficientPrivacyForTransparentSender req.privacy)
  | fullyTransparent {utxos : List WalletTransparentOutput}
      (hdest : (destinationOf destAddr).isSome = true) (h : req.privacy ≠ .allowFullyTransparent) :
      Hindrance cfg l db req destAddr destPool (.utxos utxos)
        insufficientPrivacyForFullyTransparent
  | sendMax {pools : List ShieldedPool} {notes : List SpendableNote} {e : RpcError}
      (h : l.proposeSendMaxTransfer db pools req.toAddress req.memo cfg.confirmationsPolicy =
        .error e) : Hindrance cfg l db req destAddr destPool (.notes notes) e
  | privacy {notes : List SpendableNote} {e : RpcError}
      (h : enforceSendPrivacy req.privacy ⟨mergeStep destPool notes, []⟩ = .error e) :
      Hindrance cfg l db req destAddr destPool (.notes notes) e
  | notes {notes selected : List SpendableNote} {e : RpcError} (hne : selected ≠ [])
      (hsub : selected.Subperm notes)
      (h : notesOffer l req destAddr destPool selected = .error e) :
      Hindrance cfg l db req destAddr destPool (.notes notes) e
  | outputs {utxos selected : List WalletTransparentOutput} {e : RpcError} (hne : selected ≠ [])
      (hsub : selected.Subperm utxos)
      (h : outputsOffer l req destAddr destPool selected = .error e) :
      Hindrance cfg l db req destAddr destPool (.utxos utxos) e

/-! ## Statement -/

/-- The merge is planned, and what the plan stores passes the three ceilings. -/
def MergePasses (cfg : SendConfig) (l : PlanLayer) (r : Reading) (db : List StoredTx)
    (req : MergeRequest) : Prop :=
  ∃ plan step, proposeMergeToAddress cfg l r db req = .ok plan ∧
    (Command.executeMergeToAddress plan.work).plannedStep = some step ∧
    r.enforceCeilings ⟨step, []⟩ = .ok ()

/-- If some selection passes the three ceilings, the merge is planned and passes them. -/
def NeverWedges (cfg : SendConfig) (l : PlanLayer) (r : Reading) (db : List StoredTx)
    (req : MergeRequest) (destPool : PoolType) (m : Mergeable) : Prop :=
  SomePasses r destPool m → MergePasses cfg l r db req

/-! ## What is planned is what is fixed -/

theorem fitMergeSelection_counts {fam : List SpendableNote} {s : MergeSelection}
    (h : fitMergeSelection l r destPool fam = .ok s) :
    s.saplingSpends = notesIn .sapling s.notes ∧
      mergeActionCounts l destPool (notesIn .sapling s.notes) (notesIn .orchard s.notes)
        (notesIn .ironwood s.notes) = .ok (s.saplingOut, s.orchardAct, s.ironwoodAct) := by
  induction hn : fam.length using Nat.strong_induction_on generalizing fam with
  | _ n ih =>
    rw [fitMergeSelection] at h
    simp only [bind_eq_ok, Prod.exists] at h
    obtain ⟨saplingOut, orchardAct, ironwoodAct, hcounts, h⟩ := h
    split at h
    · rw [pure_eq_ok] at h
      subst h
      exact ⟨rfl, hcounts⟩
    · split at h
      · cases h
      · exact ih _ (by rw [List.length_dropLast]; omega) h rfl

theorem proposeMergeBounded_fixes (hall : mergesAll r req destAddr notes = false)
    (hdest : mergeDestinationPool destAddr l.ironwoodActive = .ok destPool)
    (h : proposeMergeBounded l r req destAddr notes (notesLimit req)
      (notes.countP fun n => n.pool == .sapling)
      (notes.countP fun n => isOrchardFamily (.shielded n.pool)) = .ok plan) :
    ∃ step, fixMerge l r req destAddr destPool (.notes notes) = .ok step ∧
      (Command.executeMergeToAddress plan.work).plannedStep = some step := by
  simp only [proposeMergeBounded, bind_eq_ok, pure_eq_ok, ensure_eq_ok, hdest, Except.ok.injEq] at h
  obtain ⟨_, hcap, _, rfl, s, hs, _, _, _, _, _, _, _, _, rfl⟩ := h
  refine ⟨mergeStep destPool s.notes, ?_, rfl⟩
  simp only [fixMerge, hall, Bool.false_eq_true, if_false, bind_eq_ok, ensure_eq_ok, pure_eq_ok]
  exact ⟨(), hcap, s, hs, rfl⟩

theorem proposeMergeShielded_eq {pools : List ShieldedPool}
    (hnotes : l.selectSpendableNotes db pools cfg.confirmationsPolicy = .ok notes) :
    proposeMergeShielded cfg l r db req destAddr pools = (do
      ensure (!notes.isEmpty) (.insufficientFunds "Could not find any funds to merge.")
      if mergesAll r req destAddr notes then
        let proposal ←
          l.proposeSendMaxTransfer db pools req.toAddress req.memo cfg.confirmationsPolicy
        enforceSendPrivacy req.privacy proposal
        r.enforceCeilings proposal
        return mergeNotesPlan proposal notes.length (noteValue notes) notes.length
          (noteValue notes)
      else
        proposeMergeBounded l r req destAddr notes (notesLimit req)
          (notes.countP fun n => n.pool == .sapling)
          (notes.countP fun n => isOrchardFamily (.shielded n.pool))) := by
  rw [proposeMergeShielded, hnotes]
  rfl

theorem proposeMergeShielded_fixes {pools : List ShieldedPool}
    (hdest : mergeDestinationPool destAddr l.ironwoodActive = .ok destPool)
    (hnotes : l.selectSpendableNotes db pools cfg.confirmationsPolicy = .ok notes)
    (hmax : ∀ p, l.proposeSendMaxTransfer db pools req.toAddress req.memo
      cfg.confirmationsPolicy = .ok p → p = ⟨mergeStep destPool notes, []⟩)
    (h : proposeMergeShielded cfg l r db req destAddr pools = .ok plan) :
    ∃ step, fixMerge l r req destAddr destPool (.notes notes) = .ok step ∧
      (Command.executeMergeToAddress plan.work).plannedStep = some step := by
  rw [proposeMergeShielded_eq hnotes, bind_eq_ok] at h
  obtain ⟨_, -, h⟩ := h
  cases hall : mergesAll r req destAddr notes with
  | true =>
    simp only [hall, if_true, bind_eq_ok, pure_eq_ok] at h
    obtain ⟨p, hp, _, _, _, _, rfl⟩ := h
    obtain rfl := hmax p hp
    refine ⟨mergeStep destPool notes, ?_, rfl⟩
    simp only [fixMerge, hall, if_true]
    rfl
  | false =>
    simp only [hall, Bool.false_eq_true, if_false] at h
    exact proposeMergeBounded_fixes hall hdest h

theorem proposeMergeTransparent_fixes {addrs : Option (List TransparentAddress)}
    {receivers fromAddrs : List TransparentAddress} {outs : List (List WalletTransparentOutput)}
    (hdest : mergeDestinationPool destAddr l.ironwoodActive = .ok destPool)
    (hreceivers : l.transparentReceivers = .ok receivers)
    (hfrom : mergeAddresses receivers addrs = .ok fromAddrs)
    (houts : fromAddrs.mapM (fun addr => l.spendableTransparentOutputs db addr
      cfg.confirmationsPolicy) = .ok outs)
    (h : proposeMergeTransparent cfg l r db req destAddr addrs = .ok plan) :
    ∃ step, fixMerge l r req destAddr destPool (.utxos outs.flatten) = .ok step ∧
      (Command.executeMergeToAddress plan.work).plannedStep = some step := by
  rw [proposeMergeTransparent, hreceivers, ok_bind, hfrom, ok_bind, houts, ok_bind] at h
  simp only [bind_eq_ok, ensure_eq_ok] at h
  obtain ⟨_, -, _, hne, _, -, h⟩ := h
  have hfix : fixMerge l r req destAddr destPool (.utxos outs.flatten) =
      .ok (sweepStep destPool (selectMergeUtxos r req (destinationOf destAddr) outs.flatten)) := by
    simp only [fixMerge, bind_eq_ok, ensure_eq_ok, pure_eq_ok]
    exact ⟨(), hne, trivial⟩
  refine ⟨_, hfix, ?_⟩
  split at h
  · next t ht =>
    simp only [bind_eq_ok, pure_eq_ok] at h
    obtain ⟨_, _, rfl⟩ := h
    rw [mergeDestinationPool, ht] at hdest
    obtain rfl := Except.ok.inj hdest
    rw [ht]
    rfl
  · next ht =>
    rw [mergeDestinationPool, ht] at hdest
    simp only [bind_eq_ok, pure_eq_ok, hdest, Except.ok.injEq] at h
    obtain ⟨_, rfl, _, _, _, _, _, _, _, _, rfl⟩ := h
    rw [ht]
    rfl

theorem proposeMerge_fixes (hof : req.Of cfg l db destAddr destPool m)
    (h : proposeMergeToAddress cfg l r db req = .ok plan) :
    ∃ step, fixMerge l r req destAddr destPool m = .ok step ∧
      (Command.executeMergeToAddress plan.work).plannedStep = some step := by
  obtain ⟨haddress, hdest, hsource⟩ := hof
  simp only [proposeMergeToAddress, haddress, bind_eq_ok] at h
  obtain ⟨_, _, _, _, _, _, _, _, _, _, h⟩ := h
  generalize req.source = source at hsource h
  cases hsource with
  | shielded hnotes hmax => exact proposeMergeShielded_fixes hdest hnotes hmax h
  | transparent hreceivers hfrom houts =>
    exact proposeMergeTransparent_fixes hdest hreceivers hfrom houts h

/-! ## Refusals -/

section Refused

theorem mergeProposal_eq {amount : ℕ} {privacy : SendPrivacy}
    (hpass : r.enforceCeilings ⟨step, []⟩ = .ok ()) :
    mergeProposal l r req amount step privacy = (do
      ensure (Payment.new req.toAddress amount req.memo).isSome invalidPayment
      l.singleStep step
      enforceSendPrivacy privacy ⟨step, []⟩) := by
  rw [mergeProposal]
  simp only [hpass]
  congr! 4
  exact bind_pure_unit

theorem checks_eq_error {x : Except RpcError Unit} {a : MergePlan}
    (h : (x >>= fun _ => .ok a) = .error e) : x = .error e := by
  rcases bind_eq_error.mp h with h | ⟨_, _, h⟩
  · exact h
  · cases h

theorem proposeMergeBounded_refused (hb : BuilderCounts l r) (hne : notes ≠ [])
    (hall : mergesAll r req destAddr notes = false)
    (hdest : mergeDestinationPool destAddr l.ironwoodActive = .ok destPool)
    (hfix : fixMerge l r req destAddr destPool (.notes notes) = .ok step)
    (hpass : r.enforceCeilings ⟨step, []⟩ = .ok ())
    (h : proposeMergeBounded l r req destAddr notes (notesLimit req)
      (notes.countP fun n => n.pool == .sapling)
      (notes.countP fun n => isOrchardFamily (.shielded n.pool)) = .error e) :
    Hindrance cfg l db req destAddr destPool (.notes notes) e := by
  simp only [fixMerge, hall, Bool.false_eq_true, if_false, bind_eq_ok, ensure_eq_ok,
    pure_eq_ok] at hfix
  obtain ⟨_, hcap, s, hs, rfl⟩ := hfix
  obtain ⟨hspends, hcounts⟩ := fitMergeSelection_counts hs
  obtain ⟨hselected, hsub⟩ : s.notes ≠ [] ∧ s.notes.Subperm notes := by
    have hone := le_familyCap_iff.mp (Nat.one_le_iff_ne_zero.mpr (bne_iff_ne.mp hcap))
    rcases boundedMerge_cases destPool hb hne hone with
      ⟨k, s', hk, hkn, -, hs', hnotes, -⟩ | ⟨e, he, -⟩
    · obtain rfl := Except.ok.inj (hs.symm.trans hs')
      constructor
      · rw [← List.length_pos_iff, hnotes, List.length_take]
        exact lt_min hk (hk.trans_le hkn)
      · rw [hnotes]
        refine (List.take_sublist _ _).subperm.trans ?_
        exact (List.mergeSort_perm _ _).subperm.trans List.filter_sublist.subperm
    · cases hs.symm.trans he
  refine .notes hselected hsub (checks_eq_error (a := mergeNotesPlan
    ⟨mergeStep destPool s.notes, []⟩ s.notes.length (noteValue s.notes) notes.length
    (noteValue notes)) ?_)
  rw [← h]
  change _ = (ensure (familyCap r req destAddr notes != 0) _ >>= fun _ => _)
  rw [(ensure_eq_ok (x := ())).mpr hcap, ok_bind, hdest, ok_bind]
  change _ = (fitMergeSelection l r destPool
    ((mergeFamily notes).take (familyCap r req destAddr notes)) >>= fun _ => _)
  have hsome : (!s.notes.isEmpty) = true := by simpa using hselected
  rw [hs, ok_bind, notesOffer, hcounts, ok_bind, hspends]
  simp only [bind_assoc, hsome]
  refine bind_congr fun fee => bind_congr fun amount => ?_
  change _ = (mergeProposal l r req amount (mergeStep destPool s.notes) req.privacy >>= fun _ => _)
  rw [mergeProposal_eq hpass]
  simp only [bind_assoc]
  rfl

theorem proposeMergeShielded_refused {pools : List ShieldedPool} (hb : BuilderCounts l r)
    (hne : notes ≠ [])
    (hdest : mergeDestinationPool destAddr l.ironwoodActive = .ok destPool)
    (hnotes : l.selectSpendableNotes db pools cfg.confirmationsPolicy = .ok notes)
    (hmax : ∀ p, l.proposeSendMaxTransfer db pools req.toAddress req.memo
      cfg.confirmationsPolicy = .ok p → p = ⟨mergeStep destPool notes, []⟩)
    (hfix : fixMerge l r req destAddr destPool (.notes notes) = .ok step)
    (hpass : r.enforceCeilings ⟨step, []⟩ = .ok ())
    (h : proposeMergeShielded cfg l r db req destAddr pools = .error e) :
    Hindrance cfg l db req destAddr destPool (.notes notes) e := by
  rw [proposeMergeShielded_eq hnotes] at h
  rcases bind_eq_error.mp h with h | ⟨_, -, h⟩
  · exact absurd (ensure_eq_error.mp h).1 (by simpa using hne)
  · cases hall : mergesAll r req destAddr notes with
    | true =>
      simp only [hall, if_true] at h
      have hstep : mergeStep destPool notes = step := by
        simpa only [fixMerge, hall, if_true, pure_eq_ok] using hfix
      rcases bind_eq_error.mp h with h | ⟨p, hp, h⟩
      · exact .sendMax h
      · obtain rfl := hmax p hp
        rcases bind_eq_error.mp h with h | ⟨_, -, h⟩
        · exact .privacy h
        · rw [hstep, hpass] at h
          cases h
    | false =>
      simp only [hall, Bool.false_eq_true, if_false] at h
      exact proposeMergeBounded_refused hb hne hall hdest hfix hpass h

theorem proposeMergeTransparent_refused {addrs : Option (List TransparentAddress)}
    {receivers fromAddrs : List TransparentAddress} {outs : List (List WalletTransparentOutput)}
    (hne : outs.flatten ≠ [])
    (hdest : mergeDestinationPool destAddr l.ironwoodActive = .ok destPool)
    (hreceivers : l.transparentReceivers = .ok receivers)
    (hfrom : mergeAddresses receivers addrs = .ok fromAddrs)
    (houts : fromAddrs.mapM (fun addr => l.spendableTransparentOutputs db addr
      cfg.confirmationsPolicy) = .ok outs)
    (hfix : fixMerge l r req destAddr destPool (.utxos outs.flatten) = .ok step)
    (hpass : r.enforceCeilings ⟨step, []⟩ = .ok ())
    (h : proposeMergeTransparent cfg l r db req destAddr addrs = .error e) :
    Hindrance cfg l db req destAddr destPool (.utxos outs.flatten) e := by
  simp only [fixMerge, bind_eq_ok, ensure_eq_ok, pure_eq_ok] at hfix
  obtain ⟨_, hsome, rfl⟩ := hfix
  have hselected : selectMergeUtxos r req (destinationOf destAddr) outs.flatten ≠ [] := by
    simpa using hsome
  have hsub : (selectMergeUtxos r req (destinationOf destAddr) outs.flatten).Subperm
      outs.flatten :=
    (List.take_sublist _ _).subperm.trans (List.mergeSort_perm _ _).subperm
  rw [proposeMergeTransparent, hreceivers, ok_bind, hfrom, ok_bind, houts, ok_bind] at h
  rcases bind_eq_error.mp h with h | ⟨_, -, h⟩
  · exact absurd (ensure_eq_error.mp h).1 (by simpa using hne)
  rcases bind_eq_error.mp h with h | ⟨_, -, h⟩
  · exact absurd (ensure_eq_error.mp h).1 (by simpa using hsome)
  rcases bind_eq_error.mp h with h | ⟨_, -, h⟩
  · obtain ⟨hprivacy, rfl⟩ := ensure_eq_error.mp h
    simp only [Bool.or_eq_false_iff, Option.isNone_eq_false_iff, beq_eq_false_iff_ne] at hprivacy
    exact .fullyTransparent hprivacy.1 hprivacy.2
  refine .outputs hselected hsub ?_
  generalize selectMergeUtxos r req (destinationOf destAddr) outs.flatten = selected at h hpass ⊢
  unfold outputsOffer
  cases ht : destinationOf destAddr with
  | some t =>
    simp only [ht] at h
    rcases bind_eq_error.mp h with h | ⟨_, -, h⟩
    · exact bind_eq_error.mpr (.inl h)
    · cases h
  | none =>
    rw [mergeDestinationPool, ht] at hdest
    change mergeShieldedDestinationPool destAddr l.ironwoodActive = _ at hdest
    simp only [ht] at h
    rw [hdest, ok_bind] at h
    refine checks_eq_error (a := mergeTransparentPlan
      (.utxoProposal ⟨⟨selected, [], [destPool], []⟩, []⟩) selected outs.flatten) ?_
    rw [← h]
    simp only [bind_assoc]
    refine bind_congr fun counts => bind_congr fun fee => bind_congr fun amount => ?_
    change _ = (mergeProposal l r req amount (sweepStep destPool selected)
      .allowFullyTransparent >>= fun _ => _)
    rw [mergeProposal_eq hpass]
    simp only [bind_assoc]
    rfl

/-- Where what it fixes passes the ceilings, a merge is refused only for another reason. -/
theorem proposeMerge_refused (hb : BuilderCounts l r) (hof : req.Of cfg l db destAddr destPool m)
    (hsome : SomePasses r destPool m) (hfix : fixMerge l r req destAddr destPool m = .ok step)
    (hpass : r.enforceCeilings ⟨step, []⟩ = .ok ())
    (h : proposeMergeToAddress cfg l r db req = .error e) :
    Hindrance cfg l db req destAddr destPool m e := by
  obtain ⟨haddress, hdest, hsource⟩ := hof
  simp only [proposeMergeToAddress, haddress] at h
  generalize req.source = source at hsource h
  rcases bind_eq_error.mp h with h | ⟨_, -, h⟩
  · exact .locked h
  rcases bind_eq_error.mp h with h | ⟨_, -, h⟩
  · obtain ⟨hprivacy, rfl⟩ := ensure_eq_error.mp h
    cases hsource with
    | shielded => cases hprivacy
    | transparent => exact .sender hprivacy
  rcases bind_eq_error.mp h with h | ⟨_, -, h⟩
  · exact .sync h
  rcases bind_eq_error.mp h with h | ⟨_, -, h⟩
  · exact .account h
  rcases bind_eq_error.mp h with h | ⟨_, -, h⟩
  · exact .target h
  cases hsource with
  | shielded hnotes hmax =>
    exact proposeMergeShielded_refused hb hsome.notes_ne_nil hdest hnotes hmax hfix hpass h
  | transparent hreceivers hfrom houts =>
    refine proposeMergeTransparent_refused ?_ hdest hreceivers hfrom houts hfix hpass h
    obtain ⟨_, hselects, -⟩ := hsome
    cases hselects with
    | utxos hne hsub => exact fun hnil => hne (List.subperm_nil.mp (hnil ▸ hsub))

end Refused

/-- A merge that is planned within the ceilings does not wedge. -/
theorem MergePasses.not_wedges (h : MergePasses cfg l r db req) (hb : BuilderCounts l r)
    (hof : req.Of cfg l db destAddr destPool m) (hsome : SomePasses r destPool m) :
    ¬ Wedges l r req destAddr destPool m := by
  obtain ⟨plan, step, hpropose, hplanned, hpass⟩ := h
  obtain ⟨step', hfix, hplanned'⟩ := proposeMerge_fixes hof hpropose
  obtain rfl := Option.some.inj (hplanned.symm.trans hplanned')
  exact (fixes_iff hb hsome).mp ⟨step, hfix, hpass⟩

/-- One that does not wedge is planned within the ceilings, unless something else hinders it. -/
theorem mergePasses_or_hindered (hb : BuilderCounts l r)
    (hof : req.Of cfg l db destAddr destPool m) (hsome : SomePasses r destPool m)
    (hno : ¬ Wedges l r req destAddr destPool m) :
    MergePasses cfg l r db req ∨ ∃ e, proposeMergeToAddress cfg l r db req = .error e ∧
      Hindrance cfg l db req destAddr destPool m e := by
  obtain ⟨step, hfix, hpass⟩ := (fixes_iff hb hsome).mpr hno
  cases hpropose : proposeMergeToAddress cfg l r db req with
  | error e => exact .inr ⟨e, rfl, proposeMerge_refused hb hof hsome hfix hpass hpropose⟩
  | ok plan =>
    obtain ⟨step', hfix', hplanned⟩ := proposeMerge_fixes hof hpropose
    obtain rfl := Except.ok.inj (hfix.symm.trans hfix')
    exact .inl ⟨plan, step, hpropose, hplanned, hpass⟩

/-- Where some selection passes, a merge that does not wedge is planned within the ceilings or
refused for a reason other than size; and where there is no such reason, a merge never wedges
exactly if none of its bounds is wrong about what is built. -/
theorem neverWedges_iff (cfg : SendConfig) (l : PlanLayer) (r : Reading) (hb : BuilderCounts l r)
    (db : List StoredTx) (req : MergeRequest) (destAddr : Address) (destPool : PoolType)
    (m : Mergeable) (hof : req.Of cfg l db destAddr destPool m) :
    (SomePasses r destPool m → ¬ Wedges l r req destAddr destPool m →
      MergePasses cfg l r db req ∨ ∃ e, proposeMergeToAddress cfg l r db req = .error e ∧
        Hindrance cfg l db req destAddr destPool m e) ∧
    ((∀ e, ¬ Hindrance cfg l db req destAddr destPool m e) →
      (NeverWedges cfg l r db req destPool m ↔
        (SomePasses r destPool m → ¬ Wedges l r req destAddr destPool m))) := by
  refine ⟨mergePasses_or_hindered hb hof, fun hfree =>
    ⟨fun hnever hsome => ?_, fun hno hsome => ?_⟩⟩
  · exact (hnever hsome).not_wedges hb hof hsome
  · rcases mergePasses_or_hindered hb hof hsome (hno hsome) with hpasses | ⟨e, -, he⟩
    · exact hpasses
    · exact absurd he (hfree e)

/-! ## Legacy notes into Ironwood -/

/-- A planning layer after NU6.3 over these notes, with the builder's counts. -/
def afterNu63 (notes : List SpendableNote) : PlanLayer :=
  { referenceWallet .main .orchard ⟨[], [], true, ⟨true, some ⟨0, ""⟩⟩⟩ with
    coinbaseOutputs := fun _ _ => .ok []
    proposeShieldingCoinbase := fun _ _ _ _ _ => .error (.misc "no coinbase")
    ironwoodActive := true
    selectSpendableNotes := fun _ _ _ => .ok notes
    proposeSendMaxTransfer := fun _ _ _ _ _ => .ok ⟨mergeStep (.shielded .ironwood) notes, []⟩
    numOutputs := fun spends outputs =>
      .ok (if spends + outputs = 0 then 0 else max outputs saplingMinOutputs)
    numActions := fun pool spends outputs =>
      .ok (bundleActions (sharesActions true pool) spends outputs)
    feeRequired := fun _ _ _ _ _ _ => .ok 10000
    singleStep := fun _ => .ok () }

def shippedReading : Reading where
  limits := ⟨50, 250000⟩
  counts pool step := some (bundleActions (sharesActions true pool)
    (step.inputCountInPool (.shielded pool))
    (step.outputCountInPool (.shielded pool) + step.changeCountInPool (.shielded pool)))
  zip218BudgetApplies := false

theorem afterNu63_counts (notes : List SpendableNote) :
    BuilderCounts (afterNu63 notes) shippedReading :=
  ⟨fun _ _ => rfl, fun _ _ _ => rfl, fun _ _ => rfl⟩

def mergeConfig : SendConfig where
  network := .main
  enabledPools := [.orchard]
  orchardKeys := true
  pipelineProving := true
  confirmationsPolicy := ⟨3, 10⟩
  privacy := .allowRevealedAmounts
  allowDuplicateShieldedRecipients := false

def orchardAddress : Address := .unified ⟨true, false, false, 0⟩

def mergeOrchard : MergeRequest :=
  ⟨.shielded [.orchard, .ironwood], ⟨.main, orchardAddress⟩, none, some 50, some 200,
    .allowRevealedAmounts⟩

def legacyNotes (n : ℕ) : List SpendableNote :=
  (List.range n).map fun i => ⟨⟨i, .orchard⟩, 100000⟩

theorem mergeOrchard_of (notes : List SpendableNote) :
    mergeOrchard.Of mergeConfig (afterNu63 notes) [] orchardAddress (.shielded .ironwood)
      (.notes notes) :=
  ⟨rfl, rfl, .shielded rfl fun _ hp => (Except.ok.inj hp).symm⟩

theorem mergeOrchard_unhindered {notes : List SpendableNote} (hvalue : ∀ n ∈ notes, 10000 < n.value)
    (e : RpcError) : ¬ Hindrance mergeConfig (afterNu63 notes) [] mergeOrchard orchardAddress
      (.shielded .ironwood) (.notes notes) e := by
  intro h
  cases h with
  | locked h | sync h | account h | target h | sendMax h | privacy h => cases h
  | @notes _ selected _ hne hsub h =>
    obtain ⟨n, hn⟩ := List.exists_mem_of_ne_nil _ hne
    have hsum : n.value ≤ noteValue selected := List.le_sum_of_mem (List.mem_map_of_mem hn)
    have hpays : mergePayment (noteValue selected) 10000 = .ok (noteValue selected - 10000) :=
      if_pos ((hvalue n (hsub.subset hn)).trans_le hsum)
    change (mergePayment (noteValue selected) 10000 >>= fun _ => _) = _ at h
    rw [hpays, ok_bind] at h
    cases h

theorem mergesAll_legacyNotes {n : ℕ} (hn : 0 < n) (hle : n ≤ 50) :
    mergesAll shippedReading mergeOrchard orchardAddress (legacyNotes n) = true := by
  have hsapling : ((legacyNotes n).countP fun m => m.pool == .sapling) = 0 := by
    refine List.countP_eq_zero.mpr fun m hm => ?_
    obtain ⟨i, -, rfl⟩ := List.mem_map.mp hm
    simp
  have horchard : ((legacyNotes n).countP fun m => isOrchardFamily (.shielded m.pool)) = n := by
    have hall : ∀ m ∈ legacyNotes n, isOrchardFamily (.shielded m.pool) = true := by
      intro m hm
      obtain ⟨i, -, rfl⟩ := List.mem_map.mp hm
      rfl
    rw [List.countP_eq_length.mpr hall, legacyNotes, List.length_map, List.length_range]
  have hbytes : n ≤ maxOrchardFamilyActionsAlongside 250000
      (mergeNotesShape (destinationOf orchardAddress)) := by
    refine hle.trans ?_
    exact (le_maxOrchardFamilyActionsAlongside_iff (by decide) (by decide)).mpr (by decide)
  simp only [mergesAll, hsapling, horchard, mergeAllFits, shippedReading, Bool.and_eq_true,
    Bool.or_eq_true, decide_eq_true_eq, beq_iff_eq]
  refine ⟨⟨⟨?_, .inr hle⟩, hbytes, Nat.zero_le _⟩, .inl rfl⟩
  simp only [notesLimit, mergeOrchard, Option.getD_some]
  omega

theorem legacyNotes_value {n : ℕ} : ∀ m ∈ legacyNotes n, 10000 < m.value := by
  intro m hm
  obtain ⟨i, -, rfl⟩ := List.mem_map.mp hm
  exact (by decide : 10000 < 100000)

/-- Fifty legacy notes are within the action limit, and are built with two actions more for the
Ironwood output. -/
theorem fiftyLegacyNotes_wedge :
    BuilderCounts (afterNu63 (legacyNotes 50)) shippedReading ∧
    mergeOrchard.Of mergeConfig (afterNu63 (legacyNotes 50)) [] orchardAddress
      (.shielded .ironwood) (.notes (legacyNotes 50)) ∧
    (∀ e, ¬ Hindrance mergeConfig (afterNu63 (legacyNotes 50)) [] mergeOrchard orchardAddress
      (.shielded .ironwood) (.notes (legacyNotes 50)) e) ∧
    ¬ NeverWedges mergeConfig (afterNu63 (legacyNotes 50)) shippedReading [] mergeOrchard
      (.shielded .ironwood) (.notes (legacyNotes 50)) := by
  refine ⟨afterNu63_counts _, mergeOrchard_of _, mergeOrchard_unhindered legacyNotes_value, ?_⟩
  intro hnever
  have hsome : SomePasses shippedReading (.shielded .ironwood) (.notes (legacyNotes 50)) := by
    refine ⟨_, .notes true (List.cons_ne_nil ⟨⟨0, .orchard⟩, 100000⟩ [])
      (List.singleton_subperm_iff.mpr (by decide)) (by decide), ?_⟩
    exact (enforce_mergeStep (afterNu63_counts [])).mpr
      ⟨⟨fun _ => by decide, nofun⟩, fun _ => by decide⟩
  refine (hnever hsome).not_wedges (afterNu63_counts _) (mergeOrchard_of _) hsome ?_
  exact .padding (mergesAll_legacyNotes (by decide) le_rfl) (by decide) (by decide)

theorem fewerLegacyNotes_merge :
    (∀ e, ¬ Hindrance mergeConfig (afterNu63 (legacyNotes 48)) [] mergeOrchard orchardAddress
      (.shielded .ironwood) (.notes (legacyNotes 48)) e) ∧
    NeverWedges mergeConfig (afterNu63 (legacyNotes 48)) shippedReading [] mergeOrchard
      (.shielded .ironwood) (.notes (legacyNotes 48)) := by
  have hfree := mergeOrchard_unhindered (legacyNotes_value (n := 48))
  refine ⟨hfree, ((neverWedges_iff mergeConfig (afterNu63 (legacyNotes 48)) shippedReading
    (afterNu63_counts _) [] mergeOrchard orchardAddress (.shielded .ironwood)
    (.notes (legacyNotes 48)) (mergeOrchard_of _)).2 hfree).mpr fun _ => ?_⟩
  exact (within_iff_of_mergesAll (mergesAll_legacyNotes (by decide) (by decide))).mp
    ⟨⟨fun _ => by decide, nofun⟩, fun _ => by decide⟩

end Zecd
