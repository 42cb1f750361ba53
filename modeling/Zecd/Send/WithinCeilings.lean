import Zecd.Send.CeilingRuns
import Zecd.Send.DoubleSpend

/-! # Within the ceilings

Each attempt reads its ceilings at most once, and what was built within them is stored within
them, whatever is read later and however the attempts interleave.
-/

namespace Zecd

open Fallible Runs

/-- The attempts that read their ceilings, and those that wait to. -/
def CeilingState.keys (s : CeilingState) : List ℕ :=
  s.readFor.map Prod.fst ++ s.send.sendQueue.map (·.reply)

def CeilingState.AllowedFor (s : CeilingState) (reply : ℕ) (step : Step ℕ) : Prop :=
  ∃ r, (reply, r) ∈ s.readFor ∧ r.Allows (stepShape r.counts step)

/-- Each attempt reads its ceilings at most once, and what was built is within what was read. -/
structure CeilingInv (s : CeilingState) : Prop where
  once : s.keys.Nodup
  issued : ∀ k ∈ s.keys, k < s.send.attempts.length
  plans : ∀ x ∈ s.plans, PlanAllowed x.2 x.1
  proofs : ∀ job ∈ s.send.proofs, s.AllowedFor job.send.reply job.step
  stored : ∀ t ∈ s.send.stored, s.AllowedFor t.reply t.step

section Invariant

variable {cfg : SendConfig} {w : WalletLayer} {r : Reading} {s : CeilingState} {k : ℕ}
  {cmd : Command}

theorem ceilingInv_init : CeilingInv .init := by
  constructor <;> simp [CeilingState.init, CeilingState.keys, SendState.init]

theorem CeilingInv.respects (h : CeilingInv s) {b : Builder} (hb : b.Estimated) :
    RespectsCeilings b s := by
  intro t ht
  obtain ⟨r, hr, hallows⟩ := h.stored t ht
  refine ⟨⟨r, hr⟩, fun r' hr' => ?_⟩
  obtain rfl : r' = r :=
    congrArg Prod.snd (List.inj_on_of_nodup_map (List.Nodup.of_append_left h.once) hr' hr rfl)
  exact ⟨fun hmax => (hb.bytes r' t).trans (hallows.bytes hmax),
    fun hlimit => (hb.actions r' t).trans (hallows.actions hlimit)⟩

theorem CeilingInv.fresh (h : CeilingInv s) : s.send.attempts.length ∉ s.keys :=
  fun hmem => lt_irrefl _ (h.issued _ hmem)

theorem CeilingInv.issue (h : CeilingInv s) (payment : ℕ) (cmd : Command) :
    CeilingInv { s with send := s.send.issue payment cmd } where
  once := h.once
  issued k hk := by
    have hlt := h.issued k hk
    simp only [SendState.issue, List.length_append, List.length_singleton]
    omega
  plans := h.plans
  proofs := h.proofs
  stored := h.stored

theorem CeilingInv.read (h : CeilingInv s) (hk : k ∉ s.keys) (hlt : k < s.send.attempts.length)
    (r : Reading) : CeilingInv { s with readFor := s.readFor ++ [(k, r)] } := by
  have hperm : (CeilingState.keys { s with readFor := s.readFor ++ [(k, r)] }).Perm
      (k :: s.keys) := by
    simp only [CeilingState.keys, List.map_append, List.append_assoc]
    exact List.perm_middle
  have hmono : ∀ {reply step}, s.AllowedFor reply step →
      CeilingState.AllowedFor { s with readFor := s.readFor ++ [(k, r)] } reply step :=
    fun ⟨r', hr', hallows⟩ => ⟨r', List.mem_append_left _ hr', hallows⟩
  refine ⟨hperm.nodup_iff.mpr (List.nodup_cons.mpr ⟨hk, h.once⟩), fun i hi => ?_, h.plans,
    fun job hjob => hmono (h.proofs job hjob), fun t ht => hmono (h.stored t ht)⟩
  rcases List.mem_cons.mp (hperm.mem_iff.mp hi) with rfl | hi
  · exact hlt
  · exact h.issued i hi

theorem CeilingInv.queue (h : CeilingInv s) (a : SendArgs) (hk : k ∉ s.keys)
    (hlt : k < s.send.attempts.length) :
    CeilingInv { s with send := { s.send with sendQueue := s.send.sendQueue ++ [⟨a, k⟩] } } := by
  have hperm : (CeilingState.keys
      { s with send := { s.send with sendQueue := s.send.sendQueue ++ [⟨a, k⟩] } }).Perm
      (k :: s.keys) := by
    simp only [CeilingState.keys, List.map_append, ← List.append_assoc]
    exact List.perm_append_singleton _ _
  refine ⟨hperm.nodup_iff.mpr (List.nodup_cons.mpr ⟨hk, h.once⟩), fun i hi => ?_, h.plans,
    h.proofs, h.stored⟩
  rcases List.mem_cons.mp (hperm.mem_iff.mp hi) with rfl | hi
  · exact hlt
  · exact h.issued i hi

theorem CeilingInv.pop (h : CeilingInv s) {p : PendingSend} {ps : List PendingSend}
    (hq : s.send.sendQueue = p :: ps) (r : Reading) :
    CeilingInv { s with
      send := { s.send with sendQueue := ps }
      readFor := s.readFor ++ [(p.reply, r)] } := by
  have hkeys : CeilingState.keys { s with
      send := { s.send with sendQueue := ps }
      readFor := s.readFor ++ [(p.reply, r)] } = s.keys := by
    simp [CeilingState.keys, hq]
  have hmono : ∀ {reply step}, s.AllowedFor reply step →
      CeilingState.AllowedFor { s with
        send := { s.send with sendQueue := ps }
        readFor := s.readFor ++ [(p.reply, r)] } reply step :=
    fun ⟨r', hr', hallows⟩ => ⟨r', List.mem_append_left _ hr', hallows⟩
  exact ⟨hkeys ▸ h.once, hkeys ▸ h.issued, h.plans, fun job hjob => hmono (h.proofs job hjob),
    fun t ht => hmono (h.stored t ht)⟩

theorem CeilingInv.advance (h : CeilingInv s) {send : SendState}
    (hq : send.sendQueue = s.send.sendQueue) (ha : send.attempts = s.send.attempts)
    (hproofs : ∀ job ∈ send.proofs, job ∈ s.send.proofs ∨ s.AllowedFor job.send.reply job.step)
    (hstored : ∀ t ∈ send.stored, t ∈ s.send.stored ∨ s.AllowedFor t.reply t.step) :
    CeilingInv { s with send := send } where
  once := by simpa only [CeilingState.keys, hq] using h.once
  issued := by simpa only [CeilingState.keys, hq, ha] using h.issued
  plans := h.plans
  proofs job hjob := (hproofs job hjob).elim (h.proofs job) id
  stored t ht := (hstored t ht).elim (h.stored t) id

theorem CeilingInv.commit (h : CeilingInv s) {route : Route} {reply : ℕ} {step : Step ℕ}
    (hallowed : s.AllowedFor reply step) :
    CeilingInv { s with send :=
      (commit w route s.send reply step).1.reply reply (commit w route s.send reply step).2 } := by
  rcases commit_cases w route s.send reply step with ⟨e, heq⟩ | ⟨txid, expiry, acc, res, _, heq, _⟩
  · rw [heq]
    exact h.advance rfl rfl (fun _ => .inl) fun _ => .inl
  · rw [heq]
    refine h.advance rfl rfl (fun _ => .inl) fun t ht => ?_
    rcases List.mem_append.mp ht with ht | ht
    · exact .inl ht
    · obtain rfl := List.mem_singleton.mp ht
      exact .inr hallowed

theorem CeilingInv.handled (h : CeilingInv s) {send : SendState}
    (hh : Handled cfg w s.send k cmd send)
    (hqueue : ∀ a, Pipelined cfg cmd a → s.send.sendInFlight = false)
    (hstart : ∀ a step, Pipelined cfg cmd a → preparePipelined cfg w s.send.stored a = .ok step →
      s.AllowedFor k step)
    (hcommit : ∀ route step, Prepared cfg w s.send.stored cmd route step → s.AllowedFor k step) :
    CeilingInv { s with send := send } := by
  cases hh with
  | refused e => exact h.advance rfl rfl (fun _ => .inl) fun _ => .inl
  | queued hp hf _ => exact absurd (hqueue _ hp) (by simp [hf])
  | @started a step hp hf hstep =>
    refine h.advance rfl rfl (fun job hjob => ?_) fun _ => .inl
    rcases List.mem_append.mp hjob with hjob | hjob
    · exact .inl hjob
    · obtain rfl := List.mem_singleton.mp hjob
      exact .inr (hstart a step hp hstep)
  | committed hprep => exact h.commit (hcommit _ _ hprep)

theorem CeilingInv.executePlan (h : CeilingInv s) (w : WalletLayer) (payment i : ℕ) :
    CeilingInv ((CeilingEvent.executePlan w payment i).step cfg s) := by
  simp only [CeilingEvent.step]
  split
  · exact h
  · next cmd r hplan =>
    obtain ⟨step, hstep, hallows⟩ := h.plans _ (List.mem_of_getElem? hplan)
    have herase : CeilingInv { s with plans := s.plans.eraseIdx i } :=
      ⟨h.once, h.issued, fun x hx => h.plans x (List.mem_of_mem_eraseIdx hx), h.proofs, h.stored⟩
    have hread := (herase.issue payment cmd).read (k := s.send.attempts.length) h.fresh
      (by simp [SendState.issue]) r
    have hcmd : ∀ entry, cmd ≠ .send entry := by
      rintro entry rfl
      cases hstep
    have hallowed : CeilingState.AllowedFor { s with
        send := s.send.issue payment cmd
        plans := s.plans.eraseIdx i
        readFor := s.readFor ++ [(s.send.attempts.length, r)] } s.send.attempts.length step :=
      ⟨r, by simp, hallows⟩
    refine hread.handled (handleCommand_handled cfg w _ _ cmd) ?_ ?_ ?_
    · rintro a ⟨⟨entry, rfl, _⟩, _⟩
      exact absurd rfl (hcmd entry)
    · rintro a _ ⟨⟨entry, rfl, _⟩, _⟩
      exact absurd rfl (hcmd entry)
    · intro route step' hprep
      obtain rfl := Option.some.inj (hstep.symm.trans (hprep.plannedStep hcmd))
      exact hallowed

theorem CeilingInv.send (h : CeilingInv s) {payment : ℕ} {entry : Entry}
    (hfit : (CeilingEvent.send w r payment entry).Fits cfg s) :
    CeilingInv ((CeilingEvent.send w r payment entry).step cfg s) := by
  have hissue := h.issue payment (.send entry)
  have hlt : s.send.attempts.length < (s.send.issue payment (.send entry)).attempts.length := by
    simp [SendState.issue]
  have hh := handleCommand_handled cfg (w.under r) (s.send.issue payment (.send entry))
    s.send.attempts.length (.send entry)
  simp only [CeilingEvent.step, Event.step]
  cases hw : entry.waits cfg s.send with
  | true =>
    have hwaits : ∀ a, entry.args cfg = .ok a →
        runsInline cfg a = false ∧ s.send.sendInFlight = true := by
      intro a ha
      simpa [Entry.waits, ha] using hw
    simp only [if_true, List.append_nil]
    generalize handleCommand cfg _ _ _ _ = send at hh ⊢
    cases hh with
    | refused e => exact hissue.advance rfl rfl (fun _ => .inl) fun _ => .inl
    | @queued a _ _ _ => exact hissue.queue a h.fresh hlt
    | started hp hf _ =>
      obtain ⟨⟨_, hcmd, ha⟩, _⟩ := hp
      obtain rfl := Command.send.inj hcmd
      exact absurd ((hwaits _ ha).2.symm.trans hf) (by simp)
    | committed hprep =>
      cases hprep with
      | send ha hin _ => exact absurd ((hwaits _ ha).1.symm.trans hin) (by simp)
  | false =>
    have hread := hissue.read (k := s.send.attempts.length) h.fresh hlt r
    refine hread.handled hh ?_ ?_ ?_
    · rintro a ⟨⟨_, hcmd, ha⟩, hin⟩
      obtain rfl := Command.send.inj hcmd
      have hf : s.send.sendInFlight = false := by simpa [Entry.waits, ha, hin] using hw
      exact hf
    · intro a step _ hstep
      exact ⟨r, by simp, preparePipelined_allows hstep⟩
    · intro route step hprep
      cases hprep with
      | send ha _ hstep =>
        exact ⟨r, by simp, prepareSend_allows hstep fun recipients => hfit _ recipients ha⟩

/-- The pump only starts sends, each within the ceilings it reads. -/
theorem CeilingInv.pump {q : List PendingSend} (pump : ℕ → WalletLayer × Reading)
    (h : CeilingInv s) (hq : s.send.sendQueue = q) :
    CeilingInv { s with
      send := pumpFrom cfg (pumpLayers pump) q s.send
      readFor := s.readFor ++ pumpReads cfg pump q s.send } := by
  induction q generalizing s pump with
  | nil => simpa [pumpFrom, pumpReads] using h
  | cons p ps ih =>
    simp only [pumpFrom, pumpReads]
    split
    · simpa using h
    · have hpop := h.pop hq (pump 0).2
      have hstart : CeilingInv { s with
          send := startPipelinedSend cfg (pumpLayers pump 0) { s.send with sendQueue := ps } p
          readFor := s.readFor ++ [(p.reply, (pump 0).2)] } := by
        rcases startPipelinedSend_cases cfg (pumpLayers pump 0) { s.send with sendQueue := ps } p
          with ⟨e, heq⟩ | ⟨step, hstep, heq⟩
        · rw [heq]
          exact hpop.advance rfl rfl (fun _ => .inl) fun _ => .inl
        · rw [heq]
          refine hpop.advance rfl rfl (fun job hjob => ?_) fun _ => .inl
          rcases List.mem_append.mp hjob with hjob | hjob
          · exact .inl hjob
          · obtain rfl := List.mem_singleton.mp hjob
            exact .inr ⟨(pump 0).2, by simp, preparePipelined_allows hstep⟩
      have hrest := ih (fun i => pump (i + 1)) hstart (by simp)
      rw [List.append_assoc] at hrest
      exact hrest

theorem CeilingInv.sendDone (h : CeilingInv s) (w : WalletLayer)
    (pump : ℕ → WalletLayer × Reading) (i : ℕ) :
    CeilingInv ((CeilingEvent.sendDone w pump i).step cfg s) := by
  simp only [CeilingEvent.step, Event.step]
  cases hjob : s.send.proofs[i]? with
  | none => simpa using h
  | some job =>
    have hallowed := h.proofs job (List.mem_of_getElem? hjob)
    have herase : CeilingInv { s with send :=
        { s.send with proofs := s.send.proofs.eraseIdx i, sendInFlight := false } } :=
      h.advance rfl rfl (fun job hjob => .inl (List.mem_of_mem_eraseIdx hjob)) fun _ => .inl
    have hdone : CeilingInv { s with
        send := finishSend w { s.send with proofs := s.send.proofs.eraseIdx i } job } := by
      rcases finishSend_cases w { s.send with proofs := s.send.proofs.eraseIdx i } job with
        ⟨e, heq⟩ | heq
      · rw [heq]
        exact herase.advance rfl rfl (fun _ => .inl) fun _ => .inl
      · rw [heq]
        exact herase.commit hallowed
    exact hdone.pump pump rfl

theorem CeilingInv.step (h : CeilingInv s) {e : CeilingEvent} (hfit : e.Fits cfg s) :
    CeilingInv (e.step cfg s) := by
  have hplan : ∀ {cmd r}, PlanAllowed r cmd →
      CeilingInv { s with plans := s.plans ++ [(cmd, r)] } :=
    fun {cmd r} hallowed => ⟨h.once, h.issued, fun x hx => (List.mem_append.mp hx).elim (h.plans x)
      fun hx => List.mem_singleton.mp hx ▸ hallowed, h.proofs, h.stored⟩
  cases e with
  | proposeShieldCoinbase l r req =>
    simp only [CeilingEvent.step]
    split
    · next plan heq => exact hplan (proposeShieldCoinbase_allowed heq hfit)
    · exact h
  | proposeMerge l r req =>
    simp only [CeilingEvent.step]
    split
    · next plan heq => exact hplan (proposeMergeToAddress_allowed heq)
    · exact h
  | executePlan w payment i => exact h.executePlan w payment i
  | send w r payment entry => exact h.send hfit
  | sendDone w pump i => exact h.sendDone w pump i
  | maybeRebroadcast w tip mined =>
    simp only [CeilingEvent.step, Event.step]
    split
    · obtain ⟨acc, heq, _⟩ := rebroadcast_cases w (unminedRawTxs s.send.stored tip mined) s.send
      rw [heq]
      exact h.advance rfl rfl (fun _ => .inl) fun _ => .inl
    · exact h

end Invariant

/-- In every run in which fully transparent sends need no more outputs than the size ceiling
leaves room for, and shielded coinbase no more actions than the action limit, every stored
transaction is within the ceilings read for it. -/
theorem ceilings_of_fits (cfg : SendConfig) (b : Builder) (hb : b.Estimated)
    (es : List CeilingEvent)
    (h : Along (CeilingEvent.step cfg) (fun s e => e.Fits cfg s) .init es) :
    RespectsCeilings b (run (CeilingEvent.step cfg) .init es) :=
  (invariant (I := CeilingInv) (fun _ _ hs he => hs.step he) ceilingInv_init h).respects hb

/-! ## A send of many small outputs -/

/-- A builder whose transactions are exactly as large as estimated. -/
def estimatedBuilder : Builder where
  bytes r t := estimateBytes (stepShape r.counts t.step)
  actions r t := (stepShape r.counts t.step).orchardFamilyActions

theorem estimatedBuilder_estimated : estimatedBuilder.Estimated :=
  ⟨fun _ _ => le_rfl, fun _ _ => le_rfl⟩

/-- Three outputs of ten thousand zatoshis, each at an address of its own. -/
def smallOutputs : List WalletTransparentOutput :=
  [⟨0, .publicKeyHash 0, 10000⟩, ⟨1, .publicKeyHash 1, 10000⟩, ⟨2, .publicKeyHash 2, 10000⟩]

def smallOutputsWallet : WalletLayer :=
  referenceWallet .main .orchard ⟨[], smallOutputs, true, ⟨true, some ⟨0, ""⟩⟩⟩

def readingOf (maxTxBytes : ℕ) : Reading := ⟨⟨50, maxTxBytes⟩, fun _ _ => none, false⟩

/-- A fully transparent payment that takes all three. -/
def smallPayment : SendArgs :=
  ⟨⟨[⟨⟨.main, .transparent (.publicKeyHash 9)⟩, some 12000, none⟩]⟩, none,
    .allowFullyTransparent, .unspecified⟩

def paySmallOutputs (maxTxBytes : ℕ) : List CeilingEvent :=
  [.send smallOutputsWallet (readingOf maxTxBytes) 0
    (.nodeSend smallPayment.request none (some .allowFullyTransparent) .unspecified)]

theorem transparentUtxos_smallOutputs (r : Reading) (a : SendArgs) (ha : a.fromAddress = none) :
    transparentUtxos pipelineConfig (smallOutputsWallet.under r) [] a = .ok smallOutputs := by
  have hsort : smallOutputs.mergeSort (fun u v => decide (v.value ≤ u.value)) = smallOutputs :=
    List.mergeSort_of_pairwise (by decide)
  simp only [transparentUtxos, bind_eq_ok, pure_eq_ok, ha, Option.all_none]
  exact ⟨_, rfl, _, rfl, hsort⟩

theorem transparentSelection_smallOutputs :
    transparentSelection smallOutputs [(.publicKeyHash 9, 12000)] =
      some (3, 3000, 15000, true) := by
  decide

theorem prepareSend_smallPayment (r : Reading) :
    prepareSend pipelineConfig (smallOutputsWallet.under r) [] smallPayment =
      .ok (.transparent, ⟨smallOutputs, [], [.transparent], [.transparent]⟩) := by
  simp only [prepareSend, bind_eq_ok]
  refine ⟨(), rfl, (), rfl, (), rfl, (), rfl, (), rfl, some [(.publicKeyHash 9, 12000)], rfl, ?_⟩
  simp only [bind_eq_ok]
  exact ⟨_, prepareTransparent_of_selection rfl rfl rfl (transparentUtxos_smallOutputs r _ rfl)
    transparentSelection_smallOutputs, rfl⟩

theorem paySmallOutputs_stored (maxTxBytes : ℕ) :
    (run (CeilingEvent.step pipelineConfig) .init (paySmallOutputs maxTxBytes)).send.stored =
      [⟨0, 0, .transparent, ⟨smallOutputs, [], [.transparent], [.transparent]⟩, 0⟩] := by
  have hargs : Entry.args pipelineConfig (.nodeSend smallPayment.request none
      (some .allowFullyTransparent) .unspecified) = .ok smallPayment := rfl
  have hinline : runsInline pipelineConfig smallPayment = true := rfl
  simp only [paySmallOutputs, run_cons, run_nil, CeilingEvent.step, Event.step, handleCommand,
    hargs, beginOrQueueSend, hinline, doSend, CeilingState.init, SendState.init, SendState.issue,
    prepareSend_smallPayment, if_true]
  rfl

/-- Under a ceiling of 500 bytes a transaction of 538 is stored. -/
theorem paySmallOutputs_over :
    estimatedBuilder.Estimated ∧
    ¬ RespectsCeilings estimatedBuilder
      (run (CeilingEvent.step pipelineConfig) .init (paySmallOutputs 500)) := by
  refine ⟨estimatedBuilder_estimated, fun h => ?_⟩
  have hbytes := ((h _ (paySmallOutputs_stored 500 ▸ List.mem_singleton.mpr rfl)).2
    (readingOf 500) (List.mem_singleton.mpr rfl)).bytes (by decide)
  revert hbytes
  decide

/-- A ceiling of 600 bytes leaves room for the three outputs. -/
theorem paySmallOutputs_within :
    RespectsCeilings estimatedBuilder
      (run (CeilingEvent.step pipelineConfig) .init (paySmallOutputs 600)) := by
  refine ceilings_of_fits pipelineConfig estimatedBuilder estimatedBuilder_estimated _ ⟨?_, trivial⟩
  intro a recipients ha hrec utxos n change fee hasChange hutxos hsel hmax
  cases ha
  cases hrec
  obtain rfl := Except.ok.inj (hutxos.symm.trans
    (transparentUtxos_smallOutputs (readingOf 600) _ rfl))
  obtain ⟨rfl, rfl, rfl, rfl⟩ : n = 3 ∧ change = 3000 ∧ fee = 15000 ∧ hasChange = true := by
    simpa using hsel.symm.trans transparentSelection_smallOutputs
  rw [le_maxTransparentInputs_iff hmax (by decide)]
  decide

end Zecd
