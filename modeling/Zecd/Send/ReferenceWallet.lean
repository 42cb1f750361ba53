import Zecd.Send.Actor

/-! # A reference wallet

A small wallet that satisfies everything the development assumes of the wallet layer:
it selects an unspent note or output its spend policy permits, pays every recipient in a
pool its address names, and refuses a proposal one of whose inputs was spent meanwhile: only
the transparent builds store whatever they are given. It shows that the assumptions can be met,
and runs the concrete histories.
-/

namespace Zecd

/-- The pool a payment to the address is made in, if the network has the address and a single
step can pay it. -/
def Payment.pool? (net : NetworkType) (p : Payment) : Option PoolType :=
  if p.amount.isNone then none
  else match p.recipientAddress.convertIfNetwork net with
    | none => none
    | some (.tex _) => none
    | some addr =>
      if addr.canReceiveAs (.shielded .orchard) then some (.shielded .orchard)
      else if addr.canReceiveAs (.shielded .sapling) then some (.shielded .sapling)
      else if addr.canReceiveAs .transparent then some .transparent
      else none

structure Holdings where
  notes : List (ReceivedNote ℕ)
  utxos : List WalletTransparentOutput
  /-- Whether a stored transaction can be read back. -/
  readable : Bool
  broadcast : BroadcastReply

def Holdings.unspentNotes (h : Holdings) (db : List StoredTx) (spend : SpendPolicy) :
    List (ReceivedNote ℕ) :=
  h.notes.filter fun n =>
    decide (n.pool ∈ spend.shielded) && decide (Input.note n.pool n.noteRef ∉ spentInputs db)

def Holdings.unspentUtxos (h : Holdings) (db : List StoredTx) : List WalletTransparentOutput :=
  h.utxos.filter fun u => decide (Input.utxo u.outpoint ∉ spentInputs db)

def referenceWallet (net : NetworkType) (changePool : ShieldedPool) (h : Holdings) :
    WalletLayer where
  syncToTipForSend := .ok ()
  requireAccount := .ok ()
  accountIndex := .ok ()
  deriveUsk := .ok ()
  requireProver := .ok ()
  orchardKeys := .ok ()
  proposeTransfer db request _ spend :=
    match request.payments.mapM (·.pool? net) with
    | none => .error (.wallet "unsupported recipient")
    | some pools =>
      if spend.transparent.isSome then
        .ok ⟨⟨(h.unspentUtxos db).take 1, [], pools, [.shielded changePool]⟩, []⟩
      else match h.unspentNotes db spend with
        | [] => .error (.insufficientFunds "Insufficient funds")
        | n :: _ => .ok ⟨⟨[], [n], pools, [.shielded changePool]⟩, []⟩
  enforceCeilings _ := .ok ()
  createPczt _ := .ok ()
  proveSign _ := .ok ()
  store route db step :=
    if route ∈ [Route.shieldCoinbase, .mergeProposal] ∧
        ∃ i ∈ step.inputs, i ∈ spentInputs db then
      .error (.insufficientFunds "Insufficient funds")
    else .ok (db.length, 0)
  readRawTx _ :=
    if h.readable then .ok () else .error (.wallet "created transaction not found in wallet")
  targetHeight := .ok 1
  transparentReceivers := .ok (h.utxos.map (·.recipientAddress))
  spendableTransparentOutputs db addr _ :=
    .ok ((h.unspentUtxos db).filter fun u => u.recipientAddress == addr)
  changeAddress := .ok (.publicKeyHash 0)
  connected := true
  broadcastTx _ := h.broadcast

variable {net : NetworkType} {changePool : ShieldedPool} {h : Holdings}

theorem Holdings.mem_unspentNotes {db : List StoredTx} {spend : SpendPolicy}
    {n : ReceivedNote ℕ} (hn : n ∈ h.unspentNotes db spend) :
    n.pool ∈ spend.shielded ∧ Input.note n.pool n.noteRef ∉ spentInputs db := by
  simpa using (List.mem_filter.mp hn).2

theorem Holdings.mem_unspentUtxos {db : List StoredTx} {u : WalletTransparentOutput}
    (hu : u ∈ h.unspentUtxos db) : Input.utxo u.outpoint ∉ spentInputs db := by
  simpa using (List.mem_filter.mp hu).2

theorem referenceWallet_propose {db : List StoredTx} {request : TransactionRequest}
    {policy : ConfirmationsPolicy} {spend : SpendPolicy} {p : Proposal ℕ}
    (hp : (referenceWallet net changePool h).proposeTransfer db request policy spend = .ok p) :
    request.payments.mapM (·.pool? net) = some p.head.paymentPools ∧
      p.head.proposedChange = [.shielded changePool] ∧
      (∀ u ∈ p.head.transparentInputs, u ∈ h.unspentUtxos db) ∧
      (∀ n ∈ p.head.shieldedInputs, n ∈ h.unspentNotes db spend) ∧
      (spend.transparent.isNone → p.head.transparentInputs = []) := by
  simp only [referenceWallet] at hp
  split at hp
  · cases hp
  · rename_i pools hpools
    split at hp
    · rename_i hsome
      cases hp
      refine ⟨hpools, rfl, fun u hu => List.mem_of_mem_take hu, by simp, ?_⟩
      intro hnone
      simp [Option.isNone_iff_eq_none.mp hnone] at hsome
    · split at hp
      · cases hp
      · rename_i n ns hns
        cases hp
        exact ⟨hpools, rfl, by simp, by simp [hns], fun _ => rfl⟩

theorem referenceWallet_selectsUnspent : (referenceWallet net changePool h).SelectsUnspent where
  propose hp i hi := by
    obtain ⟨_, _, hu, hn, _⟩ := referenceWallet_propose hp
    simp only [Step.inputs, List.mem_append, List.mem_map] at hi
    rcases hi with ⟨u, hmem, rfl⟩ | ⟨n, hmem, rfl⟩
    · exact Holdings.mem_unspentUtxos (hu u hmem)
    · exact (Holdings.mem_unspentNotes (hn n hmem)).2
  utxos hus u hu := by
    cases hus
    exact Holdings.mem_unspentUtxos (List.mem_filter.mp hu).1

theorem referenceWallet_honoursPolicy : (referenceWallet net changePool h).HonoursPolicy where
  transparent hp := (referenceWallet_propose hp).2.2.2.2
  shielded hp n hn := (Holdings.mem_unspentNotes ((referenceWallet_propose hp).2.2.2.1 n hn)).1

theorem Payment.pool?_spec {p : Payment} {pool : PoolType} (hp : p.pool? net = some pool) :
    p.amount.isSome ∧ ∃ addr, p.recipientAddress.convertIfNetwork net = some addr ∧
      (∀ t, addr ≠ .tex t) ∧ addr.PaysInto pool := by
  unfold Payment.pool? at hp
  split at hp
  · cases hp
  · rename_i hamount
    refine ⟨by simpa [Option.isSome_iff_ne_none] using hamount, ?_⟩
    split at hp
    · cases hp
    · cases hp
    · rename_i addr htex haddr
      refine ⟨addr, haddr, fun t ht => htex t ht, ?_⟩
      unfold Address.PaysInto
      grind [hasShieldedReceiver]

theorem forall₂_of_mapM_pool? {ps : List Payment} {pools : List PoolType}
    (hp : ps.mapM (·.pool? net) = some pools) :
    List.Forall₂ (fun p pool => p.pool? net = some pool) ps pools := by
  induction ps generalizing pools with
  | nil => simp_all
  | cons p ps ih =>
    simp only [List.mapM_cons, Option.bind_eq_bind, Option.bind_eq_some_iff, Option.pure_def,
      Option.some.injEq] at hp
    obtain ⟨pool, hpool, pools', hpools, rfl⟩ := hp
    exact .cons hpool (ih hpools)

theorem referenceWallet_paysRequest :
    (referenceWallet net changePool h).PaysRequest net changePool where
  payments hp _ :=
    (forall₂_of_mapM_pool? (referenceWallet_propose hp).1).imp fun _ _ => Payment.pool?_spec
  change hp pool hpool := by
    rw [(referenceWallet_propose hp).2.1, List.mem_singleton] at hpool
    exact .inl hpool

end Zecd
