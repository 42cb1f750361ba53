import Zecd.Upstream.BlockPump

/-! # A light server and a full node

The light server serves the compact form of the blocks a full node serves whole. A download that
ends, over the one or over the other, has received the same outputs and found the same spends: the
full node's come with the coinbase transactions, which a light server's lack.
-/

namespace Zecd.Backends

open LoadShed (StreamError StreamItem StreamRun TransparentUtxo MatchedTransparentReceive)

/-! ## The compact form of a block -/

/-- The compact form of a transaction: its inputs and outputs in full, but the coinbase's input. -/
structure CompactForm (index : ℕ) (tx : BlockPump.Transaction) (light : BlockReader.CompactTx) :
    Prop where
  index : light.index = index
  txid : light.txid = tx.txid.bytes
  outputs : light.outputs = (tx.sapling.map BlockPump.SaplingBundle.outputs).getD []
  actions : light.actions = tx.orchard.getD []
  vin : light.vin = (tx.transparent.map fun bundle =>
    if bundle.isCoinbase then []
    else bundle.vin.map fun input => ⟨input.prevoutHash.bytes, input.prevoutN⟩).getD []
  vout : light.vout = (tx.transparent.map BlockPump.TransparentBundle.vout).getD []

/-- The first transaction of a block is its coinbase, and no other is. -/
def CoinbaseFirst (block : BlockPump.Block) : Prop :=
  ∀ x ∈ block.vtx.zipIdx, ∀ bundle, x.1.transparent = some bundle →
    bundle.isCoinbase = decide (x.2 = 0)

structure Serves (block : BlockPump.Block) (light : BlockReader.CompactBlock) : Prop where
  height : light.height = block.claimedHeight
  inRange : block.claimedHeight ≤ u32Max
  vtx : List.Forall₂ (fun x l => CompactForm x.2 x.1 l) block.vtx.zipIdx light.vtx
  coinbaseFirst : CoinbaseFirst block

/-- A receive, without the coinbase transaction that only a full node has at hand. -/
def bare (u : TransparentUtxo) : TransparentUtxo := { u with coinbaseTx := none }

variable {block : BlockPump.Block} {light : BlockReader.CompactBlock}
  {tx : BlockPump.Transaction} {index : ℕ}

theorem outputs_agree {l : BlockReader.CompactTx} (h : CompactForm index tx l) {height : ℕ}
    (hheight : height ≤ u32Max)
    (hcoinbase : ∀ bundle, tx.transparent = some bundle →
      bundle.isCoinbase = decide (index = 0)) :
    ((tx.transparent.map (BlockPump.bundleOutputs height tx)).getD []).map bare =
      BlockReader.txOutputs (BlockReader.u32TryFrom height) l := by
  rw [BlockReader.txOutputs, h.txid, BlockPump.txIdFromBytes_bytes, h.vout,
    BlockReader.u32TryFrom, if_pos hheight]
  cases htx : tx.transparent with
  | none => rfl
  | some bundle =>
    have hflag := hcoinbase bundle htx
    simp only [Option.map_some, Option.getD_some, BlockPump.bundleOutputs, List.map_map]
    apply List.map_congr_left
    rintro ⟨out, n⟩ -
    cases hbundle : bundle.isCoinbase with
    | true =>
      have hzero : index = 0 := by simpa [hbundle] using hflag
      simp [bare, h.index, hzero]
    | false =>
      have hpos : index ≠ 0 := by simpa [hbundle] using hflag
      simp [bare, h.index, hpos]

theorem spends_agree {l : BlockReader.CompactTx} (h : CompactForm index tx l) (height : ℕ) :
    (tx.transparent.map (BlockPump.bundleSpends height tx)).getD [] =
      BlockReader.txSpends height l := by
  rw [BlockReader.txSpends, h.txid, BlockPump.txIdFromBytes_bytes, h.vin]
  cases tx.transparent with
  | none => rfl
  | some bundle =>
    simp only [Option.map_some, Option.getD_some, BlockPump.bundleSpends]
    split
    · rfl
    · rw [List.filterMap_map, ← List.filterMap_eq_map]
      apply List.filterMap_congr
      intro input _
      simp [BlockPump.txIdFromBytes_bytes]

theorem flatMap_agree {β : Type} {f : BlockPump.Transaction → List β}
    {g : BlockReader.CompactTx → List β} (h : Serves block light)
    (hfg : ∀ x ∈ block.vtx.zipIdx, ∀ l, CompactForm x.2 x.1 l → f x.1 = g l) :
    block.vtx.flatMap f = light.vtx.flatMap g := by
  have hforms : List.Forall₂ (fun x l => x ∈ block.vtx.zipIdx ∧ CompactForm x.2 x.1 l)
      block.vtx.zipIdx light.vtx :=
    (List.forall₂_and_left _ _).mpr ⟨fun _ hx => hx, h.vtx⟩
  have hflat : List.Forall₂ Eq (block.vtx.zipIdx.flatMap fun x => f x.1) (light.vtx.flatMap g) := by
    refine List.rel_flatMap hforms ?_
    rintro x l ⟨hx, hform⟩
    rw [List.forall₂_eq_eq_eq]
    exact hfg x hx l hform
  rw [List.forall₂_eq_eq_eq] at hflat
  calc block.vtx.flatMap f
      = (block.vtx.zipIdx.map Prod.fst).flatMap f := by rw [List.zipIdx_map_fst]
    _ = block.vtx.zipIdx.flatMap fun x => f x.1 := by rw [List.flatMap_map]
    _ = light.vtx.flatMap g := hflat

theorem blockOutputs_agree (h : Serves block light) :
    (BlockPump.blockTransparentOutputs block block.claimedHeight).map bare =
      BlockReader.blockTransparentOutputs light := by
  rw [BlockPump.blockTransparentOutputs, List.map_flatMap, BlockReader.blockTransparentOutputs,
    h.height]
  exact flatMap_agree h fun x hx l hform => outputs_agree hform h.inRange (h.coinbaseFirst x hx)

theorem blockSpends_agree (h : Serves block light) :
    BlockPump.blockTransparentSpends block block.claimedHeight =
      BlockReader.blockTransparentSpends light := by
  rw [BlockReader.blockTransparentSpends, BlockReader.u32TryFrom, h.height, if_pos h.inRange]
  exact flatMap_agree h fun x _ l hform => spends_agree hform block.claimedHeight

/-! ## What a download makes of them -/

/-- The block is the same, and so are its outputs and spends, but for the coinbase transactions. -/
structure SameItem (x y : StreamItem) : Prop where
  block : x.block = y.block
  tOuts : x.tOuts.map bare = y.tOuts.map bare
  tIns : x.tIns = y.tIns

theorem item_agree (includeTransparent : Bool) (h : Serves block light) (sizes : ℕ × ℕ × ℕ) :
    SameItem (BlockPump.item (BlockPump.blockToCompact block sizes.1 sizes.2.1 sizes.2.2,
        if includeTransparent then
          (BlockPump.blockTransparentOutputs block block.claimedHeight,
            BlockPump.blockTransparentSpends block block.claimedHeight)
        else ([], [])))
      (BlockReader.harvest includeTransparent light) := by
  have hbare (xs : List TransparentUtxo) (ys : List TransparentUtxo) (h : xs.map bare = ys) :
      xs.map bare = ys.map bare := by
    rw [← h, List.map_map]
    rfl
  have hvtx : List.Forall₂ Eq
      (block.vtx.zipIdx.map fun x => (⟨(BlockPump.compactTx x.1 x.2).outputs,
        (BlockPump.compactTx x.1 x.2).actions⟩ : LoadShed.CompactTx))
      (light.vtx.map fun l => ⟨l.outputs, l.actions⟩) := by
    refine List.rel_map ?_ h.vtx
    intro x l hform
    dsimp only
    rw [hform.outputs, hform.actions]
    rfl
  rw [List.forall₂_eq_eq_eq] at hvtx
  refine ⟨?_, ?_, ?_⟩
  · simp only [BlockPump.item, BlockReader.harvest, BlockPump.blockToCompact, h.height,
      List.map_map, Function.comp_def, ← hvtx]
  · cases includeTransparent with
    | true => exact hbare _ _ (blockOutputs_agree h)
    | false => rfl
  · cases includeTransparent with
    | true => exact blockSpends_agree h
    | false => rfl

section Download

variable {A : Type} [DecidableEq A] {recipientAddress : List UInt8 → Option A}
  {encode encode' : LoadShed.CompactBlock → List UInt8} {transparent : Option (Finset A)}
  {p q p' q' : LoadShed.DownloadProgress A} {x y : StreamItem}

def bareReceive (r : MatchedTransparentReceive A) : MatchedTransparentReceive A :=
  { r with coinbaseTx := none }

/-- Two downloads hold the same heights, counted the same, and received and found spent the same,
but for the coinbase transactions. -/
structure Agree (p q : LoadShed.DownloadProgress A) : Prop where
  heights : p.blocks.heights = q.blocks.heights
  shape : p.shape = q.shape
  received : p.received.map bareReceive = q.received.map bareReceive
  spent : p.spent = q.spent
  watch : p.watch = q.watch

theorem matchOutput_agree (addresses : Finset A) (h : Agree p q) {u v : TransparentUtxo}
    (huv : bare u = bare v) :
    Agree (p.matchOutput recipientAddress addresses u)
      (q.matchOutput recipientAddress addresses v) := by
  have howned : LoadShed.ownedTransparentOutput recipientAddress addresses u =
      LoadShed.ownedTransparentOutput recipientAddress addresses v := by
    have hu : LoadShed.ownedTransparentOutput recipientAddress addresses u =
        LoadShed.ownedTransparentOutput recipientAddress addresses (bare u) := rfl
    rw [hu, huv]
    rfl
  have hcoinbase : (bare u).coinbase = (bare v).coinbase := by rw [huv]
  unfold LoadShed.DownloadProgress.matchOutput
  rw [howned]
  split
  · exact h
  · refine ⟨h.heights, h.shape, ?_, h.spent, ?_⟩
    · rw [List.map_append, List.map_append, h.received, List.map_singleton, List.map_singleton,
        bareReceive, bareReceive, show u.coinbase = v.coinbase from hcoinbase]
    · dsimp only
      rw [h.watch]

omit [DecidableEq A] in
theorem matchInput_agree (h : Agree p q) (i : LoadShed.TransparentSpend) :
    Agree (p.matchInput i) (q.matchInput i) := by
  unfold LoadShed.DownloadProgress.matchInput
  rw [h.watch, h.spent]
  split
  · exact h
  · split
    · exact ⟨h.heights, h.shape, h.received, rfl, rfl⟩
    · exact h

theorem scan_agree (h : Agree p q) (hxy : SameItem x y) :
    Agree (p.scan recipientAddress transparent x) (q.scan recipientAddress transparent y) := by
  have hcount : Agree (p.count x.block) (q.count y.block) := by
    rw [hxy.block]
    refine ⟨h.heights, ?_, h.received, h.spent, h.watch⟩
    simp only [LoadShed.DownloadProgress.count, h.shape]
  have houts : List.Forall₂ (fun u v => bare u = bare v) x.tOuts y.tOuts := by
    have heq : List.Forall₂ (· = ·) (x.tOuts.map bare) (y.tOuts.map bare) := by
      rw [hxy.tOuts]
      exact List.forall₂_refl _
    exact List.forall₂_map_right_iff.mp (List.forall₂_map_left_iff.mp heq)
  have hmatched (addresses : Finset A) :
      Agree (x.tOuts.foldl (LoadShed.DownloadProgress.matchOutput recipientAddress addresses)
          (p.count x.block))
        (y.tOuts.foldl (LoadShed.DownloadProgress.matchOutput recipientAddress addresses)
          (q.count y.block)) :=
    List.rel_foldl (P := Agree) (R := fun u v => bare u = bare v)
      (fun _ _ hpq _ _ huv => matchOutput_agree addresses hpq huv) hcount houts
  have hspent (p q : LoadShed.DownloadProgress A) (hpq : Agree p q) :
      Agree (x.tIns.foldl LoadShed.DownloadProgress.matchInput p)
        (y.tIns.foldl LoadShed.DownloadProgress.matchInput q) := by
    rw [hxy.tIns]
    exact List.rel_foldl (P := Agree) (R := (· = ·))
      (fun _ _ hpq i _ hi => hi ▸ matchInput_agree hpq i) hpq (List.forall₂_refl _)
  unfold LoadShed.DownloadProgress.scan
  cases transparent with
  | none => exact hspent _ _ hcount
  | some addresses => exact hspent _ _ (hmatched addresses)

variable (encode') in
theorem fold_agree (h : Agree p q) (hxy : SameItem x y)
    (hp : p.fold recipientAddress encode transparent x = some p') :
    ∃ q', q.fold recipientAddress encode' transparent y = some q' ∧ Agree p' q' := by
  have hscan : Agree (p.scan recipientAddress transparent x)
      (q.scan recipientAddress transparent y) := scan_agree h hxy
  unfold LoadShed.DownloadProgress.fold at hp ⊢
  obtain ⟨blocks, hpush, rfl⟩ := Option.map_eq_some_iff.mp hp
  unfold LoadShed.MemBlockCache.push at hpush ⊢
  dsimp only
  rw [← hscan.heights, ← hxy.block]
  split at hpush
  next hlast =>
    obtain rfl := Option.some.inj hpush
    rw [if_pos hlast]
    exact ⟨_, rfl, ⟨rfl, hscan.shape, hscan.received, hscan.spent, hscan.watch⟩⟩
  next => cases hpush

theorem materialized_agree {node : BlockPump.Node} {includeTransparent : Bool} {height : ℕ}
    {blocks : BlockPump.MaterializedBlock}
    (hserves : ∀ block, BlockPump.fetchBlock node height = .ok block → Serves block light)
    (h : BlockPump.materializeBlock node includeTransparent height = .ok blocks) :
    SameItem (BlockPump.item blocks) (BlockReader.harvest includeTransparent light) := by
  unfold BlockPump.materializeBlock at h
  cases hfetch : BlockPump.fetchBlock node height with
  | error e => simp [hfetch, bind, Except.bind] at h
  | ok block =>
    have hheight := BlockPump.claimedHeight_of_fetchBlock hfetch
    cases htrees : BlockPump.blockTrees node (BlockPump.displayHash block.hash) with
    | error e => simp [hfetch, htrees, bind, Except.bind] at h
    | ok sizes =>
      have hitem := item_agree includeTransparent (hserves block hfetch) sizes
      rw [hheight] at hitem
      simp only [hfetch, htrees, bind, Except.bind, Except.ok.injEq] at h
      rw [← h]
      exact hitem

variable (encode') in
/-- Block by block, a download over the node that completes is matched by one over the server. -/
theorem sequentially_agree {node : BlockPump.Node} {includeTransparent : Bool}
    {served : ℕ → BlockReader.CompactBlock} {hs : List ℕ}
    (hserves : ∀ height ∈ hs, ∀ block, BlockPump.fetchBlock node height = .ok block →
      Serves block (served height)) (h : Agree p q)
    (hp : BlockPump.sequentially node recipientAddress encode transparent includeTransparent hs p =
      some (p', none)) :
    ∃ q', (hs.map (BlockReader.harvest includeTransparent ∘ served)).foldlM
        (LoadShed.DownloadProgress.fold recipientAddress encode' transparent) q = some q' ∧
      Agree p' q' := by
  induction hs generalizing p q with
  | nil =>
    obtain ⟨rfl, -⟩ := Prod.mk.inj (Option.some.inj hp)
    exact ⟨q, rfl, h⟩
  | cons height hs ih =>
    rw [BlockPump.sequentially] at hp
    split at hp
    next => cases (Prod.mk.inj (Option.some.inj hp)).2
    next block hblock =>
      have hsame := materialized_agree (hserves height List.mem_cons_self) hblock
      split at hp
      next => cases hp
      next p₁ hfold =>
        obtain ⟨q₁, hfold', hagree⟩ := fold_agree encode' h hsame hfold
        obtain ⟨q', hrest, hend⟩ :=
          ih (fun x hx => hserves x (List.mem_cons_of_mem _ hx)) hagree hp
        refine ⟨q', ?_, hend⟩
        rw [List.map_cons, List.foldlM_cons, Function.comp_apply, hfold']
        exact hrest

/-- Where a light server serves the blocks of a full node, a download that completes over the one
agrees with a download that completes over the other, however the replies of the node, the frames
of the server and the engine interleave. -/
theorem backends_agree (node : BlockPump.Node) (served : ℕ → BlockReader.CompactBlock)
    (includeTransparent : Bool) (first last : ℕ)
    (hserves : ∀ height ∈ BlockPump.heights first last, ∀ block,
      BlockPump.fetchBlock node height = .ok block → Serves block (served height))
    (encodedLen : BlockReader.CompactBlock → ℕ) (r : StreamRun) (replies : List Window.Event)
    (frames : List Relay.Event) (h : Agree p q)
    (hfull : BlockReader.downloadFrom recipientAddress encode transparent p
      (BlockPump.nexts (BlockPump.pumps node includeTransparent first last replies)) =
        some (some (p', none)))
    (hlight : BlockReader.downloadFrom recipientAddress encode' transparent q
      (BlockReader.nexts includeTransparent (BlockReader.reads encodedLen
        BlockReader.blockBufferBytes (BlockReader.sent served first last r) frames)) =
        some (some (q', none))) : Agree p' q' := by
  have hseq : BlockPump.sequentially node recipientAddress encode transparent includeTransparent
      (BlockPump.heights first last) p = some (p', none) := by
    rcases BlockPump.download_cases node recipientAddress encode transparent includeTransparent
      first last p replies with hwaits | hends
    · cases hwaits.symm.trans hfull
    · exact Option.some.inj (hends.symm.trans hfull)
  have honce : LoadShed.downloadRangeOnce recipientAddress encode' transparent
      (BlockReader.harvest includeTransparent ∘ served) first last q r = some (q', none) := by
    rcases BlockReader.download_cases includeTransparent served first last q r frames
      with hwaits | hends
    · cases hwaits.symm.trans hlight
    · exact Option.some.inj (hends.symm.trans hlight)
  obtain ⟨q₁, hfold, hagree⟩ := sequentially_agree encode' hserves h hseq
  cases r with
  | broken k e =>
    obtain ⟨_, -, hpair⟩ := Option.map_eq_some_iff.mp honce
    cases (Prod.mk.inj hpair).2
  | complete =>
    obtain ⟨q₂, hfold₂, hpair⟩ := Option.map_eq_some_iff.mp honce
    obtain ⟨rfl, -⟩ := Prod.mk.inj hpair
    obtain rfl : q₁ = q₂ := Option.some.inj (hfold.symm.trans hfold₂)
    exact hagree

end Download

/-! ## A coinbase received -/

def coinbaseId : BlockPump.TxId := ⟨List.replicate 32 5, rfl⟩

/-- A coinbase that pays one script. -/
def coinbaseTx : BlockPump.Transaction where
  txid := coinbaseId
  transparent := some ⟨true, [], [⟨625, [1]⟩]⟩
  sapling := none
  orchard := none
  ironwood := none
  encoded := [9]

def coinbaseBlock : BlockPump.Block := ⟨[3], [2], 100, 7, [coinbaseTx]⟩

def coinbaseLight : BlockReader.CompactBlock where
  height := 7
  vtx := [{ index := 0, txid := List.replicate 32 5, vout := [⟨625, [1]⟩] }]

def coinbaseNode : BlockPump.Node where
  getBlock _ := .ok ['0', '0']
  getTrees _ := .ok none
  read _ := some coinbaseBlock

theorem coinbaseBlock_served : Serves coinbaseBlock coinbaseLight where
  height := rfl
  inRange := by decide
  vtx := .cons ⟨rfl, rfl, rfl, rfl, rfl, rfl⟩ .nil
  coinbaseFirst := by
    rintro x hx bundle hbundle
    obtain rfl := List.mem_singleton.mp hx
    obtain rfl := Option.some.inj hbundle
    rfl

def firstByte (script : List UInt8) : Option ℕ := script.head?.map UInt8.toNat

theorem backends_agree_coinbase : ∃ p q : LoadShed.DownloadProgress ℕ,
    BlockReader.downloadFrom firstByte (fun _ => []) (some {1}) (.new none)
        (BlockPump.nexts (BlockPump.pumps coinbaseNode true 7 7
          (List.replicate 8 BlockPump.repliesFirst).flatten)) = some (some (p, none)) ∧
      BlockReader.downloadFrom firstByte (fun _ => []) (some {1}) (.new none)
        (BlockReader.nexts true (BlockReader.reads (fun _ => 100) BlockReader.blockBufferBytes
          (BlockReader.sent (fun _ => coinbaseLight) 7 7 .complete)
          (List.replicate 8 BlockReader.engineFirst).flatten)) = some (some (q, none)) ∧
      Agree p q := by
  have hfull : BlockReader.downloadFrom firstByte (fun _ => []) (some {1}) (.new none)
      (BlockPump.nexts (BlockPump.pumps coinbaseNode true 7 7
        (List.replicate 8 BlockPump.repliesFirst).flatten)) = some (some (_, none)) := rfl
  have hlight : BlockReader.downloadFrom firstByte (fun _ => []) (some {1}) (.new none)
      (BlockReader.nexts true (BlockReader.reads (fun _ => 100) BlockReader.blockBufferBytes
        (BlockReader.sent (fun _ => coinbaseLight) 7 7 .complete)
        (List.replicate 8 BlockReader.engineFirst).flatten)) = some (some (_, none)) := rfl
  refine ⟨_, _, hfull, hlight, ?_⟩
  apply backends_agree coinbaseNode (fun _ => coinbaseLight) true 7 7 _ (fun _ => 100) .complete
    _ _ ⟨rfl, rfl, rfl, rfl, rfl⟩ hfull hlight
  intro height hheight block hblock
  obtain rfl : height = 7 := List.mem_singleton.mp hheight
  obtain rfl : coinbaseBlock = block := Except.ok.inj hblock
  exact coinbaseBlock_served

end Zecd.Backends
