import Zecd.Sync.Download
import Zecd.Sync.LoadShed

/-! # One download in two lights

The pass of the block scan looks at a download as a fold over numbered blocks, and the download
itself is a loop over streams of compact blocks. Where the stream carries the transparent side of
the chain's blocks, the two match the same outputs and inputs.
-/

namespace Zecd.LoadShed

variable {recipientAddress : List UInt8 → Option Taddr} {encode : CompactBlock → List UInt8}
  {transparent : Option (Finset Taddr)} {addresses : Finset Taddr} {u : TransparentUtxo}
  {o : BlockOutput} {x : ℕ × Block} {xs : List (ℕ × Block)} {item : StreamItem}
  {p p' : DownloadProgress Taddr}

/-- The output that a stream carries for one of a block. -/
structure StandsFor (recipientAddress : List UInt8 → Option Taddr) (addresses : Finset Taddr)
    (u : TransparentUtxo) (o : BlockOutput) : Prop where
  outpoint : (u.txid, u.index) = (o.txid, o.index)
  value : u.valueZat = o.value
  coinbase : u.coinbase = o.coinbase
  recipient : ∀ a ∈ addresses, recipientAddress u.script = some a ↔ o.script = a

/-- The element of the stream carries the transparent side of a block of the chain. -/
structure Carries (recipientAddress : List UInt8 → Option Taddr)
    (transparent : Option (Finset Taddr)) (x : ℕ × Block) (item : StreamItem) : Prop where
  outputs : ∀ addresses ∈ transparent,
    List.Forall₂ (StandsFor recipientAddress addresses) item.tOuts x.2.outputs
  inputs : item.tIns.map (fun i => ((i.prevoutTxid, i.prevoutIndex), i.spendingTxid)) = x.2.inputs
  height : ∀ i ∈ item.tIns, i.height = x.1

/-! ## What is matched -/

def MatchedTransparentReceive.matched (r : MatchedTransparentReceive Taddr) : MatchedReceive :=
  ⟨⟨r.output.outpoint, r.output.recipientAddress⟩, r.coinbase⟩

def MatchedTransparentSpend.matched (s : MatchedTransparentSpend) : MatchedSpend :=
  ⟨s.spendingTxid, s.height⟩

/-- What a pass keeps of a download: the count of its blocks, and what they matched. -/
def DownloadProgress.matched (p : DownloadProgress Taddr) : Zecd.DownloadProgress where
  blocks := p.blocks.len
  received := p.received.map MatchedTransparentReceive.matched
  spent := p.spent.map MatchedTransparentSpend.matched
  watch := p.watch

theorem matched_ownedTransparentOutput (h : StandsFor recipientAddress addresses u o) :
    (ownedTransparentOutput recipientAddress addresses u).map
        (fun w => (⟨w.outpoint, w.recipientAddress⟩ : ReceivedOutput)) =
      Zecd.ownedTransparentOutput addresses o := by
  have hrecipient := h.recipient
  unfold ownedTransparentOutput Zecd.ownedTransparentOutput
  rw [h.value]
  by_cases hmoney : o.value ≤ maxMoney
  · rw [if_pos hmoney]
    cases hscript : recipientAddress u.script with
    | none =>
      rw [if_neg]
      · rfl
      · rintro ⟨-, hmem⟩
        have hsome := (hrecipient _ hmem).mpr rfl
        rw [hscript] at hsome
        cases hsome
    | some a =>
      dsimp only
      by_cases ha : a ∈ addresses
      · obtain rfl := (hrecipient a ha).mp hscript
        rw [if_pos ha, if_pos ⟨hmoney, ha⟩, Option.map_some, h.outpoint]
      · rw [if_neg ha, if_neg]
        · rfl
        · rintro ⟨-, hmem⟩
          have hsome := (hrecipient _ hmem).mpr rfl
          rw [hscript, Option.some_inj] at hsome
          exact ha (hsome ▸ hmem)
  · rw [if_neg hmoney, if_neg fun hboth => hmoney hboth.1]
    rfl

theorem matched_matchOutput (h : StandsFor recipientAddress addresses u o)
    (p : DownloadProgress Taddr) :
    (p.matchOutput recipientAddress addresses u).matched =
      p.matched.matchOutput addresses o := by
  have howned := matched_ownedTransparentOutput h
  unfold DownloadProgress.matchOutput Zecd.DownloadProgress.matchOutput
  rw [← howned]
  cases ownedTransparentOutput recipientAddress addresses u with
  | none => rfl
  | some w =>
    simp only [DownloadProgress.matched, Option.map_some, List.map_append, List.map_cons,
      List.map_nil, MatchedTransparentReceive.matched, h.coinbase]

theorem matched_injective : Function.Injective MatchedTransparentSpend.matched := by
  rintro ⟨_, _⟩ ⟨_, _⟩ h
  cases h
  rfl

theorem matched_matchInput (i : TransparentSpend) (p : DownloadProgress Taddr) :
    (p.matchInput i).matched =
      p.matched.matchInput i.height ((i.prevoutTxid, i.prevoutIndex), i.spendingTxid) := by
  unfold DownloadProgress.matchInput Zecd.DownloadProgress.matchInput
  cases hwatch : p.watch with
  | none => simp only [DownloadProgress.matched, hwatch]
  | some w =>
    have hmem : (⟨i.spendingTxid, i.height⟩ : MatchedSpend) ∈
        p.spent.map MatchedTransparentSpend.matched ↔
          (⟨i.spendingTxid, i.height⟩ : MatchedTransparentSpend) ∈ p.spent :=
      List.mem_map_of_injective (a := ⟨i.spendingTxid, i.height⟩) matched_injective
    simp only [DownloadProgress.matched, hwatch, hmem]
    split
    · split
      · rfl
      · rw [List.map_append]
        rfl
    · rw [hwatch]

theorem matched_foldl {α β : Type} {R : α → β → Prop} {us : List α} {os : List β}
    {f : DownloadProgress Taddr → α → DownloadProgress Taddr}
    {g : Zecd.DownloadProgress → β → Zecd.DownloadProgress}
    (hstep : ∀ a b, R a b → ∀ p, (f p a).matched = g p.matched b)
    (h : List.Forall₂ R us os) (p : DownloadProgress Taddr) :
    (us.foldl f p).matched = os.foldl g p.matched := by
  induction h generalizing p with
  | nil => rfl
  | cons hab _ ih =>
    rw [List.foldl_cons, List.foldl_cons, ih, hstep _ _ hab]

theorem Carries.forall₂_inputs (h : Carries recipientAddress transparent x item) :
    List.Forall₂ (fun i y => y = ((i.prevoutTxid, i.prevoutIndex), i.spendingTxid) ∧ i.height = x.1)
      item.tIns x.2.inputs := by
  rw [← h.inputs, List.forall₂_map_right_iff, List.forall₂_same]
  exact fun i hi => ⟨rfl, h.height i hi⟩

/-- A block that is not refused is matched as the pass matches it. -/
theorem matched_fold (h : Carries recipientAddress transparent x item)
    (hfold : p.fold recipientAddress encode transparent item = some p') :
    p'.matched = p.matched.block transparent x := by
  unfold DownloadProgress.fold at hfold
  obtain ⟨blocks, hpush, rfl⟩ := Option.map_eq_some_iff.mp hfold
  have hlen : blocks.len = p.blocks.len + 1 := by
    rw [DownloadProgress.scan_blocks, MemBlockCache.push] at hpush
    split at hpush <;> cases hpush
    simp [MemBlockCache.len]
  have hinputs := matched_foldl (g := Zecd.DownloadProgress.matchInput x.1)
    (fun i y hstands p => by rw [matched_matchInput, hstands.2, hstands.1]) h.forall₂_inputs
  have hblocks : (p.scan recipientAddress transparent item).matched.blocks = p.blocks.len := by
    rw [DownloadProgress.matched, DownloadProgress.scan_blocks]
  have hscan : p.matched.block transparent x =
      { (p.scan recipientAddress transparent item).matched with
        blocks := (p.scan recipientAddress transparent item).matched.blocks + 1 } := by
    simp only [Zecd.DownloadProgress.block, DownloadProgress.scan, hinputs]
    cases transparent with
    | none => rfl
    | some addresses =>
      have houtputs := matched_foldl (fun _ _ hstands => matched_matchOutput hstands)
        (h.outputs addresses rfl)
      dsimp only
      rw [houtputs]
      rfl
  rw [hscan, hblocks, ← hlen]
  rfl

/-! ## The download of a pass -/

theorem matched_foldlM {items : List (ℕ × Block)} {served : ℕ → StreamItem}
    (h : ∀ x ∈ items, Carries recipientAddress transparent x (served x.1))
    (hfold : (items.map fun x => served x.1).foldlM
      (DownloadProgress.fold recipientAddress encode transparent) p = some p') :
    p'.matched = items.foldl (Zecd.DownloadProgress.block transparent) p.matched := by
  induction items generalizing p with
  | nil =>
    cases hfold
    rfl
  | cons x items ih =>
    rw [List.map_cons, List.foldlM_cons, Option.bind_eq_bind, Option.bind_eq_some_iff] at hfold
    obtain ⟨q, hq, hrest⟩ := hfold
    rw [ih (fun y hy => h y (List.mem_cons_of_mem _ hy)) hrest, List.foldl_cons,
      matched_fold (h x List.mem_cons_self) hq]

theorem map_fst_range {c : Chain} {start stop : ℕ} (h : stop ≤ c.blocks.length) :
    (c.range start stop).map Prod.fst = List.range' start (stop - start) := by
  rw [Chain.range, List.map_filterMap]
  have hsome : ∀ h' ∈ List.range' start (stop - start),
      ((c.blocks[h']?.map (h', ·)).map Prod.fst : Option ℕ) = some h' := by
    intro h' hh'
    have hlt : h' < c.blocks.length := by
      obtain ⟨hlo, hhi⟩ := List.mem_range'_1.mp hh'
      omega
    rw [List.getElem?_eq_getElem hlt]
    rfl
  rw [List.filterMap_congr hsome, List.filterMap_some]

variable {served : ℕ → StreamItem} {streams : ℕ → StreamRun} {unspent : Option (Finset OutPoint)}

/-- Of a range of the chain, a download resumed after any load sheds has matched what the pass of
the block scan matches, however its own download is cut. -/
theorem downloads_agree (c : Chain) (r : BlockRange) (hserved : ∀ h, (served h).block.height = h)
    (hrange : r.start < r.stop) (hchain : r.stop ≤ c.blocks.length)
    (hcarries : ∀ x ∈ c.range r.start r.stop, Carries recipientAddress transparent x (served x.1))
    (hsheds : ∀ i j e, streams i = .broken j e → e = .loadShed) {fuel : ℕ}
    {d : DownloadedRange Taddr}
    (h : downloadBlocks recipientAddress encode transparent served streams r unspent fuel =
      some (.ok d)) {sheds : List ℕ} {stalled : ℕ} {p' : Zecd.DownloadProgress}
    (h' : Zecd.downloadBlocks transparent sheds stalled (c.range r.start r.stop)
      ⟨0, [], [], unspent⟩ = some p') :
    d.blocks.len = p'.blocks ∧ d.received.map MatchedTransparentReceive.matched = p'.received ∧
      d.spent.map MatchedTransparentSpend.matched = p'.spent := by
  obtain ⟨pEnd, hEnd⟩ := exists_held recipientAddress encode transparent unspent hserved r.start
    (r.rangeEnd + 1 - r.start)
  have hstart : Held recipientAddress encode transparent served r.start 0 unspent
      (.new unspent) := ⟨rfl, rfl, rfl⟩
  have hstop : r.rangeEnd + 1 = r.stop := by
    unfold BlockRange.rangeEnd
    omega
  obtain rfl : pEnd.finish = d := by
    have hmax : r.rangeEnd + 1 ≤ u32Max := hstop.trans_le r.stop_le
    have hloop := downloadLoop_eq hserved hEnd hmax (by omega) hstart hsheds fuel 0
    rw [Nat.add_zero] at hloop
    rw [downloadBlocks, hloop, Option.map_map, Option.map_eq_some_iff] at h
    obtain ⟨finished, -, hfinished⟩ := h
    cases finished <;> cases hfinished
    rfl
  have hfold := hEnd.fold
  rw [hstop, ← map_fst_range hchain, List.map_map] at hfold
  have hmatched := matched_foldlM hcarries hfold
  obtain rfl := downloadBlocks_eq h'
  have hnew : (DownloadProgress.new unspent : DownloadProgress Taddr).matched =
      ⟨0, [], [], unspent⟩ := rfl
  rw [← hnew, ← hmatched]
  exact ⟨rfl, rfl, rfl⟩

/-! ## An output spent in the next block -/

def paidThenSpent : Chain where
  blocks := [[⟨1, false, [], [(.external 7, 5000)]⟩], [⟨2, false, [(1, 0)], [(.foreign 9, 4000)]⟩]]
  txids_nodup := by decide
  spends_nodup := by decide
  causal := by decide
  money := by decide
  coinbase_inputs := by decide
  derivable := by decide

def paidThenSpentServed (h : ℕ) : StreamItem where
  block := ⟨h, [⟨[[1]], []⟩]⟩
  tOuts := if h = 0 then [⟨1, 0, 5000, [7], some 0, none, false⟩]
    else [⟨2, 0, 4000, [9], some 1, none, false⟩]
  tIns := if h = 1 then [⟨1, 0, 2, 1⟩] else []

def scriptSeven (script : List UInt8) : Option Taddr :=
  if script = [7] then some (.external 7) else none

theorem carries_paidThenSpent : ∀ x ∈ paidThenSpent.range 0 2,
    Carries scriptSeven (some {.external 7}) x (paidThenSpentServed x.1) := by
  have hrange : paidThenSpent.range 0 2 =
      [(0, [⟨1, false, [], [(.external 7, 5000)]⟩]),
        (1, [⟨2, false, [(1, 0)], [(.foreign 9, 4000)]⟩])] := rfl
  intro x hx
  rw [hrange] at hx
  rcases List.mem_cons.mp hx with rfl | hx
  · refine ⟨?_, rfl, by decide⟩
    rintro _ ⟨⟩
    exact .cons ⟨rfl, rfl, rfl, by decide⟩ .nil
  · obtain rfl := List.mem_singleton.mp hx
    refine ⟨?_, rfl, by decide⟩
    rintro _ ⟨⟩
    exact .cons ⟨rfl, rfl, rfl, by decide⟩ .nil

theorem downloads_agree_paidThenSpent : ∃ (d : DownloadedRange Taddr) (p : Zecd.DownloadProgress),
    downloadBlocks scriptSeven (fun b => [UInt8.ofNat b.height]) (some {.external 7})
      paidThenSpentServed (fun _ => .complete) ⟨0, 2, by decide, by decide⟩ (some ∅) 1 =
        some (.ok d) ∧
    Zecd.downloadBlocks (some {.external 7}) [1] 0 (paidThenSpent.range 0 2)
      ⟨0, [], [], some ∅⟩ = some p ∧
    d.blocks.len = p.blocks ∧ d.received.map MatchedTransparentReceive.matched = p.received ∧
      d.spent.map MatchedTransparentSpend.matched = p.spent := by
  have hdownload : downloadBlocks scriptSeven (fun b => [UInt8.ofNat b.height])
      (some {.external 7}) paidThenSpentServed (fun _ => .complete) ⟨0, 2, by decide, by decide⟩
      (some ∅) 1 = some (.ok _) := rfl
  have hpass : Zecd.downloadBlocks (some {.external 7}) [1] 0 (paidThenSpent.range 0 2)
      ⟨0, [], [], some ∅⟩ = some _ := rfl
  exact ⟨_, _, hdownload, hpass, downloads_agree paidThenSpent _ (fun _ => rfl) (by decide)
    le_rfl carries_paidThenSpent (fun _ _ _ h => by cases h) hdownload hpass⟩

end Zecd.LoadShed
