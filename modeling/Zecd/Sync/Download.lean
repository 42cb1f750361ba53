import Zecd.Sync.Engine

/-! # What a download matches

A resumed download equals one uninterrupted fold over the range, however many load sheds it
met. On a range of a chain the fold lists exactly the owned outputs, and exactly the spends
of outpoints watched at its start or received within the range.
-/

namespace Zecd

/-- Resuming after a load shed neither loses nor repeats a block. -/
theorem downloadBlocks_eq {transparent : Option (Finset Taddr)} {sheds : List ℕ} {stalled : ℕ}
    {rest : List (ℕ × Block)} {p p' : DownloadProgress}
    (h : downloadBlocks transparent sheds stalled rest p = some p') :
    p' = rest.foldl (DownloadProgress.block transparent) p := by
  induction sheds generalizing stalled rest p with
  | nil => exact (Option.some.inj h).symm
  | cons k sheds ih =>
    cases rest with
    | nil => exact (Option.some.inj h).symm
    | cons x rest =>
      have hsplit : ((x :: rest).drop k).foldl (DownloadProgress.block transparent)
          (((x :: rest).take k).foldl (DownloadProgress.block transparent) p) =
          (x :: rest).foldl (DownloadProgress.block transparent) p := by
        rw [← List.foldl_append, List.take_append_drop]
      simp only [downloadBlocks] at h
      split at h
      · rw [← hsplit]; exact ih h
      · split at h
        · cases h
        · rw [← hsplit]; exact ih h

def ownedReceives (addresses : Finset Taddr) (b : Block) : List MatchedReceive :=
  b.outputs.filterMap fun u => (ownedTransparentOutput addresses u).map (⟨·, u.coinbase⟩)

def ownedOutpoints (addresses : Finset Taddr) (b : Block) : List OutPoint :=
  (ownedReceives addresses b).map (·.output.outpoint)

namespace DownloadProgress

variable {addresses : Finset Taddr} {p : DownloadProgress} {w : Finset OutPoint}

theorem foldl_matchOutput (addresses : Finset Taddr) (p : DownloadProgress)
    (us : List BlockOutput) :
    us.foldl (matchOutput addresses) p =
      { p with
        received := p.received ++
          us.filterMap fun u => (ownedTransparentOutput addresses u).map (⟨·, u.coinbase⟩)
        watch := p.watch.map fun w => w ∪ (us.filterMap fun u =>
          (ownedTransparentOutput addresses u).map (·.outpoint)).toFinset } := by
  induction us generalizing p with
  | nil => simp
  | cons u us ih =>
    rw [List.foldl_cons, ih]
    cases hu : ownedTransparentOutput addresses u with
    | none => simp [matchOutput, hu]
    | some output =>
      cases hw : p.watch with
      | none => simp [matchOutput, hu, hw]
      | some w => simp [matchOutput, hu, hw]

theorem foldl_matchInput (height : ℕ) (is : List (OutPoint × ℕ)) (hw : p.watch = some w)
    (hn : (is.map Prod.fst).Nodup) :
    (is.foldl (matchInput height) p).watch = some (w \ (is.map Prod.fst).toFinset) ∧
      (is.foldl (matchInput height) p).received = p.received ∧
      ∀ sp, sp ∈ (is.foldl (matchInput height) p).spent ↔
        sp ∈ p.spent ∨ ∃ i ∈ is, i.1 ∈ w ∧ sp = ⟨i.2, height⟩ := by
  induction is generalizing p w with
  | nil => simp [hw]
  | cons i is ih =>
    rw [List.map_cons, List.nodup_cons] at hn
    have hlater : ∀ j ∈ is, j.1 ≠ i.1 := by
      rintro j hj heq
      exact hn.1 (heq ▸ List.mem_map_of_mem hj)
    rw [List.foldl_cons]
    by_cases hi : i.1 ∈ w
    · have hstep : (matchInput height p i).watch = some (w.erase i.1) := by
        simp [matchInput, hw, hi]
      have hspent : ∀ sp, sp ∈ (matchInput height p i).spent ↔
          sp ∈ p.spent ∨ sp = ⟨i.2, height⟩ := by
        intro sp
        simp only [matchInput, hw, hi, if_true]
        split
        · rename_i hmem
          constructor
          · exact .inl
          · rintro (h | rfl)
            · exact h
            · exact hmem
        · simp
      obtain ⟨h₁, h₂, h₃⟩ := ih hstep hn.2
      refine ⟨?_, h₂.trans (by simp [matchInput, hw, hi]), fun sp => ?_⟩
      · rw [h₁]
        congr 1
        ext o
        simp only [Finset.mem_sdiff, Finset.mem_erase, List.map_cons, List.toFinset_cons,
          Finset.mem_insert, not_or]
        tauto
      · rw [h₃, hspent]
        simp only [List.mem_cons, exists_eq_or_imp, Finset.mem_erase, hi, true_and]
        constructor
        · rintro ((h | h) | ⟨j, hj, ⟨_, hjw⟩, rfl⟩)
          · exact .inl h
          · exact .inr (.inl h)
          · exact .inr (.inr ⟨j, hj, hjw, rfl⟩)
        · rintro (h | h | ⟨j, hj, hjw, rfl⟩)
          · exact .inl (.inl h)
          · exact .inl (.inr h)
          · exact .inr ⟨j, hj, ⟨hlater j hj, hjw⟩, rfl⟩
    · have hstep : matchInput height p i = p := by simp [matchInput, hw, hi]
      rw [hstep]
      obtain ⟨h₁, h₂, h₃⟩ := ih hw hn.2
      refine ⟨?_, h₂, fun sp => ?_⟩
      · rw [h₁, List.map_cons, List.toFinset_cons]
        congr 1
        ext o
        simp only [Finset.mem_sdiff, Finset.mem_insert, not_or]
        constructor
        · rintro ⟨ho, hno⟩
          exact ⟨ho, fun heq => hi (heq ▸ ho), hno⟩
        · rintro ⟨ho, _, hno⟩
          exact ⟨ho, hno⟩
      · rw [h₃]
        simp [hi]

theorem block_watch (addresses : Finset Taddr) {x : ℕ × Block} (hw : p.watch = some w)
    (hn : (x.2.inputs.map Prod.fst).Nodup) :
    (block (some addresses) p x).watch =
        some ((w ∪ (ownedOutpoints addresses x.2).toFinset) \ (x.2.inputs.map Prod.fst).toFinset) ∧
      (block (some addresses) p x).received = p.received ++ ownedReceives addresses x.2 ∧
      ∀ sp, sp ∈ (block (some addresses) p x).spent ↔ sp ∈ p.spent ∨
        ∃ i ∈ x.2.inputs, (i.1 ∈ w ∨ i.1 ∈ ownedOutpoints addresses x.2) ∧ sp = ⟨i.2, x.1⟩ := by
  have houts := foldl_matchOutput addresses p x.2.outputs
  have hpoints : (x.2.outputs.filterMap fun u =>
      (ownedTransparentOutput addresses u).map (·.outpoint)) = ownedOutpoints addresses x.2 := by
    simp [ownedOutpoints, ownedReceives, List.map_filterMap, Function.comp_def]
  obtain ⟨h₁, h₂, h₃⟩ := foldl_matchInput x.1 x.2.inputs
    (p := x.2.outputs.foldl (matchOutput addresses) p)
    (w := w ∪ (ownedOutpoints addresses x.2).toFinset) (by rw [houts, hw, hpoints]; rfl) hn
  refine ⟨h₁, h₂.trans (by rw [houts]; rfl), fun sp => (h₃ sp).trans ?_⟩
  rw [houts]
  simp only [Finset.mem_union, List.mem_toFinset]

theorem foldl_block (bs : List (ℕ × Block)) (hw : p.watch = some w)
    (hn : (bs.flatMap fun x => x.2.inputs.map Prod.fst).Nodup)
    (hc : bs.Pairwise fun x y => ∀ i ∈ x.2.inputs, i.1 ∉ ownedOutpoints addresses y.2) :
    (bs.foldl (block (some addresses)) p).received =
        p.received ++ bs.flatMap (fun x => ownedReceives addresses x.2) ∧
      ∀ sp, sp ∈ (bs.foldl (block (some addresses)) p).spent ↔ sp ∈ p.spent ∨
        ∃ x ∈ bs, ∃ i ∈ x.2.inputs, (i.1 ∈ w ∨ ∃ y ∈ bs, i.1 ∈ ownedOutpoints addresses y.2) ∧
          sp = ⟨i.2, x.1⟩ := by
  induction bs generalizing p w with
  | nil => simp
  | cons x bs ih =>
    rw [List.flatMap_cons, List.nodup_append] at hn
    rw [List.pairwise_cons] at hc
    obtain ⟨hwatch, hrec, hspent⟩ := block_watch addresses hw hn.1
    obtain ⟨ihrec, ihspent⟩ := ih hwatch hn.2.1 hc.2
    refine ⟨by rw [List.foldl_cons, ihrec, hrec, List.flatMap_cons, List.append_assoc],
      fun sp => ?_⟩
    -- an input of a later block is not spent by this one, and an input of this block is not
    -- an output of a later one
    have hfresh : ∀ y ∈ bs, ∀ i ∈ y.2.inputs, i.1 ∉ x.2.inputs.map Prod.fst := by
      intro y hy i hi hx
      exact hn.2.2 _ hx _ (List.mem_flatMap.mpr ⟨y, hy, List.mem_map_of_mem hi⟩) rfl
    rw [List.foldl_cons, ihspent, hspent]
    constructor
    · rintro ((h | ⟨i, hi, hin, rfl⟩) | ⟨y, hy, i, hi, hin, rfl⟩)
      · exact .inl h
      · refine .inr ⟨x, List.mem_cons_self, i, hi, ?_, rfl⟩
        exact hin.imp id fun hx => ⟨x, List.mem_cons_self, hx⟩
      · refine .inr ⟨y, List.mem_cons_of_mem _ hy, i, hi, ?_, rfl⟩
        rcases hin with hin | ⟨z, hz, hin⟩
        · obtain ⟨hin, _⟩ := Finset.mem_sdiff.mp hin
          rcases Finset.mem_union.mp hin with hin | hin
          · exact .inl hin
          · exact .inr ⟨x, List.mem_cons_self, List.mem_toFinset.mp hin⟩
        · exact .inr ⟨z, List.mem_cons_of_mem _ hz, hin⟩
    · rintro (h | ⟨y, hy, i, hi, hin, rfl⟩)
      · exact .inl (.inl h)
      · rcases List.mem_cons.mp hy with rfl | hy
        · refine .inl (.inr ⟨i, hi, ?_, rfl⟩)
          rcases hin with hin | ⟨z, hz, hin⟩
          · exact .inl hin
          · rcases List.mem_cons.mp hz with rfl | hz
            · exact .inr hin
            · exact absurd hin (hc.1 z hz i hi)
        · refine .inr ⟨y, hy, i, hi, ?_, rfl⟩
          have hnot : i.1 ∉ (x.2.inputs.map Prod.fst).toFinset := by
            rw [List.mem_toFinset]; exact hfresh y hy i hi
          rcases hin with hin | ⟨z, hz, hin⟩
          · exact .inl (Finset.mem_sdiff.mpr ⟨Finset.mem_union_left _ hin, hnot⟩)
          · rcases List.mem_cons.mp hz with rfl | hz
            · refine .inl (Finset.mem_sdiff.mpr ⟨Finset.mem_union_right _ ?_, hnot⟩)
              exact List.mem_toFinset.mpr hin
            · exact .inr ⟨z, hz, hin⟩

end DownloadProgress

/-! ## Ranges of a chain -/

section Range

variable {c : Chain} {addresses : Finset Taddr} {start stop : ℕ}

theorem range_pairwise_lt (c : Chain) (start stop : ℕ) :
    (c.range start stop).Pairwise fun x y => x.1 < y.1 := by
  refine List.Pairwise.filterMap _ (fun h h' hlt x hx y hy => ?_) (List.pairwise_lt_range' _)
  obtain ⟨b, _, rfl⟩ := Option.map_eq_some_iff.mp hx
  obtain ⟨b', _, rfl⟩ := Option.map_eq_some_iff.mp hy
  exact hlt

theorem mem_inputs {b : Block} {i : OutPoint × ℕ} :
    i ∈ b.inputs ↔ ∃ t ∈ b, i.1 ∈ t.inputs ∧ t.txid = i.2 := by
  simp only [Block.inputs, List.mem_flatMap, List.mem_map]
  constructor
  · rintro ⟨t, ht, o, ho, rfl⟩
    exact ⟨t, ht, ho, rfl⟩
  · rintro ⟨t, ht, ho, hid⟩
    exact ⟨t, ht, i.1, ho, by rw [hid]⟩

theorem inputs_map_fst (b : Block) : b.inputs.map Prod.fst = b.flatMap Tx.inputs := by
  simp [Block.inputs, List.map_flatMap, Function.comp_def]

theorem mem_ownedReceives {b : Block} {r : MatchedReceive} :
    r ∈ ownedReceives addresses b ↔
      ∃ t ∈ b, ∃ u ∈ t.blockOutputs, u.value ≤ maxMoney ∧ u.script ∈ addresses ∧
        r = ⟨⟨(u.txid, u.index), u.script⟩, u.coinbase⟩ := by
  simp only [ownedReceives, Block.outputs, List.mem_filterMap, List.mem_flatMap,
    Option.map_eq_some_iff, ownedTransparentOutput, Option.ite_none_right_eq_some,
    Option.some.injEq]
  constructor
  · rintro ⟨u, ⟨t, ht, hu⟩, out, ⟨⟨hv, hs⟩, rfl⟩, rfl⟩
    exact ⟨t, ht, u, hu, hv, hs, rfl⟩
  · rintro ⟨t, ht, u, hu, hv, hs, rfl⟩
    exact ⟨u, ⟨t, ht, hu⟩, _, ⟨⟨hv, hs⟩, rfl⟩, rfl⟩

theorem txid_of_mem_blockOutputs {t : Tx} {u : BlockOutput} (hu : u ∈ t.blockOutputs) :
    u.txid = t.txid ∧ u.coinbase = t.coinbase := by
  obtain ⟨o, _, rfl⟩ := List.mem_map.mp hu
  exact ⟨rfl, rfl⟩

theorem exists_tx_of_mem_ownedOutpoints {b : Block} {o : OutPoint}
    (ho : o ∈ ownedOutpoints addresses b) : ∃ t ∈ b, t.txid = o.1 := by
  obtain ⟨r, hr, rfl⟩ := List.mem_map.mp ho
  obtain ⟨t, ht, u, hu, _, _, rfl⟩ := mem_ownedReceives.mp hr
  exact ⟨t, ht, (txid_of_mem_blockOutputs hu).1.symm⟩

theorem range_inputs_nodup (c : Chain) (start stop : ℕ) :
    ((c.range start stop).flatMap fun x => x.2.inputs.map Prod.fst).Nodup := by
  rw [List.nodup_flatMap]
  constructor
  · intro x hx
    rw [inputs_map_fst]
    exact (List.nodup_flatten.mp c.spends_nodup).1 _ (List.mem_map_of_mem
      (f := fun b => b.flatMap Tx.inputs) (List.mem_of_getElem? (mem_range.mp hx).2.2))
  · refine (range_pairwise_lt c start stop).imp_of_mem fun {x y} hx hy hlt => ?_
    intro o hox hoy
    simp only [inputs_map_fst] at hox hoy
    have := height_unique c.spends_nodup (mem_range.mp hx).2.2 (mem_range.mp hy).2.2 hox hoy
    omega

theorem range_causal (c : Chain) (addresses : Finset Taddr) (start stop : ℕ) :
    (c.range start stop).Pairwise fun x y =>
      ∀ i ∈ x.2.inputs, i.1 ∉ ownedOutpoints addresses y.2 := by
  refine (range_pairwise_lt c start stop).imp_of_mem fun {x y} hx hy hlt i hi ho => ?_
  obtain ⟨t, ht, hit, _⟩ := mem_inputs.mp hi
  obtain ⟨t', ht', hid⟩ := exists_tx_of_mem_ownedOutpoints ho
  have hle := Chain.At.le_of_spends ⟨_, (mem_range.mp hx).2.2, ht⟩ ⟨_, (mem_range.mp hy).2.2, ht'⟩
    hit hid
  omega

end Range

end Zecd
