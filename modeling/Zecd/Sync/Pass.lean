import Zecd.Sync.Download

/-! # What one pass of the scan does

Every receive matched against the sets of the actor is recorded, every matched spend is
stored, and the sets are marked stale whenever they are. `Pass` states all of it once; the
results about restores and about spend discovery are derived from it.
-/

namespace Zecd

/-! ## Recording -/

section Recording

variable {cfg : TransparentConfig} {gap : GapMaintenance} {c : Chain} {m : TransparentMatcher}

theorem TransparentMatcher.Serves.grow {db db' : TransparentDb} (h : m.Serves cfg db)
    (hdb : db.Grows db') : m.Serves cfg db' := by
  obtain ⟨old, rfl, hold⟩ := h
  exact ⟨old, by rw [hdb.change], hold.trans hdb.recorded⟩

structure RecordedAll (c : Chain) (gap : GapMaintenance) (acc : Recording)
    (rs : List MatchedReceive) (acc' : Recording) : Prop where
  grows : acc.db.Grows acc'.db
  received : ∀ out, out ∈ acc'.db.received ↔ out ∈ acc.db.received ∨ ∃ r ∈ rs, r.output = out
  exposed : ∀ i, i ∈ acc'.db.rows.exposed ↔
    i ∈ acc.db.rows.exposed ∨ ∃ r ∈ rs, r.output.recipient = .external i
  recorded : (∀ funded, gap funded = ∅) → ∀ i, i ∈ acc'.db.rows.recorded →
    i ∈ acc.db.rows.recorded ∨ ∃ r ∈ rs, r.output.recipient = .external i
  count : acc'.recorded = acc.recorded + rs.length
  stored_mono : ∀ t ∈ acc.stored, t ∈ acc'.stored
  stored : ∀ t ∈ acc'.stored, t ∈ acc.stored ∨
    ∃ r ∈ rs, r.coinbase = true ∧ c.fetchTx r.output.outpoint.1 = some t

theorem recordMatched_spec (c : Chain) (gap : GapMaintenance) {acc : Recording}
    {r : MatchedReceive} (hs : m.Serves cfg acc.db) (hr : r.output.recipient ∈ m.all) :
    RecordedAll c gap acc [r] (recordMatched c gap m acc r) := by
  obtain ⟨db, heq, hrec⟩ := TransparentDb.recordReceive_ok gap hs hr
  have hreceived : ∀ out, out ∈ db.received ↔
      out ∈ acc.db.received ∨ ∃ x ∈ [r], x.output = out := by
    intro out
    rw [hrec.received, Finset.mem_insert]
    simp only [List.mem_singleton, exists_eq_left]
    rw [or_comm, eq_comm]
  have hexposed : ∀ i, i ∈ db.rows.exposed ↔
      i ∈ acc.db.rows.exposed ∨ ∃ x ∈ [r], x.output.recipient = .external i := by
    simpa using hrec.exposed
  have hrecorded : (∀ funded, gap funded = ∅) → ∀ i, i ∈ db.rows.recorded →
      i ∈ acc.db.rows.recorded ∨ ∃ x ∈ [r], x.output.recipient = .external i := by
    intro hgap i hi
    simpa [hgap] using hrec.recorded i hi
  simp only [recordMatched, heq]
  split
  · rename_i hcoin
    refine ⟨hrec.grows, hreceived, hexposed, hrecorded, rfl, ?_, ?_⟩
    · intro t ht
      exact List.mem_append_left _ ht
    · intro t ht
      rcases List.mem_append.mp ht with ht | ht
      · exact .inl ht
      · exact .inr ⟨r, List.mem_cons_self, hcoin.1, by simpa using ht⟩
  · exact ⟨hrec.grows, hreceived, hexposed, hrecorded, rfl, fun _ ht => ht, fun _ ht => .inl ht⟩

theorem RecordedAll.trans {acc acc' acc'' : Recording} {rs rs' : List MatchedReceive}
    (h : RecordedAll c gap acc rs acc') (h' : RecordedAll c gap acc' rs' acc'') :
    RecordedAll c gap acc (rs ++ rs') acc'' := by
  refine ⟨h.grows.trans h'.grows, fun out => ?_, fun i => ?_, fun hgap i hi => ?_, ?_, ?_, ?_⟩
  · rw [h'.received, h.received]
    simp only [List.mem_append, or_and_right, exists_or, or_assoc]
  · rw [h'.exposed, h.exposed]
    simp only [List.mem_append, or_and_right, exists_or, or_assoc]
  · simp only [List.mem_append, or_and_right, exists_or, ← or_assoc]
    exact (h'.recorded hgap i hi).imp (h.recorded hgap i) id
  · rw [h'.count, h.count, List.length_append]
    omega
  · intro t ht
    exact h'.stored_mono t (h.stored_mono t ht)
  · intro t ht
    simp only [List.mem_append, or_and_right, exists_or, ← or_assoc]
    exact (h'.stored t ht).imp (h.stored t) id

theorem foldl_recordMatched (c : Chain) (gap : GapMaintenance) (rs : List MatchedReceive)
    (acc : Recording) (hs : m.Serves cfg acc.db) (hrs : ∀ r ∈ rs, r.output.recipient ∈ m.all) :
    RecordedAll c gap acc rs (rs.foldl (recordMatched c gap m) acc) := by
  induction rs generalizing acc with
  | nil =>
    exact ⟨.refl _, by simp, by simp, by simp, rfl, fun _ ht => ht, fun _ ht => .inl ht⟩
  | cons r rs ih =>
    have hhead := recordMatched_spec c gap hs (hrs r List.mem_cons_self)
    exact hhead.trans (ih _ (hs.grow hhead.grows) fun x hx => hrs x (List.mem_cons_of_mem _ hx))

theorem foldl_recordSpend (c : Chain) (sps : List MatchedSpend) (acc : List Tx × ℕ) :
    (∀ t, t ∈ (sps.foldl (recordSpend c) acc).1 ↔
      t ∈ acc.1 ∨ ∃ sp ∈ sps, c.fetchTx sp.spendingTxid = some t) ∧
    ((sps.foldl (recordSpend c) acc).2 = acc.2 → (sps.foldl (recordSpend c) acc).1 = acc.1) ∧
    acc.2 ≤ (sps.foldl (recordSpend c) acc).2 := by
  induction sps generalizing acc with
  | nil => simp
  | cons sp sps ih =>
    obtain ⟨hmem, hsame, hle⟩ := ih (recordSpend c acc sp)
    rw [List.foldl_cons]
    cases hf : c.fetchTx sp.spendingTxid with
    | none =>
      have hacc : recordSpend c acc sp = acc := by simp [recordSpend, hf]
      rw [hacc] at hmem hsame hle ⊢
      exact ⟨fun t => by rw [hmem]; simp [hf], hsame, hle⟩
    | some u =>
      have hacc : recordSpend c acc sp = (acc.1 ++ [u], acc.2 + 1) := by simp [recordSpend, hf]
      rw [hacc] at hmem hsame hle ⊢
      refine ⟨fun t => ?_, fun heq => ?_, ?_⟩
      · rw [hmem, List.mem_append, List.mem_singleton, or_assoc, eq_comm (a := t)]
        simp only [List.mem_cons, exists_eq_or_imp, hf, Option.some.injEq]
      · exact absurd heq (by simp only at hle; omega)
      · simp only at hle
        omega

end Recording

/-! ## The pass -/

/-- A set not marked stale is the one a rebuild would give. -/
structure SyncState.Fresh (cfg : TransparentConfig) (s : SyncState) : Prop where
  matcher : s.setDirty = false →
    s.matcher = some (rebuildTransparentSet cfg s.db.rows s.db.change)
  unspent : s.unspentDirty = false →
    s.unspent = some (unspentTransparentOutpoints s.db s.stored)

/-- The addresses the scan matches, as the rows stand. -/
def SyncState.addresses (cfg : TransparentConfig) (s : SyncState) : Finset Taddr :=
  (rebuildTransparentSet cfg s.db.rows s.db.change).all

/-- The spend of this outpoint is seen by a scan of these blocks: it is watched when the scan
starts, or received within it. -/
def SyncState.Watches (cfg : TransparentConfig) (s : SyncState) (bs : List (ℕ × Block))
    (o : OutPoint) : Prop :=
  o ∈ unspentTransparentOutpoints s.db s.stored ∨
    ∃ y ∈ bs, o ∈ ownedOutpoints (s.addresses cfg) y.2

/-- What a pass that scanned these blocks does to the actor. -/
structure Pass (cfg : TransparentConfig) (gap : GapMaintenance) (c : Chain)
    (bs : List (ℕ × Block)) (s s' : SyncState) : Prop where
  grows : s.db.Grows s'.db
  received : ∀ out, out ∈ s'.db.received ↔ out ∈ s.db.received ∨
    ∃ x ∈ bs, ∃ r ∈ ownedReceives (s.addresses cfg) x.2, r.output = out
  exposed : ∀ i, i ∈ s'.db.rows.exposed ↔ i ∈ s.db.rows.exposed ∨
    ∃ x ∈ bs, ∃ r ∈ ownedReceives (s.addresses cfg) x.2, r.output.recipient = .external i
  recorded : (∀ funded, gap funded = ∅) → ∀ i, i ∈ s'.db.rows.recorded →
    i ∈ s.db.rows.recorded ∨
      ∃ x ∈ bs, ∃ r ∈ ownedReceives (s.addresses cfg) x.2, r.output.recipient = .external i
  stored_mono : ∀ t ∈ s.stored, t ∈ s'.stored
  spends : ∀ x ∈ bs, ∀ t ∈ x.2, ∀ o ∈ t.inputs, s.Watches cfg bs o → t ∈ s'.stored
  stored : ∀ t ∈ s'.stored, t ∈ s.stored ∨ t.inputs = [] ∨
    ∃ x ∈ bs, t ∈ x.2 ∧ ∃ o ∈ t.inputs, s.Watches cfg bs o
  fresh : s'.Fresh cfg

section Pass

variable {cfg : TransparentConfig} {gap : GapMaintenance} {c : Chain} {batchSize : ℕ}
  {s : SyncState} {e : ScanEvent}

theorem SyncState.Fresh.refresh (h : s.Fresh cfg) :
    s.refresh cfg =
      { s with
        matcher := some (rebuildTransparentSet cfg s.db.rows s.db.change)
        setDirty := false
        unspent := some (unspentTransparentOutpoints s.db s.stored)
        unspentDirty := false } := by
  obtain ⟨⟨db, matcher, setDirty⟩, stored, unspent, unspentDirty⟩ := s
  obtain ⟨hm, hu⟩ := h
  cases setDirty <;> cases unspentDirty <;> simp_all [SyncState.refresh]

theorem recipient_mem_of_owned {addresses : Finset Taddr} {b : Block} {r : MatchedReceive}
    (hr : r ∈ ownedReceives addresses b) : r.output.recipient ∈ addresses := by
  obtain ⟨t, _, u, _, _, hs, rfl⟩ := mem_ownedReceives.mp hr
  exact hs

theorem inputs_nil_of_coinbase {addresses : Finset Taddr} {start stop : ℕ} {x : ℕ × Block}
    (hx : x ∈ c.range start stop) {r : MatchedReceive} (hr : r ∈ ownedReceives addresses x.2)
    (hcoin : r.coinbase = true) {t : Tx} (ht : c.fetchTx r.output.outpoint.1 = some t) :
    t.inputs = [] := by
  obtain ⟨t', ht', u, hu, _, _, rfl⟩ := mem_ownedReceives.mp hr
  obtain ⟨hid, hcb⟩ := txid_of_mem_blockOutputs hu
  have hat : c.At x.1 t' := ⟨x.2, (mem_range.mp hx).2.2, ht'⟩
  simp only [hid, hat.fetchTx, Option.some.injEq] at ht
  subst ht
  obtain ⟨b, hb, htb⟩ := hat.mem
  exact c.coinbase_inputs b hb t' htb (hcb ▸ hcoin)

structure Matched (cfg : TransparentConfig) (s : SyncState) (bs : List (ℕ × Block))
    (p : DownloadProgress) : Prop where
  received : ∀ r, r ∈ p.received ↔ ∃ x ∈ bs, r ∈ ownedReceives (s.addresses cfg) x.2
  spent : ∀ sp, sp ∈ p.spent ↔
    ∃ x ∈ bs, ∃ t ∈ x.2, ∃ o ∈ t.inputs, s.Watches cfg bs o ∧ sp = ⟨t.txid, x.1⟩

theorem download_matched {p : DownloadProgress}
    (h : downloadBlocks (some (s.addresses cfg)) e.sheds 0 (e.blocks c batchSize)
      ⟨0, [], [], some (unspentTransparentOutpoints s.db s.stored)⟩ = some p) :
    Matched cfg s (e.blocks c batchSize) p := by
  obtain ⟨hrec, hspent⟩ := DownloadProgress.foldl_block (e.blocks c batchSize)
    (p := ⟨0, [], [], some (unspentTransparentOutpoints s.db s.stored)⟩) rfl
    (range_inputs_nodup c _ _) (range_causal c (s.addresses cfg) _ _)
  rw [downloadBlocks_eq h]
  constructor
  · intro r
    simp only [hrec, List.nil_append, List.mem_flatMap]
  · intro sp
    rw [hspent]
    simp only [List.not_mem_nil, false_or]
    constructor
    · rintro ⟨x, hx, i, hi, hw, rfl⟩
      obtain ⟨t, ht, ho, hid⟩ := mem_inputs.mp hi
      exact ⟨x, hx, t, ht, i.1, ho, hw, by rw [hid]⟩
    · rintro ⟨x, hx, t, ht, o, ho, hw, rfl⟩
      exact ⟨x, hx, (o, t.txid), mem_inputs.mpr ⟨t, ht, ho, rfl⟩, hw, rfl⟩

theorem syncStep_pass (gap : GapMaintenance) (hfresh : s.Fresh cfg) (he : e.Succeeds c batchSize) :
    Pass cfg gap c (e.blocks c batchSize) s (syncStep cfg gap c batchSize s e) := by
  simp only [syncStep, hfresh.refresh, Option.map_some]
  cases hd : downloadBlocks (some (rebuildTransparentSet cfg s.db.rows s.db.change).all) e.sheds 0
      (e.blocks c batchSize) ⟨0, [], [], some (unspentTransparentOutpoints s.db s.stored)⟩ with
  | none => exact absurd hd (he _ _)
  | some p =>
    have hmatch : Matched cfg s (e.blocks c batchSize) p := download_matched hd
    have hserves : (rebuildTransparentSet cfg s.db.rows s.db.change).Serves cfg s.db :=
      ⟨s.db.rows, rfl, subset_rfl⟩
    have hfold := foldl_recordMatched c gap p.received ⟨s.db, s.stored, [], 0⟩ hserves (by
      intro r hr
      obtain ⟨x, _, hx⟩ := (hmatch.received r).mp hr
      exact recipient_mem_of_owned hx)
    simp only [SyncState.apply]
    generalize hacc : SyncState.recordReceives c gap _ p.received = acc
    have hrec : RecordedAll c gap ⟨s.db, s.stored, [], 0⟩ p.received acc := hacc ▸ hfold
    obtain ⟨hstored, hsame, _⟩ := foldl_recordSpend c p.spent (acc.stored, 0)
    have hidle : acc.recorded = 0 → acc.db = s.db ∧ acc.stored = s.stored := by
      intro h0
      have hnil : p.received = [] := List.eq_nil_of_length_eq_zero (by
        rw [hrec.count] at h0; simpa using h0)
      rw [← hacc, hnil]
      exact ⟨rfl, rfl⟩
    have hlift : ∀ P : MatchedReceive → Prop, (∃ r ∈ p.received, P r) ↔
        ∃ x ∈ e.blocks c batchSize, ∃ r ∈ ownedReceives (s.addresses cfg) x.2, P r := by
      intro P
      constructor
      · rintro ⟨r, hr, hP⟩
        obtain ⟨x, hx, hr⟩ := (hmatch.received r).mp hr
        exact ⟨x, hx, r, hr, hP⟩
      · rintro ⟨x, hx, r, hr, hP⟩
        exact ⟨r, (hmatch.received r).mpr ⟨x, hx, hr⟩, hP⟩
    refine ⟨hrec.grows, ?_, ?_, ?_, ?_, ?_, ?_, ?_, ?_⟩
    · intro out
      rw [hrec.received, hlift fun r => r.output = out]
    · intro i
      rw [hrec.exposed, hlift fun r => r.output.recipient = .external i]
    · intro hgap i hi
      rw [← hlift fun r => r.output.recipient = .external i]
      exact hrec.recorded hgap i hi
    · intro t ht
      exact (hstored t).mpr (.inl (hrec.stored_mono t ht))
    · intro x hx t ht o ho hw
      have hat : c.At x.1 t := ⟨x.2, (mem_range.mp hx).2.2, ht⟩
      exact (hstored t).mpr (.inr ⟨⟨t.txid, x.1⟩,
        (hmatch.spent _).mpr ⟨x, hx, t, ht, o, ho, hw, rfl⟩, hat.fetchTx⟩)
    · intro t ht
      rcases (hstored t).mp ht with ht | ⟨sp, hsp, hf⟩
      · rcases hrec.stored t ht with ht | ⟨r, hr, hcoin, hf⟩
        · exact .inl ht
        · obtain ⟨x, hx, hr⟩ := (hmatch.received r).mp hr
          exact .inr (.inl (inputs_nil_of_coinbase hx hr hcoin hf))
      · obtain ⟨x, hx, t', ht', o, ho, hw, rfl⟩ := (hmatch.spent sp).mp hsp
        have hat : c.At x.1 t' := ⟨x.2, (mem_range.mp hx).2.2, ht'⟩
        simp only [hat.fetchTx, Option.some.injEq] at hf
        subst hf
        exact .inr (.inr ⟨x, hx, ht', o, ho, hw⟩)
    · intro hclean
      have h0 : acc.recorded = 0 := by simpa using hclean
      simp only [(hidle h0).1]
    · intro hclean
      simp only [Bool.false_or, Bool.or_eq_false_iff, decide_eq_false_iff_not] at hclean
      obtain ⟨hdb, hst⟩ := hidle (by omega)
      have hnone : (p.spent.foldl (recordSpend c) (acc.stored, 0)).1 = s.stored :=
        (hsame (by simp only; omega)).trans hst
      simp only [hnone, hdb]

end Pass

/-! ## What the chain pays -/

/-- The script belongs to the wallet's keys. -/
def Taddr.IsWallet : Taddr → Prop
  | .external _ | .internal _ => True
  | .foreign _ => False

/-- The block at the height holds this output, and it pays the wallet. -/
def Chain.Pays (c : Chain) (h : ℕ) (out : ReceivedOutput) : Prop :=
  ∃ t, c.At h t ∧ (∃ u ∈ t.blockOutputs, out = ⟨(u.txid, u.index), u.script⟩) ∧
    out.recipient.IsWallet

def ScanEvent.Scans (c : Chain) (batchSize : ℕ) (e : ScanEvent) (h : ℕ) : Prop :=
  ∃ b, (h, b) ∈ e.blocks c batchSize

section Pays

variable {cfg : TransparentConfig} {c : Chain} {batchSize : ℕ} {s : SyncState} {e : ScanEvent}
  {h : ℕ} {t : Tx} {out : ReceivedOutput}

theorem scans_at {b : Block} (hb : (h, b) ∈ e.blocks c batchSize) : c.blocks[h]? = some b :=
  (mem_range.mp hb).2.2

theorem mem_block_of_scans (hs : e.Scans c batchSize h) (ht : c.At h t) :
    ∃ b, (h, b) ∈ e.blocks c batchSize ∧ t ∈ b := by
  obtain ⟨b, hb⟩ := hs
  obtain ⟨b', hb', htb⟩ := ht
  rw [scans_at hb] at hb'
  cases hb'
  exact ⟨b, hb, htb⟩

theorem exists_owned_iff {b : Block} (hb : c.blocks[h]? = some b) :
    (∃ r ∈ ownedReceives (s.addresses cfg) b, r.output = out) ↔
      c.Pays h out ∧ out.recipient ∈ s.addresses cfg := by
  constructor
  · rintro ⟨r, hr, rfl⟩
    obtain ⟨t, ht, u, hu, _, hs, rfl⟩ := mem_ownedReceives.mp hr
    refine ⟨⟨t, ⟨b, hb, ht⟩, ⟨u, hu, rfl⟩, ?_⟩, hs⟩
    cases hsc : u.script with
    | external i => exact trivial
    | internal i => exact trivial
    | foreign x => simp [SyncState.addresses, rebuildTransparentSet, hsc] at hs
  · rintro ⟨⟨t, ⟨b', hb', htb⟩, ⟨u, hu, rfl⟩, _⟩, hs⟩
    rw [hb] at hb'
    cases hb'
    refine ⟨⟨⟨(u.txid, u.index), u.script⟩, u.coinbase⟩,
      mem_ownedReceives.mpr ⟨t, htb, u, hu, ?_, hs, rfl⟩, rfl⟩
    obtain ⟨x, hx, rfl⟩ := List.mem_map.mp hu
    exact c.money b (List.mem_of_getElem? hb) t htb x.1
      ((List.mem_zipIdx' hx).2 ▸ List.getElem_mem _)

/-- What a pass records: what the scanned blocks pay the wallet at matched addresses. -/
theorem Pass.received_iff {gap : GapMaintenance} {s' : SyncState}
    (hpass : Pass cfg gap c (e.blocks c batchSize) s s') :
    out ∈ s'.db.received ↔ out ∈ s.db.received ∨
      ∃ h, e.Scans c batchSize h ∧ c.Pays h out ∧ out.recipient ∈ s.addresses cfg := by
  rw [hpass.received]
  apply or_congr_right
  constructor
  · rintro ⟨x, hx, hr⟩
    exact ⟨x.1, ⟨x.2, hx⟩, (exists_owned_iff (scans_at hx)).mp hr⟩
  · rintro ⟨h, ⟨b, hb⟩, hpays⟩
    exact ⟨(h, b), hb, (exists_owned_iff (scans_at hb)).mpr hpays⟩

end Pays

end Zecd
