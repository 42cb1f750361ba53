import Zecd.Sync.Pass

/-! # Transparent spend discovery

The scan finds a spend only if one of the wallet outputs the transaction consumes is known
when its block is downloaded. Whatever the order of the batches, the wallet ends with the
unspent set of the chain exactly when every spending transaction is scanned no earlier than
the funding of some wallet output it spends.
-/

namespace Zecd

open Runs

/-! ## The chain's own account -/

def Taddr.HasRow (rows : AddressRows) (change : Finset ℕ) : Taddr → Prop
  | .external i => i ∈ rows.recorded
  | .internal i => i ∈ change
  | .foreign _ => True

instance (rows : AddressRows) (change : Finset ℕ) : DecidablePred (Taddr.HasRow rows change)
  | .external i => inferInstanceAs (Decidable (i ∈ rows.recorded))
  | .internal i => inferInstanceAs (Decidable (i ∈ change))
  | .foreign _ => inferInstanceAs (Decidable True)

namespace Chain

def PaysAt (c : Chain) (h : ℕ) (o : OutPoint) : Prop := ∃ out, c.Pays h out ∧ out.outpoint = o

/-- An output paying the wallet that no transaction of the chain spends. -/
def Unspent (c : Chain) (o : OutPoint) : Prop :=
  (∃ h, c.PaysAt h o) ∧ ∀ h t, c.At h t → o ∉ t.inputs

def PaysRows (c : Chain) (rows : AddressRows) (change : Finset ℕ) : Prop :=
  ∀ h out, c.Pays h out → out.recipient.HasRow rows change

end Chain

/-- Some pass scans the transaction's block when the funding of a wallet output it spends was
scanned in that pass or an earlier one. -/
def SpendSeen (c : Chain) (batchSize : ℕ) (es : List ScanEvent) (h : ℕ) (t : Tx) : Prop :=
  ∃ (k : ℕ) (e : ScanEvent), es[k]? = some e ∧ e.Scans c batchSize h ∧ ∃ o ∈ t.inputs,
    ∃ (j : ℕ) (e' : ScanEvent) (h' : ℕ), j ≤ k ∧ es[j]? = some e' ∧ e'.Scans c batchSize h' ∧
      c.PaysAt h' o

section Lemmas

variable {cfg : TransparentConfig} {gap : GapMaintenance} {c : Chain} {batchSize : ℕ}
  {rows : AddressRows} {change : Finset ℕ} {s : SyncState} {e : ScanEvent} {es : List ScanEvent}
  {h : ℕ} {t : Tx} {o : OutPoint}

theorem mem_owned_iff_pays (hrows : c.PaysRows rows change)
    (hold : rows.recorded ⊆ s.db.rows.recorded) (hchange : s.db.change = change) {b : Block}
    (hb : c.blocks[h]? = some b) {out : ReceivedOutput} :
    (∃ r ∈ ownedReceives (s.addresses cfg) b, r.output = out) ↔ c.Pays h out := by
  rw [exists_owned_iff hb]
  refine and_iff_left_of_imp fun hpays => ?_
  have hrow := hrows h out hpays
  obtain ⟨_, _, _, hw⟩ := hpays
  cases hsc : out.recipient with
  | external i =>
    simp only [hsc, Taddr.HasRow] at hrow
    simp [SyncState.addresses, rebuildTransparentSet, hold hrow]
  | internal i =>
    simp only [hsc, Taddr.HasRow] at hrow
    simp [SyncState.addresses, rebuildTransparentSet, hchange, hrow]
  | foreign x => simp [Taddr.IsWallet, hsc] at hw

theorem mem_ownedOutpoints_iff (hrows : c.PaysRows rows change)
    (hold : rows.recorded ⊆ s.db.rows.recorded) (hchange : s.db.change = change) {b : Block}
    (hb : c.blocks[h]? = some b) :
    o ∈ ownedOutpoints (s.addresses cfg) b ↔ c.PaysAt h o := by
  constructor
  · intro ho
    obtain ⟨r, hr, rfl⟩ := List.mem_map.mp ho
    exact ⟨r.output, (mem_owned_iff_pays hrows hold hchange hb).mp ⟨r, hr, rfl⟩, rfl⟩
  · rintro ⟨out, hout, rfl⟩
    obtain ⟨r, hr, rfl⟩ := (mem_owned_iff_pays hrows hold hchange hb).mpr hout
    exact List.mem_map_of_mem hr

theorem getElem?_concat_eq_some {α : Type} {l : List α} {a x : α} {k : ℕ} :
    (l ++ [a])[k]? = some x ↔ l[k]? = some x ∨ k = l.length ∧ x = a := by
  rcases Nat.lt_trichotomy k l.length with hk | rfl | hk
  · rw [List.getElem?_append_left hk]
    simp [Nat.ne_of_lt hk]
  · simp [eq_comm]
  · rw [List.getElem?_eq_none (by simp; omega), List.getElem?_eq_none (by omega)]
    simp
    omega

end Lemmas

/-! ## The invariant -/

/-- After these passes the wallet holds what they scanned, and the spends they could see. -/
structure DiscoveryInv (cfg : TransparentConfig) (c : Chain) (batchSize : ℕ) (rows : AddressRows)
    (change : Finset ℕ) (es : List ScanEvent) (s : SyncState) : Prop where
  fresh : s.Fresh cfg
  rows_subset : rows.recorded ⊆ s.db.rows.recorded
  change_eq : s.db.change = change
  received : ∀ out, out ∈ s.db.received ↔
    ∃ (j : ℕ) (e : ScanEvent) (h : ℕ), es[j]? = some e ∧ e.Scans c batchSize h ∧ c.Pays h out
  stored_seen : ∀ t ∈ s.stored, t.inputs = [] ∨ ∃ h, c.At h t ∧ SpendSeen c batchSize es h t
  seen_stored : ∀ h t, c.At h t → SpendSeen c batchSize es h t → t ∈ s.stored

section Invariant

variable {cfg : TransparentConfig} {gap : GapMaintenance} {c : Chain} {batchSize : ℕ}
  {rows : AddressRows} {change : Finset ℕ} {s : SyncState} {e : ScanEvent} {es : List ScanEvent}
  {h : ℕ} {t : Tx}

theorem discoveryInv_start :
    DiscoveryInv cfg c batchSize rows change [] (.start rows change) := by
  refine ⟨⟨nofun, nofun⟩, subset_rfl, rfl, ?_, ?_, ?_⟩
  · simp [SyncState.start]
  · simp [SyncState.start]
  · rintro h t _ ⟨k, e, hk, _⟩
    simp at hk

theorem SpendSeen.concat (hseen : SpendSeen c batchSize es h t) (e : ScanEvent) :
    SpendSeen c batchSize (es ++ [e]) h t := by
  obtain ⟨k, x, hk, hx, o, ho, j, y, h', hjk, hj, hy, hpays⟩ := hseen
  exact ⟨k, x, getElem?_concat_eq_some.mpr (.inl hk), hx, o, ho, j, y, h', hjk,
    getElem?_concat_eq_some.mpr (.inl hj), hy, hpays⟩

/-- The last pass sees a spend of what any pass so far has scanned. -/
theorem SpendSeen.last (hh : e.Scans c batchSize h) {o : OutPoint} (ho : o ∈ t.inputs) {j h' : ℕ}
    {y : ScanEvent} (hj : (es ++ [e])[j]? = some y) (hy : y.Scans c batchSize h')
    (hpays : c.PaysAt h' o) : SpendSeen c batchSize (es ++ [e]) h t := by
  obtain ⟨hlt, _⟩ := List.getElem?_eq_some_iff.mp hj
  rw [List.length_append, List.length_singleton] at hlt
  exact ⟨es.length, e, getElem?_concat_eq_some.mpr (.inr ⟨rfl, rfl⟩), hh, o, ho, j, y, h',
    by omega, hj, hy, hpays⟩

theorem DiscoveryInv.step (hinv : DiscoveryInv cfg c batchSize rows change es s)
    (hrows : c.PaysRows rows change) (he : e.Succeeds c batchSize) :
    DiscoveryInv cfg c batchSize rows change (es ++ [e]) (syncStep cfg gap c batchSize s e) := by
  have hpass := syncStep_pass gap hinv.fresh he
  have howned : ∀ {h b} {o : OutPoint}, (h, b) ∈ e.blocks c batchSize →
      (o ∈ ownedOutpoints (s.addresses cfg) b ↔ c.PaysAt h o) := fun hb =>
    mem_ownedOutpoints_iff hrows hinv.rows_subset hinv.change_eq (scans_at hb)
  have hlast : (es ++ [e])[es.length]? = some e := getElem?_concat_eq_some.mpr (.inr ⟨rfl, rfl⟩)
  -- an outpoint watched by the pass was paid in a block that this or an earlier pass scanned
  have hwatch : ∀ o, s.Watches cfg (e.blocks c batchSize) o → ∃ (j : ℕ) (y : ScanEvent) (h' : ℕ),
      (es ++ [e])[j]? = some y ∧ y.Scans c batchSize h' ∧ c.PaysAt h' o := by
    rintro o (ho | ⟨y, hy, ho⟩)
    · obtain ⟨ho, _⟩ := Finset.mem_filter.mp ho
      obtain ⟨out, hout, rfl⟩ := Finset.mem_image.mp ho
      obtain ⟨j, y, h', hj, hy, hpays⟩ := (hinv.received out).mp hout
      exact ⟨j, y, h', getElem?_concat_eq_some.mpr (.inl hj), hy, out, hpays, rfl⟩
    · exact ⟨es.length, e, y.1, hlast, ⟨y.2, hy⟩, (howned hy).mp ho⟩
  refine ⟨hpass.fresh, hinv.rows_subset.trans hpass.grows.recorded,
    hpass.grows.change.trans hinv.change_eq, ?_, ?_, ?_⟩
  · intro out
    rw [hpass.received, hinv.received]
    constructor
    · rintro (⟨j, y, h', hj, hy, hpays⟩ | ⟨x, hx, r, hr, rfl⟩)
      · exact ⟨j, y, h', getElem?_concat_eq_some.mpr (.inl hj), hy, hpays⟩
      · refine ⟨es.length, e, x.1, hlast, ⟨x.2, hx⟩, ?_⟩
        exact (mem_owned_iff_pays hrows hinv.rows_subset hinv.change_eq (scans_at hx)).mp
          ⟨r, hr, rfl⟩
    · rintro ⟨j, y, h', hj, ⟨b, hb⟩, hpays⟩
      rcases getElem?_concat_eq_some.mp hj with hj | ⟨_, rfl⟩
      · exact .inl ⟨j, y, h', hj, ⟨b, hb⟩, hpays⟩
      · exact .inr ⟨(h', b), hb, (mem_owned_iff_pays hrows hinv.rows_subset hinv.change_eq
          (scans_at hb)).mpr hpays⟩
  · intro t ht
    rcases hpass.stored t ht with ht | hnil | ⟨x, hx, htx, o, ho, hw⟩
    · rcases hinv.stored_seen t ht with hnil | ⟨h, hat, hseen⟩
      · exact .inl hnil
      · exact .inr ⟨h, hat, hseen.concat e⟩
    · exact .inl hnil
    · obtain ⟨j, y, h', hj, hy, hpays⟩ := hwatch o hw
      exact .inr ⟨x.1, ⟨x.2, scans_at hx, htx⟩, .last ⟨x.2, hx⟩ ho hj hy hpays⟩
  · rintro h t hat ⟨k, x, hk, hx, o, ho, j, y, h', hjk, hj, hy, hpays⟩
    rcases getElem?_concat_eq_some.mp hk with hk | ⟨rfl, rfl⟩
    · -- an earlier pass saw it already
      have hlt := (List.getElem?_eq_some_iff.mp hk).1
      have hj' : es[j]? = some y := (getElem?_concat_eq_some.mp hj).resolve_right (by omega)
      exact hpass.stored_mono t (hinv.seen_stored h t hat
        ⟨k, x, hk, hx, o, ho, j, y, h', hjk, hj', hy, hpays⟩)
    · obtain ⟨b, hb, htb⟩ := mem_block_of_scans hx hat
      rcases getElem?_concat_eq_some.mp hj with hj | ⟨_, rfl⟩
      · obtain ⟨out, hout, rfl⟩ := hpays
        by_cases hspent : ∀ u ∈ s.stored, out.outpoint ∉ u.inputs
        · have hrec := (hinv.received out).mpr ⟨j, y, h', hj, hy, hout⟩
          refine hpass.spends (h, b) hb t htb _ ho (.inl (Finset.mem_filter.mpr ⟨?_, hspent⟩))
          exact Finset.mem_image_of_mem _ hrec
        · -- the output is spent already, and its only spender is this transaction
          push Not at hspent
          obtain ⟨u, hu, hou⟩ := hspent
          rcases hinv.stored_seen u hu with hnil | ⟨h'', hat', _⟩
          · rw [hnil] at hou; cases hou
          · rw [(hat.spender_unique hat' ho hou).2]
            exact hpass.stored_mono u hu
      · obtain ⟨b', hb'⟩ := hy
        exact hpass.spends (h, b) hb t htb o ho (.inr ⟨(h', b'), hb', (howned hb').mpr hpays⟩)

theorem discoveryInv_run (cfg : TransparentConfig) (gap : GapMaintenance)
    (hrows : c.PaysRows rows change) (hsucc : ∀ e ∈ es, e.Succeeds c batchSize) :
    DiscoveryInv cfg c batchSize rows change es
      (run (syncStep cfg gap c batchSize) (.start rows change) es) := by
  induction es using List.reverseRecOn with
  | nil => exact discoveryInv_start
  | append_singleton es e ih =>
    rw [run_append, run_cons, run_nil]
    exact (ih fun x hx => hsucc x (List.mem_append_left _ hx)).step hrows
      (hsucc e (List.mem_append_right _ List.mem_cons_self))

end Invariant

/-! ## The result -/

def CoversChain (c : Chain) (batchSize : ℕ) (es : List ScanEvent) : Prop :=
  ∀ h < c.blocks.length, ∃ e ∈ es, e.Scans c batchSize h

/-- The wallet ends with the unspent outputs of the chain. -/
def SpendsDiscovered (cfg : TransparentConfig) (gap : GapMaintenance) (c : Chain) (batchSize : ℕ)
    (rows : AddressRows) (change : Finset ℕ) (es : List ScanEvent) : Prop :=
  ∀ o, o ∈ unspentTransparentOutpoints
      (run (syncStep cfg gap c batchSize) (.start rows change) es).db
      (run (syncStep cfg gap c batchSize) (.start rows change) es).stored ↔ c.Unspent o

/-- Every transaction that spends a wallet output is scanned when the funding of one of those
outputs was. -/
def FundingScannedFirst (c : Chain) (batchSize : ℕ) (es : List ScanEvent) : Prop :=
  ∀ h t, c.At h t → (∃ o ∈ t.inputs, ∃ h', c.PaysAt h' o) → SpendSeen c batchSize es h t

theorem spendsDiscovered_iff (cfg : TransparentConfig) (gap : GapMaintenance) (c : Chain)
    (batchSize : ℕ) (rows : AddressRows) (change : Finset ℕ) (es : List ScanEvent)
    (hrows : c.PaysRows rows change) (hsucc : ∀ e ∈ es, e.Succeeds c batchSize)
    (hcover : CoversChain c batchSize es) :
    SpendsDiscovered cfg gap c batchSize rows change es ↔ FundingScannedFirst c batchSize es := by
  have hinv := discoveryInv_run cfg gap hrows hsucc
  unfold SpendsDiscovered
  generalize run (syncStep cfg gap c batchSize) (.start rows change) es = s at hinv ⊢
  have hreceived : ∀ out, out ∈ s.db.received ↔ ∃ h, c.Pays h out := by
    intro out
    rw [hinv.received]
    constructor
    · rintro ⟨_, _, h, _, _, hpays⟩
      exact ⟨h, hpays⟩
    · rintro ⟨h, hpays⟩
      obtain ⟨t, ⟨b, hb, _⟩, _⟩ := id hpays
      obtain ⟨e, he, hscan⟩ := hcover h (List.getElem?_eq_some_iff.mp hb).1
      obtain ⟨j, hj⟩ := List.mem_iff_getElem?.mp he
      exact ⟨j, e, h, hj, hscan, hpays⟩
  have hunspent : ∀ o, o ∈ unspentTransparentOutpoints s.db s.stored ↔
      (∃ h, c.PaysAt h o) ∧ ∀ t ∈ s.stored, o ∉ t.inputs := by
    intro o
    rw [unspentTransparentOutpoints, Finset.mem_filter, Finset.mem_image]
    refine and_congr_left fun _ => ?_
    constructor
    · rintro ⟨out, hout, rfl⟩
      obtain ⟨h, hpays⟩ := (hreceived out).mp hout
      exact ⟨h, out, hpays, rfl⟩
    · rintro ⟨h, out, hpays, rfl⟩
      exact ⟨out, (hreceived out).mpr ⟨h, hpays⟩, rfl⟩
  simp only [hunspent, Chain.Unspent]
  constructor
  · rintro hsame h t hat ⟨o, ho, hpaid⟩
    have hnot : ¬ ∀ u ∈ s.stored, o ∉ u.inputs := fun hclean =>
      ((hsame o).mp ⟨hpaid, hclean⟩).2 h t hat ho
    push Not at hnot
    obtain ⟨u, hu, hou⟩ := hnot
    rcases hinv.stored_seen u hu with hnil | ⟨h', hat', hseen⟩
    · rw [hnil] at hou; cases hou
    · obtain ⟨rfl, rfl⟩ := hat.spender_unique hat' ho hou
      exact hseen
  · intro hfirst o
    refine and_congr_right fun hpaid => ?_
    constructor
    · intro hclean h t hat ho
      exact hclean t (hinv.seen_stored h t hat (hfirst h t hat ⟨o, ho, hpaid⟩)) ho
    · intro hclean t ht ho
      rcases hinv.stored_seen t ht with hnil | ⟨h, hat, _⟩
      · rw [hnil] at ho; cases ho
      · exact hclean h t hat ho

/-! ## A spend scanned before its funding -/

theorem Chain.paysRows_of_forall {c : Chain} {rows : AddressRows} {change : Finset ℕ}
    (h : ∀ b ∈ c.blocks, ∀ t ∈ b, ∀ u ∈ t.blockOutputs, u.script.HasRow rows change) :
    c.PaysRows rows change := by
  rintro height out ⟨t, hat, ⟨u, hu, rfl⟩, _⟩
  obtain ⟨b, hb, ht⟩ := hat.mem
  exact h b hb t ht u hu

/-- A payment to the wallet in one block, and its spend in the next. -/
def spentNextBlock : Chain where
  blocks := [[⟨1, false, [], [(.external 0, 1000)]⟩], [⟨2, false, [(1, 0)], [(.foreign 9, 900)]⟩]]
  txids_nodup := by decide
  spends_nodup := by decide
  causal := by decide
  money := by decide
  coinbase_inputs := by decide
  derivable := by decide

theorem spentNextBlock_paysRows : spentNextBlock.PaysRows (freshAccount sparseConfig) ∅ :=
  Chain.paysRows_of_forall (by decide)

theorem succeeds_of_no_sheds (c : Chain) (batchSize : ℕ) (range : ScanRange) :
    ScanEvent.Succeeds c batchSize ⟨range, []⟩ := fun _ _ => Option.some_ne_none _

/-- The tip is scanned first: the spend passes unmatched, and the output stays unspent. -/
theorem tipFirst_spend_missed :
    spentNextBlock.PaysRows (freshAccount sparseConfig) ∅ ∧
    (∀ e ∈ [⟨⟨1, 2, false⟩, []⟩, ⟨⟨0, 1, false⟩, []⟩], ScanEvent.Succeeds spentNextBlock 10000 e) ∧
    CoversChain spentNextBlock 10000 [⟨⟨1, 2, false⟩, []⟩, ⟨⟨0, 1, false⟩, []⟩] ∧
    ¬ SpendsDiscovered sparseConfig (fullGap sparseConfig) spentNextBlock 10000
      (freshAccount sparseConfig) ∅ [⟨⟨1, 2, false⟩, []⟩, ⟨⟨0, 1, false⟩, []⟩] := by
  refine ⟨spentNextBlock_paysRows, ?_, ?_, ?_⟩
  · intro e he
    simp only [List.mem_cons, List.not_mem_nil, or_false] at he
    rcases he with rfl | rfl <;> exact succeeds_of_no_sheds _ _ _
  · intro h hh
    match h, hh with
    | 0, _ => exact ⟨_, List.mem_cons_of_mem _ List.mem_cons_self, _, List.mem_cons_self⟩
    | 1, _ => exact ⟨_, List.mem_cons_self, _, List.mem_cons_self⟩
  · intro h
    have hkept := (h (1, 0)).mp (by decide)
    exact hkept.2 1 _ ⟨_, rfl, List.mem_cons_self⟩ List.mem_cons_self

/-- One batch over both blocks finds the spend. -/
theorem oneBatch_spend_found :
    CoversChain spentNextBlock 10000 [⟨⟨0, 2, false⟩, []⟩] ∧
    SpendsDiscovered sparseConfig (fullGap sparseConfig) spentNextBlock 10000
      (freshAccount sparseConfig) ∅ [⟨⟨0, 2, false⟩, []⟩] := by
  have hscan : ∀ h < spentNextBlock.blocks.length,
      ScanEvent.Scans spentNextBlock 10000 ⟨⟨0, 2, false⟩, []⟩ h := by
    intro h hh
    match h, hh with
    | 0, _ => exact ⟨_, List.mem_cons_self⟩
    | 1, _ => exact ⟨_, List.mem_cons_of_mem _ List.mem_cons_self⟩
  have hcover : CoversChain spentNextBlock 10000 [⟨⟨0, 2, false⟩, []⟩] := fun h hh =>
    ⟨_, List.mem_cons_self, hscan h hh⟩
  refine ⟨hcover, (spendsDiscovered_iff sparseConfig (fullGap sparseConfig) spentNextBlock 10000
    (freshAccount sparseConfig) ∅ _ spentNextBlock_paysRows ?_ hcover).mpr ?_⟩
  · intro e he
    rw [List.mem_singleton.mp he]
    exact succeeds_of_no_sheds _ _ _
  · rintro h t ⟨b, hb, _⟩ ⟨o, ho, h', hpaid⟩
    obtain ⟨out, ⟨t', ⟨b', hb', _⟩, _⟩, _⟩ := id hpaid
    exact ⟨0, _, rfl, hscan h (List.getElem?_eq_some_iff.mp hb).1, o, ho, 0, _, h', le_rfl, rfl,
      hscan h' (List.getElem?_eq_some_iff.mp hb').1, hpaid⟩

end Zecd
