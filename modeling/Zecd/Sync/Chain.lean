import Mathlib
import Zecd.Sync.Matcher

/-! # The chain a scan reads

Blocks as the transparent side of the scan sees them: transactions with the outputs they
spend and the scripts they pay. A `Chain` carries what consensus guarantees of it, heights
counted from the wallet's birthday.
-/

namespace Zecd

structure Tx where
  txid : ℕ
  coinbase : Bool
  /-- The outputs it spends; a coinbase spends none. -/
  inputs : List OutPoint
  /-- The scripts it pays, with their value in zatoshis. -/
  outputs : List (Taddr × ℕ)
  deriving DecidableEq, Repr

abbrev Block := List Tx

/-- A transparent output of a block, as the block stream carries it. -/
structure BlockOutput where
  txid : ℕ
  index : ℕ
  script : Taddr
  value : ℕ
  coinbase : Bool
  deriving DecidableEq, Repr

def Tx.blockOutputs (t : Tx) : List BlockOutput :=
  t.outputs.zipIdx.map fun o => ⟨t.txid, o.2, o.1.1, o.1.2, t.coinbase⟩

namespace Block

def outputs (b : Block) : List BlockOutput := b.flatMap Tx.blockOutputs

/-- Each spent outpoint with the txid that spends it. -/
def inputs (b : Block) : List (OutPoint × ℕ) := b.flatMap fun t => t.inputs.map (·, t.txid)

end Block

def maxMoney : ℕ := 21000000 * 100000000

/-- `owned_transparent_output`: an attributable output paying one of the addresses. -/
def ownedTransparentOutput (addresses : Finset Taddr) (u : BlockOutput) : Option ReceivedOutput :=
  if u.value ≤ maxMoney ∧ u.script ∈ addresses then some ⟨(u.txid, u.index), u.script⟩ else none

/-- A chain from the birthday on: transactions and spends are unique, a spend does not precede
the output it spends, values are money, a coinbase spends nothing, and the indices of the
wallet's addresses are derivable ones. -/
structure Chain where
  blocks : List Block
  txids_nodup : (blocks.map fun b => b.map Tx.txid).flatten.Nodup
  spends_nodup : (blocks.map fun b => b.flatMap Tx.inputs).flatten.Nodup
  causal : blocks.Pairwise fun b b' => ∀ t ∈ b, ∀ o ∈ t.inputs, ∀ t' ∈ b', t'.txid ≠ o.1
  money : ∀ b ∈ blocks, ∀ t ∈ b, ∀ o ∈ t.outputs, o.2 ≤ maxMoney
  coinbase_inputs : ∀ b ∈ blocks, ∀ t ∈ b, t.coinbase = true → t.inputs = []
  derivable : ∀ b ∈ blocks, ∀ t ∈ b, ∀ o ∈ t.outputs, ∀ i ∈ (match o.1 with
    | .external i => some i
    | _ => none), i < nonHardenedChildren

namespace Chain

def range (c : Chain) (start stop : ℕ) : List (ℕ × Block) :=
  (List.range' start (stop - start)).filterMap fun h => c.blocks[h]?.map (h, ·)

def fetchTx (c : Chain) (txid : ℕ) : Option Tx := c.blocks.flatten.find? (·.txid == txid)

/-- The transaction is mined at the height. -/
def At (c : Chain) (h : ℕ) (t : Tx) : Prop := ∃ b, c.blocks[h]? = some b ∧ t ∈ b

end Chain

section Lemmas

variable {c : Chain} {h h' : ℕ} {t t' : Tx}

theorem mem_range {start stop : ℕ} {x : ℕ × Block} :
    x ∈ c.range start stop ↔ start ≤ x.1 ∧ x.1 < stop ∧ c.blocks[x.1]? = some x.2 := by
  simp only [Chain.range, List.mem_filterMap, List.mem_range'_1, Option.map_eq_some_iff]
  constructor
  · rintro ⟨h, hh, b, hb, rfl⟩
    exact ⟨hh.1, by omega, hb⟩
  · rintro ⟨h₁, h₂, hb⟩
    exact ⟨x.1, ⟨h₁, by omega⟩, x.2, hb, rfl⟩

theorem height_unique {β : Type} {f : Block → List β}
    (hn : (c.blocks.map f).flatten.Nodup) {b b' : Block} (hb : c.blocks[h]? = some b)
    (hb' : c.blocks[h']? = some b') {x : β} (hx : x ∈ f b) (hx' : x ∈ f b') : h = h' := by
  by_contra hne
  obtain ⟨hlt, rfl⟩ := List.getElem?_eq_some_iff.mp hb
  obtain ⟨hlt', rfl⟩ := List.getElem?_eq_some_iff.mp hb'
  have hdis := (List.nodup_flatten.mp hn).2
  rw [List.pairwise_map, List.pairwise_iff_getElem] at hdis
  rcases Nat.lt_or_gt_of_ne hne with hlt'' | hlt''
  · exact hdis h h' hlt hlt' hlt'' hx hx'
  · exact hdis h' h hlt' hlt hlt'' hx' hx

theorem Chain.At.mem (ht : c.At h t) : ∃ b ∈ c.blocks, t ∈ b := by
  obtain ⟨b, hb, htb⟩ := ht
  exact ⟨b, List.mem_of_getElem? hb, htb⟩

theorem Chain.At.unique (ht : c.At h t) (ht' : c.At h' t') (hid : t.txid = t'.txid) :
    h = h' ∧ t = t' := by
  obtain ⟨b, hb, htb⟩ := ht
  obtain ⟨b', hb', htb'⟩ := ht'
  have hh : h = h' := height_unique c.txids_nodup hb hb' (List.mem_map_of_mem htb)
    (hid ▸ List.mem_map_of_mem htb')
  subst hh
  rw [hb] at hb'
  cases hb'
  have hnodup := (List.nodup_flatten.mp c.txids_nodup).1 _
    (List.mem_map_of_mem (List.mem_of_getElem? hb))
  exact ⟨rfl, List.inj_on_of_nodup_map hnodup htb htb' hid⟩

theorem Chain.At.spender_unique (ht : c.At h t) (ht' : c.At h' t') {o : OutPoint}
    (ho : o ∈ t.inputs) (ho' : o ∈ t'.inputs) : h = h' ∧ t = t' := by
  obtain ⟨b, hb, htb⟩ := ht
  obtain ⟨b', hb', htb'⟩ := ht'
  have hh : h = h' := height_unique c.spends_nodup hb hb'
    (List.mem_flatMap.mpr ⟨t, htb, ho⟩) (List.mem_flatMap.mpr ⟨t', htb', ho'⟩)
  subst hh
  rw [hb] at hb'
  cases hb'
  refine ⟨rfl, ?_⟩
  by_contra hne
  have hnodup := (List.nodup_flatten.mp c.spends_nodup).1 _
    (List.mem_map_of_mem (f := fun b => b.flatMap Tx.inputs) (List.mem_of_getElem? hb))
  have hsymm : Std.Symm (Function.onFun List.Disjoint Tx.inputs) :=
    ⟨fun _ _ hd => List.disjoint_comm.mp hd⟩
  exact (List.nodup_flatMap.mp hnodup).2.forall htb htb' hne ho ho'

theorem Chain.At.le_of_spends (ht : c.At h t) (ht' : c.At h' t') {o : OutPoint}
    (ho : o ∈ t.inputs) (hid : t'.txid = o.1) : h' ≤ h := by
  obtain ⟨b, hb, htb⟩ := ht
  obtain ⟨b', hb', htb'⟩ := ht'
  obtain ⟨hlt, rfl⟩ := List.getElem?_eq_some_iff.mp hb
  obtain ⟨hlt', rfl⟩ := List.getElem?_eq_some_iff.mp hb'
  by_contra hgt
  exact List.pairwise_iff_getElem.mp c.causal h h' hlt hlt' (by omega) t htb o ho t' htb' hid

theorem Chain.At.fetchTx (ht : c.At h t) : c.fetchTx t.txid = some t := by
  obtain ⟨b, hb, htb⟩ := ht.mem
  have hmem : t ∈ c.blocks.flatten := List.mem_flatten.mpr ⟨b, hb, htb⟩
  cases hfind : c.fetchTx t.txid with
  | none =>
    have := List.find?_eq_none.mp hfind t hmem
    simp at this
  | some t' =>
    have hid : t'.txid = t.txid := by simpa using List.find?_some hfind
    obtain ⟨b', hb', htb'⟩ := List.mem_flatten.mp (List.mem_of_find?_eq_some hfind)
    obtain ⟨h', hlt', rfl⟩ := List.mem_iff_getElem.mp hb'
    have ht' : c.At h' t' := ⟨_, List.getElem?_eq_getElem hlt', htb'⟩
    rw [(ht'.unique ht hid).2]

end Lemmas

end Zecd
