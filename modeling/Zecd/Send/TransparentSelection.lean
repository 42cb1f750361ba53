import Zecd.Foundation.Greedy
import Zecd.Send.Actor
import Zecd.Send.CountCeilings

/-! # The inputs of a transparent send

The selection takes the shortest list of largest outputs that balances, and finds one whenever
any of the outputs would do, as long as no sum or product of it overflows.
-/

namespace Zecd

open Greedy

section Selection

variable (recipientsTotal recipOutSize changeOutSize p2pkhOutSize marginal grace : ℕ)

def outBytes (hasChange : Bool) : ℕ :=
  if hasChange then recipOutSize + changeOutSize else recipOutSize

/-- A transaction of `n` inputs worth `total` in all balances: they are paid out, left as fee
or kept as change, at the fee of the outputs it has. -/
structure BalancedTx (n total change fee : ℕ) (hasChange : Bool) : Prop where
  inputs : 0 < n
  balance : total = recipientsTotal + fee + change
  fee : fee = marginal *
    max grace (max n (outBytes recipOutSize changeOutSize hasChange ⌈/⌉ p2pkhOutSize))
  change : hasChange = true ↔ 0 < change

def Admits (n total : ℕ) : Prop :=
  ∃ change fee hasChange, BalancedTx recipientsTotal recipOutSize changeOutSize p2pkhOutSize
    marginal grace n total change fee hasChange

/-- What one round of the selection answers for `n` inputs worth `total`. -/
def balancedAt (n total : ℕ) : Option (ℕ × ℕ × ℕ × Bool) :=
  let feeC := transparentFee n (recipOutSize + changeOutSize) p2pkhOutSize marginal grace
  let feeN := transparentFee n recipOutSize p2pkhOutSize marginal grace
  if recipientsTotal + feeC < total then
    some (n, total - recipientsTotal - feeC, feeC, true)
  else if total = recipientsTotal + feeN then some (n, 0, feeN, false)
  else none

end Selection

section Rounds

variable {recipientsTotal recipOutSize changeOutSize p2pkhOutSize marginal grace : ℕ}
  {n total change fee : ℕ} {hasChange : Bool}

theorem transparentFee_eq (out : ℕ) : transparentFee n out p2pkhOutSize marginal grace =
    marginal * max grace (max n (out ⌈/⌉ p2pkhOutSize)) := by
  rw [transparentFee, Nat.ceilDiv_eq_add_pred_div]

theorem transparentFee_mono {m out out' : ℕ} (hn : n ≤ m) (hout : out ≤ out') :
    transparentFee n out p2pkhOutSize marginal grace ≤
      transparentFee m out' p2pkhOutSize marginal grace :=
  Nat.mul_le_mul_left _ (max_le_max le_rfl (max_le_max hn (Nat.div_le_div_right (by omega))))

/-- A round answers exactly with the balanced transaction of its inputs, and there is at most
one: the fee without change is not above the fee with it. -/
theorem balancedAt_eq_some (hn : 0 < n) {m : ℕ} :
    balancedAt recipientsTotal recipOutSize changeOutSize p2pkhOutSize marginal grace n total =
        some (m, change, fee, hasChange) ↔
      m = n ∧ BalancedTx recipientsTotal recipOutSize changeOutSize p2pkhOutSize marginal grace n
        total change fee hasChange := by
  have hfees : transparentFee n recipOutSize p2pkhOutSize marginal grace ≤
      transparentFee n (recipOutSize + changeOutSize) p2pkhOutSize marginal grace :=
    transparentFee_mono le_rfl (Nat.le_add_right _ _)
  unfold balancedAt
  dsimp only
  constructor
  · intro h
    split_ifs at h with hcover hexact
    · obtain ⟨rfl, rfl, rfl, rfl⟩ := by simpa using h
      refine ⟨rfl, hn, ?_, transparentFee_eq _, iff_of_true rfl ?_⟩ <;> omega
    · obtain ⟨rfl, rfl, rfl, rfl⟩ := by simpa using h
      exact ⟨rfl, hn, hexact, transparentFee_eq _, by simp⟩
  · rintro ⟨rfl, hb⟩
    have hbalance := hb.balance
    have hchange := hb.change
    have hfee := hb.fee
    rw [← transparentFee_eq] at hfee
    cases hasChange with
    | true =>
      have hpos := hchange.mp rfl
      rw [outBytes, if_pos rfl] at hfee
      rw [if_pos (by omega), hfee]
      congr 3
      omega
    | false =>
      rw [outBytes, if_neg Bool.false_ne_true] at hfee
      have hzero : ¬ 0 < change := fun h => absurd (hchange.mpr h) Bool.false_ne_true
      rw [if_neg (by omega), if_pos (by omega), hfee]
      congr 3
      omega

theorem balancedAt_eq_none (hn : 0 < n) :
    balancedAt recipientsTotal recipOutSize changeOutSize p2pkhOutSize marginal grace n total =
        none ↔
      ¬ Admits recipientsTotal recipOutSize changeOutSize p2pkhOutSize marginal grace n total := by
  rw [Option.eq_none_iff_forall_ne_some]
  constructor
  · rintro h ⟨change, fee, hasChange, hb⟩
    exact h _ ((balancedAt_eq_some hn).mpr ⟨rfl, hb⟩)
  · rintro h ⟨m, change, fee, hasChange⟩ hs
    exact h ⟨change, fee, hasChange, ((balancedAt_eq_some hn).mp hs).2⟩

theorem admits_of_lt (hn : 0 < n)
    (h : recipientsTotal +
      transparentFee n (recipOutSize + changeOutSize) p2pkhOutSize marginal grace < total) :
    Admits recipientsTotal recipOutSize changeOutSize p2pkhOutSize marginal grace n total :=
  ⟨_, _, true, ((balancedAt_eq_some hn).mp (if_pos h)).2⟩

variable (recipientsTotal recipOutSize changeOutSize p2pkhOutSize marginal grace) in
theorem selectTransparentInputsFrom_eq (n total : ℕ) (vs : List ℕ) :
    selectTransparentInputsFrom recipientsTotal recipOutSize changeOutSize p2pkhOutSize marginal
        grace n total vs =
      firstPrefix (balancedAt recipientsTotal recipOutSize changeOutSize p2pkhOutSize marginal
        grace) n total vs := by
  induction vs generalizing n total with
  | nil => rfl
  | cons v vs ih =>
    simp only [selectTransparentInputsFrom, firstPrefix, balancedAt, ih]
    split_ifs <;> first | rfl | omega

end Rounds

variable {recipientsTotal recipOutSize changeOutSize p2pkhOutSize marginal grace : ℕ}

/-- The selection is the shortest prefix of the outputs that balances, and no selection of any
`k` of them that covers the recipients and the fee with change is missed: it takes at most `k`. -/
theorem selectTransparentInputs_spec {values : List ℕ} (hsorted : values.Pairwise (· ≥ ·)) :
    (∀ n change fee hasChange,
      selectTransparentInputs values recipientsTotal recipOutSize changeOutSize p2pkhOutSize
          marginal grace = some (n, change, fee, hasChange) →
        n ≤ values.length ∧
        BalancedTx recipientsTotal recipOutSize changeOutSize p2pkhOutSize marginal grace n
          (values.take n).sum change fee hasChange ∧
        ∀ m, 0 < m → m < n → ¬ Admits recipientsTotal recipOutSize changeOutSize p2pkhOutSize
          marginal grace m (values.take m).sum) ∧
    ∀ chosen : Multiset ℕ, chosen ≤ ↑values →
      recipientsTotal + transparentFee chosen.card (recipOutSize + changeOutSize) p2pkhOutSize
        marginal grace < chosen.sum →
      ∃ n change fee hasChange,
        selectTransparentInputs values recipientsTotal recipOutSize changeOutSize p2pkhOutSize
          marginal grace = some (n, change, fee, hasChange) ∧ n ≤ chosen.card := by
  simp only [selectTransparentInputs, selectTransparentInputsFrom_eq]
  constructor
  · intro n change fee hasChange h
    obtain ⟨m, hm, hle, hacc, hmin⟩ := firstPrefix_eq_some h
    simp only [Nat.zero_add] at hacc hmin
    obtain ⟨rfl, hb⟩ := (balancedAt_eq_some hm).mp hacc
    exact ⟨hle, hb, fun j hj hlt => (balancedAt_eq_none hj).mp (hmin j hj hlt)⟩
  · intro chosen hchosen hcover
    have hsum := multiset_sum_le_sum_take hsorted hchosen
    have hcard : chosen.card ≤ values.length := Multiset.card_le_card hchosen
    have hpos : 0 < chosen.card := by
      rw [Multiset.card_pos]
      rintro rfl
      simp at hcover
    have hadmits := admits_of_lt hpos (hcover.trans_le hsum)
    cases h : firstPrefix (balancedAt recipientsTotal recipOutSize changeOutSize p2pkhOutSize
        marginal grace) 0 0 values with
    | none =>
      have := firstPrefix_eq_none.mp h chosen.card hpos hcard
      rw [Nat.zero_add, Nat.zero_add, balancedAt_eq_none hpos] at this
      exact absurd hadmits this
    | some r =>
      obtain ⟨n, change, fee, hasChange⟩ := r
      refine ⟨n, change, fee, hasChange, rfl, ?_⟩
      obtain ⟨m, hm, -, hacc, hmin⟩ := firstPrefix_eq_some h
      simp only [Nat.zero_add] at hacc hmin
      obtain ⟨rfl, -⟩ := (balancedAt_eq_some hm).mp hacc
      by_contra hlt
      exact (balancedAt_eq_none hpos).mp (hmin _ hpos (by omega)) hadmits

/-! ## Machine arithmetic -/

section Machine

variable (recipientsTotal recipOutSize changeOutSize p2pkhOutSize marginal grace)

def transparentFeeChecked (nIn outBytes : ℕ) : Option ℕ :=
  usizeMul (usize marginal)
    (usize (max grace (max nIn ((outBytes + p2pkhOutSize - 1) / p2pkhOutSize))))

/-- The loop in 64-bit arithmetic: `none` once an operation overflows. -/
def selectTransparentInputsFromChecked : ℕ → ℕ → List ℕ → Option (Option (ℕ × ℕ × ℕ × Bool))
  | _, _, [] => some none
  | nIn, total, v :: vs => do
    let total ← usize (total + v)
    let nIn := nIn + 1
    let out ← usize (recipOutSize + changeOutSize)
    let feeC ← transparentFeeChecked p2pkhOutSize marginal grace nIn out
    let neededC ← usize (recipientsTotal + feeC)
    let rest := selectTransparentInputsFromChecked nIn total vs
    if neededC ≤ total then
      let change := total - recipientsTotal - feeC
      if 0 < change then some (some (nIn, change, feeC, true))
      else
        let feeN ← transparentFeeChecked p2pkhOutSize marginal grace nIn recipOutSize
        let neededN ← usize (recipientsTotal + feeN)
        if total = neededN then some (some (nIn, 0, feeN, false)) else rest
    else
      let feeN ← transparentFeeChecked p2pkhOutSize marginal grace nIn recipOutSize
      let neededN ← usize (recipientsTotal + feeN)
      if total = neededN then some (some (nIn, 0, feeN, false)) else rest

def transparentFeeWrapping (nIn outBytes : ℕ) : ℕ :=
  wrap (marginal * max grace (max nIn ((outBytes + p2pkhOutSize - 1) / p2pkhOutSize)))

/-- A `u64` difference of a release build. -/
def wrapSub (x y : ℕ) : ℕ := wrap (x + (2 ^ 64 - y))

/-- The loop of a release build. -/
def selectTransparentInputsFromWrapping : ℕ → ℕ → List ℕ → Option (ℕ × ℕ × ℕ × Bool)
  | _, _, [] => none
  | nIn, total, v :: vs =>
    let total := wrap (total + v)
    let nIn := nIn + 1
    let feeC := transparentFeeWrapping p2pkhOutSize marginal grace nIn
      (wrap (recipOutSize + changeOutSize))
    let feeN := transparentFeeWrapping p2pkhOutSize marginal grace nIn recipOutSize
    let rest := selectTransparentInputsFromWrapping nIn total vs
    if wrap (recipientsTotal + feeC) ≤ total then
      let change := wrapSub (wrapSub total recipientsTotal) feeC
      if 0 < change then some (nIn, change, feeC, true)
      else if total = wrap (recipientsTotal + feeN) then some (nIn, 0, feeN, false)
      else rest
    else if total = wrap (recipientsTotal + feeN) then some (nIn, 0, feeN, false)
    else rest

/-- What is paid for `n` inputs, with the fee of all outputs, is a machine integer. -/
structure FitsMachine (n : ℕ) : Prop where
  inputs : n ≤ usizeMax
  graceActions : grace ≤ usizeMax
  outputs : recipOutSize + changeOutSize ≤ usizeMax
  marginalFee : marginal ≤ usizeMax
  needed : recipientsTotal +
    transparentFee n (recipOutSize + changeOutSize) p2pkhOutSize marginal grace ≤ usizeMax

variable {recipientsTotal recipOutSize changeOutSize p2pkhOutSize marginal grace}

theorem ceilDiv_le_self (a b : ℕ) : (a + b - 1) / b ≤ a := by
  rcases Nat.eq_zero_or_pos b with rfl | hb
  · simp
  · rw [← Nat.lt_succ_iff, Nat.div_lt_iff_lt_mul hb, Nat.succ_mul]
    have := Nat.le_mul_of_pos_right a hb
    omega

theorem transparentFeeChecked_eq {n m out : ℕ} (hn : n ≤ m)
    (hout : out ≤ recipOutSize + changeOutSize)
    (h : FitsMachine recipientsTotal recipOutSize changeOutSize p2pkhOutSize marginal grace m) :
    transparentFeeChecked p2pkhOutSize marginal grace n out =
        some (transparentFee n out p2pkhOutSize marginal grace) ∧
      usize (recipientsTotal + transparentFee n out p2pkhOutSize marginal grace) =
        some (recipientsTotal + transparentFee n out p2pkhOutSize marginal grace) := by
  have hneeded : recipientsTotal + transparentFee n out p2pkhOutSize marginal grace ≤ usizeMax :=
    (Nat.add_le_add_left (transparentFee_mono hn hout) _).trans h.needed
  have hactions : max grace (max n ((out + p2pkhOutSize - 1) / p2pkhOutSize)) ≤ usizeMax :=
    max_le h.graceActions (max_le (hn.trans h.inputs)
      (((ceilDiv_le_self out p2pkhOutSize).trans hout).trans h.outputs))
  constructor
  · rw [transparentFeeChecked, usize_of_le h.marginalFee, usize_of_le hactions]
    exact usize_of_le ((Nat.le_add_left _ _).trans hneeded)
  · exact usize_of_le hneeded

theorem selectTransparentInputsFromChecked_eq {n total : ℕ} {vs : List ℕ}
    (hsum : total + vs.sum ≤ usizeMax)
    (h : FitsMachine recipientsTotal recipOutSize changeOutSize p2pkhOutSize marginal grace
      (n + vs.length)) :
    selectTransparentInputsFromChecked recipientsTotal recipOutSize changeOutSize p2pkhOutSize
        marginal grace n total vs =
      some (selectTransparentInputsFrom recipientsTotal recipOutSize changeOutSize p2pkhOutSize
        marginal grace n total vs) := by
  induction vs generalizing n total with
  | nil => rfl
  | cons v vs ih =>
    rw [List.sum_cons] at hsum
    rw [List.length_cons, ← Nat.add_assoc, Nat.add_right_comm] at h
    have hn : n + 1 ≤ n + 1 + vs.length := Nat.le_add_right _ _
    obtain ⟨hfeeC, hneededC⟩ := transparentFeeChecked_eq hn le_rfl h
    obtain ⟨hfeeN, hneededN⟩ := transparentFeeChecked_eq hn (Nat.le_add_right _ _) h
    have hsum' : total + v + vs.sum ≤ usizeMax := by omega
    have hrest := ih hsum' h
    simp only [selectTransparentInputsFromChecked, selectTransparentInputsFrom,
      usize_of_le (show total + v ≤ usizeMax by omega), usize_of_le h.outputs, hfeeC, hneededC,
      hfeeN, hneededN, hrest, Option.bind_eq_bind, Option.bind_some]
    split_ifs <;> rfl

theorem selectTransparentInputsChecked_eq {values : List ℕ} (hsum : values.sum < 2 ^ 63)
    (h : FitsMachine recipientsTotal recipOutSize changeOutSize p2pkhOutSize marginal grace
      values.length) :
    selectTransparentInputsFromChecked recipientsTotal recipOutSize changeOutSize p2pkhOutSize
        marginal grace 0 0 values =
      some (selectTransparentInputs values recipientsTotal recipOutSize changeOutSize
        p2pkhOutSize marginal grace) := by
  refine selectTransparentInputsFromChecked_eq ?_ (by rwa [Nat.zero_add])
  rw [usizeMax]
  omega

theorem transparentFeeChecked_eq_some {n out fee : ℕ}
    (h : transparentFeeChecked p2pkhOutSize marginal grace n out = some fee) :
    transparentFee n out p2pkhOutSize marginal grace = fee ∧
      transparentFeeWrapping p2pkhOutSize marginal grace n out = fee ∧ fee ≤ usizeMax := by
  simp only [transparentFeeChecked, usizeMul, Checked.mul, Checked.apply, Option.bind_eq_bind,
    Option.bind_eq_some_iff] at h
  obtain ⟨x, hx, y, hy, hxy⟩ := h
  obtain ⟨rfl, -⟩ := usize_eq_some hx
  obtain ⟨rfl, -⟩ := usize_eq_some hy
  obtain ⟨rfl, hle⟩ := usize_eq_some hxy
  exact ⟨rfl, wrap_of_le hle, hle⟩

theorem wrapSub_of_le {x y : ℕ} (hx : x ≤ usizeMax) (h : y ≤ x) : wrapSub x y = x - y := by
  rw [usizeMax] at hx
  rw [wrapSub, wrap, show x + (2 ^ 64 - y) = x - y + 2 ^ 64 by omega, Nat.add_mod_right]
  exact Nat.mod_eq_of_lt (by omega)

theorem noChangeChecked_eq_some {n total : ℕ} {result : Option (ℕ × ℕ × ℕ × Bool)}
    {restExact restWrapping : Option (ℕ × ℕ × ℕ × Bool)}
    {restChecked : Option (Option (ℕ × ℕ × ℕ × Bool))}
    (hrest : restChecked = some result → restExact = result ∧ restWrapping = result)
    (h : (transparentFeeChecked p2pkhOutSize marginal grace n recipOutSize).bind (fun feeN =>
      (usize (recipientsTotal + feeN)).bind fun neededN =>
        if total = neededN then some (some (n, 0, feeN, false)) else restChecked) = some result) :
    (if total = recipientsTotal + transparentFee n recipOutSize p2pkhOutSize marginal grace then
        some (n, 0, transparentFee n recipOutSize p2pkhOutSize marginal grace, false)
      else restExact) = result ∧
    (if total = wrap (recipientsTotal +
          transparentFeeWrapping p2pkhOutSize marginal grace n recipOutSize) then
        some (n, 0, transparentFeeWrapping p2pkhOutSize marginal grace n recipOutSize, false)
      else restWrapping) = result := by
  simp only [Option.bind_eq_some_iff] at h
  obtain ⟨feeN, hfeeN, neededN, hneededN, h⟩ := h
  obtain ⟨hexact, hwrapping, -⟩ := transparentFeeChecked_eq_some hfeeN
  obtain ⟨rfl, hle⟩ := usize_eq_some hneededN
  rw [hexact, hwrapping, wrap_of_le hle]
  split_ifs at h ⊢ with hcover
  · exact ⟨Option.some.inj h, Option.some.inj h⟩
  · exact hrest h

/-- A loop that does not overflow is the loop of a release build, and that of exact arithmetic. -/
theorem selectTransparentInputsFromChecked_eq_some {n total : ℕ} {vs : List ℕ}
    {result : Option (ℕ × ℕ × ℕ × Bool)}
    (h : selectTransparentInputsFromChecked recipientsTotal recipOutSize changeOutSize
      p2pkhOutSize marginal grace n total vs = some result) :
    selectTransparentInputsFrom recipientsTotal recipOutSize changeOutSize p2pkhOutSize marginal
        grace n total vs = result ∧
      selectTransparentInputsFromWrapping recipientsTotal recipOutSize changeOutSize p2pkhOutSize
        marginal grace n total vs = result := by
  induction vs generalizing n total with
  | nil => exact ⟨Option.some.inj h, Option.some.inj h⟩
  | cons v vs ih =>
    simp only [selectTransparentInputsFromChecked, Option.bind_eq_bind,
      Option.bind_eq_some_iff] at h
    obtain ⟨total', htotal, out, hout, feeC, hfeeC, neededC, hneededC, h⟩ := h
    obtain ⟨rfl, htotal_le⟩ := usize_eq_some htotal
    obtain ⟨rfl, hout_le⟩ := usize_eq_some hout
    obtain ⟨hexact, hwrapping, -⟩ := transparentFeeChecked_eq_some hfeeC
    obtain ⟨rfl, hneeded_le⟩ := usize_eq_some hneededC
    simp only [selectTransparentInputsFrom, selectTransparentInputsFromWrapping,
      wrap_of_le htotal_le, wrap_of_le hout_le, wrap_of_le hneeded_le, hexact, hwrapping]
    split at h
    · next hcover =>
      have hchange : wrapSub (wrapSub (total + v) recipientsTotal) feeC =
          total + v - recipientsTotal - feeC := by
        rw [wrapSub_of_le htotal_le (by omega), wrapSub_of_le (by omega) (by omega)]
      rw [if_pos hcover, if_pos hcover, hchange]
      split at h
      · next hpos =>
        rw [if_pos hpos, if_pos hpos]
        exact ⟨Option.some.inj h, Option.some.inj h⟩
      · next hzero =>
        rw [if_neg hzero, if_neg hzero]
        exact noChangeChecked_eq_some ih h
    · next hshort =>
      rw [if_neg hshort, if_neg hshort]
      exact noChangeChecked_eq_some ih h

end Machine

/-- `select_transparent_inputs` of a release build. -/
def selectTransparentInputsWrapping (valuesDesc : List ℕ) (recipientsTotal recipOutSize
    changeOutSize p2pkhOutSize marginal grace : ℕ) : Option (ℕ × ℕ × ℕ × Bool) :=
  selectTransparentInputsFromWrapping recipientsTotal recipOutSize changeOutSize p2pkhOutSize
    marginal grace 0 0 valuesDesc

/-- Where the loop does not overflow, it answers with the shortest prefix of the outputs that
balances, and misses no selection that covers the recipients and the fee with change. It does not
overflow if the most that is paid is a machine integer. -/
theorem selectTransparentInputsWrapping_spec {values : List ℕ}
    (hsorted : values.Pairwise (· ≥ ·)) (hsum : values.sum < 2 ^ 63) :
    (FitsMachine recipientsTotal recipOutSize changeOutSize p2pkhOutSize marginal grace
        values.length →
      (selectTransparentInputsFromChecked recipientsTotal recipOutSize changeOutSize p2pkhOutSize
        marginal grace 0 0 values).isSome) ∧
    ∀ result, selectTransparentInputsFromChecked recipientsTotal recipOutSize changeOutSize
        p2pkhOutSize marginal grace 0 0 values = some result →
      selectTransparentInputsWrapping values recipientsTotal recipOutSize changeOutSize
        p2pkhOutSize marginal grace = result ∧
      (∀ n change fee hasChange, result = some (n, change, fee, hasChange) →
        n ≤ values.length ∧
        BalancedTx recipientsTotal recipOutSize changeOutSize p2pkhOutSize marginal grace n
          (values.take n).sum change fee hasChange ∧
        ∀ m, 0 < m → m < n → ¬ Admits recipientsTotal recipOutSize changeOutSize p2pkhOutSize
          marginal grace m (values.take m).sum) ∧
      ∀ chosen : Multiset ℕ, chosen ≤ ↑values →
        recipientsTotal + transparentFee chosen.card (recipOutSize + changeOutSize) p2pkhOutSize
          marginal grace < chosen.sum →
        ∃ n change fee hasChange,
          result = some (n, change, fee, hasChange) ∧ n ≤ chosen.card := by
  constructor
  · intro hfits
    rw [selectTransparentInputsChecked_eq hsum hfits]
    rfl
  · intro result h
    obtain ⟨hexact, hwrapping⟩ := selectTransparentInputsFromChecked_eq_some h
    obtain rfl : selectTransparentInputs values recipientsTotal recipOutSize changeOutSize
        p2pkhOutSize marginal grace = result := hexact
    exact ⟨hwrapping, selectTransparentInputs_spec hsorted⟩

/-- Two of three outputs cover a payment of 25000 and leave change. -/
theorem threeOutputs_selected :
    selectTransparentInputsWrapping [30000, 20000, 10000] 25000 34 34 34 5000 2 =
        some (2, 15000, 10000, true) ∧
      BalancedTx 25000 34 34 34 5000 2 2 50000 15000 10000 true := by
  have hchecked : selectTransparentInputsFromChecked 25000 34 34 34 5000 2 0 0
      [30000, 20000, 10000] = some (some (2, 15000, 10000, true)) := by decide
  obtain ⟨hwrapping, hsound, -⟩ :=
    (selectTransparentInputsWrapping_spec (by decide) (by decide)).2 _ hchecked
  exact ⟨hwrapping, (hsound _ _ _ _ rfl).2.1⟩

/-- A total close to 2 ^ 64 wraps around with the fee: one output of 50000 is taken to cover it, and
to leave change. -/
theorem hugeTotal_selected :
    [50000].Pairwise (· ≥ ·) ∧ [50000].sum < 2 ^ 63 ∧
    selectTransparentInputsFromChecked (2 ^ 64 - 5001) 34 34 34 5000 2 0 0 [50000] = none ∧
    selectTransparentInputsWrapping [50000] (2 ^ 64 - 5001) 34 34 34 5000 2 =
      some (1, 45001, 10000, true) ∧
    ¬ BalancedTx (2 ^ 64 - 5001) 34 34 34 5000 2 1 ([50000].take 1).sum 45001 10000 true := by
  refine ⟨by decide, by decide, by decide, by decide, fun hb => ?_⟩
  exact absurd hb.balance (by decide)

end Zecd
