import Zecd.Foundation.Checked
import Zecd.Send.TxSize

/-! # Count ceilings

Each ceiling on a count is the largest count whose shape is within the byte ceiling, and the
machine's arithmetic finds it unless it overflows: a debug build stops there, a release build
wraps around and goes on.
-/

namespace Zecd

open Bisect

/-! ## The size in machine arithmetic -/

def usize (n : ℕ) : Option ℕ := Checked.fit (· ≤ usizeMax) n

def usizeAdd (x y : Option ℕ) : Option ℕ := Checked.add (· ≤ usizeMax) x y

def usizeMul (x y : Option ℕ) : Option ℕ := Checked.mul (· ≤ usizeMax) x y

def orchardProtocolBytesChecked (actions : ℕ) : Option ℕ :=
  usizeAdd (usize (compactSizeBytes actions)) <|
    if 0 < actions then
      (usizeAdd (usize orchardProofBaseBytes)
        (usizeMul (usize actions) (usize orchardProofPerActionBytes))).bind fun proof =>
      usizeAdd (usizeAdd (usizeAdd (usize orchardBundleFixedBytes)
        (usizeMul (usize actions) (usize orchardActionBytes)))
        (usize (compactSizeBytes proof))) (usize proof)
    else usize 0

def saplingBytesChecked (spends outputs : ℕ) : Option ℕ :=
  usizeAdd (usizeAdd (usize (compactSizeBytes spends)) (usize (compactSizeBytes outputs))) <|
    if 0 < spends ∨ 0 < outputs then
      usizeAdd (usizeAdd (usize saplingBundleFixedBytes)
        (usizeMul (usize spends) (usize saplingSpendBytes)))
        (usizeMul (usize outputs) (usize saplingOutputBytes))
    else usize 0

def transparentBytesChecked (inputs outputs : ℕ) : Option ℕ :=
  usizeAdd (usizeAdd (usizeAdd (usize (compactSizeBytes inputs))
    (usizeMul (usize inputs) (usize transparentInputBytes)))
    (usize (compactSizeBytes outputs))) (usizeMul (usize outputs) (usize transparentOutputBytes))

/-- The estimate as the machine computes it: `none` once a product or a sum overflows. -/
def estimateBytesChecked (s : TxShape) : Option ℕ :=
  usizeAdd (usizeAdd (usizeAdd (usizeAdd (usize headerBytes)
    (transparentBytesChecked s.transparentInputs s.transparentOutputs))
    (saplingBytesChecked s.saplingSpends s.saplingOutputs))
    (orchardProtocolBytesChecked s.orchardActions))
    (orchardProtocolBytesChecked s.ironwoodActions)

/-- A `usize` sum or product of a release build. -/
def wrap (n : ℕ) : ℕ := n % 2 ^ 64

def orchardProtocolBytesWrapping (actions : ℕ) : ℕ :=
  wrap (compactSizeBytes actions +
    if 0 < actions then
      let proof := wrap (orchardProofBaseBytes + wrap (actions * orchardProofPerActionBytes))
      wrap (wrap (wrap (orchardBundleFixedBytes + wrap (actions * orchardActionBytes)) +
        compactSizeBytes proof) + proof)
    else 0)

def saplingBytesWrapping (spends outputs : ℕ) : ℕ :=
  wrap (wrap (compactSizeBytes spends + compactSizeBytes outputs) +
    if 0 < spends ∨ 0 < outputs then
      wrap (wrap (saplingBundleFixedBytes + wrap (spends * saplingSpendBytes)) +
        wrap (outputs * saplingOutputBytes))
    else 0)

def transparentBytesWrapping (inputs outputs : ℕ) : ℕ :=
  wrap (wrap (wrap (compactSizeBytes inputs + wrap (inputs * transparentInputBytes)) +
    compactSizeBytes outputs) + wrap (outputs * transparentOutputBytes))

def estimateBytesWrapping (s : TxShape) : ℕ :=
  wrap (wrap (wrap (wrap (headerBytes +
    transparentBytesWrapping s.transparentInputs s.transparentOutputs) +
    saplingBytesWrapping s.saplingSpends s.saplingOutputs) +
    orchardProtocolBytesWrapping s.orchardActions) +
    orchardProtocolBytesWrapping s.ironwoodActions)

structure TxShape.ProductsFit (s : TxShape) : Prop where
  transparentInputs : s.transparentInputs * transparentInputBytes ≤ usizeMax
  transparentOutputs : s.transparentOutputs * transparentOutputBytes ≤ usizeMax
  saplingSpends : s.saplingSpends * saplingSpendBytes ≤ usizeMax
  saplingOutputs : s.saplingOutputs * saplingOutputBytes ≤ usizeMax
  proofs : ∀ actions ∈ [s.orchardActions, s.ironwoodActions],
    actions * orchardProofPerActionBytes ≤ usizeMax
  actions : ∀ actions ∈ [s.orchardActions, s.ironwoodActions],
    actions * orchardActionBytes ≤ usizeMax

section Exact

variable {a b n : ℕ}

@[simp] theorem usizeAdd_usize : usizeAdd (usize a) (usize b) = usize (a + b) :=
  Checked.add_fit fun h => by omega

theorem usizeAdd_none (x : Option ℕ) : usizeAdd x none = none := by
  cases x <;> rfl

theorem usizeMul_usize (hb : 0 < b) (hmax : b ≤ usizeMax) :
    usizeMul (usize a) (usize b) = usize (a * b) := by
  refine Checked.mul_fit fun h => ⟨(Nat.le_mul_of_pos_right a hb).trans h, hmax⟩

theorem orchardProtocolBytesChecked_eq (actions : ℕ) :
    orchardProtocolBytesChecked actions = usize (orchardProtocolBytes actions) := by
  have hper := usizeMul_usize (a := actions) (b := orchardProofPerActionBytes) (by decide)
    (by decide)
  have haction := usizeMul_usize (a := actions) (b := orchardActionBytes) (by decide) (by decide)
  simp only [orchardProtocolBytesChecked, orchardProtocolBytes, hper, haction, usizeAdd_usize]
  split
  · by_cases hproof :
      orchardProofBaseBytes + actions * orchardProofPerActionBytes ≤ usizeMax
    · rw [show usize _ = some _ from Checked.fit_of_inRange hproof, Option.bind_some]
      simp only [usizeAdd_usize]
    · rw [show usize _ = none from if_neg hproof, Option.bind_none]
      rw [usizeAdd_none]
      exact (if_neg (by omega)).symm
  · rw [usizeAdd_usize]

theorem saplingBytesChecked_eq (spends outputs : ℕ) :
    saplingBytesChecked spends outputs = usize (saplingBytes spends outputs) := by
  have hspend := usizeMul_usize (a := spends) (b := saplingSpendBytes) (by decide) (by decide)
  have houtput := usizeMul_usize (a := outputs) (b := saplingOutputBytes) (by decide) (by decide)
  simp only [saplingBytesChecked, saplingBytes, hspend, houtput, usizeAdd_usize]
  split <;> rw [usizeAdd_usize]

theorem transparentBytesChecked_eq (inputs outputs : ℕ) :
    transparentBytesChecked inputs outputs = usize (transparentBytes inputs outputs) := by
  have hin := usizeMul_usize (a := inputs) (b := transparentInputBytes) (by decide) (by decide)
  have hout := usizeMul_usize (a := outputs) (b := transparentOutputBytes) (by decide) (by decide)
  simp only [transparentBytesChecked, transparentBytes, hin, hout, usizeAdd_usize]

theorem estimateBytesChecked_eq (s : TxShape) :
    estimateBytesChecked s = usize (estimateBytes s) := by
  simp only [estimateBytesChecked, transparentBytesChecked_eq, saplingBytesChecked_eq,
    orchardProtocolBytesChecked_eq, usizeAdd_usize, estimateBytes]

theorem usize_of_le (h : n ≤ usizeMax) : usize n = some n := if_pos h

theorem usize_eq_some {m : ℕ} (h : usize n = some m) : n = m ∧ n ≤ usizeMax := by
  unfold usize Checked.fit at h
  split at h
  · next hle => exact ⟨Option.some.inj h, hle⟩
  · cases h

theorem wrap_of_le (h : n ≤ usizeMax) : wrap n = n :=
  Nat.mod_eq_of_lt (by rw [usizeMax] at h; omega)

theorem transparentBytesWrapping_eq (h : transparentBytes a b ≤ usizeMax) :
    transparentBytesWrapping a b = transparentBytes a b := by
  unfold transparentBytes at h
  simp (disch := omega) only [transparentBytesWrapping, transparentBytes, wrap_of_le]

theorem saplingBytesWrapping_eq (h : saplingBytes a b ≤ usizeMax) :
    saplingBytesWrapping a b = saplingBytes a b := by
  unfold saplingBytes at h
  simp only [saplingBytesWrapping, saplingBytes]
  split at h
  · next hany => simp (disch := omega) only [if_pos hany, wrap_of_le]
  · next hnone => simp (disch := omega) only [if_neg hnone, wrap_of_le]

theorem orchardProtocolBytesWrapping_eq (h : orchardProtocolBytes a ≤ usizeMax) :
    orchardProtocolBytesWrapping a = orchardProtocolBytes a := by
  unfold orchardProtocolBytes at h
  simp only [orchardProtocolBytesWrapping, orchardProtocolBytes]
  split at h
  · next hpos =>
    dsimp only at h
    simp (disch := omega) only [if_pos hpos, wrap_of_le]
  · next hnone => simp (disch := omega) only [if_neg hnone, wrap_of_le]

theorem estimateBytesWrapping_eq {s : TxShape} (h : estimateBytes s ≤ usizeMax) :
    estimateBytesWrapping s = estimateBytes s := by
  unfold estimateBytes at h
  rw [estimateBytesWrapping, transparentBytesWrapping_eq (by omega),
    saplingBytesWrapping_eq (by omega), orchardProtocolBytesWrapping_eq (by omega),
    orchardProtocolBytesWrapping_eq (by omega)]
  simp (disch := omega) only [wrap_of_le, estimateBytes]

end Exact

/-! ## The three ceilings -/

def largestFittingChecked (maxBytes : ℕ) (shape : TxShape) (set : TxShape → ℕ → TxShape) :
    Option ℕ :=
  let fits n := (estimateBytesChecked (set shape n)).map fun bytes => decide (bytes ≤ maxBytes)
  if maxBytes = 0 then some usizeMax
  else (fits 0).bind fun fit => if fit then bisectChecked fits 0 maxBytes else some 0

def largestFittingWrapping (maxBytes : ℕ) (shape : TxShape) (set : TxShape → ℕ → TxShape) : ℕ :=
  let fits n := decide (estimateBytesWrapping (set shape n) ≤ maxBytes)
  if maxBytes = 0 then usizeMax else if fits 0 then bisect fits 0 maxBytes else 0

section Strict

variable (n o : ℕ)

theorem transparentBytes_lt_succ : transparentBytes n o < transparentBytes (n + 1) o := by
  have hc := compactSizeBytes_mono (Nat.le_add_right n 1)
  simp only [transparentBytes, transparentInputBytes]
  omega

theorem saplingBytes_lt_succ : saplingBytes n o < saplingBytes (n + 1) o := by
  have hc := compactSizeBytes_mono (Nat.le_add_right n 1)
  simp only [saplingBytes, saplingSpendBytes]
  split <;> split <;> omega

theorem orchardProtocolBytes_lt_succ : orchardProtocolBytes n < orchardProtocolBytes (n + 1) := by
  have hc := compactSizeBytes_mono (Nat.le_add_right n 1)
  have hp := compactSizeBytes_mono
    (show orchardProofBaseBytes + n * orchardProofPerActionBytes ≤
        orchardProofBaseBytes + (n + 1) * orchardProofPerActionBytes by
      simp only [orchardProofPerActionBytes]; omega)
  simp only [orchardProtocolBytes, orchardActionBytes, orchardProofPerActionBytes] at hp ⊢
  split <;> split <;> omega

end Strict

/-- The counts of a shape that have a ceiling. -/
inductive CountField where
  | ironwoodActions
  | saplingSpends
  | transparentInputs
  deriving DecidableEq, Repr

namespace CountField

def set : CountField → TxShape → ℕ → TxShape
  | ironwoodActions => fun s n => { s with ironwoodActions := n }
  | saplingSpends => fun s n => { s with saplingSpends := n }
  | transparentInputs => fun s n => { s with transparentInputs := n }

def ceiling (maxBytes : ℕ) (shape : TxShape) : CountField → ℕ
  | ironwoodActions => maxOrchardFamilyActionsAlongside maxBytes shape
  | saplingSpends => maxSaplingSpends maxBytes shape
  | transparentInputs => maxTransparentInputs maxBytes shape

/-- The ceiling as the machine computes it: `none` once an estimate overflows. -/
def ceilingChecked (maxBytes : ℕ) (shape : TxShape) (f : CountField) : Option ℕ :=
  largestFittingChecked maxBytes shape f.set

def ceilingWrapping (maxBytes : ℕ) (shape : TxShape) (f : CountField) : ℕ :=
  largestFittingWrapping maxBytes shape f.set

/-- The size of the shape with the count set to `n`. -/
def bytes (f : CountField) (shape : TxShape) (n : ℕ) : ℕ := estimateBytes (f.set shape n)

variable {f : CountField} {shape : TxShape} {maxBytes m n : ℕ}

/-- One more of the count adds at least its own bytes, whatever the length prefixes do. -/
theorem bytes_lt_succ : f.bytes shape n < f.bytes shape (n + 1) := by
  cases f with
  | ironwoodActions =>
    have := orchardProtocolBytes_lt_succ n
    simp only [bytes, set, estimateBytes]
    omega
  | saplingSpends =>
    have := saplingBytes_lt_succ n shape.saplingOutputs
    simp only [bytes, set, estimateBytes]
    omega
  | transparentInputs =>
    have := transparentBytes_lt_succ n shape.transparentOutputs
    simp only [bytes, set, estimateBytes]
    omega

theorem bytes_strictMono : StrictMono (f.bytes shape) :=
  strictMono_nat_of_lt_succ fun _ => bytes_lt_succ

theorem le_ceiling_iff (hmax : maxBytes ≠ 0) (hn : 0 < n) :
    n ≤ f.ceiling maxBytes shape ↔ f.bytes shape n ≤ maxBytes := by
  cases f with
  | ironwoodActions => exact le_maxOrchardFamilyActionsAlongside_iff hmax hn
  | saplingSpends => exact le_maxSaplingSpends_iff hmax hn
  | transparentInputs => exact le_maxTransparentInputs_iff hmax hn

theorem ceiling_eq_zero (hmax : maxBytes ≠ 0) (h : maxBytes < f.bytes shape 0) :
    f.ceiling maxBytes shape = 0 := by
  by_contra hpos
  have hfits := (le_ceiling_iff hmax (Nat.pos_of_ne_zero hpos)).mp le_rfl
  have := bytes_strictMono.monotone (f := f.bytes shape) (Nat.zero_le (f.ceiling maxBytes shape))
  omega

theorem ceiling_eq_iff (hmax : maxBytes ≠ 0) (h : f.bytes shape 0 ≤ maxBytes) :
    f.ceiling maxBytes shape = n ↔
      f.bytes shape n ≤ maxBytes ∧ maxBytes < f.bytes shape (n + 1) := by
  have hle : ∀ m, m ≤ f.ceiling maxBytes shape ↔ f.bytes shape m ≤ maxBytes := by
    intro m
    rcases Nat.eq_zero_or_pos m with rfl | hm
    · exact iff_of_true (Nat.zero_le _) h
    · exact le_ceiling_iff hmax hm
  constructor
  · rintro rfl
    refine ⟨(hle _).mp le_rfl, ?_⟩
    by_contra hfits
    have := (hle (f.ceiling maxBytes shape + 1)).mpr (by omega)
    omega
  · rintro ⟨hn, hnext⟩
    have hge := (hle n).mpr hn
    have hlt : ¬ n + 1 ≤ f.ceiling maxBytes shape := fun hle' => by
      have := (hle _).mp hle'
      omega
    omega

/-! ### Without overflow -/

variable (f shape n) in
theorem two_mul_lt_bytes : 2 * n < f.bytes shape n := by
  cases f with
  | ironwoodActions =>
    have : 2 * n ≤ orchardProtocolBytes n := by
      simp only [orchardProtocolBytes, orchardActionBytes]
      split <;> omega
    simp only [bytes, set, estimateBytes, headerBytes]
    omega
  | saplingSpends =>
    have : 2 * n ≤ saplingBytes n shape.saplingOutputs := by
      simp only [saplingBytes, saplingSpendBytes]
      split <;> omega
    simp only [bytes, set, estimateBytes, headerBytes]
    omega
  | transparentInputs =>
    simp only [bytes, set, estimateBytes, headerBytes, transparentBytes, transparentInputBytes]
    omega

/-- No estimate of the search overflows: not the first one, and, if the search goes on, not the
one at the middle, which is the largest. -/
structure NoOverflow (f : CountField) (maxBytes : ℕ) (shape : TxShape) : Prop where
  zero : f.bytes shape 0 ≤ usizeMax
  middle : f.bytes shape 0 ≤ maxBytes → f.bytes shape ((maxBytes + 1) / 2) ≤ usizeMax

/-- Whether the shape with the count fits, if its estimate does not overflow. -/
def fitsChecked (f : CountField) (maxBytes : ℕ) (shape : TxShape) (n : ℕ) : Option Bool :=
  (estimateBytesChecked (f.set shape n)).map fun bytes => decide (bytes ≤ maxBytes)

theorem fitsChecked_eq_some {b : Bool} : f.fitsChecked maxBytes shape n = some b ↔
    f.bytes shape n ≤ usizeMax ∧ decide (f.bytes shape n ≤ maxBytes) = b := by
  unfold fitsChecked
  rw [estimateBytesChecked_eq, ← bytes]
  by_cases hn : f.bytes shape n ≤ usizeMax
  · rw [show usize (f.bytes shape n) = some (f.bytes shape n) from if_pos hn]
    simp [hn]
  · rw [show usize (f.bytes shape n) = none from if_neg hn]
    simp [hn]

theorem fitsChecked_isSome : (f.fitsChecked maxBytes shape n).isSome ↔
    f.bytes shape n ≤ usizeMax := by
  rw [Option.isSome_iff_exists]
  exact ⟨fun ⟨_, hb⟩ => (fitsChecked_eq_some.mp hb).1,
    fun h => ⟨_, fitsChecked_eq_some.mpr ⟨h, rfl⟩⟩⟩

theorem ceilingChecked_eq (hmax : maxBytes ≠ 0) : f.ceilingChecked maxBytes shape =
    (f.fitsChecked maxBytes shape 0).bind fun fit =>
      if fit then bisectChecked (f.fitsChecked maxBytes shape) 0 maxBytes else some 0 :=
  if_neg hmax

theorem ceiling_eq (hmax : maxBytes ≠ 0) : f.ceiling maxBytes shape =
    if f.bytes shape 0 ≤ maxBytes then
      bisect (fun n => decide (f.bytes shape n ≤ maxBytes)) 0 maxBytes
    else 0 := by
  have hfitting : f.ceiling maxBytes shape = largestFitting maxBytes shape f.set := by
    cases f <;> rfl
  rw [hfitting, largestFitting, if_neg hmax]
  simp only [decide_eq_true_eq]
  rfl

/-- A search that does not overflow is the search with any test that agrees where it does not. -/
theorem ceilingChecked_search (fits : ℕ → Bool) (hmax : maxBytes ≠ 0)
    (hfits : ∀ m, f.bytes shape m ≤ usizeMax → fits m = decide (f.bytes shape m ≤ maxBytes))
    (h : f.ceilingChecked maxBytes shape = some n) :
    (if fits 0 then bisect fits 0 maxBytes else 0) = n := by
  have hanswer : ∀ m b, f.fitsChecked maxBytes shape m = some b → fits m = b := by
    intro m b hb
    obtain ⟨hle, rfl⟩ := fitsChecked_eq_some.mp hb
    exact hfits m hle
  rw [ceilingChecked_eq hmax] at h
  obtain ⟨fit, hfit, hrest⟩ := Option.bind_eq_some_iff.mp h
  rw [hanswer 0 fit hfit]
  cases fit with
  | true => exact bisectChecked_eq_some hanswer hrest
  | false => exact Option.some.inj hrest

theorem ceilingChecked_eq_some (hmax : maxBytes ≠ 0)
    (h : f.ceilingChecked maxBytes shape = some n) : f.ceiling maxBytes shape = n := by
  rw [ceiling_eq hmax, ← ceilingChecked_search _ hmax (fun _ _ => rfl) h]
  simp only [decide_eq_true_eq]

theorem ceilingWrapping_eq (hmax : maxBytes ≠ 0)
    (h : f.ceilingChecked maxBytes shape = some n) : f.ceilingWrapping maxBytes shape = n := by
  rw [ceilingWrapping, largestFittingWrapping, if_neg hmax]
  refine ceilingChecked_search (fun m => decide (estimateBytesWrapping (f.set shape m) ≤ maxBytes))
    hmax (fun m hm => ?_) h
  rw [estimateBytesWrapping_eq hm]
  rfl

theorem noOverflow_iff (hmax : maxBytes ≠ 0) :
    f.NoOverflow maxBytes shape ↔ (f.ceilingChecked maxBytes shape).isSome := by
  have hmiddle : ∀ fits, bisectChecked fits 0 maxBytes = (fits ((maxBytes + 1) / 2)).bind fun fit =>
      if fit then bisectChecked fits ((maxBytes + 1) / 2) maxBytes
      else bisectChecked fits 0 ((maxBytes + 1) / 2 - 1) := by
    intro fits
    rw [bisectChecked, if_pos (Nat.pos_of_ne_zero hmax)]
    simp only [Nat.zero_add, Nat.sub_zero]
  rw [ceilingChecked_eq hmax]
  constructor
  · rintro ⟨hzero, hmid⟩
    rw [fitsChecked_eq_some.mpr ⟨hzero, rfl⟩, Option.bind_some]
    split
    · next hfit =>
      have hmid := hmid (of_decide_eq_true hfit)
      have hover : ¬ f.bytes shape ((maxBytes + 1) / 2) ≤ maxBytes := by
        have := two_mul_lt_bytes f shape ((maxBytes + 1) / 2)
        omega
      rw [hmiddle, fitsChecked_eq_some.mpr ⟨hmid, decide_eq_false hover⟩, Option.bind_some]
      refine bisectChecked_isSome fun m hm => fitsChecked_isSome.mpr ?_
      exact (bytes_strictMono.monotone (by omega)).trans hmid
    · rfl
  · intro h
    obtain ⟨c, hc⟩ := Option.isSome_iff_exists.mp h
    obtain ⟨fit, hfit, hrest⟩ := Option.bind_eq_some_iff.mp hc
    obtain ⟨hzero, hfit⟩ := fitsChecked_eq_some.mp hfit
    refine ⟨hzero, fun hle => ?_⟩
    rw [← hfit, decide_eq_true hle, if_pos rfl, hmiddle] at hrest
    obtain ⟨mid, hmid, -⟩ := Option.bind_eq_some_iff.mp hrest
    exact (fitsChecked_eq_some.mp hmid).1

end CountField

/-- Without overflow the machine finds the ceiling: zero if the shape is over without any of the
count, and else the one count that fits while the next does not. -/
theorem ceiling_spec (f : CountField) {maxBytes : ℕ} {shape : TxShape} (hmax : maxBytes ≠ 0)
    (hover : f.NoOverflow maxBytes shape) :
    f.ceilingChecked maxBytes shape = some (f.ceiling maxBytes shape) ∧
      f.ceilingWrapping maxBytes shape = f.ceiling maxBytes shape ∧
      (maxBytes < f.bytes shape 0 → f.ceiling maxBytes shape = 0) ∧
      (f.bytes shape 0 ≤ maxBytes → ∀ n, f.ceiling maxBytes shape = n ↔
        f.bytes shape n ≤ maxBytes ∧ maxBytes < f.bytes shape (n + 1)) ∧
      StrictMono (f.bytes shape) := by
  obtain ⟨c, hc⟩ := Option.isSome_iff_exists.mp ((CountField.noOverflow_iff hmax).mp hover)
  have hceiling := CountField.ceilingChecked_eq_some hmax hc
  refine ⟨?_, ?_, CountField.ceiling_eq_zero hmax, fun h n => CountField.ceiling_eq_iff hmax h,
    CountField.bytes_strictMono⟩
  · rw [hc, hceiling]
  · rw [CountField.ceilingWrapping_eq hmax hc, hceiling]

/-- 78 Ironwood actions are what the default ceiling leaves room for. -/
theorem ceiling_default :
    CountField.ironwoodActions.ceilingChecked 250000 .default = some 78 := by
  have hover : CountField.ironwoodActions.NoOverflow 250000 .default :=
    ⟨by decide, fun _ => by decide⟩
  obtain ⟨hchecked, -, -, hunique, -⟩ :=
    ceiling_spec .ironwoodActions (by decide) hover
  rw [hchecked, (hunique (by decide) 78).mpr ⟨by decide, by decide⟩]

/-! ## Sums that overflow -/

/-- Sapling and transparent outputs whose products fit, worth about 2 ^ 64 bytes together. -/
def hugeShape (transparentOutputs : ℕ) : TxShape :=
  { TxShape.default with
    saplingOutputs := 9000000000000000
    transparentOutputs := transparentOutputs }

theorem hugeShape_productsFit {outputs n : ℕ} (houtputs : outputs ≤ 291610119814986838)
    (hn : n ≤ 250000) :
    (CountField.transparentInputs.set (hugeShape outputs) n).ProductsFit where
  transparentInputs := by
    simp only [CountField.set, transparentInputBytes, usizeMax]
    omega
  transparentOutputs := by
    simp only [CountField.set, hugeShape, transparentOutputBytes, usizeMax]
    omega
  saplingSpends := by simp [CountField.set, hugeShape, TxShape.default]
  saplingOutputs := by
    simp only [CountField.set, hugeShape, saplingOutputBytes, usizeMax]
    omega
  proofs := by simp [CountField.set, hugeShape, TxShape.default]
  actions := by simp [CountField.set, hugeShape, TxShape.default]

/-- A size past `usize` wraps around to a small one, under which many inputs fit; and just below,
one more input makes the estimate smaller. -/
theorem ceiling_wraps :
    (∀ n ≤ 250000, (CountField.transparentInputs.set (hugeShape 291610119814986838)
      n).ProductsFit) ∧
    250000 < CountField.transparentInputs.bytes (hugeShape 291610119814986838) 0 ∧
    CountField.transparentInputs.ceilingWrapping 250000 (hugeShape 291610119814986838) = 1682 ∧
    CountField.transparentInputs.ceilingChecked 250000 (hugeShape 291610119814986838) = none ∧
    (∀ n ≤ 250000, (CountField.transparentInputs.set (hugeShape 291610119814986807)
      n).ProductsFit) ∧
    estimateBytesWrapping (CountField.transparentInputs.set (hugeShape 291610119814986807) 1) <
      estimateBytesWrapping
        (CountField.transparentInputs.set (hugeShape 291610119814986807) 0) := by
  refine ⟨fun n hn => hugeShape_productsFit le_rfl hn, by decide +kernel, by decide +kernel,
    by decide, fun n hn => hugeShape_productsFit (by decide) hn, by decide⟩

end Zecd
