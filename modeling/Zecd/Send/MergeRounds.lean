import Zecd.Send.MergeShapes

/-! # Merge rounds

A merge truncates its selection to what the ceilings allow rather than being refused. Most bounds
are solved for a placeholder of the transaction that is built. What a merge fixes fails the
ceilings exactly where the placeholder is wrong about the transaction.
-/

namespace Zecd

open Fallible

variable {l : PlanLayer} {r : Reading} {req : MergeRequest} {destAddr : Address}
  {destPool : PoolType} {notes fam : List SpendableNote} {utxos : List WalletTransparentOutput}

/-! ## The selection a merge fixes -/

inductive Mergeable where
  | notes (notes : List SpendableNote)
  | utxos (utxos : List WalletTransparentOutput)

/-- The family a bounded merge takes from: the one with more notes. -/
def familyIsSapling (notes : List SpendableNote) : Bool :=
  decide ((notes.countP fun n => isOrchardFamily (.shielded n.pool)) ≤
    notes.countP fun n => n.pool == .sapling)

def mergeFamily (notes : List SpendableNote) : List SpendableNote :=
  (notes.filter fun n => familyIsSapling notes != isOrchardFamily (.shielded n.pool)).mergeSort
    fun m n => decide (m.value ≤ n.value)

def notesLimit (req : MergeRequest) : ℕ := req.shieldedLimit.getD usizeMax

def mergesAll (r : Reading) (req : MergeRequest) (destAddr : Address)
    (notes : List SpendableNote) : Bool :=
  mergeAllFits r (notesLimit req) (destinationOf destAddr)
    (notes.countP fun n => n.pool == .sapling)
    (notes.countP fun n => isOrchardFamily (.shielded n.pool))

def familyCap (r : Reading) (req : MergeRequest) (destAddr : Address)
    (notes : List SpendableNote) : ℕ :=
  mergeNotesCap r (notesLimit req) (destinationOf destAddr) (familyIsSapling notes)

def bytesTooSmall (r : Reading) (text : String) : RpcError :=
  .invalidParameter ("[spend] max_tx_bytes = " ++ toString r.limits.maxTxBytes ++ text)

/-- The transaction that a merge decides on, before its fee and its checks. -/
def fixMerge (l : PlanLayer) (r : Reading) (req : MergeRequest) (destAddr : Address)
    (destPool : PoolType) : Mergeable → Except RpcError (Step ℕ)
  | .notes notes =>
    if mergesAll r req destAddr notes then return mergeStep destPool notes
    else do
      ensure (familyCap r req destAddr notes != 0) (bytesTooSmall r
        " is too small to merge even one note; raise it (0 disables the ceiling)")
      let s ← fitMergeSelection l r destPool
        ((mergeFamily notes).take (familyCap r req destAddr notes))
      return mergeStep destPool s.notes
  | .utxos utxos => do
    let selected := selectMergeUtxos r req (destinationOf destAddr) utxos
    ensure (!selected.isEmpty) (bytesTooSmall r
      " is too small to merge even one transparent output; raise it (0 disables the ceiling)")
    return sweepStep destPool selected

/-! ## What is asked of a round -/

/-- A non-empty selection of one pool family, or of the transparent outputs. -/
inductive Selects (destPool : PoolType) : Mergeable → Step ℕ → Prop
  | notes {notes selected : List SpendableNote} (orchardFamily : Bool) : selected ≠ [] →
      selected.Subperm notes →
      (∀ n ∈ selected, isOrchardFamily (.shielded n.pool) = orchardFamily) →
      Selects destPool (.notes notes) (mergeStep destPool selected)
  | utxos {utxos selected : List WalletTransparentOutput} : selected ≠ [] →
      selected.Subperm utxos → Selects destPool (.utxos utxos) (sweepStep destPool selected)

def SomePasses (r : Reading) (destPool : PoolType) (m : Mergeable) : Prop :=
  ∃ step, Selects destPool m step ∧ r.enforceCeilings ⟨step, []⟩ = .ok ()

/-! ## Where the bounds are wrong about what is built -/

/-- The bounds let a merge start from this many notes of a family: the caller's limit, the action
limit, the bytes left beside one spare action, and ZIP 218's total. -/
@[mk_iff]
structure CapAllows (r : Reading) (req : MergeRequest) (destAddr : Address) (sapling : Bool)
    (k : ℕ) : Prop where
  limit : k ≤ notesLimit req
  actions : sapling = false → r.limits.orchardActionLimit ≠ 0 → k ≤ r.limits.orchardActionLimit
  bytes : k ≤ if sapling then
      maxSaplingSpends r.limits.maxTxBytes (mergeNotesShape (destinationOf destAddr))
    else
      maxOrchardFamilyActionsAlongside r.limits.maxTxBytes
        (mergeNotesShape (destinationOf destAddr))
  zip218 : r.zip218BudgetApplies = true →
    k ≤ if sapling then zip218SaplingLimit else zip218ShieldedBudget

/-- The bounds let a merge take this many transparent outputs. -/
@[mk_iff]
structure OutputsAllowed (r : Reading) (req : MergeRequest) (destAddr : Address) (k : ℕ) :
    Prop where
  limit : k ≤ req.transparentLimit.getD usizeMax
  blockSpace : k ≤ mergeMaxTransparentInputs
  bytes : k ≤ maxTransparentInputs r.limits.maxTxBytes (mergeDestShape (destinationOf destAddr))

/-- What a merge is refused for. Where no bound binds, every note is taken, though padding takes
the actions past their limit, or both families together the bytes or ZIP 218's budget. Where one
binds, not one note is allowed, or the family with more notes cannot pay the destination, or a
number of its notes that is allowed is built larger than its placeholder. Of transparent outputs
not one is allowed, or a number that is allowed is built larger. -/
inductive Wedges (l : PlanLayer) (r : Reading) (req : MergeRequest) (destAddr : Address)
    (destPool : PoolType) : Mergeable → Prop
  | padding {notes : List SpendableNote} (hall : mergesAll r req destAddr notes = true)
      (hlimit : r.limits.orchardActionLimit ≠ 0)
      (hover : r.limits.orchardActionLimit <
        (mergeShape l.ironwoodActive destPool notes).orchardFamilyActions) :
      Wedges l r req destAddr destPool (.notes notes)
  | bothFamilies {notes : List SpendableNote} (hall : mergesAll r req destAddr notes = true)
      (hmax : r.limits.maxTxBytes ≠ 0)
      (hover : r.limits.maxTxBytes < estimateBytes (mergeShape l.ironwoodActive destPool notes)) :
      Wedges l r req destAddr destPool (.notes notes)
  | budget {notes : List SpendableNote} (hall : mergesAll r req destAddr notes = true)
      (happlies : r.zip218BudgetApplies = true)
      (hover : zip218ShieldedBudget <
        (mergeShape l.ironwoodActive destPool notes).orchardFamilyActions +
          saplingDescriptions (mergeShape l.ironwoodActive destPool notes)) :
      Wedges l r req destAddr destPool (.notes notes)
  | noNote {notes : List SpendableNote} (hbinds : mergesAll r req destAddr notes = false)
      (hcap : ¬ CapAllows r req destAddr (familyIsSapling notes) 1) :
      Wedges l r req destAddr destPool (.notes notes)
  | wrongFamily {notes : List SpendableNote} (hbinds : mergesAll r req destAddr notes = false)
      (hone : ¬ r.WithinCounts
        (mergeShape l.ironwoodActive destPool ((mergeFamily notes).take 1))) :
      Wedges l r req destAddr destPool (.notes notes)
  | placeholder {notes : List SpendableNote} {k : ℕ}
      (hbinds : mergesAll r req destAddr notes = false)
      (hk : k ≤ (mergeFamily notes).length)
      (hcap : CapAllows r req destAddr (familyIsSapling notes) k)
      (hcounts : r.WithinCounts
        (mergeShape l.ironwoodActive destPool ((mergeFamily notes).take k)))
      (hmax : r.limits.maxTxBytes ≠ 0)
      (hover : r.limits.maxTxBytes <
        estimateBytes (mergeShape l.ironwoodActive destPool ((mergeFamily notes).take k))) :
      Wedges l r req destAddr destPool (.notes notes)
  | noOutput {utxos : List WalletTransparentOutput} (hcap : ¬ OutputsAllowed r req destAddr 1) :
      Wedges l r req destAddr destPool (.utxos utxos)
  | outputPlaceholder {utxos : List WalletTransparentOutput} {k : ℕ} (hk : k ≤ utxos.length)
      (hcap : OutputsAllowed r req destAddr k)
      (hmax : r.limits.maxTxBytes ≠ 0)
      (hover : r.limits.maxTxBytes < estimateBytes (sweepShape l.ironwoodActive destPool k)) :
      Wedges l r req destAddr destPool (.utxos utxos)

theorem le_familyCap_iff {k : ℕ} : k ≤ familyCap r req destAddr notes ↔
    CapAllows r req destAddr (familyIsSapling notes) k := by
  rw [familyCap, capAllows_iff, mergeNotesCap]
  generalize familyIsSapling notes = sapling
  cases sapling with
  | true => cases r.zip218BudgetApplies <;> simp
  | false =>
    by_cases hlimit : r.limits.orchardActionLimit = 0
    · cases r.zip218BudgetApplies <;> simp [hlimit]
    · cases r.zip218BudgetApplies <;> simp [hlimit, Nat.pos_of_ne_zero hlimit]

theorem le_outputsCap_iff {k : ℕ} :
    k ≤ min (min (req.transparentLimit.getD usizeMax) mergeMaxTransparentInputs)
      (maxTransparentInputs r.limits.maxTxBytes (mergeDestShape (destinationOf destAddr))) ↔
        OutputsAllowed r req destAddr k := by
  rw [outputsAllowed_iff, le_min_iff, le_min_iff, and_assoc]

/-! ## The loop -/

theorem saplingDescriptions_padded {a b : TxShape} (hspends : a.saplingSpends = b.saplingSpends)
    (houtputs : a.saplingOutputs = if b.saplingSpends + b.saplingOutputs = 0 then 0
      else max b.saplingOutputs saplingMinOutputs) :
    saplingDescriptions a = saplingDescriptions b := by
  unfold saplingDescriptions
  rw [hspends, houtputs]
  by_cases hnone : b.saplingSpends + b.saplingOutputs = 0
  · rw [if_pos hnone, if_neg (by omega), if_neg (by omega)]
  · rw [if_neg hnone, if_pos (by rw [saplingMinOutputs]; omega), if_pos (Nat.pos_of_ne_zero hnone),
      max_assoc, max_self]

/-- The loop's own test is the action limit and ZIP 218, on what is built. -/
theorem fits_iff (hb : BuilderCounts l r) {saplingOut orchardAct ironwoodAct : ℕ}
    (h : mergeActionCounts l destPool (notesIn .sapling fam) (notesIn .orchard fam)
      (notesIn .ironwood fam) = .ok (saplingOut, orchardAct, ironwoodAct)) :
    (MergeSelection.fits r ⟨fam, notesIn .sapling fam, saplingOut, orchardAct, ironwoodAct⟩ = true ↔
      r.WithinCounts (mergeShape l.ironwoodActive destPool fam)) := by
  simp only [mergeActionCounts, hb.numOutputs, hb.numActions, bind_eq_ok, pure_eq_ok,
    Except.ok.injEq, Prod.mk.injEq] at h
  obtain ⟨_, rfl, _, rfl, _, rfl, rfl, rfl, rfl⟩ := h
  -- the padded outputs that are priced count for no more under ZIP 218 than the one that is paid
  have hsapling : saplingDescriptions { TxShape.default with
        orchardActions := bundleActions (sharesActions l.ironwoodActive .orchard)
          (notesIn .orchard fam) (outputsIn destPool .orchard)
        ironwoodActions := bundleActions (sharesActions l.ironwoodActive .ironwood)
          (notesIn .ironwood fam) (outputsIn destPool .ironwood)
        saplingSpends := notesIn .sapling fam
        saplingOutputs := if notesIn .sapling fam + outputsIn destPool .sapling = 0 then 0
          else max (outputsIn destPool .sapling) saplingMinOutputs } =
      saplingDescriptions (mergeShape l.ironwoodActive destPool fam) :=
    saplingDescriptions_padded rfl rfl
  simp only [MergeSelection.fits, Bool.and_eq_true, Bool.or_eq_true, beq_iff_eq,
    decide_eq_true_eq, Bool.not_eq_true', Option.isNone_iff_eq_none]
  rw [zip218Overflow_eq_none]
  constructor
  · rintro ⟨hactions, hzip⟩
    refine ⟨fun hlimit => hactions.resolve_left hlimit, fun happlies => ?_⟩
    have h := hzip.resolve_left (by simp [happlies])
    exact ⟨hsapling ▸ h.1, hsapling ▸ h.2⟩
  · rintro ⟨hactions, hzip⟩
    constructor
    · by_cases hlimit : r.limits.orchardActionLimit = 0
      · exact .inl hlimit
      · exact .inr (hactions hlimit)
    · cases happlies : r.zip218BudgetApplies with
      | false => exact .inl rfl
      | true => exact .inr ⟨hsapling ▸ (hzip happlies).1, hsapling ▸ (hzip happlies).2⟩

/-- One turn of the loop, once its counts are known. -/
theorem fitMergeSelection_eq {saplingOut orchardAct ironwoodAct : ℕ}
    (hcounts : mergeActionCounts l destPool (notesIn .sapling fam) (notesIn .orchard fam)
      (notesIn .ironwood fam) = .ok (saplingOut, orchardAct, ironwoodAct)) :
    fitMergeSelection l r destPool fam =
      if MergeSelection.fits r
          ⟨fam, notesIn .sapling fam, saplingOut, orchardAct, ironwoodAct⟩ then
        .ok ⟨fam, notesIn .sapling fam, saplingOut, orchardAct, ironwoodAct⟩
      else if fam.length ≤ 1 then
        .error (.invalidParameter ("[spend] orchard_action_limit = " ++
          toString r.limits.orchardActionLimit ++
          " is too small to merge even one note into this destination, which needs " ++
          toString (orchardAct + ironwoodAct) ++ " actions; raise it (0 disables the cap)"))
      else fitMergeSelection l r destPool fam.dropLast := by
  rw [fitMergeSelection]
  dsimp only
  change (mergeActionCounts l destPool (notesIn .sapling fam) (notesIn .orchard fam)
    (notesIn .ironwood fam) >>= fun _ => _) = _
  rw [hcounts]
  rfl

variable (destPool) in
/-- The loop takes the largest number of notes that the action limit and ZIP 218 allow, or none
if they allow none. -/
theorem fitMergeSelection_cases (hb : BuilderCounts l r) (hne : fam ≠ []) :
    (∃ k s, 0 < k ∧ k ≤ fam.length ∧ fitMergeSelection l r destPool fam = .ok s ∧
      s.notes = fam.take k ∧
      r.WithinCounts (mergeShape l.ironwoodActive destPool (fam.take k)) ∧
      ∀ j, j ≤ fam.length →
        r.WithinCounts (mergeShape l.ironwoodActive destPool (fam.take j)) → j ≤ k) ∨
    (∃ e, fitMergeSelection l r destPool fam = .error e ∧
      ∀ k, 0 < k → k ≤ fam.length →
        ¬ r.WithinCounts (mergeShape l.ironwoodActive destPool (fam.take k))) := by
  induction hlen : fam.length generalizing fam with
  | zero => exact absurd (List.length_eq_zero_iff.mp hlen) hne
  | succ n ih =>
    obtain ⟨counts, hcounts⟩ : ∃ counts, mergeActionCounts l destPool (notesIn .sapling fam)
        (notesIn .orchard fam) (notesIn .ironwood fam) = .ok counts := by
      simp only [mergeActionCounts, hb.numOutputs, hb.numActions]
      exact ⟨_, rfl⟩
    obtain ⟨saplingOut, orchardAct, ironwoodAct⟩ := counts
    have hfits := fits_iff hb hcounts
    have hwhole : fam.take (n + 1) = fam := by rw [← hlen, List.take_length]
    rw [fitMergeSelection_eq hcounts]
    by_cases hwithin : r.WithinCounts (mergeShape l.ironwoodActive destPool fam)
    · rw [if_pos (hfits.mpr hwithin)]
      exact .inl ⟨n + 1, _, Nat.succ_pos n, le_rfl, rfl, hwhole.symm, by rwa [hwhole],
        fun j hj _ => hj⟩
    · rw [if_neg fun h => hwithin (hfits.mp h)]
      by_cases hone : fam.length ≤ 1
      · rw [if_pos hone]
        refine .inr ⟨_, rfl, fun k hk hle => ?_⟩
        obtain rfl : k = n + 1 := by omega
        rwa [hwhole]
      · rw [if_neg hone]
        have hlen' : fam.dropLast.length = n := by rw [List.length_dropLast]; omega
        have hne' : fam.dropLast ≠ [] := by
          intro hnil
          rw [hnil] at hlen'
          simp only [List.length_nil] at hlen'
          omega
        have htake : ∀ j ≤ n, fam.dropLast.take j = fam.take j := by
          intro j hj
          rw [List.dropLast_eq_take, List.take_take, hlen]
          congr 1
          omega
        rcases ih hne' hlen' with ⟨k, s, hk, hkn, hs, hnotes, hcount, hmax⟩ | ⟨e, he, hnone⟩
        · rw [htake k hkn] at hnotes hcount
          refine .inl ⟨k, s, hk, by omega, hs, hnotes, hcount, fun j hj hj' => ?_⟩
          rcases Nat.lt_or_ge n j with hlt | hle
          · obtain rfl : j = n + 1 := by omega
            rw [hwhole] at hj'
            exact absurd hj' hwithin
          · exact hmax j hle (by rwa [htake j hle])
        · refine .inr ⟨e, he, fun k hk hle => ?_⟩
          rcases Nat.lt_or_ge n k with hlt | hle'
          · obtain rfl : k = n + 1 := by omega
            rwa [hwhole]
          · rw [← htake k hle']
            exact hnone k hk hle'

/-! ## Rounds -/

theorem enforce_mergeStep (hb : BuilderCounts l r) :
    r.enforceCeilings ⟨mergeStep destPool notes, []⟩ = .ok () ↔
      r.WithinCounts (mergeShape l.ironwoodActive destPool notes) ∧
        r.WithinBytes (mergeShape l.ironwoodActive destPool notes) := by
  rw [Reading.enforceCeilings_single, stepShape_mergeStep hb]

theorem enforce_sweepStep (hb : BuilderCounts l r) :
    r.enforceCeilings ⟨sweepStep destPool utxos, []⟩ = .ok () ↔
      r.WithinCounts (sweepShape l.ironwoodActive destPool utxos.length) ∧
        r.WithinBytes (sweepShape l.ironwoodActive destPool utxos.length) := by
  rw [Reading.enforceCeilings_single, stepShape_sweepStep hb]

theorem mergeFamily_ne_nil (hne : notes ≠ []) : mergeFamily notes ≠ [] := by
  intro hnil
  have hnone : (notes.filter fun n =>
      familyIsSapling notes != isOrchardFamily (.shielded n.pool)) = [] := by
    have hlen := congrArg List.length hnil
    rw [mergeFamily, List.length_mergeSort] at hlen
    exact List.length_eq_zero_iff.mp hlen
  have hsame : ∀ n ∈ notes, isOrchardFamily (.shielded n.pool) = familyIsSapling notes := by
    intro n hn
    have h := List.filter_eq_nil_iff.mp hnone n hn
    rw [bne_iff_ne, not_not] at h
    exact h.symm
  have hlen : 0 < notes.length := List.length_pos_iff.mpr hne
  cases hfamily : familyIsSapling notes with
  | true =>
    rw [hfamily] at hsame
    have hall : (notes.countP fun n => isOrchardFamily (.shielded n.pool)) = notes.length :=
      List.countP_eq_length.mpr hsame
    have hsapling : (notes.countP fun n => n.pool == .sapling) = 0 := by
      refine List.countP_eq_zero.mpr fun n hn hpool => ?_
      have horchard := hsame n hn
      rw [beq_iff_eq.mp hpool] at horchard
      cases horchard
    have hle := of_decide_eq_true hfamily
    omega
  | false =>
    rw [hfamily] at hsame
    have hnone : (notes.countP fun n => isOrchardFamily (.shielded n.pool)) = 0 :=
      List.countP_eq_zero.mpr fun n hn h => by rw [hsame n hn] at h; cases h
    have hgt := of_decide_eq_false hfamily
    omega

/-- Of a merge of every note the code's test leaves open what padding and the two families make
of it. -/
theorem within_iff_of_mergesAll (hall : mergesAll r req destAddr notes = true) :
    (r.WithinCounts (mergeShape l.ironwoodActive destPool notes) ∧
      r.WithinBytes (mergeShape l.ironwoodActive destPool notes)) ↔
        ¬ Wedges l r req destAddr destPool (.notes notes) := by
  have hnot : mergesAll r req destAddr notes ≠ false := by simp [hall]
  constructor
  · rintro ⟨⟨hactions, hzip⟩, hbytes⟩ hw
    cases hw with
    | padding _ hlimit hover => exact absurd (hactions hlimit) (not_le.mpr hover)
    | bothFamilies _ hmax hover => exact absurd (hbytes hmax) (not_le.mpr hover)
    | budget _ happlies hover => exact absurd (hzip happlies).2 (not_le.mpr hover)
    | noNote hbinds | wrongFamily hbinds | placeholder hbinds => exact hnot hbinds
  · intro hno
    refine ⟨⟨fun hlimit => not_lt.mp fun h => hno (.padding hall hlimit h),
      fun happlies => ⟨?_, not_lt.mp fun h => hno (.budget hall happlies h)⟩⟩,
      fun hmax => not_lt.mp fun h => hno (.bothFamilies hall hmax h)⟩
    simp only [mergesAll, mergeAllFits, happlies, Bool.not_true, Bool.false_or, Bool.and_eq_true,
      decide_eq_true_eq] at hall
    have hsapling : notesIn .sapling notes + 2 ≤ zip218SaplingLimit := hall.2.2
    have hout : max (outputsIn destPool .sapling) saplingMinOutputs = 2 := by
      unfold outputsIn saplingMinOutputs
      split <;> rfl
    refine (saplingDescriptions_le _).trans ?_
    simp only [mergeShape, hout]
    exact hsapling

theorem take_take_of_le {k cap : ℕ} (h : k ≤ cap) : (fam.take cap).take k = fam.take k := by
  rw [List.take_take, Nat.min_eq_left h]

theorem take_subperm {j k : ℕ} (h : j ≤ k) : (fam.take j).Subperm (fam.take k) := by
  rw [← take_take_of_le h]
  exact (List.take_sublist j _).subperm

variable (destPool) in
/-- Of the notes the bounds allow, the loop takes the smallest, as many as the action limit and
ZIP 218 allow, or finds that they do not even allow one. -/
theorem boundedMerge_cases (hb : BuilderCounts l r) (hne : notes ≠ [])
    (hcap : CapAllows r req destAddr (familyIsSapling notes) 1) :
    (∃ k s, 0 < k ∧ k ≤ (mergeFamily notes).length ∧
      CapAllows r req destAddr (familyIsSapling notes) k ∧
      fitMergeSelection l r destPool ((mergeFamily notes).take (familyCap r req destAddr notes)) =
        .ok s ∧ s.notes = (mergeFamily notes).take k ∧
      r.WithinCounts (mergeShape l.ironwoodActive destPool ((mergeFamily notes).take k)) ∧
      ∀ j, j ≤ (mergeFamily notes).length →
        CapAllows r req destAddr (familyIsSapling notes) j →
        r.WithinCounts (mergeShape l.ironwoodActive destPool ((mergeFamily notes).take j)) →
          j ≤ k) ∨
    (∃ e, fitMergeSelection l r destPool
        ((mergeFamily notes).take (familyCap r req destAddr notes)) = .error e ∧
      ¬ r.WithinCounts (mergeShape l.ironwoodActive destPool ((mergeFamily notes).take 1))) := by
  simp only [← le_familyCap_iff] at hcap ⊢
  have hne' : (mergeFamily notes).take (familyCap r req destAddr notes) ≠ [] := by
    rw [Ne, List.take_eq_nil_iff]
    exact not_or.mpr ⟨Nat.one_le_iff_ne_zero.mp hcap, mergeFamily_ne_nil hne⟩
  rcases fitMergeSelection_cases destPool hb hne' with
    ⟨k, s, hk, hkn, hs, hnotes, hcount, hmost⟩ | ⟨e, he, hnone⟩
  · rw [List.length_take, le_min_iff] at hkn
    obtain ⟨hkcap, hklen⟩ := hkn
    rw [take_take_of_le hkcap] at hnotes hcount
    refine .inl ⟨k, s, hk, hklen, hkcap, hs, hnotes, hcount, fun j hj hjcap hj' => ?_⟩
    refine hmost j ?_ (by rwa [take_take_of_le hjcap])
    rw [List.length_take]
    exact le_min hjcap hj
  · have hone := hnone 1 Nat.one_pos (List.length_pos_iff.mpr hne')
    rw [take_take_of_le hcap] at hone
    exact .inr ⟨e, he, hone⟩

theorem bounded_fixes_iff (hb : BuilderCounts l r) (hne : notes ≠ [])
    (hall : mergesAll r req destAddr notes = false) :
    (∃ step, fixMerge l r req destAddr destPool (.notes notes) = .ok step ∧
      r.enforceCeilings ⟨step, []⟩ = .ok ()) ↔
        ¬ Wedges l r req destAddr destPool (.notes notes) := by
  have hnot : mergesAll r req destAddr notes ≠ true := by simp [hall]
  simp only [fixMerge, hall, Bool.false_eq_true, if_false, bind_eq_ok, ensure_eq_ok, pure_eq_ok,
    bne_iff_ne, ← Nat.one_le_iff_ne_zero, le_familyCap_iff]
  constructor
  · rintro ⟨_, ⟨_, hcap, s, hs, rfl⟩, hpass⟩ hw
    rcases boundedMerge_cases destPool hb hne hcap with
      ⟨k, s', hk, -, -, hs', hnotes, hcount, hmost⟩ | ⟨e, he, -⟩
    · obtain rfl := Except.ok.inj (hs.symm.trans hs')
      rw [hnotes, enforce_mergeStep hb] at hpass
      cases hw with
      | padding hall | bothFamilies hall | budget hall => exact hnot hall
      | noNote _ hone => exact hone hcap
      | wrongFamily _ hone => exact hone (hcount.mono (mergeShape_within _ _ (take_subperm hk)))
      | @placeholder _ j _ hj hjcap hcounts hmax hover =>
        -- the loop kept at least as many notes, so what it kept is no smaller
        have hbytes := hpass.2.mono (mergeShape_within l.ironwoodActive destPool
          (take_subperm (hmost j hj hjcap hcounts)))
        exact absurd (hbytes hmax) (not_le.mpr hover)
    · cases hs.symm.trans he
  · intro hno
    have hcap : CapAllows r req destAddr (familyIsSapling notes) 1 :=
      by_contra fun h => hno (.noNote hall h)
    rcases boundedMerge_cases destPool hb hne hcap with
      ⟨k, s, hk, hklen, hkcap, hs, hnotes, hcount, -⟩ | ⟨e, -, hone⟩
    · refine ⟨_, ⟨(), hcap, s, hs, rfl⟩, ?_⟩
      rw [hnotes]
      refine (enforce_mergeStep hb).mpr ⟨hcount, fun hmax => not_lt.mp fun hover => ?_⟩
      exact hno (.placeholder hall hklen hkcap hcount hmax hover)
    · exact absurd (.wrongFamily hall hone) hno

theorem notes_fixes_iff (hb : BuilderCounts l r) (hne : notes ≠ []) :
    (∃ step, fixMerge l r req destAddr destPool (.notes notes) = .ok step ∧
      r.enforceCeilings ⟨step, []⟩ = .ok ()) ↔
        ¬ Wedges l r req destAddr destPool (.notes notes) := by
  cases hall : mergesAll r req destAddr notes with
  | true =>
    rw [← within_iff_of_mergesAll hall, ← enforce_mergeStep hb]
    simp only [fixMerge, hall, if_true, pure_eq_ok, exists_eq_left']
  | false => exact bounded_fixes_iff hb hne hall

theorem utxos_fixes_iff (hb : BuilderCounts l r) (hsome : SomePasses r destPool (.utxos utxos)) :
    (∃ step, fixMerge l r req destAddr destPool (.utxos utxos) = .ok step ∧
      r.enforceCeilings ⟨step, []⟩ = .ok ()) ↔
        ¬ Wedges l r req destAddr destPool (.utxos utxos) := by
  obtain ⟨_, hselects, hpass⟩ := hsome
  cases hselects with
  | utxos hne hsub =>
    obtain ⟨hcounts, -⟩ := (enforce_sweepStep hb).mp hpass
    have hlength : (selectMergeUtxos r req (destinationOf destAddr) utxos).length =
        min (min (min (req.transparentLimit.getD usizeMax) mergeMaxTransparentInputs)
          (maxTransparentInputs r.limits.maxTxBytes (mergeDestShape (destinationOf destAddr))))
            utxos.length := by
      rw [selectMergeUtxos, List.length_take, sortForMerge, List.length_mergeSort]
    have htaken : ∀ k, k ≤ (selectMergeUtxos r req (destinationOf destAddr) utxos).length ↔
        OutputsAllowed r req destAddr k ∧ k ≤ utxos.length := by
      intro k
      rw [hlength, le_min_iff, le_outputsCap_iff]
    simp only [fixMerge, bind_eq_ok, ensure_eq_ok, pure_eq_ok, Bool.not_eq_true',
      List.isEmpty_eq_false_iff]
    constructor
    · rintro ⟨_, ⟨_, hsome, rfl⟩, hpass'⟩ hw
      cases hw with
      | noOutput hcap =>
        exact hcap ((htaken 1).mp (List.length_pos_iff.mpr hsome)).1
      | outputPlaceholder hk hcap hmax hover =>
        have hbytes := ((enforce_sweepStep hb).mp hpass').2.mono
          (sweepShape_within l.ironwoodActive destPool ((htaken _).mpr ⟨hcap, hk⟩))
        exact absurd (hbytes hmax) (not_le.mpr hover)
    · intro hno
      have hallowed : OutputsAllowed r req destAddr 1 :=
        by_contra fun h => hno (.noOutput h)
      have hutxos : 1 ≤ utxos.length :=
        (Nat.succ_le_of_lt (List.length_pos_of_ne_nil hne)).trans hsub.length_le
      refine ⟨_, ⟨(), List.length_pos_iff.mp ((htaken 1).mpr ⟨hallowed, hutxos⟩), rfl⟩, ?_⟩
      refine (enforce_sweepStep hb).mpr ⟨⟨hcounts.actions, hcounts.zip218⟩,
        fun hmax => not_lt.mp fun hover => ?_⟩
      obtain ⟨hcap, hk⟩ := (htaken _).mp le_rfl
      exact hno (.outputPlaceholder hk hcap hmax hover)

theorem SomePasses.notes_ne_nil (h : SomePasses r destPool (.notes notes)) : notes ≠ [] := by
  obtain ⟨_, hselects, -⟩ := h
  cases hselects with
  | notes _ hne hsub _ =>
    obtain ⟨n, hn⟩ := List.exists_mem_of_ne_nil _ hne
    exact List.ne_nil_of_mem (hsub.subset hn)

theorem fixes_iff {m : Mergeable} (hb : BuilderCounts l r) (hsome : SomePasses r destPool m) :
    (∃ step, fixMerge l r req destAddr destPool m = .ok step ∧
      r.enforceCeilings ⟨step, []⟩ = .ok ()) ↔ ¬ Wedges l r req destAddr destPool m := by
  cases m with
  | notes notes => exact notes_fixes_iff hb hsome.notes_ne_nil
  | utxos utxos => exact utxos_fixes_iff hb hsome

/-- To a transparent destination the placeholder is the transaction. -/
theorem sweepTransparent_not_wedges {t : TransparentAddress} (hb : BuilderCounts l r)
    (hdest : destinationOf destAddr = some t) (hlimit : req.transparentLimit ≠ some 0)
    (hsome : SomePasses r .transparent (.utxos utxos)) :
    ¬ Wedges l r req destAddr .transparent (.utxos utxos) := by
  have hshape : ∀ n, sweepShape l.ironwoodActive .transparent n =
      { mergeDestShape (destinationOf destAddr) with transparentInputs := n } := by
    intro n
    rw [hdest]
    rfl
  have hfits : ∀ n, 0 < n → r.limits.maxTxBytes ≠ 0 → (n ≤ maxTransparentInputs
      r.limits.maxTxBytes (mergeDestShape (destinationOf destAddr)) ↔
        estimateBytes (sweepShape l.ironwoodActive .transparent n) ≤ r.limits.maxTxBytes) := by
    intro n hn hmax
    rw [le_maxTransparentInputs_iff hmax hn, hshape]
  obtain ⟨_, hselects, hpass⟩ := hsome
  cases hselects with
  | utxos hne hsub =>
    obtain ⟨-, hbytes⟩ := (enforce_sweepStep hb).mp hpass
    have hone := hbytes.mono (sweepShape_within l.ironwoodActive .transparent
      (List.length_pos_of_ne_nil hne))
    intro hw
    cases hw with
    | noOutput hcap =>
      refine hcap ⟨?_, by decide, ?_⟩
      · cases h : req.transparentLimit with
        | none => exact (by decide : 1 ≤ usizeMax)
        | some n => exact Nat.one_le_iff_ne_zero.mpr fun hn => hlimit (hn ▸ h)
      · by_cases hmax : r.limits.maxTxBytes = 0
        · rw [hmax]
          exact (by decide : 1 ≤ usizeMax)
        · exact (hfits 1 Nat.one_pos hmax).mpr (hone hmax)
    | @outputPlaceholder _ k _ hcap hmax hover =>
      cases k with
      | zero =>
        have hzero := (sweepShape_within l.ironwoodActive .transparent
          (Nat.zero_le 1)).estimateBytes.trans (hone hmax)
        exact absurd hzero (not_le.mpr hover)
      | succ k =>
        exact absurd ((hfits _ k.succ_pos hmax).mp hcap.bytes) (not_le.mpr hover)

end Zecd
