import Zecd.Foundation.Fallible
import Zecd.Sync.Coverage

/-! # Handing out transparent addresses

Three routes hand out external addresses of one index space: the wallet layer's next address,
the address past its full gap window, and an address at an index of the caller's choice. Every
address handed out is exposed and stays in the set the scan matches against. The route past
the window takes its index from the exposed rows; when these cannot be read it starts over
at index 0, and only there can an address be handed out again.
-/

namespace Zecd

open Runs Fallible

/-! ## The wallet layer -/

/-- What `get_next_available_address` answers: an index, whether the address there has a
transparent receiver, and the rows it leaves. -/
inductive NextAvailable where
  | found (j : ℕ) (transparent : Bool) (rows : AddressRows)
  | unavailable
  | reachedGapLimit
  | failed (why : String)

inductive AddressForIndex where
  | found (transparent : Bool) (rows : AddressRows)
  | unavailable
  | diversifierIndexReuse
  | failed (why : String)

/-- What the database answers one request; `receiversRead` is whether the receivers can be
read. -/
structure WalletAnswers where
  nextAvailable : NextAvailable
  receiversRead : Bool
  addressForIndex : ℕ → AddressForIndex

def AddressRows.Exposes (rows : AddressRows) (i : ℕ) (rows' : AddressRows) : Prop :=
  rows.recorded ⊆ rows'.recorded ∧ rows.exposed ⊆ rows'.exposed ∧ i ∈ rows'.exposed

/-- The next available index is an unexposed one, an address that is generated is exposed, and
only non-hardened child indices have transparent receivers. -/
structure WalletAnswers.Lawful (rows : AddressRows) (a : WalletAnswers) : Prop where
  next : ∀ j transparent rows', a.nextAvailable = .found j transparent rows' →
    j ∉ rows.exposed ∧ rows.Exposes j rows'
  exposes : ∀ i transparent rows', a.addressForIndex i = .found transparent rows' →
    rows.Exposes i rows'
  child : ∀ i rows', a.addressForIndex i = .found true rows' → i < nonHardenedChildren

/-! ## Requests -/

structure IssuanceConfig extends TransparentConfig where
  enabled : Bool

/-- An address as handed out, with the child index it was derived at. -/
structure DerivedAddress where
  address : Taddr
  index : ℕ
  deriving DecidableEq, Repr

def transparentNotEnabled : RpcError := .invalidParameter
  "transparent addresses are not enabled on this wallet (set [pools] transparent = true)"

def accountNotReady : RpcError := .wallet
  ("wallet account is not ready: it is being rebuilt from keys.toml on an empty data directory " ++
    "(an encrypted wallet must be unlocked with walletpassphrase first)")

/-- `transparent_child_index`: the non-hardened half of the child indices. -/
def transparentChildIndex (j : ℕ) : Option ℕ := if j < nonHardenedChildren then some j else none

def transparentReceiver (i : ℕ) (transparent : Bool) : Except RpcError Taddr :=
  if transparent then .ok (.external i)
  else .error (.wallet "derived address unexpectedly has no transparent receiver")

namespace MatcherState

def withRows (s : MatcherState) (rows : AddressRows) : MatcherState :=
  { s with db := { s.db with rows } }

def markDirty (s : MatcherState) : MatcherState := { s with setDirty := true }

/-- `expose_transparent_index`, with what the wallet layer answers for the index. -/
def exposeIndex (cfg : TransparentConfig) (s : MatcherState) (i : ℕ) (answer : AddressForIndex) :
    Except RpcError Taddr × MatcherState :=
  if cfg.recoveryHorizon ≤ i ∧ cfg.allowBeyondRecoveryWindow = false then
    (.error (beyondRecoveryHorizon cfg i), s)
  else
    let s := s.markDirty
    match answer with
    | .found transparent rows => (transparentReceiver i transparent, s.withRows rows)
    | .unavailable =>
      (.error (.wallet ("Error: no address at diversifier index " ++ toString i ++ ".")), s)
    | .diversifierIndexReuse =>
      (.error (.wallet ("Error: address at diversifier index " ++ toString i ++
        " was already generated with different receiver types.")), s)
    | .failed why => (.error (.wallet ("address generation failed: " ++ why)), s)

/-- `next_external_transparent_index`, with whether its read of the receivers succeeds. -/
def nextIndex (s : MatcherState) (receiversRead : Bool) : ℕ :=
  if receiversRead then s.db.rows.nextExternalTransparentIndex else 0

def newTransparentAddressBeyondGap (cfg : TransparentConfig) (s : MatcherState)
    (a : WalletAnswers) : Except RpcError DerivedAddress × MatcherState :=
  let next := s.nextIndex a.receiversRead
  let (reply, s) := s.exposeIndex cfg next (a.addressForIndex next)
  (reply.map (⟨·, next⟩), s)

def newTransparentAddress (cfg : IssuanceConfig) (s : MatcherState) (accountReady : Bool)
    (a : WalletAnswers) : Except RpcError DerivedAddress × MatcherState :=
  if cfg.enabled = false then (.error transparentNotEnabled, s)
  else if accountReady = false then (.error accountNotReady, s)
  else
    let s := s.markDirty
    match a.nextAvailable with
    | .found j transparent rows =>
      (do
        let taddr ← transparentReceiver j transparent
        match transparentChildIndex j with
        | some index => .ok ⟨taddr, index⟩
        | none => .error (.wallet ("derived transparent address at diversifier index " ++
            toString j ++ " outside the BIP 44 non-hardened child range")), s.withRows rows)
    | .unavailable =>
      (.error (.wallet ("no transparent address available for account; the account's viewing " ++
        "key may not support a transparent receiver")), s)
    | .reachedGapLimit => s.newTransparentAddressBeyondGap cfg.toTransparentConfig a
    | .failed why => (.error (.wallet ("address generation failed: " ++ why)), s)

/-- `transparent_address_for_account`; `getnewaddress` is the request without an index. -/
def transparentAddressForAccount (cfg : IssuanceConfig) (s : MatcherState) (accountReady : Bool)
    (diversifierIndex : Option ℕ) (a : WalletAnswers) :
    Except RpcError DerivedAddress × MatcherState :=
  if cfg.enabled = false then (.error transparentNotEnabled, s)
  else match diversifierIndex with
    | none => s.newTransparentAddress cfg accountReady a
    | some j =>
      match transparentChildIndex j with
      | none =>
        (.error (.invalidParameter ("diversifier index " ++ toString j ++ " is not a valid " ++
          "transparent child index: a transparent receiver is derived at a BIP 44 " ++
          "non-hardened index, so it must be less than " ++ toString (2 ^ 31) ++ ".")), s)
      | some index =>
        if accountReady = false then (.error accountNotReady, s)
        else
          let (reply, s) := s.exposeIndex cfg.toTransparentConfig index (a.addressForIndex index)
          (reply.map (⟨·, index⟩), s)

/-- The pass's rebuild: it is made if the set is dirty, and leaves the old set where one of its
two reads of the receivers fails. -/
def rebuildIfDirty (cfg : TransparentConfig) (s : MatcherState) (allRead externalRead : Bool) :
    MatcherState :=
  if s.setDirty ∧ allRead ∧ externalRead then
    { s with matcher := some (rebuildTransparentSet cfg s.db.rows s.db.change), setDirty := false }
  else s

end MatcherState

/-! ## Runs -/

/-- The wallet, and the addresses it has handed out, the latest first: whether the request
named an index, and the reply. -/
structure Issuance where
  wallet : MatcherState
  replies : List (Bool × DerivedAddress)

inductive IssuanceEvent where
  /-- `getnewaddress` or `z_getaddressforaccount` for a transparent address. -/
  | request (accountReady : Bool) (diversifierIndex : Option ℕ) (answers : WalletAnswers)
  | receive (out : ReceivedOutput)
  | preexpose (done : Option ℕ)
  | rebuild (allRead externalRead : Bool)
  | restart

def IssuanceEvent.step (cfg : IssuanceConfig) (gap : GapMaintenance) (s : Issuance) :
    IssuanceEvent → Issuance
  | .request ready index a =>
    let (reply, wallet) := s.wallet.transparentAddressForAccount cfg ready index a
    match reply with
    | .ok derived => ⟨wallet, (index.isSome, derived) :: s.replies⟩
    | .error _ => ⟨wallet, s.replies⟩
  | .receive out =>
    ⟨(MatcherEvent.receive out).step cfg.toTransparentConfig gap s.wallet, s.replies⟩
  | .preexpose done =>
    let rows := (preexposeChunk cfg.toTransparentConfig s.wallet.db.rows done).1
    ⟨(s.wallet.withRows rows).markDirty, s.replies⟩
  | .rebuild allRead externalRead =>
    ⟨s.wallet.rebuildIfDirty cfg.toTransparentConfig allRead externalRead, s.replies⟩
  | .restart => ⟨⟨s.wallet.db, none, true⟩, s.replies⟩

/-- A wallet that has handed out nothing yet, when its actor starts. -/
def Issuance.start (db : TransparentDb) : Issuance := ⟨⟨db, none, true⟩, []⟩

def IssuanceEvent.Lawful (s : Issuance) : IssuanceEvent → Prop
  | .request _ _ a => a.Lawful s.wallet.db.rows
  | _ => True

/-- No request without an index was answered with an address handed out before. -/
def Issuance.HandedOnce (s : Issuance) : Prop :=
  s.replies.Pairwise fun new old => new.1 = false → new.2.address ≠ old.2.address

/-- The request's route past the gap window cannot read the receivers, and hands out index 0. -/
def IssuanceEvent.StartsOver (cfg : IssuanceConfig) : IssuanceEvent → Prop
  | .request ready index a => cfg.enabled = true ∧ ready = true ∧ index = none ∧
      a.nextAvailable = .reachedGapLimit ∧ a.receiversRead = false ∧
      (0 < cfg.recoveryHorizon ∨ cfg.allowBeyondRecoveryWindow = true) ∧
      ∃ rows, a.addressForIndex 0 = .found true rows
  | _ => False

/-- A request that starts over at index 0 does so before that address was handed out. -/
def IssuanceEvent.StartsOverUnissued (cfg : IssuanceConfig) (s : Issuance) (e : IssuanceEvent) :
    Prop :=
  e.StartsOver cfg → ∀ r ∈ s.replies, r.2.index ≠ 0

/-! ## One request -/

section Requests

variable {cfg : TransparentConfig} {s s' : MatcherState} {a : WalletAnswers} {i j : ℕ}

/-- The route past the gap window never names an exposed index it could read. -/
theorem nextExternalTransparentIndex_not_mem {rows : AddressRows}
    (h : rows.nextExternalTransparentIndex < nonHardenedChildren) :
    rows.nextExternalTransparentIndex ∉ rows.exposed := by
  intro hmem
  have hle : saturatingAdd rows.nextExternalTransparentIndex 1 ≤
      rows.nextExternalTransparentIndex :=
    Finset.le_sup (f := (saturatingAdd · 1)) hmem
  simp only [saturatingAdd, u32Max, nonHardenedChildren] at hle h
  omega

theorem exposeIndex_eq_step {db : TransparentDb} (gap : GapMaintenance)
    (h : exposeTransparentIndex cfg s.db i = .ok db) :
    s.exposeIndex cfg i (.found true (s.db.rows.getAddressForIndex i)) =
      (.ok (.external i), (MatcherEvent.expose i).step cfg gap s) := by
  have hdb := exposeTransparentIndex_ok h
  have hhorizon : ¬ (cfg.recoveryHorizon ≤ i ∧ cfg.allowBeyondRecoveryWindow = false) := by
    intro hbeyond
    rw [exposeTransparentIndex, if_pos hbeyond] at h
    cases h
  simp only [MatcherState.exposeIndex, if_neg hhorizon, MatcherEvent.step, h, hdb]
  rfl

/-- What a request leaves of the wallet: the rows grow, the set stays, and is not clean if it
was dirty. -/
structure MatcherState.GrowsTo (s s' : MatcherState) : Prop where
  grows : s.db.Grows s'.db
  matcher : s'.matcher = s.matcher
  dirty : s.setDirty = true → s'.setDirty = true

namespace MatcherState.GrowsTo

theorem refl (s : MatcherState) : s.GrowsTo s := ⟨.refl _, rfl, id⟩

theorem trans {s'' : MatcherState} (h : s.GrowsTo s') (h' : s'.GrowsTo s'') : s.GrowsTo s'' :=
  ⟨h.grows.trans h'.grows, h'.matcher.trans h.matcher, h'.dirty ∘ h.dirty⟩

theorem markDirty (s : MatcherState) : s.GrowsTo s.markDirty := ⟨.refl _, rfl, fun _ => rfl⟩

theorem withRows {rows : AddressRows} (hrec : s.db.rows.recorded ⊆ rows.recorded)
    (hexp : s.db.rows.exposed ⊆ rows.exposed) : s.GrowsTo (s.withRows rows) :=
  ⟨⟨hrec, hexp, rfl, subset_rfl⟩, rfl, id⟩

end MatcherState.GrowsTo

theorem not_beyond_iff : ¬ (cfg.recoveryHorizon ≤ i ∧ cfg.allowBeyondRecoveryWindow = false) ↔
    i < cfg.recoveryHorizon ∨ cfg.allowBeyondRecoveryWindow = true := by
  rw [not_and_or, Nat.not_le, Bool.not_eq_false]

/-- An index is exposed only within the recovery horizon, or past it where that is allowed, and
only if the layer finds a transparent receiver there. -/
theorem exposeIndex_ok_iff {answer : AddressForIndex} {taddr : Taddr} :
    (s.exposeIndex cfg i answer).1 = .ok taddr ↔ taddr = .external i ∧
      (i < cfg.recoveryHorizon ∨ cfg.allowBeyondRecoveryWindow = true) ∧
      ∃ rows, answer = .found true rows := by
  unfold MatcherState.exposeIndex
  split_ifs with hhorizon
  · constructor
    · intro h
      cases h
    · rintro ⟨_, hin, _⟩
      exact absurd hhorizon (not_beyond_iff.mpr hin)
  · have hin := not_beyond_iff.mp hhorizon
    cases answer with
    | found transparent rows =>
      cases transparent with
      | true =>
        constructor
        · intro h
          cases h
          exact ⟨rfl, hin, rows, rfl⟩
        · rintro ⟨rfl, _⟩
          rfl
      | false => simp [transparentReceiver]
    | unavailable => simp
    | diversifierIndexReuse => simp
    | failed why => simp

theorem exposeIndex_growsTo (ha : a.Lawful s.db.rows) :
    s.GrowsTo (s.exposeIndex cfg i (a.addressForIndex i)).2 := by
  unfold MatcherState.exposeIndex
  split_ifs with hhorizon
  · exact .refl s
  · have hdirty := MatcherState.GrowsTo.markDirty s
    cases hfound : a.addressForIndex i with
    | found transparent rows =>
      obtain ⟨hrec, hexp, _⟩ := ha.exposes i transparent rows hfound
      exact hdirty.trans (.withRows hrec hexp)
    | unavailable => exact hdirty
    | diversifierIndexReuse => exact hdirty
    | failed why => exact hdirty

theorem exposeIndex_exposed (ha : a.Lawful s.db.rows) {taddr : Taddr}
    (h : (s.exposeIndex cfg i (a.addressForIndex i)).1 = .ok taddr) :
    i ∈ (s.exposeIndex cfg i (a.addressForIndex i)).2.db.rows.exposed ∧
      (s.exposeIndex cfg i (a.addressForIndex i)).2.setDirty = true := by
  obtain ⟨_, hin, rows, hfound⟩ := exposeIndex_ok_iff.mp h
  rw [MatcherState.exposeIndex, if_neg (not_beyond_iff.mpr hin), hfound]
  exact ⟨(ha.exposes i true rows hfound).2.2, rfl⟩

theorem transparentReceiver_ok {transparent : Bool} {taddr : Taddr}
    (h : transparentReceiver i transparent = .ok taddr) :
    taddr = .external i ∧ transparent = true := by
  cases transparent with
  | true => cases h; exact ⟨rfl, rfl⟩
  | false => cases h

theorem map_index_ok {reply : Except RpcError Taddr} {d : DerivedAddress} :
    reply.map (⟨·, i⟩) = .ok d ↔ reply = .ok d.address ∧ d.index = i := by
  cases reply with
  | error e => simp [Except.map]
  | ok taddr =>
    simp only [Except.map, Except.ok.injEq]
    constructor
    · rintro rfl
      exact ⟨rfl, rfl⟩
    · rintro ⟨rfl, rfl⟩
      rfl

end Requests

section Answers

variable {cfg : IssuanceConfig} {s : MatcherState} {ready : Bool} {index : Option ℕ}
  {a : WalletAnswers} {d : DerivedAddress}

theorem newTransparentAddress_growsTo (ha : a.Lawful s.db.rows) :
    s.GrowsTo (s.newTransparentAddress cfg ready a).2 := by
  unfold MatcherState.newTransparentAddress
  split_ifs with henabled hready
  · exact .refl s
  · exact .refl s
  · have hdirty := MatcherState.GrowsTo.markDirty s
    cases hnext : a.nextAvailable with
    | found j transparent rows =>
      obtain ⟨_, hrec, hexp, _⟩ := ha.next j transparent rows hnext
      exact hdirty.trans (.withRows hrec hexp)
    | unavailable => exact hdirty
    | reachedGapLimit => exact hdirty.trans (exposeIndex_growsTo ha)
    | failed why => exact hdirty

theorem transparentAddressForAccount_growsTo (ha : a.Lawful s.db.rows) :
    s.GrowsTo (s.transparentAddressForAccount cfg ready index a).2 := by
  unfold MatcherState.transparentAddressForAccount
  split
  · exact .refl s
  · split
    · exact newTransparentAddress_growsTo ha
    · split
      · exact .refl s
      · split
        · exact .refl s
        · exact exposeIndex_growsTo ha

/-- What a reply with an address promises of the wallet it leaves. -/
structure MatcherState.HandsOut (s' : MatcherState) (d : DerivedAddress) : Prop where
  address : d.address = .external d.index
  exposed : d.index ∈ s'.db.rows.exposed
  dirty : s'.setDirty = true

theorem exposeIndex_handsOut {i : ℕ} (ha : a.Lawful s.db.rows)
    (h : (s.exposeIndex cfg.toTransparentConfig i (a.addressForIndex i)).1 = .ok d.address)
    (hi : d.index = i) :
    (s.exposeIndex cfg.toTransparentConfig i (a.addressForIndex i)).2.HandsOut d := by
  subst hi
  exact ⟨(exposeIndex_ok_iff.mp h).1, (exposeIndex_exposed ha h).1, (exposeIndex_exposed ha h).2⟩

theorem newTransparentAddress_routes
    (h : (s.newTransparentAddress cfg ready a).1 = .ok d) : cfg.enabled = true ∧ ready = true ∧
      ((∃ j rows, a.nextAvailable = .found j true rows ∧ d = ⟨.external j, j⟩ ∧
          (s.newTransparentAddress cfg ready a).2 = s.markDirty.withRows rows) ∨
        a.nextAvailable = .reachedGapLimit ∧ s.newTransparentAddress cfg ready a =
          s.markDirty.newTransparentAddressBeyondGap cfg.toTransparentConfig a) := by
  cases henabled : cfg.enabled with
  | false => simp [MatcherState.newTransparentAddress, henabled] at h
  | true =>
    cases ready with
    | false => simp [MatcherState.newTransparentAddress, henabled] at h
    | true =>
      refine ⟨rfl, rfl, ?_⟩
      simp only [MatcherState.newTransparentAddress, henabled, Bool.true_eq_false, if_false] at h ⊢
      cases hnext : a.nextAvailable with
      | found j transparent rows =>
        left
        simp only [hnext] at h
        obtain ⟨taddr, htaddr, hchild⟩ := bind_eq_ok.mp h
        obtain ⟨rfl, rfl⟩ := transparentReceiver_ok htaddr
        unfold transparentChildIndex at hchild
        split at hchild
        · rename_i index hindex
          split at hindex
          · cases hindex
            cases hchild
            exact ⟨j, rows, rfl, rfl, rfl⟩
          · cases hindex
        · cases hchild
      | unavailable => simp [hnext] at h
      | reachedGapLimit => exact .inr ⟨rfl, rfl⟩
      | failed why => simp [hnext] at h

/-- An address asked for without an index is a new one, unless the request starts over. -/
theorem newTransparentAddress_handsOut (ha : a.Lawful s.db.rows)
    (h : (s.newTransparentAddress cfg ready a).1 = .ok d) :
    (s.newTransparentAddress cfg ready a).2.HandsOut d ∧
      (d.index ∉ s.db.rows.exposed ∨
        (IssuanceEvent.request ready none a).StartsOver cfg ∧ d.index = 0) := by
  obtain ⟨henabled, hready, ⟨j, rows, hnext, rfl, hs⟩ | ⟨hnext, hbeyond⟩⟩ :=
    newTransparentAddress_routes h
  · obtain ⟨hfresh, _, _, hexposed⟩ := ha.next j true rows hnext
    rw [hs]
    exact ⟨⟨rfl, hexposed, rfl⟩, .inl hfresh⟩
  · rw [hbeyond] at h ⊢
    obtain ⟨hok, hindex⟩ := map_index_ok.mp h
    refine ⟨exposeIndex_handsOut ha hok hindex, ?_⟩
    obtain ⟨_, hin, rows, hfound⟩ := exposeIndex_ok_iff.mp hok
    have hchild := ha.child _ rows hfound
    cases hread : a.receiversRead with
    | true =>
      left
      rw [hread] at hindex hchild
      rw [hindex]
      exact nextExternalTransparentIndex_not_mem hchild
    | false =>
      right
      rw [hread] at hindex hin hfound
      exact ⟨⟨henabled, hready, rfl, hnext, hread, hin, rows, hfound⟩, hindex⟩

theorem startsOver_ok (h : (IssuanceEvent.request ready index a).StartsOver cfg) :
    (s.transparentAddressForAccount cfg ready index a).1 = .ok ⟨.external 0, 0⟩ := by
  obtain ⟨henabled, rfl, rfl, hnext, hread, hin, rows, hfound⟩ := h
  simp only [MatcherState.transparentAddressForAccount, MatcherState.newTransparentAddress,
    henabled, Bool.true_eq_false, if_false, hnext, MatcherState.newTransparentAddressBeyondGap,
    MatcherState.nextIndex, hread]
  exact map_index_ok.mpr ⟨exposeIndex_ok_iff.mpr ⟨rfl, hin, rows, hfound⟩, rfl⟩

theorem transparentAddressForAccount_handsOut (ha : a.Lawful s.db.rows)
    (h : (s.transparentAddressForAccount cfg ready index a).1 = .ok d) :
    (s.transparentAddressForAccount cfg ready index a).2.HandsOut d ∧
      (index = none → d.index ∉ s.db.rows.exposed ∨
        (IssuanceEvent.request ready index a).StartsOver cfg ∧ d.index = 0) := by
  cases henabled : cfg.enabled with
  | false => simp [MatcherState.transparentAddressForAccount, henabled] at h
  | true =>
    simp only [MatcherState.transparentAddressForAccount, henabled, Bool.true_eq_false,
      if_false] at h ⊢
    cases index with
    | none =>
      obtain ⟨hout, hnew⟩ := newTransparentAddress_handsOut ha h
      exact ⟨hout, fun _ => hnew⟩
    | some j =>
      cases hchild : transparentChildIndex j with
      | none => simp [hchild] at h
      | some i =>
        cases ready with
        | false => simp [hchild] at h
        | true =>
          simp only [hchild, Bool.true_eq_false, if_false] at h ⊢
          obtain ⟨hok, hindex⟩ := map_index_ok.mp h
          exact ⟨exposeIndex_handsOut ha hok hindex, by simp⟩

end Answers

/-! ## Whole runs -/

/-- What was handed out is exposed, and in the set unless a rebuild is due. -/
structure Issuance.Known (s : Issuance) : Prop where
  exposed : ∀ r ∈ s.replies, r.2.address = .external r.2.index ∧
    r.2.index ∈ s.wallet.db.rows.exposed
  covered : s.wallet.setDirty = false → ∀ r ∈ s.replies, s.wallet.Covers r.2.index

section Steps

variable {cfg : IssuanceConfig} {gap : GapMaintenance} {s : Issuance} {e : IssuanceEvent}

theorem start_known (db : TransparentDb) : (Issuance.start db).Known :=
  ⟨fun _ h => absurd h List.not_mem_nil, fun _ _ h => absurd h List.not_mem_nil⟩

theorem Issuance.Known.mono (h : s.Known) {wallet : MatcherState}
    (hgrows : s.wallet.GrowsTo wallet) : (Issuance.mk wallet s.replies).Known := by
  constructor
  · intro r hr
    exact ⟨(h.exposed r hr).1, hgrows.grows.exposed (h.exposed r hr).2⟩
  · intro hclean r hr
    have hwas : s.wallet.setDirty = false := by
      cases hdirty : s.wallet.setDirty with
      | false => rfl
      | true =>
        have hstill : wallet.setDirty = true := hgrows.dirty hdirty
        rw [show wallet.setDirty = false from hclean] at hstill
        cases hstill
    obtain ⟨m, hm, hcov⟩ := h.covered hwas r hr
    exact ⟨m, hgrows.matcher.trans hm, hcov⟩

theorem receive_growsTo (cfg : TransparentConfig) (gap : GapMaintenance) (w : MatcherState)
    (out : ReceivedOutput) : w.GrowsTo ((MatcherEvent.receive out).step cfg gap w) := by
  simp only [MatcherEvent.step]
  split
  · exact .refl w
  · split
    · refine ⟨TransparentDb.grows_recordReceive .., rfl, ?_⟩
      intro hdirty
      simp [hdirty]
    · exact .refl w

theorem preexpose_growsTo (cfg : TransparentConfig) (w : MatcherState) (done : Option ℕ) :
    w.GrowsTo (w.withRows (preexposeChunk cfg w.db.rows done).1) := by
  unfold preexposeChunk
  split_ifs with hnone
  · exact .refl w
  · simp only
    split_ifs with hdone hrange
    · exact .refl w
    · exact .refl w
    · apply MatcherState.GrowsTo.withRows
      · rw [(foldl_getAddressForIndex ..).1]
        exact Finset.subset_union_left
      · rw [(foldl_getAddressForIndex ..).2]
        exact Finset.subset_union_left

theorem rebuildIfDirty_known (h : s.Known) (allRead externalRead : Bool) :
    (Issuance.mk (s.wallet.rebuildIfDirty cfg.toTransparentConfig allRead externalRead)
      s.replies).Known := by
  unfold MatcherState.rebuildIfDirty
  split
  · refine ⟨h.exposed, fun _ r hr => ⟨_, rfl, ?_⟩⟩
    rw [rebuild_covers]
    exact .inl (s.wallet.db.rows.exposed_subset (h.exposed r hr).2)
  · exact h

theorem restart_known (h : s.Known) : (Issuance.mk ⟨s.wallet.db, none, true⟩ s.replies).Known := by
  refine ⟨h.exposed, ?_⟩
  intro hclean
  cases hclean

theorem step_replies (cfg : IssuanceConfig) (gap : GapMaintenance) (s : Issuance)
    (e : IssuanceEvent) : (e.step cfg gap s).replies = s.replies ∨
      ∃ ready index a d, e = .request ready index a ∧
        (s.wallet.transparentAddressForAccount cfg ready index a).1 = .ok d ∧
        e.step cfg gap s = ⟨(s.wallet.transparentAddressForAccount cfg ready index a).2,
          (index.isSome, d) :: s.replies⟩ := by
  cases e with
  | request ready index a =>
    cases hreply : (s.wallet.transparentAddressForAccount cfg ready index a).1 with
    | ok d =>
      right
      refine ⟨ready, index, a, d, rfl, hreply, ?_⟩
      simp only [IssuanceEvent.step, hreply]
    | error why =>
      left
      simp only [IssuanceEvent.step, hreply]
  | receive out => exact .inl rfl
  | preexpose done => exact .inl rfl
  | rebuild allRead externalRead => exact .inl rfl
  | restart => exact .inl rfl

theorem Issuance.Known.step (h : s.Known) (hL : e.Lawful s) : (e.step cfg gap s).Known := by
  cases e with
  | request ready index a =>
    have hgrows : s.wallet.GrowsTo (s.wallet.transparentAddressForAccount cfg ready index a).2 :=
      transparentAddressForAccount_growsTo hL
    have hkeep := h.mono hgrows
    cases hreply : (s.wallet.transparentAddressForAccount cfg ready index a).1 with
    | error why =>
      simp only [IssuanceEvent.step, hreply]
      exact hkeep
    | ok d =>
      simp only [IssuanceEvent.step, hreply]
      obtain ⟨hout, _⟩ := transparentAddressForAccount_handsOut hL hreply
      constructor
      · intro r hr
        rcases List.mem_cons.mp hr with rfl | hr
        · exact ⟨hout.address, hout.exposed⟩
        · exact hkeep.exposed r hr
      · intro hclean
        rw [hout.dirty] at hclean
        cases hclean
  | receive out => exact h.mono (receive_growsTo ..)
  | preexpose done => exact h.mono ((preexpose_growsTo ..).trans (.markDirty _))
  | rebuild allRead externalRead => exact rebuildIfDirty_known h allRead externalRead
  | restart => exact restart_known h

theorem handedOnce_step (h : s.Known) (honce : s.HandedOnce) (hL : e.Lawful s)
    (hright : e.StartsOverUnissued cfg s) : (e.step cfg gap s).HandedOnce := by
  rcases step_replies cfg gap s e with hsame | ⟨ready, index, a, d, rfl, hreply, hstep⟩
  · rw [Issuance.HandedOnce, hsame]
    exact honce
  · rw [hstep]
    refine List.pairwise_cons.mpr ⟨?_, honce⟩
    intro old hold hindexless
    obtain ⟨hout, hnew⟩ := transparentAddressForAccount_handsOut hL hreply
    rw [hout.address, (h.exposed old hold).1]
    intro heq
    injection heq with heq
    have hnone : index = none := by simpa using hindexless
    rcases hnew hnone with hfresh | ⟨hover, hzero⟩
    · exact hfresh (heq ▸ (h.exposed old hold).2)
    · exact hright hover old hold (heq.symm.trans hzero)

/-- A request that starts over once index 0 was handed out hands it out again. -/
theorem startsOverUnissued_of_handedOnce (h : s.Known)
    (honce : (e.step cfg gap s).HandedOnce) : e.StartsOverUnissued cfg s := by
  intro hover r hr hzero
  cases e with
  | request ready index a =>
    obtain ⟨_, _, rfl, _⟩ := id hover
    have hreply := startsOver_ok (s := s.wallet) hover
    simp only [IssuanceEvent.step, hreply, Issuance.HandedOnce, List.pairwise_cons] at honce
    refine honce.1 r hr rfl ?_
    rw [(h.exposed r hr).1, hzero]
  | receive out => exact hover
  | preexpose done => exact hover
  | rebuild allRead externalRead => exact hover
  | restart => exact hover

end Steps

section Law

variable (cfg : IssuanceConfig) (gap : GapMaintenance)

/-- In every state the run reaches, no address was handed out again. -/
def HandedOnceAlong (db : TransparentDb) (es : List IssuanceEvent) : Prop :=
  ∀ es', es' <+: es → (run (IssuanceEvent.step cfg gap) (.start db) es').HandedOnce

/-- Every address handed out during the run is exposed, and the next rebuild whose reads succeed
leaves it in the set. -/
def HandedOutCovered (db : TransparentDb) (es : List IssuanceEvent) : Prop :=
  ∀ r ∈ (run (IssuanceEvent.step cfg gap) (.start db) es).replies,
    r.2.index ∈ (run (IssuanceEvent.step cfg gap) (.start db) es).wallet.db.rows.exposed ∧
    (run (IssuanceEvent.step cfg gap) (.start db) (es ++ [.rebuild true true])).wallet.Covers
      r.2.index

variable {cfg gap}

theorem rebuildIfDirty_clean (cfg : TransparentConfig) (w : MatcherState) :
    (w.rebuildIfDirty cfg true true).setDirty = false := by
  unfold MatcherState.rebuildIfDirty
  split_ifs with h
  · rfl
  · simpa using h

theorem handedOutCovered_of_lawful {db : TransparentDb} {es : List IssuanceEvent}
    (hL : Along (IssuanceEvent.step cfg gap) (fun s e => e.Lawful s) (.start db) es) :
    HandedOutCovered cfg gap db es := by
  intro r hr
  have hknown : (run (IssuanceEvent.step cfg gap) (.start db) es).Known :=
    invariant (fun _ _ h hlaw => h.step hlaw) (start_known db) hL
  refine ⟨(hknown.exposed r hr).2, ?_⟩
  rw [run_append]
  exact (rebuildIfDirty_known hknown true true).covered (rebuildIfDirty_clean ..) r hr

end Law

/-- Over a lawful wallet layer no request without an index hands out an address again exactly in
the runs in which none starts over at index 0 after that address was handed out; and what is
handed out is always exposed and covered. -/
theorem handedOnce_iff (cfg : IssuanceConfig) (gap : GapMaintenance) (db : TransparentDb)
    (es : List IssuanceEvent)
    (hL : Along (IssuanceEvent.step cfg gap) (fun s e => e.Lawful s) (.start db) es) :
    (HandedOnceAlong cfg gap db es ↔
      Along (IssuanceEvent.step cfg gap) (fun s e => e.StartsOverUnissued cfg s) (.start db) es) ∧
    HandedOutCovered cfg gap db es := by
  refine ⟨?_, handedOutCovered_of_lawful hL⟩
  exact forall_reached_iff_along_of (I := fun s => s.Known ∧ s.HandedOnce)
    (fun _ _ hs hlaw hright => ⟨hs.1.step hlaw, handedOnce_step hs.1 hs.2 hlaw hright⟩)
    (fun _ hs => hs.2) (fun _ _ hs _ honce => startsOverUnissued_of_handedOnce hs.1 honce)
    ⟨start_known db, List.Pairwise.nil⟩ hL

/-- A window of three addresses and no floor. -/
def shortWindow : IssuanceConfig := ⟨⟨0, 3, none, false⟩, true⟩

def noRows : AddressRows := ⟨∅, ∅, subset_rfl⟩

/-- The layer hands out this index, which is the only one the wallet has exposed then. -/
def firstAddress (i : ℕ) : WalletAnswers :=
  ⟨.found i true (noRows.getAddressForIndex i), true, fun _ => .unavailable⟩

/-- The gap window is full; every derivable index can be exposed. -/
def pastTheGap (rows : AddressRows) (receiversRead : Bool) : WalletAnswers :=
  ⟨.reachedGapLimit, receiversRead,
    fun i => if i < nonHardenedChildren then .found true (rows.getAddressForIndex i)
      else .unavailable⟩

theorem firstAddress_lawful {i : ℕ} : (firstAddress i).Lawful noRows := by
  refine ⟨?_, ?_, ?_⟩
  · intro j transparent rows h
    cases h
    exact ⟨Finset.notMem_empty _, Finset.subset_insert .., Finset.subset_insert ..,
      Finset.mem_insert_self ..⟩
  · intro j transparent rows h
    cases h
  · intro j rows h
    cases h

theorem pastTheGap_lawful (rows : AddressRows) (read : Bool) :
    (pastTheGap rows read).Lawful rows := by
  have hfound : ∀ i transparent rows', (pastTheGap rows read).addressForIndex i =
      .found transparent rows' → i < nonHardenedChildren ∧ rows' = rows.getAddressForIndex i := by
    intro i transparent rows' h
    simp only [pastTheGap] at h
    split at h
    · cases h
      exact ⟨‹_›, rfl⟩
    · cases h
  refine ⟨?_, ?_, ?_⟩
  · intro j transparent rows' h
    cases h
  · intro i transparent rows' h
    obtain ⟨_, rfl⟩ := hfound i transparent rows' h
    exact ⟨Finset.subset_insert .., Finset.subset_insert .., Finset.mem_insert_self ..⟩
  · intro i rows' h
    exact (hfound i true rows' h).1

/-- Index 0 is handed out; the window fills up, the receivers cannot be read, and index 0 is
handed out to the next caller. -/
theorem unreadReceivers_reissue :
    Along (IssuanceEvent.step shortWindow (fullGap shortWindow.toTransparentConfig))
      (fun s e => e.Lawful s) (.start ⟨noRows, ∅, ∅⟩)
      [.request true none (firstAddress 0),
        .request true none (pastTheGap (noRows.getAddressForIndex 0) false)] ∧
    ¬ HandedOnceAlong shortWindow (fullGap shortWindow.toTransparentConfig) ⟨noRows, ∅, ∅⟩
      [.request true none (firstAddress 0),
        .request true none (pastTheGap (noRows.getAddressForIndex 0) false)] := by
  refine ⟨⟨firstAddress_lawful, pastTheGap_lawful .., trivial⟩, ?_⟩
  intro h
  have hlast := h _ (List.prefix_refl _)
  rw [Issuance.HandedOnce] at hlast
  exact (List.pairwise_cons.mp hlast).1 _ (List.mem_cons_self ..) rfl rfl

/-- Read, the same window hands out index 0, index 1 to a caller who names it, and after a
restart index 2. -/
theorem readReceivers_handedOnce :
    HandedOnceAlong shortWindow (fullGap shortWindow.toTransparentConfig) ⟨noRows, ∅, ∅⟩
      [.request true none (firstAddress 0),
        .request true (some 1) (pastTheGap (noRows.getAddressForIndex 0) true), .restart,
        .request true none
          (pastTheGap ((noRows.getAddressForIndex 0).getAddressForIndex 1) true)] := by
  have hL : Along (IssuanceEvent.step shortWindow (fullGap shortWindow.toTransparentConfig))
      (fun s e => e.Lawful s) (.start ⟨noRows, ∅, ∅⟩)
      [.request true none (firstAddress 0),
        .request true (some 1) (pastTheGap (noRows.getAddressForIndex 0) true), .restart,
        .request true none
          (pastTheGap ((noRows.getAddressForIndex 0).getAddressForIndex 1) true)] :=
    ⟨firstAddress_lawful, pastTheGap_lawful .., trivial, pastTheGap_lawful .., trivial⟩
  refine (handedOnce_iff shortWindow _ _ _ hL).1.mpr ⟨?_, ?_, ?_, ?_, trivial⟩
  · rintro ⟨_, _, _, hnext, _⟩
    cases hnext
  · rintro ⟨_, _, hindex, _⟩
    cases hindex
  · intro h
    exact h.elim
  · rintro ⟨_, _, _, _, hread, _⟩
    cases hread

end Zecd
