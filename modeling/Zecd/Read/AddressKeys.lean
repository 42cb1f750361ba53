import Zecd.Read.History
import Zecd.Rpc.Error

/-! # Addresses and the diversifier indices behind them

One diversifier index has several encodings: unified addresses carrying any of its receivers, and
the bare Sapling address. Which of them a database recorded depends on who wrote the row. The
received-by methods file an address under the encoding the wallet issues, and look its index up
under the account's viewing key, for which the key layer is a parameter.
-/

namespace Zecd.ReceivedBy

/-! ## The key layer -/

inductive Receiver where
  | sapling
  | orchard
  deriving DecidableEq, Repr

structure ReceiverSet where
  pools : List Receiver
  nonempty : pools ≠ []

structure UnifiedReceivers where
  orchard : Option ℕ
  sapling : Option ℕ
  transparent : Option ℕ
  deriving DecidableEq, Repr

inductive DecodedAddress where
  | transparent (receiver : ℕ)
  | tex (receiver : ℕ)
  | sapling (receiver : ℕ)
  | unified (ua : UnifiedReceivers)
  deriving DecidableEq, Repr

inductive KeyScope where
  | external
  | internal
  deriving DecidableEq, Repr

def KeyScope.code : KeyScope → ℤ
  | .external => 0
  | .internal => 1

/-- The codec of the wallet's network, each account's viewing key, and the addresses the wallet
layer lists for an account. A receiver has an index under the key it was derived from. -/
structure KeyLayer where
  decodeOnNetwork : String → Option DecodedAddress
  encode : UnifiedReceivers → String
  orchardReceiverIndex : AccountUuid → ℕ → Option (ℕ × KeyScope)
  saplingReceiverIndex : AccountUuid → ℕ → Option (ℕ × KeyScope)
  listAddresses : AccountUuid → List String
  transparentReceivers : AccountUuid → List String

/-! ## Issued encodings -/

/-- `UnifiedAddress::from_receivers`: none without a shielded receiver. -/
def fromReceivers (orchard sapling transparent : Option ℕ) : Option UnifiedReceivers :=
  if orchard.isNone && sapling.isNone then none else some ⟨orchard, sapling, transparent⟩

/-- The configured receivers of a unified address, never the transparent one. -/
def UnifiedReceivers.keep (receivers : ReceiverSet) (ua : UnifiedReceivers) :
    Option UnifiedReceivers :=
  fromReceivers (ua.orchard.filter fun _ => receivers.pools.contains .orchard)
    (ua.sapling.filter fun _ => receivers.pools.contains .sapling) none

def issuedEncoding (keys : KeyLayer) (s : String) (receivers : ReceiverSet) : Option String :=
  match keys.decodeOnNetwork s with
  | some (.unified ua) => (ua.keep receivers).map keys.encode
  | _ => none

/-- `received_address_key`: what is filed under an address, the string itself where it has no
issued encoding. -/
def receivedAddressKey (keys : KeyLayer) (receivers : ReceiverSet) (addr : String) : String :=
  (issuedEncoding keys addr receivers).getD addr

/-! ## Ownership -/

def scopedAccounts (db : HistoryDb) (scope : AccountScope) : List AccountUuid :=
  (db.accounts.map AccountRow.uuid).filter fun a => !scope.excludes a

/-- The index and scope one account's key recovers: the Orchard receiver settles it first. -/
def indexUnder (keys : KeyLayer) (decoded : DecodedAddress) (a : AccountUuid) :
    Option (ℕ × KeyScope) :=
  match decoded with
  | .unified ua => (ua.orchard.bind (keys.orchardReceiverIndex a)).or
      (ua.sapling.bind (keys.saplingReceiverIndex a))
  | .sapling receiver => keys.saplingReceiverIndex a receiver
  | .transparent _ => none
  | .tex _ => none

def diversifierIndexOf (keys : KeyLayer) (db : HistoryDb) (scope : AccountScope)
    (addr : String) : Option (ℕ × KeyScope) :=
  (keys.decodeOnNetwork addr).bind fun decoded =>
    (scopedAccounts db scope).findSome? (indexUnder keys decoded)

inductive UaReceivers where
  | notApplicable
  | foreign
  | mineConsistent
  | inconsistent (why : String)
  deriving DecidableEq, Repr

def classifyReceiversWithUfvk (keys : KeyLayer) (a : AccountUuid) (ua : UnifiedReceivers) :
    UaReceivers :=
  let recovered := [ua.sapling.map (keys.saplingReceiverIndex a),
    ua.orchard.map (keys.orchardReceiverIndex a)].filterMap id
  let resolved := recovered.filterMap id
  match resolved with
  | [] => .foreign
  | first :: _ =>
    if recovered.any Option.isNone then
      .inconsistent "unified address combines a receiver owned by this wallet with one that is not"
    else if resolved.all (· == first) then .mineConsistent
    else .inconsistent ("unified address combines this wallet's receivers from different " ++
      "diversifier indices")

/-- Both shielded receivers are there to be compared. -/
def UnifiedReceivers.twoShielded (ua : UnifiedReceivers) : Bool :=
  ua.sapling.isSome && ua.orchard.isSome

/-- `classify_unified_receivers`: the first account that is not foreign to the address settles
it. -/
def classifyUnifiedReceivers (keys : KeyLayer) (db : HistoryDb) (scope : AccountScope)
    (addr : String) : UaReceivers :=
  match keys.decodeOnNetwork addr with
  | some (.unified ua) =>
    if ua.twoShielded then
      (((scopedAccounts db scope).map fun a => classifyReceiversWithUfvk keys a ua).find?
        (· != .foreign)).getD .foreign
    else .notApplicable
  | _ => .notApplicable

/-- An incoming viewing key recognises the receivers of its external scope. -/
def externalIndex (found : Option (ℕ × KeyScope)) : Bool := found.any (·.2 == .external)

/-- The cryptographic part of `is_mine` for one account. -/
def isMineUnder (keys : KeyLayer) (a : AccountUuid) : DecodedAddress → Bool
  | .unified ua =>
    if ua.transparent.isSome then false
    else if ua.twoShielded then classifyReceiversWithUfvk keys a ua == .mineConsistent
    else externalIndex (ua.sapling.bind (keys.saplingReceiverIndex a)) ||
      externalIndex (ua.orchard.bind (keys.orchardReceiverIndex a))
  | .sapling receiver => externalIndex (keys.saplingReceiverIndex a receiver)
  | .transparent _ => false
  | .tex _ => false

def isMine (keys : KeyLayer) (db : HistoryDb) (scope : AccountScope) (addr : String) : Bool :=
  (scopedAccounts db scope).any fun a =>
    (keys.listAddresses a).contains addr || (keys.transparentReceivers a).contains addr ||
      (keys.decodeOnNetwork addr).any (isMineUnder keys a)

/-! ## Recorded encodings -/

/-- A history database with the account of each row of `addresses`. -/
structure ReceivedDb extends HistoryDb where
  addressAccount : AddressRow → ℕ

def recordedEncodingsOf (keys : KeyLayer) (db : ReceivedDb) (scope : AccountScope)
    (addr : String) : List String :=
  match diversifierIndexOf keys db.toHistoryDb scope addr with
  | none => []
  | some (index, keyScope) =>
    (db.addresses.filter fun x => x.diversifierIndex == index && x.keyScope == keyScope.code &&
      db.scopeById scope (db.addressAccount x)).map AddressRow.address

def receivedAddressCandidates (keys : KeyLayer) (db : ReceivedDb) (scope : AccountScope)
    (addr : String) : List String :=
  let candidates := recordedEncodingsOf keys db scope addr
  if candidates.contains addr then candidates else candidates ++ [addr]

theorem mem_receivedAddressCandidates {keys : KeyLayer} {db : ReceivedDb} {scope : AccountScope}
    {addr s : String} : s ∈ receivedAddressCandidates keys db scope addr ↔
      s ∈ recordedEncodingsOf keys db scope addr ∨ s = addr := by
  simp only [receivedAddressCandidates]
  split
  · rename_i h
    rw [List.contains_iff_mem] at h
    constructor
    · exact .inl
    · rintro (hs | rfl)
      · exact hs
      · exact h
  · rw [List.mem_append, List.mem_singleton]

/-! ## Laws of the key layer -/

/-- Receivers taken from a decodable unified address encode to an address that decodes to them,
and a receiver belongs to one account's key. -/
structure KeyLayer.Lawful (keys : KeyLayer) : Prop where
  decode_encode : ∀ s ua receivers ua', keys.decodeOnNetwork s = some (.unified ua) →
    ua.keep receivers = some ua' → keys.decodeOnNetwork (keys.encode ua') = some (.unified ua')
  orchard_owner : ∀ a b receiver p q, keys.orchardReceiverIndex a receiver = some p →
    keys.orchardReceiverIndex b receiver = some q → a = b
  sapling_owner : ∀ a b receiver p q, keys.saplingReceiverIndex a receiver = some p →
    keys.saplingReceiverIndex b receiver = some q → a = b

/-- Both addresses are unified and carry the same configured receivers, at least one. -/
def SameConfigured (keys : KeyLayer) (receivers : ReceiverSet) (s t : String) : Prop :=
  ∃ u v kept, keys.decodeOnNetwork s = some (.unified u) ∧
    keys.decodeOnNetwork t = some (.unified v) ∧
    u.keep receivers = some kept ∧ v.keep receivers = some kept

variable {keys : KeyLayer} {receivers : ReceiverSet} {s t x : String}

theorem keep_keep {ua kept : UnifiedReceivers} (h : ua.keep receivers = some kept) :
    kept.keep receivers = some kept := by
  simp only [UnifiedReceivers.keep, fromReceivers, Option.ite_none_left_eq_some] at h
  obtain ⟨hsome, hkept⟩ := h
  obtain rfl := Option.some.inj hkept
  simp only [UnifiedReceivers.keep, fromReceivers, Option.filter_filter, Bool.and_self]
  exact if_neg hsome

theorem issuedEncoding_eq_some : issuedEncoding keys s receivers = some x ↔
    ∃ ua kept, keys.decodeOnNetwork s = some (.unified ua) ∧ ua.keep receivers = some kept ∧
      keys.encode kept = x := by
  unfold issuedEncoding
  split
  · rename_i ua hdecode
    rw [Option.map_eq_some_iff, hdecode]
    constructor
    · rintro ⟨kept, hkept, hx⟩
      exact ⟨ua, kept, rfl, hkept, hx⟩
    · rintro ⟨ua', kept, hua, hkept, hx⟩
      cases hua
      exact ⟨kept, hkept, hx⟩
  · rename_i hother
    constructor
    · intro h
      cases h
    · rintro ⟨ua, _, hdecode, _⟩
      exact absurd hdecode (hother ua)

variable (hkeys : keys.Lawful)
include hkeys

theorem issuedEncoding_issued (h : issuedEncoding keys s receivers = some x) :
    issuedEncoding keys x receivers = some x := by
  obtain ⟨ua, kept, hdecode, hkept, rfl⟩ := issuedEncoding_eq_some.mp h
  exact issuedEncoding_eq_some.mpr
    ⟨kept, kept, hkeys.decode_encode s ua receivers kept hdecode hkept, keep_keep hkept, rfl⟩

theorem receivedAddressKey_key (s : String) :
    receivedAddressKey keys receivers (receivedAddressKey keys receivers s) =
      receivedAddressKey keys receivers s := by
  cases h : issuedEncoding keys s receivers with
  | none => simp [receivedAddressKey, h]
  | some x => simp [receivedAddressKey, h, issuedEncoding_issued hkeys h]

/-- Two different addresses are filed together exactly when they carry the same configured
receivers. -/
theorem receivedAddressKey_eq_iff (hne : s ≠ t) :
    receivedAddressKey keys receivers s = receivedAddressKey keys receivers t ↔
      SameConfigured keys receivers s t := by
  constructor
  · intro h
    cases hs : issuedEncoding keys s receivers with
    | none =>
      cases ht : issuedEncoding keys t receivers with
      | none => exact absurd (by simpa [receivedAddressKey, hs, ht] using h) hne
      | some y =>
        obtain rfl : s = y := by simpa [receivedAddressKey, hs, ht] using h
        rw [issuedEncoding_issued hkeys ht] at hs
        cases hs
    | some x =>
      cases ht : issuedEncoding keys t receivers with
      | none =>
        obtain rfl : x = t := by simpa [receivedAddressKey, hs, ht] using h
        rw [issuedEncoding_issued hkeys hs] at ht
        cases ht
      | some y =>
        obtain rfl : x = y := by simpa [receivedAddressKey, hs, ht] using h
        obtain ⟨u, kept, hu, hkept, hx⟩ := issuedEncoding_eq_some.mp hs
        obtain ⟨v, kept', hv, hkept', hx'⟩ := issuedEncoding_eq_some.mp ht
        have hdecode := hkeys.decode_encode s u receivers kept hu hkept
        rw [hx, ← hx', hkeys.decode_encode t v receivers kept' hv hkept'] at hdecode
        cases hdecode
        exact ⟨u, v, kept, hu, hv, hkept, hkept'⟩
  · rintro ⟨u, v, kept, hu, hv, hkept, hkept'⟩
    have hs := issuedEncoding_eq_some.mpr ⟨u, kept, hu, hkept, rfl⟩
    have ht := issuedEncoding_eq_some.mpr ⟨v, kept, hv, hkept', rfl⟩
    simp [receivedAddressKey, hs, ht]

end Zecd.ReceivedBy
