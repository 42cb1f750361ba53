import Zecd.Foundation.Fallible
import Zecd.Rpc.Error

/-! # Send requests and the privacy ladder

Addresses, payments and transaction requests as the send paths see them, the five
rungs of `[spend] privacy_policy`, the funding source of a send, and the
per-recipient checks of the RPC layer (`build_payment`).
-/

namespace Zecd

open Fallible

inductive ShieldedPool | sapling | orchard | ironwood
  deriving DecidableEq, Repr

inductive PoolType where
  | transparent
  | shielded (pool : ShieldedPool)
  deriving DecidableEq, Repr

/-- A transparent address: a key hash (P2PKH) or a script hash (P2SH). -/
inductive TransparentAddress where
  | publicKeyHash (hash : ℕ)
  | scriptHash (hash : ℕ)
  deriving DecidableEq, Repr

/-- Which receivers a unified address carries. -/
structure UnifiedAddress where
  orchard : Bool
  sapling : Bool
  transparent : Bool
  diversifier : ℕ
  deriving DecidableEq, Repr

inductive Address where
  | transparent (t : TransparentAddress)
  | sapling (diversifier : ℕ)
  | unified (ua : UnifiedAddress)
  | tex (t : TransparentAddress)
  deriving DecidableEq, Repr

def Address.canReceiveAs : Address → PoolType → Bool
  | .transparent _, .transparent => true
  | .tex _, .transparent => true
  | .sapling _, .shielded .sapling => true
  | .unified ua, .transparent => ua.transparent
  | .unified ua, .shielded .sapling => ua.sapling
  | .unified ua, .shielded .orchard => ua.orchard
  -- post-NU6.3 an Orchard receiver holds Ironwood notes
  | .unified ua, .shielded .ironwood => ua.orchard
  | _, _ => false

def hasOrchardReceiver (addr : Address) : Bool := addr.canReceiveAs (.shielded .orchard)

def hasShieldedReceiver (addr : Address) : Bool :=
  addr.canReceiveAs (.shielded .sapling) || addr.canReceiveAs (.shielded .orchard)

inductive NetworkType | main | test | regtest
  deriving DecidableEq, Repr

/-- An encoded address: what it pays and the network its encoding names. -/
structure ZcashAddress where
  net : NetworkType
  addr : Address
  deriving DecidableEq, Repr

/--
Transparent encodings share their prefix between testnet and regtest, so a regtest wallet
reads a testnet one; every other encoding names its network exactly.
-/
def ZcashAddress.convertIfNetwork (z : ZcashAddress) (net : NetworkType) : Option Address :=
  match z.addr with
  | .transparent _ =>
    if z.net = net ∨ (z.net = .test ∧ net = .regtest) then some z.addr else none
  | _ => if z.net = net then some z.addr else none

def ZcashAddress.canReceiveMemo (z : ZcashAddress) : Bool := hasShieldedReceiver z.addr

structure Payment where
  recipientAddress : ZcashAddress
  amount : Option ℕ
  memo : Option (List UInt8)
  deriving DecidableEq, Repr

structure TransactionRequest where
  payments : List Payment
  deriving DecidableEq, Repr

/-- `[spend] privacy_policy`: each rung permits everything the rungs below it permit. -/
inductive SendPrivacy
  | fullPrivacy
  | allowRevealedAmounts
  | allowRevealedRecipients
  | allowRevealedSenders
  | allowFullyTransparent
  deriving DecidableEq, Repr

namespace SendPrivacy

def allowsTransparentRecipient : SendPrivacy → Bool
  | allowRevealedRecipients | allowRevealedSenders | allowFullyTransparent => true
  | fullPrivacy | allowRevealedAmounts => false

def allowsTransparentInputs : SendPrivacy → Bool
  | allowRevealedSenders | allowFullyTransparent => true
  | fullPrivacy | allowRevealedAmounts | allowRevealedRecipients => false

def policyName : SendPrivacy → String
  | fullPrivacy => "FullPrivacy"
  | allowRevealedAmounts => "AllowRevealedAmounts"
  | allowRevealedRecipients => "AllowRevealedRecipients"
  | allowRevealedSenders => "AllowRevealedSenders"
  | allowFullyTransparent => "AllowFullyTransparent"

end SendPrivacy

inductive ShieldedFamily | sapling | orchard
  deriving DecidableEq, Repr

def ShieldedFamily.pools : ShieldedFamily → List ShieldedPool
  | sapling => [.sapling]
  | orchard => [.orchard, .ironwood]

inductive SendSource where
  | unspecified
  | shielded
  | shieldedFamily (family : ShieldedFamily)
  | transparent (fromAddress : Option TransparentAddress)
  deriving DecidableEq, Repr

def SendSource.isShielded : SendSource → Bool
  | shielded | shieldedFamily _ => true
  | unspecified | transparent _ => false

def SendSource.isTransparent : SendSource → Bool
  | transparent _ => true
  | _ => false

/-- The pools and, if any, the transparent outputs input selection may draw from. -/
structure SpendPolicy where
  shielded : List ShieldedPool
  transparent : Option (Option TransparentAddress)
  deriving DecidableEq, Repr

/-- `SpendPolicy::default()`: every shielded pool and no transparent spending. -/
def SpendPolicy.default : SpendPolicy := ⟨[.sapling, .orchard, .ironwood], none⟩

def spendPolicyForSource : SendSource → SpendPolicy
  | .unspecified | .shielded => .default
  | .shieldedFamily family => ⟨family.pools, none⟩
  | .transparent t => ⟨[], some t⟩

@[simp] theorem spendPolicyForSource_transparent_isNone (source : SendSource) :
    (spendPolicyForSource source).transparent.isNone = !source.isTransparent := by
  cases source <;> rfl

def requestPaysSaplingOutput (net : NetworkType) (request : TransactionRequest) : Bool :=
  request.payments.any fun p =>
    match p.recipientAddress.convertIfNetwork net with
    | some addr => hasShieldedReceiver addr && !hasOrchardReceiver addr
    | none => false

def requestPaysTransparentOutput (net : NetworkType) (request : TransactionRequest) : Bool :=
  request.payments.any fun p =>
    match p.recipientAddress.convertIfNetwork net with
    | some addr => !hasShieldedReceiver addr
    | none => false

/-- The `(address, amount)` recipients when every payment targets a bare transparent address. -/
def transparentRecipients (net : NetworkType) :
    List Payment → Except RpcError (Option (List (TransparentAddress × ℕ)))
  | [] => .ok (some [])
  | p :: ps =>
    match p.recipientAddress.convertIfNetwork net with
    | none => .error (.invalidParameter "invalid recipient address")
    | some (.transparent t) =>
      match p.amount with
      | none => .error (.invalidParameter "a send amount is required for each recipient")
      | some amount => do
        let rest ← transparentRecipients net ps
        return rest.map ((t, amount) :: ·)
    | some _ => .ok none

def transparentOnlyRecipients (net : NetworkType) (request : TransactionRequest) :
    Except RpcError (Option (List (TransparentAddress × ℕ))) :=
  if request.payments.isEmpty then .ok none else transparentRecipients net request.payments

/-- An address argument of an RPC call: its text, and the address it parses to. -/
structure RecipientArg where
  text : String
  parsed : Option ZcashAddress
  deriving DecidableEq, Repr

def parseRecipientOnNetwork (net : NetworkType) (arg : RecipientArg) :
    Except RpcError ZcashAddress :=
  match arg.parsed with
  | none => .error (.invalidAddressOrKey ("Invalid Zcash address: " ++ arg.text))
  | some z =>
    match z.convertIfNetwork net with
    | none => .error (.invalidAddressOrKey
        ("Address is not valid for the configured network: " ++ arg.text))
    | some _ => .ok z

/-- `Payment::new`: a recipient that cannot hold a memo takes neither a memo nor zero value. -/
def Payment.new (z : ZcashAddress) (zats : ℕ) (memo : Option (List UInt8)) : Option Payment :=
  if z.canReceiveMemo || (memo.isNone && zats != 0) then some ⟨z, some zats, memo⟩ else none

/-- A hex memo argument: absent, not hexadecimal, or the bytes it decodes to. -/
inductive MemoArg where
  | absent
  | notHex
  | bytes (bs : List UInt8)
  deriving DecidableEq, Repr

def MemoArg.decode : MemoArg → Except RpcError (Option (List UInt8))
  | absent => .ok none
  | notHex => .error (.invalidParameter
      "Invalid parameter, expected memo data in hexadecimal format.")
  | bytes bs =>
    if bs.length ≤ 512 then .ok (some bs)
    else .error (.invalidParameter
      "Invalid parameter, memo is longer than the maximum allowed 512 bytes.")

/--
One payment of `sendtoaddress`, `sendmany` or `z_sendmany`. `amount` is what
`value_to_zats` made of the JSON amount.
-/
def buildPayment (net : NetworkType) (privacy : SendPrivacy) (arg : RecipientArg)
    (amount : Except RpcError ℕ) (memo : MemoArg) (allowZero : Bool) :
    Except RpcError Payment := do
  let zaddr ← parseRecipientOnNetwork net arg
  let decoded := zaddr.convertIfNetwork net
  ensure (match decoded with | some (.tex _) => false | _ => true)
    (.invalidParameter
      ("Invalid parameter, TEX addresses are not supported as a recipient: " ++ arg.text))
  ensure (privacy.allowsTransparentRecipient || decoded.any hasShieldedReceiver)
    (.invalidParameter
      ("Privacy policy " ++ privacy.policyName ++ " rejects " ++ arg.text ++
        ": it has no shielded receiver, so paying it would reveal the amount and recipient " ++
        "on-chain. Use privacyPolicy \"AllowRevealedRecipients\" (or set [spend] " ++
        "privacy_policy) to permit this."))
  let zats ← amount
  ensure (allowZero || zats != 0) (.typeError "Invalid amount")
  let memo ← memo.decode
  match Payment.new zaddr zats memo with
  | some payment => .ok payment
  | none => .error (.invalidParameter "Memo cannot be used with a transparent recipient")

/-- What `build_payment` lets through: an address of this network, not a TEX one, with a
shielded receiver unless the policy allows a transparent recipient. -/
theorem buildPayment_ok {net : NetworkType} {privacy : SendPrivacy} {arg : RecipientArg}
    {amount : Except RpcError ℕ} {memo : MemoArg} {allowZero : Bool} {p : Payment}
    (h : buildPayment net privacy arg amount memo allowZero = .ok p) :
    ∃ addr, p.recipientAddress.convertIfNetwork net = some addr ∧ p.amount.isSome ∧
      (∀ t, addr ≠ .tex t) ∧
      (privacy.allowsTransparentRecipient = false → hasShieldedReceiver addr = true) := by
  simp only [buildPayment, bind_eq_ok, ensure_eq_ok] at h
  obtain ⟨z, hz, _, htex, _, hpriv, zats, _, _, _, memo', _, hnew⟩ := h
  have hp : Payment.new z zats memo' = some p := by
    split at hnew
    · rename_i heq; rw [heq]; exact congrArg some (Except.ok.inj hnew)
    · cases hnew
  have hpz : p.recipientAddress = z ∧ p.amount = some zats := by
    unfold Payment.new at hp
    split at hp
    · cases hp; exact ⟨rfl, rfl⟩
    · cases hp
  obtain ⟨addr, haddr⟩ : ∃ addr, z.convertIfNetwork net = some addr := by
    unfold parseRecipientOnNetwork at hz
    split at hz
    · cases hz
    · split at hz
      · cases hz
      · rename_i a ha
        cases hz
        exact ⟨a, ha⟩
  refine ⟨addr, by rw [hpz.1, haddr], by simp [hpz.2], ?_, ?_⟩
  · rintro t rfl
    simp [haddr] at htex
  · intro hno
    simpa [hno, haddr] using hpriv

end Zecd
