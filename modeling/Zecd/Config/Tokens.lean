import Zecd.Config.Show
import Zecd.Foundation.Fallible

/-! # Words of the configuration

The words that some settings are written with, and how they are read. Each word that is shown
reads back as what it stands for.
-/

namespace Zecd.Config

open Fallible Text

/-- An error, its outermost context first. -/
abbrev Fault := List String

def context {α : Type} (text : String) : Except Fault α → Except Fault α
  | .error e => .error (text :: e)
  | .ok a => .ok a

/-- What the process reads apart from its configuration file. -/
structure Host where
  readFile : Path → Except String (List UInt8)
  readToString : Path → Except String (List Char)
  /-- Text as it is quoted in errors. -/
  debug : List Char → String

/-! ## Reading words -/

def ZNetwork.parse (s : List Char) : Except Fault ZNetwork :=
  let s := trim s
  if s ∈ ["main".toList, "mainnet".toList] then .ok .main
  else if s ∈ ["test".toList, "testnet".toList] then .ok .test
  else if s = "regtest".toList then .ok .regtest
  else .error ["unsupported network: " ++ String.ofList s]

def parseTlsMode (s : List Char) : Except Fault (Option Bool) :=
  let s := Hex.asciiLower (trim s)
  if s = "auto".toList then .ok none
  else if s ∈ ["yes".toList, "true".toList, "on".toList, "tls".toList] then .ok (some true)
  else if s ∈ ["no".toList, "false".toList, "off".toList, "plaintext".toList] then
    .ok (some false)
  else .error ["invalid tls '" ++ String.ofList s ++ "', expected 'auto', 'yes', or 'no'"]

def TlsRoots.parse (s : List Char) : Except Fault TlsRoots :=
  let s := Hex.asciiLower (trim s)
  if s ∈ ["native".toList, "system".toList] then .ok .native
  else if s ∈ ["webpki".toList, "mozilla".toList] then .ok .webpki
  else .error ["invalid tls_roots '" ++ String.ofList s ++ "', expected 'native' or 'webpki'"]

/-- 32 bytes in hex; colons and the case of the digits do not matter. What the hex library says of
a digit it does not know is left out of the error. -/
def CertFingerprint.parse (s : List Char) : Except Fault CertFingerprint :=
  let hexOnly := (trim s).filter (· ≠ ':')
  let invalid := "invalid SHA-256 certificate fingerprint '" ++ String.ofList s ++ "'"
  let size := (hexOnly.map Char.utf8Size).sum
  if size ≠ 64 then
    .error [invalid ++ ": expected 64 hex digits (32 bytes), with or without ':' separators, " ++
      "got " ++ toString size]
  else
    match Hex.decode hexOnly with
    | none => .error [invalid]
    | some bytes => if h : bytes.length = 32 then .ok ⟨bytes, h⟩ else .error [invalid]

def SendPrivacy.parse (s : List Char) : Except Fault SendPrivacy :=
  if s = "FullPrivacy".toList then .ok .fullPrivacy
  else if s = "AllowRevealedAmounts".toList then .ok .allowRevealedAmounts
  else if s = "AllowRevealedRecipients".toList then .ok .allowRevealedRecipients
  else if s = "AllowRevealedSenders".toList then .ok .allowRevealedSenders
  else if s = "AllowFullyTransparent".toList then .ok .allowFullyTransparent
  else .error ["[spend] privacy_policy must be \"FullPrivacy\", \"AllowRevealedAmounts\", " ++
    "\"AllowRevealedRecipients\", \"AllowRevealedSenders\", or \"AllowFullyTransparent\" " ++
    "(got \"" ++ String.ofList s ++ "\")"]

def ReadinessMode.parse (host : Host) (s : List Char) : Except Fault ReadinessMode :=
  if s = "synced".toList then .ok .synced
  else if s = "scanned".toList then .ok .scanned
  else if s = "connected".toList then .ok .connected
  else .error ["invalid [health] readiness " ++ host.debug s ++
    ": expected \"synced\", \"scanned\" or \"connected\""]

/-! ## Receivers -/

/-- `from_config_str`; nothing stands for the transparent receiver, which no set holds. -/
def fromConfigStr (host : Host) (s : List Char) : Except Fault (Option Receiver) :=
  let token := trim s
  let lower := Hex.asciiLower token
  if lower = "sapling".toList then .ok (some .sapling)
  else if lower = "orchard".toList then .ok (some .orchard)
  else if lower = "transparent".toList then .ok none
  else if lower = "ironwood".toList then
    .error ["\"ironwood\" is a value pool, not a receiver: ironwood notes are Orchard V3 " ++
      "notes received at ordinary \"orchard\" addresses, so there is no ironwood receiver to " ++
      "name here. Name \"orchard\" instead - on a NU6.3-active chain an orchard receiver is " ++
      "already holding ironwood notes. See the [pools] notes in zecd.example.toml"]
  else
    .error ["unknown receiver " ++ host.debug token ++
      "; receivers are sapling, orchard, transparent"]

namespace ReceiverSet

def single (r : Receiver) : ReceiverSet := ⟨[r], by cases r <;> decide⟩

def noPools : Fault := ["at least one shielded pool is required"]

/-- The supported receivers that were given, in their order. -/
def new (given : List (Option Receiver)) : Except Fault ReceiverSet :=
  if none ∈ given then
    .error ["transparent is not a shielded pool; enable transparent receiving via the [pools] " ++
      "transparent flag, not as a pool/receiver"]
  else
    let pools := [Receiver.sapling, .orchard].filter fun r => decide (some r ∈ given)
    if h : pools ∈ [[Receiver.sapling], [.orchard], [.sapling, .orchard]] then .ok ⟨pools, h⟩
    else .error noPools

def parse (host : Host) (tokens : List (List Char)) : Except Fault ReceiverSet :=
  if tokens = [] then .error noPools
  else do new (← tokens.mapM (fromConfigStr host))

def isSubsetOf (s t : ReceiverSet) : Bool := s.pools.all fun r => decide (r ∈ t.pools)

def displayNames (s : ReceiverSet) : String :=
  String.ofList ([',', ' '].intercalate s.names)

end ReceiverSet

/-! ## Each word reads back -/

theorem parse_name (n : ZNetwork) : ZNetwork.parse n.name.toList = .ok n := by
  cases n <;> rfl

theorem parse_tlsMode (tls : Option Bool) : parseTlsMode (tlsMode tls).toList = .ok tls := by
  rcases tls with _ | _ | _ <;> rfl

theorem parse_tlsRoots (r : TlsRoots) : TlsRoots.parse r.show.toList = .ok r := by
  cases r <;> rfl

theorem parse_privacy (p : SendPrivacy) : SendPrivacy.parse p.show.toList = .ok p := by
  cases p <;> rfl

theorem parse_readiness (host : Host) (m : ReadinessMode) :
    ReadinessMode.parse host m.asStr.toList = .ok m := by
  cases m <;> rfl

theorem parse_names (host : Host) (s : ReceiverSet) :
    ReceiverSet.parse host s.names = .ok s := by
  obtain ⟨pools, h⟩ := s
  fin_cases h <;> rfl

/-! ## A fingerprint reads back -/

section Fingerprint

def upperDigits (b : UInt8) : List Char := (Hex.byteDigits b).map Char.toUpper

theorem digit_shown : ∀ d < 16, (Nat.digitChar d).toUpper.toLower = Nat.digitChar d ∧
    isWhitespace (Nat.digitChar d).toUpper = false ∧ (Nat.digitChar d).toUpper ≠ ':' ∧
    (Nat.digitChar d).toUpper.utf8Size = 1 := by
  decide

theorem mem_upperDigits {b : UInt8} {c : Char} (hc : c ∈ upperDigits b) :
    ∃ d < 16, c = (Nat.digitChar d).toUpper := by
  simp only [upperDigits, Hex.byteDigits, List.map_cons, List.map_nil, List.mem_cons,
    List.not_mem_nil, or_false] at hc
  have hb := b.toNat_lt
  rcases hc with rfl | rfl
  · exact ⟨b.toNat / 16, by omega, rfl⟩
  · exact ⟨b.toNat % 16, by omega, rfl⟩

theorem asciiLower_upperDigits (b : UInt8) :
    Hex.asciiLower (upperDigits b) = Hex.byteDigits b := by
  have hb := b.toNat_lt
  simp only [Hex.asciiLower, upperDigits, Hex.byteDigits, List.map_cons, List.map_nil,
    (digit_shown (b.toNat / 16) (by omega)).1, (digit_shown (b.toNat % 16) (by omega)).1]

theorem filter_intercalate {sep : Char} {xs : List (List Char)}
    (h : ∀ x ∈ xs, ∀ c ∈ x, c ≠ sep) :
    ([sep].intercalate xs).filter (· ≠ sep) = xs.flatten := by
  induction xs with
  | nil => rfl
  | cons x xs ih =>
    have hx : x.filter (· ≠ sep) = x :=
      List.filter_eq_self.mpr fun c hc => decide_eq_true (h x List.mem_cons_self c hc)
    cases xs with
    | nil => simpa [List.intercalate] using hx
    | cons y ys =>
      rw [List.intercalate_cons_cons, List.filter_append, List.filter_append, hx,
        ih fun z hz => h z (List.mem_cons_of_mem _ hz)]
      simp

theorem trim_eq_self_of_forall {s : List Char} (h : ∀ c ∈ s, isWhitespace c = false) :
    trim s = s := by
  have hfront : s.dropWhile isWhitespace = s := by
    cases s with
    | nil => rfl
    | cons c s => exact List.dropWhile_cons_of_neg (by simp [h c List.mem_cons_self])
  rw [trim, hfront, List.rdropWhile_eq_self_iff]
  intro hne
  simp [h _ (List.getLast_mem hne)]

theorem filter_display (f : CertFingerprint) :
    f.display.filter (· ≠ ':') = f.bytes.flatMap upperDigits := by
  rw [CertFingerprint.display, filter_intercalate, List.flatMap_def]
  · rfl
  · intro x hx c hc
    obtain ⟨b, -, rfl⟩ := List.mem_map.mp hx
    obtain ⟨d, hd, rfl⟩ := mem_upperDigits hc
    exact (digit_shown d hd).2.2.1

theorem trim_display (f : CertFingerprint) : trim f.display = f.display := by
  apply trim_eq_self_of_forall
  intro c hc
  by_cases hcolon : c = ':'
  · subst hcolon
    decide
  · have hmem : c ∈ f.display.filter (· ≠ ':') :=
      List.mem_filter.mpr ⟨hc, decide_eq_true hcolon⟩
    rw [filter_display] at hmem
    obtain ⟨b, -, hb⟩ := List.mem_flatMap.mp hmem
    obtain ⟨d, hd, rfl⟩ := mem_upperDigits hb
    exact (digit_shown d hd).2.1

theorem sum_utf8Size (bytes : List UInt8) :
    ((bytes.flatMap upperDigits).map Char.utf8Size).sum = 2 * bytes.length := by
  induction bytes with
  | nil => rfl
  | cons b bytes ih =>
    have hb := b.toNat_lt
    have hhigh := (digit_shown (b.toNat / 16) (by omega)).2.2.2
    have hlow := (digit_shown (b.toNat % 16) (by omega)).2.2.2
    rw [List.flatMap_cons, List.map_append, List.sum_append, ih, List.length_cons]
    simp only [upperDigits, Hex.byteDigits, List.map_cons, List.map_nil, hhigh, hlow,
      List.sum_cons, List.sum_nil]
    omega

theorem decode_upperDigits (bytes : List UInt8) :
    Hex.decode (bytes.flatMap upperDigits) = some bytes := by
  rw [← Hex.decode_asciiLower, ← Hex.decode_encode bytes]
  congr 1
  simp only [Hex.asciiLower, List.map_flatMap, Hex.encode]
  exact List.flatMap_congr fun b _ => asciiLower_upperDigits b

theorem parse_fingerprint (f : CertFingerprint) : CertFingerprint.parse f.display = .ok f := by
  have hsize : ¬ ((f.bytes.flatMap upperDigits).map Char.utf8Size).sum ≠ 64 := by
    rw [sum_utf8Size, f.length_eq]
    decide
  simp only [CertFingerprint.parse, trim_display, filter_display, if_neg hsize,
    decode_upperDigits, dif_pos f.length_eq]

end Fingerprint

end Zecd.Config
