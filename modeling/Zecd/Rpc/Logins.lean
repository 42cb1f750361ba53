import Zecd.Foundation.KeyedText
import Zecd.Rpc.Auth

/-! # Logins

A header is accepted exactly where it carries a user and a password that are configured. A minted
line configures the login it was minted for, unless its user name has a colon in it.
-/

namespace Zecd.Auth

open Config (Fault RpcConfig Path context)
open Fallible Text KeyedText

variable {c : Crypto} {drawn : Drawn} {rpc : RpcConfig} {users : List Credential}
  {user password entry s : List Char} {header : Option (List Char)} {h : PasswordHash}
  {writeCookie : Path → List Char → Except String Unit} {a : Authenticator}

/-! ## Lines -/

theorem splitOnce_singleton_iff {d : Char} {before after : List Char} :
    splitOnce [d] s = some (before, after) ↔ s = before ++ d :: after ∧ d ∉ before := by
  constructor
  · intro hs
    refine ⟨by simpa using splitOnce_eq_some hs, ?_⟩
    induction s generalizing before with
    | nil => cases hs
    | cons e es ih =>
      rw [splitOnce] at hs
      split at hs
      · cases hs
        exact List.not_mem_nil
      · next hne =>
        obtain ⟨⟨before', after'⟩, hrest, heq⟩ := Option.map_eq_some_iff.mp hs
        cases heq
        rintro (_ | ⟨_, hmem⟩)
        · simp at hne
        · exact ih hrest hmem
  · rintro ⟨rfl, hd⟩
    exact splitOnce_singleton hd

theorem parse_eq_ok : PasswordHash.parse s = .ok h ↔
    ∃ digits, s = h.salt ++ '$' :: digits ∧ '$' ∉ h.salt ∧ Hex.decode digits = some h.hash.1 := by
  unfold PasswordHash.parse
  constructor
  · intro hs
    cases hsplit : splitOnce ['$'] s with
    | none =>
      rw [hsplit] at hs
      cases hs
    | some parts =>
      obtain ⟨salt, digits⟩ := parts
      obtain ⟨rfl, hsalt⟩ := splitOnce_singleton_iff.mp hsplit
      rw [hsplit] at hs
      dsimp only at hs
      cases hdecode : Hex.decode digits with
      | none =>
        rw [hdecode] at hs
        cases hs
      | some bytes =>
        rw [hdecode] at hs
        dsimp only at hs
        split at hs
        · cases hs
          exact ⟨digits, rfl, hsalt, hdecode⟩
        · cases hs
  · rintro ⟨digits, rfl, hsalt, hdecode⟩
    rw [splitOnce_singleton hsalt]
    dsimp only
    rw [hdecode]
    dsimp only
    rw [dif_pos h.hash.2]

theorem context_eq_ok {α : Type} {text : String} {x : Except Fault α} {v : α} :
    context text x = .ok v ↔ x = .ok v := by
  cases x with
  | error e => exact iff_of_false (by rintro ⟨⟩) (by rintro ⟨⟩)
  | ok v => rfl

theorem parseAuthEntry_eq_ok : parseAuthEntry entry = .ok (user, h) ↔
    ∃ digits, entry = user ++ ':' :: (h.salt ++ '$' :: digits) ∧ ':' ∉ user ∧ '$' ∉ h.salt ∧
      Hex.decode digits = some h.hash.1 := by
  unfold parseAuthEntry
  cases hsplit : splitOnce [':'] entry with
  | none =>
    dsimp only
    refine iff_of_false (by rintro ⟨⟩) ?_
    rintro ⟨digits, rfl, huser, -⟩
    rw [splitOnce_singleton huser] at hsplit
    cases hsplit
  | some parts =>
    obtain ⟨user', pwhash⟩ := parts
    obtain ⟨rfl, huser'⟩ := splitOnce_singleton_iff.mp hsplit
    simp only [bind_eq_ok, context_eq_ok, parse_eq_ok, Except.ok.injEq]
    constructor
    · rintro ⟨h', ⟨digits, rfl, hsalt, hdecode⟩, heq⟩
      cases heq
      exact ⟨digits, rfl, huser', hsalt, hdecode⟩
    · rintro ⟨digits, heq, huser, hsalt, hdecode⟩
      have hboth := splitOnce_singleton_iff.mpr ⟨heq, huser⟩
      rw [hsplit] at hboth
      cases hboth
      exact ⟨h, ⟨digits, rfl, hsalt, hdecode⟩, rfl⟩

theorem check_iff : h.check c password = true ↔ c.mac h.salt password = h.hash := decide_eq_true_iff

theorem line_iff : Line c entry user password ↔
    ∃ h, parseAuthEntry entry = .ok (user, h) ∧ h.check c password = true := by
  simp only [parseAuthEntry_eq_ok, check_iff]
  constructor
  · rintro ⟨salt, digits, rfl, huser, hsalt, hdecode⟩
    exact ⟨⟨salt, c.mac salt password⟩, ⟨digits, rfl, huser, hsalt, hdecode⟩, rfl⟩
  · rintro ⟨h, ⟨digits, rfl, huser, hsalt, hdecode⟩, hmac⟩
    exact ⟨h.salt, digits, rfl, huser, hsalt, by rw [hmac, hdecode]⟩

/-! ## The credentials of a configuration -/

theorem mem_parseAuthEntries (hp : parseAuthEntries rpc = .ok users) :
    (user, h) ∈ users ↔ ∃ entry ∈ rpc.auth, parseAuthEntry entry = .ok (user, h) := by
  unfold parseAuthEntries at hp
  generalize rpc.auth = entries at hp
  induction entries generalizing users with
  | nil =>
    rw [List.mapM_nil, pure_eq_ok] at hp
    subst hp
    simp
  | cons e es ih =>
    obtain ⟨b, bs, hb, hbs, rfl⟩ := mapM_cons_ok.mp hp
    rw [List.mem_cons, ih hbs, List.exists_mem_cons_iff, hb, Except.ok.injEq, eq_comm]

theorem rejectEmptyPasswords_eq_ok : rejectEmptyPasswords c rpc users = .ok () ↔
    rpc.password ≠ some [] ∧ ∀ entry ∈ users, entry.2.check c [] = false := by
  unfold rejectEmptyPasswords
  by_cases hempty : rpc.password = some []
  · rw [if_pos hempty]
    exact iff_of_false (by rintro ⟨⟩) fun h => h.1 hempty
  · rw [if_neg hempty]
    cases hfind : users.find? fun entry => entry.2.check c [] with
    | none =>
      refine iff_of_true rfl ⟨hempty, fun entry hentry => ?_⟩
      simpa using List.find?_eq_none.mp hfind entry hentry
    | some found =>
      refine iff_of_false (by rintro ⟨⟩) fun h => ?_
      have hfound := List.find?_some hfind
      rw [h.2 found (List.mem_of_find?_eq_some hfind)] at hfound
      cases hfound

theorem users_of_withCookie (ha : withCookie c writeCookie drawn rpc users = .ok a) :
    a.users = users ++
      [(cookieUser, PasswordHash.fromBare c drawn.salt (Hex.encode drawn.password))] := by
  unfold withCookie at ha
  cases hfile : rpc.cookiefile with
  | none =>
    rw [hfile] at ha
    cases ha
  | some cookiefile =>
    rw [hfile] at ha
    dsimp only at ha
    split at ha <;> cases ha
    rfl

theorem fromConfig_cases (ha : Authenticator.fromConfig c writeCookie drawn rpc = .ok a) :
    ∃ users, parseAuthEntries rpc = .ok users ∧ rejectEmptyPasswords c rpc users = .ok () ∧
      a.users = users ++
        [((bare drawn rpc).1, PasswordHash.fromBare c drawn.salt (bare drawn rpc).2)] := by
  unfold Authenticator.fromConfig at ha
  obtain ⟨users, husers, ha⟩ := bind_eq_ok.mp ha
  obtain ⟨_, hreject, ha⟩ := bind_eq_ok.mp ha
  refine ⟨users, husers, hreject, ?_⟩
  unfold bare
  cases huser : rpc.user with
  | none =>
    rw [huser] at ha
    exact users_of_withCookie ha
  | some user =>
    cases hpassword : rpc.password with
    | none =>
      rw [huser, hpassword] at ha
      exact users_of_withCookie ha
    | some password =>
      rw [huser, hpassword] at ha
      cases ha
      rfl

theorem withCookie_verdict (c : Crypto) (writeCookie : Path → List Char → Except String Unit)
    (drawn : Drawn) (rpc : RpcConfig) (users : List Credential) :
    (∀ e, (if rpc.cookiefile.isSome then .ok () else .error noAuthConfigured :
        Except Fault Unit) = .error e → withCookie c writeCookie drawn rpc users = .error e) ∧
    ((if rpc.cookiefile.isSome then .ok () else .error noAuthConfigured :
        Except Fault Unit) = .ok () → (∃ a, withCookie c writeCookie drawn rpc users = .ok a) ∨
      ∃ path text e, rpc.cookiefile = some path ∧ writeCookie path text = .error e ∧
        withCookie c writeCookie drawn rpc users =
          .error ["writing cookie file " ++ String.ofList path.display, e]) := by
  unfold withCookie
  cases rpc.cookiefile with
  | none =>
    refine ⟨fun e he => ?_, fun h => by cases h⟩
    cases he
    rfl
  | some path =>
    constructor
    · rintro e ⟨⟩
    · intro _
      dsimp only
      cases hwrite : writeCookie path (cookieUser ++ ':' :: Hex.encode drawn.password) with
      | error e => exact Or.inr ⟨path, _, e, rfl, hwrite, rfl⟩
      | ok _ => exact Or.inl ⟨_, rfl⟩

theorem check_eq_true : a.check c header = true ↔
    ∃ user password, credentials c header = some (user, password) ∧
      ∃ h, (user, h) ∈ a.users ∧ h.check c password = true := by
  unfold Authenticator.check
  cases hcreds : credentials c header with
  | none => exact iff_of_false Bool.false_ne_true (by rintro ⟨_, _, hnone, -⟩; cases hnone)
  | some creds =>
    obtain ⟨user, password⟩ := creds
    have hfold : ∀ (entries : List Credential) (found : Bool), entries.foldl
        (fun found entry => found || (decide (entry.1 = user) && entry.2.check c password))
          found = (found || entries.any fun entry =>
            decide (entry.1 = user) && entry.2.check c password) := by
      intro entries
      induction entries with
      | nil => simp
      | cons e es ih =>
        intro found
        rw [List.foldl_cons, ih, List.any_cons, Bool.or_assoc]
    simp only [hfold, Bool.false_or, List.any_eq_true, Bool.and_eq_true, decide_eq_true_eq]
    constructor
    · rintro ⟨⟨_, h⟩, hmem, rfl, hcheck⟩
      exact ⟨_, _, rfl, h, hmem, hcheck⟩
    · rintro ⟨_, _, heq, h, hmem, hcheck⟩
      cases heq
      exact ⟨_, hmem, rfl, hcheck⟩

theorem colon_notMem_of_credentials (hcreds : credentials c header = some (user, password)) :
    ':' ∉ user := by
  unfold credentials at hcreds
  simp only [Option.bind_eq_bind, Option.bind_eq_some_iff] at hcreds
  obtain ⟨_, -, _, -, _, -, creds, -, hsplit⟩ := hcreds
  exact (splitOnce_singleton_iff.mp hsplit).2

theorem credentials_basic {b64 : List Char}
    (hb64 : c.decode64 (trim b64) = some (String.ofList (user ++ ':' :: password)).toUTF8)
    (huser : ':' ∉ user) :
    credentials c (some ("Basic ".toList ++ b64)) = some (user, password) := by
  have hstripped : ("Basic ".toList ++ b64).dropPrefix? "Basic ".toList = some b64 :=
    List.dropPrefix?_eq_some_iff.mpr ⟨_, rfl, beq_self_eq_true _⟩
  have hutf8 : String.fromUTF8? (String.ofList (user ++ ':' :: password)).toUTF8 =
      some (String.ofList (user ++ ':' :: password)) :=
    dif_pos (String.ofList (user ++ ':' :: password)).isValidUTF8
  simp only [credentials, Option.bind_eq_bind, Option.bind_some, hstripped, Option.some_or, hb64,
    hutf8, String.toList_ofList, splitOnce_singleton huser]

/-! ## Logins -/

theorem credential_iff (ha : Authenticator.fromConfig c writeCookie drawn rpc = .ok a) :
    (∃ h, (user, h) ∈ a.users ∧ h.check c password = true) ↔
      Configured c drawn rpc user password := by
  obtain ⟨users, husers, hreject, hall⟩ := fromConfig_cases ha
  simp only [hall, List.mem_append, List.mem_singleton, or_and_right, exists_or]
  apply or_congr
  · simp only [mem_parseAuthEntries husers, line_iff]
    constructor
    · rintro ⟨h, ⟨entry, hentry, hparse⟩, hcheck⟩
      exact ⟨entry, hentry, h, hparse, hcheck⟩
    · rintro ⟨entry, hentry, h, hparse, hcheck⟩
      exact ⟨h, ⟨entry, hentry, hparse⟩, hcheck⟩
  · constructor
    · rintro ⟨h, heq, hcheck⟩
      cases heq
      exact ⟨rfl, check_iff.mp hcheck⟩
    · rintro ⟨rfl, hmac⟩
      exact ⟨_, rfl, check_iff.mpr hmac⟩

theorem login_iff (ha : Authenticator.fromConfig c writeCookie drawn rpc = .ok a) :
    a.check c header = true ↔ ∃ user password, credentials c header = some (user, password) ∧
      Configured c drawn rpc user password := by
  simp only [check_eq_true, credential_iff ha]

theorem encode_ne_nil {bytes : List UInt8} (h : bytes ≠ []) : Hex.encode bytes ≠ [] := by
  obtain ⟨b, bs, rfl⟩ := List.exists_cons_of_ne_nil h
  exact List.cons_ne_nil _ _

theorem bare_ne_nil (hpassword : rpc.password ≠ some []) (hdrawn : drawn.password ≠ []) :
    (bare drawn rpc).2 ≠ [] := by
  unfold bare
  split
  · next user password huser hsome =>
    rintro rfl
    exact hpassword hsome
  · exact encode_ne_nil hdrawn

/-- The empty password is nobody's: no line has its digest, nor has the bare password. -/
theorem not_configured_nil (ha : Authenticator.fromConfig c writeCookie drawn rpc = .ok a)
    (hdrawn : drawn.password ≠ [])
    (hmac : ∀ p ≠ [], c.mac (Hex.encode drawn.salt) p ≠ c.mac (Hex.encode drawn.salt) []) :
    ¬ Configured c drawn rpc user [] := by
  obtain ⟨users, husers, hreject, -⟩ := fromConfig_cases ha
  rw [rejectEmptyPasswords_eq_ok] at hreject
  rintro (⟨entry, hentry, hline⟩ | ⟨-, hequal⟩)
  · obtain ⟨h, hparse, hempty⟩ := line_iff.mp hline
    have hmem := (mem_parseAuthEntries husers).mpr ⟨entry, hentry, hparse⟩
    rw [hreject.2 _ hmem] at hempty
    cases hempty
  · exact hmac _ (bare_ne_nil hreject.1 hdrawn) hequal.symm

/-- A daemon accepts the logins it is configured for and no others, and the empty password is
nobody's, under a salt that gives no other password the digest of the empty one. -/
theorem accepts_configured (ha : Authenticator.fromConfig c writeCookie drawn rpc = .ok a)
    (hdrawn : drawn.password ≠ [])
    (hmac : ∀ p ≠ [], c.mac (Hex.encode drawn.salt) p ≠ c.mac (Hex.encode drawn.salt) []) :
    (a.check c header = true ↔ ∃ user password, credentials c header = some (user, password) ∧
      Configured c drawn rpc user password) ∧
    ∀ user password, credentials c header = some (user, password) → a.check c header = true →
      password ≠ [] := by
  refine ⟨login_iff ha, ?_⟩
  rintro user password hcreds hcheck rfl
  obtain ⟨user', password', hcreds', hlogin⟩ := (login_iff ha).mp hcheck
  rw [hcreds] at hcreds'
  cases hcreds'
  exact not_configured_nil ha hdrawn hmac hlogin

/-- Under the salt of sixteen counted bytes, the digest of the empty password and that of the
others, and the base64 text of one login. -/
def counted : Crypto where
  mac salt password :=
    if salt = "000102030405060708090a0b0c0d0e0f".toList ∧ password ≠ [] then
      ⟨[187, 22, 240, 144, 123, 13, 11, 68, 149, 103, 97, 240, 100, 202, 25, 119, 77, 135, 183, 22,
        221, 22, 126, 208, 60, 25, 225, 48, 116, 205, 30, 95], rfl⟩
    else
      ⟨[121, 138, 150, 101, 161, 52, 149, 137, 184, 102, 57, 213, 75, 144, 21, 186, 180, 103, 214,
        39, 126, 208, 149, 108, 31, 188, 221, 134, 0, 9, 206, 82], rfl⟩
  decode64 text := if text = "dTpw".toList then some "u:p".toUTF8 else none
  encodeUrl _ := []

def countedBytes : Drawn := ⟨(List.range 16).map UInt8.ofNat, (List.range 32).map UInt8.ofNat⟩

theorem counted_mac_ne (p : List Char) (hp : p ≠ []) :
    counted.mac (Hex.encode countedBytes.salt) p ≠
      counted.mac (Hex.encode countedBytes.salt) [] := by
  have hsalt : Hex.encode countedBytes.salt = "000102030405060708090a0b0c0d0e0f".toList := by decide
  rw [counted]
  dsimp only
  rw [if_pos ⟨hsalt, hp⟩, if_neg fun h => h.2 rfl]
  decide

/-- One line, minted for a user, and another user of the same password. -/
def oneLine : RpcConfig where
  bind := .v4 127 0 0 1
  port := 8232
  user := some "v".toList
  password := some "p".toList
  auth := [(generateRpcauth counted "u".toList (some "p".toList) countedBytes).1]
  cookiefile := some (Path.ofText "/d/.cookie".toList)
  workQueue := 100
  allowedMethods := []
  allowDuplicateShieldedRecipients := false

theorem accepts_configured_oneLine :
    countedBytes.password ≠ [] ∧
    (∀ p ≠ [], counted.mac (Hex.encode countedBytes.salt) p ≠
      counted.mac (Hex.encode countedBytes.salt) []) ∧
    ∃ a, Authenticator.fromConfig counted (fun _ _ => .ok ()) countedBytes oneLine = .ok a ∧
      a.check counted (some "Basic dTpw".toList) = true := by
  have hdrawn : countedBytes.password ≠ [] := by decide
  have hcreds : credentials counted (some ("Basic ".toList ++ "dTpw".toList)) =
      some ("u".toList, "p".toList) := credentials_basic rfl (by decide)
  have hconfig : Authenticator.fromConfig counted (fun _ _ => .ok ()) countedBytes oneLine =
      .ok _ := rfl
  refine ⟨hdrawn, counted_mac_ne, _, hconfig, ?_⟩
  apply (accepts_configured hconfig hdrawn counted_mac_ne).1.mpr
  refine ⟨_, _, hcreds, Or.inl ?_⟩
  refine ⟨_, List.mem_singleton_self _, Hex.encode countedBytes.salt, _, rfl, ?_⟩
  decide

/-- A minted line makes its user's login work, exactly where the user name has no colon. -/
theorem minted_line_logs_in {drawn' : Drawn} {given : Option (List Char)} {line b64 : List Char}
    {generated : Option (List Char)}
    (hline : runRpcauth c user given drawn' = .ok (line, generated))
    (hmem : line ∈ rpc.auth) (ha : Authenticator.fromConfig c writeCookie drawn rpc = .ok a)
    (hpassword : given.or generated = some password)
    (hb64 : c.decode64 (trim b64) = some (String.ofList (user ++ ':' :: password)).toUTF8) :
    (credentials c (some ("Basic ".toList ++ b64)) = some (user, password) ∧
      a.check c (some ("Basic ".toList ++ b64)) = true) ↔ ':' ∉ user := by
  constructor
  · rintro ⟨hcreds, -⟩
    exact colon_notMem_of_credentials hcreds
  · intro huser
    have hcreds := credentials_basic hb64 huser
    refine ⟨hcreds, check_eq_true.mpr ⟨user, password, hcreds, ?_⟩⟩
    obtain ⟨users, husers, -, hall⟩ := fromConfig_cases ha
    have hminted : line = user ++ ':' :: (Hex.encode drawn'.salt ++
        '$' :: Hex.encode (c.mac (Hex.encode drawn'.salt) password).1) := by
      unfold runRpcauth at hline
      split at hline
      · cases hline
      · cases given <;> cases hline <;> cases hpassword <;> simp [PasswordHash.compute]
    refine ⟨⟨Hex.encode drawn'.salt, c.mac (Hex.encode drawn'.salt) password⟩, ?_,
      check_iff.mpr rfl⟩
    rw [hall]
    apply List.mem_append_left
    rw [mem_parseAuthEntries husers]
    refine ⟨line, hmem, parseAuthEntry_eq_ok.mpr ⟨_, hminted, huser, ?_, Hex.decode_encode _⟩⟩
    exact Hex.notMem_encode (by decide)

theorem minted_line_logs_in_oneLine :
    credentials counted (some ("Basic ".toList ++ "dTpw".toList)) =
      some ("u".toList, "p".toList) ∧
    ∃ a, Authenticator.fromConfig counted (fun _ _ => .ok ()) countedBytes oneLine = .ok a ∧
      a.check counted (some ("Basic ".toList ++ "dTpw".toList)) = true := by
  have hb64 : counted.decode64 (trim "dTpw".toList) =
      some (String.ofList ("u".toList ++ ':' :: "p".toList)).toUTF8 := rfl
  have hconfig : Authenticator.fromConfig counted (fun _ _ => .ok ()) countedBytes oneLine =
      .ok _ := rfl
  have hline : runRpcauth counted "u".toList (some "p".toList) countedBytes = .ok _ := rfl
  obtain ⟨hcreds, hcheck⟩ :=
    (minted_line_logs_in hline (List.mem_singleton_self _) hconfig rfl hb64).mpr (by decide)
  exact ⟨hcreds, _, rfl, hcheck⟩

/-- The verdict of `zecd config check` is the daemon's, up to what writing the cookie says. -/
theorem check_config_verdict (c : Crypto) (writeCookie : Path → List Char → Except String Unit)
    (drawn : Drawn) (rpc : RpcConfig) :
    (∀ e, checkConfig c rpc = .error e →
      Authenticator.fromConfig c writeCookie drawn rpc = .error e) ∧
    (checkConfig c rpc = .ok () → (∃ a, Authenticator.fromConfig c writeCookie drawn rpc = .ok a) ∨
      ∃ path text e, rpc.cookiefile = some path ∧ writeCookie path text = .error e ∧
        Authenticator.fromConfig c writeCookie drawn rpc =
          .error ["writing cookie file " ++ String.ofList path.display, e]) := by
  unfold checkConfig Authenticator.fromConfig
  cases parseAuthEntries rpc with
  | error e =>
    refine ⟨fun e' he => ?_, fun h => by cases h⟩
    cases he
    rfl
  | ok users =>
    simp only [ok_bind]
    cases rejectEmptyPasswords c rpc users with
    | error e =>
      refine ⟨fun e' he => ?_, fun h => by cases h⟩
      cases he
      rfl
    | ok _ =>
      simp only [ok_bind]
      cases huser : rpc.user with
      | none => simpa using withCookie_verdict c writeCookie drawn rpc users
      | some user =>
        cases hpassword : rpc.password with
        | none => simpa using withCookie_verdict c writeCookie drawn rpc users
        | some password => simp

end Zecd.Auth
