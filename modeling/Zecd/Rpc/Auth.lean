import Zecd.Config.Tokens
import Zecd.Foundation.Hex

/-! # Basic authentication

The credentials that the server accepts: the salted lines of the configuration, and its user and
password, or else a cookie minted at startup. A login is accepted exactly where its password has the
digest of a credential of its user, and the empty password is no credential's.
-/

namespace Zecd.Auth

open Config (Fault RpcConfig Path context)
open Fallible Text

abbrev Digest := {bytes : List UInt8 // bytes.length = 32}

/-- What the cryptographic libraries compute: the MAC of a message under a key, and base64 text. -/
structure Crypto where
  mac : List Char → List Char → Digest
  /-- The standard alphabet. -/
  decode64 : List Char → Option ByteArray
  /-- The URL-safe alphabet. -/
  encodeUrl : List UInt8 → List Char

structure Drawn where
  salt : List UInt8
  password : List UInt8

structure PasswordHash where
  salt : List Char
  hash : Digest
  deriving DecidableEq

variable (c : Crypto)

namespace PasswordHash

def compute (password salt : List Char) : Digest := c.mac salt password

def fromBare (salt : List UInt8) (password : List Char) : PasswordHash :=
  ⟨Hex.encode salt, compute c password (Hex.encode salt)⟩

def check (h : PasswordHash) (password : List Char) : Bool :=
  decide (compute c password h.salt = h.hash)

def parse (s : List Char) : Except Fault PasswordHash :=
  match splitOnce ['$'] s with
  | none => .error ["expected <salt>$<hmac-sha256 hex>"]
  | some (salt, hashHex) =>
    match Hex.decode hashHex with
    | none => .error ["hash is not 64 hex characters"]
    | some bytes =>
      if h : bytes.length = 32 then .ok ⟨salt, bytes, h⟩
      else .error ["hash is not 64 hex characters"]

end PasswordHash

/-! ## Minting a line -/

/-- `generate_rpcauth`: the line for the configuration, and the password if one was minted. -/
def generateRpcauth (username : List Char) (password : Option (List Char)) (drawn : Drawn) :
    List Char × Option (List Char) :=
  let salt := Hex.encode drawn.salt
  let (password, generated) :=
    match password with
    | some p => (p, none)
    | none =>
      let p := c.encodeUrl drawn.password
      (p, some p)
  (username ++ ':' :: salt ++ '$' :: Hex.encode (PasswordHash.compute c password salt), generated)

def runRpcauth (username : List Char) (password : Option (List Char)) (drawn : Drawn) :
    Except Fault (List Char × Option (List Char)) :=
  if password = some [] then
    .error ["refusing to generate an rpcauth line for an empty password; omit the password to " ++
      "have one generated"]
  else .ok (generateRpcauth c username password drawn)

/-! ## The configured credentials -/

abbrev Credential := List Char × PasswordHash

def parseAuthEntry (entry : List Char) : Except Fault Credential :=
  match splitOnce [':'] entry with
  | none => .error ["invalid rpcauth entry (expected user:salt$hash)"]
  | some (user, pwhash) => do
    let pwhash ← context ("invalid rpcauth entry for user " ++ String.ofList user)
      (PasswordHash.parse pwhash)
    .ok (user, pwhash)

def parseAuthEntries (rpc : RpcConfig) : Except Fault (List Credential) :=
  rpc.auth.mapM parseAuthEntry

def rejectEmptyPasswords (rpc : RpcConfig) (entries : List Credential) : Except Fault Unit :=
  if rpc.password = some [] then
    .error ["the RPC password is empty (check [rpc] password_file, [rpc] password, " ++
      "--rpcpassword and ZECD_RPC_PASSWORD); an empty password would let anyone log in " ++
      "as the RPC user"]
  else
    match entries.find? fun entry => entry.2.check c [] with
    | some (user, _) =>
      .error ["the [rpc] auth entry for user " ++ String.ofList user ++
        " accepts an empty password; regenerate it with `zecd rpcauth " ++ String.ofList user ++
        "`"]
    | none => .ok ()

def noAuthConfigured : Fault :=
  ["no RPC auth configured: set [rpc] user+password, auth, or a cookiefile"]

def checkConfig (rpc : RpcConfig) : Except Fault Unit := do
  let entries ← parseAuthEntries rpc
  rejectEmptyPasswords c rpc entries
  if (rpc.user.isSome ∧ rpc.password.isSome) ∨ rpc.cookiefile.isSome then .ok ()
  else .error noAuthConfigured

structure Authenticator where
  users : List Credential

def cookieUser : List Char := "__cookie__".toList

/-- The credentials with those of a fresh cookie. `writeCookie` is what the file system says to
it. -/
def withCookie (writeCookie : Path → List Char → Except String Unit) (drawn : Drawn)
    (rpc : RpcConfig) (users : List Credential) : Except Fault Authenticator :=
  match rpc.cookiefile with
  | none => .error noAuthConfigured
  | some cookiefile =>
    let password := Hex.encode drawn.password
    match writeCookie cookiefile (cookieUser ++ ':' :: password) with
    | .error e => .error ["writing cookie file " ++ String.ofList cookiefile.display, e]
    | .ok () => .ok ⟨users ++ [(cookieUser, PasswordHash.fromBare c drawn.salt password)]⟩

/-- The daemon's credentials. -/
def Authenticator.fromConfig (writeCookie : Path → List Char → Except String Unit) (drawn : Drawn)
    (rpc : RpcConfig) : Except Fault Authenticator := do
  let users ← parseAuthEntries rpc
  rejectEmptyPasswords c rpc users
  match rpc.user, rpc.password with
  | some user, some password =>
    .ok ⟨users ++ [(user, PasswordHash.fromBare c drawn.salt password)]⟩
  | _, _ => withCookie c writeCookie drawn rpc users

/-! ## Checking a header -/

/-- The user and the password of an `Authorization` header. -/
def credentials (header : Option (List Char)) : Option (List Char × List Char) := do
  let header ← header
  let b64 ← (header.dropPrefix? "Basic ".toList).or (header.dropPrefix? "basic ".toList)
  let decoded ← c.decode64 (trim b64)
  let creds ← String.fromUTF8? decoded
  splitOnce [':'] creds.toList

/-- Every credential is checked, whatever was found before. -/
def Authenticator.check (a : Authenticator) (header : Option (List Char)) : Bool :=
  match credentials c header with
  | none => false
  | some (user, password) =>
    a.users.foldl
      (fun found entry => found || (decide (entry.1 = user) && entry.2.check c password)) false

/-! ## What is configured -/

/-- The user and the password that no line holds: the configured pair, or the cookie. -/
def bare (drawn : Drawn) (rpc : RpcConfig) : List Char × List Char :=
  match rpc.user, rpc.password with
  | some user, some password => (user, password)
  | _, _ => (cookieUser, Hex.encode drawn.password)

def Line (entry user password : List Char) : Prop :=
  ∃ salt digits, entry = user ++ ':' :: (salt ++ '$' :: digits) ∧ ':' ∉ user ∧ '$' ∉ salt ∧
    Hex.decode digits = some (c.mac salt password).1

/-- The login is one of a line, or has the digest of the bare password. -/
def Configured (drawn : Drawn) (rpc : RpcConfig) (user password : List Char) : Prop :=
  (∃ entry ∈ rpc.auth, Line c entry user password) ∨
    user = (bare drawn rpc).1 ∧
      c.mac (Hex.encode drawn.salt) password = c.mac (Hex.encode drawn.salt) (bare drawn rpc).2

end Zecd.Auth
