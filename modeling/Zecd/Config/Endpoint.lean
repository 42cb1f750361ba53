import Zecd.Config.Settings
import Zecd.Foundation.Hex

/-! # The upstream endpoint

A `server` token resolves to a host, a port, a protocol and a TLS decision, from the token and
the settings around it. The endpoint's description is shown beside the token.
-/

namespace Zecd.Config

open Text

/-! ## Local hosts -/

def IpAddr.isLoopback : IpAddr → Bool
  | .v4 a _ _ _ => a == 127
  | .v6 s => decide (s = ![0, 0, 0, 0, 0, 0, 0, 1])

/-- RFC 1918, link-local and carrier-grade NAT ranges. -/
def ipv4IsPrivateNetwork (a b : Fin 256) : Bool :=
  a == 10 || (a == 172 && decide (16 ≤ b ∧ b ≤ 31)) || (a == 192 && b == 168) ||
    (a == 169 && b == 254) || (a == 100 && decide (64 ≤ b ∧ b ≤ 127))

/-- An IPv4-mapped address has the class of the address it maps; else unique local and
link-local addresses are private. -/
def ipIsPrivateNetwork : IpAddr → Bool
  | .v4 a b _ _ => ipv4IsPrivateNetwork a b
  | .v6 s =>
    if s 0 = 0 ∧ s 1 = 0 ∧ s 2 = 0 ∧ s 3 = 0 ∧ s 4 = 0 ∧ s 5 = 0xffff then
      ipv4IsPrivateNetwork (Fin.ofNat 256 ((s 6).val / 256)) (Fin.ofNat 256 ((s 6).val % 256))
    else decide ((s 0).val / 512 = 0xfc00 / 512) || decide ((s 0).val / 64 = 0xfe80 / 64)

/-- `parse_host_ip`: an address, in brackets or bare. -/
def parseHostIp (lib : Libraries) (host : List Char) : Option IpAddr :=
  let bare := match stripFirst '[' host with
    | some inner => if inner.getLast? = some ']' then inner.dropLast else host
    | none => host
  lib.parseIp bare

def hostIsLocal (lib : Libraries) (host : List Char) (rfc1918IsLocal : Bool) : Bool :=
  match parseHostIp lib host with
  | some ip => ip.isLoopback || (rfc1918IsLocal && ipIsPrivateNetwork ip)
  | none => decide (Hex.asciiLower host = "localhost".toList)

/-! ## Resolving a token -/

inductive ServerKind where
  | lightwalletd
  | zebraRpc
  deriving DecidableEq, Repr

/-- A resolved endpoint: what its description shows. -/
structure Server where
  host : List Char
  port : ℕ
  kind : ServerKind
  forceTls : Option Bool
  proxy : Option Upstream.SocksProxy
  deriving DecidableEq

def stripScheme (scheme token : List Char) : Option (List Char) :=
  if scheme.isPrefixOf token then some (token.drop scheme.length) else none

/-- The kind of endpoint, the TLS mode and the rest of the token that its scheme names. -/
def tokenScheme (token : List Char) : ServerKind × Option Bool × List Char :=
  match stripScheme "zebra://".toList token with
  | some rest => (.zebraRpc, none, rest)
  | none =>
    match stripScheme "https://".toList token with
    | some rest => (.lightwalletd, some true, rest)
    | none =>
      match stripScheme "http://".toList token with
      | some rest => (.lightwalletd, some false, rest)
      | none => (.lightwalletd, none, token)

def resolveToken (server : List Char) (network : ZNetwork) : Except (List Char) Server :=
  if server = "zebra".toList then
    .ok ⟨"127.0.0.1".toList, if network = .main then 8234 else 18234, .zebraRpc, none, none⟩
  else if server = "zecrocks".toList then
    match network with
    | .main => .ok ⟨"zec.rocks".toList, 443, .lightwalletd, some true, none⟩
    | .test => .ok ⟨"testnet.zec.rocks".toList, 443, .lightwalletd, some true, none⟩
    | .regtest => .error ("the 'zecrocks' preset serves mainnet and testnet only (regtest needs " ++
        "a local upstream)").toList
  else
    let (kind, forceTls, rest) := tokenScheme server
    let rest := rest.rdropWhile (· == '/')
    let endpoint (host : List Char) (port : ℕ) : Except (List Char) Server :=
      if host = [] then
        .error ("invalid endpoint '".toList ++ server ++ "': empty host".toList)
      else .ok ⟨host, port, kind, forceTls, none⟩
    match rsplitOnce ':' rest with
    | some (host, port) =>
      match parseUnsigned (2 ^ 16) port with
      | none => .error ("invalid port in '".toList ++ server ++ "'".toList)
      | some port => endpoint host port
    | none =>
      if forceTls = some true then endpoint rest 443
      else
        .error ("invalid endpoint '".toList ++ server ++
          ("', expected host:port (or zebra | zecrocks | zebra://host:port | " ++
            "https://host[:port] | http://host:port)").toList)

/-- `apply_tls`: the scheme's TLS mode wins over the configured one. -/
def Server.applyTls (s : Server) (tls : Option Bool) : Server :=
  { s with forceTls := s.forceTls.or tls }

def Server.applyProxy (s : Server) (proxy : Option Upstream.SocksProxy) : Server :=
  { s with proxy }

def resolveBackend (backend : BackendConfig) (network : ZNetwork) : Except (List Char) Server := do
  let server ← resolveToken backend.server network
  .ok ((server.applyTls backend.tls).applyProxy backend.proxy)

def resolveConfigured (c : AppConfig) : Except (List Char) Server :=
  resolveBackend c.backend c.network

def resolveForWallet (c : AppConfig) (w : WalletEntry) : Except (List Char) Server :=
  resolveBackend (w.backend.effective c.backend) w.chain

/-! ## Describing an endpoint -/

def Server.useTls (lib : Libraries) (s : Server) : Bool :=
  s.forceTls.getD (!hostIsLocal lib s.host true)

def Server.describe (lib : Libraries) (s : Server) : List Char :=
  let via := match s.proxy with
    | some proxy => " via ".toList ++ proxy.display
    | none => []
  let address := s.host ++ ':' :: Nat.toDigits 10 s.port
  match s.kind with
  | .lightwalletd => "lightwalletd ".toList ++ address ++ " (tls=".toList ++
      (if s.useTls lib then "true" else "false").toList ++ ")".toList ++ via
  | .zebraRpc => "zebra-rpc ".toList ++ address ++ via

/-- What `config show` notes beside a token. -/
def endpointNote (lib : Libraries) : Except (List Char) Server → List Char
  | .ok server => server.describe lib
  | .error e => "UNRESOLVED: ".toList ++ e

end Zecd.Config
