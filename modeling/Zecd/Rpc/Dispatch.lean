import Zecd.Config.Resolve
import Zecd.Rpc.JsonRpc

/-! # Dispatch

The gates between a parsed request and its handler: the safelist of the configuration, the arity of
the method, the coins that serve it, and the method table. What the safelist hides is answered as
what does not exist, whatever the table has under that name.
-/

namespace Zecd.Dispatch

inductive Coin where
  | zcash
  deriving DecidableEq, Repr

inductive MethodCoins where
  | all
  | only (coins : List Coin)
  deriving DecidableEq, Repr

def MethodCoins.serves : MethodCoins → Coin → Bool
  | .all, _ => true
  | .only coins, coin => decide (coin ∈ coins)

def maxPositionalArgs : List (String × ℕ) :=
  [("stop", 0), ("uptime", 0), ("help", 1), ("getrpcinfo", 0),
    ("getnetworkinfo", 0), ("getconnectioncount", 0), ("getpeerinfo", 0), ("ping", 0),
    ("getblockchaininfo", 0), ("getblockcount", 0), ("getbestblockhash", 0), ("getblockhash", 1),
    ("getblockheader", 2), ("waitfornewblock", 1), ("waitforblock", 2), ("waitforblockheight", 2),
    ("waitforsync", 1),
    ("validateaddress", 1), ("settxfee", 1), ("estimatesmartfee", 2), ("estimatefee", 1),
    ("getmempoolinfo", 0),
    ("getrawtransaction", 3), ("sendrawtransaction", 2),
    ("getbalance", 4), ("getbalances", 0), ("getunconfirmedbalance", 0), ("getwalletinfo", 0),
    ("getaddressinfo", 1), ("listtransactions", 4), ("z_listtransactions", 5),
    ("listsinceblock", 4), ("gettransaction", 3), ("listunspent", 5), ("getreceivedbyaddress", 3),
    ("listreceivedbyaddress", 5), ("listwallets", 0), ("listwalletdir", 0),
    ("createwallet", 9), ("loadwallet", 2), ("unloadwallet", 2),
    ("getnewaddress", 2), ("sendtoaddress", 12), ("sendmany", 10), ("walletpassphrase", 2),
    ("walletlock", 0), ("signmessage", 2), ("verifymessage", 3),
    ("z_sendmany", 5), ("z_shieldcoinbase", 6), ("z_mergetoaddress", 7),
    ("z_getoperationstatus", 1), ("z_getoperationresult", 1), ("z_listoperationids", 1),
    ("z_validateaddress", 1), ("z_waitforoperation", 2),
    ("z_getaddressforaccount", 3), ("z_listunifiedreceivers", 1)]

def zcashOnly : MethodCoins := .only [.zcash]

def methodCoins : List (String × MethodCoins) :=
  [("stop", .all), ("uptime", .all), ("help", .all), ("getrpcinfo", .all),
    ("getnetworkinfo", .all), ("getconnectioncount", .all), ("getpeerinfo", .all), ("ping", .all),
    ("getblockchaininfo", .all), ("getblockcount", .all), ("getbestblockhash", .all),
    ("getblockhash", .all), ("getblockheader", .all), ("waitfornewblock", .all),
    ("waitforblock", .all), ("waitforblockheight", .all), ("waitforsync", .all),
    ("validateaddress", .all), ("estimatesmartfee", .all), ("estimatefee", .all),
    ("getmempoolinfo", .all), ("signmessage", .all), ("verifymessage", .all), ("settxfee", .all),
    ("sendrawtransaction", .all), ("getrawtransaction", .all),
    ("getbalance", .all), ("getbalances", .all), ("getunconfirmedbalance", .all),
    ("getwalletinfo", .all), ("listwallets", .all), ("listwalletdir", .all),
    ("listtransactions", .all), ("listsinceblock", .all), ("gettransaction", .all),
    ("listunspent", .all), ("getreceivedbyaddress", .all), ("listreceivedbyaddress", .all),
    ("getaddressinfo", .all), ("z_listtransactions", zcashOnly),
    ("createwallet", .all), ("loadwallet", .all), ("unloadwallet", .all),
    ("getnewaddress", .all), ("sendtoaddress", .all), ("sendmany", .all),
    ("walletpassphrase", .all), ("walletlock", .all),
    ("z_sendmany", zcashOnly), ("z_shieldcoinbase", zcashOnly), ("z_mergetoaddress", zcashOnly),
    ("z_getoperationstatus", zcashOnly), ("z_getoperationresult", zcashOnly),
    ("z_listoperationids", zcashOnly), ("z_validateaddress", zcashOnly),
    ("z_waitforoperation", zcashOnly), ("z_getaddressforaccount", zcashOnly),
    ("z_listunifiedreceivers", zcashOnly)]

/-- What is known of the methods: the arms of the dispatch, and what the gates ask of a name. -/
structure Methods where
  arms : List String
  maxPositionalArgs : List (String × ℕ)
  coins : List (String × MethodCoins)

/-- The methods of zecd: the arms are those that a safelist may name. -/
def zecd : Methods := ⟨Config.allMethods, maxPositionalArgs, methodCoins⟩

def checkArity (m : Methods) (req : RpcRequest) : Except RpcError Unit :=
  match m.maxPositionalArgs.lookup req.method with
  | some max =>
    if max < req.params.length then
      .error (.misc (req.method ++ " takes at most " ++ toString max ++ " argument(s) (" ++
        toString req.params.length ++ " provided)"))
    else .ok ()
  | none => .ok ()

/-- `coinOf` is the coin of the wallet addressed, if there is such a wallet. -/
def checkCoin (m : Methods) (coinOf : Option Coin) (req : RpcRequest) : Except RpcError Unit :=
  match m.coins.lookup req.method, coinOf with
  | some coins, some coin =>
    if coins.serves coin then .ok () else .error (.methodNotFound req.method)
  | _, _ => .ok ()

/-- `dispatch`, up to the handler of the method. -/
def gate (m : Methods) (allowedMethods : List String) (coinOf : Option Coin) (req : RpcRequest) :
    Except RpcError Unit := do
  if allowedMethods ≠ [] ∧ req.method ∉ allowedMethods then .error (.methodNotFound req.method)
  else
    checkArity m req
    checkCoin m coinOf req
    if req.method ∈ m.arms then .ok () else .error (.methodNotFound req.method)

def Served (m : Methods) (allowedMethods : List String) (method : String) : Prop :=
  method ∈ m.arms ∧ (allowedMethods = [] ∨ method ∈ allowedMethods)

structure Methods.AgreeOn (m m' : Methods) (allowedMethods : List String) : Prop where
  arms : ∀ x ∈ allowedMethods, (x ∈ m.arms ↔ x ∈ m'.arms)
  maxPositionalArgs : ∀ x ∈ allowedMethods,
    m.maxPositionalArgs.lookup x = m'.maxPositionalArgs.lookup x
  coins : ∀ x ∈ allowedMethods, m.coins.lookup x = m'.coins.lookup x

variable {m m' : Methods} {allowedMethods : List String} {coinOf : Option Coin} {req : RpcRequest}

/-- A handler is reached by the served methods only, with no more parameters than they take, and
for the coins they serve. -/
theorem served_of_gate (h : gate m allowedMethods coinOf req = .ok ()) :
    Served m allowedMethods req.method ∧
      (∀ max, m.maxPositionalArgs.lookup req.method = some max → req.params.length ≤ max) ∧
      ∀ coins coin, m.coins.lookup req.method = some coins → coinOf = some coin →
        coins.serves coin = true := by
  unfold gate at h
  split at h
  · cases h
  · next hsafe =>
    obtain ⟨_, harity, h⟩ := Fallible.bind_eq_ok.mp h
    obtain ⟨_, hcoin, h⟩ := Fallible.bind_eq_ok.mp h
    split at h
    · next harm =>
      refine ⟨⟨harm, ?_⟩, ?_, ?_⟩
      · by_contra hnot
        rw [not_or] at hnot
        exact hsafe hnot
      · intro max hmax
        rw [checkArity, hmax] at harity
        by_contra hlt
        rw [not_le] at hlt
        simp [hlt] at harity
      · intro coins coin hcoins hsome
        unfold checkCoin at hcoin
        rw [hcoins, hsome] at hcoin
        by_contra hserves
        simp [hserves] at hcoin
    · cases h

/-- Behind a safelist, a gate does not tell apart tables that agree on it. -/
theorem gate_congr (hne : allowedMethods ≠ []) (hagree : m.AgreeOn m' allowedMethods) :
    gate m allowedMethods coinOf req = gate m' allowedMethods coinOf req := by
  unfold gate
  by_cases hmem : req.method ∈ allowedMethods
  · have harms := hagree.arms _ hmem
    simp only [checkArity, checkCoin, hagree.maxPositionalArgs _ hmem, hagree.coins _ hmem, harms]
  · rw [if_pos ⟨hne, hmem⟩, if_pos ⟨hne, hmem⟩]

end Zecd.Dispatch
