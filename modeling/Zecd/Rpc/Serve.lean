import Zecd.Foundation.Runs
import Zecd.Rpc.Auth
import Zecd.Rpc.Dispatch

/-! # Serving requests

The server between a connection and the handlers. A request is turned away once the server shuts
down, takes a permit of the work queue, is authenticated, and has its calls dispatched one after
another. The permit and the entries among the active commands are given back on every way out,
the client's leaving included. What the handlers answer comes from outside, but for the control
methods.
-/

namespace Zecd.Serve

open Runs Dispatch JsonRpc
open Zecd.Config (RpcConfig)

structure ActiveCommand where
  id : ℕ
  method : String
  /-- In microseconds since the server started, as all its times are. -/
  started : ℕ
  deriving DecidableEq, Repr

structure AppState where
  shuttingDown : Bool
  /-- The permits that are free. -/
  workQueue : ℕ
  active : List ActiveCommand
  nextId : ℕ
  now : ℕ
  deriving DecidableEq, Repr

namespace AppState

variable (app : AppState)

def triggerShutdown : AppState := { app with shuttingDown := true }

def acquire : AppState := { app with workQueue := app.workQueue - 1 }

def release : AppState := { app with workQueue := app.workQueue + 1 }

/-- Registers a command as active. -/
def begin (method : String) : AppState :=
  { app with active := app.active ++ [⟨app.nextId, method, app.now⟩], nextId := app.nextId + 1 }

/-- Drops the guard of a command. -/
def finish (id : ℕ) : AppState := { app with active := app.active.filter (·.id ≠ id) }

def snapshot : List (String × ℕ) := app.active.map fun a => (a.method, app.now - a.started)

end AppState

/-! ## Control methods -/

def help : String :=
  "zecd: a Bitcoin-Core-style JSON-RPC server for shielded-first Zcash. " ++
    "Supported methods include getblockchaininfo, getnetworkinfo, getwalletinfo, " ++
    "getnewaddress, z_getaddressforaccount, getbalance, sendtoaddress, sendmany, " ++
    "listtransactions, gettransaction, validateaddress. See the README for the full list " ++
    "and limits."

def getrpcinfo (app : AppState) : Json :=
  .object [("active_commands", .array (app.snapshot.map fun command =>
      .object [("duration", .number (toString (command.2 % 2 ^ 64))),
        ("method", .string command.1)])),
    ("logpath", .string "")]

def control (regtest : Bool) (app : AppState) (method : String) :
    Option (Except RpcError Json × AppState) :=
  if method = "stop" then
    if regtest then some (.ok (.string "zecd stopping"), app.triggerShutdown)
    else some (.error (.methodNotFound "stop"), app)
  else if method = "uptime" then some (.ok (.number (toString (app.now / 1000000))), app)
  else if method = "help" then some (.ok (.string help), app)
  else if method = "getrpcinfo" then some (.ok (getrpcinfo app), app)
  else none

/-! ## Connections -/

/-- What a server is set up with. -/
structure Config where
  rpc : RpcConfig
  regtest : Bool
  methods : Methods
  crypto : Auth.Crypto
  authenticator : Auth.Authenticator
  fromSlice : List UInt8 → Except String Json

namespace Config

variable (cfg : Config)

def allowedMethods : List String := cfg.rpc.allowedMethods.map String.ofList

def auth (header : Option (List Char)) : Bool := cfg.authenticator.check cfg.crypto header

end Config

structure HttpRequest where
  wallet : Option String
  authorization : Option (List Char)
  body : List UInt8

inductive Response where
  | plain (status : ℕ) (text : String)
  | unauthorized
  | json (status : ℕ) (body : Json)

def shutdownRefusal : Response := .plain 503 "Request rejected during server shutdown"

def queueRefusal : Response := .plain 503 "Work queue depth exceeded"

/-- The calls of a body: those to come, the one a handler is at work on, and the replies so far. -/
structure Work where
  batch : Bool
  todo : List Json
  current : Option (ℕ × RpcRequest)
  done : List (Json × ℕ)

inductive Phase where
  /-- Past the check for a shutdown. -/
  | checked
  /-- The delay after a failed login. -/
  | sleeping
  | serving (w : Work)
  | answered (r : Response)
  | dropped

def Phase.holdsPermit : Phase → Bool
  | .sleeping | .serving _ => true
  | _ => false

def Phase.command : Phase → Option (ℕ × String)
  | .serving w => w.current.map fun call => (call.1, call.2.method)
  | _ => none

structure Connection where
  request : HttpRequest
  phase : Phase

structure Call where
  connection : ℕ
  wallet : Option String
  /-- The coin the registry had for the wallet as the call was dispatched. -/
  coin : Option Coin
  request : RpcRequest

structure Server where
  app : AppState
  connections : List Connection
  calls : List Call

def Server.start (cfg : Config) : Server := ⟨⟨false, cfg.rpc.workQueue, [], 0, 0⟩, [], []⟩

def reply (id : Json) : Except RpcError Json → Json × ℕ
  | .ok value => (success id value, 200)
  | .error e => (error id e, httpStatusForCode e.code)

/-- A batch answers its replies in an array, and a single call its reply. -/
def respond (batch : Bool) : List (Json × ℕ) → Response
  | [(body, status)] => if batch then .json 200 (.array [body]) else .json status body
  | replies => .json 200 (.array (replies.map Prod.fst))

def Body.items : Body → List Json
  | .single v => [v]
  | .batch items => items

def Body.isBatch : Body → Bool
  | .single _ => false
  | .batch _ => true

/-- The login is checked, and then the body. -/
def admitted (cfg : Config) (r : HttpRequest) : Phase :=
  if cfg.auth r.authorization then
    match parseBody cfg.fromSlice r.body with
    | .error e => .answered (.json (httpStatusForCode e.code) (error .null e))
    | .ok body => .serving ⟨Body.isBatch body, Body.items body, none, []⟩
  else .sleeping

/-- What happens to one connection. -/
inductive Turn where
  | letIn
  | wake
  /-- The next call is dispatched; the registry has this coin for the wallet addressed, if any. -/
  | next (coin : Option Coin)
  /-- The handler at work returns. -/
  | complete (outcome : Except RpcError Json)
  | disconnect

def Turn.coin : Turn → Option Coin
  | .next coin => coin
  | _ => none

/-- `process_single`, up to where its handler has to be waited for. -/
def dispatchNext (cfg : Config) (app : AppState) (w : Work) (coin : Option Coin) (v : Json)
    (todo : List Json) : AppState × Work × Option RpcRequest :=
  match RpcRequest.fromValue v with
  | .error (id, e) => (app, { w with todo, done := w.done ++ [reply id (.error e)] }, none)
  | .ok req =>
    let id := app.nextId
    let app := app.begin req.method
    match gate cfg.methods cfg.allowedMethods coin req with
    | .error e =>
      (app.finish id, { w with todo, done := w.done ++ [reply req.id (.error e)] }, none)
    | .ok () =>
      match control cfg.regtest app req.method with
      | some (outcome, app) =>
        (app.finish id, { w with todo, done := w.done ++ [reply req.id outcome] }, some req)
      | none => (app, { w with todo, current := some (id, req) }, some req)

/-- A request takes its permit, and keeps it if it is not answered at once. -/
def letIn (cfg : Config) (r : HttpRequest) (app : AppState) : AppState × Phase :=
  if app.workQueue = 0 then (app, .answered queueRefusal)
  else (if (admitted cfg r).holdsPermit then app.acquire else app, admitted cfg r)

namespace Work

variable (cfg : Config) (app : AppState) (w : Work)

/-- The next call, or the response behind the last one. -/
def next (coin : Option Coin) : AppState × Phase × Option RpcRequest :=
  match w.current, w.todo with
  | none, v :: todo =>
    let (app, w, call) := dispatchNext cfg app w coin v todo
    (app, .serving w, call)
  | none, [] => (app.release, .answered (respond w.batch w.done), none)
  | some _, _ => (app, .serving w, none)

def complete (outcome : Except RpcError Json) : AppState × Phase :=
  match w.current with
  | some (id, req) =>
    (app.finish id, .serving { w with current := none, done := w.done ++ [reply req.id outcome] })
  | none => (app, .serving w)

/-- The client leaves while a handler is at work: the call is dropped with all it holds. -/
def disconnect : AppState × Phase :=
  match w.current with
  | some (id, _) => ((app.finish id).release, .dropped)
  | none => (app, .serving w)

end Work

/-- `handle`, a step at a time. The call that reached its handler is returned beside the state. -/
def turn (cfg : Config) (r : HttpRequest) (app : AppState) :
    Phase → Turn → AppState × Phase × Option RpcRequest
  | .checked, .letIn => ((letIn cfg r app).1, (letIn cfg r app).2, none)
  | .sleeping, .wake => (app.release, .answered .unauthorized, none)
  | .sleeping, .disconnect => (app.release, .dropped, none)
  | .serving w, .next coin => w.next cfg app coin
  | .serving w, .complete outcome => ((w.complete app outcome).1, (w.complete app outcome).2, none)
  | .serving w, .disconnect => ((w.disconnect app).1, (w.disconnect app).2, none)
  | phase, _ => (app, phase, none)

inductive Event where
  | arrive (r : HttpRequest)
  | turn (i : ℕ) (t : Turn)
  | shutdown
  | tick (micros : ℕ)

def step (cfg : Config) (s : Server) : Event → Server
  | .arrive r =>
    { s with connections := s.connections ++
        [⟨r, if s.app.shuttingDown then .answered shutdownRefusal else .checked⟩] }
  | .turn i t =>
    match s.connections[i]? with
    | none => s
    | some c =>
      let (app, phase, call) := turn cfg c.request s.app c.phase t
      ⟨app, s.connections.set i { c with phase },
        s.calls ++ call.toList.map fun req => ⟨i, c.request.wallet, t.coin, req⟩⟩
  | .shutdown => { s with app := s.app.triggerShutdown }
  | .tick micros => { s with app := { s.app with now := s.app.now + micros } }

end Zecd.Serve
