import Zecd.Rpc.Error

/-! # JSON-RPC framing

The request and response framing of the server: a JSON value, the requests read from a body, and
the envelopes that answer them. An object keeps its members sorted by key, one to a key, and a
number keeps its literal.
-/

namespace Zecd

inductive Json where
  | null
  | bool (b : Bool)
  | number (literal : String)
  | string (s : String)
  | array (items : List Json)
  | object (members : List (String × Json))
  deriving Repr, BEq

namespace Json

def get (key : String) : Json → Option Json
  | .object members => members.lookup key
  | _ => none

def asStr : Json → Option String
  | .string s => some s
  | _ => none

def hexDigits (n : ℕ) : List Char := [Nat.digitChar (n / 16 % 16), Nat.digitChar (n % 16)]

def escape (c : Char) : List Char :=
  if c = '"' then ['\\', '"']
  else if c = '\\' then ['\\', '\\']
  else if c.toNat = 8 then ['\\', 'b']
  else if c = '\t' then ['\\', 't']
  else if c = '\n' then ['\\', 'n']
  else if c.toNat = 12 then ['\\', 'f']
  else if c = '\r' then ['\\', 'r']
  else if c.toNat < 32 then ['\\', 'u', '0', '0'] ++ hexDigits c.toNat
  else [c]

def quote (s : String) : String := String.ofList ('"' :: s.toList.flatMap escape ++ ['"'])

mutual

/-- The compact JSON text. -/
def display : Json → String
  | .null => "null"
  | .bool b => if b then "true" else "false"
  | .number literal => literal
  | .string s => quote s
  | .array items => "[" ++ ",".intercalate (displayItems items) ++ "]"
  | .object members => "\x7b" ++ ",".intercalate (displayMembers members) ++ "\x7d"

def displayItems : List Json → List String
  | [] => []
  | v :: rest => display v :: displayItems rest

def displayMembers : List (String × Json) → List String
  | [] => []
  | (key, v) :: rest => (quote key ++ ":" ++ display v) :: displayMembers rest

end

end Json

namespace RpcError

def invalidRequest (message : String) : RpcError := ⟨-32600, message⟩
def methodNotFound (method : String) : RpcError := ⟨-32601, "Method not found: " ++ method⟩
def parseError (message : String) : RpcError := ⟨-32700, message⟩

end RpcError

def httpStatusForCode (code : ℤ) : ℕ :=
  if code = -32600 then 400 else if code = -32601 then 404 else 500

structure RpcRequest where
  id : Json
  method : String
  /-- Positional: an object, or no parameters, is an empty list here. -/
  params : List Json
  deriving Repr

namespace RpcRequest

/-- A request, or the id to answer with the error. -/
def fromValue (v : Json) : Except (Json × RpcError) RpcRequest :=
  let id := (v.get "id").getD .null
  match (v.get "method").bind Json.asStr with
  | none => .error (id, .invalidRequest "Missing or invalid 'method'")
  | some method =>
    match (v.get "params").getD .null with
    | .null => .ok ⟨id, method, []⟩
    | .array params => .ok ⟨id, method, params⟩
    | .object _ => .ok ⟨id, method, []⟩
    | other => .error (id, .invalidRequest
        ("'params' must be an array or object, got " ++ other.display))

def positional (method : String) (params : List Json) : RpcRequest := ⟨.null, method, params⟩

def param (req : RpcRequest) (i : ℕ) : Option Json := req.params[i]?

/-- A required string parameter: an absent one is answered as a missing argument, and one that is
no string as a type error. -/
def requireStr (req : RpcRequest) (i : ℕ) (msg : String) : Except RpcError String :=
  match req.param i with
  | none | some .null => .error (.misc msg)
  | some v =>
    match v.asStr with
    | some s => .ok s
    | none => .error (.typeError (msg ++ " (expected a string)"))

end RpcRequest

namespace JsonRpc

def success (id result : Json) : Json :=
  .object [("error", .null), ("id", id), ("result", result)]

/-- The error object has the code and the message, and nothing else of the error. -/
def error (id : Json) (e : RpcError) : Json :=
  .object [("error", .object [("code", .number (toString e.code)), ("message", .string e.message)]),
    ("id", id), ("result", .null)]

inductive Body where
  | single (v : Json)
  | batch (items : List Json)
  deriving Repr

/-- The body of a request. The JSON text itself is read by `fromSlice`. -/
def parseBody (fromSlice : List UInt8 → Except String Json) (bytes : List UInt8) :
    Except RpcError Body :=
  match fromSlice bytes with
  | .error e => .error (.parseError ("Parse error: " ++ e))
  | .ok (.array items) =>
    if items.isEmpty then .error (.invalidRequest "Empty batch") else .ok (.batch items)
  | .ok (.object members) => .ok (.single (.object members))
  | .ok _ => .error (.invalidRequest "Top-level request must be an object or array")

/-! ## The id of an answer -/

def idOf (v : Json) : Json := (v.get "id").getD .null

@[simp] theorem get_id_success (id result : Json) : (success id result).get "id" = some id := rfl

@[simp] theorem get_id_error (id : Json) (e : RpcError) : (error id e).get "id" = some id := rfl

theorem id_of_fromValue_ok {v : Json} {req : RpcRequest} (h : RpcRequest.fromValue v = .ok req) :
    req.id = idOf v := by
  unfold RpcRequest.fromValue at h
  dsimp only at h
  split at h
  · cases h
  · split at h <;> cases h <;> rfl

theorem id_of_fromValue_error {v id : Json} {e : RpcError}
    (h : RpcRequest.fromValue v = .error (id, e)) : id = idOf v ∧ e.code = -32600 := by
  unfold RpcRequest.fromValue at h
  dsimp only at h
  split at h
  · cases h
    exact ⟨rfl, rfl⟩
  · split at h <;> cases h
    exact ⟨rfl, rfl⟩

end JsonRpc

end Zecd
