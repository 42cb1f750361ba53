import Zecd.Upstream.Upgrades

/-! # The shared connection and the actor that syncs over it

The hub keeps one connection for its consumers, numbered by a generation, and caches the tip and
the upstream's reply. The actor connects, refreshes the tip, reads the branch again when the tip
crosses an activation, and scans batches up to the tip its scan queue stores.
-/

namespace Zecd.Upstream

/-! ## The hub -/

structure Hub where
  /-- The connection is up. -/
  live : Bool
  generation : ℕ
  /-- The last tip fetched, and the generation it was fetched on. -/
  tip : Option (ℕ × ℕ)
  infoGeneration : ℕ
  serverInfo : Option ServerInfo
  deriving DecidableEq, Repr

namespace Hub

variable (h : Hub) (generation : ℕ)

def new : Hub := ⟨false, 0, none, 0, none⟩

/-- `acquire`: the generation of the handle, dialing a connection that is down. -/
def acquire (dialed : Bool) : Hub × Option ℕ :=
  if h.live then (h, some h.generation)
  else if dialed then
    ({ h with live := true, generation := h.generation + 1 }, some (h.generation + 1))
  else (h, none)

/-- `invalidate`: a failure on a superseded generation is ignored. -/
def invalidate : Hub :=
  if h.generation ≠ generation ∨ h.live = false then h else { h with live := false }

/-- `latest_block`: the tip the node has now, or one fetched on the same generation within the
cache's lifetime. -/
def latestBlock (cached : Bool) (fetched : Option ℕ) : Hub × Option ℕ :=
  match h.tip with
  | some (tip, g) => if cached && decide (g = generation) then (h, some tip) else fetch
  | none => fetch
where
  fetch : Hub × Option ℕ :=
    match fetched with
    | some tip => ({ h with tip := some (tip, generation) }, some tip)
    | none => (h.invalidate generation, none)

def cachedInfo : Option ServerInfo :=
  if h.infoGeneration = generation then h.serverInfo else none

/-- `server_info`: cached for the connection's lifetime. -/
def getServerInfo (fetched : Option ServerInfo) : Hub × Option ServerInfo :=
  match h.cachedInfo generation with
  | some info => (h, some info)
  | none =>
    match fetched with
    | some info =>
      ({ h with infoGeneration := generation, serverInfo := some info }, some info)
    | none =>
      (({ h with infoGeneration := generation, serverInfo := none } : Hub).invalidate generation,
        none)

/-- The end of a `refresh_server_info`: the reply replaces the cached one of its generation. -/
def storeServerInfo (info : ServerInfo) : Hub :=
  if h.infoGeneration = generation then { h with serverInfo := some info } else h

def refreshServerInfo (fetched : Option ServerInfo) : Hub × Option ServerInfo :=
  match fetched with
  | some info => (h.storeServerInfo generation info, some info)
  | none => (h.invalidate generation, none)

end Hub

/-! ## The node -/

/-- The consensus branch the node's own chain has at each height. -/
abbrev Node := ℕ → ℕ

/-- What a reply says besides the tip and its branch. -/
structure Report where
  upgrades : List UpgradeInfo
  nextBlockBranchId : Option ℕ
  deriving DecidableEq, Repr

/-- A reply taken at a tip, truthful about the tip and its branch. -/
def Node.reply (node : Node) (tip : ℕ) (r : Report) : ServerInfo :=
  ⟨some tip, r.upgrades, some (node tip), r.nextBlockBranchId⟩

/-! ## The actor -/

/-- Where the actor stands between two awaits. -/
inductive Pos where
  | idle
  /-- In `connect`, before the health check; a tip refresh may follow. -/
  | preparing (thenRefresh : Bool)
  /-- Connected, with a tip refresh to follow. -/
  | refreshing
  /-- In `refresh_tip`, after the tip was stored. -/
  | rechecking
  deriving DecidableEq, Repr

structure Actor where
  pos : Pos
  /-- The generation of the handle it holds. -/
  client : Option ℕ
  unsupportedUpgrades : List UnsupportedUpgrade
  branchCheckedAt : Option ℕ
  tipHeight : Option ℕ
  /-- The highest tip stored into the scan queue. -/
  storedTip : Option ℕ
  deriving DecidableEq, Repr

structure World where
  /-- The node's tip. -/
  tip : ℕ
  hub : Hub
  actor : Actor
  /-- The block heights of the batches handed to the scanner. -/
  batches : List (List ℕ)

/-- A daemon starts over a scan queue from earlier runs. -/
def World.start (tip : ℕ) (storedTip : Option ℕ) : World :=
  ⟨tip, .new, ⟨.idle, none, [], none, none, storedTip⟩, []⟩

inductive Event where
  | grow (blocks : ℕ)
  /-- Another consumer of the hub, or a prefetch, acquires a handle. -/
  | otherAcquire (dialed : Bool)
  /-- A call on another handle fails. -/
  | otherFails (generation : ℕ)
  | otherTip (generation : ℕ) (cached answered : Bool)
  | otherInfo (generation : ℕ) (reply : Option Report)
  /-- Another consumer's refresh stores a reply that it was given at some earlier tip. -/
  | otherRefresh (generation ago : ℕ) (reply : Report)
  | acquire (dialed thenRefresh : Bool)
  /-- The reply, if it must be fetched, and whether the rest of the health check passes. -/
  | prepare (reply : Option Report) (healthy : Bool)
  | refreshTip (cached answered hasAccount stored : Bool)
  | recheck (reply : Option Report)
  /-- An account is created, and the actor's tip stored into its scan queue. -/
  | bootstrap
  /-- A batch over a range of the scan queue. -/
  | batch (start blocks : ℕ)
  /-- Any other failure that drops the client. -/
  | disconnect

def maxTip (stored : Option ℕ) (tip : ℕ) : ℕ := stored.elim tip (max tip)

variable (p : Protocol) (params : Params)

/-- The findings of a reply, and the refusal they may lead to. -/
def Actor.adopt (a : Actor) (info : ServerInfo) : Actor :=
  { a with
    unsupportedUpgrades := Upstream.unsupportedUpgrades p params info
    branchCheckedAt := info.tipHeight <|> a.tipHeight }

/-- `refuse_stale_upstream`, and dropping the client if it refuses. -/
def Actor.refuseStale (a : Actor) (pos : Pos) : Actor :=
  if (upstreamNotUpgraded a.unsupportedUpgrades a.tipHeight).isSome then
    { a with client := none, pos := .idle }
  else { a with pos }

/-- A fetched tip is recorded, and with an account also stored into the scan queue. -/
def Actor.storeTip (a : Actor) (hasAccount : Bool) (tip : ℕ) : Actor :=
  { a with
    tipHeight := some tip
    storedTip := if hasAccount then some (maxTip a.storedTip tip) else a.storedTip
    pos := .rechecking }

def Actor.drop (a : Actor) : Actor := { a with client := none, pos := .idle }

/-- The health check of `connect`. -/
def prepare (node : Node) (w : World) (generation : ℕ) (thenRefresh : Bool)
    (reply : Option Report) (healthy : Bool) : World :=
  match w.hub.getServerInfo generation (reply.map (node.reply w.tip)) with
  | (hub, none) => { w with hub, actor := w.actor.drop }
  | (hub, some info) =>
    let pos := if thenRefresh then Pos.refreshing else .idle
    if healthy then
      { w with hub, actor := (w.actor.adopt p params info).refuseStale pos }
    else { w with hub, actor := w.actor.drop }

/-- `refresh_tip`, up to where the tip is stored. -/
def refreshTip (w : World) (generation : ℕ) (cached answered hasAccount stored : Bool) : World :=
  match w.hub.latestBlock generation cached (if answered then some w.tip else none) with
  | (hub, none) => { w with hub, actor := w.actor.drop }
  | (hub, some tip) =>
    if hasAccount && !stored then { w with hub, actor := w.actor.drop }
    else { w with hub, actor := w.actor.storeTip hasAccount tip }

/-- `refresh_tip`, from there on. -/
def recheck (node : Node) (w : World) (generation : ℕ) (reply : Option Report) : World :=
  if w.actor.tipHeight.any (branchCheckDue p params w.actor.branchCheckedAt) then
    match w.hub.refreshServerInfo generation (reply.map (node.reply w.tip)) with
    | (hub, none) => { w with hub, actor := w.actor.drop }
    | (hub, some info) => { w with hub, actor := (w.actor.adopt p params info).refuseStale .idle }
  else { w with actor := w.actor.refuseStale .idle }

/-- The heights of a range that the scan queue covers. -/
def batchHeights (storedTip : Option ℕ) (start blocks : ℕ) : List ℕ :=
  (List.range' start blocks).filter fun h => storedTip.any fun s => decide (h ≤ s)

def step (node : Node) (w : World) : Event → World
  | .grow blocks => { w with tip := w.tip + blocks }
  | .otherAcquire dialed => { w with hub := (w.hub.acquire dialed).1 }
  | .otherFails generation => { w with hub := w.hub.invalidate generation }
  | .otherTip generation cached answered => { w with
      hub := (w.hub.latestBlock generation cached (if answered then some w.tip else none)).1 }
  | .otherInfo generation reply => { w with
      hub := (w.hub.getServerInfo generation (reply.map (node.reply w.tip))).1 }
  | .otherRefresh generation ago reply => { w with
      hub := w.hub.storeServerInfo generation (node.reply (w.tip - ago) reply) }
  | .acquire dialed thenRefresh =>
    if w.actor.pos = .idle ∧ w.actor.client = none then
      match w.hub.acquire dialed with
      | (hub, none) => { w with hub }
      | (hub, some generation) => { w with hub, actor := { w.actor with
          client := some generation, pos := .preparing thenRefresh } }
    else w
  | .prepare reply healthy =>
    match w.actor.pos, w.actor.client with
    | .preparing thenRefresh, some generation =>
      prepare p params node w generation thenRefresh reply healthy
    | _, _ => w
  | .refreshTip cached answered hasAccount stored =>
    match w.actor.client with
    | some generation =>
      if w.actor.pos = .idle ∨ w.actor.pos = .refreshing then
        refreshTip w generation cached answered hasAccount stored
      else w
    | none => w
  | .recheck reply =>
    match w.actor.client with
    | some generation =>
      if w.actor.pos = .rechecking then recheck p params node w generation reply else w
    | none => w
  | .bootstrap =>
    match w.actor.tipHeight with
    | some tip =>
      if w.actor.pos = .idle ∧ w.actor.client.isSome then
        { w with actor := { w.actor with storedTip := some (maxTip w.actor.storedTip tip) } }
      else w
    | none => w
  | .batch start blocks =>
    if w.actor.pos = .idle ∧ w.actor.client.isSome then
      { w with batches := w.batches ++ [batchHeights w.actor.storedTip start blocks] }
    else w
  | .disconnect => if w.actor.pos = .idle then { w with actor := w.actor.drop } else w

end Zecd.Upstream
