import Zecd.Foundation.Hex
import Zecd.Foundation.Runs
import Zecd.Rpc.Error

/-! # Waiting for a block

`waitfornewblock`, `waitforblock` and `waitforblockheight` evaluate their condition on the
wallet's best block. That block is joined from the published status and a later read of the
block table; where the table has no row at the published height, the height is paired with the
hash of the upstream's tip instead.
-/

namespace Zecd.WaitForBlock

open Runs

/-! ## Blocks and status -/

structure StoredHash where
  bytes : List UInt8
  length_eq : bytes.length = 32
  deriving DecidableEq

/-- `txid_display`: the bytes reversed, in hex. -/
def StoredHash.display (b : StoredHash) : String := String.ofList (Hex.encode b.bytes.reverse)

abbrev Blocks := ℕ → Option StoredHash

def putBlocks (blocks : Blocks) (start : ℕ) (hashes : List StoredHash) : Blocks := fun h =>
  if start ≤ h then (hashes[h - start]?).or (blocks h) else blocks h

def truncateToHeight (blocks : Blocks) (height : ℕ) : Blocks := fun h =>
  if h ≤ height then blocks h else none

structure SyncStatus where
  chainTip : Option ℕ
  fullyScanned : Option ℕ
  bestBlockHash : Option String
  deriving DecidableEq, Repr

/-- `best_block`, without the time of the block. -/
def bestBlock (st : SyncStatus) (blocks : Blocks) : ℕ × Option String :=
  match st.fullyScanned.bind fun h => (blocks h).map fun b => (h, some b.display) with
  | some best => best
  | none => (st.fullyScanned.getD 0, st.bestBlockHash)

/-- `getblockhash`, of a height that was parsed. -/
def getblockhash (blocks : Blocks) (st : SyncStatus) (height : ℕ) : Except RpcError String :=
  match blocks height with
  | some b => .ok b.display
  | none =>
    match if st.chainTip = some height then st.bestBlockHash else none with
    | some hash => .ok hash
    | none => .error (.invalidParameter "Block height out of range")

/-! ## Parameters -/

inductive Param where
  | absent
  | null
  | int (n : ℤ)
  | str (s : String)
  | other
  deriving DecidableEq, Repr

def Param.asI64 : Param → Option ℤ
  | .int n => if -2 ^ 63 ≤ n ∧ n < 2 ^ 63 then some n else none
  | _ => none

def requireStr (message : String) : Param → Except RpcError String
  | .absent | .null => .error (.misc message)
  | .str s => .ok s
  | _ => .error (.typeError (message ++ " (expected a string)"))

def blockHeightParam (message : String) : Param → Except RpcError ℕ
  | .absent | .null => .error (.misc message)
  | p =>
    match p.asI64 with
    | none => .error (.typeError "Block height must be an integer")
    | some n =>
      if 0 ≤ n ∧ n < 2 ^ 32 then .ok n.toNat
      else .error (.invalidParameter "Block height out of range")

def parseBlockhashParam (s : String) : Except RpcError Unit :=
  if s.utf8ByteSize ≠ 64 then
    .error (.invalidParameter ("blockhash must be of length 64 (not " ++
      toString s.utf8ByteSize ++ ", for '" ++ s ++ "')"))
  else if (Hex.decode s.toList).isNone then
    .error (.invalidParameter ("blockhash must be hexadecimal string (not '" ++ s ++ "')"))
  else .ok ()

/-- `wait_timeout`: the milliseconds, none for a wait without end. -/
def waitTimeout (p : Param) : Except RpcError (Option ℕ) :=
  match p with
  | .absent | .null => .ok none
  | p =>
    match p.asI64 with
    | none => .error (.typeError "Timeout must be an integer number of milliseconds")
    | some millis =>
      if millis < 0 then .error (.misc "Negative timeout")
      else .ok (if 0 < millis then some millis.toNat else none)

/-! ## Calls -/

/-- What a wait waits for; a requested hash is compared in lower case. -/
inductive Condition where
  | newBlock (startHeight : ℕ) (startHash : Option String)
  | block (target : String)
  | blockHeight (target : ℕ)
  deriving DecidableEq, Repr

def Condition.satisfied (height : ℕ) (hash : Option String) : Condition → Bool
  | .newBlock startHeight startHash => height != startHeight || hash != startHash
  | .block target => hash == some (String.ofList (Hex.asciiLower target.toList))
  | .blockHeight target => decide (target ≤ height)

inductive Request where
  | waitfornewblock (timeout : Param)
  | waitforblock (blockhash timeout : Param)
  | waitforblockheight (height timeout : Param)
  deriving DecidableEq, Repr

/-- The timeout, and the condition unless it depends on the block the wallet is on. -/
def Request.parse : Request → Except RpcError (Option ℕ × Option Condition)
  | .waitfornewblock timeout => do
    let timeout ← waitTimeout timeout
    .ok (timeout, none)
  | .waitforblock blockhash timeout => do
    let target ← requireStr "waitforblock requires a block hash" blockhash
    parseBlockhashParam target
    let timeout ← waitTimeout timeout
    .ok (timeout, some (.block target))
  | .waitforblockheight height timeout => do
    let target ← blockHeightParam "waitforblockheight requires a height" height
    let timeout ← waitTimeout timeout
    .ok (timeout, some (.blockHeight target))

/-- Where a call stands: `waitfornewblock` first reads the best block it starts from; then each
turn of the loop reads the status, reads the block table, and sleeps. -/
inductive Phase where
  | starting
  | startReading (st : SyncStatus)
  | looping (c : Condition)
  | reading (c : Condition) (st : SyncStatus)
  | napping (c : Condition) (height : ℕ) (hash : Option String)
  deriving DecidableEq, Repr

/-- A call under way, with the block tables there were since it started. -/
structure Call where
  timeout : Option ℕ
  phase : Phase
  seen : List Blocks

/-- A call's answer: whether the condition held, `wait_result`, the block table the pair was
read from, and those there were during the call. -/
structure Answered where
  condition : Condition
  satisfied : Bool
  height : ℕ
  hash : String
  readFrom : Blocks
  seen : List Blocks

structure World where
  blocks : Blocks
  tipHeight : Option ℕ
  tipHash : Option String
  status : SyncStatus
  calls : ℕ → Option Call
  answers : List Answered

/-- A wallet whose actor has just been spawned. -/
def World.start (blocks : Blocks) : World :=
  ⟨blocks, none, none, ⟨none, none, none⟩, fun _ => none, []⟩

namespace World

variable (w : World)

/-- The tables change under the calls. -/
def setBlocks (blocks : Blocks) : World :=
  { w with
    blocks
    calls := fun id => (w.calls id).map fun call => { call with seen := blocks :: call.seen } }

def setCall (id : ℕ) (call : Option Call) : World :=
  { w with calls := Function.update w.calls id call }

/-- `update_status_inner`, with the fully scanned height it reads. -/
def updateStatus (fullyScanned : Option ℕ) : World :=
  { w with
    status :=
      { chainTip := w.tipHeight
        fullyScanned := if w.tipHeight.isSome then fullyScanned else none
        bestBlockHash := w.tipHash } }

def answer (id : ℕ) (a : Answered) : World :=
  { w.setCall id none with answers := a :: w.answers }

end World

inductive Event where
  /-- A batch is scanned; a rescan scans the same heights again. -/
  | scan (start : ℕ) (hashes : List StoredHash)
  | rewind (height : ℕ)
  /-- `refresh_tip`, with the hash as the upstream reports it and whether the upstream is
  refused before the hash is kept. -/
  | refreshTip (height : ℕ) (hash : List UInt8) (refused readable : Bool)
  | publish (readable : Bool)
  | call (id : ℕ) (r : Request)
  | readStatus (id : ℕ)
  /-- The block table is read and the condition evaluated. -/
  | readBlock (id : ℕ) (deadlinePassed : Bool)
  /-- The sleep ends: the recheck interval is over or a status was published. -/
  | wake (id : ℕ)
  /-- The sleep ends with a shutdown, or with the actor gone. -/
  | giveUp (id : ℕ)
  /-- The wallet is not in the registry any more, or its database cannot be read. -/
  | fail (id : ℕ)

section Steps

variable (fullyScanned : Blocks → Option ℕ)

/-- `block_fully_scanned`, if the database can be read. -/
def World.publish (w : World) (readable : Bool) : World :=
  w.updateStatus (if readable then fullyScanned w.blocks else none)

def World.evaluate (w : World) (id : ℕ) (call : Call) (c : Condition) (st : SyncStatus)
    (deadlinePassed : Bool) : World :=
  let (height, hash) := bestBlock st w.blocks
  let a : Answered :=
    ⟨c, c.satisfied height hash, height, hash.getD "", w.blocks, call.seen⟩
  if c.satisfied height hash then w.answer id a
  else if call.timeout.isSome && deadlinePassed then w.answer id a
  else w.setCall id (some { call with phase := .napping c height hash })

def step (w : World) : Event → World
  | .scan start hashes => w.setBlocks (putBlocks w.blocks start hashes)
  | .rewind height => w.setBlocks (truncateToHeight w.blocks height)
  | .refreshTip height hash refused readable =>
    let w := { w with tipHeight := some height }
    if refused then w
    else
      let w := if h : hash.length = 32 then
        { w with tipHash := some (StoredHash.display ⟨hash, h⟩) } else w
      w.publish fullyScanned readable
  | .publish readable => w.publish fullyScanned readable
  | .call id r =>
    match w.calls id, r.parse with
    | none, .ok (timeout, condition) =>
      w.setCall id (some ⟨timeout, condition.elim .starting .looping, [w.blocks]⟩)
    | _, _ => w
  | .readStatus id =>
    match w.calls id with
    | none => w
    | some call =>
      match call.phase with
      | .starting => w.setCall id (some { call with phase := .startReading w.status })
      | .looping c => w.setCall id (some { call with phase := .reading c w.status })
      | _ => w
  | .readBlock id deadlinePassed =>
    match w.calls id with
    | none => w
    | some call =>
      match call.phase with
      | .startReading st =>
        let (height, hash) := bestBlock st w.blocks
        w.setCall id (some { call with phase := .looping (.newBlock height hash) })
      | .reading c st => w.evaluate id call c st deadlinePassed
      | _ => w
  | .wake id =>
    match w.calls id with
    | none => w
    | some call =>
      match call.phase with
      | .napping c _ _ => w.setCall id (some { call with phase := .looping c })
      | _ => w
  | .giveUp id =>
    match w.calls id with
    | none => w
    | some call =>
      match call.phase with
      | .napping c height hash => w.answer id ⟨c, false, height, hash.getD "", w.blocks, call.seen⟩
      | _ => w
  | .fail id => w.setCall id none

end Steps

/-! ## What a satisfied wait promises -/

/-- The answer names a block that was scanned at its height at some instant of the call; the
hash is the one `getblockhash` answers from the table it was read from, whatever the status,
and the one that was asked for, if one was. -/
def Answered.NamesScanned (a : Answered) : Prop :=
  ∃ b : StoredHash, a.hash = b.display ∧ (∃ blocks ∈ a.seen, blocks a.height = some b) ∧
    (∀ st, getblockhash a.readFrom st a.height = .ok a.hash) ∧
    ∀ target, a.condition = .block target → Hex.decode target.toList = some b.bytes.reverse

def World.SatisfiedWaitsNameScanned (w : World) : Prop :=
  ∀ a ∈ w.answers, a.satisfied = true → a.NamesScanned

/-- The table has a row at the height the status names as scanned; if it names none, height 0 was
scanned as the upstream's tip. -/
def Backed (st : SyncStatus) (blocks : Blocks) : Prop :=
  ∃ b, blocks (st.fullyScanned.getD 0) = some b ∧
    (st.fullyScanned = none → st.bestBlockHash = some b.display)

/-- A read of the block table meets a row, or the wait's condition does not hold of the height
the status names and the upstream tip's hash. -/
def Event.ReadsBacked (w : World) : Event → Prop
  | .readBlock id _ => ∀ call c st, w.calls id = some call → call.phase = .reading c st →
      c.satisfied (st.fullyScanned.getD 0) st.bestBlockHash = true → Backed st w.blocks
  | _ => True

/-! ## One evaluation -/

section Evaluation

variable {st : SyncStatus} {blocks : Blocks} {b : StoredHash} {h : ℕ} {c : Condition}

theorem length_display (b : StoredHash) : b.display.toList.length = 64 := by
  rw [StoredHash.display, String.toList_ofList, Hex.length_encode, List.length_reverse, b.length_eq]

theorem display_ne_empty (b : StoredHash) : b.display ≠ "" := by
  intro hempty
  have hlen := length_display b
  rw [hempty] at hlen
  cases hlen

theorem bestBlock_of_row (hst : st.fullyScanned = some h) (hrow : blocks h = some b) :
    bestBlock st blocks = (h, some b.display) := by
  rw [bestBlock, hst, Option.bind_some, hrow, Option.map_some]

theorem bestBlock_of_noRow (hrow : ∀ h, st.fullyScanned = some h → blocks h = none) :
    bestBlock st blocks = (st.fullyScanned.getD 0, st.bestBlockHash) := by
  cases hst : st.fullyScanned with
  | none => rw [bestBlock, hst]; rfl
  | some h => rw [bestBlock, hst, Option.bind_some, hrow h hst]; rfl

theorem getblockhash_of_row (st : SyncStatus) (hrow : blocks h = some b) :
    getblockhash blocks st h = .ok b.display := by
  rw [getblockhash, hrow]

theorem getblockhash_iff {hash : String} :
    (∀ st, getblockhash blocks st h = .ok hash) ↔ ∃ b, blocks h = some b ∧ hash = b.display := by
  constructor
  · intro hall
    cases hrow : blocks h with
    | none =>
      have hnone := hall ⟨none, none, none⟩
      rw [getblockhash, hrow] at hnone
      cases hnone
    | some b =>
      have hsome := hall ⟨none, none, none⟩
      rw [getblockhash_of_row _ hrow] at hsome
      cases hsome
      exact ⟨b, rfl, rfl⟩
  · rintro ⟨b, hrow, rfl⟩ st
    exact getblockhash_of_row st hrow

/-- A requested hash is matched by its bytes. -/
theorem decode_of_satisfied {target : String} {n : ℕ}
    (h : (Condition.block target).satisfied n (some b.display) = true) :
    Hex.decode target.toList = some b.bytes.reverse := by
  rw [Condition.satisfied, beq_iff_eq, Option.some.injEq, StoredHash.display] at h
  rw [← Hex.decode_asciiLower, ← String.ofList_injective h, Hex.decode_encode]

theorem backed_cases (hback : Backed st blocks) :
    ∃ b, blocks (st.fullyScanned.getD 0) = some b ∧
      bestBlock st blocks = (st.fullyScanned.getD 0, some b.display) := by
  obtain ⟨b, hrow, hnone⟩ := hback
  refine ⟨b, hrow, ?_⟩
  cases hst : st.fullyScanned with
  | none =>
    rw [bestBlock_of_noRow (by simp [hst]), hst, hnone hst]
  | some h =>
    rw [hst, Option.getD_some] at hrow
    exact bestBlock_of_row hst hrow

theorem bestBlock_of_not_backed (hback : ¬ Backed st blocks) :
    bestBlock st blocks = (st.fullyScanned.getD 0, st.bestBlockHash) := by
  apply bestBlock_of_noRow
  intro h hst
  cases hrow : blocks h with
  | none => rfl
  | some b =>
    refine absurd ⟨b, by rw [hst]; exact hrow, fun hnone => ?_⟩ hback
    rw [hst] at hnone
    cases hnone

theorem answered_namesScanned_iff (hsat : c.satisfied (bestBlock st blocks).1
    (bestBlock st blocks).2 = true) {seen : List Blocks} (hseen : blocks ∈ seen) :
    Answered.NamesScanned ⟨c, true, (bestBlock st blocks).1, (bestBlock st blocks).2.getD "",
      blocks, seen⟩ ↔ Backed st blocks := by
  constructor
  · rintro ⟨b, hhash, _, hget, _⟩
    obtain ⟨b', hrow, hdisplay⟩ := getblockhash_iff.mp hget
    by_cases hfall : ∀ h, st.fullyScanned = some h → blocks h = none
    · rw [bestBlock_of_noRow hfall] at hrow hdisplay
      refine ⟨b', hrow, fun _ => ?_⟩
      cases htip : st.bestBlockHash with
      | none =>
        rw [htip] at hdisplay
        exact absurd hdisplay.symm (display_ne_empty b')
      | some hash =>
        rw [htip] at hdisplay
        exact congrArg some hdisplay
    · push Not at hfall
      obtain ⟨h, hst, hsome⟩ := hfall
      obtain ⟨b'', hb''⟩ := Option.ne_none_iff_exists'.mp hsome
      refine ⟨b'', by rw [hst]; exact hb'', fun hnone => ?_⟩
      rw [hst] at hnone
      cases hnone
  · intro hback
    obtain ⟨b, hrow, hbest⟩ := backed_cases hback
    rw [hbest] at hsat ⊢
    refine ⟨b, rfl, ⟨blocks, hseen, hrow⟩, fun st => getblockhash_of_row st hrow, ?_⟩
    rintro target rfl
    exact decode_of_satisfied hsat

end Evaluation

/-! ## Every interleaving -/

section Runs

variable {fullyScanned : Blocks → Option ℕ} {w : World} {e : Event} {id : ℕ} {call : Call}
  {c : Condition} {st : SyncStatus}

/-- Every call has seen the table as it is now. -/
def World.CallsSee (w : World) : Prop := ∀ id call, w.calls id = some call → w.blocks ∈ call.seen

theorem setCall_calls (w : World) (id id' : ℕ) (new : Option Call) :
    (w.setCall id new).calls id' = if id' = id then new else w.calls id' :=
  Function.update_apply ..

theorem callsSee_setCall (h : w.CallsSee) {new : Option Call}
    (hnew : ∀ call, new = some call → w.blocks ∈ call.seen) : (w.setCall id new).CallsSee := by
  intro id' call hcall
  rw [setCall_calls] at hcall
  split at hcall
  · exact hnew call hcall
  · exact h id' call hcall

theorem callsSee_goOn (h : w.CallsSee) (hcall : w.calls id = some call) (phase : Phase) :
    (w.setCall id (some { call with phase })).CallsSee := by
  refine callsSee_setCall h ?_
  intro call' hsome
  cases hsome
  exact h id call hcall

theorem callsSee_return (h : w.CallsSee) (id : ℕ) : (w.setCall id none).CallsSee := by
  refine callsSee_setCall h ?_
  intro call hnone
  cases hnone

theorem callsSee_setBlocks (blocks : Blocks) : (w.setBlocks blocks).CallsSee := by
  intro id call hcall
  obtain ⟨old, _, rfl⟩ := Option.map_eq_some_iff.mp hcall
  exact List.mem_cons_self

/-- The answer of an evaluation whose condition holds. -/
def World.satisfiedAnswer (w : World) (call : Call) (c : Condition) (st : SyncStatus) :
    Answered :=
  ⟨c, true, (bestBlock st w.blocks).1, (bestBlock st w.blocks).2.getD "", w.blocks, call.seen⟩

/-- The event is an evaluation whose condition holds, and this is its answer. -/
def Event.Satisfies (w : World) (e : Event) (a : Answered) : Prop :=
  ∃ id late call c st, e = .readBlock id late ∧ w.calls id = some call ∧
    call.phase = .reading c st ∧
    c.satisfied (bestBlock st w.blocks).1 (bestBlock st w.blocks).2 = true ∧
    a = w.satisfiedAnswer call c st

theorem evaluate_satisfied (h : c.satisfied (bestBlock st w.blocks).1
    (bestBlock st w.blocks).2 = true) (late : Bool) :
    w.evaluate id call c st late = w.answer id (w.satisfiedAnswer call c st) := by
  simp only [World.evaluate, h, if_true]
  rfl

theorem evaluate_unsatisfied (id : ℕ) (call : Call) (h : c.satisfied (bestBlock st w.blocks).1
    (bestBlock st w.blocks).2 = false) (late : Bool) :
    (∃ a, a.satisfied = false ∧ w.evaluate id call c st late = w.answer id a) ∨
      ∃ phase, w.evaluate id call c st late = w.setCall id (some { call with phase }) := by
  simp only [World.evaluate, h, Bool.false_eq_true, if_false]
  split
  · exact .inl ⟨_, rfl, rfl⟩
  · exact .inr ⟨_, rfl⟩

theorem step_satisfies {a : Answered} (h : e.Satisfies w a) :
    a ∈ (step fullyScanned w e).answers := by
  obtain ⟨id, late, call, c, st, rfl, hcall, hphase, hsat, rfl⟩ := h
  simp only [step, hcall, hphase, evaluate_satisfied hsat]
  exact List.mem_cons_self

theorem step_answers (fullyScanned : Blocks → Option ℕ) (w : World) (e : Event) :
    ∀ a ∈ (step fullyScanned w e).answers,
      a ∈ w.answers ∨ a.satisfied = false ∨ e.Satisfies w a := by
  intro a ha
  cases e with
  | scan start hashes => exact .inl ha
  | rewind height => exact .inl ha
  | refreshTip height hash refused readable =>
    left
    simp only [step] at ha
    split at ha
    · exact ha
    · split at ha <;> exact ha
  | publish readable => exact .inl ha
  | call id r =>
    left
    simp only [step] at ha
    split at ha <;> exact ha
  | readStatus id =>
    left
    simp only [step] at ha
    split at ha
    · exact ha
    · split at ha <;> exact ha
  | readBlock id late =>
    cases hcall : w.calls id with
    | none =>
      simp only [step, hcall] at ha
      exact .inl ha
    | some call =>
      simp only [step, hcall] at ha
      split at ha
      · exact .inl ha
      · rename_i c st hphase
        cases hsat : c.satisfied (bestBlock st w.blocks).1 (bestBlock st w.blocks).2 with
        | true =>
          rw [evaluate_satisfied hsat] at ha
          rcases List.mem_cons.mp ha with rfl | ha
          · exact .inr (.inr ⟨id, late, call, c, st, rfl, hcall, hphase, hsat, rfl⟩)
          · exact .inl ha
        | false =>
          rcases evaluate_unsatisfied id call hsat late with
            ⟨a', hno, heval⟩ | ⟨phase, heval⟩
          · rw [heval] at ha
            rcases List.mem_cons.mp ha with rfl | ha
            · exact .inr (.inl hno)
            · exact .inl ha
          · rw [heval] at ha
            exact .inl ha
      · exact .inl ha
  | wake id =>
    left
    simp only [step] at ha
    split at ha
    · exact ha
    · split at ha <;> exact ha
  | giveUp id =>
    simp only [step] at ha
    split at ha
    · exact .inl ha
    · split at ha
      · rcases List.mem_cons.mp ha with rfl | ha
        · exact .inr (.inl rfl)
        · exact .inl ha
      · exact .inl ha
  | fail id => exact .inl ha

theorem callsSee_step (h : w.CallsSee) (e : Event) : (step fullyScanned w e).CallsSee := by
  cases e with
  | scan start hashes => exact callsSee_setBlocks _
  | rewind height => exact callsSee_setBlocks _
  | refreshTip height hash refused readable =>
    simp only [step]
    split
    · exact h
    · split <;> exact h
  | publish readable => exact h
  | call id r =>
    simp only [step]
    split
    · refine callsSee_setCall h ?_
      intro call hsome
      cases hsome
      exact List.mem_cons_self
    · exact h
  | readStatus id =>
    simp only [step]
    split
    · exact h
    · rename_i call hcall
      split
      · exact callsSee_goOn h hcall _
      · exact callsSee_goOn h hcall _
      · exact h
  | readBlock id late =>
    simp only [step]
    split
    · exact h
    · rename_i call hcall
      split
      · exact callsSee_goOn h hcall _
      · rename_i c st hphase
        cases hsat : c.satisfied (bestBlock st w.blocks).1 (bestBlock st w.blocks).2 with
        | true =>
          rw [evaluate_satisfied hsat]
          exact callsSee_return h id
        | false =>
          rcases evaluate_unsatisfied id call hsat late with
            ⟨a', hno, heval⟩ | ⟨phase, heval⟩
          · rw [heval]
            exact callsSee_return h id
          · rw [heval]
            exact callsSee_goOn h hcall phase
      · exact h
  | wake id =>
    simp only [step]
    split
    · exact h
    · rename_i call hcall
      split
      · exact callsSee_goOn h hcall _
      · exact h
  | giveUp id =>
    simp only [step]
    split
    · exact h
    · split
      · exact callsSee_return h id
      · exact h
  | fail id => exact callsSee_return h id

/-- A satisfied answer names a scanned block exactly if its read was backed. -/
theorem satisfies_namesScanned_iff (h : w.CallsSee) {a : Answered} (hsat : e.Satisfies w a) :
    a.NamesScanned ↔ e.ReadsBacked w := by
  obtain ⟨id, late, call, c, st, rfl, hcall, hphase, hholds, rfl⟩ := hsat
  rw [World.satisfiedAnswer, answered_namesScanned_iff hholds (h id call hcall)]
  constructor
  · intro hback call' c' st' hcall' hphase' _
    obtain rfl : call = call' := Option.some.inj (hcall.symm.trans hcall')
    rw [hphase] at hphase'
    cases hphase'
    exact hback
  · intro hreads
    by_contra hnot
    have hbest := bestBlock_of_not_backed hnot
    rw [hbest] at hholds
    exact hnot (hreads call c st hcall hphase hholds)

theorem readsBacked_of_namesScanned (h : w.CallsSee)
    (hnames : (step fullyScanned w e).SatisfiedWaitsNameScanned) : e.ReadsBacked w := by
  cases e with
  | readBlock id late =>
    intro call c st hcall hphase hholds
    by_contra hnot
    have hsat : (Event.readBlock id late).Satisfies w (w.satisfiedAnswer call c st) := by
      refine ⟨id, late, call, c, st, rfl, hcall, hphase, ?_, rfl⟩
      rw [bestBlock_of_not_backed hnot]
      exact hholds
    have hreads := (satisfies_namesScanned_iff h hsat).mp (hnames _ (step_satisfies hsat) rfl)
    exact hnot (hreads call c st hcall hphase hholds)
  | scan start hashes => trivial
  | rewind height => trivial
  | refreshTip height hash refused readable => trivial
  | publish readable => trivial
  | call id r => trivial
  | readStatus id => trivial
  | wake id => trivial
  | giveUp id => trivial
  | fail id => trivial

theorem namesScanned_step (h : w.CallsSee) (hnames : w.SatisfiedWaitsNameScanned)
    (hreads : e.ReadsBacked w) : (step fullyScanned w e).SatisfiedWaitsNameScanned := by
  intro a ha hsat
  rcases step_answers fullyScanned w e a ha with hold | hno | hnew
  · exact hnames a hold hsat
  · rw [hno] at hsat
    cases hsat
  · exact (satisfies_namesScanned_iff h hnew).mpr hreads

end Runs

/-- In every state a run reaches the satisfied waits name scanned blocks exactly if the reads of
the block table that satisfy a wait all meet the block the status named. -/
theorem satisfiedWaits_iff (fullyScanned : Blocks → Option ℕ) (blocks : Blocks)
    (es : List Event) :
    (∀ es', es' <+: es →
      (run (step fullyScanned) (.start blocks) es').SatisfiedWaitsNameScanned) ↔
      Along (step fullyScanned) (fun w e => e.ReadsBacked w) (.start blocks) es := by
  refine forall_reached_iff_along (I := fun w => w.CallsSee ∧ w.SatisfiedWaitsNameScanned)
    (fun w e h hreads => ⟨callsSee_step h.1 e, namesScanned_step h.1 h.2 hreads⟩)
    (fun w h => h.2) (fun w e h hnames => readsBacked_of_namesScanned h.1 hnames) ⟨?_, ?_⟩
  · intro id call hcall
    cases hcall
  · intro a ha
    cases ha

def blockAt (height : ℕ) : StoredHash :=
  ⟨List.replicate 32 (UInt8.ofNat height), List.length_replicate⟩

/-- The wallet scans block 100 of a chain whose tip is 105 and publishes it. A wait for height
100 reads that status, a rewind takes the block away, and the wait reads the table. -/
def rewoundWait : List Event :=
  [.refreshTip 105 (blockAt 105).bytes false true, .scan 100 [blockAt 100], .publish true,
    .call 7 (.waitforblockheight (.int 100) .absent), .readStatus 7, .rewind 90,
    .readBlock 7 false]

def scannedTo100 (blocks : Blocks) : Option ℕ := if (blocks 100).isSome then some 100 else none

/-- The wait is satisfied by height 100 with the hash of block 105, which was never scanned. -/
theorem rewoundWait_mixed :
    ((run (step scannedTo100) (.start fun _ => none) rewoundWait).answers.map fun a =>
      (a.satisfied, a.height, a.hash)) = [(true, 100, (blockAt 105).display)] ∧
    ¬ (run (step scannedTo100) (.start fun _ => none) rewoundWait).SatisfiedWaitsNameScanned := by
  have hrun : (run (step scannedTo100) (.start fun _ => none) rewoundWait).answers =
      [⟨.blockHeight 100, true, 100, (blockAt 105).display,
        truncateToHeight (putBlocks (fun _ => none) 100 [blockAt 100]) 90,
        [truncateToHeight (putBlocks (fun _ => none) 100 [blockAt 100]) 90,
          putBlocks (fun _ => none) 100 [blockAt 100]]⟩] := rfl
  refine ⟨by rw [hrun]; rfl, ?_⟩
  intro hnames
  obtain ⟨_, _, _, hget, _⟩ := hnames _ (by rw [hrun]; exact List.mem_cons_self) rfl
  obtain ⟨_, hrow, _⟩ := getblockhash_iff.mp hget
  cases hrow

end Zecd.WaitForBlock
