import Zecd.Foundation.Runs

/-! # The mempool fan-out

One task pumps the upstream's mempool stream into a replay buffer and a broadcast channel. A
subscriber checks that the subscription is open, attaches to the channel and copies the buffer,
each step apart from the pump's. It misses no transaction, and it is told of the end unless the
pump ends between its check and its attachment.
-/

namespace Zecd.MempoolFanout

open Runs

variable {Tx : Type}

inductive MempoolItem (Tx : Type) where
  | tx (raw : Tx)
  | closed
  deriving DecidableEq, Repr

/-- Where the pump stands: it waits for the stream, has a transaction to buffer, one to
broadcast, the end to broadcast, or is done. -/
inductive Pump (Tx : Type) where
  | waiting
  | pushing (raw : Tx)
  | broadcasting (raw : Tx)
  | closing
  | ended
  deriving DecidableEq, Repr

/-- A consumer's view, with what it has yielded so far. -/
structure HubMempoolStream (Tx : Type) where
  rx : List (MempoolItem Tx)
  replay : List Tx
  done : Bool
  yielded : List Tx
  deriving DecidableEq, Repr

/-- A `subscribe` under way: past its check, or attached with what the channel delivered since. -/
inductive Subscribing (Tx : Type) where
  | checked
  | attached (rx : List (MempoolItem Tx))
  deriving DecidableEq, Repr

structure State (Tx : Type) where
  pump : Pump Tx
  /-- What the stream gave the pump. -/
  delivered : List Tx
  replay : List Tx
  closed : Bool
  /-- The hub still holds the channel's sender. -/
  tx : Bool
  subscribing : Option (Subscribing Tx)
  subscribers : List (HubMempoolStream Tx)
  deriving DecidableEq, Repr

def mempoolReplayTxs : ℕ := 4096

/-- `start`: a fresh channel with its first subscriber. -/
def State.start : State Tx :=
  ⟨.waiting, [], [], false, true, none, [⟨[], [], false, []⟩]⟩

inductive Event (Tx : Type) where
  | deliver (raw : Tx)
  | push
  | broadcast
  /-- The stream closes or errors, and the pump sets the flag. -/
  | close
  | broadcastClosed
  | check
  | attach
  | snapshot
  /-- Subscriber `k` reads its stream. -/
  | message (k : ℕ)
  /-- The hub starts the next subscription, and drops its sender of this one. -/
  | restart

namespace State

variable (s : State Tx)

def send (item : MempoolItem Tx) : State Tx :=
  { s with
    subscribing := s.subscribing.map fun
      | .checked => .checked
      | .attached rx => .attached (rx ++ [item])
    subscribers := s.subscribers.map fun sub => { sub with rx := sub.rx ++ [item] } }

/-- No sender of the channel is left. -/
def channelClosed : Bool := !s.tx && match s.pump with
  | .ended => true
  | _ => false

end State

namespace HubMempoolStream

/-- `message`: what is replayed, then what is live, up to the end. -/
def message (channelClosed : Bool) (sub : HubMempoolStream Tx) : HubMempoolStream Tx :=
  match sub.replay with
  | raw :: replay => { sub with replay, yielded := sub.yielded ++ [raw] }
  | [] =>
    if sub.done then sub
    else
      match sub.rx with
      | .tx raw :: rx => { sub with rx, yielded := sub.yielded ++ [raw] }
      | .closed :: rx => { sub with rx, done := true }
      | [] => if channelClosed then { sub with done := true } else sub

end HubMempoolStream

def step (s : State Tx) : Event Tx → State Tx
  | .deliver raw =>
    match s.pump with
    | .waiting => { s with pump := .pushing raw, delivered := s.delivered ++ [raw] }
    | _ => s
  | .push =>
    match s.pump with
    | .pushing raw => { s with
        pump := .broadcasting raw
        replay := if s.replay.length < mempoolReplayTxs then s.replay ++ [raw] else s.replay }
    | _ => s
  | .broadcast =>
    match s.pump with
    | .broadcasting raw => { s.send (.tx raw) with pump := .waiting }
    | _ => s
  | .close =>
    match s.pump with
    | .waiting => { s with pump := .closing, closed := true }
    | _ => s
  | .broadcastClosed =>
    match s.pump with
    | .closing => { s.send .closed with pump := .ended }
    | _ => s
  | .check =>
    if s.subscribing.isNone && s.tx && !s.closed then { s with subscribing := some .checked } else s
  | .attach =>
    match s.subscribing with
    | some .checked => { s with subscribing := some (.attached []) }
    | _ => s
  | .snapshot =>
    match s.subscribing with
    | some (.attached rx) => { s with
        subscribing := none
        subscribers := s.subscribers ++ [⟨rx, s.replay, false, []⟩] }
    | _ => s
  | .message k =>
    { s with subscribers := s.subscribers.modify k (HubMempoolStream.message s.channelClosed) }
  | .restart => if s.closed && s.subscribing.isNone then { s with tx := false } else s

/-! ## The statement -/

def liveTxs : List (MempoolItem Tx) → List Tx
  | .tx raw :: rx => raw :: liveTxs rx
  | .closed :: _ => []
  | [] => []

namespace HubMempoolStream

variable (sub : HubMempoolStream Tx)

/-- What reading the stream on yields without anything more being sent. -/
def toYield : List Tx := sub.replay ++ if sub.done then [] else liveTxs sub.rx

/-- The subscriber was told of the end, or is about to be. -/
def Woken (s : State Tx) : Prop :=
  sub.done = true ∨ .closed ∈ sub.rx ∨ s.channelClosed = true

end HubMempoolStream

/-- The pump holds a transaction it has not broadcast. -/
def Pump.Holds (raw : Tx) : Pump Tx → Prop
  | .pushing raw' | .broadcasting raw' => raw' = raw
  | .waiting | .closing | .ended => False

/-- A subscriber yields everything the stream delivered, and is woken once the pump has ended. -/
structure Served (s : State Tx) (sub : HubMempoolStream Tx) : Prop where
  yields : ∀ raw ∈ s.delivered, raw ∈ sub.yielded ∨ raw ∈ sub.toYield ∨ s.pump.Holds raw
  woken : s.pump = .ended → sub.Woken s

/-- No subscriber attaches after the pump has broadcast the end. -/
def AttachesInTime (s : State Tx) : Event Tx → Prop
  | .attach => s.subscribing = some .checked → s.pump ≠ .ended
  | _ => True

/-! ## The invariant -/

variable {s : State Tx} {sub : HubMempoolStream Tx} {raw : Tx} {rx : List (MempoolItem Tx)}

theorem liveTxs_send (h : .closed ∉ rx) : liveTxs (rx ++ [.tx raw]) = liveTxs rx ++ [raw] := by
  induction rx with
  | nil => rfl
  | cons item rx ih =>
    cases item with
    | tx raw' =>
      have hrx : .closed ∉ rx := fun hmem => h (List.mem_cons_of_mem _ hmem)
      simp [liveTxs, ih hrx]
    | closed => exact absurd List.mem_cons_self h

theorem liveTxs_closed : liveTxs (rx ++ [.closed]) = liveTxs rx := by
  induction rx with
  | nil => rfl
  | cons item rx ih =>
    cases item with
    | tx raw' => simp [liveTxs, ih]
    | closed => rfl

theorem mem_message (closed : Bool) (h : raw ∈ sub.yielded ∨ raw ∈ sub.toYield) :
    raw ∈ (sub.message closed).yielded ∨ raw ∈ (sub.message closed).toYield := by
  unfold HubMempoolStream.message
  split
  · next raw' replay hreplay =>
    rw [HubMempoolStream.toYield, hreplay, List.cons_append, List.mem_cons] at h
    rw [HubMempoolStream.toYield, List.mem_append, List.mem_singleton]
    tauto
  · next hreplay =>
    split
    · exact h
    · next hdone =>
      split
      · next raw' rx hrx =>
        simp only [HubMempoolStream.toYield, hdone, hrx, liveTxs] at h ⊢
        simp only [hreplay, Bool.false_eq_true, if_false, List.nil_append, List.mem_cons] at h ⊢
        rw [List.mem_append, List.mem_singleton]
        tauto
      · next rx hrx =>
        simpa [HubMempoolStream.toYield, hreplay, hdone, hrx, liveTxs] using h
      · next hrx =>
        split
        · simpa [HubMempoolStream.toYield, hreplay, hdone, hrx, liveTxs] using h
        · exact h

theorem woken_message (h : sub.Woken s) : (sub.message s.channelClosed).Woken s := by
  unfold HubMempoolStream.message
  split
  · exact h
  · split
    · exact h
    · next hdone =>
      split
      · next hrx =>
        rcases h with h | h | h
        · exact absurd h hdone
        · rw [hrx] at h
          exact Or.inr (Or.inl (by simpa using h))
        · exact Or.inr (Or.inr h)
      · exact Or.inl rfl
      · split
        · exact Or.inl rfl
        · exact h

/-- Before the pump ends no subscriber has seen the end. -/
def Open (s : State Tx) (rx : List (MempoolItem Tx)) (done : Bool) : Prop :=
  s.pump ≠ .ended → done = false ∧ .closed ∉ rx

structure Inv (s : State Tx) : Prop where
  room : s.replay.length + (match s.pump with | .pushing _ => 1 | _ => 0) ≤ s.delivered.length
  buffered : s.delivered.length ≤ mempoolReplayTxs → ∀ raw ∈ s.delivered,
    raw ∈ s.replay ∨ s.pump = .pushing raw
  openSubs : ∀ sub ∈ s.subscribers, Open s sub.rx sub.done
  openNew : ∀ rx, s.subscribing = some (.attached rx) → Open s rx false
  yields : s.delivered.length ≤ mempoolReplayTxs → ∀ sub ∈ s.subscribers, ∀ raw ∈ s.delivered,
    raw ∈ sub.yielded ∨ raw ∈ sub.toYield ∨ s.pump.Holds raw
  woken : s.pump = .ended → ∀ sub ∈ s.subscribers, sub.Woken s
  wokenNew : s.pump = .ended → ∀ rx, s.subscribing = some (.attached rx) → .closed ∈ rx

theorem start_inv : Inv (State.start : State Tx) := by
  constructor <;> simp [State.start, Open]

theorem mem_send_subscribers {item : MempoolItem Tx} :
    sub ∈ (s.send item).subscribers ↔ ∃ sub' ∈ s.subscribers,
      sub = { sub' with rx := sub'.rx ++ [item] } := by
  simp [State.send, eq_comm]

theorem send_attached {item : MempoolItem Tx}
    (h : (s.send item).subscribing = some (.attached rx)) :
    ∃ rx', s.subscribing = some (.attached rx') ∧ rx = rx' ++ [item] := by
  obtain ⟨sub, hsub, heq⟩ := Option.map_eq_some_iff.mp h
  cases sub with
  | checked => cases heq
  | attached rx' =>
    cases heq
    exact ⟨rx', hsub, rfl⟩

theorem toYield_send (hopen : sub.done = false ∧ .closed ∉ sub.rx) :
    ({ sub with rx := sub.rx ++ [.tx raw] } : HubMempoolStream Tx).toYield =
      sub.toYield ++ [raw] := by
  simp [HubMempoolStream.toYield, hopen.1, liveTxs_send hopen.2]

theorem toYield_closed :
    ({ sub with rx := sub.rx ++ [.closed] } : HubMempoolStream Tx).toYield = sub.toYield := by
  simp [HubMempoolStream.toYield, liveTxs_closed]

namespace Inv

theorem deliver (hi : Inv s) (raw : Tx) : Inv (step s (.deliver raw)) := by
  simp only [step]
  split
  · next hpump =>
    obtain ⟨hroom, hbuffered, hopen, hnew, hyields, -, -⟩ := hi
    simp only [hpump, Nat.add_zero] at hroom
    refine ⟨by simpa using hroom, fun hcap raw' hraw => ?_, fun sub hsub _ => ?_,
      fun rx hrx _ => ?_, fun hcap sub hsub raw' hraw => ?_, nofun, nofun⟩
    · rw [List.length_append] at hcap
      rcases List.mem_append.mp hraw with hraw | hraw
      · rcases hbuffered (Nat.le_of_succ_le hcap) raw' hraw with h | h
        · exact Or.inl h
        · rw [hpump] at h
          cases h
      · rw [List.mem_singleton.mp hraw]
        exact Or.inr rfl
    · exact hopen sub hsub (by simp [hpump])
    · exact hnew rx hrx (by simp [hpump])
    · rw [List.length_append] at hcap
      rcases List.mem_append.mp hraw with hraw | hraw
      · rcases hyields (Nat.le_of_succ_le hcap) sub hsub raw' hraw with h | h | h
        · exact Or.inl h
        · exact Or.inr (Or.inl h)
        · rw [hpump] at h
          exact h.elim
      · exact Or.inr (Or.inr (List.mem_singleton.mp hraw).symm)
  · exact hi

theorem push (hi : Inv s) : Inv (step s .push) := by
  simp only [step]
  split
  · next raw hpump =>
    obtain ⟨hroom, hbuffered, hopen, hnew, hyields, -, -⟩ := hi
    simp only [hpump] at hroom
    refine ⟨?_, fun hcap raw' hraw => Or.inl ?_, fun sub hsub _ => ?_, fun rx hrx _ => ?_,
      fun hcap sub hsub raw' hraw => ?_, nofun, nofun⟩
    · dsimp only
      split
      · simpa using hroom
      · omega
    · dsimp only at hcap ⊢
      rw [if_pos (by omega)]
      rcases hbuffered hcap raw' hraw with h | h
      · exact List.mem_append_left _ h
      · rw [hpump] at h
        cases h
        exact List.mem_append_right _ (List.mem_singleton_self _)
    · exact hopen sub hsub (by simp [hpump])
    · exact hnew rx hrx (by simp [hpump])
    · have hold := hyields hcap sub hsub raw' hraw
      rw [hpump] at hold
      exact hold
  · exact hi

theorem broadcast (hi : Inv s) : Inv (step s .broadcast) := by
  simp only [step]
  split
  · next raw hpump =>
    obtain ⟨hroom, hbuffered, hopen, hnew, hyields, -, -⟩ := hi
    have hlive : s.pump ≠ .ended := by simp [hpump]
    simp only [hpump] at hroom
    refine ⟨hroom, fun hcap raw' hraw => Or.inl ?_, fun sub hsub _ => ?_, fun rx hrx _ => ?_,
      fun hcap sub hsub raw' hraw => ?_, nofun, nofun⟩
    · rcases hbuffered hcap raw' hraw with h | h
      · exact h
      · rw [hpump] at h
        cases h
    · obtain ⟨sub', hsub', rfl⟩ := mem_send_subscribers.mp hsub
      simpa using hopen sub' hsub' hlive
    · obtain ⟨rx', hrx', rfl⟩ := send_attached hrx
      simpa using hnew rx' hrx' hlive
    · obtain ⟨sub', hsub', rfl⟩ := mem_send_subscribers.mp hsub
      rw [toYield_send (hopen sub' hsub' hlive), List.mem_append, List.mem_singleton]
      rcases hyields hcap sub' hsub' raw' hraw with h | h | h
      · exact Or.inl h
      · exact Or.inr (Or.inl (Or.inl h))
      · rw [hpump] at h
        exact Or.inr (Or.inl (Or.inr h.symm))
  · exact hi

theorem close (hi : Inv s) : Inv (step s .close) := by
  simp only [step]
  split
  · next hpump =>
    obtain ⟨hroom, hbuffered, hopen, hnew, hyields, -, -⟩ := hi
    simp only [hpump] at hroom
    refine ⟨hroom, fun hcap raw' hraw => ?_, fun sub hsub _ => ?_, fun rx hrx _ => ?_,
      fun hcap sub hsub raw' hraw => ?_, nofun, nofun⟩
    · rcases hbuffered hcap raw' hraw with h | h
      · exact Or.inl h
      · rw [hpump] at h
        cases h
    · exact hopen sub hsub (by simp [hpump])
    · exact hnew rx hrx (by simp [hpump])
    · have hold := hyields hcap sub hsub raw' hraw
      rw [hpump] at hold
      exact hold
  · exact hi

theorem broadcastClosed (hi : Inv s) : Inv (step s .broadcastClosed) := by
  simp only [step]
  split
  · next hpump =>
    obtain ⟨hroom, hbuffered, -, -, hyields, -, -⟩ := hi
    simp only [hpump] at hroom
    refine ⟨hroom, fun hcap raw' hraw => ?_, fun _ _ h => absurd rfl h, fun _ _ h => absurd rfl h,
      fun hcap sub hsub raw' hraw => ?_, fun _ sub hsub => ?_, fun _ rx hrx => ?_⟩
    · rcases hbuffered hcap raw' hraw with h | h
      · exact Or.inl h
      · rw [hpump] at h
        cases h
    · obtain ⟨sub', hsub', rfl⟩ := mem_send_subscribers.mp hsub
      rw [toYield_closed]
      have hold := hyields hcap sub' hsub' raw' hraw
      rw [hpump] at hold
      exact hold
    · obtain ⟨sub', -, rfl⟩ := mem_send_subscribers.mp hsub
      exact Or.inr (Or.inl (List.mem_append_right _ (List.mem_singleton_self _)))
    · obtain ⟨rx', -, rfl⟩ := send_attached hrx
      exact List.mem_append_right _ (List.mem_singleton_self _)
  · exact hi

theorem check (hi : Inv s) : Inv (step s .check) := by
  simp only [step]
  split
  · exact ⟨hi.room, hi.buffered, hi.openSubs, nofun, hi.yields, hi.woken, nofun⟩
  · exact hi

theorem attach (hi : Inv s) (hintime : AttachesInTime s .attach) : Inv (step s .attach) := by
  simp only [step]
  split
  · next hsub =>
    refine ⟨hi.room, hi.buffered, hi.openSubs, ?_, hi.yields, hi.woken, ?_⟩
    · rintro rx ⟨⟩ _
      exact ⟨rfl, List.not_mem_nil⟩
    · intro hended
      exact absurd hended (hintime hsub)
  · exact hi

/-- What the buffer lacks when it is copied, the pump has yet to broadcast. -/
theorem snapshot (hi : Inv s) : Inv (step s .snapshot) := by
  simp only [step]
  split
  · next rx hrx =>
    refine ⟨hi.room, hi.buffered, ?_, nofun, ?_, ?_, nofun⟩
    · intro sub hsub
      rcases List.mem_append.mp hsub with hsub | hsub
      · exact hi.openSubs sub hsub
      · rw [List.mem_singleton.mp hsub]
        exact hi.openNew rx hrx
    · intro hcap sub hsub raw hraw
      rcases List.mem_append.mp hsub with hsub | hsub
      · exact hi.yields hcap sub hsub raw hraw
      · rw [List.mem_singleton.mp hsub]
        rcases hi.buffered hcap raw hraw with h | h
        · exact Or.inr (Or.inl (List.mem_append_left _ h))
        · refine Or.inr (Or.inr ?_)
          change s.pump.Holds raw
          rw [h]
          rfl
    · intro hended sub hsub
      rcases List.mem_append.mp hsub with hsub | hsub
      · exact hi.woken hended sub hsub
      · rw [List.mem_singleton.mp hsub]
        exact Or.inr (Or.inl (hi.wokenNew hended rx hrx))
  · exact hi

theorem message_open {closed : Bool} (hclosed : s.pump ≠ .ended → closed = false)
    (h : Open s sub.rx sub.done) : Open s (sub.message closed).rx (sub.message closed).done := by
  intro hlive
  obtain ⟨hdone, hrx⟩ := h hlive
  unfold HubMempoolStream.message
  split
  · exact ⟨hdone, hrx⟩
  · rw [if_neg (by simp [hdone])]
    split
    · next heq =>
      rw [heq] at hrx
      exact ⟨hdone, fun hmem => hrx (List.mem_cons_of_mem _ hmem)⟩
    · next heq =>
      rw [heq] at hrx
      exact absurd List.mem_cons_self hrx
    · rw [if_neg (by simp [hclosed hlive])]
      exact ⟨hdone, hrx⟩

theorem message (hi : Inv s) (k : ℕ) : Inv (step s (.message k)) := by
  have hmem : ∀ sub ∈ (step s (.message k)).subscribers, sub ∈ s.subscribers ∨
      ∃ sub' ∈ s.subscribers, sub = sub'.message s.channelClosed := by
    intro sub hsub
    obtain ⟨j, hj⟩ := List.mem_iff_getElem?.mp hsub
    change (s.subscribers.modify k _)[j]? = some sub at hj
    rw [List.getElem?_modify] at hj
    obtain ⟨sub', hsub', rfl⟩ := Option.map_eq_some_iff.mp hj
    split
    · exact Or.inr ⟨sub', List.mem_of_getElem? hsub', rfl⟩
    · exact Or.inl (List.mem_of_getElem? hsub')
  have hclosed : s.pump ≠ .ended → s.channelClosed = false := by
    intro hlive
    unfold State.channelClosed
    cases hp : s.pump with
    | ended => exact absurd hp hlive
    | _ => simp
  refine ⟨hi.room, hi.buffered, ?_, hi.openNew, ?_, ?_, hi.wokenNew⟩
  · intro sub hsub
    rcases hmem sub hsub with hsub | ⟨sub', hsub', rfl⟩
    · exact hi.openSubs sub hsub
    · exact message_open hclosed (hi.openSubs sub' hsub')
  · intro hcap sub hsub raw hraw
    rcases hmem sub hsub with hsub | ⟨sub', hsub', rfl⟩
    · exact hi.yields hcap sub hsub raw hraw
    · rcases hi.yields hcap sub' hsub' raw hraw with h | h | h
      · exact or_assoc.mp (Or.inl (mem_message _ (Or.inl h)))
      · exact or_assoc.mp (Or.inl (mem_message _ (Or.inr h)))
      · exact Or.inr (Or.inr h)
  · intro hended sub hsub
    rcases hmem sub hsub with hsub | ⟨sub', hsub', rfl⟩
    · exact hi.woken hended sub hsub
    · exact woken_message (hi.woken hended sub' hsub')

theorem restart (hi : Inv s) : Inv (step s .restart) := by
  simp only [step]
  split
  · refine ⟨hi.room, hi.buffered, hi.openSubs, hi.openNew, hi.yields, ?_, hi.wokenNew⟩
    intro hended sub hsub
    refine Or.inr (Or.inr ?_)
    change s.pump = .ended at hended
    simp [State.channelClosed, hended]
  · exact hi

end Inv

theorem step_inv (s : State Tx) (e : Event Tx) (hi : Inv s) (he : AttachesInTime s e) :
    Inv (step s e) := by
  cases e with
  | deliver raw => exact hi.deliver raw
  | push => exact hi.push
  | broadcast => exact hi.broadcast
  | close => exact hi.close
  | broadcastClosed => exact hi.broadcastClosed
  | check => exact hi.check
  | attach => exact hi.attach he
  | snapshot => exact hi.snapshot
  | message k => exact hi.message k
  | restart => exact hi.restart

/-! ## Runs -/

/-- In every interleaving in which no subscriber attaches after the end was broadcast, each one
yields every transaction the stream delivered, and is woken once the pump has ended. -/
theorem subscribers_served (es : List (Event Tx)) (h : Along step AttachesInTime .start es)
    (hcap : (run step .start es).delivered.length ≤ mempoolReplayTxs) :
    ∀ sub ∈ (run step .start es).subscribers, Served (run step .start es) sub := by
  have hi : Inv (run step .start es) := invariant step_inv start_inv h
  exact fun sub hsub => ⟨hi.yields hcap sub hsub, fun hended => hi.woken hended sub hsub⟩

/-- A subscriber attaches between two transactions, reads one, and the stream closes. -/
def attachMidway : List (Event ℕ) :=
  [.deliver 1, .push, .check, .broadcast, .attach, .deliver 2, .push, .snapshot, .broadcast,
    .message 1, .close, .broadcastClosed]

theorem attachMidway_served :
    (run step .start attachMidway).subscribers.length = 2 ∧
    ∀ sub ∈ (run step .start attachMidway).subscribers,
      Served (run step .start attachMidway) sub :=
  ⟨rfl, subscribers_served attachMidway (by simp [attachMidway, AttachesInTime, step, State.start,
    State.send]) (by decide)⟩

/-- The stream closes between a subscriber's check and its attachment. -/
def closeAfterCheck : List (Event ℕ) :=
  [.deliver 1, .push, .broadcast, .check, .close, .broadcastClosed, .attach, .snapshot]

/-- The subscriber is attached to a finished subscription, with nothing to wake it. -/
theorem closeAfterCheck_unserved :
    (run step .start closeAfterCheck).delivered.length ≤ mempoolReplayTxs ∧
    ¬ ∀ sub ∈ (run step .start closeAfterCheck).subscribers,
      Served (run step .start closeAfterCheck) sub := by
  refine ⟨by decide, fun hall => ?_⟩
  have hmem : (⟨[], [1], false, []⟩ : HubMempoolStream ℕ) ∈
      (run step .start closeAfterCheck).subscribers := by decide
  rcases (hall _ hmem).woken (by decide) with h | h | h
  · cases h
  · cases h
  · exact absurd h (by decide)

end Zecd.MempoolFanout
