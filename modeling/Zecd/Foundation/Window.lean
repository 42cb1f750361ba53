import Zecd.Foundation.Relay

/-! # An ordered window

Jobs are taken from a list in its order, a few of them at work at a time. They are done in any
order, and their outcomes are handed on in the order of the list, through a bounded queue, up to
the first error. What the consumer is answered is what it would have been answered by the jobs done
one after the other, and no schedule gets stuck.
-/

namespace Zecd.Window

open Runs

open Relay (direct direct_nil direct_append_error answered_concat)

universe u v w

/-- The replies a job awaits and what it makes of them, the jobs at work at a time, and the places
in the queue. -/
structure Config (J : Type u) (ε : Type v) (α : Type w) where
  replies : J → ℕ
  outcome : J → Except ε α
  width : ℕ
  capacity : ℕ

structure State (J : Type u) (ε : Type v) (α : Type w) where
  waiting : List J
  /-- The jobs at work, the oldest first, with the replies each still awaits. -/
  window : List (J × ℕ)
  /-- The outcome that the queue had no place for yet. -/
  sending : Option (Except ε α)
  queue : List (Except ε α)
  returned : Bool
  answers : List (Except ε (Option α))
  dropped : Bool

variable {J : Type u} {ε : Type v} {α : Type w}

def State.start (jobs : List J) : State J ε α := ⟨jobs, [], none, [], false, [], false⟩

inductive Event where
  | poll
  | reply (i : ℕ)
  | send
  | recv
  | drop
  deriving DecidableEq, Repr

namespace State

variable (cfg : Config J ε α) (s : State J ε α)

def fill : State J ε α :=
  { s with
    waiting := s.waiting.drop (cfg.width - s.window.length)
    window := s.window ++
      (s.waiting.take (cfg.width - s.window.length)).map fun j => (j, cfg.replies j) }

/-- The window is filled, and its oldest job handed on if it is done. -/
def poll : State J ε α :=
  if s.returned || s.sending.isSome then s
  else
    match (s.fill cfg).window with
    | [] => { s.fill cfg with returned := true }
    | (j, 0) :: rest => { s.fill cfg with window := rest, sending := some (cfg.outcome j) }
    | (_, _ + 1) :: _ => s.fill cfg

/-- No job is at work while an outcome waits for its place. -/
def reply (i : ℕ) : State J ε α :=
  if s.sending.isSome then s
  else { s with window := s.window.modify i fun w => (w.1, w.2 - 1) }

def send : State J ε α :=
  match s.sending with
  | none => s
  | some r =>
    if s.queue.length < cfg.capacity then
      match r with
      | .ok a => { s with sending := none, queue := s.queue ++ [.ok a] }
      | .error e =>
        { s with
          waiting := []
          window := []
          sending := none
          queue := s.queue ++ [.error e]
          returned := true }
    else s

def recv : State J ε α :=
  match s.queue with
  | r :: rest => { s with queue := rest, answers := s.answers ++ [r.map some] }
  | [] => if s.returned then { s with answers := s.answers ++ [.ok none] } else s

end State

def step (cfg : Config J ε α) (s : State J ε α) (e : Event) : State J ε α :=
  if s.dropped then s
  else
    match e with
    | .poll => s.poll cfg
    | .reply i => s.reply i
    | .send => s.send cfg
    | .recv => s.recv
    | .drop => { s with dropped := true }

/-- The end is among the answers. -/
def told (answers : List (Except ε (Option α))) : Bool :=
  answers.any fun x => match x with
    | .ok none => true
    | _ => false

namespace State

variable (cfg : Config J ε α) (s : State J ε α)

/-- The outcomes the consumer is still to be answered. -/
def ahead : List (Except ε α) :=
  s.queue ++ (s.sending.toList ++ s.window.map (fun w => cfg.outcome w.1) ++
    s.waiting.map cfg.outcome)

/-- The steps to come: four and its replies for a job that waits, three for one done, two for an
outcome without a place, one for one in the queue, and two to end. -/
def rank : ℕ :=
  (s.waiting.map fun j => cfg.replies j + 4).sum + (s.window.map fun w => w.2 + 3).sum +
    2 * s.sending.toList.length + s.queue.length + (!s.returned).toNat + (!told s.answers).toNat

end State

/-! ## The invariant -/

variable {cfg : Config J ε α} {jobs : List J} {s : State J ε α} {e : Event} {es : List Event}

/-- The answers given are those of the jobs one by one, and so are those to come. An error in the
queue is the last thing in it. -/
structure Inv (cfg : Config J ε α) (jobs : List J) (s : State J ε α) : Prop where
  answered : s.answers = (List.range s.answers.length).map (direct (jobs.map cfg.outcome))
  coming : ∀ n, direct (jobs.map cfg.outcome) (s.answers.length + n) = direct (s.ahead cfg) n
  settled : s.returned = true → s.sending = none ∧ s.window = [] ∧ s.waiting = []
  last : ∀ before e after, s.queue = before ++ .error e :: after →
    after = [] ∧ s.returned = true
  narrow : s.window.length ≤ cfg.width
  short : s.queue.length ≤ cfg.capacity

theorem inv_start : Inv cfg jobs (.start jobs) where
  answered := rfl
  coming n := congrArg (direct (jobs.map cfg.outcome)) (Nat.zero_add n)
  settled h := by cases h
  last before e after h := by
    have := congrArg List.length h
    simp [State.start] at this
  narrow := Nat.zero_le _
  short := Nat.zero_le _

theorem ahead_fill (cfg : Config J ε α) (s : State J ε α) :
    (s.fill cfg).ahead cfg = s.ahead cfg := by
  have hwaiting : (s.waiting.take (cfg.width - s.window.length)).map cfg.outcome ++
      (s.waiting.drop (cfg.width - s.window.length)).map cfg.outcome =
      s.waiting.map cfg.outcome := by
    rw [← List.map_append, List.take_append_drop]
  simp only [State.ahead, State.fill, List.map_append, List.map_map, Function.comp_def,
    List.append_assoc, hwaiting]

namespace Inv

variable (h : Inv cfg jobs s)

include h

theorem fill (hreturned : s.returned = false) : Inv cfg jobs (s.fill cfg) where
  answered := h.answered
  coming n := by
    rw [ahead_fill]
    exact h.coming n
  settled hr := absurd (hreturned.symm.trans hr) Bool.false_ne_true
  last := h.last
  narrow := by
    have := h.narrow
    simp only [State.fill, List.length_append, List.length_map, List.length_take]
    omega
  short := h.short

theorem poll (hwidth : 0 < cfg.width) : Inv cfg jobs (s.poll cfg) := by
  unfold State.poll
  split
  next => exact h
  next hidle =>
    obtain ⟨hreturned, hsending⟩ : s.returned = false ∧ s.sending = none := by
      simpa using hidle
    have hfill := h.fill hreturned
    split
    next hwindow =>
      -- a window that is filled and empty leaves no job behind
      have hwaiting : (s.fill cfg).waiting = [] := by
        simp only [State.fill, List.append_eq_nil_iff, List.map_eq_nil_iff, List.take_eq_nil_iff]
          at hwindow ⊢
        obtain ⟨hnil, hroom | hwaiting⟩ := hwindow
        · rw [hnil, List.length_nil] at hroom
          omega
        · rw [hwaiting, List.drop_nil]
      exact ⟨hfill.answered, hfill.coming, fun _ => ⟨hsending, hwindow, hwaiting⟩,
        fun before e after hq => ⟨(hfill.last before e after hq).1, rfl⟩, hfill.narrow,
        hfill.short⟩
    next j rest hwindow =>
      have hsending' : (s.fill cfg).sending = none := hsending
      have hreturned' : (s.fill cfg).returned = false := hreturned
      refine ⟨hfill.answered, fun n => (hfill.coming n).trans ?_, fun hr => ?_, hfill.last, ?_,
        hfill.short⟩
      · simp [State.ahead, hsending', hwindow]
      · cases hreturned'.symm.trans hr
      · have := hfill.narrow
        rw [hwindow, List.length_cons] at this
        exact Nat.le_of_succ_le this
    next => exact hfill

theorem reply (i : ℕ) : Inv cfg jobs (s.reply i) := by
  unfold State.reply
  split
  next => exact h
  next hsending =>
    have hahead : (s.window.modify i fun w => (w.1, w.2 - 1)).map (fun w => cfg.outcome w.1) =
        s.window.map fun w => cfg.outcome w.1 := by
      apply List.ext_getElem
      · simp
      · intro k _ _
        simp only [List.getElem_map, List.getElem_modify]
        split <;> rfl
    refine ⟨h.answered, fun n => (h.coming n).trans ?_, fun hr => ?_, h.last, ?_, h.short⟩
    · simp only [State.ahead, hahead]
    · obtain ⟨hnone, hwindow, hwaiting⟩ := h.settled hr
      exact ⟨hnone, by simp [hwindow], hwaiting⟩
    · simpa using h.narrow

theorem send : Inv cfg jobs (s.send cfg) := by
  unfold State.send
  split
  next => exact h
  next r hsending =>
    have hreturned : s.returned = false := by
      by_contra hr
      rw [(h.settled (by simpa using hr)).1] at hsending
      cases hsending
    have hnone (before : List (Except ε α)) (e : ε) (after : List (Except ε α)) :
        s.queue ≠ before ++ .error e :: after := by
      intro hq
      cases hreturned.symm.trans (h.last before e after hq).2
    split
    next hroom =>
      cases r with
      | ok a =>
        refine ⟨h.answered, fun n => (h.coming n).trans ?_, fun hr => ?_, ?_, h.narrow, ?_⟩
        · simp [State.ahead, hsending]
        · cases hreturned.symm.trans hr
        · intro before e after hq
          rcases List.eq_nil_or_concat after with rfl | ⟨after, x, rfl⟩
          · cases (List.append_inj' hq rfl).2
          · rw [List.concat_eq_append, ← List.cons_append, ← List.append_assoc] at hq
            exact absurd (List.append_inj' hq rfl).1 (hnone _ _ _)
        · simpa using hroom
      | error e =>
        refine ⟨h.answered, fun n => (h.coming n).trans ?_, fun _ => ⟨rfl, rfl, rfl⟩, ?_,
          Nat.zero_le _, ?_⟩
        · simp only [State.ahead, hsending, Option.toList_some, Option.toList_none, List.map_nil,
            List.append_nil, List.cons_append, List.nil_append]
          rw [direct_append_error]
        · intro before e' after hq
          rcases List.eq_nil_or_concat after with rfl | ⟨after, x, rfl⟩
          · exact ⟨rfl, rfl⟩
          · rw [List.concat_eq_append, ← List.cons_append, ← List.append_assoc] at hq
            exact absurd (List.append_inj' hq rfl).1 (hnone _ _ _)
        · simpa using hroom
    next => exact h

theorem give {t : State J ε α} {x : Except ε (Option α)} (hanswers : t.answers = s.answers ++ [x])
    (hx : direct (s.ahead cfg) 0 = x)
    (hrest : ∀ n, direct (s.ahead cfg) (n + 1) = direct (t.ahead cfg) n) :
    t.answers = (List.range t.answers.length).map (direct (jobs.map cfg.outcome)) ∧
      ∀ n, direct (jobs.map cfg.outcome) (t.answers.length + n) = direct (t.ahead cfg) n := by
  rw [hanswers]
  refine ⟨answered_concat h.answered ((h.coming 0).trans hx), fun n => ?_⟩
  rw [List.length_append, List.length_singleton, Nat.add_assoc, Nat.add_comm 1 n, h.coming,
    hrest]

theorem recv : Inv cfg jobs s.recv := by
  unfold State.recv
  split
  next r rest hqueue =>
    have hshort : rest.length ≤ cfg.capacity := by
      have := h.short
      rw [hqueue, List.length_cons] at this
      exact Nat.le_of_succ_le this
    cases r with
    | ok a =>
      obtain ⟨hanswered, hcoming⟩ := h.give (x := .ok (some a))
        (t := { s with queue := rest, answers := s.answers ++ [.ok (some a)] }) rfl
        (by simp [State.ahead, hqueue]) fun n => by simp [State.ahead, hqueue]
      refine ⟨hanswered, hcoming, h.settled, ?_, h.narrow, hshort⟩
      intro before e after hq
      exact h.last (.ok a :: before) e after (by rw [hqueue]; exact congrArg _ hq)
    | error e =>
      obtain ⟨rfl, hreturned⟩ := h.last [] e rest hqueue
      obtain ⟨hsending, hwindow, hwaiting⟩ := h.settled hreturned
      obtain ⟨hanswered, hcoming⟩ := h.give (x := .error e)
        (t := { s with queue := [], answers := s.answers ++ [.error e] }) rfl
        (by simp [State.ahead, hqueue])
        fun n => by simp [State.ahead, hqueue, hsending, hwindow, hwaiting]
      refine ⟨hanswered, hcoming, h.settled, ?_, h.narrow, hshort⟩
      intro before e' after hq
      have := congrArg List.length hq
      simp at this
  next hqueue =>
    split
    next hreturned =>
      obtain ⟨hsending, hwindow, hwaiting⟩ := h.settled hreturned
      obtain ⟨hanswered, hcoming⟩ := h.give (x := .ok none)
        (t := { s with answers := s.answers ++ [.ok none] }) rfl
        (by simp [State.ahead, hqueue, hsending, hwindow, hwaiting])
        fun n => by simp [State.ahead, hqueue, hsending, hwindow, hwaiting]
      exact ⟨hanswered, hcoming, h.settled, h.last, h.narrow, h.short⟩
    next => exact h

theorem step (hwidth : 0 < cfg.width) (e : Event) : Inv cfg jobs (step cfg s e) := by
  unfold Window.step
  split
  · exact h
  · cases e with
    | poll => exact h.poll hwidth
    | reply i => exact h.reply i
    | send => exact h.send
    | recv => exact h.recv
    | drop => exact ⟨h.answered, h.coming, h.settled, h.last, h.narrow, h.short⟩

end Inv

theorem inv_run (hwidth : 0 < cfg.width) (es : List Event) :
    Inv cfg jobs (run (step cfg) (.start jobs) es) :=
  invariant (P := fun _ _ => True) (fun _ e h _ => h.step hwidth e) inv_start
    (along_of_always fun _ _ => trivial)

/-! ## Progress -/

/-- An idle event changes nothing, any other leaves fewer steps to come. -/
def IdleOrLt (cfg : Config J ε α) (s t : State J ε α) : Prop := t = s ∨ t.rank cfg < s.rank cfg

theorem rank_fill (cfg : Config J ε α) (s : State J ε α) :
    (s.fill cfg).rank cfg + (s.waiting.take (cfg.width - s.window.length)).length =
      s.rank cfg := by
  have hsum (js : List J) : (js.map fun j => cfg.replies j + 4).sum =
      (js.map fun j => cfg.replies j + 3).sum + js.length := by
    induction js with
    | nil => rfl
    | cons j js ih =>
      simp only [List.map_cons, List.sum_cons, List.length_cons, ih]
      omega
  have hwaiting : (s.waiting.map fun j => cfg.replies j + 4).sum =
      ((s.waiting.take (cfg.width - s.window.length)).map fun j => cfg.replies j + 4).sum +
        ((s.waiting.drop (cfg.width - s.window.length)).map fun j => cfg.replies j + 4).sum := by
    rw [← List.sum_append, ← List.map_append, List.take_append_drop]
  rw [State.rank, State.rank, hwaiting, hsum (s.waiting.take _)]
  simp only [State.fill, List.map_append, List.sum_append, List.map_map,
    Function.comp_def]
  omega

theorem fill_eq (h : s.waiting.take (cfg.width - s.window.length) = []) : s.fill cfg = s := by
  have hdrop : s.waiting.drop (cfg.width - s.window.length) = s.waiting := by
    conv_rhs => rw [← List.take_append_drop (cfg.width - s.window.length) s.waiting, h]
    rfl
  simp only [State.fill, h, hdrop, List.map_nil, List.append_nil]

theorem fill_idle_or_lt (cfg : Config J ε α) (s : State J ε α) : IdleOrLt cfg s (s.fill cfg) := by
  rcases Nat.eq_zero_or_pos (s.waiting.take (cfg.width - s.window.length)).length with hzero | hpos
  · exact .inl (fill_eq (List.length_eq_zero_iff.mp hzero))
  · right
    have := rank_fill cfg s
    omega

theorem fill_le (cfg : Config J ε α) (s : State J ε α) : (s.fill cfg).rank cfg ≤ s.rank cfg :=
  (rank_fill cfg s).symm ▸ Nat.le_add_right _ _

theorem poll_idle_or_lt (cfg : Config J ε α) (s : State J ε α) : IdleOrLt cfg s (s.poll cfg) := by
  unfold State.poll
  split
  next => exact .inl rfl
  next hidle =>
    obtain ⟨hreturned, hsending⟩ : s.returned = false ∧ s.sending = none := by
      simpa using hidle
    have hsending' : (s.fill cfg).sending = none := hsending
    have hreturned' : (s.fill cfg).returned = false := hreturned
    split
    next hwindow =>
      right
      refine lt_of_lt_of_le ?_ (fill_le cfg s)
      simp [State.rank, hreturned']
    next j rest hwindow =>
      right
      refine lt_of_lt_of_le ?_ (fill_le cfg s)
      simp only [State.rank, hsending', hwindow, List.map_cons, List.sum_cons,
        Option.toList_some, Option.toList_none, List.length_singleton, List.length_nil]
      omega
    next => exact fill_idle_or_lt cfg s

theorem reply_idle_or_lt (cfg : Config J ε α) (s : State J ε α) (i : ℕ) :
    IdleOrLt cfg s (s.reply i) := by
  unfold State.reply
  split
  · exact .inl rfl
  · have hmodify (ws : List (J × ℕ)) (i : ℕ) : (ws.modify i fun w => (w.1, w.2 - 1)) = ws ∨
        ((ws.modify i fun w => (w.1, w.2 - 1)).map fun w => w.2 + 3).sum <
          (ws.map fun w => w.2 + 3).sum := by
      induction ws generalizing i with
      | nil => exact .inl (by simp)
      | cons w ws ih =>
        cases i with
        | zero =>
          rcases w with ⟨j, _ | n⟩
          · exact .inl rfl
          · right
            simp
        | succ i =>
          rcases ih i with hidle | hlt
          · exact .inl (by rw [List.modify_succ_cons, hidle])
          · right
            simpa using hlt
    rcases hmodify s.window i with hidle | hlt
    · exact .inl (by rw [hidle])
    · right
      simp only [State.rank]
      omega

theorem send_idle_or_lt (cfg : Config J ε α) (s : State J ε α) :
    IdleOrLt cfg s (s.send cfg) := by
  unfold State.send
  split
  next => exact .inl rfl
  next r hsending =>
    split
    · right
      cases r with
      | ok a =>
        simp only [State.rank, hsending, List.length_append, List.length_singleton,
          Option.toList_some, Option.toList_none, List.length_nil]
        omega
      | error e =>
        simp only [State.rank, hsending, List.length_append, List.length_singleton,
          Option.toList_some, Option.toList_none, List.length_nil, List.map_nil, List.sum_nil,
          Bool.not_true, Bool.toNat_false]
        omega
    · exact .inl rfl

theorem Inv.rank_of_returned (h : Inv cfg jobs s) (hreturned : s.returned = true) :
    s.rank cfg = s.queue.length + (!told s.answers).toNat := by
  obtain ⟨hsending, hwindow, hwaiting⟩ := h.settled hreturned
  simp [State.rank, hsending, hwindow, hwaiting, hreturned]

theorem told_concat (answers : List (Except ε (Option α))) :
    told (answers ++ [.ok none]) = true := by
  simp [told]

theorem told_append (answers : List (Except ε (Option α))) (x : Except ε (Option α)) :
    (!told (answers ++ [x])).toNat ≤ (!told answers).toNat := by
  rw [told, List.any_append, ← told]
  cases told answers
  · exact Bool.toNat_le _
  · exact le_rfl

theorem recv_idle_or_lt (h : Inv cfg jobs s) (hrank : s.rank cfg ≠ 0) :
    IdleOrLt cfg s s.recv := by
  unfold State.recv
  split
  next r rest hqueue =>
    right
    have := told_append s.answers (r.map some)
    simp only [State.rank, hqueue, List.length_cons]
    omega
  next hqueue =>
    split
    next hreturned =>
      right
      have hzero : s.rank cfg = (!told s.answers).toNat := by
        rw [h.rank_of_returned hreturned, hqueue, List.length_nil, Nat.zero_add]
      obtain ⟨hsending, hwindow, hwaiting⟩ := h.settled hreturned
      have hnext : State.rank cfg { s with answers := s.answers ++ [.ok none] } = 0 := by
        simp [State.rank, hsending, hwindow, hwaiting, hreturned, hqueue, told_concat]
      rw [hnext]
      exact Nat.pos_of_ne_zero hrank
    next => exact .inl rfl

theorem rank_recv_of_zero (hrank : s.rank cfg = 0) : s.recv.rank cfg = 0 := by
  have hqueue : s.queue = [] := by
    unfold State.rank at hrank
    exact List.length_eq_zero_iff.mp (by omega)
  unfold State.recv
  split
  next heq => cases hqueue.symm.trans heq
  next =>
    split
    · have := told_append s.answers (.ok none)
      unfold State.rank at hrank ⊢
      dsimp only
      omega
    · exact hrank

theorem step_idle_or_lt (h : Inv cfg jobs s) (he : e ≠ .drop) (hrank : s.rank cfg ≠ 0) :
    IdleOrLt cfg s (step cfg s e) := by
  unfold step
  split
  · exact .inl rfl
  · cases e with
    | poll => exact poll_idle_or_lt cfg s
    | reply i => exact reply_idle_or_lt cfg s i
    | send => exact send_idle_or_lt cfg s
    | recv => exact recv_idle_or_lt h hrank
    | drop => exact absurd rfl he

theorem rank_of_idleOrLt {t : State J ε α} (hrank : s.rank cfg = 0) (h : IdleOrLt cfg s t) :
    t.rank cfg = 0 := by
  rcases h with rfl | hlt
  · exact hrank
  · omega

theorem rank_step_le (h : Inv cfg jobs s) (he : e ≠ .drop) :
    (step cfg s e).rank cfg ≤ s.rank cfg := by
  by_cases hzero : s.rank cfg = 0
  · unfold step
    split
    · exact le_rfl
    · rw [hzero, Nat.le_zero]
      cases e with
      | poll => exact rank_of_idleOrLt hzero (poll_idle_or_lt cfg s)
      | reply i => exact rank_of_idleOrLt hzero (reply_idle_or_lt cfg s i)
      | send => exact rank_of_idleOrLt hzero (send_idle_or_lt cfg s)
      | recv => exact rank_recv_of_zero hzero
      | drop => exact absurd rfl he
  · rcases step_idle_or_lt h he hzero with hidle | hlt
    · rw [hidle]
    · exact hlt.le

theorem dropped_step (he : e ≠ .drop) (h : s.dropped = false) :
    (step cfg s e).dropped = false := by
  unfold step
  rw [if_neg (by simp [h])]
  cases e with
  | poll =>
    dsimp only
    unfold State.poll
    split
    · exact h
    · split <;> exact h
  | reply i =>
    dsimp only
    unfold State.reply
    split <;> exact h
  | send =>
    dsimp only
    unfold State.send
    split
    · exact h
    · split
      · split <;> exact h
      · exact h
  | recv =>
    dsimp only
    unfold State.recv
    split
    · exact h
    · split <;> exact h
  | drop => exact absurd rfl he

/-- The turns that a schedule gives: the window's, the oldest job's, the queue's and the
consumer's. -/
inductive Turn where
  | poll
  | reply
  | send
  | recv
  deriving DecidableEq, Repr

def Turn.event : Turn → Event
  | .poll => .poll
  | .reply => .reply 0
  | .send => .send
  | .recv => .recv

/-- While something is to come, one of the turns brings it nearer. -/
theorem Inv.acts (hwidth : 0 < cfg.width) (hcapacity : 0 < cfg.capacity) (h : Inv cfg jobs s)
    (hdropped : s.dropped = false) (hrank : s.rank cfg ≠ 0) :
    ∃ t : Turn, (Window.step cfg s t.event).rank cfg < s.rank cfg := by
  have hlt (t : Turn) (hne : Window.step cfg s t.event ≠ s) :
      (Window.step cfg s t.event).rank cfg < s.rank cfg :=
    (step_idle_or_lt h (by cases t <;> simp [Turn.event]) hrank).resolve_left hne
  cases hqueue : s.queue with
  | cons r rest =>
    refine ⟨.recv, hlt _ fun heq => ?_⟩
    have := congrArg State.queue heq
    simp [Window.step, Turn.event, hdropped, State.recv, hqueue] at this
  | nil =>
    cases hsending : s.sending with
    | some r =>
      refine ⟨.send, hlt _ fun heq => ?_⟩
      have := congrArg State.sending heq
      cases r <;> simp [Window.step, Turn.event, hdropped, State.send, hqueue, hsending,
        hcapacity] at this
    | none =>
      cases hreturned : s.returned with
      | true =>
        refine ⟨.recv, hlt _ fun heq => ?_⟩
        have := congrArg State.answers heq
        simp [Window.step, Turn.event, hdropped, State.recv, hqueue, hreturned] at this
      | false =>
        have hpoll : Window.step cfg s .poll = s.poll cfg := by simp [Window.step, hdropped]
        cases hwindow : s.window with
        | nil =>
          refine ⟨.poll, hlt _ fun heq => ?_⟩
          rw [Turn.event, hpoll] at heq
          obtain ⟨k, hk⟩ := Nat.exists_eq_succ_of_ne_zero hwidth.ne'
          cases hwaiting : s.waiting with
          | nil =>
            have := congrArg State.returned heq
            simp [State.poll, hreturned, hsending, State.fill, hwindow, hwaiting] at this
          | cons j rest =>
            -- the window takes a job, which is handed on at once if it awaits nothing
            cases hreplies : cfg.replies j with
            | zero =>
              have := congrArg State.sending heq
              simp [State.poll, hreturned, hsending, State.fill, hwindow, hwaiting, hk,
                hreplies] at this
            | succ n =>
              have := congrArg State.window heq
              simp [State.poll, hreturned, hsending, State.fill, hwindow, hwaiting, hk,
                hreplies] at this
        | cons w rest =>
          rcases w with ⟨j, _ | n⟩
          · refine ⟨.poll, hlt _ fun heq => ?_⟩
            have := congrArg State.sending heq
            simp [Window.step, Turn.event, hdropped, State.poll, hreturned, hsending, State.fill,
              hwindow] at this
          · refine ⟨.reply, hlt _ fun heq => ?_⟩
            have := congrArg State.window heq
            simp [Window.step, Turn.event, hdropped, State.reply, hsending, hwindow] at this

variable (jobs) in
theorem descends (hwidth : 0 < cfg.width) (hcapacity : 0 < cfg.capacity) : Descends (step cfg)
    (fun s => Inv cfg jobs s ∧ s.dropped = false) (· ≠ .drop) (State.rank cfg)
    (fun (t : Turn) s => (step cfg s t.event).rank cfg < s.rank cfg)
    (fun t e => e = t.event) where
  keeps _ e h he := ⟨h.1.step hwidth e, dropped_step he h.2⟩
  le _ _ h he := rank_step_le h.1 he
  stays t s e h he ht heq := by
    -- an event that does not bring the end nearer is idle
    rcases step_idle_or_lt h.1 he (Nat.ne_zero_of_lt ht) with hidle | hlt
    · rwa [hidle]
    · exact absurd heq hlt.ne
  drops t s e _ ht he := by
    rw [he]
    exact ht
  acts s h hrank := h.1.acts hwidth hcapacity h.2 hrank

theorem rank_start (cfg : Config J ε α) (jobs : List J) :
    (State.start jobs : State J ε α).rank cfg =
      (jobs.map fun j => cfg.replies j + 4).sum + 2 := rfl

/-- Where every round has a turn of each kind, the consumer is told the end after as many rounds as
the jobs have steps. -/
theorem told_of_rounds (hwidth : 0 < cfg.width) (hcapacity : 0 < cfg.capacity)
    {rounds : List (List Event)} (hnever : ∀ round ∈ rounds, Event.drop ∉ round)
    (hturns : ∀ round ∈ rounds, ∀ t : Turn, t.event ∈ round)
    (hlength : (jobs.map fun j => cfg.replies j + 4).sum + 2 ≤ rounds.length) :
    ∃ m < (run (step cfg) (.start jobs) rounds.flatten).answers.length,
      direct (jobs.map cfg.outcome) m = .ok none := by
  have d := descends jobs hwidth hcapacity
  have hstart : (fun s => Inv cfg jobs s ∧ s.dropped = false) (State.start jobs) :=
    ⟨inv_start, rfl⟩
  have hle := d.rounds_le hstart
    (fun round hr e he heq => hnever round hr (heq ▸ he))
    fun round hr t => ⟨t.event, hturns round hr t, rfl⟩
  rw [rank_start, Nat.sub_eq_zero_of_le hlength, Nat.le_zero] at hle
  have htold : told (run (step cfg) (.start jobs) rounds.flatten).answers = true := by
    unfold State.rank at hle
    by_contra hnot
    rw [Bool.not_eq_true] at hnot
    rw [hnot, Bool.not_false, Bool.toNat_true] at hle
    omega
  obtain ⟨x, hx, hnone⟩ := List.any_eq_true.mp htold
  rw [(inv_run hwidth rounds.flatten).answered] at hx
  obtain ⟨m, hm, rfl⟩ := List.mem_map.mp hx
  refine ⟨m, List.mem_range.mp hm, ?_⟩
  split at hnone
  · assumption
  · cases hnone

end Zecd.Window
