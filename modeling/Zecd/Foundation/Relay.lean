import Zecd.Foundation.Rounds

/-! # A relay with a budget

A reader drains a source ahead of its consumer, through a queue. An item enters the queue with
permits for its cost and gives them back once the consumer has worked it, so the queue is bounded
by cost. What the consumer is answered is what the source itself would have answered, and no
schedule gets stuck.
-/

namespace Zecd.Relay

open Runs

universe u v

variable {ε : Type u} {α : Type v}

/-- What the polls of the source itself are answered: its items, its error, then its end. -/
def direct : List (Except ε α) → ℕ → Except ε (Option α)
  | [], _ => .ok none
  | .error e :: _, 0 => .error e
  | .error _ :: _, _ + 1 => .ok none
  | .ok a :: _, 0 => .ok (some a)
  | .ok _ :: rest, n + 1 => direct rest n

inductive Reader (α : Type v) where
  | polling
  /-- Waits for the permits of the item. -/
  | acquiring (a : α)
  | returned
  deriving DecidableEq, Repr

structure State (ε : Type u) (α : Type v) where
  source : List (Except ε α)
  reader : Reader α
  permits : ℕ
  queue : List (Except ε (α × ℕ))
  /-- The item the consumer is at work on, with its permits. -/
  working : Option (α × ℕ)
  answers : List (Except ε (Option α))
  dropped : Bool

def State.start (total : ℕ) (source : List (Except ε α)) : State ε α :=
  ⟨source, .polling, total, [], none, [], false⟩

inductive Event where
  | poll
  | acquire
  | recv
  | answer
  | drop
  deriving DecidableEq, Repr

namespace State

variable (cost : α → ℕ) (s : State ε α)

def poll : State ε α :=
  match s.reader, s.source with
  | .polling, [] => { s with reader := .returned }
  | .polling, .error e :: rest =>
    { s with source := rest, reader := .returned, queue := s.queue ++ [.error e] }
  | .polling, .ok a :: rest => { s with source := rest, reader := .acquiring a }
  | _, _ => s

def acquire : State ε α :=
  match s.reader with
  | .acquiring a =>
    if cost a ≤ s.permits then
      { s with
        reader := .polling
        permits := s.permits - cost a
        queue := s.queue ++ [.ok (a, cost a)] }
    else s
  | _ => s

/-- An empty queue answers the end only once the reader is gone, and is waited on before. -/
def recv : State ε α :=
  match s.working, s.queue, s.reader with
  | none, .ok item :: rest, _ => { s with queue := rest, working := some item }
  | none, .error e :: rest, _ => { s with queue := rest, answers := s.answers ++ [.error e] }
  | none, [], .returned => { s with answers := s.answers ++ [.ok none] }
  | _, _, _ => s

def answer : State ε α :=
  match s.working with
  | some (a, n) =>
    { s with working := none, permits := s.permits + n, answers := s.answers ++ [.ok (some a)] }
  | none => s

end State

def step (cost : α → ℕ) (s : State ε α) (e : Event) : State ε α :=
  if s.dropped then s
  else
    match e with
    | .poll => s.poll
    | .acquire => s.acquire cost
    | .recv => s.recv
    | .answer => s.answer
    | .drop => { s with dropped := true }

namespace State

variable (s : State ε α)

/-- What the reader is still to put into the queue. -/
def unread : List (Except ε α) :=
  match s.reader with
  | .polling => s.source
  | .acquiring a => .ok a :: s.source
  | .returned => []

/-- What the consumer is still to be answered, in order. -/
def ahead : List (Except ε α) :=
  s.working.toList.map (fun w => .ok w.1) ++ s.queue.map (Except.map Prod.fst) ++ s.unread

/-- The items that hold permits. -/
def buffered : List (α × ℕ) := s.working.toList ++ s.queue.filterMap Except.toOption

/-- The steps to come, weighed: four for an item unread, three for one that waits, two for one in
the queue, one for one at work. -/
def rank : ℕ :=
  (match s.reader with
    | .polling => 4 * s.source.length + 1
    | .acquiring _ => 4 * s.source.length + 4
    | .returned => 0) + 2 * s.queue.length + s.working.toList.length

end State

/-! ## The source, polled -/

variable {cost : α → ℕ} {total : ℕ} {source : List (Except ε α)} {s : State ε α} {e : Event}
  {es : List Event}

@[simp] theorem direct_nil (n : ℕ) : direct ([] : List (Except ε α)) n = .ok none := by
  cases n <;> rfl

@[simp] theorem direct_ok_zero (a : α) (rest : List (Except ε α)) :
    direct (.ok a :: rest) 0 = .ok (some a) := rfl

@[simp] theorem direct_ok_succ (a : α) (rest : List (Except ε α)) (n : ℕ) :
    direct (.ok a :: rest) (n + 1) = direct rest n := rfl

@[simp] theorem direct_error_zero (e : ε) (rest : List (Except ε α)) :
    direct (.error e :: rest) 0 = .error e := rfl

@[simp] theorem direct_error_succ (e : ε) (rest : List (Except ε α)) (n : ℕ) :
    direct (.error e :: rest) (n + 1) = .ok none := rfl

@[simp] theorem filterMap_error (e : ε) (rest : List (Except ε α)) :
    (.error e :: rest).filterMap Except.toOption = rest.filterMap Except.toOption := rfl

theorem direct_append_error (before : List (Except ε α)) (e : ε) (rest : List (Except ε α)) :
    direct (before ++ .error e :: rest) = direct (before ++ [.error e]) := by
  induction before with
  | nil =>
    funext n
    cases n <;> rfl
  | cons x before ih =>
    funext n
    cases x with
    | error e' => cases n <;> rfl
    | ok a =>
      cases n with
      | zero => rfl
      | succ n => exact congrFun ih n

theorem direct_of_lt (items : List α) (rest : List (Except ε α)) {n : ℕ} (h : n < items.length) :
    direct (items.map .ok ++ rest) n = .ok (some items[n]) := by
  induction items generalizing n with
  | nil => exact absurd h (Nat.not_lt_zero n)
  | cons a items ih =>
    cases n with
    | zero => rfl
    | succ n => exact ih (Nat.lt_of_succ_lt_succ h)

theorem direct_map {β : Type v} (f : α → β) (source : List (Except ε α)) (n : ℕ) :
    direct (source.map (Except.map f)) n = Except.map (Option.map f) (direct source n) := by
  induction source generalizing n with
  | nil => rw [List.map_nil, direct_nil, direct_nil]; rfl
  | cons x source ih =>
    cases x with
    | error e => cases n <;> rfl
    | ok a =>
      cases n with
      | zero => rfl
      | succ n => exact ih n

/-! ## The invariant -/

/-- A queue holds items, and last the error of a reader that has returned on it. -/
def Shaped (reader : Reader α) (queue : List (Except ε (α × ℕ))) : Prop :=
  ∃ (items : List (α × ℕ)) (last : List (Except ε (α × ℕ))), queue = items.map .ok ++ last ∧
    (last = [] ∨ reader = .returned ∧ ∃ e, last = [.error e])

theorem Shaped.items {reader : Reader α} {queue : List (Except ε (α × ℕ))}
    (h : Shaped reader queue) (hreader : reader ≠ .returned) :
    ∃ items : List (α × ℕ), queue = items.map .ok := by
  obtain ⟨items, last, rfl, rfl | ⟨hreturned, -⟩⟩ := h
  · exact ⟨items, List.append_nil _⟩
  · exact absurd hreturned hreader

theorem shaped_items (reader : Reader α) (items : List (α × ℕ)) :
    Shaped reader (items.map (.ok : α × ℕ → Except ε (α × ℕ))) :=
  ⟨items, [], (List.append_nil _).symm, .inl rfl⟩

theorem Shaped.tail {reader : Reader α} {item : α × ℕ} {rest : List (Except ε (α × ℕ))}
    (h : Shaped reader (.ok item :: rest)) : Shaped reader rest := by
  obtain ⟨items, last, hqueue, hlast⟩ := h
  cases items with
  | nil =>
    rcases hlast with rfl | ⟨-, e, rfl⟩
    · cases hqueue
    · cases hqueue
  | cons x items => exact ⟨items, last, (List.cons.inj hqueue).2, hlast⟩

theorem Shaped.after_error {reader : Reader α} {e : ε} {rest : List (Except ε (α × ℕ))}
    (h : Shaped reader (.error e :: rest)) : rest = [] ∧ reader = .returned := by
  obtain ⟨items, last, hqueue, hlast⟩ := h
  cases items with
  | nil =>
    rcases hlast with rfl | ⟨hreturned, e', rfl⟩
    · cases hqueue
    · exact ⟨(List.cons.inj hqueue).2, hreturned⟩
  | cons x items => cases hqueue

/-- The answers given are the source's, and so are those to come. What is buffered accounts for
the permits that are out. -/
structure Inv (cost : α → ℕ) (total : ℕ) (source : List (Except ε α)) (s : State ε α) : Prop where
  answered : s.answers = (List.range s.answers.length).map (direct source)
  coming : ∀ n, direct source (s.answers.length + n) = direct s.ahead n
  shaped : Shaped s.reader s.queue
  permits : s.permits + (s.buffered.map Prod.snd).sum = total
  charged : ∀ w ∈ s.buffered, w.2 = cost w.1

theorem inv_start : Inv cost total source (.start total source) where
  answered := rfl
  coming n := congrArg (direct source) (Nat.zero_add n)
  shaped := shaped_items _ []
  permits := Nat.add_zero total
  charged _ h := absurd h List.not_mem_nil

theorem answered_concat {answers : List (Except ε (Option α))} {x : Except ε (Option α)}
    (h : answers = (List.range answers.length).map (direct source))
    (hx : direct source answers.length = x) :
    answers ++ [x] = (List.range (answers ++ [x]).length).map (direct source) := by
  rw [List.length_append, List.length_singleton, List.range_succ, List.map_append, ← h,
    List.map_singleton, hx]

namespace Inv

variable (h : Inv cost total source s)

include h

theorem give {t : State ε α} {x : Except ε (Option α)} (hanswers : t.answers = s.answers ++ [x])
    (hx : direct s.ahead 0 = x) (hrest : ∀ n, direct s.ahead (n + 1) = direct t.ahead n) :
    t.answers = (List.range t.answers.length).map (direct source) ∧
      ∀ n, direct source (t.answers.length + n) = direct t.ahead n := by
  rw [hanswers]
  refine ⟨answered_concat h.answered ((h.coming 0).trans hx), fun n => ?_⟩
  rw [List.length_append, List.length_singleton, Nat.add_assoc, Nat.add_comm 1 n, h.coming,
    hrest]

theorem poll : Inv cost total source s.poll := by
  unfold State.poll
  split
  next hreader hsource =>
    refine ⟨h.answered, fun n => (h.coming n).trans ?_, ?_, h.permits, h.charged⟩
    · simp only [State.ahead, State.unread, hreader, hsource]
    · obtain ⟨items, hqueue⟩ := h.shaped.items (by simp [hreader])
      exact hqueue ▸ shaped_items _ items
  next e rest hreader hsource =>
    obtain ⟨items, hqueue⟩ := h.shaped.items (by simp [hreader])
    refine ⟨h.answered, fun n => (h.coming n).trans ?_, ?_, ?_, ?_⟩
    · simp only [State.ahead, State.unread, hreader, hsource, List.map_append, List.append_nil]
      rw [direct_append_error, List.append_assoc]
      rfl
    · exact ⟨items, [.error e], by rw [hqueue], .inr ⟨rfl, e, rfl⟩⟩
    · rw [← h.permits]
      simp [State.buffered, Except.toOption]
    · intro w hw
      apply h.charged w
      simpa [State.buffered, Except.toOption] using hw
  next a rest hreader hsource =>
    refine ⟨h.answered, fun n => (h.coming n).trans ?_, ?_, h.permits, h.charged⟩
    · simp only [State.ahead, State.unread, hreader, hsource]
    · obtain ⟨items, hqueue⟩ := h.shaped.items (by simp [hreader])
      exact hqueue ▸ shaped_items _ items
  next => exact h

theorem acquire : Inv cost total source (s.acquire cost) := by
  unfold State.acquire
  split
  next a hreader =>
    split
    next hle =>
      obtain ⟨items, hqueue⟩ := h.shaped.items (by simp [hreader])
      have hbuffered : ({ s with
          reader := .polling
          permits := s.permits - cost a
          queue := s.queue ++ [.ok (a, cost a)] } : State ε α).buffered =
          s.buffered ++ [(a, cost a)] := by
        simp [State.buffered, Except.toOption]
      refine ⟨h.answered, fun n => (h.coming n).trans ?_, ?_, ?_, ?_⟩
      · simp only [State.ahead, State.unread, hreader, List.map_append, List.append_assoc]
        rfl
      · rw [hqueue]
        simpa using shaped_items (ε := ε) Reader.polling (items ++ [(a, cost a)])
      · have := h.permits
        rw [hbuffered, List.map_append, List.sum_append, List.map_singleton, List.sum_singleton]
        dsimp only
        omega
      · rw [hbuffered]
        intro w hw
        rcases List.mem_append.mp hw with hw | hw
        · exact h.charged w hw
        · rw [List.mem_singleton.mp hw]
    next => exact h
  next => exact h

theorem recv : Inv cost total source s.recv := by
  unfold State.recv
  split
  next item rest hworking hqueue =>
    refine ⟨h.answered, fun n => (h.coming n).trans ?_, (hqueue ▸ h.shaped).tail, ?_, ?_⟩
    · simp only [State.ahead, State.unread, hworking, hqueue]
      rfl
    · rw [← h.permits]
      simp [State.buffered, hworking, hqueue, Except.toOption]
    · intro w hw
      apply h.charged w
      simpa [State.buffered, hworking, hqueue, Except.toOption] using hw
  next e rest hworking hqueue =>
    obtain ⟨rfl, hreader⟩ := (hqueue ▸ h.shaped).after_error
    obtain ⟨hanswered, hcoming⟩ :=
      h.give (t := { s with queue := [], answers := s.answers ++ [.error e] })
      rfl (by simp [State.ahead, hworking, hqueue, Except.map])
      fun n => by simp [State.ahead, State.unread, hworking, hqueue, hreader, Except.map]
    refine ⟨hanswered, hcoming, shaped_items _ [], ?_, ?_⟩
    · rw [← h.permits]
      simp [State.buffered, hworking, hqueue, Except.toOption]
    · intro w hw
      simp [State.buffered, hworking] at hw
  next hworking hqueue hreader =>
    obtain ⟨hanswered, hcoming⟩ := h.give (t := { s with answers := s.answers ++ [.ok none] }) rfl
      (by simp [State.ahead, State.unread, hworking, hqueue, hreader])
      fun n => by simp [State.ahead, State.unread, hworking, hqueue, hreader]
    exact ⟨hanswered, hcoming, h.shaped, h.permits, h.charged⟩
  next => exact h

theorem answer : Inv cost total source s.answer := by
  unfold State.answer
  split
  next a n hworking =>
    obtain ⟨hanswered, hcoming⟩ := h.give
      (t := { s with
        working := none, permits := s.permits + n, answers := s.answers ++ [.ok (some a)] })
      rfl (by simp [State.ahead, hworking])
      fun n => by simp [State.ahead, State.unread, hworking]
    refine ⟨hanswered, hcoming, h.shaped, ?_, fun w hw => h.charged w ?_⟩
    · rw [← h.permits]
      simp only [State.buffered, hworking, Option.toList_none, Option.toList_some, List.nil_append,
        List.singleton_append, List.map_cons, List.sum_cons]
      omega
    · exact List.mem_append_right _ (by simpa [State.buffered] using hw)
  next => exact h

theorem step (e : Event) : Inv cost total source (step cost s e) := by
  unfold Relay.step
  split
  · exact h
  · cases e with
    | poll => exact h.poll
    | acquire => exact h.acquire
    | recv => exact h.recv
    | answer => exact h.answer
    | drop => exact ⟨h.answered, h.coming, h.shaped, h.permits, h.charged⟩

end Inv

theorem inv_run (es : List Event) :
    Inv cost total source (run (step cost) (.start total source) es) :=
  invariant (P := fun _ _ => True) (fun _ e h _ => h.step e) inv_start
    (along_of_always fun _ _ => trivial)

/-! ## What is buffered -/

/-- The items between the source and the consumer's next call cost no more than the budget. -/
theorem Inv.cost_buffered (h : Inv cost total source s) :
    (s.buffered.map fun w => cost w.1).sum ≤ total := by
  have hcost : s.buffered.map (fun w => cost w.1) = s.buffered.map Prod.snd :=
    List.map_congr_left fun w hw => (h.charged w hw).symm
  rw [hcost, ← h.permits]
  exact Nat.le_add_left _ _

theorem length_le_cost (hpos : ∀ a, 0 < cost a) (ws : List (α × ℕ)) :
    ws.length ≤ (ws.map fun w => cost w.1).sum := by
  rw [← List.length_map (fun w => cost w.1)]
  apply List.length_le_sum_of_one_le
  intro n hn
  obtain ⟨w, -, rfl⟩ := List.mem_map.mp hn
  exact hpos w.1

theorem Inv.alone (h : Inv cost total source s) (hpos : ∀ a, 0 < cost a) {w : α × ℕ}
    (hw : w ∈ s.buffered) (hall : cost w.1 = total) : s.buffered = [w] := by
  obtain ⟨before, after, heq⟩ := List.append_of_mem hw
  have hsum := h.cost_buffered
  have hbefore := length_le_cost hpos before
  have hafter := length_le_cost hpos after
  rw [heq, List.map_append, List.map_cons, List.sum_append, List.sum_cons, hall] at hsum
  obtain rfl : before = [] := List.length_eq_zero_iff.mp (by omega)
  obtain rfl : after = [] := List.length_eq_zero_iff.mp (by omega)
  exact heq

/-! ## Progress -/

theorem Inv.all_answered (h : Inv cost total source s) (hrank : s.rank = 0) (n : ℕ) :
    direct source (s.answers.length + n) = .ok none := by
  have hahead : s.ahead = [] := by
    unfold State.rank at hrank
    split at hrank
    · omega
    · omega
    next hreader =>
      have hqueue : s.queue = [] := List.length_eq_zero_iff.mp (by omega)
      have hworking : s.working.toList = [] := List.length_eq_zero_iff.mp (by omega)
      simp [State.ahead, State.unread, hreader, hqueue, hworking]
  rw [h.coming, hahead, direct_nil]

namespace State

variable (cost s)

theorem poll_idle_or_lt : s.poll = s ∨ s.poll.rank < s.rank := by
  unfold poll
  split
  next hreader hsource =>
    right
    simp only [rank, hreader, hsource]
    omega
  next e rest hreader hsource =>
    right
    simp only [rank, hreader, hsource, List.length_cons, List.length_append, List.length_nil]
    omega
  next a rest hreader hsource =>
    right
    simp only [rank, hreader, hsource, List.length_cons]
    omega
  next => exact .inl rfl

theorem acquire_idle_or_lt : s.acquire cost = s ∨ (s.acquire cost).rank < s.rank := by
  unfold acquire
  split
  next a hreader =>
    split
    · right
      simp only [rank, hreader, List.length_append, List.length_singleton]
      omega
    · exact .inl rfl
  next => exact .inl rfl

theorem recv_idle_or_lt (hrank : s.rank ≠ 0) : s.recv = s ∨ s.recv.rank < s.rank := by
  unfold recv
  split
  next item rest hworking hqueue =>
    right
    simp only [rank, hworking, hqueue, List.length_cons, Option.toList_some, Option.toList_none,
      List.length_nil]
    omega
  next e rest hworking hqueue =>
    right
    simp only [rank, hworking, hqueue, List.length_cons]
    omega
  next hworking hqueue hreader =>
    exact absurd (by simp [rank, hworking, hqueue, hreader]) hrank
  next => exact .inl rfl

theorem answer_idle_or_lt : s.answer = s ∨ s.answer.rank < s.rank := by
  unfold answer
  split
  next a n hworking =>
    right
    simp only [rank, hworking, Option.toList_some, Option.toList_none, List.length_cons,
      List.length_nil]
    omega
  next => exact .inl rfl

end State

theorem step_idle_or_lt (e : Event) (he : e ≠ .drop) (hrank : s.rank ≠ 0) :
    step cost s e = s ∨ (step cost s e).rank < s.rank := by
  unfold step
  split
  · exact .inl rfl
  · cases e with
    | poll => exact s.poll_idle_or_lt
    | acquire => exact s.acquire_idle_or_lt cost
    | recv => exact s.recv_idle_or_lt hrank
    | answer => exact s.answer_idle_or_lt
    | drop => exact absurd rfl he

theorem rank_eq_zero_of_le {t : State ε α} (hrank : s.rank = 0) (h : t = s ∨ t.rank < s.rank) :
    t.rank = 0 := by
  rcases h with rfl | hlt
  · exact hrank
  · omega

theorem rank_recv_of_zero (hrank : s.rank = 0) : s.recv.rank = 0 := by
  have hqueue : s.queue = [] := by
    unfold State.rank at hrank
    exact List.length_eq_zero_iff.mp (by omega)
  unfold State.recv
  split
  next heq => cases hqueue.symm.trans heq
  next heq => cases hqueue.symm.trans heq
  next => exact hrank
  next => exact hrank

theorem rank_step_of_zero (e : Event) (hrank : s.rank = 0) : (step cost s e).rank = 0 := by
  unfold step
  split
  · exact hrank
  · cases e with
    | poll => exact rank_eq_zero_of_le hrank s.poll_idle_or_lt
    | acquire => exact rank_eq_zero_of_le hrank (s.acquire_idle_or_lt cost)
    | recv => exact rank_recv_of_zero hrank
    | answer => exact rank_eq_zero_of_le hrank s.answer_idle_or_lt
    | drop => exact hrank

theorem dropped_step (e : Event) (he : e ≠ .drop) (h : s.dropped = false) :
    (step cost s e).dropped = false := by
  unfold step
  rw [if_neg (by simp [h])]
  cases e with
  | poll => dsimp only; unfold State.poll; split <;> exact h
  | acquire =>
    dsimp only
    unfold State.acquire
    split
    · split <;> exact h
    · exact h
  | recv => dsimp only; unfold State.recv; split <;> exact h
  | answer => dsimp only; unfold State.answer; split <;> exact h
  | drop => exact absurd rfl he

theorem rank_step_le (e : Event) (he : e ≠ .drop) : (step cost s e).rank ≤ s.rank := by
  by_cases hzero : s.rank = 0
  · rw [rank_step_of_zero e hzero]
    exact Nat.zero_le _
  · rcases step_idle_or_lt e he hzero with hidle | hlt
    · rw [hidle]
    · exact hlt.le

/-- A consumer that waits over an empty queue has returned every permit, so the reader it waits
for can go on. -/
theorem Inv.acts (hcost : ∀ a, cost a ≤ total) (h : Inv cost total source s)
    (hdropped : s.dropped = false) (hrank : s.rank ≠ 0) :
    ∃ e : Event, e ≠ .drop ∧ (Relay.step cost s e).rank < s.rank := by
  cases hworking : s.working with
  | some w =>
    refine ⟨.answer, by simp, ?_⟩
    rcases s.answer_idle_or_lt with hidle | hlt
    · have := congrArg State.working hidle
      simp [State.answer, hworking] at this
    · simpa [Relay.step, hdropped] using hlt
  | none =>
    cases hqueue : s.queue with
    | cons x rest =>
      refine ⟨.recv, by simp, ?_⟩
      rcases s.recv_idle_or_lt hrank with hidle | hlt
      · have := congrArg State.queue hidle
        cases x <;> simp [State.recv, hworking, hqueue] at this
      · simpa [Relay.step, hdropped] using hlt
    | nil =>
      have hpermits : s.permits = total := by
        simpa [State.buffered, hworking, hqueue] using h.permits
      cases hreader : s.reader with
      | polling =>
        refine ⟨.poll, by simp, ?_⟩
        rcases s.poll_idle_or_lt with hidle | hlt
        · have := congrArg State.reader hidle
          cases hsource : s.source with
          | nil => simp [State.poll, hreader, hsource] at this
          | cons x source => cases x <;> simp [State.poll, hreader, hsource] at this
        · simpa [Relay.step, hdropped] using hlt
      | acquiring a =>
        refine ⟨.acquire, by simp, ?_⟩
        rcases s.acquire_idle_or_lt cost with hidle | hlt
        · have := congrArg State.reader hidle
          simp [State.acquire, hreader, hpermits, hcost a] at this
        · simpa [Relay.step, hdropped] using hlt
      | returned => exact absurd (by simp [State.rank, hworking, hqueue, hreader]) hrank

variable (source) in
theorem descends (hcost : ∀ a, cost a ≤ total) : Descends (step cost)
    (fun s : State ε α => Inv cost total source s ∧ s.dropped = false) (· ≠ .drop) State.rank
    (fun (k : {e : Event // e ≠ .drop}) s => (step cost s k).rank < s.rank)
    (fun k e => e = k) where
  keeps _ e h he := ⟨h.1.step e, dropped_step e he h.2⟩
  le _ e _ he := rank_step_le e he
  stays k s e _ he hk heq := by
    -- an event that does not lower the rank is idle, or there is no rank left to lower
    rcases step_idle_or_lt e he (Nat.ne_zero_of_lt hk) with hidle | hlt
    · rwa [hidle]
    · exact absurd heq hlt.ne
  drops k s e _ hk he := by
    rw [he]
    exact hk
  acts s h hrank := by
    obtain ⟨e, he, hlt⟩ := h.1.acts hcost h.2 hrank
    exact ⟨⟨e, he⟩, hlt⟩

theorem answers_le_step (cost : α → ℕ) (s : State ε α) (e : Event) :
    s.answers.length ≤ (step cost s e).answers.length := by
  unfold step
  split
  · exact le_rfl
  · cases e with
    | poll => dsimp only; unfold State.poll; split <;> exact le_rfl
    | acquire =>
      dsimp only
      unfold State.acquire
      split
      · split <;> exact le_rfl
      · exact le_rfl
    | recv => dsimp only; unfold State.recv; split <;> simp
    | answer => dsimp only; unfold State.answer; split <;> simp
    | drop => exact le_rfl

theorem answers_le_run (s : State ε α) (es : List Event) :
    s.answers.length ≤ (run (step cost) s es).answers.length := by
  induction es generalizing s with
  | nil => exact le_rfl
  | cons e es ih => exact (answers_le_step cost s e).trans (ih _)

theorem answers_lt_recv (hdropped : s.dropped = false) (hrank : s.rank = 0) :
    s.answers.length < (step cost s .recv).answers.length := by
  unfold State.rank at hrank
  have hqueue : s.queue = [] := List.length_eq_zero_iff.mp (by omega)
  have hworking : s.working = none := by
    rw [← Option.toList_eq_nil_iff]
    exact List.length_eq_zero_iff.mp (by omega)
  split at hrank
  · omega
  · omega
  next hreader => simp [step, hdropped, State.recv, hqueue, hworking, hreader]

theorem answers_lt_run (hdropped : s.dropped = false) (hrank : s.rank = 0)
    (hes : ∀ e ∈ es, e ≠ .drop) (hrecv : Event.recv ∈ es) :
    s.answers.length < (run (step cost) s es).answers.length := by
  induction es generalizing s with
  | nil => cases hrecv
  | cons e es ih =>
    rw [run_cons]
    rcases List.mem_cons.mp hrecv with rfl | hrecv
    · exact (answers_lt_recv hdropped hrank).trans_le (answers_le_run _ es)
    · apply (answers_le_step cost s e).trans_lt
      apply ih _ (rank_step_of_zero e hrank) _ hrecv
      · exact dropped_step e (hes e List.mem_cons_self) hdropped
      · exact fun x hx => hes x (List.mem_cons_of_mem _ hx)

/-- A schedule that gives each side its turn in every round has the consumer told the end, in about
four rounds an item. -/
theorem told_end_of_rounds (hcost : ∀ a, cost a ≤ total) {rounds : List (List Event)}
    (hround : ∀ round ∈ rounds, ∀ e, e ∈ round ↔ e ≠ .drop)
    (hlength : 4 * source.length + 1 < rounds.length) :
    ∃ m < (run (step cost) (.start total source) rounds.flatten).answers.length,
      direct source m = .ok none := by
  have d := descends source hcost
  obtain ⟨before, last, rfl⟩ := (List.eq_nil_or_concat rounds).resolve_left (by
    rintro rfl
    exact absurd hlength (Nat.not_lt_zero _))
  rw [List.concat_eq_append] at hround hlength ⊢
  have hbefore : ∀ round ∈ before, ∀ e, e ∈ round ↔ e ≠ .drop :=
    fun round hr => hround round (List.mem_append_left _ hr)
  have hlast : ∀ e, e ∈ last ↔ e ≠ .drop := hround last (by simp)
  rw [List.flatten_append, List.flatten_singleton, run_append]
  have hstart : (fun s => Inv cost total source s ∧ s.dropped = false)
      (State.start total source) := ⟨inv_start, rfl⟩
  have hall : ∀ e ∈ before.flatten, e ≠ .drop := by
    intro e he
    obtain ⟨round, hr, he⟩ := List.mem_flatten.mp he
    exact (hbefore round hr e).mp he
  obtain ⟨hinv, hdropped⟩ := d.invariant_run hstart hall
  have hle := d.rounds_le hstart (fun round hr e he => (hbefore round hr e).mp he)
    fun round hr k => ⟨k, (hbefore round hr k).mpr k.2, rfl⟩
  have hrank : (run (step cost) (.start total source) before.flatten).rank = 0 := by
    have hstart : (State.start total source).rank = 4 * source.length + 1 := rfl
    rw [List.length_append, List.length_singleton] at hlength
    omega
  refine ⟨_, answers_lt_run hdropped hrank (fun e he => (hlast e).mp he)
    ((hlast .recv).mpr (by simp)), ?_⟩
  simpa using hinv.all_answered hrank 0

end Zecd.Relay
