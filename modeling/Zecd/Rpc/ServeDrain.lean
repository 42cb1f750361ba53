import Zecd.Foundation.Rounds
import Zecd.Rpc.ServeRuns

/-! # Draining the server

Past a shutdown, the requests that were let in are finished: where the handlers return and every
connection gets its turn, all of them are answered and every permit comes back, whatever else
arrives.
-/

namespace Zecd.Serve

open Runs Dispatch JsonRpc

variable {cfg : Config} {r : HttpRequest} {app : AppState} {phase : Phase} {t : Turn} {w : Work}
  {coin : Option Coin} {v : Json} {todo : List Json} {s : Server} {n : ℕ}

/-! ## What is left to do -/

def itemsOf (cfg : Config) (r : HttpRequest) : List Json :=
  match parseBody cfg.fromSlice r.body with
  | .ok body => Body.items body
  | .error _ => []

/-- The turns that a connection has to come, at most: two for each call, and one to answer. -/
def Phase.rank (cfg : Config) (r : HttpRequest) : Phase → ℕ
  | .checked => 2 * (itemsOf cfg r).length + 2
  | .sleeping => 1
  | .serving w => 2 * w.todo.length + w.current.toList.length + 1
  | .answered _ | .dropped => 0

def Server.rank (cfg : Config) (s : Server) : ℕ :=
  (s.connections.map fun c => c.phase.rank cfg c.request).sum

/-- The turns that a connection can wait for. -/
inductive Kind where
  | letIn
  | wake
  | next
  | complete
  deriving DecidableEq, Repr

def Turn.kind : Turn → Option Kind
  | .letIn => some .letIn
  | .wake => some .wake
  | .next _ => some .next
  | .complete _ => some .complete
  | .disconnect => none

/-- The turn that the connection waits for. -/
def Phase.awaits : Phase → Option Kind
  | .checked => some .letIn
  | .sleeping => some .wake
  | .serving w => some (if w.current.isSome then .complete else .next)
  | .answered _ | .dropped => none

/-! ## One turn -/

theorem rank_dispatchNext (cfg : Config) (r : HttpRequest) (app : AppState) (coin : Option Coin)
    (v : Json) (todo : List Json) (hcurrent : w.current = none) :
    (Phase.serving (dispatchNext cfg app w coin v todo).2.1).rank cfg r ≤ 2 * todo.length + 2 := by
  rcases dispatchNext_cases cfg app w coin v todo with ⟨_, _, -, heq⟩ | ⟨_, _, -, -, heq⟩ |
    ⟨_, _, _, -, -, -, heq⟩ | ⟨_, -, -, -, heq⟩ <;> rw [heq] <;>
    simp only [Phase.rank, hcurrent, Option.toList_none, Option.toList_some, List.length_nil,
      List.length_singleton]
  · omega
  · omega
  · omega
  · omega

theorem rank_admitted (cfg : Config) (r : HttpRequest) :
    (admitted cfg r).rank cfg r < Phase.checked.rank cfg r := by
  unfold admitted
  split
  · split
    · exact Nat.succ_pos _
    · next body hparse =>
      simp only [Phase.rank, itemsOf, hparse, Option.toList_none, List.length_nil]
      omega
  · simp only [Phase.rank]
    omega

theorem rank_letIn : (letIn cfg r app).2.rank cfg r < Phase.checked.rank cfg r := by
  unfold letIn
  split
  · exact Nat.succ_pos _
  · exact rank_admitted cfg r

theorem rank_next (hcurrent : w.current = none) :
    (w.next cfg app coin).2.1.rank cfg r < (Phase.serving w).rank cfg r := by
  unfold Work.next
  rw [hcurrent]
  cases htodo : w.todo with
  | nil => exact Nat.succ_pos _
  | cons v todo =>
    have hle := rank_dispatchNext cfg r app coin v todo hcurrent
    dsimp only
    refine hle.trans_lt ?_
    simp only [Phase.rank, htodo, hcurrent, List.length_cons, Option.toList_none, List.length_nil]
    omega

theorem rank_complete {call : ℕ × RpcRequest} {outcome : Except RpcError Json}
    (hcurrent : w.current = some call) :
    (w.complete app outcome).2.rank cfg r < (Phase.serving w).rank cfg r := by
  unfold Work.complete
  rw [hcurrent]
  simp only [Phase.rank, hcurrent, Option.toList_none, Option.toList_some, List.length_nil,
    List.length_singleton]
  omega

theorem rank_turn_lt (cfg : Config) (r : HttpRequest) (app : AppState) {k : Kind}
    (hphase : phase.awaits = some k) (ht : t.kind = some k) :
    (turn cfg r app phase t).2.1.rank cfg r < phase.rank cfg r := by
  cases phase with
  | checked =>
    cases hphase
    cases t <;> cases ht
    exact rank_letIn
  | sleeping =>
    cases hphase
    cases t <;> cases ht
    exact Nat.one_pos
  | serving w =>
    cases hcurrent : w.current with
    | none =>
      simp only [Phase.awaits, hcurrent, Option.isSome_none, Bool.false_eq_true, if_false,
        Option.some.injEq] at hphase
      subst hphase
      cases t <;> cases ht
      exact rank_next hcurrent
    | some call =>
      simp only [Phase.awaits, hcurrent, Option.isSome_some, if_true, Option.some.injEq] at hphase
      subst hphase
      cases t <;> cases ht
      exact rank_complete hcurrent
  | answered resp => cases hphase
  | dropped => cases hphase

/-- Any other turn leaves the connection as it is, or ends it. -/
theorem turn_same_or_lt (cfg : Config) (r : HttpRequest) (app : AppState) (phase : Phase)
    (t : Turn) : (turn cfg r app phase t).2.1 = phase ∨
    (turn cfg r app phase t).2.1.rank cfg r < phase.rank cfg r := by
  cases phase with
  | checked =>
    cases t with
    | letIn => exact Or.inr rank_letIn
    | _ => exact Or.inl rfl
  | sleeping =>
    cases t with
    | wake => exact Or.inr Nat.one_pos
    | disconnect => exact Or.inr Nat.one_pos
    | _ => exact Or.inl rfl
  | serving w =>
    cases hcurrent : w.current with
    | none =>
      cases t with
      | next coin => exact Or.inr (rank_next hcurrent)
      | complete outcome =>
        left
        change (w.complete app outcome).2 = _
        rw [Work.complete, hcurrent]
      | disconnect =>
        left
        change (w.disconnect app).2 = _
        rw [Work.disconnect, hcurrent]
      | _ => exact Or.inl rfl
    | some call =>
      cases t with
      | next coin =>
        left
        change (w.next cfg app coin).2.1 = _
        rw [Work.next, hcurrent]
      | complete outcome => exact Or.inr (rank_complete hcurrent)
      | disconnect =>
        right
        change (w.disconnect app).2.rank cfg r < _
        rw [Work.disconnect, hcurrent]
        exact Nat.succ_pos _
      | _ => exact Or.inl rfl
  | _ => exact Or.inl (by cases t <;> rfl)

theorem exists_awaits (h : phase.rank cfg r ≠ 0) : ∃ k, phase.awaits = some k := by
  cases phase with
  | answered resp => exact absurd rfl h
  | dropped => exact absurd rfl h
  | _ => exact ⟨_, rfl⟩

/-! ## One step -/

theorem rank_split {before after : List Connection} {c : Connection}
    (h : s.connections = before ++ c :: after) : s.rank cfg =
      (before.map fun c => c.phase.rank cfg c.request).sum + c.phase.rank cfg c.request +
        (after.map fun c => c.phase.rank cfg c.request).sum := by
  rw [Server.rank, h, List.map_append, List.map_cons, List.sum_append, List.sum_cons, Nat.add_assoc]

theorem rank_step_turn (cfg : Config) (t : Turn) {i : ℕ} {c : Connection}
    (hc : s.connections[i]? = some c) :
    (step cfg s (.turn i t)).rank cfg + c.phase.rank cfg c.request =
      s.rank cfg + (turn cfg c.request s.app c.phase t).2.1.rank cfg c.request := by
  obtain ⟨before, after, hsplit, hset⟩ := exists_split hc
  have hnext : (step cfg s (.turn i t)).connections =
      before ++ { c with phase := (turn cfg c.request s.app c.phase t).2.1 } :: after := by
    rw [step_turn hc, hset]
  rw [rank_split hnext, rank_split hsplit]
  dsimp only
  omega

theorem rank_step_le (h : Down n s) (e : Event) : (step cfg s e).rank cfg ≤ s.rank cfg := by
  cases e with
  | arrive r =>
    apply le_of_eq
    simp [step, Server.rank, h.flag, Phase.rank]
  | turn i t =>
    cases hc : s.connections[i]? with
    | none => rw [step_turn_of_none hc]
    | some c =>
      have hsum := rank_step_turn cfg t hc
      have hle : (turn cfg c.request s.app c.phase t).2.1.rank cfg c.request ≤
          c.phase.rank cfg c.request := by
        rcases turn_same_or_lt cfg c.request s.app c.phase t with hsame | hlt
        · rw [hsame]
        · exact hlt.le
      omega
  | shutdown => exact le_rfl
  | tick micros => exact le_rfl

/-- A connection waits for this turn. -/
def Awaits (k : Fin n × Kind) (s : Server) : Prop :=
  ∃ c, s.connections[k.1.1]? = some c ∧ c.phase.awaits = some k.2

/-- The turns of this kind of one connection. -/
def Gives (k : Fin n × Kind) (e : Event) : Prop := ∃ t, e = .turn k.1 t ∧ t.kind = some k.2

theorem awaits_step {k : Fin n × Kind} (h : Awaits k s) (e : Event)
    (hrank : (step cfg s e).rank cfg = s.rank cfg) : Awaits k (step cfg s e) := by
  obtain ⟨c, hc, hk⟩ := h
  have hi : k.1.1 < s.connections.length := (List.getElem?_eq_some_iff.mp hc).1
  cases e with
  | arrive r => exact ⟨c, by rw [step, List.getElem?_append_left hi, hc], hk⟩
  | turn j t =>
    cases hj : s.connections[j]? with
    | none =>
      rw [step_turn_of_none hj]
      exact ⟨c, hc, hk⟩
    | some c' =>
      by_cases hji : j = k.1.1
      · subst hji
        rw [hc] at hj
        cases hj
        have hsum := rank_step_turn cfg t hc
        rcases turn_same_or_lt cfg c.request s.app c.phase t with hsame | hlt
        · refine ⟨c, ?_, hk⟩
          rw [step_turn hc, List.getElem?_set_self hi, hsame]
        · omega
      · refine ⟨c, ?_, hk⟩
        rw [step_turn hj, List.getElem?_set_ne hji, hc]
  | shutdown => exact ⟨c, hc, hk⟩
  | tick micros => exact ⟨c, hc, hk⟩

variable (cfg n) in
theorem descends : Descends (step cfg) (Down n) (fun _ => True) (Server.rank cfg)
    (Awaits (n := n)) Gives where
  keeps _ e h _ := down_step h e
  le _ e h _ := rank_step_le h e
  stays _ _ e _ _ hk hrank := awaits_step hk e hrank
  drops k s e _ hk he := by
    obtain ⟨c, hc, hawaits⟩ := hk
    obtain ⟨t, rfl, ht⟩ := he
    have hsum := rank_step_turn cfg t hc
    have hlt := rank_turn_lt cfg c.request s.app hawaits ht
    omega
  acts s h hrank := by
    have hsome : ∃ c ∈ s.connections, c.phase.rank cfg c.request ≠ 0 := by
      by_contra hnone
      push Not at hnone
      apply hrank
      rw [Server.rank, List.sum_eq_zero_iff]
      intro m hm
      obtain ⟨c, hc, rfl⟩ := List.mem_map.mp hm
      exact hnone c hc
    obtain ⟨c, hc, hpos⟩ := hsome
    obtain ⟨i, hi⟩ := List.mem_iff_getElem?.mp hc
    obtain ⟨k, hk⟩ := exists_awaits hpos
    have hin : i < n := by
      by_contra hni
      rw [h.refused i c (not_lt.mp hni) hi] at hk
      cases hk
    exact ⟨(⟨i, hin⟩, k), c, hi, hk⟩

/-! ## The drain -/

theorem ended_of_rank_eq_zero {c : Connection} (hrank : s.rank cfg = 0) (hc : c ∈ s.connections) :
    (∃ resp, c.phase = .answered resp) ∨ c.phase = .dropped := by
  have hzero : c.phase.rank cfg c.request = 0 := by
    rw [Server.rank, List.sum_eq_zero_iff] at hrank
    exact hrank _ (List.mem_map_of_mem hc)
  cases hphase : c.phase with
  | answered resp => exact Or.inl ⟨resp, rfl⟩
  | dropped => exact Or.inr rfl
  | _ =>
    rw [hphase, Phase.rank] at hzero
    omega

/-- Past a shutdown, a schedule that gives every connection let in before it each kind of turn in
every round has them all answered in as many rounds as they had turns to come: the work queue is
whole again and no command is active. -/
theorem drains_after_shutdown (cfg : Config) (before : List Event) (rounds : List (List Event))
    (hdown : (run (step cfg) (.start cfg) before).app.shuttingDown = true)
    (hrounds : ∀ round ∈ rounds, ∀ i < (run (step cfg) (.start cfg) before).connections.length,
      ∀ k : Kind, ∃ t, .turn i t ∈ round ∧ t.kind = some k)
    (hlength : (run (step cfg) (.start cfg) before).rank cfg ≤ rounds.length) :
    (∀ c ∈ (run (step cfg) (.start cfg) (before ++ rounds.flatten)).connections,
      (∃ resp, c.phase = .answered resp) ∨ c.phase = .dropped) ∧
    (run (step cfg) (.start cfg) (before ++ rounds.flatten)).app.workQueue = cfg.rpc.workQueue ∧
    (run (step cfg) (.start cfg) (before ++ rounds.flatten)).app.active = [] := by
  have hle := (descends cfg _).rounds_le (down_of_shutdown hdown)
    (fun round _ e _ => trivial) fun round hr k => by
      obtain ⟨t, ht, hk⟩ := hrounds round hr k.1 k.1.2 k.2
      exact ⟨_, ht, t, rfl, hk⟩
  have hrank : (run (step cfg) (.start cfg) (before ++ rounds.flatten)).rank cfg = 0 := by
    rw [run_append]
    omega
  have hended : ∀ c ∈ (run (step cfg) (.start cfg) (before ++ rounds.flatten)).connections,
      (∃ resp, c.phase = .answered resp) ∨ c.phase = .dropped :=
    fun c hc => ended_of_rank_eq_zero hrank hc
  obtain ⟨hpermits, htracks, -, -⟩ := inv_run cfg (before ++ rounds.flatten)
  refine ⟨hended, ?_, ?_⟩
  · have hnone : (run (step cfg) (.start cfg) (before ++ rounds.flatten)).connections.countP
        (fun c => c.phase.holdsPermit) = 0 := by
      rw [List.countP_eq_zero]
      intro c hc
      rcases hended c hc with ⟨resp, hphase⟩ | hphase <;> simp [hphase, Phase.holdsPermit]
    omega
  · have hnone : (run (step cfg) (.start cfg) (before ++ rounds.flatten)).inProgress = [] := by
      rw [Server.inProgress, List.filterMap_eq_nil_iff]
      intro c hc
      rcases hended c hc with ⟨resp, hphase⟩ | hphase <;> simp [hphase, Phase.command]
    have hperm := htracks.perm
    rw [hnone, command_dropped, Option.toList_none, List.append_nil] at hperm
    simpa using hperm.eq_nil

def everyTurn : List Event :=
  [.turn 0 .letIn, .turn 0 .wake, .turn 0 (.next none), .turn 0 (.complete (.ok .null))]

theorem drains_after_shutdown_help :
    (run (step oneLineServer) (.start oneLineServer)
      ([.arrive helpRequest, .shutdown] ++ (List.replicate 4 everyTurn).flatten)).app.workQueue =
      oneLineServer.rpc.workQueue := by
  refine (drains_after_shutdown oneLineServer [.arrive helpRequest, .shutdown]
    (List.replicate 4 everyTurn) rfl ?_ ?_).2.1
  · intro round hround i hi k
    rw [List.eq_of_mem_replicate hround]
    obtain rfl : i = 0 := Nat.lt_one_iff.mp hi
    cases k with
    | letIn => exact ⟨.letIn, by simp [everyTurn], rfl⟩
    | wake => exact ⟨.wake, by simp [everyTurn], rfl⟩
    | next => exact ⟨.next none, by simp [everyTurn], rfl⟩
    | complete => exact ⟨.complete (.ok .null), by simp [everyTurn], rfl⟩
  · decide

end Zecd.Serve
