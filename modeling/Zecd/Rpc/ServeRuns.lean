import Zecd.Rpc.Logins
import Zecd.Rpc.Serve

/-! # What a server does over a run

Whatever the clients, the handlers and the scheduler do: the permits of the work queue are never
lost, the active commands are the calls in progress, a handler is only reached by what the server
admits, and a connection is answered its own calls, in their order.
-/

namespace Zecd.Serve

open Runs Dispatch JsonRpc

variable {cfg : Config} {r : HttpRequest} {app app' : AppState} {phase : Phase} {t : Turn}
  {w : Work} {coin : Option Coin} {v : Json} {vs todo : List Json} {method : String} {id : ℕ}
  {s : Server} {e : Event} {es : List Event} {req : RpcRequest}

/-! ## One call -/

/-- The call of a body is answered as malformed, refused by a gate, answered by a control method, or
at work in its handler. -/
theorem dispatchNext_cases (cfg : Config) (app : AppState) (w : Work) (coin : Option Coin)
    (v : Json) (todo : List Json) :
    (∃ id e, RpcRequest.fromValue v = .error (id, e) ∧ dispatchNext cfg app w coin v todo =
      (app, { w with todo, done := w.done ++ [reply id (.error e)] }, none)) ∨
    (∃ req e, RpcRequest.fromValue v = .ok req ∧
      gate cfg.methods cfg.allowedMethods coin req = .error e ∧
      dispatchNext cfg app w coin v todo = ((app.begin req.method).finish app.nextId,
        { w with todo, done := w.done ++ [reply req.id (.error e)] }, none)) ∨
    (∃ req outcome app', RpcRequest.fromValue v = .ok req ∧
      gate cfg.methods cfg.allowedMethods coin req = .ok () ∧
      control cfg.regtest (app.begin req.method) req.method = some (outcome, app') ∧
      dispatchNext cfg app w coin v todo = (app'.finish app.nextId,
        { w with todo, done := w.done ++ [reply req.id outcome] }, some req)) ∨
    ∃ req, RpcRequest.fromValue v = .ok req ∧
      gate cfg.methods cfg.allowedMethods coin req = .ok () ∧
      control cfg.regtest (app.begin req.method) req.method = none ∧
      dispatchNext cfg app w coin v todo =
        (app.begin req.method, { w with todo, current := some (app.nextId, req) }, some req) := by
  unfold dispatchNext
  cases hv : RpcRequest.fromValue v with
  | error refused => exact Or.inl ⟨refused.1, refused.2, rfl, rfl⟩
  | ok req =>
    dsimp only
    cases hgate : gate cfg.methods cfg.allowedMethods coin req with
    | error e => exact Or.inr (Or.inl ⟨req, e, rfl, hgate, rfl⟩)
    | ok _ =>
      cases hcontrol : control cfg.regtest (app.begin req.method) req.method with
      | some answer => exact Or.inr (Or.inr (Or.inl ⟨req, _, _, rfl, hgate, hcontrol, rfl⟩))
      | none => exact Or.inr (Or.inr (Or.inr ⟨req, rfl, hgate, hcontrol, rfl⟩))

theorem control_cases {regtest : Bool} {outcome : Except RpcError Json}
    (h : control regtest app method = some (outcome, app')) :
    app' = app ∨ app' = app.triggerShutdown := by
  unfold control at h
  split at h
  · split at h <;> cases h
    · exact Or.inr rfl
    · exact Or.inl rfl
  · split at h
    · cases h
      exact Or.inl rfl
    · split at h
      · cases h
        exact Or.inl rfl
      · split at h <;> cases h
        exact Or.inl rfl

theorem workQueue_dispatchNext :
    (dispatchNext cfg app w coin v todo).1.workQueue = app.workQueue := by
  rcases dispatchNext_cases cfg app w coin v todo with ⟨_, _, -, heq⟩ | ⟨_, _, -, -, heq⟩ |
    ⟨_, _, _, -, -, hcontrol, heq⟩ | ⟨_, -, -, -, heq⟩ <;> rw [heq]
  · rfl
  · rcases control_cases hcontrol with rfl | rfl <;> rfl
  · rfl

theorem command_dropped : Phase.dropped.command = none := rfl

theorem command_serving {call : Option (ℕ × RpcRequest)} (h : w.current = call) :
    (Phase.serving w).command = call.map fun call => (call.1, call.2.method) := by
  rw [← h, Phase.command]

/-! ## One turn of a connection -/

def permits (app : AppState) (phase : Phase) : ℕ := app.workQueue + phase.holdsPermit.toNat

theorem permits_letIn (cfg : Config) (r : HttpRequest) (app : AppState) :
    permits (letIn cfg r app).1 (letIn cfg r app).2 = permits app .checked := by
  have hchecked : Phase.checked.holdsPermit = false := rfl
  unfold permits letIn
  split
  · rfl
  · next hfree =>
    dsimp only
    rw [hchecked]
    split
    · next hholds =>
      rw [hholds, AppState.acquire, Bool.toNat_true, Bool.toNat_false]
      dsimp only
      omega
    · next hholds => rw [Bool.eq_false_iff.mpr hholds]

theorem permits_turn (cfg : Config) (r : HttpRequest) (app : AppState) (phase : Phase) (t : Turn) :
    permits (turn cfg r app phase t).1 (turn cfg r app phase t).2.1 = permits app phase := by
  cases phase with
  | checked =>
    cases t with
    | letIn => exact permits_letIn cfg r app
    | _ => rfl
  | serving w =>
    cases t with
    | next coin =>
      change permits (w.next cfg app coin).1 (w.next cfg app coin).2.1 = _
      unfold Work.next
      split
      · simp only [permits, workQueue_dispatchNext, Phase.holdsPermit]
      · rfl
      · rfl
    | complete outcome =>
      change permits (w.complete app outcome).1 (w.complete app outcome).2 = _
      unfold Work.complete
      split <;> rfl
    | disconnect =>
      change permits (w.disconnect app).1 (w.disconnect app).2 = _
      unfold Work.disconnect
      split <;> rfl
    | _ => rfl
  | _ => cases t <;> rfl

/-- The active commands are those of the other connections and this one's, under names of their
own. -/
structure Tracks (others : List (ℕ × String)) (app : AppState) (phase : Phase) : Prop where
  perm : (app.active.map fun a => (a.id, a.method)).Perm (others ++ phase.command.toList)
  nodup : (app.active.map ActiveCommand.id).Nodup
  lt : ∀ a ∈ app.active, a.id < app.nextId

namespace Tracks

variable {others : List (ℕ × String)}

theorem congr {phase' : Phase} (h : Tracks others app phase) (hactive : app'.active = app.active)
    (hnext : app'.nextId = app.nextId) (hcommand : phase'.command = phase.command) :
    Tracks others app' phase' := by
  obtain ⟨hperm, hnodup, hlt⟩ := h
  exact ⟨by rwa [hactive, hcommand], by rwa [hactive], by rwa [hactive, hnext]⟩

theorem begin_command (h : Tracks others app phase) (hnone : phase.command = none) {phase' : Phase}
    (hcommand : phase'.command = some (app.nextId, method)) :
    Tracks others (app.begin method) phase' := by
  obtain ⟨hperm, hnodup, hlt⟩ := h
  rw [hnone, Option.toList_none, List.append_nil] at hperm
  constructor
  · rw [hcommand, AppState.begin, List.map_append]
    exact hperm.append_right _
  · rw [AppState.begin, List.map_append, List.map_singleton]
    apply List.nodup_append.mpr
    refine ⟨hnodup, List.nodup_singleton _, ?_⟩
    rintro x hx y hy rfl
    obtain ⟨a, ha, hid⟩ := List.mem_map.mp hx
    have := hlt a ha
    rw [hid, List.mem_singleton.mp hy] at this
    exact lt_irrefl _ this
  · intro a ha
    rcases List.mem_append.mp ha with ha | ha
    · exact (hlt a ha).trans (Nat.lt_succ_self _)
    · rw [List.mem_singleton.mp ha]
      exact Nat.lt_succ_self _

theorem finish_command (h : Tracks others app phase) (hcommand : phase.command = some (id, method))
    {phase' : Phase} (hnone : phase'.command = none) : Tracks others (app.finish id) phase' := by
  obtain ⟨hperm, hnodup, hlt⟩ := h
  rw [hcommand, Option.toList_some] at hperm
  constructor
  · -- no other command has this one's id, so the filter takes this one alone
    have hids : (others.map Prod.fst ++ [id]).Nodup := by
      have hperm' := hperm.map Prod.fst
      rw [List.map_map, List.map_append] at hperm'
      exact (hperm'.nodup_iff).mp hnodup
    have hothers : others.filter (fun x => decide (x.1 ≠ id)) = others := by
      rw [List.filter_eq_self]
      intro x hx
      rw [decide_eq_true_eq]
      rintro rfl
      exact (List.nodup_append.mp hids).2.2 _ (List.mem_map_of_mem hx) _
        (List.mem_singleton_self _) rfl
    have hfilter := hperm.filter fun x => decide (x.1 ≠ id)
    rw [List.filter_append, hothers, List.filter_map] at hfilter
    rw [hnone, Option.toList_none]
    simpa [AppState.finish, Function.comp_def] using hfilter
  · exact hnodup.sublist (List.filter_sublist.map _)
  · intro a ha
    exact hlt a (List.mem_of_mem_filter ha)

end Tracks

theorem tracks_dispatchNext {others : List (ℕ × String)} (hw : w.current = none)
    (h : Tracks others app (.serving w)) :
    Tracks others (dispatchNext cfg app w coin v todo).1
      (.serving (dispatchNext cfg app w coin v todo).2.1) := by
  have hnone : (Phase.serving w).command = none := command_serving hw
  have hbegun : ∀ req, Tracks others (app.begin req.method)
      (.serving { w with todo, current := some (app.nextId, req) }) :=
    fun req => h.begin_command hnone rfl
  rcases dispatchNext_cases cfg app w coin v todo with ⟨_, _, -, heq⟩ | ⟨req, _, -, -, heq⟩ |
    ⟨req, _, app', -, -, hcontrol, heq⟩ | ⟨req, -, -, -, heq⟩ <;> rw [heq]
  · exact h.congr rfl rfl rfl
  · exact (hbegun req).finish_command rfl hnone
  · have hsame :
        Tracks others app' (.serving { w with todo, current := some (app.nextId, req) }) := by
      rcases control_cases hcontrol with rfl | rfl
      · exact hbegun req
      · exact (hbegun req).congr rfl rfl rfl
    exact hsame.finish_command rfl hnone
  · exact hbegun req

theorem tracks_letIn {others : List (ℕ × String)} (h : Tracks others app .checked) :
    Tracks others (letIn cfg r app).1 (letIn cfg r app).2 := by
  have hcommand : (admitted cfg r).command = none := by
    unfold admitted
    split
    · split <;> rfl
    · rfl
  unfold letIn
  split
  · exact h.congr rfl rfl rfl
  · dsimp only
    split
    · exact h.congr rfl rfl hcommand
    · exact h.congr rfl rfl hcommand

theorem tracks_turn (cfg : Config) (r : HttpRequest) (t : Turn) {others : List (ℕ × String)}
    (h : Tracks others app phase) :
    Tracks others (turn cfg r app phase t).1 (turn cfg r app phase t).2.1 := by
  cases phase with
  | checked =>
    cases t with
    | letIn => exact tracks_letIn h
    | _ => exact h
  | sleeping =>
    cases t with
    | wake => exact h.congr rfl rfl rfl
    | disconnect => exact h.congr rfl rfl rfl
    | _ => exact h
  | serving w =>
    cases t with
    | next coin =>
      change Tracks others (w.next cfg app coin).1 (w.next cfg app coin).2.1
      unfold Work.next
      split
      · next v todo hcurrent htodo => exact tracks_dispatchNext hcurrent h
      · next hcurrent htodo => exact h.congr rfl rfl (command_serving hcurrent).symm
      · exact h
    | complete outcome =>
      change Tracks others (w.complete app outcome).1 (w.complete app outcome).2
      unfold Work.complete
      split
      · next id req hcurrent => exact h.finish_command (command_serving hcurrent) rfl
      · exact h
    | disconnect =>
      change Tracks others (w.disconnect app).1 (w.disconnect app).2
      unfold Work.disconnect
      split
      · next id req hcurrent =>
        have hdropped : Phase.dropped.command = none := rfl
        exact (h.finish_command (command_serving hcurrent) hdropped).congr rfl rfl rfl
      · exact h
    | _ => exact h
  | _ => cases t <;> exact h

/-! ## What a connection is answered -/

/-- The replies to the calls of a body, in order: the malformed ones are answered as such, and each
other one with an outcome of its dispatch. -/
inductive Replies : List Json → List (Except RpcError Json) → List (Json × ℕ) → Prop where
  | nil : Replies [] [] []
  | malformed {vs outs rs v id err} : Replies vs outs rs →
      RpcRequest.fromValue v = .error (id, err) →
      Replies (vs ++ [v]) outs (rs ++ [reply id (.error err)])
  | dispatched {vs outs rs v req out} : Replies vs outs rs → RpcRequest.fromValue v = .ok req →
      Replies (vs ++ [v]) (outs ++ [out]) (rs ++ [reply req.id out])

/-- What the dispatch of a call comes to at once, if no handler has to be waited for. -/
def dispatchOutcome (cfg : Config) (app : AppState) (coin : Option Coin) (v : Json) :
    Option (Except RpcError Json) :=
  match RpcRequest.fromValue v with
  | .error _ => none
  | .ok req =>
    match gate cfg.methods cfg.allowedMethods coin req with
    | .error e => some (.error e)
    | .ok () => (control cfg.regtest (app.begin req.method) req.method).map Prod.fst

def Work.nextOutcome (cfg : Config) (app : AppState) (w : Work) (coin : Option Coin) :
    Option (Except RpcError Json) :=
  match w.current, w.todo with
  | none, v :: _ => dispatchOutcome cfg app coin v
  | _, _ => none

/-- What a request meets on its way to an answer. -/
inductive Mark where
  | arrived (shuttingDown : Bool)
  /-- It asks for a permit, where this many are free. -/
  | letIn (free : ℕ)
  | outcome (out : Except RpcError Json)

def turnMark (cfg : Config) (app : AppState) : Phase → Turn → Option Mark
  | .checked, .letIn => some (.letIn app.workQueue)
  | .serving w, .next coin => (w.nextOutcome cfg app coin).map .outcome
  | .serving w, .complete outcome => w.current.map fun _ => .outcome outcome
  | _, _ => none

/-- The marks of a request that took one of the free permits, and whose calls came to these
outcomes. -/
def served (free : ℕ) (outs : List (Except RpcError Json)) : List Mark :=
  .arrived false :: .letIn free :: outs.map .outcome

inductive Answered (cfg : Config) (r : HttpRequest) : List Mark → Response → Prop where
  | shutdown : Answered cfg r [.arrived true] shutdownRefusal
  | queue : Answered cfg r [.arrived false, .letIn 0] queueRefusal
  | unauthorized {free} (hfree : 0 < free) (auth : cfg.auth r.authorization = false) :
      Answered cfg r (served free []) .unauthorized
  | malformed {free err} (hfree : 0 < free) (auth : cfg.auth r.authorization = true)
      (parse : parseBody cfg.fromSlice r.body = .error err) :
      Answered cfg r (served free []) (.json (httpStatusForCode err.code) (error .null err))
  | replies {free outs body rs} (hfree : 0 < free) (auth : cfg.auth r.authorization = true)
      (parse : parseBody cfg.fromSlice r.body = .ok body)
      (each : Replies (Body.items body) outs rs)
      (ids : rs.map (fun x => x.1.get "id") = (Body.items body).map fun v => some (idOf v)) :
      Answered cfg r (served free outs) (respond (Body.isBatch body) rs)

/-- A connection that has got this far in its body. -/
structure Serves (cfg : Config) (r : HttpRequest) (outs : List (Except RpcError Json)) (w : Work)
    (body : Body) (finished : List Json) : Prop where
  auth : cfg.auth r.authorization = true
  parse : parseBody cfg.fromSlice r.body = .ok body
  batch : w.batch = Body.isBatch body
  done : Replies finished outs w.done
  idle : w.current = none → Body.items body = finished ++ w.todo
  busy : ∀ call, w.current = some call →
    ∃ v, RpcRequest.fromValue v = .ok call.2 ∧ Body.items body = finished ++ v :: w.todo

def Faithful (cfg : Config) (r : HttpRequest) (marks : List Mark) : Phase → Prop
  | .checked => marks = [.arrived false]
  | .sleeping => ∃ free, 0 < free ∧ marks = served free [] ∧ cfg.auth r.authorization = false
  | .serving w => ∃ free outs body finished, 0 < free ∧ marks = served free outs ∧
      Serves cfg r outs w body finished
  | .answered resp => Answered cfg r marks resp
  | .dropped => True

variable {outs : List (Except RpcError Json)} {rs : List (Json × ℕ)} {marks : List Mark}
  {body : Body} {finished : List Json} {free : ℕ}

theorem served_append (out : Option (Except RpcError Json)) :
    served free outs ++ (out.map Mark.outcome).toList = served free (outs ++ out.toList) := by
  cases out <;> simp [served]

theorem Replies.ids (h : Replies vs outs rs) :
    rs.map (fun x => x.1.get "id") = vs.map fun v => some (idOf v) := by
  induction h with
  | nil => rfl
  | malformed h hv ih =>
    rw [List.map_append, List.map_append, ih, List.map_singleton, List.map_singleton,
      ← (id_of_fromValue_error hv).1]
    rfl
  | @dispatched _ _ _ _ req out h hv ih =>
    rw [List.map_append, List.map_append, ih, List.map_singleton, List.map_singleton,
      ← id_of_fromValue_ok hv]
    cases out <;> rfl

theorem faithful_admitted (cfg : Config) (r : HttpRequest) (hfree : 0 < free) :
    Faithful cfg r (served free []) (admitted cfg r) := by
  unfold admitted
  split
  · next hauth =>
    split
    · next hparse => exact .malformed hfree hauth hparse
    · next hparse =>
      refine ⟨free, [], _, [], hfree, rfl, hauth, hparse, rfl, .nil, fun _ => rfl, ?_⟩
      rintro call ⟨⟩
  · next hauth => exact ⟨free, hfree, rfl, Bool.eq_false_iff.mpr hauth⟩

theorem serves_dispatchNext (hcurrent : w.current = none) (htodo : w.todo = v :: todo)
    (h : Serves cfg r outs w body finished) :
    ∃ finished, Serves cfg r (outs ++ (dispatchOutcome cfg app coin v).toList)
      (dispatchNext cfg app w coin v todo).2.1 body finished := by
  obtain ⟨hauth, hparse, hbatch, hdone, hidle, -⟩ := h
  have hitems : Body.items body = (finished ++ [v]) ++ todo := by
    rw [hidle hcurrent, htodo, List.append_assoc, List.singleton_append]
  have hstill : ∀ call, w.current = some call → False := by
    intro call hcall
    rw [hcurrent] at hcall
    cases hcall
  unfold dispatchOutcome
  rcases dispatchNext_cases cfg app w coin v todo with ⟨_, _, hv, heq⟩ |
    ⟨_, _, hv, hgate, heq⟩ | ⟨_, _, _, hv, hgate, hcontrol, heq⟩ | ⟨req, hv, hgate, hcontrol, heq⟩
  · rw [heq, hv, Option.toList_none, List.append_nil]
    exact ⟨finished ++ [v], hauth, hparse, hbatch, hdone.malformed hv, fun _ => hitems,
      fun call hcall => (hstill call hcall).elim⟩
  · rw [heq, hv]
    dsimp only
    rw [hgate]
    exact ⟨finished ++ [v], hauth, hparse, hbatch, hdone.dispatched hv, fun _ => hitems,
      fun call hcall => (hstill call hcall).elim⟩
  · rw [heq, hv]
    dsimp only
    rw [hgate]
    dsimp only
    rw [hcontrol]
    exact ⟨finished ++ [v], hauth, hparse, hbatch, hdone.dispatched hv, fun _ => hitems,
      fun call hcall => (hstill call hcall).elim⟩
  · rw [heq, hv]
    dsimp only
    rw [hgate]
    dsimp only
    rw [hcontrol, Option.map_none, Option.toList_none, List.append_nil]
    refine ⟨finished, hauth, hparse, hbatch, hdone, ?_, ?_⟩
    · rintro ⟨⟩
    · rintro call ⟨⟩
      refine ⟨v, hv, ?_⟩
      rw [hidle hcurrent, htodo]

theorem faithful_next (h : Faithful cfg r marks (.serving w)) :
    Faithful cfg r (marks ++ ((w.nextOutcome cfg app coin).map Mark.outcome).toList)
      (w.next cfg app coin).2.1 := by
  obtain ⟨free, outs, body, finished, hfree, rfl, hserves⟩ := h
  rw [served_append]
  unfold Work.nextOutcome Work.next
  cases hcurrent : w.current with
  | some call =>
    rw [Option.toList_none, List.append_nil]
    exact ⟨free, outs, body, finished, hfree, rfl, hserves⟩
  | none =>
    cases htodo : w.todo with
    | cons v todo =>
      obtain ⟨finished', hnext⟩ := serves_dispatchNext hcurrent htodo hserves
      exact ⟨free, _, body, finished', hfree, rfl, hnext⟩
    | nil =>
      obtain ⟨hauth, hparse, hbatch, hdone, hidle, -⟩ := hserves
      have hitems := hidle hcurrent
      rw [htodo, List.append_nil] at hitems
      rw [← hitems] at hdone
      rw [Option.toList_none, List.append_nil, hbatch]
      exact .replies hfree hauth hparse hdone hdone.ids

theorem faithful_complete {outcome : Except RpcError Json}
    (h : Faithful cfg r marks (.serving w)) :
    Faithful cfg r (marks ++ (w.current.map fun _ => Mark.outcome outcome).toList)
      (w.complete app outcome).2 := by
  obtain ⟨free, outs, body, finished, hfree, rfl, hserves⟩ := h
  unfold Work.complete
  cases hcurrent : w.current with
  | none =>
    rw [Option.map_none, Option.toList_none, List.append_nil]
    exact ⟨free, outs, body, finished, hfree, rfl, hserves⟩
  | some call =>
    obtain ⟨hauth, hparse, hbatch, hdone, -, hbusy⟩ := hserves
    obtain ⟨v, hv, hitems⟩ := hbusy call hcurrent
    refine ⟨free, _, body, finished ++ [v], hfree, served_append (some outcome), hauth, hparse,
      hbatch, hdone.dispatched hv, fun _ => ?_, ?_⟩
    · rw [hitems, List.append_assoc, List.singleton_append]
    · rintro call ⟨⟩

theorem faithful_letIn : Faithful cfg r [.arrived false, .letIn app.workQueue]
    (letIn cfg r app).2 := by
  unfold letIn
  split
  · next hnone =>
    rw [hnone]
    exact Answered.queue
  · next hfree => exact faithful_admitted cfg r (Nat.pos_of_ne_zero hfree)

theorem faithful_turn (h : Faithful cfg r marks phase) :
    Faithful cfg r (marks ++ (turnMark cfg app phase t).toList) (turn cfg r app phase t).2.1 := by
  have hsame : Faithful cfg r (marks ++ (none : Option Mark).toList) phase := by
    rwa [Option.toList_none, List.append_nil]
  cases phase with
  | checked =>
    cases t with
    | letIn =>
      obtain rfl : marks = [.arrived false] := h
      exact faithful_letIn
    | _ => exact hsame
  | sleeping =>
    cases t with
    | wake =>
      obtain ⟨free, hfree, rfl, hauth⟩ := h
      exact Answered.unauthorized hfree hauth
    | disconnect => trivial
    | _ => exact hsame
  | serving w =>
    cases t with
    | next coin => exact faithful_next h
    | complete outcome => exact faithful_complete h
    | disconnect =>
      change Faithful cfg r (marks ++ _) (w.disconnect app).2
      unfold Work.disconnect
      split
      · trivial
      · exact hsame
    | _ => exact hsame
  | answered resp => cases t <;> exact hsame
  | dropped => trivial

/-! ## Reaching a handler -/

/-- The request is let in, the call is one of its body, and the gates let it pass, where the wallet
is of this coin. -/
structure Reaches (cfg : Config) (r : HttpRequest) (coin : Option Coin) (req : RpcRequest) :
    Prop where
  auth : cfg.auth r.authorization = true
  call : ∃ body, parseBody cfg.fromSlice r.body = .ok body ∧
    ∃ v ∈ Body.items body, RpcRequest.fromValue v = .ok req
  served : Served cfg.methods cfg.allowedMethods req.method
  arity : ∀ max, cfg.methods.maxPositionalArgs.lookup req.method = some max →
    req.params.length ≤ max
  coin : ∀ coins coin', cfg.methods.coins.lookup req.method = some coins → coin = some coin' →
    coins.serves coin' = true

theorem reaches_turn (h : Faithful cfg r marks phase)
    (hcall : (turn cfg r app phase t).2.2 = some req) : Reaches cfg r t.coin req := by
  cases phase with
  | serving w =>
    cases t with
    | next coin =>
      change (w.next cfg app coin).2.2 = some req at hcall
      unfold Work.next at hcall
      split at hcall
      · next v todo hcurrent htodo =>
        obtain ⟨_, _, body, finished, -, -, hauth, hparse, -, -, hidle, -⟩ := h
        have hmem : v ∈ Body.items body := by
          rw [hidle hcurrent, htodo]
          exact List.mem_append_right _ List.mem_cons_self
        have hok : RpcRequest.fromValue v = .ok req ∧
            gate cfg.methods cfg.allowedMethods coin req = .ok () := by
          change (dispatchNext cfg app w coin v todo).2.2 = some req at hcall
          rcases dispatchNext_cases cfg app w coin v todo with ⟨_, _, -, heq⟩ |
            ⟨_, _, -, -, heq⟩ | ⟨_, _, _, hv, hgate, -, heq⟩ | ⟨_, hv, hgate, -, heq⟩ <;>
            rw [heq] at hcall <;> cases hcall
          · exact ⟨hv, hgate⟩
          · exact ⟨hv, hgate⟩
        obtain ⟨hserved, harity, hcoin⟩ := served_of_gate hok.2
        exact ⟨hauth, ⟨body, hparse, v, hmem, hok.1⟩, hserved, harity, hcoin⟩
      · cases hcall
      · cases hcall
    | _ => cases hcall
  | _ => cases t <;> cases hcall

/-! ## Runs -/

/-- The commands that are active for the connections. -/
def Server.inProgress (s : Server) : List (ℕ × String) :=
  s.connections.filterMap fun c => c.phase.command

structure Inv (cfg : Config) (s : Server) : Prop where
  permits : s.app.workQueue + s.connections.countP (fun c => c.phase.holdsPermit) =
    cfg.rpc.workQueue
  tracks : Tracks s.inProgress s.app .dropped
  faithful : ∀ c ∈ s.connections, ∃ marks, Faithful cfg c.request marks c.phase
  calls : ∀ call ∈ s.calls, ∃ c, s.connections[call.connection]? = some c ∧
    call.wallet = c.request.wallet ∧ Reaches cfg c.request call.coin call.request

theorem inv_start (cfg : Config) : Inv cfg (.start cfg) where
  permits := rfl
  tracks := ⟨List.Perm.nil, List.nodup_nil, fun _ h => absurd h List.not_mem_nil⟩
  faithful _ h := absurd h List.not_mem_nil
  calls _ h := absurd h List.not_mem_nil

theorem step_turn_of_none {i : ℕ} (hc : s.connections[i]? = none) :
    step cfg s (.turn i t) = s := by
  simp only [step, hc]

theorem step_turn {i : ℕ} {c : Connection} (hc : s.connections[i]? = some c) :
    step cfg s (.turn i t) = ⟨(turn cfg c.request s.app c.phase t).1,
      s.connections.set i { c with phase := (turn cfg c.request s.app c.phase t).2.1 },
      s.calls ++ (turn cfg c.request s.app c.phase t).2.2.toList.map
        fun req => ⟨i, c.request.wallet, t.coin, req⟩⟩ := by
  simp only [step, hc]

theorem exists_split {α : Type*} {l : List α} {i : ℕ} {a : α} (h : l[i]? = some a) :
    ∃ before after, l = before ++ a :: after ∧ ∀ b, l.set i b = before ++ b :: after := by
  obtain ⟨hi, rfl⟩ := List.getElem?_eq_some_iff.mp h
  refine ⟨l.take i, l.drop (i + 1), ?_, fun b => ?_⟩
  · rw [List.getElem_cons_drop, List.take_append_drop]
  · rw [List.set_eq_take_append_cons_drop, if_pos hi]

theorem filterMap_split {α β : Type*} (f : α → Option β) (before after : List α) (a : α) :
    ((before ++ a :: after).filterMap f).Perm
      (before.filterMap f ++ after.filterMap f ++ (f a).toList) := by
  rw [List.filterMap_append, List.append_assoc]
  apply List.Perm.append_left
  rw [List.filterMap_cons]
  cases f a with
  | none => simp
  | some b => exact (List.perm_append_singleton b _).symm

theorem inv_turn {i : ℕ} {c : Connection} (h : Inv cfg s) (hc : s.connections[i]? = some c) :
    Inv cfg (step cfg s (.turn i t)) := by
  obtain ⟨hpermits, htracks, hfaithful, hcalls⟩ := h
  obtain ⟨before, after, hsplit, hset⟩ := exists_split hc
  obtain ⟨marks, hc_faithful⟩ := hfaithful c (List.mem_of_getElem? hc)
  rw [step_turn hc]
  constructor
  · have hkept := permits_turn cfg c.request s.app c.phase t
    simp only [Serve.permits, Bool.toNat, Bool.cond_eq_ite] at hkept
    dsimp only
    rw [hset, List.countP_append, List.countP_cons]
    rw [hsplit, List.countP_append, List.countP_cons] at hpermits
    dsimp only
    omega
  · have hothers : Tracks (before.filterMap (fun c => c.phase.command) ++
        after.filterMap fun c => c.phase.command) s.app c.phase := by
      refine ⟨?_, htracks.nodup, htracks.lt⟩
      have hperm := htracks.perm
      rw [Server.inProgress, hsplit, command_dropped, Option.toList_none, List.append_nil] at hperm
      exact hperm.trans (filterMap_split _ before after c)
    have hnext := tracks_turn cfg c.request t hothers
    refine ⟨hnext.perm.trans ?_, hnext.nodup, hnext.lt⟩
    rw [Server.inProgress, command_dropped, Option.toList_none, List.append_nil]
    dsimp only
    rw [hset]
    exact (filterMap_split (fun c => c.phase.command) before after
      { c with phase := (turn cfg c.request s.app c.phase t).2.1 }).symm
  · intro c' hc'
    rcases List.mem_or_eq_of_mem_set hc' with hold | rfl
    · exact hfaithful c' hold
    · exact ⟨_, faithful_turn hc_faithful⟩
  · intro call hcall
    have hi : i < s.connections.length := (List.getElem?_eq_some_iff.mp hc).1
    rcases List.mem_append.mp hcall with hold | hnew
    · obtain ⟨c', hc', hwallet, hreaches⟩ := hcalls call hold
      by_cases hsame : call.connection = i
      · subst hsame
        rw [hc] at hc'
        cases hc'
        exact ⟨_, List.getElem?_set_self hi, hwallet, hreaches⟩
      · exact ⟨c', by rwa [List.getElem?_set_ne (Ne.symm hsame)], hwallet, hreaches⟩
    · obtain ⟨req, hreq, rfl⟩ := List.mem_map.mp hnew
      exact ⟨_, List.getElem?_set_self hi, rfl,
        reaches_turn hc_faithful (Option.mem_toList.mp hreq)⟩

theorem inv_step (h : Inv cfg s) (e : Event) : Inv cfg (step cfg s e) := by
  cases e with
  | arrive r =>
    obtain ⟨hpermits, htracks, hfaithful, hcalls⟩ := h
    have hrefused : ∀ b : Bool,
        (if b then Phase.answered shutdownRefusal else .checked).holdsPermit = false ∧
        (if b then Phase.answered shutdownRefusal else .checked).command = none ∧
        Faithful cfg r [.arrived b] (if b then .answered shutdownRefusal else .checked) := by
      rintro (_ | _)
      · exact ⟨rfl, rfl, rfl⟩
      · exact ⟨rfl, rfl, Answered.shutdown⟩
    obtain ⟨hholds, hcommand, harrived⟩ := hrefused s.app.shuttingDown
    constructor
    · simpa [step, List.countP_append, hholds] using hpermits
    · simpa [step, Server.inProgress, List.filterMap_append, hcommand] using htracks
    · intro c hc
      rcases List.mem_append.mp hc with hc | hc
      · exact hfaithful c hc
      · rw [List.mem_singleton.mp hc]
        exact ⟨_, harrived⟩
    · intro call hcall
      obtain ⟨c, hc, hrest⟩ := hcalls call hcall
      refine ⟨c, ?_, hrest⟩
      rw [step]
      exact List.getElem?_append_left (List.getElem?_eq_some_iff.mp hc).1 ▸ hc
  | turn i t =>
    cases hc : s.connections[i]? with
    | none => rwa [step_turn_of_none hc]
    | some c => exact inv_turn h hc
  | shutdown =>
    obtain ⟨hpermits, htracks, hfaithful, hcalls⟩ := h
    exact ⟨hpermits, htracks.congr rfl rfl rfl, hfaithful, hcalls⟩
  | tick micros =>
    obtain ⟨hpermits, htracks, hfaithful, hcalls⟩ := h
    exact ⟨hpermits, htracks.congr rfl rfl rfl, hfaithful, hcalls⟩

theorem inv_run (cfg : Config) (es : List Event) : Inv cfg (run (step cfg) (.start cfg) es) :=
  invariant (P := fun _ _ => True) (fun _ e h _ => inv_step h e) (inv_start cfg)
    (along_of_always fun _ _ => trivial)

/-! ## What a request meets along a run -/

/-- In every state a server reaches, the permits are those that no connection holds, so no more
requests than the work queue has are at work, and the active commands are the calls in progress,
each once. -/
theorem permits_and_commands (cfg : Config) (es : List Event) :
    (run (step cfg) (.start cfg) es).connections.countP (fun c => c.phase.holdsPermit) +
      (run (step cfg) (.start cfg) es).app.workQueue = cfg.rpc.workQueue ∧
    ((run (step cfg) (.start cfg) es).app.active.map fun a => (a.id, a.method)).Perm
      (run (step cfg) (.start cfg) es).inProgress ∧
    ((run (step cfg) (.start cfg) es).app.active.map ActiveCommand.id).Nodup := by
  obtain ⟨hpermits, htracks, -, -⟩ := inv_run cfg es
  refine ⟨by rwa [Nat.add_comm], ?_, htracks.nodup⟩
  have hperm := htracks.perm
  rwa [command_dropped, Option.toList_none, List.append_nil] at hperm

/-- A handler is only ever reached by a call in the body of a request with a configured login and a
password, for a method that the server serves and that serves the coin of the wallet, with no more
parameters than it takes. -/
theorem serves_configured {drawn : Auth.Drawn}
    {writeCookie : Zecd.Config.Path → List Char → Except String Unit}
    (ha : Auth.Authenticator.fromConfig cfg.crypto writeCookie drawn cfg.rpc =
      .ok cfg.authenticator)
    (hdrawn : drawn.password ≠ [])
    (hmac : ∀ p ≠ [], cfg.crypto.mac (Hex.encode drawn.salt) p ≠
      cfg.crypto.mac (Hex.encode drawn.salt) []) (es : List Event) :
    ∀ call ∈ (run (step cfg) (.start cfg) es).calls, ∃ c user password,
      (run (step cfg) (.start cfg) es).connections[call.connection]? = some c ∧
      call.wallet = c.request.wallet ∧
      Auth.credentials cfg.crypto c.request.authorization = some (user, password) ∧
      Auth.Configured cfg.crypto drawn cfg.rpc user password ∧ password ≠ [] ∧
      Reaches cfg c.request call.coin call.request := by
  intro call hcall
  obtain ⟨c, hc, hwallet, hreaches⟩ := (inv_run cfg es).calls call hcall
  obtain ⟨user, password, hcreds, hlogin⟩ := (Auth.login_iff ha).mp hreaches.auth
  refine ⟨c, user, password, hc, hwallet, hcreds, hlogin, ?_, hreaches⟩
  rintro rfl
  exact Auth.not_configured_nil ha hdrawn hmac hlogin

/-! ## One request -/

def helpBody : List UInt8 :=
  [123, 34, 109, 101, 116, 104, 111, 100, 34, 58, 34, 104, 101, 108, 112, 34, 125]

def helpCall : Json := .object [("method", .string "help")]

/-- A server with one line, for the login of the request. -/
def oneLineServer : Config where
  rpc := Auth.oneLine
  regtest := false
  methods := zecd
  crypto := Auth.counted
  authenticator := ⟨[("u".toList, Auth.PasswordHash.fromBare Auth.counted
      Auth.countedBytes.salt "p".toList), ("v".toList, Auth.PasswordHash.fromBare Auth.counted
      Auth.countedBytes.salt "p".toList)]⟩
  fromSlice bytes :=
    if bytes = helpBody then .ok helpCall else .error "EOF while parsing a value at line 1 column 0"

def helpRequest : HttpRequest := ⟨none, some ("Basic ".toList ++ "dTpw".toList), helpBody⟩

def helpEvents : List Event :=
  [.arrive helpRequest, .turn 0 .letIn, .turn 0 (.next none), .turn 0 (.next none)]

theorem auth_helpRequest : oneLineServer.auth helpRequest.authorization = true := by
  have hcreds : Auth.credentials Auth.counted helpRequest.authorization =
      some ("u".toList, "p".toList) := Auth.credentials_basic rfl (by decide)
  apply Auth.check_eq_true.mpr
  exact ⟨_, _, hcreds, _, List.mem_cons_self, by decide⟩

theorem run_helpEvents : run (step oneLineServer) (.start oneLineServer) helpEvents =
    ⟨⟨false, 100, [], 1, 0⟩,
      [⟨helpRequest, .answered (.json 200 (success .null (.string help)))⟩],
      [⟨0, none, none, ⟨.null, "help", []⟩⟩]⟩ := by
  have hadmitted : admitted oneLineServer helpRequest = .serving ⟨false, [helpCall], none, []⟩ := by
    rw [admitted, if_pos auth_helpRequest]
    rfl
  have hletIn : letIn oneLineServer helpRequest ⟨false, 100, [], 0, 0⟩ =
      (⟨false, 99, [], 0, 0⟩, .serving ⟨false, [helpCall], none, []⟩) := by
    rw [letIn, hadmitted]
    rfl
  have hfirst : step oneLineServer (step oneLineServer (.start oneLineServer) (.arrive helpRequest))
      (.turn 0 .letIn) = ⟨⟨false, 99, [], 0, 0⟩,
        [⟨helpRequest, .serving ⟨false, [helpCall], none, []⟩⟩], []⟩ := by
    change Server.mk (letIn oneLineServer helpRequest ⟨false, 100, [], 0, 0⟩).1
      [⟨helpRequest, (letIn oneLineServer helpRequest ⟨false, 100, [], 0, 0⟩).2⟩] [] = _
    rw [hletIn]
  rw [helpEvents, run_cons, run_cons, hfirst]
  rfl

theorem serves_configured_help :
    ∃ call ∈ (run (step oneLineServer) (.start oneLineServer) helpEvents).calls, ∃ c user password,
      (run (step oneLineServer) (.start oneLineServer) helpEvents).connections[call.connection]? =
        some c ∧ call.wallet = c.request.wallet ∧
      Auth.credentials oneLineServer.crypto c.request.authorization = some (user, password) ∧
      Auth.Configured oneLineServer.crypto Auth.countedBytes oneLineServer.rpc user password ∧
      password ≠ [] ∧ Reaches oneLineServer c.request call.coin call.request := by
  have hconfig : Auth.Authenticator.fromConfig oneLineServer.crypto (fun _ _ => .ok ())
      Auth.countedBytes oneLineServer.rpc = .ok oneLineServer.authenticator := rfl
  have hmem : (⟨0, none, none, ⟨.null, "help", []⟩⟩ : Call) ∈
      (run (step oneLineServer) (.start oneLineServer) helpEvents).calls := by
    rw [run_helpEvents]
    exact List.mem_singleton_self _
  exact ⟨_, hmem, serves_configured hconfig (by decide) Auth.counted_mac_ne helpEvents _ hmem⟩

/-! ## Past a shutdown -/

theorem shuttingDown_dispatchNext (h : app.shuttingDown = true) :
    (dispatchNext cfg app w coin v todo).1.shuttingDown = true := by
  rcases dispatchNext_cases cfg app w coin v todo with ⟨_, _, -, heq⟩ | ⟨_, _, -, -, heq⟩ |
    ⟨_, _, _, -, -, hcontrol, heq⟩ | ⟨_, -, -, -, heq⟩ <;> rw [heq]
  · exact h
  · exact h
  · rcases control_cases hcontrol with rfl | rfl
    · exact h
    · rfl
  · exact h

theorem shuttingDown_turn (h : app.shuttingDown = true) :
    (turn cfg r app phase t).1.shuttingDown = true := by
  cases phase with
  | checked =>
    cases t with
    | letIn =>
      change (letIn cfg r app).1.shuttingDown = true
      unfold letIn
      split
      · exact h
      · dsimp only
        split <;> exact h
    | _ => exact h
  | serving w =>
    cases t with
    | next coin =>
      change (w.next cfg app coin).1.shuttingDown = true
      unfold Work.next
      split
      · exact shuttingDown_dispatchNext h
      · exact h
      · exact h
    | complete outcome =>
      change (w.complete app outcome).1.shuttingDown = true
      unfold Work.complete
      split <;> exact h
    | disconnect =>
      change (w.disconnect app).1.shuttingDown = true
      unfold Work.disconnect
      split <;> exact h
    | _ => exact h
  | _ => cases t <;> exact h

theorem turn_answered (resp : Response) :
    turn cfg r app (.answered resp) t = (app, .answered resp, none) := by
  cases t <;> rfl

/-- The server shuts down, and whatever came behind the first connections was turned away. -/
structure Down (n : ℕ) (s : Server) : Prop where
  flag : s.app.shuttingDown = true
  length : n ≤ s.connections.length
  refused : ∀ i c, n ≤ i → s.connections[i]? = some c → c.phase = .answered shutdownRefusal
  calls : ∀ call ∈ s.calls, call.connection < n

theorem down_step {n : ℕ} (h : Down n s) (e : Event) : Down n (step cfg s e) := by
  obtain ⟨hflag, hlength, hrefused, hcalls⟩ := h
  cases e with
  | arrive r =>
    refine ⟨hflag, ?_, ?_, hcalls⟩
    · rw [step, List.length_append]
      exact hlength.trans (Nat.le_add_right _ _)
    · intro i c hi hc
      rw [step] at hc
      by_cases hlt : i < s.connections.length
      · rw [List.getElem?_append_left hlt] at hc
        exact hrefused i c hi hc
      · rw [List.getElem?_append_right (not_lt.mp hlt)] at hc
        rw [List.mem_singleton.mp (List.mem_of_getElem? hc), hflag]
        rfl
  | turn j t =>
    cases hc : s.connections[j]? with
    | none =>
      rw [step_turn_of_none hc]
      exact ⟨hflag, hlength, hrefused, hcalls⟩
    | some c =>
      have hj : j < s.connections.length := (List.getElem?_eq_some_iff.mp hc).1
      rw [step_turn hc]
      refine ⟨shuttingDown_turn hflag, by rwa [List.length_set], ?_, ?_⟩
      · intro i c' hi hc'
        by_cases hji : j = i
        · subst hji
          rw [List.getElem?_set_self hj] at hc'
          cases hc'
          rw [hrefused j c hi hc, turn_answered]
        · rw [List.getElem?_set_ne hji] at hc'
          exact hrefused i c' hi hc'
      · intro call hcall
        rcases List.mem_append.mp hcall with hold | hnew
        · exact hcalls call hold
        · obtain ⟨req, hreq, rfl⟩ := List.mem_map.mp hnew
          by_contra hn
          rw [hrefused j c (not_lt.mp hn) hc, turn_answered] at hreq
          cases hreq
  | shutdown => exact ⟨rfl, hlength, hrefused, hcalls⟩
  | tick micros => exact ⟨hflag, hlength, hrefused, hcalls⟩

theorem down_of_shutdown {before : List Event}
    (hdown : (run (step cfg) (.start cfg) before).app.shuttingDown = true) :
    Down (run (step cfg) (.start cfg) before).connections.length
      (run (step cfg) (.start cfg) before) := by
  refine ⟨hdown, le_rfl, ?_, ?_⟩
  · intro j c hj hc
    rw [List.getElem?_eq_none hj] at hc
    cases hc
  · intro call hcall
    obtain ⟨c, hc, -⟩ := (inv_run cfg before).calls call hcall
    exact (List.getElem?_eq_some_iff.mp hc).1

/-! ### What was let in goes on -/

/-- The server as if it had not been asked to shut down. -/
def Server.up (s : Server) : Server := { s with app := { s.app with shuttingDown := false } }

/-- Two servers with one safelist, whose methods agree on it, do the same in every run: what a
safelist hides cannot be told from what does not exist. -/
theorem hidden_as_absent (cfg : Config) (m : Methods) (hne : cfg.allowedMethods ≠ [])
    (hagree : cfg.methods.AgreeOn m cfg.allowedMethods) (s : Server) (es : List Event) :
    run (step cfg) s es = run (step { cfg with methods := m }) s es := by
  have hnext : ∀ app w coin v todo, dispatchNext cfg app w coin v todo =
      dispatchNext { cfg with methods := m } app w coin v todo := by
    intro app w coin v todo
    unfold dispatchNext
    cases RpcRequest.fromValue v with
    | error refused => rfl
    | ok req =>
      dsimp only
      rw [gate_congr hne hagree]
      rfl
  have hturn : ∀ r app phase t, turn cfg r app phase t =
      turn { cfg with methods := m } r app phase t := by
    intro r app phase t
    cases phase with
    | serving w =>
      cases t with
      | next coin =>
        change w.next cfg app coin = w.next { cfg with methods := m } app coin
        unfold Work.next
        split
        · rw [hnext]
        · rfl
        · rfl
      | _ => rfl
    | _ => cases t <;> rfl
  have hstep : step cfg = step { cfg with methods := m } := by
    funext s e
    cases e with
    | turn i t =>
      unfold step
      dsimp only
      cases s.connections[i]? with
      | none => rfl
      | some c =>
        dsimp only
        rw [hturn]
    | _ => rfl
  rw [hstep]

/-- A server with one line, whose safelist has `help` alone. -/
def onlyHelp : Config :=
  { oneLineServer with rpc := { Auth.oneLine with allowedMethods := ["help".toList] } }

def helpAlone : Methods := ⟨["help"], [("help", 1)], [("help", .all)]⟩

theorem hidden_as_absent_help : onlyHelp.allowedMethods ≠ [] ∧
    onlyHelp.methods.AgreeOn helpAlone onlyHelp.allowedMethods ∧
    run (step onlyHelp) (.start onlyHelp) helpEvents =
      run (step { onlyHelp with methods := helpAlone }) (.start onlyHelp) helpEvents := by
  have hne : onlyHelp.allowedMethods ≠ [] := by decide
  have hagree : onlyHelp.methods.AgreeOn helpAlone onlyHelp.allowedMethods := by
    constructor <;> decide
  exact ⟨hne, hagree, hidden_as_absent onlyHelp helpAlone hne hagree _ _⟩

end Zecd.Serve
