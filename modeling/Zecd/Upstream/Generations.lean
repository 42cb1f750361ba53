import Zecd.Upstream.ChainHub

/-! # Connection generations

A handle keeps the generation of the connection it was issued for. Caches filled over a
connection are served to its own generation only, and a failure reported against a generation
touches nothing of another one.
-/

namespace Zecd.ChainHub

open Runs Upstream

/-! ## The statement -/

def State.dials (s : State) : Event → ℕ
  | .dialed i true => if s.calls[i]? = some .acquire then 1 else 0
  | _ => 0

/-- The generation grows with each successful dial, and the report of a failure drops only its
own generation's connection and mempool subscription. -/
structure KeepsGenerations (s : State) (e : Event) : Prop where
  generation : (step s e).conn.generation = s.conn.generation + s.dials e
  connection : ∀ i g dropped, e = .resume i → s.calls[i]? = some (.invalidate g dropped) →
    (step s e).conn ≠ s.conn → s.conn.source = some g ∧ s.conn.generation = g
  pump : ∀ i g dropped, e = .resume i → s.calls[i]? = some (.invalidate g dropped) →
    (step s e).mempool ≠ s.mempool → s.mempool.generation = g

/-- What was served from a cache came over the connection of the handle's generation. -/
def Served.FromOwn : Served → Prop
  | .tip generation a => a.dial = generation
  | .info generation a => a.dial = generation
  | .roots generation a => a.dial = generation
  | .tx _ _ _ => True

/-! ## The invariant -/

namespace Call

/-- The handle a call was made on. -/
def source : Call → Option HubSource
  | .acquire | .invalidate _ _ => none
  | .latestBlock h _ | .serverInfo h _ | .subtreeRoots h _ _ | .refreshServerInfo h _
  | .fetchTx h _ _ | .subscribeMempool h => some h

def dial : Call → Option ℕ
  | .acquire | .invalidate _ _ | .subscribeMempool _ => none
  | .latestBlock _ a => a.map Answer.dial
  | .serverInfo _ a | .refreshServerInfo _ a => a.map Answer.dial
  | .subtreeRoots _ _ a => a.map Answer.dial
  | .fetchTx _ _ a => a.map Answer.dial

/-- A call's handle is on the dial of its generation, its answer came over it, and the
information cache it holds was reset for it. -/
structure Own (info : ℕ) (c : Call) : Prop where
  handle : ∀ h ∈ c.source, h.inner = h.generation
  answer : ∀ h ∈ c.source, ∀ o ∈ c.dial, o = h.generation
  cache : c.holdsInfo = true → ∀ h ∈ c.source, info = h.generation

end Call

structure Inv (s : State) : Prop where
  conn : ∀ c ∈ s.conn.source, c = s.conn.generation
  connects : s.conn.generation = s.connects
  handles : ∀ h ∈ s.handles, h.inner = h.generation
  calls : ∀ c ∈ s.calls, c.Own s.info.generation
  tip : ∀ a ∈ s.tip.tip, a.dial = s.tip.generation
  info : ∀ a ∈ s.info.serverInfo, a.dial = s.info.generation
  roots : ∀ pool, ∀ a ∈ s.info.roots pool, a.dial = s.info.generation
  served : ∀ x ∈ s.served, x.FromOwn

theorem start_inv (chain : Chain) : Inv (.start chain) := by
  constructor <;> simp [State.start]

variable {s : State} {h : HubSource} {i : ℕ}

namespace Inv

theorem push (hi : Inv s) {c : Call} (hc : c.Own s.info.generation) : Inv (s.push c) where
  conn := hi.conn
  connects := hi.connects
  handles := hi.handles
  calls := by
    intro c' hc'
    rcases List.mem_append.mp hc' with hc' | hc'
    · exact hi.calls c' hc'
    · exact List.mem_singleton.mp hc' ▸ hc
  tip := hi.tip
  info := hi.info
  roots := hi.roots
  served := hi.served

theorem drop (hi : Inv s) (i : ℕ) : Inv (s.drop i) where
  conn := hi.conn
  connects := hi.connects
  handles := hi.handles
  calls := fun c hc => hi.calls c (List.mem_of_mem_eraseIdx hc)
  tip := hi.tip
  info := hi.info
  roots := hi.roots
  served := hi.served

theorem serve (hi : Inv s) {x : Served} (hx : x.FromOwn) : Inv (s.serve x) where
  conn := hi.conn
  connects := hi.connects
  handles := hi.handles
  calls := hi.calls
  tip := hi.tip
  info := hi.info
  roots := hi.roots
  served := by
    intro y hy
    rcases List.mem_append.mp hy with hy | hy
    · exact hi.served y hy
    · exact List.mem_singleton.mp hy ▸ hx

theorem set (hi : Inv s) {c : Call} (hc : c.Own s.info.generation) :
    Inv { s with calls := s.calls.set i c } where
  conn := hi.conn
  connects := hi.connects
  handles := hi.handles
  calls := by
    intro c' hc'
    rcases List.mem_or_eq_of_mem_set hc' with hc' | rfl
    · exact hi.calls c' hc'
    · exact hc
  tip := hi.tip
  info := hi.info
  roots := hi.roots
  served := hi.served

theorem frame (hi : Inv s) {s' : State} (hconn : s'.conn = s.conn)
    (hconnects : s'.connects = s.connects) (hhandles : s'.handles = s.handles)
    (hcalls : s'.calls = s.calls) (htip : s'.tip = s.tip) (hinfo : s'.info = s.info)
    (hserved : s'.served = s.served) : Inv s' := by
  obtain ⟨h₁, h₂, h₃, h₄, h₅, h₆, h₇, h₈⟩ := hi
  exact ⟨hconn ▸ h₁, by rw [hconn, hconnects, h₂], hhandles ▸ h₃, by rw [hcalls, hinfo]; exact h₄,
    htip ▸ h₅, hinfo ▸ h₆, hinfo ▸ h₇, hserved ▸ h₈⟩

theorem issue (hi : Inv s) : Inv s.issue := by
  unfold State.issue
  split
  · next source hsource =>
    refine ⟨hi.conn, hi.connects, ?_, hi.calls, hi.tip, hi.info, hi.roots, hi.served⟩
    intro h hh
    rcases List.mem_append.mp hh with hh | hh
    · exact hi.handles h hh
    · rw [List.mem_singleton.mp hh]
      exact hi.conn source hsource
  · exact hi

theorem acquire (hi : Inv s) : Inv s.acquire := by
  unfold State.acquire
  split
  · exact hi
  · split
    · exact hi.issue
    · exact hi.push ⟨nofun, nofun, nofun⟩

theorem dialed (hi : Inv s) (i : ℕ) (ok : Bool) : Inv (s.dialed i ok) := by
  unfold State.dialed
  split
  · split
    · have hd := hi.drop i
      apply issue
      refine ⟨?_, ?_, hd.handles, hd.calls, hd.tip, hd.info, hd.roots, hd.served⟩
      · rintro c ⟨⟩
        exact congrArg (· + 1) hi.connects.symm
      · exact congrArg (· + 1) hi.connects
    · exact hi.drop i
  · exact hi

theorem latestBlock (hi : Inv s) (hh : h.inner = h.generation) (expired : Bool) :
    Inv (s.latestBlock h expired) := by
  have hown : (Call.latestBlock h none).Own s.info.generation :=
    ⟨by rintro _ ⟨⟩; exact hh, nofun, nofun⟩
  unfold State.latestBlock
  split
  · exact hi
  · split
    · next a ha =>
      split
      · next hfresh =>
        apply hi.serve
        exact (hi.tip a ha).trans hfresh.1
      · exact hi.push hown
    · exact hi.push hown

theorem resetInfo (hi : Inv s) (hfree : s.calls.any Call.holdsInfo = false) (h : HubSource) :
    Inv (s.resetInfo h) ∧ (s.resetInfo h).info.generation = h.generation := by
  unfold State.resetInfo
  split
  · next hgen => exact ⟨hi, hgen⟩
  · refine ⟨⟨hi.conn, hi.connects, hi.handles, ?_, hi.tip, nofun, nofun, hi.served⟩, rfl⟩
    intro c hc
    obtain ⟨hhandle, hanswer, -⟩ := hi.calls c hc
    refine ⟨hhandle, hanswer, fun hholds => ?_⟩
    exact absurd hholds (List.any_eq_false.mp hfree c hc)

theorem getServerInfo (hi : Inv s) (hh : h.inner = h.generation) : Inv (s.getServerInfo h) := by
  unfold State.getServerInfo
  split
  · exact hi
  · next hfree =>
    obtain ⟨hr, hgen⟩ := hi.resetInfo (Bool.eq_false_iff.mpr hfree) h
    split
    · next a ha =>
      apply hi.serve
      exact (hr.info a ha).trans hgen
    · exact hr.push ⟨by rintro _ ⟨⟩; exact hh, nofun, by rintro - _ ⟨⟩; exact hgen⟩

theorem subtreeRoots (hi : Inv s) (hh : h.inner = h.generation) (pool : ShieldedPool) :
    Inv (s.subtreeRoots h pool) := by
  unfold State.subtreeRoots
  split
  · exact hi
  · next hfree =>
    obtain ⟨hr, hgen⟩ := hi.resetInfo (Bool.eq_false_iff.mpr hfree) h
    split
    · next a ha =>
      apply hi.serve
      exact (hr.roots pool a ha).trans hgen
    · exact hr.push ⟨by rintro _ ⟨⟩; exact hh, nofun, by rintro - _ ⟨⟩; exact hgen⟩

theorem fetchTx (hi : Inv s) (hh : h.inner = h.generation) (txid : TxId) :
    Inv (s.fetchTx h txid) := by
  unfold State.fetchTx
  split
  · refine serve ?_ ?_
    · exact hi.frame rfl rfl rfl rfl rfl rfl rfl
    · trivial
  · exact hi.push ⟨by rintro _ ⟨⟩; exact hh, nofun, nofun⟩

theorem subscribeMempool (hi : Inv s) (hh : h.inner = h.generation) :
    Inv (s.subscribeMempool h) := by
  have hown : (Call.subscribeMempool h).Own s.info.generation :=
    ⟨by rintro _ ⟨⟩; exact hh, nofun, nofun⟩
  have hsuperseded : ∀ m : MempoolHub, Inv { s with mempool := m } := fun _ =>
    hi.frame rfl rfl rfl rfl rfl rfl rfl
  unfold State.subscribeMempool
  split
  · exact hi
  · dsimp only
    split
    · split
      · exact hsuperseded _
      · exact (hsuperseded _).push hown
    · split
      · exact hi
      · exact hi.push hown

theorem invalidate (hi : Inv s) (i generation : ℕ) (dropped : Bool) :
    Inv (s.invalidate i generation dropped) := by
  unfold State.invalidate
  split
  · split
    · exact hi
    · dsimp only
      split
      · exact (hi.drop i).frame rfl rfl rfl rfl rfl rfl rfl
      · exact (hi.drop i).frame rfl rfl rfl rfl rfl rfl rfl
  · split
    · exact hi
    · split
      · exact hi.drop i
      · have hset : Inv { s with calls := s.calls.set i (.invalidate generation true) } :=
          hi.set ⟨nofun, nofun, nofun⟩
        exact ⟨nofun, hset.connects, hset.handles, hset.calls, hset.tip, hset.info, hset.roots,
          hset.served⟩

/-- A stored answer came over the connection of the call's handle. -/
theorem dial_eq (hi : Inv s) {c : Call} (hc : s.calls[i]? = some c) (hh : c.source = some h) :
    ∀ o ∈ c.dial, o = h.generation :=
  (hi.calls c (List.mem_of_getElem? hc)).answer h hh

theorem resume (hi : Inv s) (i : ℕ) : Inv (s.resume i) := by
  have hd := hi.drop i
  unfold State.resume
  split
  · next h a hc =>
    unfold State.noteTip
    split
    all_goals
      refine ⟨hd.conn, hd.connects, hd.handles, hd.calls, ?_, hd.info, hd.roots, hd.served⟩
      rintro _ ⟨⟩
      exact hi.dial_eq hc rfl _ rfl
  · next h a hc =>
    refine ⟨hd.conn, hd.connects, hd.handles, hd.calls, hd.tip, ?_, hd.roots, hd.served⟩
    rintro _ ⟨⟩
    exact (hi.dial_eq hc rfl _ rfl).trans
      ((hi.calls _ (List.mem_of_getElem? hc)).cache rfl h rfl).symm
  · next h pool a hc =>
    refine ⟨hd.conn, hd.connects, hd.handles, hd.calls, hd.tip, hd.info, ?_, hd.served⟩
    intro pool' b hb
    change b ∈ Function.update s.info.roots pool (some a) pool' at hb
    by_cases hp : pool' = pool
    · obtain rfl := hp
      rw [Function.update_self] at hb
      obtain rfl := Option.some.inj hb
      exact (hi.dial_eq hc rfl _ rfl).trans
        ((hi.calls _ (List.mem_of_getElem? hc)).cache rfl h rfl).symm
    · rw [Function.update_of_ne hp] at hb
      exact hi.roots pool' b hb
  · next h a hc =>
    split
    · exact hi
    · split
      · next hgen =>
        refine ⟨hd.conn, hd.connects, hd.handles, hd.calls, hd.tip, ?_, hd.roots, hd.served⟩
        rintro _ ⟨⟩
        exact (hi.dial_eq hc rfl _ rfl).trans hgen.symm
      · exact hd
  · split
    · exact hd.frame rfl rfl rfl rfl rfl rfl rfl
    · exact hd
  · exact hd.frame rfl rfl rfl rfl rfl rfl rfl
  · exact hi.invalidate i _ _
  · exact hi

theorem respond (hi : Inv s) (i : ℕ) (info : ServerInfo) (roots : List SubtreeRootInfo) :
    Inv (s.respond i info roots) := by
  unfold State.respond
  split
  all_goals first
    | exact hi
    | next hc =>
      obtain ⟨hhandle, -, hcache⟩ := hi.calls _ (List.mem_of_getElem? hc)
      refine hi.set ⟨hhandle, ?_, hcache⟩
      rintro _ ⟨⟩ _ ⟨⟩
      exact hhandle _ rfl

theorem fail (hi : Inv s) (i : ℕ) : Inv (s.fail i) := by
  unfold State.fail
  split
  all_goals first
    | exact hi
    | exact (hi.drop i).push ⟨nofun, nofun, nofun⟩

theorem onHandle (hi : Inv s) {k : ℕ} {call : HubSource → State}
    (hcall : ∀ h, h.inner = h.generation → Inv (call h)) : Inv (s.onHandle k call) := by
  unfold State.onHandle
  split
  · next h hh => exact hcall h (hi.handles h (List.mem_of_getElem? hh))
  · exact hi

end Inv

theorem step_inv (s : State) (e : Event) (hi : Inv s) : Inv (step s e) := by
  cases e with
  | switch chain => exact hi.frame rfl rfl rfl rfl rfl rfl rfl
  | acquire => exact hi.acquire
  | dialed i ok => exact hi.dialed i ok
  | latestBlock k expired => exact hi.onHandle fun h hh => hi.latestBlock hh expired
  | serverInfo k => exact hi.onHandle fun h hh => hi.getServerInfo hh
  | subtreeRoots k pool => exact hi.onHandle fun h hh => hi.subtreeRoots hh pool
  | refreshServerInfo k =>
    exact hi.onHandle fun h hh => hi.push ⟨by rintro _ ⟨⟩; exact hh, nofun, nofun⟩
  | fetchTx k txid => exact hi.onHandle fun h hh => hi.fetchTx hh txid
  | subscribeMempool k => exact hi.onHandle fun h hh => hi.subscribeMempool hh
  | passthroughFails k => exact hi.onHandle fun h _ => hi.push ⟨nofun, nofun, nofun⟩
  | respond i info roots => exact hi.respond i info roots
  | resume i => exact hi.resume i
  | fail i => exact hi.fail i
  | cancel i => exact hi.drop i
  | pumpEnds => exact hi.frame rfl rfl rfl rfl rfl rfl rfl

/-! ## Steps -/

theorem issue_conn : s.issue.conn = s.conn := by
  unfold State.issue
  split
  · rfl
  · rfl

theorem onHandle_conn {k : ℕ} {call : HubSource → State} (h : ∀ h, (call h).conn = s.conn) :
    (s.onHandle k call).conn = s.conn := by
  unfold State.onHandle
  split
  · exact h _
  · rfl

theorem resetInfo_conn (h : HubSource) : (s.resetInfo h).conn = s.conn := by
  unfold State.resetInfo
  split
  · rfl
  · rfl

theorem resume_generation : (s.resume i).conn.generation = s.conn.generation := by
  unfold State.resume State.noteTip State.invalidate
  repeat' split
  all_goals rfl

theorem step_generation (s : State) (e : Event) :
    (step s e).conn.generation = s.conn.generation + s.dials e := by
  cases e with
  | dialed i ok =>
    simp only [step, State.dialed, State.dials]
    split
    · next hc =>
      cases ok with
      | true =>
        simp only [if_true, issue_conn, hc]
      | false => simp [State.drop]
    · next hc => cases ok <;> simp [hc]
  | acquire =>
    simp only [step, State.acquire, State.dials]
    repeat' split
    · rfl
    · rw [issue_conn]
      rfl
    · rfl
  | latestBlock k expired =>
    refine congrArg Conn.generation (onHandle_conn fun h => ?_)
    unfold State.latestBlock
    repeat' split
    all_goals rfl
  | serverInfo k =>
    refine congrArg Conn.generation (onHandle_conn fun h => ?_)
    unfold State.getServerInfo
    repeat' split
    · rfl
    · rfl
    · exact resetInfo_conn h
  | subtreeRoots k pool =>
    refine congrArg Conn.generation (onHandle_conn fun h => ?_)
    unfold State.subtreeRoots
    repeat' split
    · rfl
    · rfl
    · exact resetInfo_conn h
  | refreshServerInfo k => exact congrArg Conn.generation (onHandle_conn fun h => rfl)
  | fetchTx k txid =>
    refine congrArg Conn.generation (onHandle_conn fun h => ?_)
    unfold State.fetchTx
    split
    · rfl
    · rfl
  | subscribeMempool k =>
    refine congrArg Conn.generation (onHandle_conn fun h => ?_)
    unfold State.subscribeMempool
    dsimp only
    repeat' split
    all_goals rfl
  | passthroughFails k => exact congrArg Conn.generation (onHandle_conn fun h => rfl)
  | respond i info roots =>
    simp only [step, State.respond, State.dials]
    split
    all_goals rfl
  | resume i => exact resume_generation
  | fail i =>
    simp only [step, State.fail, State.dials]
    split
    all_goals rfl
  | switch | cancel | pumpEnds => rfl

theorem resume_invalidate {g : ℕ} {dropped : Bool}
    (hc : s.calls[i]? = some (.invalidate g dropped)) :
    s.resume i = s.invalidate i g dropped := by
  unfold State.resume
  rw [hc]

/-- A failure report drops the connection only when it is the reported generation's. -/
theorem invalidate_conn {g : ℕ} {dropped : Bool} (hi : Inv s)
    (h : (s.invalidate i g dropped).conn ≠ s.conn) :
    s.conn.source = some g ∧ s.conn.generation = g := by
  unfold State.invalidate at h
  split at h
  · split at h
    · exact absurd rfl h
    · split at h
      · exact absurd rfl h
      · exact absurd rfl h
  · split at h
    · exact absurd rfl h
    · split at h
      · exact absurd rfl h
      · next hlive =>
        rw [not_or, not_not] at hlive
        obtain ⟨c, hc⟩ := Option.ne_none_iff_exists'.mp hlive.2
        have hown := hi.conn c hc
        exact ⟨by rw [hc, hown, hlive.1], hlive.1⟩

theorem invalidate_mempool {g : ℕ} {dropped : Bool}
    (h : (s.invalidate i g dropped).mempool ≠ s.mempool) : s.mempool.generation = g := by
  unfold State.invalidate at h
  split at h
  · split at h
    · exact absurd rfl h
    · dsimp only at h
      split at h
      · next hgen => exact hgen
      · exact absurd rfl h
  · repeat' split at h
    all_goals exact absurd rfl h

theorem keepsGenerations {s : State} (hi : Inv s) (e : Event) : KeepsGenerations s e := by
  refine ⟨step_generation s e, ?_, ?_⟩
  · rintro i g dropped rfl hc hconn
    change (s.resume i).conn ≠ s.conn at hconn
    rw [resume_invalidate hc] at hconn
    exact invalidate_conn hi hconn
  · rintro i g dropped rfl hc hpump
    change (s.resume i).mempool ≠ s.mempool at hpump
    rw [resume_invalidate hc] at hpump
    exact invalidate_mempool hpump

/-! ## Runs -/

/-- In every interleaving of calls on handles of any generations, the generation counts the
successful dials, a failure reported against a generation touches no other one, and what a handle
is served from a cache was fetched over the connection of its generation. -/
theorem generations_kept (chain : Chain) (es : List Event) :
    Along step KeepsGenerations (.start chain) es ∧
      (run step (.start chain) es).conn.generation = (run step (.start chain) es).connects ∧
      ∀ x ∈ (run step (.start chain) es).served, x.FromOwn := by
  have halways : Along step (fun _ _ => True) (.start chain) es :=
    along_of_always fun _ _ => trivial
  have hinv : Inv (run step (.start chain) es) :=
    invariant (fun s e hi _ => step_inv s e hi) (start_inv chain) halways
  refine ⟨?_, hinv.connects, hinv.served⟩
  exact along_imp (fun s e hi _ => step_inv s e hi) (fun s e hi _ => keepsGenerations hi e)
    (start_inv chain) halways

end Zecd.ChainHub
