import Zecd.Upstream.ChainHub

/-! # The age of cached transactions

A noted tip change empties the transaction cache, but a fetch takes the cache's lock only to
store. What it then stores may have been answered before the change. Every transaction served
from the cache was answered after the last tip change noted, if no fetch stores such an answer.
-/

namespace Zecd.ChainHub

open Runs Upstream

/-! ## The statement -/

/-- The transaction was given after the last tip change noted when it was served, so by a chain
that was not replaced before the tip of that change. -/
def Served.Fresh : Served → Prop
  | .tx a changes observed => a.changes = changes ∧ observed ≤ a.forks
  | .tip _ _ | .info _ _ | .roots _ _ => True

/-- The call is no fetch with an answer given before the last tip change noted. -/
def Call.prompt (s : State) : Call → Bool
  | .fetchTx _ _ (some a) => a.value.isNone || a.changes == s.changes
  | _ => true

/-- A fetch does not store an answer given before the last tip change noted. -/
def StoresPromptly (s : State) : Event → Prop
  | .resume i => s.calls[i]?.all (Call.prompt s) = true
  | _ => True

instance (s : State) : (e : Event) → Decidable (StoresPromptly s e)
  | .resume i => inferInstanceAs (Decidable (s.calls[i]?.all (Call.prompt s) = true))
  | .switch _ | .acquire | .dialed _ _ | .latestBlock _ _ | .serverInfo _ | .subtreeRoots _ _
  | .refreshServerInfo _ | .fetchTx _ _ | .subscribeMempool _ | .passthroughFails _
  | .respond _ _ _ | .fail _ | .cancel _ | .pumpEnds => .isTrue trivial

/-! ## The invariant -/

/-- What a call holds is not from the future, and what a fetch was answered since the last tip
change is from the chain of that change or a later one. -/
def Call.Timely (s : State) : Call → Prop
  | .latestBlock _ (some a) => a.forks ≤ s.forks
  | .fetchTx _ _ (some a) => a.changes ≤ s.changes ∧ (a.changes = s.changes → s.observed ≤ a.forks)
  | _ => True

structure TxInv (s : State) : Prop where
  observed : s.observed ≤ s.forks
  cached : ∀ e ∈ s.txs.entries, e.2.changes = s.changes ∧ s.observed ≤ e.2.forks
  calls : ∀ c ∈ s.calls, c.Timely s
  served : ∀ x ∈ s.served, x.Fresh

theorem start_txInv (chain : Chain) : TxInv (.start chain) := by
  constructor <;> simp [State.start, Lru.empty]

variable {s s' : State} {h : HubSource} {i : ℕ}

namespace TxInv

theorem frame (hi : TxInv s) (hforks : s.forks ≤ s'.forks) (hchanges : s'.changes = s.changes)
    (hobserved : s'.observed = s.observed) (htxs : ∀ e ∈ s'.txs.entries, e ∈ s.txs.entries)
    (hcalls : ∀ c ∈ s'.calls, c ∈ s.calls ∨ c.Timely s')
    (hserved : ∀ x ∈ s'.served, x ∈ s.served ∨ x.Fresh) : TxInv s' where
  observed := by
    rw [hobserved]
    exact hi.observed.trans hforks
  cached := by
    intro e he
    rw [hchanges, hobserved]
    exact hi.cached e (htxs e he)
  calls := by
    intro c hc
    rcases hcalls c hc with hc | hc
    · have htimely := hi.calls c hc
      unfold Call.Timely at htimely ⊢
      split
      · exact htimely.trans hforks
      · rw [hchanges, hobserved]
        exact htimely
      · trivial
    · exact hc
  served := by
    intro x hx
    rcases hserved x hx with hx | hx
    · exact hi.served x hx
    · exact hx

theorem keep (hi : TxInv s) (hforks : s'.forks = s.forks) (hchanges : s'.changes = s.changes)
    (hobserved : s'.observed = s.observed) (htxs : s'.txs = s.txs)
    (hcalls : ∀ c ∈ s'.calls, c ∈ s.calls ∨ c.Timely s')
    (hserved : ∀ x ∈ s'.served, x ∈ s.served ∨ x.Fresh) : TxInv s' :=
  hi.frame hforks.ge hchanges hobserved (fun _ he => htxs ▸ he) hcalls hserved

theorem push (hi : TxInv s) {c : Call} (hc : c.Timely (s.push c)) : TxInv (s.push c) := by
  refine hi.keep rfl rfl rfl rfl ?_ fun x hx => Or.inl hx
  intro c' hc'
  rcases List.mem_append.mp hc' with hc' | hc'
  · exact Or.inl hc'
  · exact Or.inr (List.mem_singleton.mp hc' ▸ hc)

theorem drop (hi : TxInv s) (i : ℕ) : TxInv (s.drop i) :=
  hi.keep rfl rfl rfl rfl (fun _ hc => Or.inl (List.mem_of_mem_eraseIdx hc)) fun _ hx => Or.inl hx

theorem set (hi : TxInv s) {c : Call} (hc : c.Timely s) :
    TxInv { s with calls := s.calls.set i c } := by
  refine hi.keep rfl rfl rfl rfl ?_ fun x hx => Or.inl hx
  intro c' hc'
  rcases List.mem_or_eq_of_mem_set hc' with hc' | rfl
  · exact Or.inl hc'
  · exact Or.inr hc

theorem serve (hi : TxInv s) {x : Served} (hx : x.Fresh) : TxInv (s.serve x) := by
  refine hi.keep rfl rfl rfl rfl (fun c hc => Or.inl hc) ?_
  intro y hy
  rcases List.mem_append.mp hy with hy | hy
  · exact Or.inl hy
  · exact Or.inr (List.mem_singleton.mp hy ▸ hx)

theorem issue (hi : TxInv s) : TxInv s.issue := by
  unfold State.issue
  split
  · exact hi.keep rfl rfl rfl rfl (fun c hc => Or.inl hc) fun x hx => Or.inl hx
  · exact hi

/-- A tip change noted empties the cache, and makes every answer given before it an old one. -/
theorem noteTip (hi : TxInv s) (previous : Option (Answer ChainTip)) {current : Answer ChainTip}
    (hcurrent : current.forks ≤ s.forks) : TxInv (s.noteTip previous current) := by
  unfold State.noteTip
  split
  · exact hi
  · refine ⟨hcurrent, nofun, ?_, hi.served⟩
    intro c hc
    have htimely := hi.calls c hc
    unfold Call.Timely at htimely ⊢
    split
    · exact htimely
    · refine ⟨htimely.1.trans (Nat.le_succ _), fun heq => ?_⟩
      exact absurd heq (Nat.lt_succ_of_le htimely.1).ne
    · trivial

theorem fetchTx (hi : TxInv s) (h : HubSource) (txid : TxId) : TxInv (s.fetchTx h txid) := by
  unfold State.fetchTx
  split
  · next a txs hget =>
    have ha : (txid, a) ∈ s.txs.entries := Lru.mem_of_get (congrArg Prod.fst hget)
    refine serve ?_ (hi.cached _ ha)
    refine hi.frame le_rfl rfl rfl (fun e he => ?_) (fun c hc => Or.inl hc) fun x hx => Or.inl hx
    have hkept : e ∈ (s.txs.get txid).2.entries := by
      rw [hget]
      exact he
    exact Lru.mem_of_mem_get hkept
  · exact hi.push trivial

theorem invalidate (hi : TxInv s) (i generation : ℕ) (dropped : Bool) :
    TxInv (s.invalidate i generation dropped) := by
  unfold State.invalidate
  split
  · split
    · exact hi
    · dsimp only
      split
      all_goals
        exact (hi.drop i).frame le_rfl rfl rfl nofun (fun c hc => Or.inl hc) fun x hx => Or.inl hx
  · split
    · exact hi
    · split
      · exact hi.drop i
      · have hset : TxInv { s with calls := s.calls.set i (.invalidate generation true) } :=
          hi.set trivial
        exact hset.keep rfl rfl rfl rfl (fun c hc => Or.inl hc) fun x hx => Or.inl hx

/-- A fetch that stores promptly stores an answer as young as what the cache holds. -/
theorem resume (hi : TxInv s) (i : ℕ) (hprompt : StoresPromptly s (.resume i)) :
    TxInv (s.resume i) := by
  have hd := hi.drop i
  unfold State.resume
  split
  · next h a hc =>
    have hn := hd.noteTip s.tip.tip (hi.calls _ (List.mem_of_getElem? hc))
    exact hn.keep rfl rfl rfl rfl (fun c hc => Or.inl hc) fun x hx => Or.inl hx
  · exact hd.keep rfl rfl rfl rfl (fun c hc => Or.inl hc) fun x hx => Or.inl hx
  · exact hd.keep rfl rfl rfl rfl (fun c hc => Or.inl hc) fun x hx => Or.inl hx
  · split
    · exact hi
    · split
      · exact hd.keep rfl rfl rfl rfl (fun c hc => Or.inl hc) fun x hx => Or.inl hx
      · exact hd
  · next h txid a hc =>
    split
    · next tx htx =>
      have hyoung : a.changes = s.changes := by
        simpa [StoresPromptly, hc, Call.prompt, htx] using hprompt
      have htimely := hi.calls _ (List.mem_of_getElem? hc)
      refine ⟨hd.observed, fun e he => ?_, hd.calls, hd.served⟩
      rcases Lru.mem_of_mem_insert he with rfl | he
      · exact ⟨hyoung, htimely.2 hyoung⟩
      · exact hi.cached e he
    · exact hd
  · exact hd.keep rfl rfl rfl rfl (fun c hc => Or.inl hc) fun x hx => Or.inl hx
  · exact hi.invalidate i _ _
  · exact hi

theorem respond (hi : TxInv s) (i : ℕ) (info : ServerInfo) (roots : List SubtreeRootInfo) :
    TxInv (s.respond i info roots) := by
  unfold State.respond
  split
  · exact hi.set le_rfl
  · exact hi.set trivial
  · exact hi.set trivial
  · exact hi.set trivial
  · exact hi.set ⟨le_rfl, fun _ => hi.observed⟩
  · exact hi

theorem onHandle (hi : TxInv s) {k : ℕ} {call : HubSource → State}
    (hcall : ∀ h, TxInv (call h)) : TxInv (s.onHandle k call) := by
  unfold State.onHandle
  split
  · exact hcall _
  · exact hi

end TxInv

theorem step_txInv (s : State) (e : Event) (hi : TxInv s) (hprompt : StoresPromptly s e) :
    TxInv (step s e) := by
  have hreset : ∀ h, TxInv (s.resetInfo h) := fun h => by
    unfold State.resetInfo
    split
    · exact hi
    · exact hi.keep rfl rfl rfl rfl (fun c hc => Or.inl hc) fun x hx => Or.inl hx
  cases e with
  | switch chain =>
    exact hi.frame (Nat.le_succ _) rfl rfl (fun _ he => he) (fun c hc => Or.inl hc)
      fun x hx => Or.inl hx
  | acquire =>
    simp only [step, State.acquire]
    split
    · exact hi
    · split
      · exact hi.issue
      · exact hi.push trivial
  | dialed i ok =>
    simp only [step, State.dialed]
    split
    · split
      · apply TxInv.issue
        exact (hi.drop i).keep rfl rfl rfl rfl (fun c hc => Or.inl hc) fun x hx => Or.inl hx
      · exact hi.drop i
    · exact hi
  | latestBlock k expired =>
    refine hi.onHandle fun h => ?_
    unfold State.latestBlock
    split
    · exact hi
    · split
      · split
        · exact hi.serve trivial
        · exact hi.push trivial
      · exact hi.push trivial
  | serverInfo k =>
    refine hi.onHandle fun h => ?_
    unfold State.getServerInfo
    split
    · exact hi
    · split
      · exact hi.serve trivial
      · exact (hreset h).push trivial
  | subtreeRoots k pool =>
    refine hi.onHandle fun h => ?_
    unfold State.subtreeRoots
    split
    · exact hi
    · split
      · exact hi.serve trivial
      · exact (hreset h).push trivial
  | refreshServerInfo k => exact hi.onHandle fun h => hi.push trivial
  | fetchTx k txid => exact hi.onHandle fun h => hi.fetchTx h txid
  | subscribeMempool k =>
    refine hi.onHandle fun h => ?_
    have hpool : ∀ m : MempoolHub, TxInv { s with mempool := m } := fun _ =>
      hi.keep rfl rfl rfl rfl (fun c hc => Or.inl hc) fun x hx => Or.inl hx
    unfold State.subscribeMempool
    split
    · exact hi
    · dsimp only
      split
      · split
        · exact hpool _
        · exact (hpool _).push trivial
      · split
        · exact hi
        · exact hi.push trivial
  | passthroughFails k => exact hi.onHandle fun h => hi.push trivial
  | respond i info roots => exact hi.respond i info roots
  | resume i => exact hi.resume i hprompt
  | fail i =>
    simp only [step, State.fail]
    split
    all_goals first
      | exact hi
      | exact (hi.drop i).push trivial
  | cancel i => exact hi.drop i
  | pumpEnds => exact hi.keep rfl rfl rfl rfl (fun c hc => Or.inl hc) fun x hx => Or.inl hx

/-! ## Runs -/

/-- In every interleaving in which no fetch stores an answer given before the last tip change
noted, every transaction served from the cache was given after it. -/
theorem cached_txs_fresh (chain : Chain) (es : List Event)
    (h : Along step StoresPromptly (.start chain) es) :
    ∀ x ∈ (run step (.start chain) es).served, x.Fresh :=
  (invariant (fun s e hi he => step_txInv s e hi he) (start_txInv chain) h).served

/-- Transaction 7 is in block 100 of the old chain and in block 101 of the new one. -/
def oldChain : Chain := ⟨⟨100, [1]⟩, fun txid => if txid = 7 then some ⟨[], some 100⟩ else none⟩
def newChain : Chain := ⟨⟨101, [2]⟩, fun txid => if txid = 7 then some ⟨[], some 101⟩ else none⟩

def someInfo : ServerInfo := ⟨none, [], none, none⟩

def opening : List Event :=
  [.acquire, .dialed 0 true, .acquire, .latestBlock 0 true, .respond 0 someInfo [], .resume 0]

/-- The tip change is noted between two fetches. -/
def fetchAfterNote : List Event :=
  opening ++ [.fetchTx 0 7, .respond 0 someInfo [], .resume 0, .switch newChain,
    .latestBlock 1 true, .respond 0 someInfo [], .resume 0, .fetchTx 0 7, .respond 0 someInfo [],
    .resume 0, .fetchTx 1 7]

/-- The tip change is noted between a fetch's answer and its store. -/
def noteDuringFetch : List Event :=
  opening ++ [.fetchTx 0 7, .respond 0 someInfo [], .switch newChain, .latestBlock 1 true,
    .respond 1 someInfo [], .resume 1, .resume 0, .fetchTx 1 7]

theorem fetchAfterNote_fresh :
    (run step (.start oldChain) fetchAfterNote).served.length = 1 ∧
    ∀ x ∈ (run step (.start oldChain) fetchAfterNote).served, x.Fresh :=
  ⟨by decide, cached_txs_fresh oldChain fetchAfterNote (by decide)⟩

/-- The second handle is served the height of the chain that was replaced. -/
theorem noteDuringFetch_stale :
    ¬ ∀ x ∈ (run step (.start oldChain) noteDuringFetch).served, x.Fresh := by
  intro hfresh
  have hserved : (run step (.start oldChain) noteDuringFetch).served =
      [.tx ⟨⟨[], some 100⟩, 1, 0, 0⟩ 1 1] := by rfl
  have hstale := hfresh _ (hserved ▸ List.mem_singleton_self _)
  exact absurd hstale.1 (by decide)

end Zecd.ChainHub
