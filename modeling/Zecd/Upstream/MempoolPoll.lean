import Zecd.Foundation.Hex
import Zecd.Foundation.Runs
import Zecd.Upstream.AddressQuery

/-! # The mempool poller

A full node has no mempool stream, so a task polls its mempool and sends on what is new. It
remembers only what is still in the mempool. A transaction is sent once for each time it enters,
if the node still has it when asked, and never twice in one stay.
-/

namespace Zecd.MempoolPoll

open Runs
open Upstream (CallError)

variable {Tx : Type}

/-- What the node answers in one turn of the loop. `fetch` is none where the answer does not
decode. -/
structure Round (Tx : Type) where
  rawMempool : Except String (List String)
  fetch : String → Except CallError (Option Tx)
  bestBlockHash : Except String String

structure Poller (Tx : Type) where
  seen : Finset String
  sent : List (Except String Tx)
  returned : Bool

def Poller.start : Poller Tx := ⟨∅, [], false⟩

def leftMempool : CallError → Bool
  | .rpc code message =>
    code == -5 || decide ("no such mempool".toList <:+: Hex.asciiLower message.toList)
  | .transport _ => false

/-- An error is sent once, and is the last thing sent. -/
def Poller.fail (p : Poller Tx) (text : String) : Poller Tx :=
  { p with sent := p.sent ++ [.error text], returned := true }

def visit (fetch : String → Except CallError (Option Tx)) (p : Poller Tx) (txid : String) :
    Poller Tx :=
  if p.returned || decide (txid ∈ p.seen) then p
  else
    let p := { p with seen := insert txid p.seen }
    match fetch txid with
    | .ok (some tx) => { p with sent := p.sent ++ [.ok tx] }
    | .ok none => p
    | .error e => if leftMempool e then p else p.fail (e.text "getrawtransaction")

/-- One turn of the loop of `poll_mempool`: a block other than the one it started at ends it. -/
def poll (baseline : String) (p : Poller Tx) (r : Round Tx) : Poller Tx :=
  if p.returned then p
  else
    match r.rawMempool with
    | .error e => p.fail e
    | .ok txids =>
      let p := txids.foldl (visit r.fetch) { p with seen := p.seen.filter (· ∈ txids) }
      if p.returned then p
      else
        match r.bestBlockHash with
        | .ok best => { p with returned := decide (best ≠ baseline) }
        | .error e => p.fail e

def pollMempool (baseline : String) (rounds : List (Round Tx)) : Poller Tx :=
  run (poll baseline) .start rounds

/-! ## Stays -/

def mempoolAt (rounds : List (Round Tx)) (i : ℕ) : List String :=
  ((rounds[i]?.bind fun r => r.rawMempool.toOption).getD [])

/-- The node has the transaction when asked. -/
def yields (fetch : String → Except CallError (Option Tx)) (txid : String) : Bool :=
  match fetch txid with
  | .ok (some _) => true
  | _ => false

/-- A stay in the mempool starts in this round, and the node has the transaction when asked. -/
def staysFrom (rounds : List (Round Tx)) (txid : String) (i : ℕ) : Bool :=
  decide (txid ∈ mempoolAt rounds i) && (i == 0 || decide (txid ∉ mempoolAt rounds (i - 1))) &&
    rounds[i]?.any fun r => yields r.fetch txid

def isTx (txidOf : Tx → String) (txid : String) : Except String Tx → Bool
  | .ok tx => txidOf tx = txid
  | .error _ => false

/-! ## A visit -/

variable {baseline : String} {txidOf : Tx → String} {p : Poller Tx} {r : Round Tx}
  {rounds : List (Round Tx)} {fetch : String → Except CallError (Option Tx)} {txid : String}
  {txids : List String}

/-- The node answers a fetch with the transaction asked for. -/
def Honest (txidOf : Tx → String) (fetch : String → Except CallError (Option Tx)) : Prop :=
  ∀ txid tx, fetch txid = .ok (some tx) → txidOf tx = txid

/-- How often the transaction was sent. -/
def Poller.count (txidOf : Tx → String) (txid : String) (p : Poller Tx) : ℕ :=
  p.sent.countP (isTx txidOf txid)

theorem visit_cases (txid : String) (hhonest : Honest txidOf fetch) (hp : p.returned = false)
    (t : String) :
    ((visit fetch p t).returned = true ∧ ∃ e, (visit fetch p t).sent = p.sent ++ [.error e]) ∨
    ((visit fetch p t).returned = false ∧ (visit fetch p t).seen = insert t p.seen ∧
      (visit fetch p t).count txidOf txid = p.count txidOf txid +
        if t = txid ∧ t ∉ p.seen ∧ yields fetch t = true then 1 else 0) := by
  unfold visit
  by_cases hseen : t ∈ p.seen
  · rw [if_pos (by simp [hseen])]
    right
    simp [hp, hseen]
  · rw [if_neg (by simp [hp, hseen])]
    dsimp only
    cases hfetch : fetch t with
    | ok answer =>
      cases answer with
      | none =>
        right
        simp [hp, yields, hfetch, Poller.count]
      | some tx =>
        right
        have htx := hhonest t tx hfetch
        simp [hp, yields, hfetch, Poller.count, isTx, htx, hseen, List.countP_append,
          List.countP_singleton]
    | error e =>
      dsimp only
      split
      · right
        simp [hp, yields, hfetch, Poller.count]
      · left
        exact ⟨rfl, _, rfl⟩

theorem visit_of_returned (hp : p.returned = true) (t : String) : visit fetch p t = p := by
  rw [visit, if_pos (by simp [hp])]

theorem foldl_visit_of_returned (hp : p.returned = true) (ts : List String) :
    ts.foldl (visit fetch) p = p := by
  induction ts with
  | nil => rfl
  | cons t ts ih => rw [List.foldl_cons, visit_of_returned hp, ih]

theorem foldl_visit_cases (txid : String) (hhonest : Honest txidOf fetch) (hp : p.returned = false)
    (ts : List String) :
    ((ts.foldl (visit fetch) p).returned = true ∧
      ∃ e, .error e ∈ (ts.foldl (visit fetch) p).sent) ∨
    ((ts.foldl (visit fetch) p).returned = false ∧
      (ts.foldl (visit fetch) p).seen = p.seen ∪ ts.toFinset ∧
      (ts.foldl (visit fetch) p).count txidOf txid = p.count txidOf txid +
        if txid ∈ ts ∧ txid ∉ p.seen ∧ yields fetch txid = true then 1 else 0) := by
  induction ts generalizing p with
  | nil => exact .inr ⟨hp, by simp, by simp⟩
  | cons t ts ih =>
    rw [List.foldl_cons]
    rcases visit_cases txid hhonest hp t with ⟨hreturned, e, hsent⟩ | ⟨hreturned, hseen, hcount⟩
    · left
      rw [foldl_visit_of_returned hreturned, hsent]
      exact ⟨hreturned, e, List.mem_append_right _ (List.mem_singleton_self _)⟩
    · rcases ih hreturned with h | ⟨h, hseen', hcount'⟩
      · exact .inl h
      · right
        refine ⟨h, ?_, ?_⟩
        · rw [hseen', hseen, List.toFinset_cons, Finset.insert_union, Finset.union_insert]
        · rw [hcount', hcount, hseen, Nat.add_assoc]
          congr 1
          -- the transaction is new to the round at its first mention only
          by_cases ht : t = txid
          · subst ht
            simp
          · have ht' : txid ≠ t := fun h => ht h.symm
            simp [ht, ht', Finset.mem_insert]

/-! ## A round -/

theorem poll_of_returned (hp : p.returned = true) : poll baseline p r = p := if_pos hp

theorem poll_of_no_error (txid : String) (hhonest : Honest txidOf r.fetch) (hp : p.returned = false)
    (hok : ∀ e, .error e ∉ (poll baseline p r).sent) :
    ∃ txids, r.rawMempool = .ok txids ∧ (poll baseline p r).seen = txids.toFinset ∧
      (poll baseline p r).count txidOf txid = p.count txidOf txid +
        if txid ∈ txids ∧ txid ∉ p.seen ∧ yields r.fetch txid = true then 1 else 0 := by
  unfold poll at hok ⊢
  rw [if_neg (by simp [hp])] at hok ⊢
  cases hlist : r.rawMempool with
  | error e =>
    rw [hlist] at hok
    exact absurd (List.mem_append_right _ (List.mem_singleton_self _)) (hok e)
  | ok txids =>
    rw [hlist] at hok
    refine ⟨txids, rfl, ?_⟩
    dsimp only at hok ⊢
    rcases foldl_visit_cases (p := { p with seen := p.seen.filter (· ∈ txids) }) txid
      hhonest hp txids with ⟨hreturned, e, he⟩ | ⟨hreturned, hseen, hcount⟩
    · rw [if_pos hreturned] at hok
      exact absurd he (hok e)
    · rw [if_neg (by simp [hreturned])] at hok ⊢
      have hseen' : (txids.foldl (visit r.fetch)
          { p with seen := p.seen.filter (· ∈ txids) }).seen = txids.toFinset := by
        rw [hseen]
        ext t
        simp only [Finset.mem_union, Finset.mem_filter, List.mem_toFinset]
        exact ⟨fun h => h.elim And.right id, Or.inr⟩
      have hcount' : (txids.foldl (visit r.fetch)
          { p with seen := p.seen.filter (· ∈ txids) }).count txidOf txid = p.count txidOf txid +
          if txid ∈ txids ∧ txid ∉ p.seen ∧ yields r.fetch txid = true then 1 else 0 := by
        rw [hcount]
        apply congrArg (p.count txidOf txid + ·)
        apply if_congr _ rfl rfl
        simp only [Finset.mem_filter]
        exact ⟨fun ⟨h, hn, hy⟩ => ⟨h, fun hs => hn ⟨hs, h⟩, hy⟩,
          fun ⟨h, hn, hy⟩ => ⟨h, fun hs => hn hs.1, hy⟩⟩
      cases hbest : r.bestBlockHash with
      | ok best => exact ⟨hseen', hcount'⟩
      | error e =>
        rw [hbest] at hok
        exact absurd (List.mem_append_right _ (List.mem_singleton_self _)) (hok e)

/-! ## Runs -/

theorem pollMempool_concat (rounds : List (Round Tx)) (r : Round Tx) :
    pollMempool baseline (rounds ++ [r]) = poll baseline (pollMempool baseline rounds) r := by
  rw [pollMempool, run_append]
  rfl

theorem sent_poll (p : Poller Tx) (r : Round Tx) : p.sent <+: (poll baseline p r).sent := by
  have hvisit (q : Poller Tx) (t : String) : q.sent <+: (visit r.fetch q t).sent := by
    unfold visit
    split
    · exact List.prefix_rfl
    · dsimp only
      split
      · exact List.prefix_append _ _
      · exact List.prefix_rfl
      · split
        · exact List.prefix_rfl
        · exact List.prefix_append _ _
  have hfoldl (ts : List String) (q : Poller Tx) :
      q.sent <+: (ts.foldl (visit r.fetch) q).sent := by
    induction ts generalizing q with
    | nil => exact List.prefix_rfl
    | cons t ts ih => exact (hvisit q t).trans (ih _)
  unfold poll
  split
  · exact List.prefix_rfl
  · split
    · exact List.prefix_append _ _
    · next txids _ =>
      dsimp only
      have := hfoldl txids { p with seen := p.seen.filter (· ∈ txids) }
      split
      · exact this
      · split
        · exact this
        · exact this.trans (List.prefix_append _ _)

theorem mempoolAt_concat_of_lt {i : ℕ} (h : i < rounds.length) :
    mempoolAt (rounds ++ [r]) i = mempoolAt rounds i := by
  rw [mempoolAt, mempoolAt, List.getElem?_append_left h]

theorem mempoolAt_concat_length (h : r.rawMempool = .ok txids) :
    mempoolAt (rounds ++ [r]) rounds.length = txids := by
  simp [mempoolAt, h, Except.toOption]

theorem staysFrom_concat_of_lt {i : ℕ} (h : i < rounds.length) :
    staysFrom (rounds ++ [r]) txid i = staysFrom rounds txid i := by
  unfold staysFrom
  rw [mempoolAt_concat_of_lt h, mempoolAt_concat_of_lt (by omega), List.getElem?_append_left h]

theorem stays_concat (hhonest : Honest txidOf r.fetch)
    (hseen : (pollMempool baseline rounds).seen = (mempoolAt rounds (rounds.length - 1)).toFinset)
    (hcount : (pollMempool baseline rounds).count txidOf txid =
      (List.range rounds.length).countP (staysFrom rounds txid))
    (hpolling : (pollMempool baseline rounds).returned = false)
    (hok : ∀ e, .error e ∉ (pollMempool baseline (rounds ++ [r])).sent) :
    (pollMempool baseline (rounds ++ [r])).seen =
        (mempoolAt (rounds ++ [r]) ((rounds ++ [r]).length - 1)).toFinset ∧
      (pollMempool baseline (rounds ++ [r])).count txidOf txid =
        (List.range (rounds ++ [r]).length).countP (staysFrom (rounds ++ [r]) txid) := by
  rw [pollMempool_concat] at hok ⊢
  obtain ⟨txids, hlist, hseen', hcount'⟩ := poll_of_no_error txid hhonest hpolling hok
  rw [List.length_append, List.length_singleton, Nat.add_sub_cancel, mempoolAt_concat_length hlist]
  refine ⟨hseen', ?_⟩
  have hearlier : (List.range rounds.length).countP (staysFrom (rounds ++ [r]) txid) =
      (List.range rounds.length).countP (staysFrom rounds txid) := by
    apply List.countP_congr
    intro i hi
    rw [staysFrom_concat_of_lt (List.mem_range.mp hi)]
  rw [hcount', hcount, List.range_succ, List.countP_append, hearlier, List.countP_singleton]
  congr 1
  apply if_congr _ rfl rfl
  simp only [staysFrom, mempoolAt_concat_length hlist, hseen, List.mem_toFinset, Bool.and_eq_true,
    Bool.or_eq_true, decide_eq_true_eq, beq_iff_eq, and_assoc, List.getElem?_concat_length,
    Option.any_some]
  apply and_congr_right
  intro _
  apply and_congr_left
  intro _
  cases hlength : rounds.length with
  | zero =>
    rw [List.length_eq_zero_iff.mp hlength]
    simp [mempoolAt]
  | succ n => rw [mempoolAt_concat_of_lt (by omega)]; simp

/-- While the poller polls, it remembers what the last round listed, and has sent a transaction once
for each of its stays. -/
theorem stays_polling (txid : String) (hhonest : ∀ r ∈ rounds, Honest txidOf r.fetch)
    (hpolling : (pollMempool baseline rounds).returned = false)
    (hok : ∀ e, .error e ∉ (pollMempool baseline rounds).sent) :
    (pollMempool baseline rounds).seen = (mempoolAt rounds (rounds.length - 1)).toFinset ∧
      (pollMempool baseline rounds).count txidOf txid =
        (List.range rounds.length).countP (staysFrom rounds txid) := by
  induction rounds using List.reverseRecOn with
  | nil => exact ⟨rfl, rfl⟩
  | append_singleton rounds r ih =>
    have hbefore : (pollMempool baseline rounds).returned = false := by
      by_contra hreturned
      rw [Bool.not_eq_false] at hreturned
      rw [pollMempool_concat, poll_of_returned hreturned, hreturned] at hpolling
      cases hpolling
    have hokBefore : ∀ e, .error e ∉ (pollMempool baseline rounds).sent := by
      intro e he
      apply hok e
      rw [pollMempool_concat]
      exact (sent_poll _ r).subset he
    obtain ⟨hseen, hcount⟩ :=
      ih (fun x hx => hhonest x (List.mem_append_left _ hx)) hbefore hokBefore
    exact stays_concat (hhonest r (by simp)) hseen hcount hbefore hok

/-- Over rounds without a failure, the last one closing the stream or not, a transaction is sent as
often as a stay of it starts whose fetch is answered: once a stay, and again for a later one. -/
theorem sent_once_per_stay (baseline : String) (rounds : List (Round Tx)) (last : Round Tx)
    (hhonest : ∀ r ∈ rounds ++ [last], Honest txidOf r.fetch)
    (hpolling : (pollMempool baseline rounds).returned = false)
    (hok : ∀ e, .error e ∉ (pollMempool baseline (rounds ++ [last])).sent) (txid : String) :
    (pollMempool baseline (rounds ++ [last])).count txidOf txid =
      (List.range (rounds.length + 1)).countP (staysFrom (rounds ++ [last]) txid) := by
  have hokBefore : ∀ e, .error e ∉ (pollMempool baseline rounds).sent := by
    intro e he
    apply hok e
    rw [pollMempool_concat]
    exact (sent_poll _ last).subset he
  obtain ⟨hseen, hcount⟩ := stays_polling txid
    (fun r hr => hhonest r (List.mem_append_left _ hr)) hpolling hokBefore
  have h := (stays_concat (hhonest last (by simp)) hseen hcount hpolling hok).2
  rwa [List.length_append, List.length_singleton] at h

/-- A node that has every transaction, which decodes to its own identifier. -/
def listing (txids : List String) (best : String) : Round String :=
  ⟨.ok txids, fun txid => .ok (some txid), .ok best⟩

/-- Listed twice at once, gone, and back with the block that closes the stream. -/
def leavesAndReturns : List (Round String) :=
  [listing ["a", "b", "a"] "h", listing ["b"] "h", listing ["b", "a"] "next"]

theorem sent_once_per_stay_returning :
    (pollMempool "h" leavesAndReturns).count id "a" =
      (List.range 3).countP (staysFrom leavesAndReturns "a") := by
  apply sent_once_per_stay "h" [listing ["a", "b", "a"] "h", listing ["b"] "h"]
    (listing ["b", "a"] "next")
  · intro r hr txid tx htx
    have hfetch : r.fetch txid = .ok (some txid) := by
      rcases List.mem_cons.mp hr with rfl | hr
      · rfl
      · rcases List.mem_cons.mp hr with rfl | hr
        · rfl
        · rw [List.mem_singleton.mp hr]
          rfl
    rw [hfetch] at htx
    cases htx
    rfl
  · decide
  · have hsent : (pollMempool "h" leavesAndReturns).sent = [.ok "a", .ok "b", .ok "a"] := by decide
    intro e he
    have := hsent ▸ he
    simp at this

end Zecd.MempoolPoll
