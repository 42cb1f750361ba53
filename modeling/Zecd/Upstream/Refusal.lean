import Zecd.Foundation.Runs
import Zecd.Upstream.Hub

/-! # No scan past an activation the node has not adopted

A reply taken at or above the activation refuses the node. A reply taken below it says nothing of
the kind, so the guarantee rests on the tip: it is stored only by a refresh, and a refresh that
crosses the activation reads the branch again before anything is scanned.
-/

namespace Zecd.Upstream

open Runs

variable {p : Protocol} {params : Params} {node : Node} {u : NetworkUpgrade} {A : ℕ}

/-- From the activation on, every branch of the node that this build knows is older. -/
def NeverAdopts (p : Protocol) (node : Node) (u : NetworkUpgrade) (A : ℕ) : Prop :=
  ∀ tip, A ≤ tip → ∀ b, p.tryFrom (node tip) = some b → branchRank b < branchRank (some u)

/-- A reply taken at or above the activation shows a branch this build knows, and does not list
the branch expected there as in play at another height. -/
def Plain (p : Protocol) (params : Params) (node : Node) (A tip : ℕ) (r : Report) : Prop :=
  A ≤ tip → (∃ b, p.tryFrom (node tip) = some b) ∧
    (node.reply tip r).ListsAsExpected p params tip

/-- The highest tip the actor has stored. -/
def Actor.reach (a : Actor) : ℕ := max (a.storedTip.getD 0) (a.tipHeight.getD 0)

/-- A connect that no tip refresh follows is not answered from a reply that was cached below the
activation and passes, once the stored tip has reached it. -/
def NotStale (p : Protocol) (params : Params) (A : ℕ) (w : World) : Prop :=
  w.actor.pos = .preparing false →
    ∀ generation ∈ w.actor.client, ∀ info ∈ w.hub.cachedInfo generation,
      ∀ tip ∈ info.tipHeight, tip < A → A ≤ w.actor.reach →
        (upstreamNotUpgraded (unsupportedUpgrades p params info) w.actor.tipHeight).isSome = true

def PlainReplies (p : Protocol) (params : Params) (node : Node) (A : ℕ) (w : World) :
    Event → Prop
  | .otherInfo _ reply | .recheck reply | .prepare reply _ =>
    ∀ r ∈ reply, Plain p params node A w.tip r
  | .otherRefresh _ ago r => Plain p params node A (w.tip - ago) r
  | _ => True

/-- Every reply is plain, and no connect takes a stale one. -/
def Guarded (p : Protocol) (params : Params) (node : Node) (A : ℕ) (w : World) (e : Event) :
    Prop :=
  PlainReplies p params node A w e ∧
    ∀ reply healthy, e = .prepare reply healthy → NotStale p params A w

/-! ## Replies -/

/-- A plain reply the node gave at some tip so far. -/
def Genuine (p : Protocol) (params : Params) (node : Node) (A tip : ℕ) (info : ServerInfo) :
    Prop :=
  ∃ t r, info = node.reply t r ∧ t ≤ tip ∧ Plain p params node A t r

theorem Genuine.mono {tip tip' : ℕ} {info : ServerInfo} (h : Genuine p params node A tip info)
    (hle : tip ≤ tip') : Genuine p params node A tip' info := by
  obtain ⟨t, r, hinfo, ht, hplain⟩ := h
  exact ⟨t, r, hinfo, ht.trans hle, hplain⟩

theorem below_of_passes {t : ℕ} {r : Report} {tipHeight : Option ℕ} (hu : params u = some A)
    (hnever : NeverAdopts p node u A) (hplain : Plain p params node A t r)
    (hpass : (upstreamNotUpgraded (unsupportedUpgrades p params (node.reply t r))
      tipHeight).isSome = false) : t < A := by
  by_contra hhigh
  have hle : A ≤ t := not_lt.mp hhigh
  obtain ⟨⟨b, hb⟩, hlist⟩ := hplain hle
  have hrefused : Refused (unsupportedUpgrades p params (node.reply t r)) :=
    unsupportedUpgrades_refused rfl rfl hb
      ((hnever t hle b hb).trans_le (branchRank_le hu hle)) hlist
  have hsome := upstreamNotUpgraded_isSome hrefused tipHeight
  exact absurd (hsome.symm.trans hpass) (by decide)

/-! ## The hub -/

/-- The tip in the cache is no older than any the actor has, and the cached reply is genuine. -/
structure HubInv (p : Protocol) (params : Params) (node : Node) (A reach tip : ℕ) (h : Hub) :
    Prop where
  cachedTip : ∀ cached ∈ h.tip, reach ≤ cached.1 ∧ cached.1 ≤ tip
  cachedReply : ∀ info ∈ h.serverInfo, Genuine p params node A tip info

variable {h : Hub} {reach tip generation : ℕ}

theorem HubInv.frame {h' : Hub} (hi : HubInv p params node A reach tip h) (htip : h'.tip = h.tip)
    (hinfo : h'.serverInfo = h.serverInfo) : HubInv p params node A reach tip h' :=
  ⟨htip ▸ hi.cachedTip, hinfo ▸ hi.cachedReply⟩

theorem HubInv.anti {reach' : ℕ} (hi : HubInv p params node A reach tip h)
    (hle : reach' ≤ reach) : HubInv p params node A reach' tip h :=
  ⟨fun c hc => ⟨hle.trans (hi.cachedTip c hc).1, (hi.cachedTip c hc).2⟩, hi.cachedReply⟩

theorem HubInv.mono {tip' : ℕ} (hi : HubInv p params node A reach tip h) (hle : tip ≤ tip') :
    HubInv p params node A reach tip' h :=
  ⟨fun c hc => ⟨(hi.cachedTip c hc).1, (hi.cachedTip c hc).2.trans hle⟩,
    fun i hinfo => (hi.cachedReply i hinfo).mono hle⟩

theorem invalidate_tip (h : Hub) (generation : ℕ) : (h.invalidate generation).tip = h.tip := by
  unfold Hub.invalidate
  split <;> rfl

theorem invalidate_serverInfo (h : Hub) (generation : ℕ) :
    (h.invalidate generation).serverInfo = h.serverInfo := by
  unfold Hub.invalidate
  split <;> rfl

theorem HubInv.invalidate (hi : HubInv p params node A reach tip h) (generation : ℕ) :
    HubInv p params node A reach tip (h.invalidate generation) :=
  hi.frame (invalidate_tip _ _) (invalidate_serverInfo _ _)

theorem HubInv.acquire (hi : HubInv p params node A reach tip h) (dialed : Bool) :
    HubInv p params node A reach tip (h.acquire dialed).1 := by
  unfold Hub.acquire
  split
  · exact hi
  · split
    · exact hi.frame rfl rfl
    · exact hi

variable (generation) in
theorem HubInv.latestBlock (hi : HubInv p params node A reach tip h) (hreach : reach ≤ tip)
    (cached answered : Bool) :
    HubInv p params node A reach tip
        (h.latestBlock generation cached (if answered then some tip else none)).1 ∧
      ∀ t ∈ (h.latestBlock generation cached (if answered then some tip else none)).2,
        reach ≤ t ∧ t ≤ tip ∧ HubInv p params node A t tip
          (h.latestBlock generation cached (if answered then some tip else none)).1 := by
  have hfetch : HubInv p params node A reach tip
        (Hub.latestBlock.fetch h generation (if answered then some tip else none)).1 ∧
      ∀ t ∈ (Hub.latestBlock.fetch h generation (if answered then some tip else none)).2,
        reach ≤ t ∧ t ≤ tip ∧ HubInv p params node A t tip
          (Hub.latestBlock.fetch h generation (if answered then some tip else none)).1 := by
    cases answered with
    | false => exact ⟨hi.invalidate generation, nofun⟩
    | true =>
      have hnew : HubInv p params node A tip tip { h with tip := some (tip, generation) } := by
        refine ⟨?_, hi.cachedReply⟩
        intro t ht
        obtain rfl := Option.some.inj ht
        exact ⟨le_rfl, le_rfl⟩
      refine ⟨hnew.anti hreach, ?_⟩
      intro t ht
      obtain rfl := Option.some.inj ht
      exact ⟨hreach, le_rfl, hnew⟩
  unfold Hub.latestBlock
  split
  · next t g htip =>
    split
    · refine ⟨hi, ?_⟩
      intro t' ht
      obtain rfl := Option.some.inj ht
      obtain ⟨hle, hnow⟩ := hi.cachedTip _ htip
      refine ⟨hle, hnow, ?_, hi.cachedReply⟩
      intro c hc
      obtain rfl := Option.some.inj (htip.symm.trans hc)
      exact ⟨le_rfl, hnow⟩
    · exact hfetch
  · exact hfetch

variable (generation) in
theorem HubInv.getServerInfo (hi : HubInv p params node A reach tip h) {reply : Option Report}
    (hplain : ∀ r ∈ reply, Plain p params node A tip r) :
    HubInv p params node A reach tip
        (h.getServerInfo generation (reply.map (node.reply tip))).1 ∧
      ∀ info ∈ (h.getServerInfo generation (reply.map (node.reply tip))).2,
        info ∈ h.cachedInfo generation ∨ ∃ r ∈ reply, info = node.reply tip r := by
  unfold Hub.getServerInfo
  split
  · next info hcached =>
    refine ⟨hi, ?_⟩
    intro info hinfo
    obtain rfl := Option.some.inj hinfo
    exact .inl hcached
  · cases reply with
    | none =>
      have hempty : HubInv p params node A reach tip
          { h with infoGeneration := generation, serverInfo := none } :=
        ⟨hi.cachedTip, fun info hinfo => by cases hinfo⟩
      exact ⟨hempty.invalidate generation, nofun⟩
    | some r =>
      refine ⟨⟨hi.cachedTip, ?_⟩, ?_⟩
      · intro info hinfo
        obtain rfl := Option.some.inj hinfo
        exact ⟨tip, r, rfl, le_rfl, hplain r rfl⟩
      · intro info hinfo
        obtain rfl := Option.some.inj hinfo
        exact .inr ⟨r, rfl, rfl⟩

theorem HubInv.cachedInfo (hi : HubInv p params node A reach tip h) :
    ∀ info ∈ h.cachedInfo generation, Genuine p params node A tip info := by
  intro info hinfo
  unfold Hub.cachedInfo at hinfo
  split at hinfo
  · exact hi.cachedReply info hinfo
  · cases hinfo

theorem HubInv.storeServerInfo (hi : HubInv p params node A reach tip h) {info : ServerInfo}
    (hinfo : Genuine p params node A tip info) :
    HubInv p params node A reach tip (h.storeServerInfo generation info) := by
  unfold Hub.storeServerInfo
  split
  · refine ⟨hi.cachedTip, ?_⟩
    intro i hstored
    obtain rfl := Option.some.inj hstored
    exact hinfo
  · exact hi

/-! ## The actor -/

/-- The last reply the actor went by was taken below the activation. -/
def Actor.Checked (A : ℕ) (a : Actor) : Prop := ∃ checked ∈ a.branchCheckedAt, checked < A

/-- What a connected actor knows where it stands. -/
def Actor.Clear (A : ℕ) (a : Actor) : Prop :=
  a.client.isSome = true →
    match a.pos with
    | .idle => a.reach < A ∧ a.Checked A
    | .preparing _ => True
    | .refreshing => a.Checked A
    | .rechecking => a.tipHeight = some a.reach ∧ a.Checked A

structure Inv (p : Protocol) (params : Params) (node : Node) (A : ℕ) (w : World) : Prop where
  reach : w.actor.reach ≤ w.tip
  hub : HubInv p params node A w.actor.reach w.tip w.hub
  clear : w.actor.Clear A
  batches : ∀ heights ∈ w.batches, ∀ h ∈ heights, h < A

variable {w : World} {a : Actor} {hub : Hub}

theorem Actor.drop_clear (a : Actor) : a.drop.Clear A := nofun

theorem Actor.refuseStale_reach (a : Actor) (pos : Pos) : (a.refuseStale pos).reach = a.reach := by
  unfold Actor.refuseStale
  split <;> rfl

theorem Actor.refuseStale_clear {pos : Pos}
    (h : (upstreamNotUpgraded a.unsupportedUpgrades a.tipHeight).isSome = false →
      ({ a with pos } : Actor).Clear A) : (a.refuseStale pos).Clear A := by
  unfold Actor.refuseStale
  split
  · exact nofun
  · next hnot => exact h (by simpa using hnot)

theorem Inv.move (hi : Inv p params node A w)
    (hhub : HubInv p params node A w.actor.reach w.tip hub) (hreach : a.reach = w.actor.reach)
    (hclear : a.Clear A) : Inv p params node A { w with hub, actor := a } :=
  ⟨hreach ▸ hi.reach, hreach ▸ hhub, hclear, hi.batches⟩

/-- A connect passes only over a reply taken below the activation, and where no refresh follows,
with the stored tip below it too. -/
theorem prepare_inv (hu : params u = some A) (hnever : NeverAdopts p node u A)
    (hi : Inv p params node A w) {generation : ℕ} {thenRefresh : Bool}
    {reply : Option Report} {healthy : Bool} (hpos : w.actor.pos = .preparing thenRefresh)
    (hclient : w.actor.client = some generation)
    (hplain : ∀ r ∈ reply, Plain p params node A w.tip r) (hstale : NotStale p params A w) :
    Inv p params node A (prepare p params node w generation thenRefresh reply healthy) := by
  have hget := hi.hub.getServerInfo generation hplain
  unfold prepare
  cases heq : w.hub.getServerInfo generation (reply.map (node.reply w.tip)) with
  | mk hub info =>
    rw [heq] at hget
    cases info with
    | none => exact hi.move hget.1 rfl w.actor.drop_clear
    | some info =>
      dsimp only
      cases healthy with
      | false => exact hi.move hget.1 rfl w.actor.drop_clear
      | true =>
        refine hi.move hget.1 ((w.actor.adopt p params info).refuseStale_reach _) ?_
        apply Actor.refuseStale_clear
        intro hpass _
        -- where the reply was taken, and why a passing one was taken below the activation
        obtain ⟨t, r, rfl, ht, hplain'⟩ : Genuine p params node A w.tip info := by
          rcases hget.2 info rfl with hcached | ⟨r, hr, rfl⟩
          · exact hi.hub.cachedInfo info hcached
          · exact ⟨w.tip, r, rfl, le_rfl, hplain r hr⟩
        have hlow : t < A := below_of_passes hu hnever hplain' hpass
        have hchecked : (w.actor.adopt p params (node.reply t r)).Checked A := ⟨t, rfl, hlow⟩
        cases thenRefresh with
        | true => exact hchecked
        | false =>
          refine ⟨?_, hchecked⟩
          change w.actor.reach < A
          by_contra hreached
          rcases hget.2 _ rfl with hcached | ⟨r', -, hinfo⟩
          · have hsome := hstale hpos generation hclient _ hcached t rfl hlow (not_lt.mp hreached)
            exact absurd (hsome.symm.trans hpass) (by decide)
          · have htip : t = w.tip := Option.some.inj (congrArg ServerInfo.tipHeight hinfo)
            have hle := hi.reach
            omega

theorem Actor.storeTip_reach {hasAccount : Bool} (h : a.reach ≤ tip) :
    (a.storeTip hasAccount tip).reach = tip := by
  have hstored : a.storedTip.getD 0 ≤ tip := (le_max_left _ _).trans h
  have hmax : maxTip a.storedTip tip = tip := by
    cases hold : a.storedTip with
    | none => rfl
    | some s =>
      rw [hold] at hstored
      exact max_eq_left hstored
  cases hasAccount with
  | false => exact max_eq_right hstored
  | true => exact (congrArg (max · tip) hmax).trans (max_self tip)

theorem refreshTip_inv (hi : Inv p params node A w) {generation : ℕ}
    {cached answered hasAccount stored : Bool} (hchecked : w.actor.Checked A) :
    Inv p params node A (refreshTip w generation cached answered hasAccount stored) := by
  have hlatest := hi.hub.latestBlock generation hi.reach cached answered
  unfold refreshTip
  cases heq : w.hub.latestBlock generation cached (if answered then some w.tip else none) with
  | mk hub tip =>
    rw [heq] at hlatest
    cases tip with
    | none => exact hi.move hlatest.1 rfl w.actor.drop_clear
    | some tip =>
      obtain ⟨hle, htip, hhub⟩ := hlatest.2 tip rfl
      dsimp only
      split
      · exact hi.move hlatest.1 rfl w.actor.drop_clear
      · have hreach : (w.actor.storeTip hasAccount tip).reach = tip := Actor.storeTip_reach hle
        refine ⟨hreach.trans_le htip, hreach.symm ▸ hhub, fun _ => ⟨?_, hchecked⟩, hi.batches⟩
        rw [hreach]
        rfl

theorem branchCheckDue_of (hu : params u = some A) {tipHeight checkedAt : Option ℕ}
    {checked : ℕ} (htip : tipHeight = some tip) (hc : checkedAt = some checked)
    (hlow : checked < A) (hreached : A ≤ tip) :
    tipHeight.any (branchCheckDue p params checkedAt) = true := by
  have hscheduled : (⟨u, upgradeName u, p.branchId u, A⟩ : ScheduledUpgrade) ∈
      scheduledUpgrades p params :=
    List.mem_filterMap.mpr ⟨u, mem_networkUpgrades u, by rw [hu]; rfl⟩
  rw [htip, Option.any_some, branchCheckDue, hc, Option.any_some, List.any_eq_true]
  exact ⟨_, hscheduled, by simp [hlow, hreached]⟩

/-- Where the tip crosses the activation the branch is read again, and the node refused. -/
theorem recheck_inv (hu : params u = some A) (hnever : NeverAdopts p node u A)
    (hi : Inv p params node A w) {generation : ℕ} {reply : Option Report}
    (htip : w.actor.tipHeight = some w.actor.reach) (hchecked : w.actor.Checked A)
    (hplain : ∀ r ∈ reply, Plain p params node A w.tip r) :
    Inv p params node A (recheck p params node w generation reply) := by
  obtain ⟨checked, hc, hlow⟩ := hchecked
  unfold recheck
  split
  · cases reply with
    | none => exact hi.move (hi.hub.invalidate generation) rfl w.actor.drop_clear
    | some r =>
      have hgenuine : Genuine p params node A w.tip (node.reply w.tip r) :=
        ⟨w.tip, r, rfl, le_rfl, hplain r rfl⟩
      refine hi.move (hi.hub.storeServerInfo hgenuine)
        ((w.actor.adopt p params _).refuseStale_reach _) ?_
      apply Actor.refuseStale_clear
      intro hpass _
      have hbelow : w.tip < A := below_of_passes hu hnever (hplain r rfl) hpass
      exact ⟨hi.reach.trans_lt hbelow, w.tip, rfl, hbelow⟩
  · next hdue =>
    refine hi.move hi.hub (w.actor.refuseStale_reach _) (Actor.refuseStale_clear fun _ _ => ?_)
    refine ⟨?_, checked, hc, hlow⟩
    change w.actor.reach < A
    by_contra hreached
    exact hdue (branchCheckDue_of hu htip hc hlow (not_lt.mp hreached))

theorem batch_inv (hi : Inv p params node A w) (hreach : w.actor.reach < A) (start blocks : ℕ) :
    Inv p params node A
      { w with batches := w.batches ++ [batchHeights w.actor.storedTip start blocks] } := by
  refine ⟨hi.reach, hi.hub, hi.clear, ?_⟩
  intro heights hmem h hh
  rcases List.mem_append.mp hmem with hold | hnew
  · exact hi.batches heights hold h hh
  · obtain rfl := List.mem_singleton.mp hnew
    obtain ⟨s, hs, hle⟩ := (Option.any_eq_true _ _).mp (List.mem_filter.mp hh).2
    have hle : h ≤ s := of_decide_eq_true hle
    have hstored : w.actor.storedTip.getD 0 = s := by rw [hs]; rfl
    have hmax : w.actor.storedTip.getD 0 ≤ w.actor.reach := le_max_left _ _
    omega

theorem bootstrap_reach {tip : ℕ} (htip : a.tipHeight = some tip) :
    ({ a with storedTip := some (maxTip a.storedTip tip) } : Actor).reach = a.reach := by
  cases hold : a.storedTip with
  | none => simp [Actor.reach, maxTip, htip, hold]
  | some s => simp [Actor.reach, maxTip, htip, hold, max_comm]

/-! ## Runs -/

theorem start_inv {tip : ℕ} {storedTip : Option ℕ} (h : ∀ s ∈ storedTip, s ≤ tip) :
    Inv p params node A (.start tip storedTip) := by
  refine ⟨?_, ⟨nofun, nofun⟩, nofun, nofun⟩
  cases storedTip with
  | none => exact Nat.zero_le tip
  | some s => exact max_le (h s rfl) (Nat.zero_le tip)

theorem step_inv (hu : params u = some A) (hnever : NeverAdopts p node u A) (w : World)
    (e : Event) (hi : Inv p params node A w) (he : Guarded p params node A w e) :
    Inv p params node A (step p params node w e) := by
  have hhub : ∀ {hub}, HubInv p params node A w.actor.reach w.tip hub →
      Inv p params node A { w with hub } :=
    fun hub => ⟨hi.reach, hub, hi.clear, hi.batches⟩
  cases e with
  | grow blocks =>
    have hle : w.tip ≤ w.tip + blocks := Nat.le_add_right _ _
    exact ⟨hi.reach.trans hle, hi.hub.mono hle, hi.clear, hi.batches⟩
  | otherAcquire dialed => exact hhub (hi.hub.acquire dialed)
  | otherFails generation => exact hhub (hi.hub.invalidate generation)
  | otherTip generation cached answered => exact hhub (hi.hub.latestBlock generation hi.reach _ _).1
  | otherInfo generation reply => exact hhub (hi.hub.getServerInfo generation he.1).1
  | otherRefresh generation ago reply =>
    exact hhub (hi.hub.storeServerInfo ⟨_, reply, rfl, Nat.sub_le _ _, he.1⟩)
  | acquire dialed thenRefresh =>
    have hacquired := hi.hub.acquire dialed
    simp only [step]
    split
    · cases heq : w.hub.acquire dialed with
      | mk hub generation =>
        rw [heq] at hacquired
        cases generation with
        | none => exact hhub hacquired
        | some generation => exact hi.move hacquired rfl fun _ => trivial
    · exact hi
  | prepare reply healthy =>
    simp only [step]
    split
    · next thenRefresh generation hpos hclient =>
      exact prepare_inv hu hnever hi hpos hclient he.1 (he.2 _ _ rfl)
    · exact hi
  | refreshTip cached answered hasAccount stored =>
    simp only [step]
    split
    · next generation hclient =>
      have hclear := hi.clear (by rw [hclient]; rfl)
      split
      · next hpos =>
        rcases hpos with hpos | hpos
        · rw [hpos] at hclear
          exact refreshTip_inv hi hclear.2
        · rw [hpos] at hclear
          exact refreshTip_inv hi hclear
      · exact hi
    · exact hi
  | recheck reply =>
    simp only [step]
    split
    · next generation hclient =>
      have hclear := hi.clear (by rw [hclient]; rfl)
      split
      · next hpos =>
        rw [hpos] at hclear
        exact recheck_inv hu hnever hi hclear.1 hclear.2 he.1
      · exact hi
    · exact hi
  | bootstrap =>
    simp only [step]
    split
    · next tip htip =>
      split
      · next hpos =>
        have hreach := bootstrap_reach htip
        refine hi.move hi.hub hreach fun hc => ?_
        have hclear := hi.clear hc
        simp only [hpos.1] at hclear ⊢
        exact ⟨hreach.trans_lt hclear.1, hclear.2⟩
      · exact hi
    · exact hi
  | batch start blocks =>
    simp only [step]
    split
    · next hpos =>
      have hclear := hi.clear hpos.2
      rw [hpos.1] at hclear
      exact batch_inv hi hclear.1 start blocks
    · exact hi
  | disconnect =>
    simp only [step]
    split
    · exact hi.move hi.hub rfl w.actor.drop_clear
    · exact hi

/-- Against a node that never adopts an upgrade, no run scans a block from its activation on, if
the scan queue starts within the node's chain, every reply is plain and no connect takes a
stale one. -/
theorem no_batch_past_activation (p : Protocol) (params : Params) (node : Node)
    (u : NetworkUpgrade) (A : ℕ) (hu : params u = some A) (hnever : NeverAdopts p node u A)
    (tip : ℕ) (storedTip : Option ℕ) (hstored : ∀ s ∈ storedTip, s ≤ tip) (es : List Event)
    (h : Along (step p params node) (Guarded p params node A) (.start tip storedTip) es) :
    ∀ heights ∈ (run (step p params node) (.start tip storedTip) es).batches,
      ∀ h ∈ heights, h < A :=
  (invariant (step_inv hu hnever) (start_inv hstored) h).batches

/-! ## A node that stays behind -/

/-- Distinct branch ids, and a network that schedules NU7 at 100. -/
def sampleProtocol : Protocol where
  branchId u := networkUpgrades.idxOf u + 1
  branchId_injective _ _ h := (List.idxOf_inj (mem_networkUpgrades _)).mp (Nat.succ.inj h)
  branchId_ne_zero _ := Nat.succ_ne_zero _

def sampleParams : Params
  | .nu7 => some 100
  | .nu6_3 => some 10
  | _ => some 1

def staysOnNu63 : Node := fun _ => sampleProtocol.branchId .nu6_3

theorem staysOnNu63_neverAdopts : NeverAdopts sampleProtocol staysOnNu63 .nu7 100 := by
  intro tip _ b hb
  obtain rfl : some .nu6_3 = b := Option.some.inj hb
  decide

/-- The wallet scans to 99, and the tip grows to 100; every reply carries the report. -/
def crossing (report : Report) : List Event :=
  [.acquire true true, .prepare (some report) true, .refreshTip false true true true,
    .recheck none, .batch 90 10, .grow 1, .refreshTip false true true true,
    .recheck (some report), .batch 100 1]

/-- A reply with no upgrades map is plain, and the crossing is refused. -/
theorem unlisted_refused :
    (run (step sampleProtocol sampleParams staysOnNu63) (.start 99 none)
      (crossing ⟨[], none⟩)).batches ≠ [] ∧
    ∀ heights ∈ (run (step sampleProtocol sampleParams staysOnNu63) (.start 99 none)
      (crossing ⟨[], none⟩)).batches, ∀ h ∈ heights, h < 100 := by
  refine ⟨by decide, ?_⟩
  refine no_batch_past_activation sampleProtocol sampleParams staysOnNu63 .nu7 100 rfl
    staysOnNu63_neverAdopts 99 none nofun _ ?_
  have hplain : ∀ tip, Plain sampleProtocol sampleParams staysOnNu63 100 tip ⟨[], none⟩ :=
    fun tip _ => ⟨⟨some .nu6_3, rfl⟩, nofun⟩
  refine ⟨⟨trivial, nofun⟩, ⟨?_, fun _ _ _ => nofun⟩, ⟨trivial, nofun⟩, ⟨nofun, nofun⟩,
    ⟨trivial, nofun⟩, ⟨trivial, nofun⟩, ⟨trivial, nofun⟩, ⟨?_, nofun⟩, ⟨trivial, nofun⟩, trivial⟩
  · rintro r ⟨⟩
    exact hplain 99
  · rintro r ⟨⟩
    exact hplain 100

/-- The node announces NU7, at 200. -/
def announcesLater : Report := ⟨[⟨sampleProtocol.branchId .nu7, "NU7", some 200, .pending⟩], none⟩

/-- Block 100 is scanned: the finding about NU7 stays one about its height. -/
theorem announcedLater_scanned :
    NeverAdopts sampleProtocol staysOnNu63 .nu7 100 ∧
      ¬ ∀ heights ∈ (run (step sampleProtocol sampleParams staysOnNu63) (.start 99 none)
        (crossing announcesLater)).batches, ∀ h ∈ heights, h < 100 := by
  refine ⟨staysOnNu63_neverAdopts, fun hbelow => ?_⟩
  have hscanned : [100] ∈ (run (step sampleProtocol sampleParams staysOnNu63) (.start 99 none)
      (crossing announcesLater)).batches := by
    decide
  exact absurd (hbelow _ hscanned 100 (List.mem_singleton_self _)) (by decide)

end Zecd.Upstream
