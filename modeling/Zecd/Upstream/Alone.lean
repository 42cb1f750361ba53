import Zecd.Upstream.Refusal

/-! # An actor on its own

Where no other consumer of the hub asks for the node's reply, no connect takes a stale one: a
refresh that crosses an activation replaces the cached reply, or takes the connection down.
-/

namespace Zecd.Upstream

open Runs

variable {p : Protocol} {params : Params} {node : Node} {u : NetworkUpgrade} {A : ℕ}
  {h hub : Hub} {w : World} {a : Actor} {generation : ℕ}

/-- No other consumer of the hub asks for the node's reply. -/
def OnOwn : Event → Prop
  | .otherInfo _ _ | .otherRefresh _ _ _ => False
  | _ => True

/-- The cached reply that a handle of the generation would be given is no older than the tip. -/
def FreshFor (A : ℕ) (w : World) (generation : ℕ) : Prop :=
  ∀ info ∈ w.hub.cachedInfo generation, ∀ tip ∈ info.tipHeight, A ≤ w.actor.reach → A ≤ tip

/-- An actor on its own: the cache holds the reply it goes by, and a new handle is given that
one only if it is as new as the tip. -/
structure Alone (A : ℕ) (w : World) : Prop where
  cached : w.hub.infoGeneration ≤ w.hub.generation
  handle : ∀ generation ∈ w.actor.client, generation ≤ w.hub.generation
  own : (∀ b, w.actor.pos ≠ .preparing b) → ∀ generation ∈ w.actor.client,
    w.hub.infoGeneration = generation ∧
      ∃ info ∈ w.hub.serverInfo, ∀ tip ∈ info.tipHeight, w.actor.branchCheckedAt = some tip
  preparing : ∀ b, w.actor.pos = .preparing b → ∀ generation ∈ w.actor.client,
    FreshFor A w generation
  redial : w.actor.pos ≠ .rechecking → w.hub.live = true → FreshFor A w w.hub.generation

theorem Alone.notStale (h : Alone A w) : NotStale p params A w := by
  intro hpos generation hg info hinfo tip htip hlow hreached
  have hle := h.preparing false hpos generation hg info hinfo tip htip hreached
  omega

theorem mem_cachedInfo {info : ServerInfo} :
    info ∈ h.cachedInfo generation ↔ h.infoGeneration = generation ∧ info ∈ h.serverInfo := by
  unfold Hub.cachedInfo
  split
  · next heq => simp [heq]
  · next hne => simp [hne]

/-- The cached reply is untouched, and a new handle is of the generation it would have been, or
of a new one. -/
structure Hub.Kept (h h' : Hub) : Prop where
  infoGeneration : h'.infoGeneration = h.infoGeneration
  serverInfo : h'.serverInfo = h.serverInfo
  generation : h.generation ≤ h'.generation
  redial : h'.live = true → h.generation < h'.generation ∨
    (h.live = true ∧ h'.generation = h.generation)

theorem Hub.Kept.refl (h : Hub) : h.Kept h := ⟨rfl, rfl, le_rfl, fun hl => .inr ⟨hl, rfl⟩⟩

theorem invalidate_kept (h : Hub) (generation : ℕ) : h.Kept (h.invalidate generation) := by
  unfold Hub.invalidate
  split
  · exact .refl h
  · exact ⟨rfl, rfl, le_rfl, nofun⟩

theorem acquire_kept (h : Hub) (dialed : Bool) : h.Kept (h.acquire dialed).1 := by
  unfold Hub.acquire
  split
  · exact .refl h
  · split
    · exact ⟨rfl, rfl, Nat.le_succ _, fun _ => .inl (Nat.lt_succ_self _)⟩
    · exact .refl h

theorem acquire_live {h h' : Hub} {dialed : Bool} {generation : ℕ}
    (heq : h.acquire dialed = (h', some generation)) :
    h'.live = true ∧ h'.generation = generation := by
  unfold Hub.acquire at heq
  split at heq
  · next hlive =>
    cases heq
    exact ⟨hlive, rfl⟩
  · split at heq <;> cases heq
    exact ⟨rfl, rfl⟩

theorem latestBlock_kept (h : Hub) (generation : ℕ) (cached : Bool) (fetched : Option ℕ) :
    h.Kept (h.latestBlock generation cached fetched).1 := by
  have hfetch : h.Kept (Hub.latestBlock.fetch h generation fetched).1 := by
    cases fetched with
    | none => exact invalidate_kept h generation
    | some tip => exact ⟨rfl, rfl, le_rfl, fun hl => .inr ⟨hl, rfl⟩⟩
  unfold Hub.latestBlock
  split
  · split
    · exact .refl h
    · exact hfetch
  · exact hfetch

theorem Hub.Kept.freshFor (hk : w.hub.Kept hub) (ha : Alone A w)
    (hpos : w.actor.pos ≠ .rechecking) (hreach : a.reach = w.actor.reach)
    (hlive : hub.live = true) : FreshFor A { w with hub, actor := a } hub.generation := by
  intro info hinfo tip htip hreached
  obtain ⟨hgen, hmem⟩ := mem_cachedInfo.mp hinfo
  have hcached := ha.cached
  rw [hk.infoGeneration] at hgen
  rw [hk.serverInfo] at hmem
  rcases hk.redial hlive with hnew | ⟨hold, hsame⟩
  · omega
  · exact ha.redial hpos hold info (mem_cachedInfo.mpr ⟨hgen.trans hsame, hmem⟩) tip htip
      (hreach ▸ hreached)

theorem Alone.kept (ha : Alone A w) (hk : w.hub.Kept hub) : Alone A { w with hub } := by
  refine ⟨?_, fun g hg => (ha.handle g hg).trans hk.generation, ?_, ?_,
    fun hpos => hk.freshFor ha hpos rfl⟩
  · exact hk.infoGeneration ▸ ha.cached.trans hk.generation
  · intro hpos generation hg
    rw [hk.infoGeneration, hk.serverInfo]
    exact ha.own hpos generation hg
  · intro b hpos generation hg info hinfo
    have hinfo := mem_cachedInfo.mp hinfo
    rw [hk.infoGeneration, hk.serverInfo] at hinfo
    exact ha.preparing b hpos generation hg info (mem_cachedInfo.mpr hinfo)

theorem Alone.dropped (hcached : hub.infoGeneration ≤ hub.generation) (hclient : a.client = none)
    (hfresh : hub.live = true → FreshFor A { w with hub, actor := a } hub.generation) :
    Alone A { w with hub, actor := a } := by
  have hnone : ∀ generation, generation ∉ a.client := fun _ hg => by simp [hclient] at hg
  exact ⟨hcached, fun g hg => absurd hg (hnone g), fun _ g hg => absurd hg (hnone g),
    fun _ _ g hg => absurd hg (hnone g), fun _ => hfresh⟩

theorem Alone.refuseStale {pos : Pos} (hcached : hub.infoGeneration ≤ hub.generation)
    (hhandle : ∀ g ∈ a.client, g ≤ hub.generation) (hpos : ∀ b, pos ≠ .preparing b)
    (hown : ∀ g ∈ a.client, hub.infoGeneration = g ∧
      ∃ info ∈ hub.serverInfo, ∀ tip ∈ info.tipHeight, a.branchCheckedAt = some tip)
    (hfresh : ∀ a' : Actor, a'.reach = a.reach → hub.live = true →
      FreshFor A { w with hub, actor := a' } hub.generation) :
    Alone A { w with hub, actor := a.refuseStale pos } := by
  have hreach := hfresh _ (a.refuseStale_reach pos)
  unfold Actor.refuseStale at hreach ⊢
  split at hreach
  · next hrefused =>
    rw [if_pos hrefused]
    exact .dropped hcached rfl hreach
  · next hnot =>
    rw [if_neg hnot]
    exact ⟨hcached, hhandle, fun _ => hown, fun b hb => absurd hb (hpos b), fun _ => hreach⟩

theorem freshFor_reply {r : Report} (hreach : a.reach ≤ w.tip)
    (hmem : hub.serverInfo = some (node.reply w.tip r)) (generation : ℕ) :
    FreshFor A { w with hub, actor := a } generation := by
  intro info hinfo tip htip hreached
  obtain rfl := Option.some.inj (hmem.symm.trans (mem_cachedInfo.mp hinfo).2)
  obtain rfl := Option.some.inj htip
  exact le_trans hreached hreach

theorem prepare_alone (ha : Alone A w) (hreach : w.actor.reach ≤ w.tip) {generation : ℕ}
    {thenRefresh : Bool} {reply : Option Report} {healthy : Bool}
    (hpos : w.actor.pos = .preparing thenRefresh) (hclient : w.actor.client = some generation) :
    Alone A (prepare p params node w generation thenRefresh reply healthy) := by
  have hhandle : ∀ g ∈ w.actor.client, g ≤ w.hub.generation := ha.handle
  have hne : w.actor.pos ≠ .rechecking := by simp [hpos]
  -- where the reply is in the cache, the rest is the same
  have hadopt : ∀ {hub : Hub} {info : ServerInfo}, hub.generation = w.hub.generation →
      hub.infoGeneration = generation → hub.serverInfo = some info →
      (∀ a : Actor, a.reach = w.actor.reach → hub.live = true →
        FreshFor A { w with hub, actor := a } hub.generation) →
      Alone A (if healthy then { w with hub, actor :=
        (w.actor.adopt p params info).refuseStale (if thenRefresh then .refreshing else .idle) }
        else { w with hub, actor := w.actor.drop }) := by
    intro hub info hgen hinfo hmem hfresh
    have hle : hub.infoGeneration ≤ hub.generation := by
      rw [hinfo, hgen]
      exact hhandle generation hclient
    split
    · refine Alone.refuseStale hle (fun g hg => hgen ▸ hhandle g hg) ?_ ?_ hfresh
      · intro b
        split <;> simp
      · intro g hg
        obtain rfl : generation = g := Option.some.inj (hclient.symm.trans hg)
        refine ⟨hinfo, info, hmem, fun tip htip => ?_⟩
        have htip : info.tipHeight = some tip := htip
        simp [Actor.adopt, htip]
    · exact .dropped hle rfl (hfresh _ rfl)
  unfold prepare Hub.getServerInfo
  cases hcached : w.hub.cachedInfo generation with
  | some info =>
    obtain ⟨hinfo, hmem⟩ := mem_cachedInfo.mp hcached
    exact hadopt rfl hinfo hmem fun a hr => (Hub.Kept.refl w.hub).freshFor ha hne hr
  | none =>
    cases reply with
    | some r =>
      exact hadopt rfl rfl rfl fun a hr _ => freshFor_reply (hr.trans_le hreach) rfl _
    | none =>
      refine .dropped ?_ rfl ?_
      · have hk := invalidate_kept
          { w.hub with infoGeneration := generation, serverInfo := none } generation
        rw [hk.infoGeneration]
        exact (hhandle generation hclient).trans hk.generation
      · intro _ info hinfo
        have hmem : info ∈ (Hub.invalidate
            { w.hub with infoGeneration := generation, serverInfo := none }
            generation).serverInfo := (mem_cachedInfo.mp hinfo).2
        rw [invalidate_serverInfo] at hmem
        cases hmem

theorem refreshTip_alone (ha : Alone A w) {generation : ℕ}
    {cached answered hasAccount stored : Bool}
    (hpos : w.actor.pos = .idle ∨ w.actor.pos = .refreshing) :
    Alone A (refreshTip w generation cached answered hasAccount stored) := by
  have hk := latestBlock_kept w.hub generation cached (if answered then some w.tip else none)
  have hne : w.actor.pos ≠ .rechecking := by rcases hpos with h | h <;> simp [h]
  have hnot : ∀ b, w.actor.pos ≠ .preparing b := by
    intro b
    rcases hpos with h | h <;> simp [h]
  unfold refreshTip
  cases heq : w.hub.latestBlock generation cached (if answered then some w.tip else none) with
  | mk hub tip =>
    rw [heq] at hk
    have hkept := ha.kept hk
    have hdrop : Alone A { w with hub, actor := w.actor.drop } :=
      .dropped hkept.cached rfl (hk.freshFor ha hne rfl)
    cases tip with
    | none => exact hdrop
    | some tip =>
      dsimp only
      split
      · exact hdrop
      · refine ⟨hkept.cached, hkept.handle, fun _ => hkept.own hnot, nofun, ?_⟩
        exact fun h => absurd rfl h

theorem recheck_alone (hu : params u = some A) (ha : Alone A w) (hreach : w.actor.reach ≤ w.tip)
    {generation : ℕ} {reply : Option Report} (hpos : w.actor.pos = .rechecking)
    (hclient : w.actor.client = some generation) (htip : w.actor.tipHeight = some w.actor.reach) :
    Alone A (recheck p params node w generation reply) := by
  obtain ⟨hgen, info, hmem, hchecked⟩ := ha.own (by simp [hpos]) generation hclient
  have hown : ∀ g ∈ w.actor.client, w.hub.infoGeneration = g := by
    intro g hg
    rw [hgen]
    exact Option.some.inj (hclient.symm.trans hg)
  unfold recheck
  split
  · cases reply with
    | some r =>
      have hstore : w.hub.storeServerInfo generation (node.reply w.tip r) =
          { w.hub with serverInfo := some (node.reply w.tip r) } := by
        rw [Hub.storeServerInfo, if_pos hgen]
      simp only [Option.map_some, Hub.refreshServerInfo, hstore]
      refine Alone.refuseStale ha.cached ha.handle (by simp) ?_
        fun a hr _ => freshFor_reply (le_of_eq_of_le hr hreach) rfl _
      exact fun g hg => ⟨hown g hg, _, rfl, fun tip ht => by
        obtain rfl := Option.some.inj ht
        rfl⟩
    | none =>
      -- the failure takes the connection down, if the handle was of the current one
      have hk := invalidate_kept w.hub generation
      refine .dropped ((ha.kept hk).cached) rfl fun hlive i hi => ?_
      exfalso
      obtain ⟨hi, -⟩ := mem_cachedInfo.mp hi
      rw [hk.infoGeneration, hgen] at hi
      unfold Hub.invalidate at hi hlive
      split at hlive
      · next hold =>
        rw [if_pos hold] at hi
        rcases hold with hold | hold
        · exact hold hi.symm
        · simp [hold] at hlive
      · cases hlive
  · next hdue =>
    have hfresh : ∀ a : Actor, a.reach = w.actor.reach →
        FreshFor A { w with actor := a } w.hub.generation := by
      intro a hr i hi tip ht hreached
      have hsame := (mem_cachedInfo.mp hi).2
      obtain rfl := Option.some.inj (hmem.symm.trans hsame)
      have hchecked := hchecked tip ht
      have hreached : A ≤ w.actor.reach := hr ▸ hreached
      by_contra hlow
      refine hdue (branchCheckDue_of hu htip hchecked (not_le.mp hlow) hreached)
    refine Alone.refuseStale ha.cached ha.handle (by simp) (fun g hg => ⟨hown g hg, info, hmem,
      hchecked⟩) fun a hr _ => hfresh a hr

theorem step_alone (hu : params u = some A) (e : Event) (hi : Inv p params node A w)
    (ha : Alone A w) (he : OnOwn e) : Alone A (step p params node w e) := by
  cases e with
  | grow blocks => exact ⟨ha.cached, ha.handle, ha.own, ha.preparing, ha.redial⟩
  | otherAcquire dialed => exact ha.kept (acquire_kept w.hub dialed)
  | otherFails generation => exact ha.kept (invalidate_kept w.hub generation)
  | otherTip generation cached answered => exact ha.kept (latestBlock_kept w.hub _ _ _)
  | otherInfo generation reply => exact he.elim
  | otherRefresh generation ago reply => exact he.elim
  | acquire dialed thenRefresh =>
    have hk := acquire_kept w.hub dialed
    simp only [step]
    split
    · next hpos =>
      have hne : w.actor.pos ≠ .rechecking := by simp [hpos.1]
      cases heq : w.hub.acquire dialed with
      | mk hub generation =>
        have hkept := ha.kept hk
        rw [heq] at hk hkept
        cases generation with
        | none => exact hkept
        | some generation =>
          obtain ⟨hlive, rfl⟩ := acquire_live heq
          have hfresh := fun a hr => hk.freshFor (a := a) ha hne hr hlive
          refine ⟨hkept.cached, ?_, ?_, ?_, fun _ _ => hfresh _ rfl⟩
          · intro g hg
            obtain rfl := Option.some.inj hg
            exact le_rfl
          · exact fun hnot => absurd rfl (hnot thenRefresh)
          · intro b _ g hg
            obtain rfl := Option.some.inj hg
            exact hfresh _ rfl
    · exact ha
  | prepare reply healthy =>
    simp only [step]
    split
    · next thenRefresh generation hpos hclient => exact prepare_alone ha hi.reach hpos hclient
    · exact ha
  | refreshTip cached answered hasAccount stored =>
    simp only [step]
    split
    · split
      · next hpos => exact refreshTip_alone ha hpos
      · exact ha
    · exact ha
  | recheck reply =>
    simp only [step]
    split
    · next generation hclient =>
      split
      · next hpos =>
        have hclear := hi.clear (by rw [hclient]; rfl)
        rw [hpos] at hclear
        exact recheck_alone hu ha hi.reach hpos hclient hclear.1
      · exact ha
    · exact ha
  | bootstrap =>
    simp only [step]
    split
    · next tip htip =>
      split
      · next hpos =>
        have hreach := bootstrap_reach htip
        refine ⟨ha.cached, ha.handle, ha.own, ?_, ?_⟩
        · intro b hb
          cases hpos.1.symm.trans hb
        · intro hne hlive info hinfo t ht hreached
          exact ha.redial hne hlive info hinfo t ht (hreach ▸ hreached)
      · exact ha
    · exact ha
  | batch start blocks =>
    simp only [step]
    split
    · exact ⟨ha.cached, ha.handle, ha.own, ha.preparing, ha.redial⟩
    · exact ha
  | disconnect =>
    simp only [step]
    split
    · next hpos =>
      exact .dropped ha.cached rfl fun hlive =>
        (Hub.Kept.refl w.hub).freshFor ha (by simp [hpos]) rfl hlive
    · exact ha

/-- An actor on its own scans no block from the activation on, if every reply is plain. -/
theorem alone_no_batch (hu : params u = some A) (hnever : NeverAdopts p node u A) {tip : ℕ}
    {storedTip : Option ℕ} (hstored : ∀ s ∈ storedTip, s ≤ tip) {es : List Event}
    (hown : ∀ e ∈ es, OnOwn e)
    (hplain : Along (step p params node) (PlainReplies p params node A) (.start tip storedTip) es) :
    ∀ heights ∈ (run (step p params node) (.start tip storedTip) es).batches,
      ∀ h ∈ heights, h < A := by
  have hstart : Alone A (.start tip storedTip) := ⟨le_rfl, nofun, fun _ => nofun, nofun, nofun⟩
  have hboth : ∀ w e, Inv p params node A w ∧ Alone A w →
      PlainReplies p params node A w e ∧ OnOwn e →
      Inv p params node A (step p params node w e) ∧ Alone A (step p params node w e) := by
    rintro w e ⟨hi, ha⟩ ⟨hp, ho⟩
    exact ⟨step_inv hu hnever w e hi ⟨hp, fun _ _ _ => ha.notStale⟩, step_alone hu e hi ha ho⟩
  exact (invariant hboth ⟨start_inv hstored, hstart⟩ (along_and_forall hplain hown)).1.batches

/-- The wallet scans to 99 and loses its client; the tip grows to 100, and the hub answers the new
connect from its cache. -/
def reconnecting : List Event :=
  [.acquire true true, .prepare (some ⟨[], none⟩) true, .refreshTip false true true true,
    .recheck none, .batch 90 10, .disconnect, .grow 1, .acquire true true, .prepare none true,
    .refreshTip false true true true, .recheck (some ⟨[], none⟩), .batch 100 1]

theorem alone_no_batch_reconnecting :
    (run (step sampleProtocol sampleParams staysOnNu63) (.start 99 none) reconnecting).batches =
      [List.range' 90 10] ∧
    ∀ heights ∈ (run (step sampleProtocol sampleParams staysOnNu63) (.start 99 none)
      reconnecting).batches, ∀ h ∈ heights, h < 100 := by
  have hplain : ∀ tip, Plain sampleProtocol sampleParams staysOnNu63 100 tip ⟨[], none⟩ :=
    fun tip _ => ⟨⟨some .nu6_3, rfl⟩, nofun⟩
  have hstored : ∀ s ∈ (none : Option ℕ), s ≤ 99 := nofun
  have hown : ∀ e ∈ reconnecting, OnOwn e := by
    simp [reconnecting, OnOwn]
  refine ⟨by decide, alone_no_batch (u := .nu7) rfl staysOnNu63_neverAdopts hstored hown
    ⟨trivial, ?_, trivial, nofun, trivial, trivial, trivial, trivial, nofun, trivial, ?_, trivial,
      trivial⟩⟩
  · rintro r ⟨⟩
    exact hplain 99
  · rintro r ⟨⟩
    exact hplain 100

end Zecd.Upstream
