import Mathlib

/-! # Network upgrades and what an upstream says about them

The upgrades a build knows, the schedule a network gives them, and the findings computed from an
upstream's reply: upgrades this build cannot follow, and upgrades the upstream has not adopted.
-/

namespace Zecd.Upstream

inductive NetworkUpgrade
  | overwinter | sapling | blossom | heartwood | canopy | nu5 | nu6 | nu6_1 | nu6_2 | nu6_3 | nu7
  deriving DecidableEq, Repr

open NetworkUpgrade

/-- `NETWORK_UPGRADES`: every upgrade this build knows, oldest first. -/
def networkUpgrades : List NetworkUpgrade :=
  [overwinter, sapling, blossom, heartwood, canopy, nu5, nu6, nu6_1, nu6_2, nu6_3, nu7]

def upgradeName : NetworkUpgrade → String
  | overwinter => "Overwinter"
  | sapling => "Sapling"
  | blossom => "Blossom"
  | heartwood => "Heartwood"
  | canopy => "Canopy"
  | nu5 => "NU5"
  | nu6 => "NU6"
  | nu6_1 => "NU6.1"
  | nu6_2 => "NU6.2"
  | nu6_3 => "NU6.3"
  | nu7 => "NU7"

/-- A branch the protocol crate knows: the one an upgrade activates, or Sprout (`none`). -/
abbrev Branch := Option NetworkUpgrade

/-- The protocol crate's branch ids. Sprout's is 0. -/
structure Protocol where
  branchId : NetworkUpgrade → ℕ
  branchId_injective : Function.Injective branchId
  branchId_ne_zero : ∀ u, branchId u ≠ 0

/-- A network's activation heights. -/
abbrev Params := NetworkUpgrade → Option ℕ

variable {p : Protocol} {params : Params}

def Protocol.rawId (p : Protocol) : Branch → ℕ
  | none => 0
  | some u => p.branchId u

def Protocol.tryFrom (p : Protocol) (id : ℕ) : Option Branch :=
  if id = 0 then some none
  else (networkUpgrades.find? fun u => decide (p.branchId u = id)).map some

/-- `BranchId::for_height`: the newest upgrade active at the height. -/
def branchForHeight (params : Params) (height : ℕ) : Branch :=
  networkUpgrades.reverse.find? fun u => (params u).any fun a => decide (a ≤ height)

/-- `branch_rank`: a branch's position in upgrade order, Sprout first. -/
def branchRank : Branch → ℕ
  | none => 0
  | some u => networkUpgrades.idxOf u + 1

structure ScheduledUpgrade where
  upgrade : NetworkUpgrade
  name : String
  branchId : ℕ
  activationHeight : ℕ
  deriving DecidableEq, Repr

def scheduledUpgrades (p : Protocol) (params : Params) : List ScheduledUpgrade :=
  networkUpgrades.filterMap fun u =>
    (params u).map fun a => ⟨u, upgradeName u, p.branchId u, a⟩

/-! ## An upstream's reply and its findings -/

inductive UpgradeStatus
  | pending | active | other
  deriving DecidableEq, Repr

structure UpgradeInfo where
  branchId : ℕ
  name : String
  activationHeight : Option ℕ
  status : UpgradeStatus
  deriving DecidableEq, Repr

structure ServerInfo where
  tipHeight : Option ℕ
  upgrades : List UpgradeInfo
  tipBranchId : Option ℕ
  nextBlockBranchId : Option ℕ
  deriving DecidableEq, Repr

inductive UnsupportedKind where
  | unknownBranch
  | activationHeightMismatch (expected : Option ℕ)
  | upstreamNotUpgraded
  deriving DecidableEq, Repr

structure UnsupportedUpgrade where
  branchId : ℕ
  name : String
  activationHeight : Option ℕ
  active : Bool
  kind : UnsupportedKind
  deriving DecidableEq, Repr

def UpgradeInfo.inPlay (u : UpgradeInfo) : Bool :=
  decide (u.status = .active) || decide (u.status = .pending)

def unknownBranches (p : Protocol) (info : ServerInfo) : List UnsupportedUpgrade :=
  (info.upgrades.filter fun u => u.inPlay && (p.tryFrom u.branchId).isNone).map fun u =>
    ⟨u.branchId, u.name, u.activationHeight, decide (u.status = .active), .unknownBranch⟩

/-- A recognised branch in play at another height than this build's. -/
def heightMismatch (p : Protocol) (params : Params) (u : UpgradeInfo) :
    Option UnsupportedUpgrade :=
  match p.tryFrom u.branchId, u.activationHeight with
  | some (some nu), some theirs =>
    if params nu = some theirs then none
    else some ⟨u.branchId, u.name, some theirs, decide (u.status = .active),
      .activationHeightMismatch (params nu)⟩
  | _, _ => none

/-- Scheduled upgrades above every height the upstream lists, and absent from its map. -/
def beyondHorizon (p : Protocol) (params : Params) (info : ServerInfo) :
    List UnsupportedUpgrade :=
  match (info.upgrades.filterMap (·.activationHeight)).max? with
  | none => []
  | some horizon =>
    ((scheduledUpgrades p params).filter fun s =>
      decide (horizon < s.activationHeight) &&
        !info.upgrades.any fun u => decide (u.branchId = s.branchId)).map fun s =>
      ⟨s.branchId, s.name, some s.activationHeight,
        info.tipHeight.any fun t => decide (s.activationHeight ≤ t), .upstreamNotUpgraded⟩

/-- The first finding about the branch becomes active; `none` if there is no such finding. -/
def promote (id : ℕ) : List UnsupportedUpgrade → Option (List UnsupportedUpgrade)
  | [] => none
  | u :: us =>
    if u.branchId = id then some ({ u with active := true } :: us)
    else (promote id us).map (u :: ·)

/-- A branch that rules the tip or the next block is active, and reported if unknown. -/
def reportConsensus (p : Protocol) (out : List UnsupportedUpgrade) (id : ℕ) :
    List UnsupportedUpgrade :=
  match promote id out with
  | some out => out
  | none =>
    if (p.tryFrom id).isNone then out ++ [⟨id, "unknown upgrade", none, true, .unknownBranch⟩]
    else out

/-- The branch at a height against the one this build expects there. -/
def compareConsensus (p : Protocol) (params : Params) (out : List UnsupportedUpgrade)
    (at_ : Option ℕ × ℕ) : List UnsupportedUpgrade :=
  match at_.1.bind p.tryFrom with
  | none => out
  | some theirs =>
    let ours := branchForHeight params at_.2
    if theirs = ours then out
    else
      let (behind, kind) :=
        if branchRank theirs < branchRank ours then (ours, .upstreamNotUpgraded)
        else (theirs, UnsupportedKind.activationHeightMismatch (theirs.bind params))
      match promote (p.rawId behind) out with
      | some out => out
      | none =>
        out ++ [⟨p.rawId behind, behind.elim "unknown upgrade" upgradeName,
          if kind = .upstreamNotUpgraded then behind.bind params else none, true, kind⟩]

def unsupportedUpgrades (p : Protocol) (params : Params) (info : ServerInfo) :
    List UnsupportedUpgrade :=
  let out := unknownBranches p info ++
    (info.upgrades.filter UpgradeInfo.inPlay).filterMap (heightMismatch p params) ++
    beyondHorizon p params info
  let out := ([info.tipBranchId, info.nextBlockBranchId].filterMap id).foldl
    (reportConsensus p) out
  match info.tipHeight with
  | none => out
  | some tip =>
    -- the next height saturates at the largest a block can have
    [(info.tipBranchId, tip), (info.nextBlockBranchId, min (tip + 1) (2 ^ 32 - 1))].foldl
      (compareConsensus p params) out

/-- `upstream_not_upgraded`: the finding that makes the upstream unusable. -/
def upstreamNotUpgraded (upgrades : List UnsupportedUpgrade) (tip : Option ℕ) :
    Option UnsupportedUpgrade :=
  upgrades.find? fun u => decide (u.kind = .upstreamNotUpgraded) &&
    (u.active || u.activationHeight.any fun h => tip.any fun t => decide (h ≤ t))

/-- `branch_check_due`: the chain has reached an activation that the last reply had not. -/
def branchCheckDue (p : Protocol) (params : Params) (checkedAt : Option ℕ) (tip : ℕ) : Bool :=
  checkedAt.any fun checked => (scheduledUpgrades p params).any fun s =>
    decide (checked < s.activationHeight) && decide (s.activationHeight ≤ tip)

/-! ## When a reply is refused -/

theorem mem_networkUpgrades (u : NetworkUpgrade) : u ∈ networkUpgrades := by
  cases u <;> decide

theorem tryFrom_rawId (b : Branch) : p.tryFrom (p.rawId b) = some b := by
  cases b with
  | none => rfl
  | some u =>
    rw [Protocol.tryFrom, Protocol.rawId, if_neg (p.branchId_ne_zero u)]
    cases hfind : networkUpgrades.find? fun v => decide (p.branchId v = p.branchId u) with
    | none => simpa using List.find?_eq_none.mp hfind u (mem_networkUpgrades u)
    | some v =>
      have hv := List.find?_some hfind
      rw [decide_eq_true_eq] at hv
      rw [p.branchId_injective hv]
      rfl

theorem branchRank_le {u : NetworkUpgrade} {a height : ℕ} (ha : params u = some a)
    (hle : a ≤ height) : branchRank (some u) ≤ branchRank (branchForHeight params height) := by
  have hactive : (params u).any (fun a => decide (a ≤ height)) = true := by simp [ha, hle]
  cases hfind : branchForHeight params height with
  | none =>
    exact absurd hactive (List.find?_eq_none.mp hfind u (by simp [mem_networkUpgrades]))
  | some v =>
    obtain ⟨-, newer, older, hlist, hnot⟩ := List.find?_eq_some_iff_append.mp hfind
    have hsplit : networkUpgrades = older.reverse ++ v :: newer.reverse := by
      rw [← List.reverse_reverse networkUpgrades, hlist]
      simp
    have hnodup : (older.reverse ++ v :: newer.reverse).Nodup := by
      rw [← hsplit]
      decide
    have hv : v ∉ older.reverse := fun hmem =>
      List.disjoint_of_nodup_append hnodup hmem List.mem_cons_self
    have hidx : networkUpgrades.idxOf v = older.reverse.length := by
      rw [hsplit, List.idxOf_append_of_notMem hv, List.idxOf_cons_self, Nat.add_zero]
    simp only [branchRank, Nat.add_le_add_iff_right, hidx]
    rcases List.mem_append.mp (hsplit ▸ mem_networkUpgrades u) with hold | hrest
    · rw [hsplit, List.idxOf_append_of_mem hold]
      exact List.idxOf_lt_length_of_mem hold |>.le
    · rcases List.mem_cons.mp hrest with rfl | hnew
      · exact hidx.le
      · exact absurd hactive (by simpa using hnot u (by simpa using hnew))

theorem promote_spec {id : ℕ} {out out' : List UnsupportedUpgrade}
    (h : promote id out = some out') :
    (∃ f ∈ out, f.branchId = id ∧ { f with active := true } ∈ out') ∧
      (∀ f' ∈ out', ∃ f ∈ out, f'.branchId = f.branchId ∧ f'.kind = f.kind) ∧
      ∀ f ∈ out, ∃ f' ∈ out', f'.kind = f.kind ∧ (f.active = true → f'.active = true) := by
  induction out generalizing out' with
  | nil => cases h
  | cons u us ih =>
    simp only [promote] at h
    split at h
    · next hid =>
      obtain rfl := Option.some.inj h
      refine ⟨⟨u, by simp, hid, by simp⟩, ?_, ?_⟩
      · intro f' hf'
        rcases List.mem_cons.mp hf' with rfl | hf'
        · exact ⟨u, by simp, rfl, rfl⟩
        · exact ⟨f', by simp [hf'], rfl, rfl⟩
      · intro f hf
        rcases List.mem_cons.mp hf with rfl | hf
        · exact ⟨_, List.mem_cons_self, rfl, fun _ => rfl⟩
        · exact ⟨f, by simp [hf], rfl, fun h => h⟩
    · obtain ⟨us', hus, rfl⟩ := Option.map_eq_some_iff.mp h
      obtain ⟨⟨f, hf, hid, hmem⟩, hback, hforth⟩ := ih hus
      refine ⟨⟨f, by simp [hf], hid, by simp [hmem]⟩, ?_, ?_⟩
      · intro f' hf'
        rcases List.mem_cons.mp hf' with rfl | hf'
        · exact ⟨f', by simp, rfl, rfl⟩
        · obtain ⟨f, hf, hsame⟩ := hback f' hf'
          exact ⟨f, by simp [hf], hsame⟩
      · intro f hf
        rcases List.mem_cons.mp hf with rfl | hf
        · exact ⟨f, by simp, rfl, fun h => h⟩
        · obtain ⟨f', hf', hsame⟩ := hforth f hf
          exact ⟨f', by simp [hf'], hsame⟩

/-- An upgrade in force that the upstream has not adopted is among the findings. -/
def Refused (out : List UnsupportedUpgrade) : Prop :=
  ∃ f ∈ out, f.kind = .upstreamNotUpgraded ∧ f.active = true

/-- Whatever the findings say about the branch, they say the upstream has not adopted it. -/
def OnlyNotUpgraded (id : ℕ) (out : List UnsupportedUpgrade) : Prop :=
  ∀ f ∈ out, f.branchId = id → f.kind = .upstreamNotUpgraded

theorem upstreamNotUpgraded_isSome {out : List UnsupportedUpgrade} (h : Refused out)
    (tip : Option ℕ) : (upstreamNotUpgraded out tip).isSome = true := by
  obtain ⟨f, hf, hkind, hactive⟩ := h
  rw [upstreamNotUpgraded, List.find?_isSome]
  exact ⟨f, hf, by simp [hkind, hactive]⟩

theorem OnlyNotUpgraded.promote {id id' : ℕ} {out out' : List UnsupportedUpgrade}
    (h : OnlyNotUpgraded id out) (hout : promote id' out = some out') :
    OnlyNotUpgraded id out' := by
  intro f' hf' hid
  obtain ⟨f, hf, hbranch, hkind⟩ := (promote_spec hout).2.1 f' hf'
  rw [hkind]
  exact h f hf (hbranch ▸ hid)

theorem Refused.promote {id : ℕ} {out out' : List UnsupportedUpgrade} (h : Refused out)
    (hout : promote id out = some out') : Refused out' := by
  obtain ⟨f, hf, hkind, hactive⟩ := h
  obtain ⟨f', hf', hkind', hactive'⟩ := (promote_spec hout).2.2 f hf
  exact ⟨f', hf', hkind'.trans hkind, hactive' hactive⟩

theorem OnlyNotUpgraded.reportConsensus {b : Branch} {out : List UnsupportedUpgrade}
    (h : OnlyNotUpgraded (p.rawId b) out) (id : ℕ) :
    OnlyNotUpgraded (p.rawId b) (reportConsensus p out id) := by
  unfold Upstream.reportConsensus
  split
  · next hout => exact h.promote hout
  · split
    · next hnone =>
      intro f hf hid
      rcases List.mem_append.mp hf with hold | hnew
      · exact h f hold hid
      · obtain rfl := List.mem_singleton.mp hnew
        have hid : id = p.rawId b := hid
        rw [hid, tryFrom_rawId] at hnone
        cases hnone
    · exact h

theorem Refused.compareConsensus {out : List UnsupportedUpgrade} (h : Refused out)
    (at_ : Option ℕ × ℕ) : Refused (compareConsensus p params out at_) := by
  unfold Upstream.compareConsensus
  split
  · exact h
  · dsimp only
    split
    · exact h
    · split
      · next hout => exact h.promote hout
      · obtain ⟨f, hf, hfound⟩ := h
        exact ⟨f, List.mem_append_left _ hf, hfound⟩

/-- A branch older than the one this build expects is a refusal, unless the findings already say
something else about the expected one. -/
theorem refused_of_older {out : List UnsupportedUpgrade} {id tip : ℕ} {theirs : Branch}
    (hid : p.tryFrom id = some theirs)
    (hrank : branchRank theirs < branchRank (branchForHeight params tip))
    (h : OnlyNotUpgraded (p.rawId (branchForHeight params tip)) out) :
    Refused (compareConsensus p params out (some id, tip)) := by
  have hne : theirs ≠ branchForHeight params tip := by
    rintro rfl
    exact lt_irrefl _ hrank
  simp only [compareConsensus, Option.bind_some, hid, if_neg hne, if_pos hrank]
  split
  · next out' hout =>
    obtain ⟨f, hf, hbranch, hmem⟩ := (promote_spec hout).1
    exact ⟨_, hmem, h f hf hbranch, rfl⟩
  · exact ⟨_, List.mem_append_right _ (List.mem_singleton_self _), rfl, rfl⟩

/-- The reply does not list the branch this build expects at its tip as in play at another
height. -/
def ServerInfo.ListsAsExpected (p : Protocol) (params : Params) (info : ServerInfo) (tip : ℕ) :
    Prop :=
  ∀ u ∈ info.upgrades, u.inPlay = true →
    u.branchId = p.rawId (branchForHeight params tip) →
    ∀ theirs ∈ u.activationHeight, (branchForHeight params tip).bind params = some theirs

/-- A reply whose tip branch is known and older than the one this build expects at the tip is
refused, if it lists that one as expected or not at all. -/
theorem unsupportedUpgrades_refused {info : ServerInfo} {tip id : ℕ} {theirs : Branch}
    (htip : info.tipHeight = some tip) (hbranch : info.tipBranchId = some id)
    (hid : p.tryFrom id = some theirs)
    (hrank : branchRank theirs < branchRank (branchForHeight params tip))
    (hlist : info.ListsAsExpected p params tip) :
    Refused (unsupportedUpgrades p params info) := by
  have hout : OnlyNotUpgraded (p.rawId (branchForHeight params tip))
      (unknownBranches p info ++
        (info.upgrades.filter UpgradeInfo.inPlay).filterMap (heightMismatch p params) ++
        beyondHorizon p params info) := by
    intro f hf hfid
    rcases List.mem_append.mp hf with hf | hf
    · rcases List.mem_append.mp hf with hf | hf
      · -- the branch this build expects is a known one
        obtain ⟨u, hu, rfl⟩ := List.mem_map.mp hf
        have hfid : u.branchId = p.rawId _ := hfid
        rw [List.mem_filter, hfid, tryFrom_rawId] at hu
        simp at hu
      · -- and the reply lists it where this build does
        obtain ⟨u, hu, hmis⟩ := List.mem_filterMap.mp hf
        obtain ⟨hmem, hplay⟩ := List.mem_filter.mp hu
        unfold heightMismatch at hmis
        split at hmis
        · next nu height hnu hheight =>
          split at hmis
          · cases hmis
          · next hne =>
            obtain rfl := Option.some.inj hmis
            have hfid : u.branchId = p.rawId _ := hfid
            have hours := hlist u hmem hplay hfid height hheight
            rw [hfid, tryFrom_rawId] at hnu
            rw [Option.some.inj hnu] at hours
            exact absurd hours hne
        · cases hmis
    · unfold beyondHorizon at hf
      split at hf
      · cases hf
      · obtain ⟨s, -, rfl⟩ := List.mem_map.mp hf
        rfl
  have hreport : ∀ (ids : List ℕ) (out : List UnsupportedUpgrade),
      OnlyNotUpgraded (p.rawId (branchForHeight params tip)) out →
      OnlyNotUpgraded (p.rawId (branchForHeight params tip))
        (ids.foldl (reportConsensus p) out) := by
    intro ids
    induction ids with
    | nil => exact fun out h => h
    | cons i ids ih => exact fun out h => ih _ (h.reportConsensus i)
  simp only [unsupportedUpgrades, htip]
  rw [List.foldl_cons, List.foldl_cons, List.foldl_nil]
  refine Refused.compareConsensus ?_ _
  conv in (info.tipBranchId, tip) => rw [hbranch]
  exact refused_of_older hid hrank (hreport _ _ hout)

end Zecd.Upstream
