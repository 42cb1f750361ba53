import Zecd.Upstream.Refusal

/-! # What a reply is taken for

The findings about a reply are one list, added to by several checks and searched by branch id.
A reply on the expected branches is refused only for an upgrade that its map stops short of. A
branch is found twice only if the map has it twice.
-/

namespace Zecd.Upstream

variable {p : Protocol} {params : Params} {info : ServerInfo} {tip id : ℕ}
  {out out' : List UnsupportedUpgrade}

/-! ## The rule -/

/-- The scheduled upgrades that the reply's map stops short of: they are above every height it
lists, and not in it. -/
def missing (p : Protocol) (params : Params) (info : ServerInfo) : List ScheduledUpgrade :=
  match (info.upgrades.filterMap (·.activationHeight)).max? with
  | none => []
  | some horizon => (scheduledUpgrades p params).filter fun s =>
      decide (horizon < s.activationHeight) &&
        !info.upgrades.any fun u => decide (u.branchId = s.branchId)

/-- The entries of the reply's map that are findings as they stand: in play, and unknown or at
another height than this build's. -/
def reported (p : Protocol) (params : Params) (info : ServerInfo) : List UpgradeInfo :=
  (info.upgrades.filter UpgradeInfo.inPlay).filter fun u =>
    (p.tryFrom u.branchId).isNone || (heightMismatch p params u).isSome

/-- The branches of the tip and of the next block are those this build expects there. -/
def ServerInfo.AsExpected (p : Protocol) (params : Params) (info : ServerInfo) (tip : ℕ) : Prop :=
  info.tipBranchId = some (p.rawId (branchForHeight params tip)) ∧
    info.nextBlockBranchId = some (p.rawId (branchForHeight params (min (tip + 1) (2 ^ 32 - 1))))

/-- No upgrade in force is unadopted, and none will be found so at this tip. -/
def Healthy (out : List UnsupportedUpgrade) (tip : ℕ) : Prop :=
  ¬ Refused out ∧ upstreamNotUpgraded out (some tip) = none

/-- What the findings about a reply tell. -/
structure ToldApart (p : Protocol) (params : Params) (info : ServerInfo) : Prop where
  healthy : ∀ tip, info.tipHeight = some tip → info.AsExpected p params tip →
    (Healthy (unsupportedUpgrades p params info) tip ↔
      ∀ s ∈ missing p params info,
        tip < s.activationHeight ∧ info.nextBlockBranchId ≠ some s.branchId)
  stale : ∀ tip id theirs, info.tipHeight = some tip → info.tipBranchId = some id →
    p.tryFrom id = some theirs →
    branchRank theirs < branchRank (branchForHeight params tip) →
    info.ListsAsExpected p params tip →
    ∀ at_, (upstreamNotUpgraded (unsupportedUpgrades p params info) at_).isSome = true
  distinct : ((unsupportedUpgrades p params info).map UnsupportedUpgrade.branchId).Nodup ↔
    ((reported p params info).map UpgradeInfo.branchId).Nodup

/-! ## Promoting -/

/-- The findings with the first about the branch active, if there is one. -/
def promoted (id : ℕ) (out : List UnsupportedUpgrade) : List UnsupportedUpgrade :=
  (promote id out).getD out

theorem promote_branchIds (h : promote id out = some out') :
    out'.map UnsupportedUpgrade.branchId = out.map UnsupportedUpgrade.branchId := by
  induction out generalizing out' with
  | nil => cases h
  | cons u us ih =>
    rw [promote] at h
    split at h
    · cases h
      rfl
    · obtain ⟨us', hus, rfl⟩ := Option.map_eq_some_iff.mp h
      rw [List.map_cons, List.map_cons, ih hus]

theorem promote_eq_none : promote id out = none ↔ id ∉ out.map UnsupportedUpgrade.branchId := by
  induction out with
  | nil => simp [promote]
  | cons u us ih =>
    rw [promote, List.map_cons, List.mem_cons, not_or, ← ih]
    by_cases hid : u.branchId = id
    · simp [hid]
    · simp [hid, Ne.symm hid]

theorem mem_promoted {f' : UnsupportedUpgrade} (h : f' ∈ promoted id out) :
    ∃ f ∈ out, f'.branchId = f.branchId ∧ f'.kind = f.kind ∧
      f'.activationHeight = f.activationHeight ∧
      (f'.active = true → f.active = true ∨ f.branchId = id) := by
  unfold promoted at h
  induction out with
  | nil => cases h
  | cons u us ih =>
    rw [promote] at h
    split at h
    · next hid =>
      rw [Option.getD_some] at h
      rcases List.mem_cons.mp h with rfl | hus
      · exact ⟨u, List.mem_cons_self, rfl, rfl, rfl, fun _ => Or.inr hid⟩
      · exact ⟨f', List.mem_cons_of_mem _ hus, rfl, rfl, rfl, Or.inl⟩
    · have hcases : f' = u ∨ f' ∈ (promote id us).getD us := by
        cases hus : promote id us with
        | none => simpa [hus] using h
        | some us' => simpa [hus] using h
      rcases hcases with rfl | hus
      · exact ⟨f', List.mem_cons_self, rfl, rfl, rfl, Or.inl⟩
      · obtain ⟨f, hf, hsame⟩ := ih hus
        exact ⟨f, List.mem_cons_of_mem _ hf, hsame⟩

theorem Refused.promoted (h : Refused out) (id : ℕ) : Refused (promoted id out) := by
  unfold Upstream.promoted
  cases hout : Upstream.promote id out with
  | none => exact h
  | some out' => exact h.promote hout

/-- A branch that the findings only say is unadopted becomes a refusal by promotion. -/
theorem refused_promoted (h : OnlyNotUpgraded id out)
    (hmem : id ∈ out.map UnsupportedUpgrade.branchId) : Refused (promoted id out) := by
  cases hout : promote id out with
  | none => exact absurd hmem (promote_eq_none.mp hout)
  | some out' =>
    obtain ⟨f, hf, hid, hactive⟩ := (promote_spec hout).1
    rw [promoted, hout, Option.getD_some]
    exact ⟨_, hactive, h f hf hid, rfl⟩

/-! ## Replies on the expected branches -/

theorem reportConsensus_of_known {b : Branch} (hid : id = p.rawId b) :
    reportConsensus p out id = promoted id out := by
  rw [reportConsensus, promoted]
  cases promote id out with
  | some out' => rfl
  | none =>
    rw [hid, tryFrom_rawId]
    rfl

theorem compareConsensus_of_expected {height : ℕ} :
    compareConsensus p params out (some (p.rawId (branchForHeight params height)), height) =
      out := by
  rw [compareConsensus, Option.bind_some, tryFrom_rawId]
  exact if_pos rfl

/-- What the map gives rise to, before the branches of the tip are looked at. -/
def mapFindings (p : Protocol) (params : Params) (info : ServerInfo) : List UnsupportedUpgrade :=
  unknownBranches p info ++
    (info.upgrades.filter UpgradeInfo.inPlay).filterMap (heightMismatch p params) ++
    beyondHorizon p params info

theorem unsupportedUpgrades_of_expected (htip : info.tipHeight = some tip)
    (h : info.AsExpected p params tip) :
    unsupportedUpgrades p params info =
      promoted (p.rawId (branchForHeight params (min (tip + 1) (2 ^ 32 - 1))))
        (promoted (p.rawId (branchForHeight params tip)) (mapFindings p params info)) := by
  simp only [unsupportedUpgrades, htip, h.1, h.2, List.filterMap_cons, id, List.filterMap_nil,
    List.foldl_cons, List.foldl_nil, compareConsensus_of_expected]
  rw [reportConsensus_of_known rfl, reportConsensus_of_known rfl]
  rfl

theorem beyondHorizon_eq : beyondHorizon p params info = (missing p params info).map fun s =>
    ⟨s.branchId, s.name, some s.activationHeight,
      info.tipHeight.any fun t => decide (s.activationHeight ≤ t), .upstreamNotUpgraded⟩ := by
  unfold beyondHorizon missing
  cases (info.upgrades.filterMap (·.activationHeight)).max? with
  | none => rfl
  | some horizon => rfl

theorem mem_missing {s : ScheduledUpgrade} (h : s ∈ missing p params info) :
    s.branchId = p.branchId s.upgrade ∧ params s.upgrade = some s.activationHeight ∧
      ∀ u ∈ info.upgrades, u.branchId ≠ s.branchId := by
  unfold missing at h
  split at h
  · cases h
  · obtain ⟨hs, hcond⟩ := List.mem_filter.mp h
    obtain ⟨u, -, hu⟩ := List.mem_filterMap.mp hs
    obtain ⟨a, ha, rfl⟩ := Option.map_eq_some_iff.mp hu
    simp only [Bool.and_eq_true, Bool.not_eq_true', List.any_eq_false, decide_eq_true_eq] at hcond
    exact ⟨rfl, ha, hcond.2⟩

theorem heightMismatch_branchId {u : UpgradeInfo} {f : UnsupportedUpgrade}
    (h : heightMismatch p params u = some f) :
    f.branchId = u.branchId ∧ f.kind ≠ .upstreamNotUpgraded ∧ (p.tryFrom u.branchId).isSome := by
  unfold heightMismatch at h
  split at h
  · next hknown _ =>
    split at h
    · cases h
    · cases h
      exact ⟨rfl, nofun, by rw [hknown]; rfl⟩
  · cases h

theorem mapFindings_cases {f : UnsupportedUpgrade} (h : f ∈ mapFindings p params info) :
    ((∃ u ∈ info.upgrades, u.branchId = f.branchId) ∧ f.kind ≠ .upstreamNotUpgraded) ∨
      ∃ s ∈ missing p params info, f = ⟨s.branchId, s.name, some s.activationHeight,
        info.tipHeight.any fun t => decide (s.activationHeight ≤ t), .upstreamNotUpgraded⟩ := by
  rcases List.mem_append.mp h with hmap | hbeyond
  · left
    rcases List.mem_append.mp hmap with hunknown | hmismatch
    · obtain ⟨u, hu, rfl⟩ := List.mem_map.mp hunknown
      exact ⟨⟨u, (List.mem_filter.mp hu).1, rfl⟩, nofun⟩
    · obtain ⟨u, hu, hf⟩ := List.mem_filterMap.mp hmismatch
      obtain ⟨hid, hkind, -⟩ := heightMismatch_branchId hf
      exact ⟨⟨u, (List.mem_filter.mp hu).1, hid.symm⟩, hkind⟩
  · rw [beyondHorizon_eq] at hbeyond
    obtain ⟨s, hs, rfl⟩ := List.mem_map.mp hbeyond
    exact Or.inr ⟨s, hs, rfl⟩

section Missing

variable {s : ScheduledUpgrade}

theorem mem_mapFindings_of_missing (h : s ∈ missing p params info) :
    ⟨s.branchId, s.name, some s.activationHeight,
      info.tipHeight.any fun t => decide (s.activationHeight ≤ t), .upstreamNotUpgraded⟩ ∈
        mapFindings p params info := by
  refine List.mem_append_right _ ?_
  rw [beyondHorizon_eq]
  exact List.mem_map.mpr ⟨s, h, rfl⟩

theorem onlyNotUpgraded_of_missing (h : s ∈ missing p params info) :
    OnlyNotUpgraded s.branchId (mapFindings p params info) := by
  intro f hf hid
  rcases mapFindings_cases hf with ⟨⟨u, hu, hbranch⟩, -⟩ | ⟨s', -, rfl⟩
  · exact absurd (hbranch.trans hid) ((mem_missing h).2.2 u hu)
  · rfl

end Missing

theorem OnlyNotUpgraded.promoted {id' : ℕ} (h : OnlyNotUpgraded id out) :
    OnlyNotUpgraded id (promoted id' out) := by
  intro f' hf' hid
  obtain ⟨f, hf, hbranch, hkind, -⟩ := mem_promoted hf'
  rw [hkind]
  exact h f hf (hbranch ▸ hid)

theorem promoted_branchIds (id : ℕ) (out : List UnsupportedUpgrade) :
    (promoted id out).map UnsupportedUpgrade.branchId = out.map UnsupportedUpgrade.branchId := by
  unfold promoted
  cases hout : promote id out with
  | none => rfl
  | some out' => exact promote_branchIds hout

theorem expected_ne_of_future {s : ScheduledUpgrade} (hs : s ∈ missing p params info)
    (hfuture : tip < s.activationHeight) : s.branchId ≠ p.rawId (branchForHeight params tip) := by
  obtain ⟨hid, hheight, -⟩ := mem_missing hs
  intro heq
  cases hb : branchForHeight params tip with
  | none =>
    rw [hb, hid] at heq
    exact p.branchId_ne_zero _ heq
  | some v =>
    rw [hb, hid] at heq
    obtain rfl := p.branchId_injective heq
    have hactive : (params s.upgrade).any (fun a => decide (a ≤ tip)) = true := by
      rw [branchForHeight] at hb
      simpa using List.find?_some hb
    rw [hheight, Option.any_some, decide_eq_true_eq] at hactive
    omega

/-- On the expected branches a reply is refused for what its map stops short of: for an upgrade
in force, or one that is said to rule the next block. -/
theorem healthy_iff (htip : info.tipHeight = some tip) (h : info.AsExpected p params tip) :
    Healthy (unsupportedUpgrades p params info) tip ↔ ∀ s ∈ missing p params info,
      tip < s.activationHeight ∧ info.nextBlockBranchId ≠ some s.branchId := by
  rw [unsupportedUpgrades_of_expected htip h, h.2]
  constructor
  · rintro ⟨hnot, -⟩ s hs
    constructor
    · by_contra hpast
      refine hnot (Refused.promoted (Refused.promoted ?_ _) _)
      refine ⟨_, mem_mapFindings_of_missing hs, rfl, ?_⟩
      rw [htip, Option.any_some]
      exact decide_eq_true (not_lt.mp hpast)
    · intro hnext
      rw [Option.some_inj] at hnext
      apply hnot
      rw [hnext]
      refine refused_promoted (onlyNotUpgraded_of_missing hs).promoted ?_
      rw [promoted_branchIds]
      exact List.mem_map.mpr ⟨_, mem_mapFindings_of_missing hs, rfl⟩
  · intro hall
    have hinactive : ∀ f ∈ promoted (p.rawId (branchForHeight params (min (tip + 1) (2 ^ 32 - 1))))
        (promoted (p.rawId (branchForHeight params tip)) (mapFindings p params info)),
        f.kind = .upstreamNotUpgraded → f.active = false ∧ ∀ a ∈ f.activationHeight, tip < a := by
      intro f hf hkind
      obtain ⟨f₁, hf₁, hid₁, hkind₁, hheight₁, hactive₁⟩ := mem_promoted hf
      obtain ⟨f₀, hf₀, hid₀, hkind₀, hheight₀, hactive₀⟩ := mem_promoted hf₁
      rcases mapFindings_cases hf₀ with ⟨-, hother⟩ | ⟨s, hs, rfl⟩
      · exact absurd (hkind₀.symm.trans (hkind₁.symm.trans hkind)) hother
      · obtain ⟨hfuture, hnext⟩ := hall s hs
        refine ⟨?_, fun a ha => ?_⟩
        · rw [← Bool.not_eq_true]
          intro hactive
          rcases hactive₁ hactive with hactive | hid
          · rcases hactive₀ hactive with hactive | hid
            · rw [htip, Option.any_some, decide_eq_true_eq] at hactive
              omega
            · exact expected_ne_of_future hs hfuture hid
          · exact hnext (congrArg some (hid₀.symm.trans hid).symm)
        · rw [hheight₁, hheight₀, Option.mem_some_iff] at ha
          exact ha ▸ hfuture
    constructor
    · rintro ⟨f, hf, hkind, hactive⟩
      rw [(hinactive f hf hkind).1] at hactive
      cases hactive
    · rw [upstreamNotUpgraded, List.find?_eq_none]
      intro f hf
      simp only [Bool.and_eq_true, decide_eq_true_eq, Bool.or_eq_true, not_and, not_or]
      intro hkind
      obtain ⟨hactive, hheight⟩ := hinactive f hf hkind
      refine ⟨by simp [hactive], ?_⟩
      cases ha : f.activationHeight with
      | none => simp
      | some a => simpa using hheight a ha

/-! ## Branches found once -/

theorem nodup_append_new {ids : List ℕ} {i : ℕ} (h : i ∉ ids) :
    (ids ++ [i]).Nodup ↔ ids.Nodup := by
  rw [List.nodup_append]
  constructor
  · exact fun hids => hids.1
  · refine fun hids => ⟨hids, List.nodup_singleton i, fun a ha b hb => ?_⟩
    rintro rfl
    exact h (List.mem_singleton.mp hb ▸ ha)

theorem nodup_reportConsensus (id : ℕ) :
    ((reportConsensus p out id).map UnsupportedUpgrade.branchId).Nodup ↔
      (out.map UnsupportedUpgrade.branchId).Nodup := by
  unfold reportConsensus
  split
  · next hout => rw [promote_branchIds hout]
  · next hnone =>
    split
    · rw [List.map_append, List.map_singleton]
      exact nodup_append_new (promote_eq_none.mp hnone)
    · rfl

theorem nodup_compareConsensus (at_ : Option ℕ × ℕ) :
    ((compareConsensus p params out at_).map UnsupportedUpgrade.branchId).Nodup ↔
      (out.map UnsupportedUpgrade.branchId).Nodup := by
  unfold compareConsensus
  split
  · rfl
  · dsimp only
    split
    · rfl
    · split
      · next hout => rw [promote_branchIds hout]
      · next hnone =>
        rw [List.map_append, List.map_singleton]
        exact nodup_append_new (promote_eq_none.mp hnone)

theorem nodup_unsupportedUpgrades :
    ((unsupportedUpgrades p params info).map UnsupportedUpgrade.branchId).Nodup ↔
      ((mapFindings p params info).map UnsupportedUpgrade.branchId).Nodup := by
  have hreport : ∀ (ids : List ℕ) (out : List UnsupportedUpgrade),
      ((ids.foldl (reportConsensus p) out).map UnsupportedUpgrade.branchId).Nodup ↔
        (out.map UnsupportedUpgrade.branchId).Nodup := by
    intro ids
    induction ids with
    | nil => exact fun out => Iff.rfl
    | cons i ids ih => exact fun out => (ih _).trans (nodup_reportConsensus i)
  unfold unsupportedUpgrades
  cases info.tipHeight with
  | none => exact hreport _ _
  | some tip =>
    dsimp only
    rw [List.foldl_cons, List.foldl_cons, List.foldl_nil, nodup_compareConsensus,
      nodup_compareConsensus]
    exact hreport _ _

theorem nodup_scheduledUpgrades :
    ((scheduledUpgrades p params).map ScheduledUpgrade.branchId).Nodup := by
  have hids : ∀ us : List NetworkUpgrade, (((us.filterMap fun u => (params u).map fun a =>
      (⟨u, upgradeName u, p.branchId u, a⟩ : ScheduledUpgrade))).map
        ScheduledUpgrade.branchId).Sublist (us.map p.branchId) := by
    intro us
    induction us with
    | nil => exact List.Sublist.slnil
    | cons u us ih =>
      cases hu : params u with
      | none => simpa [hu] using ih.cons (p.branchId u)
      | some a => simpa [hu] using ih.cons_cons (p.branchId u)
  exact (hids networkUpgrades).nodup (List.Nodup.map p.branchId_injective (by decide))

theorem nodup_missing : ((missing p params info).map ScheduledUpgrade.branchId).Nodup := by
  unfold missing
  split
  · exact List.nodup_nil
  · exact (List.filter_sublist.map _).nodup nodup_scheduledUpgrades

theorem filter_or_perm {α : Type*} {q r : α → Bool} {l : List α}
    (h : ∀ a ∈ l, r a = true → q a = false) :
    (l.filter fun a => q a || r a).Perm (l.filter q ++ l.filter r) := by
  have hq : (l.filter fun a => q a || r a).filter q = l.filter q := by
    rw [List.filter_filter]
    exact List.filter_congr fun a _ => by cases q a <;> simp
  have hr : (l.filter fun a => q a || r a).filter (fun a => !q a) = l.filter r := by
    rw [List.filter_filter]
    refine List.filter_congr fun a ha => ?_
    cases hra : r a with
    | true => simp [h a ha hra]
    | false => cases q a <;> simp
  rw [← hq, ← hr]
  exact (List.filter_append_perm q _).symm

theorem mismatch_branchIds (us : List UpgradeInfo) :
    (us.filterMap (heightMismatch p params)).map UnsupportedUpgrade.branchId =
      (us.filter fun u => (heightMismatch p params u).isSome).map UpgradeInfo.branchId := by
  induction us with
  | nil => rfl
  | cons u us ih =>
    cases hu : heightMismatch p params u with
    | none => simpa [hu] using ih
    | some f => simpa [hu, (heightMismatch_branchId hu).1] using ih

theorem mapFindings_branchIds : ((mapFindings p params info).map UnsupportedUpgrade.branchId).Perm
    ((reported p params info).map UpgradeInfo.branchId ++
      (missing p params info).map ScheduledUpgrade.branchId) := by
  have hunknown : (unknownBranches p info).map UnsupportedUpgrade.branchId =
      ((info.upgrades.filter UpgradeInfo.inPlay).filter fun u =>
        (p.tryFrom u.branchId).isNone).map UpgradeInfo.branchId := by
    rw [unknownBranches, List.map_map, List.filter_filter]
    refine congrArg₂ List.map rfl (List.filter_congr fun u _ => Bool.and_comm _ _)
  have hbeyond : (beyondHorizon p params info).map UnsupportedUpgrade.branchId =
      (missing p params info).map ScheduledUpgrade.branchId := by
    rw [beyondHorizon_eq, List.map_map]
    rfl
  rw [mapFindings, List.map_append, List.map_append, hunknown, mismatch_branchIds, hbeyond,
    ← List.map_append]
  refine List.Perm.append_right _ ((filter_or_perm fun u _ hu => ?_).symm.map _)
  obtain ⟨f, hf⟩ := Option.isSome_iff_exists.mp hu
  rw [Option.isNone_eq_false_iff]
  exact (heightMismatch_branchId hf).2.2

theorem nodup_mapFindings : ((mapFindings p params info).map UnsupportedUpgrade.branchId).Nodup ↔
    ((reported p params info).map UpgradeInfo.branchId).Nodup := by
  rw [mapFindings_branchIds.nodup_iff, List.nodup_append]
  refine ⟨fun h => h.1, fun h => ⟨h, nodup_missing, ?_⟩⟩
  intro a ha b hb
  obtain ⟨u, hu, rfl⟩ := List.mem_map.mp ha
  obtain ⟨s, hs, rfl⟩ := List.mem_map.mp hb
  exact (mem_missing hs).2.2 u (List.mem_filter.mp (List.mem_filter.mp hu).1).1

variable (p params info) in
/-- What the findings tell about any reply. -/
theorem toldApart : ToldApart p params info where
  healthy _ := healthy_iff
  stale _ _ _ htip hbranch hid hrank hlist at_ :=
    upstreamNotUpgraded_isSome (unsupportedUpgrades_refused htip hbranch hid hrank hlist) at_
  distinct := nodup_unsupportedUpgrades.trans nodup_mapFindings

/-- On the expected branches, with a map that lists the first upgrade and no more. -/
def shortMap : ServerInfo where
  tipHeight := some 200
  upgrades := [⟨sampleProtocol.branchId .overwinter, "Overwinter", some 1, .active⟩]
  tipBranchId := some (sampleProtocol.branchId .nu7)
  nextBlockBranchId := some (sampleProtocol.branchId .nu7)

/-- A map with two entries for a branch that is not known. -/
def twiceListed : ServerInfo where
  tipHeight := some 200
  upgrades := [⟨999, "NU8", some 300, .pending⟩, ⟨999, "NU8", some 150, .active⟩]
  tipBranchId := some (sampleProtocol.branchId .nu7)
  nextBlockBranchId := some (sampleProtocol.branchId .nu7)

/-- The expected branches do not make a reply healthy, and a branch can be found twice. -/
theorem shortMap_refused :
    shortMap.AsExpected sampleProtocol sampleParams 200 ∧
      (upstreamNotUpgraded (unsupportedUpgrades sampleProtocol sampleParams shortMap)
        (some 200)).isSome = true ∧
      ((unsupportedUpgrades sampleProtocol sampleParams twiceListed).map fun f =>
        (f.branchId, f.active)) = [(999, false), (999, true)] := by
  refine ⟨⟨rfl, ?_⟩, by decide, by decide⟩
  decide

end Zecd.Upstream
