import Zecd.Config.Quoted
import Zecd.Send.Ceilings

/-! # Reloading the configuration

A reload applies the two live ceilings, and names every other key that differs as one that needs
a restart. The differences are read off the renderings of the two configurations, comments and
all.
-/

namespace Zecd.Config

open KeyedText KeyDiff

/-! ## The reload -/

structure ReloadReport where
  /-- The key, the value before and the value after. -/
  applied : List (List Char × List Char × List Char)
  requiresRestart : List (List Char)
  deriving DecidableEq

def orchardActionLimitKey : List Char := "spend.orchard_action_limit".toList

def maxTxBytesKey : List Char := "spend.max_tx_bytes".toList

def reloadableKeys : List (List Char) := [orchardActionLimitKey, maxTxBytesKey]

def changedKeys (lib : Libraries) (running fresh : AppConfig) : List (List Char) :=
  KeyDiff.changedKeys (keyed (render lib running)) (keyed (render lib fresh))

/-- A live cell takes the fresh value if it holds another. -/
def applyLimit (key : List Char) (current fresh : ℕ) :
    ℕ × List (List Char × List Char × List Char) :=
  if fresh ≠ current then (fresh, [(key, Nat.toDigits 10 current, Nat.toDigits 10 fresh)])
  else (current, [])

def applyReload (lib : Libraries) (running fresh : AppConfig) (limits : SpendLimits) :
    SpendLimits × ReloadReport :=
  let actions :=
    applyLimit orchardActionLimitKey limits.orchardActionLimit fresh.spend.orchardActionLimit
  let bytes := applyLimit maxTxBytesKey limits.maxTxBytes fresh.spend.maxTxBytes
  (⟨actions.1, bytes.1⟩,
    ⟨actions.2 ++ bytes.2,
      (changedKeys lib running fresh).filter fun key => decide (key ∉ reloadableKeys)⟩)

/-! ## What it should report -/

def SpendConfig.limits (s : SpendConfig) : SpendLimits := ⟨s.orchardActionLimit, s.maxTxBytes⟩

def live (limits : SpendLimits) : List (List Char × ℕ) :=
  [(orchardActionLimitKey, limits.orchardActionLimit), (maxTxBytesKey, limits.maxTxBytes)]

def value (lib : Libraries) (c : AppConfig) (k : List Char) : Option Value :=
  (get (settings lib c) k).map Shown.value

/-- Exactly what changed is reported, and a second reload has nothing to apply. -/
structure ReportsExactly (lib : Libraries) (running fresh : AppConfig) (limits : SpendLimits) :
    Prop where
  limits_eq : (applyReload lib running fresh limits).1 = fresh.spend.limits
  applied_nodup : ((applyReload lib running fresh limits).2.applied.map Prod.fst).Nodup
  mem_applied : ∀ k old new, (k, old, new) ∈ (applyReload lib running fresh limits).2.applied ↔
    ∃ a b, (k, a) ∈ live limits ∧ (k, b) ∈ live fresh.spend.limits ∧ a ≠ b ∧
      old = Nat.toDigits 10 a ∧ new = Nat.toDigits 10 b
  restart_nodup : (applyReload lib running fresh limits).2.requiresRestart.Nodup
  mem_restart : ∀ k, k ∈ (applyReload lib running fresh limits).2.requiresRestart ↔
    k ∉ reloadableKeys ∧ value lib running k ≠ value lib fresh k
  again : (applyReload lib running fresh (applyReload lib running fresh limits).1).2.applied = []

/-- The comment is the same behind the same value, and values that differ are told apart by
their text. -/
def Tells (s t : Shown) : Prop :=
  (s.value = t.value → s.comment = t.comment) ∧
    (s.value.displayed = t.value.displayed → s.comment = t.comment → s.value = t.value)

instance (s t : Shown) : Decidable (Tells s t) := inferInstanceAs (Decidable (_ ∧ _))

/-- Of the keys that both configurations have, the text tells which have changed. -/
def SettingsTell (lib : Libraries) (running fresh : AppConfig) : Prop :=
  ∀ x ∈ settings lib running, ∀ y ∈ settings lib fresh,
    x.1 = y.1 → x.1 ∉ reloadableKeys → Tells x.2 y.2

instance (lib : Libraries) (running fresh : AppConfig) :
    Decidable (SettingsTell lib running fresh) :=
  inferInstanceAs (Decidable (∀ x ∈ _, ∀ y ∈ _, _ → _ → _))

instance (lib : Libraries) (c : AppConfig) : Decidable (Clean lib c) :=
  inferInstanceAs (Decidable (∀ l ∈ _, ¬ _))

/-! ## The live keys -/

section Live

variable {key k old new : List Char} {current fresh a b : ℕ}

theorem applyLimit_fst (key : List Char) (current fresh : ℕ) :
    (applyLimit key current fresh).1 = fresh := by
  unfold applyLimit
  split
  · rfl
  · next h => exact (not_not.mp h).symm

theorem mem_applyLimit : (k, old, new) ∈ (applyLimit key current fresh).2 ↔
    k = key ∧ current ≠ fresh ∧ old = Nat.toDigits 10 current ∧ new = Nat.toDigits 10 fresh := by
  unfold applyLimit
  split
  · next h => simp [Ne.symm h]
  · next h => simp [not_not.mp h]

theorem applyLimit_map_fst_sublist (key : List Char) (current fresh : ℕ) :
    ((applyLimit key current fresh).2.map Prod.fst).Sublist [key] := by
  unfold applyLimit
  split
  · exact List.Sublist.refl _
  · exact List.nil_sublist _

theorem applyLimit_self (key : List Char) (n : ℕ) : (applyLimit key n n).2 = [] := by
  rw [applyLimit, if_neg (not_not.mpr rfl)]

end Live

section Reload

variable {lib : Libraries} {running fresh : AppConfig} {limits : SpendLimits} {k : List Char}

theorem applyReload_limits (lib : Libraries) (running fresh : AppConfig) (limits : SpendLimits) :
    (applyReload lib running fresh limits).1 = fresh.spend.limits := by
  simp only [applyReload, applyLimit_fst, SpendConfig.limits]

theorem reloadableKeys_nodup : reloadableKeys.Nodup := by decide

theorem applied_nodup (lib : Libraries) (running fresh : AppConfig) (limits : SpendLimits) :
    ((applyReload lib running fresh limits).2.applied.map Prod.fst).Nodup := by
  simp only [applyReload, List.map_append]
  exact ((applyLimit_map_fst_sublist _ _ _).append
    (applyLimit_map_fst_sublist _ _ _)).nodup reloadableKeys_nodup

theorem mem_applied (k old new : List Char) :
    (k, old, new) ∈ (applyReload lib running fresh limits).2.applied ↔
      ∃ a b, (k, a) ∈ live limits ∧ (k, b) ∈ live fresh.spend.limits ∧ a ≠ b ∧
        old = Nat.toDigits 10 a ∧ new = Nat.toDigits 10 b := by
  have hkeys : orchardActionLimitKey ≠ maxTxBytesKey := by decide
  simp only [applyReload, List.mem_append, mem_applyLimit, live, SpendConfig.limits,
    List.mem_cons, Prod.mk.injEq, List.not_mem_nil, or_false]
  constructor
  · rintro (⟨rfl, hne, rfl, rfl⟩ | ⟨rfl, hne, rfl, rfl⟩)
    · exact ⟨_, _, Or.inl ⟨rfl, rfl⟩, Or.inl ⟨rfl, rfl⟩, hne, rfl, rfl⟩
    · exact ⟨_, _, Or.inr ⟨rfl, rfl⟩, Or.inr ⟨rfl, rfl⟩, hne, rfl, rfl⟩
  · rintro ⟨a, b, ⟨rfl, rfl⟩ | ⟨rfl, rfl⟩, ⟨hk, rfl⟩ | ⟨hk, rfl⟩, hne, rfl, rfl⟩
    · exact Or.inl ⟨rfl, hne, rfl, rfl⟩
    · exact absurd hk hkeys
    · exact absurd hk.symm hkeys
    · exact Or.inr ⟨rfl, hne, rfl, rfl⟩

theorem applied_again (lib : Libraries) (running fresh : AppConfig) (limits : SpendLimits) :
    (applyReload lib running fresh (applyReload lib running fresh limits).1).2.applied = [] := by
  rw [applyReload_limits]
  simp only [applyReload, SpendConfig.limits, applyLimit_self, List.append_nil]

/-! ## The keys that need a restart -/

theorem restart_nodup (lib : Libraries) (running fresh : AppConfig) (limits : SpendLimits) :
    (applyReload lib running fresh limits).2.requiresRestart.Nodup :=
  (nodup_changedKeys _ _).filter _

theorem mem_requiresRestart (hlib : lib.Lawful) (hrunning : Clean lib running)
    (hfresh : Clean lib fresh) :
    k ∈ (applyReload lib running fresh limits).2.requiresRestart ↔
      k ∉ reloadableKeys ∧
        (get (settings lib running) k).map (fun s => trimEnd (s.printed lib)) ≠
          (get (settings lib fresh) k).map fun s => trimEnd (s.printed lib) := by
  have hkeys : ∀ c, ((settings lib c).map (readAs lib)).map Prod.fst =
      (settings lib c).map Prod.fst := fun c => List.map_map
  have hread : ∀ c, get ((settings lib c).map (readAs lib)) k =
      (get (settings lib c) k).map fun s => trimEnd (s.printed lib) := fun c =>
    get_map (fun s : Shown => trimEnd (s.printed lib)) (settings lib c) k
  simp only [applyReload, changedKeys, keyed_render hlib hrunning, keyed_render hlib hfresh,
    List.mem_filter, decide_eq_true_eq]
  rw [mem_changedKeys (hkeys running ▸ settings_nodup lib running)
    (hkeys fresh ▸ settings_nodup lib fresh), hread, hread, and_comm]

theorem value_displayed {s t : Shown} (h : s.value = t.value) :
    s.value.displayed = t.value.displayed :=
  congrArg Value.displayed h

theorem tells_iff {s t : Shown} (hlib : lib.Lawful) :
    Tells s t ↔ (trimEnd (s.printed lib) = trimEnd (t.printed lib) ↔ s.value = t.value) := by
  rw [printed_eq_iff hlib]
  constructor
  · rintro ⟨hcomment, hvalue⟩
    exact ⟨fun h => hvalue h.1 h.2, fun h => ⟨value_displayed h, hcomment h⟩⟩
  · intro h
    exact ⟨fun hvalue => (h.mpr hvalue).2, fun hshown hcomment => h.mp ⟨hshown, hcomment⟩⟩

/-- The reload reports exactly what changed if and only if the text tells which keys have. -/
theorem reportsExactly_iff (hlib : lib.Lawful) (hrunning : Clean lib running)
    (hfresh : Clean lib fresh) :
    ReportsExactly lib running fresh limits ↔ SettingsTell lib running fresh := by
  constructor
  · rintro h ⟨k, s⟩ hs ⟨_, t⟩ ht rfl hk
    have hmem := h.mem_restart k
    rw [mem_requiresRestart hlib hrunning hfresh, value, value,
      (get_eq_some_iff (settings_nodup lib running)).mpr hs,
      (get_eq_some_iff (settings_nodup lib fresh)).mpr ht] at hmem
    simp only [hk, not_false_eq_true, true_and, Option.map_some, ne_eq, Option.some.injEq,
      not_iff_not] at hmem
    exact (tells_iff hlib).mpr hmem
  · intro h
    refine ⟨applyReload_limits _ _ _ _, applied_nodup _ _ _ _, mem_applied, restart_nodup _ _ _ _,
      ?_, applied_again _ _ _ _⟩
    intro k
    rw [mem_requiresRestart hlib hrunning hfresh, value, value]
    apply and_congr_right
    intro hk
    cases hs : get (settings lib running) k with
    | none => cases ht : get (settings lib fresh) k <;> simp
    | some s =>
      cases ht : get (settings lib fresh) k with
      | none => simp
      | some t =>
        have htells := h _ ((get_eq_some_iff (settings_nodup lib running)).mp hs) _
          ((get_eq_some_iff (settings_nodup lib fresh)).mp ht) rfl hk
        simpa only [Option.map_some, ne_eq, Option.some.injEq, not_iff_not] using
          (tells_iff hlib).mp htells

/-- Where both configurations have the same keys in the same order, each setting is compared with
the one in its place. -/
theorem settingsTell_of_zip
    (hkeys : (settings lib running).map Prod.fst = (settings lib fresh).map Prod.fst)
    (h : ∀ x ∈ (settings lib running).zip (settings lib fresh),
      x.1.1 ∉ reloadableKeys → Tells x.1.2 x.2.2) : SettingsTell lib running fresh := by
  intro x hx y hy hxy hk
  obtain ⟨i, hi, rfl⟩ := List.getElem_of_mem hx
  have hi' : i < (settings lib fresh).length := by
    have hlen := congrArg List.length hkeys
    rw [List.length_map, List.length_map] at hlen
    exact hlen ▸ hi
  have hkey : (settings lib running)[i].1 = (settings lib fresh)[i].1 := by
    have hkey := List.getElem_of_eq hkeys (i := i) (by rwa [List.length_map])
    rwa [List.getElem_map, List.getElem_map] at hkey
  obtain rfl : (settings lib fresh)[i] = y :=
    List.inj_on_of_nodup_map (settings_nodup lib fresh) (List.getElem_mem _) hy
      (hkey.symm.trans hxy)
  refine h (_, _) (List.mem_iff_getElem.mpr ⟨i, ?_, List.getElem_zip⟩) hk
  rw [List.length_zip]
  exact lt_min hi hi'

end Reload

/-! ## An edit that reaches another key -/

/-- A smaller batch, and a higher ceiling on a transaction's actions. -/
def editedConfig : AppConfig :=
  let c := defaultConfig .test
  { c with
    sync := { c.sync with batchSize := 1000 }
    spend := { c.spend with orchardActionLimit := 100 } }

theorem defaultConfig_clean : Clean Quoted.libraries (defaultConfig .test) :=
  clean_iff.mpr ⟨by decide +kernel, by decide +kernel⟩

theorem edited_reportsExactly :
    ReportsExactly Quoted.libraries (defaultConfig .test) editedConfig ⟨50, 250000⟩ :=
  (reportsExactly_iff Quoted.lawful defaultConfig_clean
    (clean_iff.mpr ⟨by decide +kernel, by decide +kernel⟩)).mpr
      (settingsTell_of_zip rfl (by decide +kernel))

/-- The token `zebra` stands for another port on another network: where the network changes, the
token is reported although it is the same. -/
theorem network_reports_server :
    ¬ ReportsExactly Quoted.libraries (defaultConfig .test) (defaultConfig .main) ⟨50, 250000⟩ := by
  intro h
  have hmain : Clean Quoted.libraries (defaultConfig .main) :=
    clean_iff.mpr ⟨by decide +kernel, by decide +kernel⟩
  have hserver := (h.mem_restart "backend.server".toList).mp
    ((mem_requiresRestart Quoted.lawful defaultConfig_clean hmain).mpr (by decide +kernel))
  exact hserver.2 (by decide +kernel)

end Zecd.Config
