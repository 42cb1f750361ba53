import Mathlib
import Zecd.Foundation.Keyed

/-! # The keys two tables disagree on

Two tables of keys and values are compared by their entries. Where the keys of each are
distinct, the keys listed are exactly those on which lookups differ, each of them once.
-/

namespace Zecd.KeyDiff

variable {κ ν : Type*} [DecidableEq κ]

def get (l : List (κ × ν)) (k : κ) : Option ν := (l.find? fun x => decide (x.1 = k)).map Prod.snd

variable {l : List (κ × ν)} {k : κ} {v : ν}

theorem get_eq_some_iff (hl : (l.map Prod.fst).Nodup) : get l k = some v ↔ (k, v) ∈ l := by
  rw [get, Option.map_eq_some_iff]
  constructor
  · rintro ⟨⟨k', v'⟩, hfind, rfl⟩
    obtain rfl : k' = k := by simpa using List.find?_some hfind
    exact List.mem_of_find?_eq_some hfind
  · intro hmem
    exact ⟨(k, v), Keyed.find?_eq_some hl (fun x => decide_eq_true_iff) hmem rfl, rfl⟩

theorem get_eq_none_iff : get l k = none ↔ k ∉ l.map Prod.fst := by
  rw [get, Option.map_eq_none_iff, List.find?_eq_none, List.mem_map]
  constructor
  · rintro h ⟨x, hx, rfl⟩
    exact h x hx (decide_eq_true rfl)
  · intro h x hx hk
    exact h ⟨x, hx, of_decide_eq_true hk⟩

theorem get_map {ν' : Type*} (f : ν → ν') (l : List (κ × ν)) (k : κ) :
    get (l.map fun x => (x.1, f x.2)) k = (get l k).map f := by
  rw [get, get, List.find?_map, Option.map_map, Option.map_map]
  rfl

theorem get_reverse (hl : (l.map Prod.fst).Nodup) (k : κ) : get l.reverse k = get l k := by
  have hrev : (l.reverse.map Prod.fst).Nodup := by
    rw [List.map_reverse]
    exact List.nodup_reverse.mpr hl
  ext v
  rw [get_eq_some_iff hrev, get_eq_some_iff hl, List.mem_reverse]

/-! ## Sorted lists without repeats -/

section Dedup

variable {α : Type*} [DecidableEq α]

/-- Drop each element that equals the one after it. -/
def dedup : List α → List α
  | [] => []
  | [a] => [a]
  | a :: b :: l => if a = b then dedup (b :: l) else a :: dedup (b :: l)

variable {as : List α} {a : α}

theorem mem_dedup : a ∈ dedup as ↔ a ∈ as := by
  induction as using dedup.induct with
  | case1 => rfl
  | case2 b => rfl
  | case3 b l ih =>
    rw [dedup, if_pos rfl, ih]
    simp
  | case4 b c l hbc ih =>
    rw [dedup, if_neg hbc, List.mem_cons, ih, ← List.mem_cons]

theorem nodup_dedup [LinearOrder α] (h : as.Pairwise (· ≤ ·)) : (dedup as).Nodup := by
  induction as using dedup.induct with
  | case1 => exact List.nodup_nil
  | case2 b => exact List.nodup_singleton b
  | case3 b l ih =>
    rw [dedup, if_pos rfl]
    exact ih h.tail
  | case4 b c l hbc ih =>
    rw [dedup, if_neg hbc]
    refine List.nodup_cons.mpr ⟨?_, ih h.tail⟩
    rw [mem_dedup]
    intro hmem
    have hle : b ≤ c := List.rel_of_pairwise_cons h List.mem_cons_self
    rcases List.mem_cons.mp hmem with rfl | hmem
    · exact hbc rfl
    · exact hbc (le_antisymm hle (List.rel_of_pairwise_cons h.tail hmem))

end Dedup

/-! ## The difference -/

section Changed

variable {κ ν : Type*} [DecidableEq κ] [LinearOrder κ] [DecidableEq ν]

/-- Keys of both tables whose values differ, and keys of one table only; of entries with one key
a table looks up the last. -/
def changedKeys (a b : List (κ × ν)) : List κ :=
  let changed :=
    (a.filter fun x => (get b.reverse x.1).any fun other => decide (other ≠ x.2)).map Prod.fst ++
      (b.filter fun x => (get a.reverse x.1).isNone).map Prod.fst ++
      (a.filter fun x => (get b.reverse x.1).isNone).map Prod.fst
  dedup (changed.mergeSort fun x y => decide (x ≤ y))

variable {a b : List (κ × ν)} {k : κ}

theorem nodup_changedKeys (a b : List (κ × ν)) : (changedKeys a b).Nodup := by
  apply nodup_dedup
  refine (List.pairwise_mergeSort ?_ ?_ _).imp of_decide_eq_true
  · intro x y z hxy hyz
    exact decide_eq_true ((of_decide_eq_true hxy).trans (of_decide_eq_true hyz))
  · intro x y
    simpa using le_total x y

theorem mem_changedKeys (ha : (a.map Prod.fst).Nodup) (hb : (b.map Prod.fst).Nodup) :
    k ∈ changedKeys a b ↔ get a k ≠ get b k := by
  rw [changedKeys, mem_dedup, List.mem_mergeSort]
  simp only [List.mem_append, List.mem_map, List.mem_filter, get_reverse ha, get_reverse hb,
    Prod.exists, exists_and_right, exists_eq_right, Option.isNone_iff_eq_none]
  cases hga : get a k with
  | none =>
    have hnot : ∀ v, (k, v) ∉ a := fun v hv =>
      absurd ((get_eq_some_iff ha).mpr hv) (by simp [hga])
    cases hgb : get b k with
    | none =>
      have hnot' : ∀ v, (k, v) ∉ b := fun v hv =>
        absurd ((get_eq_some_iff hb).mpr hv) (by simp [hgb])
      simp [hnot, hnot']
    | some v => simpa [hnot] using ⟨v, (get_eq_some_iff hb).mp hgb⟩
  | some v =>
    have hmem : ∀ w, (k, w) ∈ a ↔ w = v := fun w => by
      rw [← get_eq_some_iff ha, hga, Option.some.injEq, eq_comm]
    cases hgb : get b k with
    | none => simp [hmem]
    | some w => simp [hmem, ne_comm]

end Changed

end Zecd.KeyDiff
