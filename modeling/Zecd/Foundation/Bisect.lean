import Mathlib

/-! # Bisection

The largest count below a bound that still fits, for a test that never fits again once it
failed.
-/

namespace Zecd.Bisect

/-- Halve the interval until one count is left: `lo` fits, and everything past `hi` does not. -/
def bisect (fits : ℕ → Bool) (lo hi : ℕ) : ℕ :=
  if lo < hi then
    let mid := lo + (hi - lo + 1) / 2
    if fits mid then bisect fits mid hi else bisect fits lo (mid - 1)
  else lo
termination_by hi - lo

/-- Once a count does not fit, no larger one does. -/
def Downward (fits : ℕ → Bool) : Prop := ∀ ⦃m n⦄, m ≤ n → fits n = true → fits m = true

variable {fits : ℕ → Bool} {lo hi n : ℕ}

theorem le_bisect_iff (hd : Downward fits) (hle : lo ≤ hi) (hlo : fits lo = true)
    (hhi : ∀ m, fits m = true → m ≤ hi) : n ≤ bisect fits lo hi ↔ fits n = true := by
  fun_induction bisect fits lo hi with
  | case1 lo hi hlt mid hmid ih => exact ih (by omega) hmid hhi
  | case2 lo hi hlt mid hmid ih =>
    refine ih (by omega) hlo fun m hm => ?_
    by_contra hgt
    exact hmid (hd (by omega) hm)
  | case3 lo hi hge =>
    obtain rfl : lo = hi := by omega
    exact ⟨fun hn => hd hn hlo, hhi n⟩

/-! ## Tests that may not answer -/

/-- The same for a test that can break off, which breaks off the search. -/
def bisectChecked (answer : ℕ → Option Bool) (lo hi : ℕ) : Option ℕ :=
  if lo < hi then
    let mid := lo + (hi - lo + 1) / 2
    (answer mid).bind fun fit =>
      if fit then bisectChecked answer mid hi else bisectChecked answer lo (mid - 1)
  else some lo
termination_by hi - lo

variable {answer : ℕ → Option Bool}

theorem bisectChecked_eq_some (hfits : ∀ m b, answer m = some b → fits m = b)
    (h : bisectChecked answer lo hi = some n) : bisect fits lo hi = n := by
  fun_induction bisect fits lo hi with
  | case1 lo hi hlt mid hmid ih =>
    rw [bisectChecked, if_pos hlt] at h
    obtain ⟨b, hb, hrest⟩ := Option.bind_eq_some_iff.mp h
    rw [← hfits _ _ hb, if_pos hmid] at hrest
    exact ih hrest
  | case2 lo hi hlt mid hmid ih =>
    rw [bisectChecked, if_pos hlt] at h
    obtain ⟨b, hb, hrest⟩ := Option.bind_eq_some_iff.mp h
    rw [← hfits _ _ hb, if_neg hmid] at hrest
    exact ih hrest
  | case3 lo hi hge =>
    rw [bisectChecked, if_neg hge] at h
    exact Option.some.inj h

theorem bisectChecked_isSome (hanswer : ∀ m ≤ hi, (answer m).isSome) :
    (bisectChecked answer lo hi).isSome := by
  fun_induction bisectChecked answer lo hi with
  | case1 lo hi hlt mid ihlo ihhi =>
    have hmid : mid ≤ hi := by omega
    obtain ⟨b, hb⟩ := Option.isSome_iff_exists.mp (hanswer mid hmid)
    rw [hb, Option.bind_some]
    split
    · exact ihlo hanswer
    · exact ihhi fun m hm => hanswer m (by omega)
  | case2 => rfl

end Zecd.Bisect
