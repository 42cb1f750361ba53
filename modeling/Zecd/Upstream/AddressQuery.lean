import Mathlib
import Zecd.Foundation.Checked
import Zecd.Foundation.Splitting

/-! # Address queries against a result limit

A node answers which transactions touched an address in a range of heights, and refuses a query
that matches too many. `address_tx_ids` halves a refused range until the pieces are answered, the
lower half first.
-/

namespace Zecd.Upstream

inductive CallError where
  | transport (text : String)
  | rpc (code : ℤ) (message : String)
  deriving DecidableEq, Repr

def CallError.text (method : String) : CallError → String
  | .transport text => "zebra rpc " ++ method ++ ": " ++ text
  | .rpc code message =>
    "zebra rpc " ++ method ++ " failed (" ++ toString code ++ "): " ++ message

def isAddressQueryTooLarge (code : ℤ) (message : String) : Bool :=
  code == -8 && decide ("narrow the height range".toList <:+: message.toList)

/-- Why `address_tx_ids` fails: a call did, or the arithmetic left the 32-bit range. -/
inductive AddressQueryError where
  | call (text : String)
  | overflow
  deriving DecidableEq, Repr

def u32Add (x y : ℕ) : Option ℕ := Checked.fit (· < 2 ^ 32) (x + y)

def u32Sub (x y : ℕ) : Option ℕ := if y ≤ x then some (x - y) else none

def halves (lo hi : ℕ) : Option ((ℕ × ℕ) × (ℕ × ℕ)) := do
  let mid ← u32Add lo ((← u32Sub hi lo) / 2)
  return ((lo, mid), (← u32Add mid 1, hi))

def addressQueryVisit (call : ℕ → ℕ → Except CallError (List String)) (r : ℕ × ℕ) :
    Splitting.Visit (ℕ × ℕ) String AddressQueryError :=
  match call r.1 r.2 with
  | .ok hexes => .done hexes
  | .error e =>
    let tooLarge := match e with
      | .rpc code message => isAddressQueryTooLarge code message
      | .transport _ => false
    if r.1 < r.2 ∧ tooLarge = true then
      match halves r.1 r.2 with
      | some (lower, upper) => .split lower upper
      | none => .failed .overflow
    else .failed (.call (e.text "getaddresstxids"))

def addressTxIds (call : ℕ → ℕ → Except CallError (List String)) (fuel start stop : ℕ) :
    Option (Except AddressQueryError (List String)) :=
  Splitting.run (addressQueryVisit call) fuel [(start, stop)] []

def addressQueries (call : ℕ → ℕ → Except CallError (List String)) (fuel start stop : ℕ) :
    List (ℕ × ℕ) :=
  Splitting.visited (addressQueryVisit call) fuel [(start, stop)]

/-! ## A node with a result limit -/

/-- What an address matches at each height, the most a query may match, and the refusal of one
that matches more. -/
structure AddressIndex where
  ids : ℕ → List String
  limit : ℕ
  refusal : ℕ → ℕ → ℤ × String
  refused : ∀ lo hi, isAddressQueryTooLarge (refusal lo hi).1 (refusal lo hi).2 = true

namespace AddressIndex

variable (node : AddressIndex)

/-- The ids in a range, in chain order. -/
def matched (lo hi : ℕ) : List String := (List.range' lo (hi + 1 - lo)).flatMap node.ids

def answer (lo hi : ℕ) : Except CallError (List String) :=
  if node.limit < (node.matched lo hi).length then
    .error (.rpc (node.refusal lo hi).1 (node.refusal lo hi).2)
  else .ok (node.matched lo hi)

/-- A height that no range narrows enough. -/
def exceeds (h : ℕ) : Bool := decide (node.limit < (node.ids h).length)

/-- What the pieces of a range come to: its ids, unless a height of it is over the limit. -/
def meaning (r : ℕ × ℕ) : Except AddressQueryError (List String) :=
  match (List.range' r.1 (r.2 + 1 - r.1)).find? node.exceeds with
  | none => .ok (node.matched r.1 r.2)
  | some h => .error (.call ((CallError.rpc (node.refusal h h).1 (node.refusal h h).2).text
      "getaddresstxids"))

end AddressIndex

def SubRange (start stop : ℕ) (r : ℕ × ℕ) : Prop := start ≤ r.1 ∧ r.1 ≤ r.2 ∧ r.2 ≤ stop

variable {node : AddressIndex} {start stop lo hi : ℕ}

theorem halves_eq (hlt : lo < hi) (hhi : hi < 2 ^ 32) : halves lo hi =
    some ((lo, lo + (hi - lo) / 2), (lo + (hi - lo) / 2 + 1, hi)) := by
  have hmid : u32Add lo ((hi - lo) / 2) = some (lo + (hi - lo) / 2) :=
    Checked.fit_of_inRange (by omega)
  have hnext : u32Add (lo + (hi - lo) / 2) 1 = some (lo + (hi - lo) / 2 + 1) :=
    Checked.fit_of_inRange (by omega)
  simp [halves, u32Sub, hlt.le, hmid, hnext]

theorem range'_split {mid : ℕ} (hlo : lo ≤ mid) (hhi : mid < hi) :
    List.range' lo (hi + 1 - lo) =
      List.range' lo (mid + 1 - lo) ++ List.range' (mid + 1) (hi + 1 - (mid + 1)) := by
  have happend := @List.range'_append_1 lo (mid + 1 - lo) (hi + 1 - (mid + 1))
  rw [show lo + (mid + 1 - lo) = mid + 1 by omega,
    show mid + 1 - lo + (hi + 1 - (mid + 1)) = hi + 1 - lo by omega] at happend
  exact happend.symm

namespace AddressIndex

theorem meaning_halves {mid : ℕ} (hlo : lo ≤ mid) (hhi : mid < hi) (out : List String) :
    Splitting.inOrder node.meaning [(lo, mid), (mid + 1, hi)] out =
      Splitting.inOrder node.meaning [(lo, hi)] out := by
  have hsplit := range'_split hlo hhi
  simp only [Splitting.inOrder, meaning, matched, hsplit, List.find?_append,
    List.flatMap_append]
  cases (List.range' lo (mid + 1 - lo)).find? node.exceeds with
  | some h => rfl
  | none =>
    cases (List.range' (mid + 1) (hi + 1 - (mid + 1))).find? node.exceeds with
    | some h => rfl
    | none => simp

theorem find_exceeds_eq_none (hfits : (node.matched lo hi).length ≤ node.limit) :
    (List.range' lo (hi + 1 - lo)).find? node.exceeds = none := by
  rw [List.find?_eq_none]
  intro h hh hover
  have hle : (node.ids h).length ≤ (node.matched lo hi).length := by
    rw [matched, List.flatMap_def]
    exact (List.sublist_flatten_of_mem (List.mem_map_of_mem hh)).length_le
  have hlt : node.limit < (node.ids h).length := by simpa [exceeds] using hover
  omega

/-- Each query answers, fails or splits as the range's meaning says. -/
theorem visit_agrees (hstop : stop < 2 ^ 32) {r : ℕ × ℕ} (hr : SubRange start stop r) :
    Splitting.Agrees (SubRange start stop) (fun r => r.2 + 1 - r.1) node.meaning r
      (addressQueryVisit node.answer r) := by
  obtain ⟨lo, hi⟩ := r
  obtain ⟨hstart, hle, hhi⟩ := hr
  dsimp only at hstart hle hhi
  by_cases hover : node.limit < (node.matched lo hi).length
  · simp only [addressQueryVisit, answer, if_pos hover, node.refused, and_true]
    by_cases hlt : lo < hi
    · rw [if_pos hlt, halves_eq hlt (by omega)]
      have hlower : SubRange start stop (lo, lo + (hi - lo) / 2) := by
        unfold SubRange
        omega
      have hupper : SubRange start stop (lo + (hi - lo) / 2 + 1, hi) := by
        unfold SubRange
        omega
      refine ⟨hlower, hupper, ?_, meaning_halves (by omega) (by omega)⟩
      dsimp only
      omega
    · -- A single height is over the limit, and is refused for good.
      obtain rfl : lo = hi := by omega
      have hone : List.range' lo (lo + 1 - lo) = [lo] := by
        rw [Nat.add_sub_cancel_left]
        rfl
      have hsingle : node.exceeds lo = true := by
        simpa [exceeds, matched, hone] using hover
      rw [if_neg hlt]
      simp [Splitting.Agrees, meaning, hsingle]
  · have hnone := find_exceeds_eq_none (not_lt.mp hover)
    simp only [addressQueryVisit, answer, if_neg hover]
    simp [Splitting.Agrees, meaning, hnone]

end AddressIndex

/-- Against a node that refuses exactly the queries over its limit, the split query ends, asks
for sub-ranges only, and gives the ids of the whole range in chain order, or fails with the
node's refusal of one height when a single height is over the limit. -/
theorem addressTxIds_spec (node : AddressIndex) (hle : start ≤ stop) (hstop : stop < 2 ^ 32)
    {fuel : ℕ} (hfuel : 2 * (stop + 1 - start) ≤ fuel) :
    (∀ r ∈ addressQueries node.answer fuel start stop, SubRange start stop r) ∧
    ((∀ h, start ≤ h → h ≤ stop → (node.ids h).length ≤ node.limit) →
      addressTxIds node.answer fuel start stop = some (.ok (node.matched start stop))) ∧
    ((∃ h, start ≤ h ∧ h ≤ stop ∧ node.limit < (node.ids h).length) →
      ∃ h, start ≤ h ∧ h ≤ stop ∧ node.limit < (node.ids h).length ∧
        addressTxIds node.answer fuel start stop =
          some (.error (.call ((CallError.rpc (node.refusal h h).1 (node.refusal h h).2).text
            "getaddresstxids")))) := by
  have hagrees : ∀ r, SubRange start stop r →
      Splitting.Agrees (SubRange start stop) (fun r => r.2 + 1 - r.1) node.meaning r
        (addressQueryVisit node.answer r) := fun _ hr => AddressIndex.visit_agrees hstop hr
  have hwhole : ∀ r ∈ [(start, stop)], SubRange start stop r := by
    intro r hr
    obtain rfl := List.mem_singleton.mp hr
    exact ⟨le_rfl, hle, le_rfl⟩
  have hsize : ∀ r : ℕ × ℕ, SubRange start stop r → 0 < r.2 + 1 - r.1 := by
    rintro r ⟨-, hr, -⟩
    omega
  have hrun : addressTxIds node.answer fuel start stop =
      some (Splitting.inOrder node.meaning [(start, stop)] []) := by
    apply Splitting.run_eq hagrees hsize fuel _ _ hwhole
    simp only [List.map_singleton, List.sum_singleton]
    omega
  constructor
  · exact Splitting.visited_valid hagrees fuel _ hwhole
  · rw [hrun]
    constructor
    · intro hfits
      have hnone : (List.range' start (stop + 1 - start)).find? node.exceeds = none := by
        rw [List.find?_eq_none]
        intro h hh
        obtain ⟨hlo, hhi⟩ := List.mem_range'_1.mp hh
        simpa [AddressIndex.exceeds] using hfits h hlo (by omega)
      simp [Splitting.inOrder, AddressIndex.meaning, hnone]
    · rintro ⟨h, hlo, hhi, hover⟩
      cases hfound : (List.range' start (stop + 1 - start)).find? node.exceeds with
      | none =>
        have hmem : h ∈ List.range' start (stop + 1 - start) :=
          List.mem_range'_1.mpr ⟨hlo, by omega⟩
        exact absurd hover
          (by simpa [AddressIndex.exceeds] using List.find?_eq_none.mp hfound h hmem)
      | some first =>
        obtain ⟨hfirst, hbelow⟩ := List.mem_range'_1.mp (List.mem_of_find?_eq_some hfound)
        refine ⟨first, hfirst, by omega, ?_, ?_⟩
        · simpa [AddressIndex.exceeds] using List.find?_some hfound
        · simp [Splitting.inOrder, AddressIndex.meaning, hfound]

/-- An address touched at two heights, on a node that answers one id at most. -/
def touchedTwice : AddressIndex where
  ids h := if h = 2 then ["a"] else if h = 4 then ["b"] else []
  limit := 1
  refusal _ _ := (-8, "more than 1 transactions match; narrow the height range")
  refused _ _ := by decide

theorem touchedTwice_answered :
    addressTxIds touchedTwice.answer 10 1 5 = some (.ok ["a", "b"]) := by
  apply (addressTxIds_spec touchedTwice (show 1 ≤ 5 by decide) (by decide)
    (show 2 * (5 + 1 - 1) ≤ 10 by decide)).2.1
  intro h _ _
  simp only [touchedTwice]
  split
  · exact le_rfl
  · split
    · exact le_rfl
    · exact Nat.zero_le _

end Zecd.Upstream
