import Zecd.Config.Reading

/-! # Quoted literals

A library that writes every string in double quotes on one line, with escapes, and an array as
its strings between brackets. It keeps what is asked of a library.
-/

namespace Zecd.Config

namespace Quoted

def escapeChar (c : Char) : List Char :=
  if c = '"' ∨ c = '\\' then ['\\', c]
  else if c = '\n' then ['\\', 'n']
  else if c = '\r' then ['\\', 'r']
  else [c]

def escape (s : List Char) : List Char := s.flatMap escapeChar

def strVal (s : List Char) : List Char := '"' :: escape s ++ ['"']

def restVal (l : List (List Char)) : List Char := l.flatMap fun s => ',' :: ' ' :: strVal s

def listVal : List (List Char) → List Char
  | [] => ['[', ']']
  | s :: l => '[' :: strVal s ++ restVal l ++ [']']

/-- IPv4 in dotted form; the groups of IPv6 are not shortened. -/
def displayIp : IpAddr → List Char
  | .v4 a b c d => ['.'].intercalate ([a, b, c, d].map fun n => Nat.toDigits 10 n)
  | .v6 s => [':'].intercalate ((List.finRange 8).map fun i => Nat.toDigits 16 (s i))

def parseIp (s : List Char) : Option IpAddr :=
  match (s.splitOn '.').map (Text.parseUnsigned 256) with
  | [some a, some b, some c, some d] => some (.v4 a b c d)
  | _ => none

def libraries : Libraries := ⟨strVal, listVal, displayIp, parseIp⟩

variable {c d : Char} {s t x y : List Char} {l m : List (List Char)}

theorem escapeChar_append (h : escapeChar c ++ x = escapeChar d ++ y) : c = d ∧ x = y := by
  unfold escapeChar at h
  grind

theorem quote_ne (h : '"' :: x = escapeChar c ++ y) : False := by
  have hhead := congrArg List.head? h
  unfold escapeChar at hhead
  grind

theorem escape_append (h : escape s ++ '"' :: x = escape t ++ '"' :: y) : s = t ∧ x = y := by
  induction s generalizing t with
  | nil =>
    cases t with
    | nil => exact ⟨rfl, (List.cons.inj h).2⟩
    | cons d t =>
      rw [escape, List.flatMap_nil, List.nil_append, escape, List.flatMap_cons,
        List.append_assoc] at h
      exact (quote_ne h).elim
  | cons c s ih =>
    cases t with
    | nil =>
      rw [escape, List.flatMap_cons, List.append_assoc, escape, List.flatMap_nil,
        List.nil_append] at h
      exact (quote_ne h.symm).elim
    | cons d t =>
      rw [escape, List.flatMap_cons, List.append_assoc, escape, List.flatMap_cons,
        List.append_assoc] at h
      obtain ⟨rfl, hrest⟩ := escapeChar_append h
      obtain ⟨rfl, rfl⟩ := ih hrest
      exact ⟨rfl, rfl⟩

theorem strVal_append (h : strVal s ++ x = strVal t ++ y) : s = t ∧ x = y := by
  simp only [strVal, List.cons_append, List.append_assoc, List.nil_append, List.cons.injEq,
    true_and] at h
  exact escape_append h

theorem restVal_append (h : restVal l ++ ']' :: x = restVal m ++ ']' :: y) : l = m := by
  induction l generalizing m with
  | nil =>
    cases m with
    | nil => rfl
    | cons t m => simp [restVal] at h
  | cons s l ih =>
    cases m with
    | nil => simp [restVal] at h
    | cons t m =>
      simp only [restVal, List.flatMap_cons, List.cons_append, List.append_assoc, List.cons.injEq,
        true_and] at h
      obtain ⟨rfl, hrest⟩ := strVal_append h
      rw [ih hrest]

theorem listVal_append (h : listVal l ++ x = listVal m ++ y) : l = m := by
  cases l with
  | nil =>
    cases m with
    | nil => rfl
    | cons t m => simp [listVal, strVal] at h
  | cons s l =>
    cases m with
    | nil => simp [listVal, strVal] at h
    | cons t m =>
      simp only [listVal, List.cons_append, List.append_assoc, List.cons.injEq, true_and,
        List.nil_append] at h
      obtain ⟨rfl, hrest⟩ := strVal_append h
      rw [restVal_append hrest]

theorem lawful : libraries.Lawful where
  str_head _ := ⟨'"', rfl, Or.inl rfl⟩
  str_last s := ⟨'"', List.getLast?_concat, Or.inl rfl⟩
  str_ends _ _ h := (strVal_append h).1
  list_head l := by cases l <;> rfl
  list_last l := by
    cases l with
    | nil => rfl
    | cons s l => exact List.getLast?_concat
  list_ends _ _ h := listVal_append h

end Quoted

/-! ## A configuration -/

def defaultConfig (network : ZNetwork) : AppConfig where
  network := network
  datadir := Path.ofText "./zecd-data".toList
  defaultWallet := "default".toList
  wallets := [("default".toList,
    { dir := Path.ofText "./zecd-data/default".toList
      keysFile := none
      chain := network
      backend := ⟨none, none, none, none, none, none, none, none⟩
      pools := ⟨⟨[.orchard], by decide⟩, ⟨[.orchard], by decide⟩, false, false, 20, 0, true, 5⟩ })]
  wallets_sorted := List.pairwise_singleton _ _
  backend := ⟨"zebra".toList, 10, 1, 60, true, false, none, .native, false, none, none, [], false,
    none⟩
  zebra := ⟨none, none, none⟩
  rpc := ⟨.v4 127 0 0 1, if network = .main then 8232 else 18232, none, none, [],
    some (Path.ofText "./zecd-data/.cookie".toList), 100, [], false⟩
  keys := ⟨some (Path.ofText "./zecd-data/identity.txt".toList), true, true, false⟩
  sync := ⟨20, 60, true, 10000, 256, 16⟩
  spend := ⟨3, 10, true, .allowRevealedRecipients, 50, 250000, true, false, 4, 10000000, 60, 100⟩
  pools := ⟨⟨[.orchard], by decide⟩, ⟨[.orchard], by decide⟩, false, false, 20, 0, true, 5⟩
  health := ⟨true, .v4 127 0 0 1, 9233, .synced, 4⟩
  log := ⟨"info".toList, "text".toList⟩
  fleet := ⟨false, Path.ofText "./zecd-data/fleet/zec/wallets.d".toList,
    Path.ofText "./zecd-data/fleet/zec/shards".toList, 128, 10000⟩

end Zecd.Config
