import Zecd.Foundation.Hex
import Zecd.Foundation.Text

/-! # The proxy setting

A proxy is written `socks5://host:port`. The host and the port are told apart at the last colon,
and a bracket is taken off the host at either end. What is dialed is the host that is left, and
the setting is shown by bracketing it again if it has a colon.
-/

namespace Zecd.Upstream

open Zecd.Text

@[ext]
structure SocksProxy where
  host : List Char
  port : Fin (2 ^ 16)
  host_ne_nil : host ≠ []
  port_ne_zero : port ≠ 0
  deriving DecidableEq

def schemeEnd : List Char := [':', '/', '/']

/-- `socks5`, and the alias `socks5h`. -/
def schemes : List (List Char) :=
  [['s', 'o', 'c', 'k', 's', '5'], ['s', 'o', 'c', 'k', 's', '5', 'h']]

/-- The host without a bracket at its start, and then without one at its end. -/
def stripBrackets (host : List Char) : List Char :=
  match stripFirst '[' host with
  | some inner => if inner.getLast? = some ']' then inner.dropLast else inner
  | none => host

namespace SocksProxy

/-- Parse a `socks5://host:port` token. Userinfo is rejected rather than ignored. -/
def parse (token : List Char) : Except String SocksProxy :=
  let token := trim token
  let invalid (why : String) := "invalid proxy '" ++ String.ofList token ++ "': " ++ why
  match splitOnce schemeEnd token with
  | none =>
    .error (invalid "expected socks5://host:port, e.g. socks5://127.0.0.1:9050")
  | some (scheme, rest) =>
    if scheme ∉ schemes then
      .error ("unsupported proxy scheme '" ++ String.ofList scheme ++ "' in '" ++
        String.ofList token ++ "': zecd supports socks5:// (and socks5h://, an alias - " ++
        "the destination is always resolved by the proxy)")
    else if '@' ∈ rest then
      .error (invalid ("SOCKS username/password authentication is not supported, so " ++
        "credentials cannot be given here - use a proxy that authenticates by source address " ++
        "(a loopback or otherwise restricted listener)"))
    else
      match rest.find? fun c => c = '/' ∨ c = '?' ∨ c = '#' with
      | some c =>
        .error (invalid ("unexpected '" ++ c.toString ++
          "' - a SOCKS proxy is addressed as host:port with no path"))
      | none =>
        match rsplitOnce ':' rest with
        | none =>
          .error (invalid
            "missing ':port' (a SOCKS proxy has no default port; Tor's is 9050)")
        | some (host, port) =>
          if hhost : stripBrackets host = [] then .error (invalid "empty host")
          else
            match parseUnsigned (2 ^ 16) port with
            | none => .error (invalid ("'" ++ String.ofList port ++ "' is not a port number"))
            | some number =>
              if hport : number = 0 then .error (invalid "port 0 is not connectable")
              else .ok ⟨stripBrackets host, number, hhost, hport⟩

/-- The canonical `socks5://host:port` form, re-bracketing an IPv6 literal. -/
def display (p : SocksProxy) : List Char :=
  ['s', 'o', 'c', 'k', 's', '5', ':', '/', '/'] ++
    (if ':' ∈ p.host then '[' :: p.host ++ [']'] else p.host) ++
      ':' :: Nat.toDigits 10 p.port

end SocksProxy

/-- The host as it is written: what stands between the scheme and the last colon. -/
def hostPart (token : List Char) : List Char :=
  (((splitOnce schemeEnd (trim token)).bind fun parts => rsplitOnce ':' parts.2).map
    Prod.fst).getD []

/-! ## The rule -/

/-- No colon and no bracket, as in a name or an IPv4 literal. -/
def PlainHost (host : List Char) : Prop := ':' ∉ host ∧ '[' ∉ host ∧ ']' ∉ host

instance (host : List Char) : Decidable (PlainHost host) :=
  inferInstanceAs (Decidable (_ ∧ _ ∧ _))

def bracketed (host : List Char) : List Char := '[' :: host ++ [']']

/-- What is read from a token reads back from how it is shown, and its host is the token's. No
unbracketed IPv6 literal was read. -/
structure NotMangled (token : List Char) (p : SocksProxy) : Prop where
  round_trip : SocksProxy.parse p.display = .ok p
  host_kept : PlainHost p.host ∨ bracketed p.host <:+: token
  no_bare_literal : ¬ (':' ∈ hostPart token ∧ '[' ∉ hostPart token ∧ ']' ∉ hostPart token)

/-- A host as it should be written: plain, or in brackets. Text in brackets that starts with one
of its own has to have a colon. A plain host may miss the closing bracket. -/
def WellWritten (host : List Char) : Prop :=
  (∃ h, PlainHost h ∧ (host = h ∨ host = '[' :: h ∨ host = bracketed h)) ∨
    ∃ h, host = bracketed h ∧ (':' ∈ h ∨ h.head? ≠ some '[')

/-! ## Brackets -/

variable {host port token rest : List Char} {p : SocksProxy}

theorem stripBrackets_bracketed (host : List Char) : stripBrackets (bracketed host) = host := by
  simp [stripBrackets, bracketed, stripFirst]

theorem stripBrackets_of_head?_ne (h : host.head? ≠ some '[') : stripBrackets host = host := by
  rw [stripBrackets, stripFirst_eq_none.mpr h]

theorem stripBrackets_cases (host : List Char) :
    host = bracketed (stripBrackets host) ∨ host = '[' :: stripBrackets host ∨
      stripBrackets host = host ∧ host.head? ≠ some '[' := by
  cases hs : stripFirst '[' host with
  | none => exact Or.inr (Or.inr ⟨by rw [stripBrackets, hs], stripFirst_eq_none.mp hs⟩)
  | some inner =>
    have hhost := stripFirst_eq_some.mp hs
    rw [stripBrackets, hs]
    dsimp only
    split
    · next hlast =>
      left
      rw [bracketed, List.cons_append, List.dropLast_append_getLast? _ hlast]
      exact hhost
    · exact Or.inr (Or.inl hhost)

theorem stripBrackets_open (h : PlainHost host) : stripBrackets ('[' :: host) = host := by
  have hlast : host.getLast? ≠ some ']' := fun hlast => h.2.2 (List.mem_of_getLast? hlast)
  simp [stripBrackets, stripFirst, hlast]

theorem stripBrackets_eq_self : stripBrackets host = host ↔ host.head? ≠ some '[' := by
  refine ⟨fun hself => ?_, stripBrackets_of_head?_ne⟩
  rcases stripBrackets_cases host with h | h | h
  · rw [hself] at h
    have hlength := congrArg List.length h
    simp [bracketed] at hlength
    omega
  · rw [hself] at h
    have hlength := congrArg List.length h
    simp at hlength
  · exact h.2

theorem head?_ne_of_plain (h : PlainHost host) : host.head? ≠ some '[' := fun hhead =>
  h.2.1 (List.mem_of_head? hhead)

/-! ## Tokens that parse -/

theorem parse_eq_ok : SocksProxy.parse token = .ok p ↔ ∃ scheme rest port,
    splitOnce schemeEnd (trim token) = some (scheme, rest) ∧ scheme ∈ schemes ∧ '@' ∉ rest ∧
      (∀ c ∈ rest, ¬ (c = '/' ∨ c = '?' ∨ c = '#')) ∧
      rsplitOnce ':' rest = some (hostPart token, port) ∧
      stripBrackets (hostPart token) = p.host ∧ parseUnsigned (2 ^ 16) port = some p.port := by
  unfold SocksProxy.parse hostPart
  dsimp only
  cases hsplit : splitOnce schemeEnd (trim token) with
  | none => simp
  | some parts =>
    obtain ⟨scheme, rest⟩ := parts
    simp only [Option.some_inj, Prod.mk.injEq, Option.bind_some]
    by_cases hscheme : scheme ∈ schemes
    swap
    · rw [if_pos hscheme]
      refine iff_of_false nofun ?_
      rintro ⟨_, _, _, ⟨rfl, rfl⟩, h, -⟩
      exact hscheme h
    rw [if_neg (not_not_intro hscheme)]
    by_cases hat : '@' ∈ rest
    · rw [if_pos hat]
      refine iff_of_false nofun ?_
      rintro ⟨_, _, _, ⟨rfl, rfl⟩, -, h, -⟩
      exact h hat
    rw [if_neg hat]
    cases hpath : rest.find? fun c => c = '/' ∨ c = '?' ∨ c = '#' with
    | some c =>
      refine iff_of_false nofun ?_
      rintro ⟨_, _, _, ⟨rfl, rfl⟩, -, -, h, -⟩
      exact h c (List.mem_of_find?_eq_some hpath) (by simpa using List.find?_some hpath)
    | none =>
      have hpaths : ∀ c ∈ rest, ¬ (c = '/' ∨ c = '?' ∨ c = '#') := by
        simpa using List.find?_eq_none.mp hpath
      cases hlast : rsplitOnce ':' rest with
      | none =>
        refine iff_of_false nofun ?_
        rintro ⟨_, _, _, ⟨rfl, rfl⟩, -, -, -, h, -⟩
        rw [hlast] at h
        cases h
      | some ends =>
        obtain ⟨host, port⟩ := ends
        simp only [Option.map_some, Option.getD_some]
        constructor
        · intro h
          split at h
          · cases h
          · split at h
            · cases h
            · next number hnumber =>
              split at h
              · cases h
              · cases h
                exact ⟨scheme, rest, port, ⟨rfl, rfl⟩, hscheme, hat, hpaths, hlast, rfl, hnumber⟩
        · rintro ⟨_, _, port', ⟨rfl, rfl⟩, -, -, -, hport, hhost, hnumber⟩
          rw [hlast] at hport
          cases hport
          rw [dif_neg (hhost ▸ p.host_ne_nil), hnumber]
          simp only [dif_neg p.port_ne_zero]
          exact congrArg Except.ok (SocksProxy.ext hhost rfl)

def canonical (host : List Char) (n : ℕ) : List Char :=
  ['s', 'o', 'c', 'k', 's', '5', ':', '/', '/'] ++ (host ++ ':' :: Nat.toDigits 10 n)

theorem display_eq (p : SocksProxy) :
    p.display = canonical (if ':' ∈ p.host then bracketed p.host else p.host) p.port := by
  rw [SocksProxy.display, canonical, List.append_assoc]
  rfl

theorem trim_canonical (host : List Char) (n : ℕ) : trim (canonical host n) = canonical host n := by
  have hne : Nat.toDigits 10 n ≠ [] := Nat.toDigits_ne_nil
  have hdigit : ((Nat.toDigits 10 n).getLast hne).isDigit :=
    Nat.isDigit_of_mem_toDigits (by decide) (by decide) (List.getLast_mem hne)
  have hform : canonical host n = 's' :: ((['o', 'c', 'k', 's', '5', ':', '/', '/'] ++
      (host ++ ':' :: (Nat.toDigits 10 n).dropLast)) ++ [(Nat.toDigits 10 n).getLast hne]) := by
    simp [canonical, List.dropLast_append_getLast hne]
  rw [hform]
  exact trim_eq_self (by decide) (isWhitespace_of_isDigit hdigit)

theorem splitOnce_canonical (rest : List Char) :
    splitOnce schemeEnd (['s', 'o', 'c', 'k', 's', '5', ':', '/', '/'] ++ rest) =
      some (['s', 'o', 'c', 'k', 's', '5'], rest) := by
  simp [splitOnce, schemeEnd]

theorem rsplitOnce_canonical (host : List Char) (n : ℕ) :
    rsplitOnce ':' (host ++ ':' :: Nat.toDigits 10 n) = some (host, Nat.toDigits 10 n) :=
  rsplitOnce_eq_some.mpr ⟨rfl, Hex.notMem_toDigits (by decide) (by decide) (by decide) n⟩

theorem hostPart_canonical (host : List Char) (n : ℕ) : hostPart (canonical host n) = host := by
  rw [hostPart, trim_canonical, canonical, splitOnce_canonical, Option.bind_some,
    rsplitOnce_canonical]
  rfl

theorem parse_canonical {n : Fin (2 ^ 16)} (hat : '@' ∉ host)
    (hpath : ∀ c ∈ host, ¬ (c = '/' ∨ c = '?' ∨ c = '#')) :
    SocksProxy.parse (canonical host n) = .ok p ↔ stripBrackets host = p.host ∧ n = p.port := by
  rw [parse_eq_ok, trim_canonical, hostPart_canonical]
  constructor
  · rintro ⟨scheme, rest, port, hsplit, -, -, -, hport, hhost, hnumber⟩
    rw [canonical, splitOnce_canonical] at hsplit
    cases hsplit
    rw [rsplitOnce_canonical] at hport
    cases hport
    rw [parseUnsigned_toDigits] at hnumber
    exact ⟨hhost, Option.some_inj.mp hnumber⟩
  · rintro ⟨hhost, rfl⟩
    refine ⟨_, _, _, splitOnce_canonical _, List.mem_cons_self, ?_, ?_, rsplitOnce_canonical _ _,
      hhost, parseUnsigned_toDigits p.port⟩
    · have hport : '@' ∉ Nat.toDigits 10 p.port :=
        Hex.notMem_toDigits (by decide) (by decide) (by decide) p.port
      simp [hat, hport]
    · intro c hc
      rcases List.mem_append.mp hc with hhost | hport
      · exact hpath c hhost
      · rcases List.mem_cons.mp hport with rfl | hdigit
        · decide
        · rintro (rfl | rfl | rfl)
          all_goals exact Hex.notMem_toDigits (by decide) (by decide) (by decide) _ hdigit

/-- What is read from a token reads back if its colons tell that it was in brackets, or if it does
not look as if it were. -/
theorem round_trip_iff (h : SocksProxy.parse token = .ok p) :
    SocksProxy.parse p.display = .ok p ↔ ':' ∈ p.host ∨ p.host.head? ≠ some '[' := by
  obtain ⟨scheme, rest, port, -, -, hat, hpath, hlast, hhost, -⟩ := parse_eq_ok.mp h
  have hrest := (rsplitOnce_eq_some.mp hlast).1
  have hmem : ∀ c ∈ p.host, c ∈ rest := by
    intro c hc
    rw [hrest]
    refine List.mem_append_left _ ?_
    rcases stripBrackets_cases (hostPart token) with heq | heq | heq
    · rw [heq, hhost]
      simp [bracketed, hc]
    · rw [heq, hhost]
      simp [hc]
    · rwa [← heq.1, hhost]
  have hatHost : '@' ∉ p.host := fun hc => hat (hmem _ hc)
  have hpathHost : ∀ c ∈ p.host, ¬ (c = '/' ∨ c = '?' ∨ c = '#') := fun c hc => hpath c (hmem c hc)
  rw [display_eq]
  by_cases hcolon : ':' ∈ p.host
  · rw [if_pos hcolon, parse_canonical (by simpa [bracketed] using hatHost)]
    · simp [stripBrackets_bracketed, hcolon]
    · intro c hc
      simp only [bracketed, List.cons_append, List.mem_cons, List.mem_append,
        List.not_mem_nil, or_false] at hc
      rcases hc with rfl | hc | rfl
      · decide
      · exact hpathHost c hc
      · decide
  · rw [if_neg hcolon, parse_canonical hatHost hpathHost]
    simp only [hcolon, false_or, and_true]
    exact stripBrackets_eq_self

theorem count_bracket {c : Char} (hc : c = '[' ∨ c = ']') (h : SocksProxy.parse token = .ok p) :
    token.count c = (hostPart token).count c := by
  obtain ⟨scheme, rest, port, hsplit, hscheme, -, -, hlast, -, hnumber⟩ := parse_eq_ok.mp h
  have hschemes : scheme.count c = 0 := by
    rcases List.mem_pair.mp hscheme with rfl | rfl
    all_goals
      rcases hc with rfl | rfl
      · decide
      · decide
  have hport : port.count c = 0 := by
    rw [List.count_eq_zero]
    intro hmem
    rcases mem_of_parseUnsigned hnumber hmem with hdigit | rfl
    · rcases hc with rfl | rfl
      · cases hdigit
      · cases hdigit
    · rcases hc with hc | hc
      · cases hc
      · cases hc
  have hblank : isWhitespace c = false := by
    rcases hc with rfl | rfl
    · decide
    · decide
  rw [← count_trim hblank, splitOnce_eq_some hsplit, (rsplitOnce_eq_some.mp hlast).1]
  simp only [List.count_append, List.count_cons, hschemes, hport, schemeEnd]
  rcases hc with rfl | rfl
  · simp
  · simp

theorem bracketed_infix_iff (h : SocksProxy.parse token = .ok p) :
    bracketed p.host <:+: token ↔ hostPart token = bracketed p.host := by
  obtain ⟨scheme, rest, port, hsplit, -, -, -, hlast, hhost, -⟩ := parse_eq_ok.mp h
  constructor
  · intro hin
    have hopen := hin.sublist.count_le '['
    have hclose := hin.sublist.count_le ']'
    rw [count_bracket (Or.inl rfl) h] at hopen
    rw [count_bracket (Or.inr rfl) h] at hclose
    rcases stripBrackets_cases (hostPart token) with heq | heq | heq
    · rwa [hhost] at heq
    · rw [heq, hhost] at hclose
      simp [bracketed] at hclose
    · rw [← heq.1, hhost] at hopen
      simp [bracketed] at hopen
  · intro heq
    have hrest : hostPart token <:+: rest := by
      rw [(rsplitOnce_eq_some.mp hlast).1]
      exact (List.prefix_append _ _).isInfix
    have htoken : rest <:+: trim token := by
      rw [splitOnce_eq_some hsplit]
      exact (List.suffix_append _ _).isInfix
    exact heq ▸ hrest.trans (htoken.trans (trim_isInfix token))

/-- A token is not mangled exactly if its host is written as it should be. -/
theorem notMangled_iff (h : SocksProxy.parse token = .ok p) :
    NotMangled token p ↔ WellWritten (hostPart token) := by
  have hhost : stripBrackets (hostPart token) = p.host := by
    obtain ⟨-, -, -, -, -, -, -, -, hhost, -⟩ := parse_eq_ok.mp h
    exact hhost
  constructor
  · rintro ⟨htrip, hkept, -⟩
    rcases hkept with hplain | hin
    · left
      refine ⟨p.host, hplain, ?_⟩
      rcases stripBrackets_cases (hostPart token) with heq | heq | heq
      · exact Or.inr (Or.inr (hhost ▸ heq))
      · exact Or.inr (Or.inl (hhost ▸ heq))
      · exact Or.inl (heq.1.symm.trans hhost)
    · exact Or.inr ⟨p.host, (bracketed_infix_iff h).mp hin, (round_trip_iff h).mp htrip⟩
  · rintro (⟨host, hplain, hform⟩ | ⟨host, hform, hopen⟩)
    · have hsame : p.host = host := by
        rw [← hhost]
        rcases hform with hform | hform | hform
        · rw [hform, stripBrackets_eq_self]
          exact head?_ne_of_plain hplain
        · rw [hform]
          exact stripBrackets_open hplain
        · rw [hform, stripBrackets_bracketed]
      refine ⟨(round_trip_iff h).mpr (Or.inr ?_), Or.inl (hsame ▸ hplain), ?_⟩
      · exact hsame ▸ head?_ne_of_plain hplain
      · rintro ⟨hcolon, hnone, -⟩
        rcases hform with hform | hform | hform
        · exact hplain.1 (hform ▸ hcolon)
        · rw [hform] at hnone
          exact hnone List.mem_cons_self
        · rw [hform] at hnone
          exact hnone List.mem_cons_self
    · have hsame : p.host = host := by rw [← hhost, hform, stripBrackets_bracketed]
      refine ⟨(round_trip_iff h).mpr (hsame ▸ hopen),
        Or.inr ((bracketed_infix_iff h).mpr (hsame ▸ hform)), ?_⟩
      rintro ⟨-, hnone, -⟩
      rw [hform] at hnone
      exact hnone List.mem_cons_self

def bareLiteral : List Char := "socks5://fe80::1".toList

/-- An unbracketed IPv6 literal whose last group is a number is read as a host and a port. -/
theorem bareLiteral_mangled : ∃ p, SocksProxy.parse bareLiteral = .ok p ∧
    p.host = ['f', 'e', '8', '0', ':'] ∧ p.port = 1 ∧ ¬ NotMangled bareLiteral p := by
  have hnil : ['f', 'e', '8', '0', ':'] ≠ [] := by decide
  have hzero : (1 : Fin (2 ^ 16)) ≠ 0 := by decide
  refine ⟨⟨['f', 'e', '8', '0', ':'], 1, hnil, hzero⟩, rfl, rfl, rfl, fun h => ?_⟩
  exact h.no_bare_literal (by decide)

theorem innerBrackets_mangled : ∃ p, SocksProxy.parse "socks5://[[a]]:80".toList = .ok p ∧
    SocksProxy.parse p.display ≠ .ok p := by
  have hnil : ['[', 'a', ']'] ≠ [] := by decide
  have hzero : (80 : Fin (2 ^ 16)) ≠ 0 := by decide
  have hparse : SocksProxy.parse "socks5://[[a]]:80".toList =
      .ok ⟨['[', 'a', ']'], 80, hnil, hzero⟩ := rfl
  refine ⟨_, hparse, fun h => ?_⟩
  rcases (round_trip_iff hparse).mp h with hcolon | hopen
  · simp at hcolon
  · exact hopen rfl

def literalToken : List Char := "socks5h://[fd00::1]:1080".toList

/-- The literal in brackets is kept. -/
theorem literalToken_notMangled : ∃ p,
    SocksProxy.parse literalToken = .ok p ∧ NotMangled literalToken p := by
  have hnil : ['f', 'd', '0', '0', ':', ':', '1'] ≠ [] := by decide
  have hzero : (1080 : Fin (2 ^ 16)) ≠ 0 := by decide
  have hparse : SocksProxy.parse literalToken =
      .ok ⟨['f', 'd', '0', '0', ':', ':', '1'], 1080, hnil, hzero⟩ := rfl
  have hform : hostPart literalToken = bracketed ['f', 'd', '0', '0', ':', ':', '1'] := by decide
  exact ⟨_, hparse, (notMangled_iff hparse).mpr (Or.inr ⟨_, hform, Or.inl (by decide)⟩)⟩

end Zecd.Upstream
