import Zecd.Config.Toml
import Zecd.Config.Quoted

/-! # A library that reads line by line

Strings are quoted on one line and every header is bare, so a document is read one line at a
time: each line is nothing, a header, or a key with the value its literal stands for. The
library keeps what is asked of one.
-/

namespace Zecd.Config

open KeyedText

namespace LineToml

/-! ## Addresses -/

def hexValue (s : List Char) : Option ℕ :=
  s.foldlM (fun n c => (Hex.digitValue c).map (16 * n + ·)) 0

def parseGroup (s : List Char) : Option (Fin 65536) :=
  (hexValue s).bind fun n => if h : n < 65536 then some ⟨n, h⟩ else none

/-- Eight groups that are not shortened. -/
def parseV6 (s : List Char) : Option IpAddr :=
  match (s.splitOn ':').mapM parseGroup with
  | some [a, b, c, d, e, f, g, h] => some (.v6 ![a, b, c, d, e, f, g, h])
  | _ => none

def parseIp (s : List Char) : Option IpAddr := (parseV6 s).or (Quoted.parseIp s)

theorem hexValue_toDigits (n : ℕ) : hexValue (Nat.toDigits 16 n) = some n := by
  induction n using Nat.strongRecOn with
  | ind n ih =>
    rw [Nat.toDigits_eq_if (by decide)]
    split
    · next h => simp [hexValue, Hex.digitValue_digitChar n h]
    · next h =>
      rw [hexValue, List.foldlM_append]
      have hdiv := ih (n / 16) (Nat.div_lt_self (by omega) (by decide))
      rw [hexValue] at hdiv
      rw [hdiv]
      have hdigit := Hex.digitValue_digitChar (n % 16) (Nat.mod_lt n (by decide))
      simp only [Option.bind_eq_bind, Option.bind_some, List.foldlM_cons, hdigit, Option.map_some,
        List.foldlM_nil, Option.pure_def, Nat.div_add_mod]

theorem parseGroup_toDigits (n : Fin 65536) : parseGroup (Nat.toDigits 16 n) = some n := by
  rw [parseGroup, hexValue_toDigits, Option.bind_some, dif_pos n.isLt]

theorem parseV6_displayIp (s : Fin 8 → Fin 65536) :
    parseV6 (Quoted.displayIp (.v6 s)) = some (.v6 s) := by
  have hsplit : (Quoted.displayIp (.v6 s)).splitOn ':' =
      (List.finRange 8).map fun i => Nat.toDigits 16 (s i) := by
    refine List.splitOn_intercalate ':' ?_ (by simp)
    intro l hl
    obtain ⟨i, -, rfl⟩ := List.mem_map.mp hl
    exact Hex.notMem_toDigits (by decide) (by decide) (by decide) (s i)
  have hgroups : ((List.finRange 8).map fun i => Nat.toDigits 16 (s i)).mapM parseGroup =
      some [s 0, s 1, s 2, s 3, s 4, s 5, s 6, s 7] := by
    rw [List.mapM_map]
    exact mapM_eq_some_map fun i _ => parseGroup_toDigits (s i)
  rw [parseV6, hsplit, hgroups]
  refine congrArg (fun s => some (IpAddr.v6 s)) (funext fun i => ?_)
  fin_cases i <;> rfl

theorem parseIp_displayIp (ip : IpAddr) : parseIp (Quoted.displayIp ip) = some ip := by
  cases ip with
  | v6 s => rw [parseIp, parseV6_displayIp, Option.some_or]
  | v4 a b c d =>
    have hcolon : ':' ∉ Quoted.displayIp (.v4 a b c d) := by
      have hdigits := Hex.notMem_toDigits (b := 10) (c := ':') (by decide) (by decide) (by decide)
      simp [Quoted.displayIp, List.intercalate, hdigits]
    have hv6 : parseV6 (Quoted.displayIp (.v4 a b c d)) = none := by
      rw [parseV6, List.splitOn_eq_singleton hcolon, List.mapM_cons]
      cases parseGroup (Quoted.displayIp (.v4 a b c d)) <;> rfl
    have hsplit : (Quoted.displayIp (.v4 a b c d)).splitOn '.' =
        [a, b, c, d].map fun n : Fin 256 => Nat.toDigits 10 n := by
      refine List.splitOn_intercalate '.' ?_ (by simp)
      intro l hl
      obtain ⟨n, -, rfl⟩ := List.mem_map.mp hl
      exact Hex.notMem_toDigits (by decide) (by decide) (by decide) n
    have hnumbers : ([a, b, c, d].map fun n : Fin 256 => Nat.toDigits 10 n).map
        (Text.parseUnsigned 256) = [some a, some b, some c, some d] := by
      rw [List.map_map]
      exact List.map_congr_left fun n _ => Text.parseUnsigned_toDigits n
    rw [parseIp, hv6, Option.none_or, Quoted.parseIp, hsplit, hnumbers]

/-! ## Literals -/

/-- The text up to a closing quotation mark, and what follows. -/
def unescape : List Char → Option (List Char × List Char)
  | [] => none
  | '"' :: rest => some ([], rest)
  | '\\' :: c :: rest => (unescape rest).map fun p =>
      ((if c = 'n' then '\n' else if c = 'r' then '\r' else c) :: p.1, p.2)
  | c :: rest => (unescape rest).map fun p => (c :: p.1, p.2)

/-- The strings that follow another, at most so many. -/
def readMore : ℕ → List Char → Option (List (List Char) × List Char)
  | _, ']' :: rest => some ([], rest)
  | n + 1, ',' :: ' ' :: '"' :: rest => do
    let (s, rest) ← unescape rest
    let (l, rest) ← readMore n rest
    some (s :: l, rest)
  | _, _ => none

def readItems : List Char → Option (List (List Char) × List Char)
  | ']' :: rest => some ([], rest)
  | '"' :: rest => do
    let (s, rest) ← unescape rest
    let (l, rest) ← readMore rest.length rest
    some (s :: l, rest)
  | _ => none

def readDigits (s : List Char) : Option (Value × List Char) :=
  let digits := s.takeWhile Char.isDigit
  let n := Nat.ofDigitChars 10 digits 0
  if digits ≠ [] ∧ n < 2 ^ 63 then some (.number n, s.drop digits.length) else none

def readLiteral : List Char → Option (Value × List Char)
  | '"' :: rest => (unescape rest).map fun p => (.chars p.1, p.2)
  | '[' :: rest => (readItems rest).map fun p => (.list p.1, p.2)
  | 't' :: 'r' :: 'u' :: 'e' :: rest => some (.flag true, rest)
  | 'f' :: 'a' :: 'l' :: 's' :: 'e' :: rest => some (.flag false, rest)
  | s => readDigits s

section Literals

variable {x : List Char} {v : Value}

theorem unescape_escape (s x : List Char) :
    unescape (Quoted.escape s ++ '"' :: x) = some (s, x) := by
  induction s with
  | nil => rfl
  | cons c s ih =>
    have hcons : Quoted.escape (c :: s) ++ '"' :: x =
        Quoted.escapeChar c ++ (Quoted.escape s ++ '"' :: x) := by
      rw [Quoted.escape, List.flatMap_cons, List.append_assoc]
      rfl
    rw [hcons, Quoted.escapeChar]
    split
    · next h => rcases h with rfl | rfl <;> simp [unescape, ih]
    · next h =>
      obtain ⟨hquote, hslash⟩ := not_or.mp h
      split
      · next h => subst h; simp [unescape, ih]
      · split
        · next h => subst h; simp [unescape, ih]
        · simp [unescape, hslash, ih]

theorem readMore_restVal {n : ℕ} {l : List (List Char)} (h : l.length ≤ n) :
    readMore n (Quoted.restVal l ++ ']' :: x) = some (l, x) := by
  induction l generalizing n with
  | nil => cases n <;> rfl
  | cons s l ih =>
    obtain ⟨n, rfl⟩ := Nat.exists_eq_add_one_of_ne_zero (Nat.ne_zero_of_lt h)
    have hcons : Quoted.restVal (s :: l) ++ ']' :: x = ',' :: ' ' :: '"' ::
        (Quoted.escape s ++ '"' :: (Quoted.restVal l ++ ']' :: x)) := by
      simp [Quoted.restVal, Quoted.strVal]
    rw [hcons, readMore, unescape_escape]
    change (readMore n (Quoted.restVal l ++ ']' :: x)).bind _ = _
    rw [ih (Nat.le_of_succ_le_succ h)]
    rfl

theorem length_le_restVal (l : List (List Char)) : l.length ≤ (Quoted.restVal l).length := by
  induction l with
  | nil => exact Nat.zero_le _
  | cons s l ih =>
    have hcons : Quoted.restVal (s :: l) = ',' :: (' ' :: Quoted.strVal s ++ Quoted.restVal l) :=
      rfl
    rw [hcons, List.length_cons, List.length_cons, List.length_append]
    omega

theorem readItems_listVal (l : List (List Char)) :
    ∃ rest, Quoted.listVal l ++ x = '[' :: rest ∧ readItems rest = some (l, x) := by
  cases l with
  | nil => exact ⟨_, rfl, rfl⟩
  | cons s l =>
    refine ⟨'"' :: (Quoted.escape s ++ '"' :: (Quoted.restVal l ++ ']' :: x)), ?_, ?_⟩
    · simp [Quoted.listVal, Quoted.strVal]
    · have hlength := length_le_restVal l
      rw [readItems, unescape_escape]
      change (readMore _ (Quoted.restVal l ++ ']' :: x)).bind _ = _
      rw [readMore_restVal (by rw [List.length_append]; omega)]
      rfl

theorem readDigits_toDigits {n : ℕ} (h : n < 2 ^ 63) (hx : Blank x) :
    readDigits (Nat.toDigits 10 n ++ x) = some (.number n, x) := by
  have hvalue : Nat.ofDigitChars 10 (Nat.toDigits 10 n) 0 = n := Nat.ofDigitChars_ten_toDigits
  rw [readDigits, takeWhile_isDigit n hx, hvalue, if_pos ⟨Nat.toDigits_ne_nil, h⟩,
    List.drop_left]

theorem readLiteral_literal (h : v.Fits) (hx : Blank x) :
    readLiteral (v.literal Quoted.libraries ++ x) = some (v.displayed, x) := by
  cases v with
  | text p =>
    have hcons : (Value.text p).literal Quoted.libraries ++ x =
        '"' :: (Quoted.escape p.display ++ '"' :: x) := by
      simp [Value.literal, Quoted.libraries, Quoted.strVal]
    rw [hcons, readLiteral, unescape_escape]
    rfl
  | number n =>
    obtain ⟨c, digits, hdigits⟩ := List.exists_cons_of_ne_nil
      (Nat.toDigits_ne_nil (n := n) (b := 10))
    have hc : c.isDigit = true := Nat.isDigit_of_mem_toDigits (b := 10) (n := n) (by decide)
      (by decide) (hdigits ▸ List.mem_cons_self)
    have hread : readLiteral (Nat.toDigits 10 n ++ x) = readDigits (Nat.toDigits 10 n ++ x) := by
      rw [hdigits, List.cons_append]
      unfold readLiteral
      split
      · next heq => rw [(List.cons.inj heq).1] at hc; cases hc
      · next heq => rw [(List.cons.inj heq).1] at hc; cases hc
      · next heq => rw [(List.cons.inj heq).1] at hc; cases hc
      · next heq => rw [(List.cons.inj heq).1] at hc; cases hc
      · rfl
    exact hread.trans (readDigits_toDigits h hx)
  | flag b => cases b <;> rfl
  | list l =>
    obtain ⟨rest, hrest, hitems⟩ := readItems_listVal (x := x) l
    have hcons : (Value.list l).literal Quoted.libraries ++ x = '[' :: rest := hrest
    rw [hcons, readLiteral, hitems]
    rfl

end Literals

/-! ## Lines -/

def headerPath (s : List Char) : Option (List (List Char)) :=
  if ∀ k ∈ s.splitOn '.', BareKey k then some (s.splitOn '.') else none

/-- What a line says. -/
inductive Entry where
  | skip
  | header (path : List (List Char))
  | assign (key : List Char) (value : Value)

/-- Nothing more on the line, or a comment. -/
def isEnd (s : List Char) : Bool := s.isEmpty || [' ', ' ', '#'].isPrefixOf s

/-- The value of a key, from behind the key. -/
def readAssigned (key : List Char) : List Char → Option Entry
  | ' ' :: '=' :: ' ' :: s =>
    match readLiteral s with
    | some (v, rest) => if isEnd rest then some (.assign key v) else none
    | none => none
  | _ => none

def readLine (line : List Char) : Option Entry :=
  match line with
  | [] => some .skip
  | '#' :: _ => some .skip
  | '[' :: rest =>
    if rest.getLast? = some ']' then (headerPath rest.dropLast).map .header else none
  | line =>
    let key := line.takeWhile isBareChar
    if key = [] then none else readAssigned key (line.drop key.length)

/-- The keys before the first header, and the tables. -/
abbrev Read := Table × List (List (List Char) × Table)

/-- A line in front of others. -/
def Entry.consOn (r : Read) : Entry → Read
  | .skip => r
  | .header path => ([], (path, r.1) :: r.2)
  | .assign key v => ((key, v) :: r.1, r.2)

def readLines : List (List Char) → Option Read
  | [] => some ([], [])
  | line :: lines => do
    let r ← readLines lines
    (readLine line).map (Entry.consOn r)

/-- A key that a table has twice is not looked for. -/
def parse (text : List Char) : Option Document := do
  let r ← readLines (text.splitOn '\n')
  if WellFormed r.1 r.2 then some ⟨r.1, r.2⟩ else none

def toml : Toml where
  toLibraries := { Quoted.libraries with parseIp }
  parse
  headerPath

/-! ## What is read -/

section Read

variable {v : Value} {s : Shown} {k : List Char} {items : List Item} {ls : List Line}

theorem newline_notMem_escape (s : List Char) : '\n' ∉ Quoted.escape s := by
  intro hmem
  obtain ⟨c, -, hc⟩ := List.mem_flatMap.mp hmem
  unfold Quoted.escapeChar at hc
  grind

theorem newline_notMem_strVal (s : List Char) : '\n' ∉ Quoted.strVal s := by
  simp [Quoted.strVal, newline_notMem_escape]

theorem newline_notMem_listVal (l : List (List Char)) : '\n' ∉ Quoted.listVal l := by
  cases l with
  | nil => decide
  | cons s l => simp [Quoted.listVal, Quoted.restVal, newline_notMem_strVal]

theorem newline_notMem_literal (v : Value) : '\n' ∉ v.literal Quoted.libraries := by
  cases v with
  | text p => exact newline_notMem_strVal p.display
  | number n => exact Hex.notMem_toDigits (by decide) (by decide) (by decide) n
  | flag b => cases b <;> decide
  | list l => exact newline_notMem_listVal l

theorem newline_notMem_of_printable {s : List Char} (h : Printable s) : '\n' ∉ s := fun hmem =>
  absurd (List.all_eq_true.mp h _ hmem) (by decide)

theorem newline_notMem_printed (h : ∀ note ∈ s.note, Printable note) :
    '\n' ∉ s.printed Quoted.libraries := by
  obtain ⟨v, _ | note⟩ := s
  · simpa [Shown.printed, Shown.suffix] using newline_notMem_literal v
  · have hnote := newline_notMem_of_printable (h note rfl)
    simp [Shown.printed, Shown.suffix, newline_notMem_literal v, hnote]

theorem item_oneLine (hkeys : ∀ k ∈ items.filterMap Item.key, BareKey k)
    (hplain : ∀ i ∈ items, i.Plain) :
    ∀ l ∈ items.flatMap (Item.lines Quoted.libraries), l.OneLine := by
  intro l hl
  obtain ⟨i, hi, hline⟩ := List.mem_flatMap.mp hl
  have hi' := hplain i hi
  rcases i with ⟨key, _ | s⟩ | ⟨keys, _ | _⟩
  · cases hline
  · obtain rfl := List.mem_singleton.mp hline
    have hkey : '\n' ∉ key.toList :=
      (hkeys _ (List.mem_filterMap.mpr ⟨_, hi, rfl⟩)).notMem (by decide)
    simp [Line.OneLine, Line.text, hkey, newline_notMem_printed hi'.2]
  · cases hline
  · obtain rfl := List.mem_singleton.mp hline
    have hkeys := newline_notMem_of_printable hi'
    simp [Line.OneLine, Line.text, hkeys]

theorem page_oneLine {p : Page} (h : p.Plain) : ∀ l ∈ p.lines Quoted.libraries, l.OneLine := by
  have hblank : Line.blank.OneLine := List.not_mem_nil
  rw [Page.lines]
  simp only [List.forall_mem_append, List.forall_mem_cons, List.forall_mem_map,
    List.forall_mem_flatMap, tableLines, hblank, true_and]
  refine ⟨⟨fun text htext => ?_, fun i hi l hl => ?_⟩, fun x hx => ⟨?_, fun i hi l hl => ?_⟩⟩
  · have hcomment := newline_notMem_of_printable (h.preamble text htext)
    simp [Line.OneLine, Line.text, hcomment]
  · exact item_oneLine h.top.1.bare h.top.2 l (List.mem_flatMap.mpr ⟨i, hi, hl⟩)
  · exact (header_oneLine x.1).mpr (newline_notMem_of_printable (h.headers x hx).1)
  · have htable := h.tables x hx
    exact item_oneLine htable.1.bare htable.2 l (List.mem_flatMap.mpr ⟨i, hi, hl⟩)

theorem splitOn_document (h : ∀ l ∈ ls, l.OneLine) :
    (document ls).splitOn '\n' = ls.map Line.text ++ [[]] := by
  induction ls with
  | nil => rfl
  | cons l ls ih =>
    obtain ⟨hl, hls⟩ := List.forall_mem_cons.mp h
    have hcons : document (l :: ls) = l.text ++ '\n' :: document ls := by
      rw [document, List.flatMap_cons, List.append_assoc]
      rfl
    rw [hcons, List.splitOn_append_cons_self_of_not_mem hl, ih hls]
    rfl

theorem isEnd_suffix (s : Shown) : isEnd s.suffix = true := by
  obtain ⟨v, _ | note⟩ := s
  · rfl
  · rfl

theorem blank_suffix (s : Shown) : Blank s.suffix := by
  obtain ⟨v, _ | note⟩ := s
  · exact Or.inl rfl
  · exact Or.inr rfl

theorem readLine_header (name : List Char) :
    readLine (Line.header name).text = (headerPath name).map .header := by
  have hlast : (name ++ [']']).getLast? = some ']' := List.getLast?_concat
  change (if (name ++ [']']).getLast? = some ']' then _ else none) = _
  rw [if_pos hlast, List.dropLast_concat]

theorem readLine_assign (hk : BareKey k) (hs : s.value.Fits) :
    readLine (Line.assign k (s.printed Quoted.libraries)).text =
      some (.assign k s.value.displayed) := by
  have htake : (k ++ ' ' :: '=' :: ' ' :: s.printed Quoted.libraries).takeWhile isBareChar = k := by
    rw [List.takeWhile_append_of_pos fun c hc => List.all_eq_true.mp hk.2 c hc,
      List.takeWhile_cons_of_neg (by decide), List.append_nil]
  obtain ⟨c, rest, rfl, hc, -⟩ := hk.head
  have hread : readLine (c :: rest ++ ' ' :: '=' :: ' ' :: s.printed Quoted.libraries) =
      readAssigned (c :: rest) (' ' :: '=' :: ' ' :: s.printed Quoted.libraries) := by
    have hhash : c ≠ '#' := ne_of_bare hc (by decide)
    have hbracket : c ≠ '[' := ne_of_bare hc (by decide)
    have hdrop : (c :: rest ++ ' ' :: '=' :: ' ' :: s.printed Quoted.libraries).drop
        (c :: rest).length = ' ' :: '=' :: ' ' :: s.printed Quoted.libraries := List.drop_left
    unfold readLine
    split
    · next h => cases h
    · next h => exact absurd (List.cons.inj h).1 hhash
    · next h => exact absurd (List.cons.inj h).1 hbracket
    · simp only [htake, hdrop]
      exact if_neg (List.cons_ne_nil c rest)
  rw [Line.text, hread, readAssigned, Shown.printed, readLiteral_literal hs (blank_suffix s)]
  exact if_pos (isEnd_suffix s)

theorem readLines_items (hkeys : ∀ k ∈ items.filterMap Item.key, BareKey k)
    (hplain : ∀ i ∈ items, i.Plain) (lines : List (List Char)) :
    readLines ((items.flatMap (Item.lines Quoted.libraries)).map Line.text ++ lines) =
      (readLines lines).map fun r => (entries items ++ r.1, r.2) := by
  induction items with
  | nil => exact Option.map_id'.symm
  | cons i items ih =>
    obtain ⟨hi, hplain⟩ := List.forall_mem_cons.mp hplain
    have hrest := ih (fun k hk => hkeys k ?_) hplain
    · rw [List.flatMap_cons, List.map_append, List.append_assoc]
      rcases i with ⟨key, _ | s⟩ | ⟨keys, _ | _⟩
      · exact hrest
      · have hkey : BareKey key.toList := hkeys _ List.mem_cons_self
        change readLines ((Line.assign key.toList (s.printed Quoted.libraries)).text ::
          ((items.flatMap (Item.lines Quoted.libraries)).map Line.text ++ lines)) = _
        rw [readLines, hrest, readLine_assign hkey hi.1]
        cases readLines lines <;> rfl
      · exact hrest
      · change readLines ((Line.comment (' ' :: keys.toList ++ " = <redacted>".toList)).text ::
          ((items.flatMap (Item.lines Quoted.libraries)).map Line.text ++ lines)) = _
        have hskip : readLine (Line.comment (' ' :: keys.toList ++ " = <redacted>".toList)).text =
            some .skip := rfl
        rw [readLines, hrest, hskip]
        cases readLines lines <;> rfl
    · rcases i with ⟨key, s⟩ | ⟨keys, set⟩
      · exact List.mem_cons_of_mem _ hk
      · exact hk

theorem readLines_tables {tbls : List (List Char × List Item)}
    (hplain : ∀ x ∈ tbls, WellKeyed x.2 ∧ ∀ i ∈ x.2, i.Plain) :
    readLines ((tbls.flatMap fun x => tableLines Quoted.libraries x.1 x.2).map Line.text ++ [[]]) =
      (tbls.mapM fun x => (headerPath x.1).map (·, entries x.2)).map ([], ·) := by
  induction tbls with
  | nil => rfl
  | cons x tbls ih =>
    obtain ⟨⟨hkeys, hitems⟩, hplain⟩ := List.forall_mem_cons.mp hplain
    rw [List.flatMap_cons, List.map_append, List.append_assoc, tableLines, List.mapM_cons]
    change readLines (Line.blank.text :: (Line.header x.1).text ::
      ((x.2.flatMap (Item.lines Quoted.libraries)).map Line.text ++ _)) = _
    have hskip : readLine Line.blank.text = some .skip := rfl
    rw [readLines, readLines, readLines_items hkeys.bare hitems, ih hplain, hskip,
      readLine_header]
    cases tbls.mapM fun x => (headerPath x.1).map (·, entries x.2) with
    | none => cases headerPath x.1 <;> rfl
    | some named =>
      cases headerPath x.1 with
      | none => rfl
      | some path => simp [Entry.consOn]

theorem readLines_comments (texts : List (List Char)) (lines : List (List Char)) :
    readLines ((texts.map Line.comment).map Line.text ++ lines) = readLines lines := by
  induction texts with
  | nil => rfl
  | cons text texts ih =>
    change (readLines ((texts.map Line.comment).map Line.text ++ lines)).bind _ = _
    rw [ih]
    cases readLines lines <;> rfl

theorem parse_page {p : Page} (h : p.Plain) :
    parse (p.text Quoted.libraries) = p.document headerPath := by
  have hlines : (p.lines Quoted.libraries).map Line.text ++ [[]] =
      (p.preamble.map Line.comment).map Line.text ++ (Line.blank.text ::
        ((p.top.flatMap (Item.lines Quoted.libraries)).map Line.text ++
          ((p.tables.flatMap fun x => tableLines Quoted.libraries x.1 x.2).map Line.text ++
            [[]]))) := by
    simp [Page.lines]
  have hskip : readLine Line.blank.text = some .skip := rfl
  have hread : readLines ((p.text Quoted.libraries).splitOn '\n') =
      (p.tables.mapM fun x => (headerPath x.1).map (·, entries x.2)).map (entries p.top, ·) := by
    rw [Page.text, splitOn_document (page_oneLine h), hlines, readLines_comments, readLines,
      readLines_items h.top.1.bare h.top.2, readLines_tables h.tables, hskip]
    cases p.tables.mapM fun x => (headerPath x.1).map (·, entries x.2) with
    | none => rfl
    | some named => simp [Entry.consOn]
  rw [parse, hread, Page.document]
  cases p.tables.mapM fun x => (headerPath x.1).map (·, entries x.2) <;> rfl

theorem lawful : toml.Lawful where
  ip := parseIp_displayIp
  bare k hk := by
    have hdot : '.' ∉ k := hk.notMem (by decide)
    change headerPath k = _
    rw [headerPath, List.splitOn_eq_singleton hdot]
    exact if_pos (List.forall_mem_singleton.mpr hk)
  dotted k s hk := by
    have hdot : '.' ∉ k := hk.notMem (by decide)
    change headerPath (k ++ '.' :: s) = (headerPath s).map _
    rw [headerPath, headerPath, List.splitOn_append_cons_self_of_not_mem hdot]
    simp only [List.forall_mem_cons, hk, true_and]
    split <;> rfl
  single s k h := by
    obtain ⟨hbare, hsplit⟩ := Option.ite_none_right_eq_some.mp h
    refine Or.inl (hbare k ?_)
    rw [Option.some.inj hsplit]
    exact List.mem_singleton_self k
  reads p hp := parse_page hp

end Read

end LineToml

end Zecd.Config
