import Mathlib
import Zecd.Foundation.Text

/-! # Reading keys off a text

A text of blank lines, comments, table headers and assignments is read line by line: a header
names the table of the keys under it. Where each line is written on a line of its own, what is
read are the assignments.
-/

namespace Zecd.KeyedText

open Text

/-! ## Lines -/

def stripCr (line : List Char) : List Char :=
  if line.getLast? = some '\r' then line.dropLast else line

def linesFrom (line : List Char) : List Char → List (List Char)
  | [] => if line = [] then [] else [line]
  | c :: cs =>
    if c = '\n' then stripCr line :: linesFrom [] cs else linesFrom (line ++ [c]) cs

def lines (s : List Char) : List (List Char) := linesFrom [] s

/-! ## Reading -/

/-- The text between square brackets around the whole line. -/
def headerName (line : List Char) : Option (List Char) :=
  (stripFirst '[' line).bind fun inner =>
    if inner.getLast? = some ']' then some inner.dropLast else none

abbrev Reader := List Char × List (List Char × List Char)

def readLine (r : Reader) (line : List Char) : Reader :=
  let line := trim line
  if line = [] ∨ line.head? = some '#' then r
  else
    match headerName line with
    | some name => (name ++ ['.'], r.2)
    | none =>
      match splitOnce ['='] line with
      | some (key, value) => (r.1, r.2 ++ [(r.1 ++ trim key, trim value)])
      | none => r

def keyed (s : List Char) : List (List Char × List Char) := ((lines s).foldl readLine ([], [])).2

/-! ## Writing -/

inductive Line where
  | blank
  | comment (text : List Char)
  | header (name : List Char)
  | assign (key value : List Char)
  deriving DecidableEq, Repr

def Line.text : Line → List Char
  | .blank => []
  | .comment text => '#' :: text
  | .header name => '[' :: (name ++ [']'])
  | .assign key value => key ++ ' ' :: '=' :: ' ' :: value

def document (ls : List Line) : List Char := ls.flatMap fun l => l.text ++ ['\n']

def trimEnd (s : List Char) : List Char := s.rdropWhile isWhitespace

def assignments (table : List Char) : List Line → List (List Char × List Char)
  | [] => []
  | .header name :: ls => assignments (name ++ ['.']) ls
  | .assign key value :: ls => (table ++ key, trimEnd value) :: assignments table ls
  | .blank :: ls => assignments table ls
  | .comment _ :: ls => assignments table ls

/-- A letter, a digit, a hyphen or an underscore. -/
def isBareChar (c : Char) : Bool :=
  let n := c.toNat
  (48 ≤ n && n ≤ 57) || (65 ≤ n && n ≤ 90) || (97 ≤ n && n ≤ 122) || n == 45 || n == 95

def BareKey (key : List Char) : Prop := key ≠ [] ∧ key.all isBareChar = true

instance (key : List Char) : Decidable (BareKey key) := inferInstanceAs (Decidable (_ ∧ _))

/-- The key of an assignment is bare, and its value begins with something visible. -/
def Line.Proper : Line → Prop
  | .assign key value => BareKey key ∧ ∃ c ∈ value.head?, isWhitespace c = false
  | _ => True

def Line.OneLine (l : Line) : Prop := '\n' ∉ l.text

/-! ## What is read is what was written -/

section Lines

variable {line s t : List Char} {c : Char}

theorem linesFrom_append (hline : '\n' ∉ t) :
    linesFrom line (t ++ '\n' :: s) = stripCr (line ++ t) :: lines s := by
  induction t generalizing line with
  | nil => rw [List.nil_append, List.append_nil, linesFrom, if_pos rfl, lines]
  | cons d t ih =>
    obtain ⟨hd, ht⟩ := not_or.mp (mt List.mem_cons.mpr hline)
    rw [List.cons_append, linesFrom, if_neg (Ne.symm hd), ih ht, List.append_assoc]
    rfl

theorem lines_append (hline : '\n' ∉ t) : lines (t ++ '\n' :: s) = stripCr t :: lines s :=
  linesFrom_append hline

theorem trim_stripCr (line : List Char) : trim (stripCr line) = trim line := by
  unfold stripCr
  split
  · rename_i hlast
    obtain ⟨init, rfl⟩ := List.getLast?_eq_some_iff.mp hlast
    have hcr : isWhitespace '\r' = true := by decide
    rw [List.dropLast_concat, trim, trim, List.dropWhile_append]
    split
    · rename_i hall
      rw [List.isEmpty_iff.mp hall, List.dropWhile_cons_of_pos hcr]
      rfl
    · rw [List.rdropWhile_concat_pos _ _ _ hcr]
  · rfl

theorem not_isWhitespace_of_bare (h : isBareChar c = true) : isWhitespace c = false := by
  simp only [isBareChar, Bool.or_eq_true, Bool.and_eq_true, decide_eq_true_eq, beq_iff_eq] at h
  simp only [isWhitespace, Bool.or_eq_false_iff, Bool.and_eq_false_iff, decide_eq_false_iff_not,
    beq_eq_false_iff_ne]
  omega

theorem ne_of_bare (h : isBareChar c = true) {d : Char} (hd : isBareChar d = false) : c ≠ d := by
  rintro rfl
  rw [h] at hd
  cases hd

theorem splitOnce_singleton (h : c ∉ s) : splitOnce [c] (s ++ c :: t) = some (s, t) := by
  induction s with
  | nil => simp [splitOnce]
  | cons d s ih =>
    obtain ⟨hd, hs⟩ := not_or.mp (mt List.mem_cons.mpr h)
    have hhead : ([c] : List Char).isPrefixOf (d :: (s ++ c :: t)) = false := by
      simp [List.isPrefixOf, hd]
    rw [List.cons_append, splitOnce, hhead, ih hs]
    rfl

theorem trim_cons_append {rest : List Char} (hc : isWhitespace c = false)
    (hrest : trimEnd rest ≠ []) : trim (c :: (s ++ rest)) = c :: (s ++ trimEnd rest) := by
  rw [trim, List.dropWhile_cons_of_neg (by simp [hc])]
  change ((c :: s) ++ rest).rdropWhile isWhitespace = (c :: s) ++ trimEnd rest
  rw [List.rdropWhile, List.reverse_append, List.dropWhile_append, if_neg, List.reverse_append,
    List.reverse_reverse]
  · rfl
  · intro hempty
    exact hrest (by rw [trimEnd, List.rdropWhile, List.isEmpty_iff.mp hempty, List.reverse_nil])

theorem headerName_header (name : List Char) :
    headerName ('[' :: (name ++ [']'])) = some name := by
  simp [headerName, stripFirst]

end Lines

section Assignments

variable {key value : List Char} {c : Char}

theorem BareKey.notMem (h : BareKey key) (hc : isBareChar c = false) : c ∉ key := fun hmem =>
  ne_of_bare (List.all_eq_true.mp h.2 c hmem) hc rfl

theorem BareKey.head (h : BareKey key) :
    ∃ c rest, key = c :: rest ∧ isBareChar c = true ∧ isWhitespace c = false := by
  obtain ⟨c, rest, rfl⟩ := List.exists_cons_of_ne_nil h.1
  have hc := List.all_eq_true.mp h.2 c List.mem_cons_self
  exact ⟨c, rest, rfl, hc, not_isWhitespace_of_bare hc⟩

theorem trimEnd_ne_nil (h : ∃ c ∈ value.head?, isWhitespace c = false) : trimEnd value ≠ [] := by
  obtain ⟨c, hhead, hc⟩ := h
  intro hnil
  have hall := List.rdropWhile_eq_nil_iff.mp hnil c (List.mem_of_mem_head? hhead)
  rw [hc] at hall
  cases hall

theorem trimEnd_head? (h : ∃ c ∈ value.head?, isWhitespace c = false) :
    (trimEnd value).head? = value.head? := by
  obtain ⟨d, rest, hd⟩ := List.exists_cons_of_ne_nil (trimEnd_ne_nil h)
  obtain ⟨tail, htail⟩ := List.rdropWhile_prefix isWhitespace value
  have hvalue : value = d :: (rest ++ tail) := by
    rw [← htail]
    change trimEnd value ++ tail = _
    rw [hd, List.cons_append]
  rw [hd, hvalue]
  rfl

theorem trimEnd_append {s t : List Char} (h : ∃ c ∈ s.getLast?, isWhitespace c = false) :
    trimEnd (s ++ t) = s ++ trimEnd t := by
  obtain ⟨c, hc, hvisible⟩ := h
  obtain ⟨init, rfl⟩ := List.getLast?_eq_some_iff.mp hc
  have hneg : ¬ isWhitespace c = true := by simp [hvisible]
  rw [trimEnd, trimEnd, List.rdropWhile, List.reverse_append, List.dropWhile_append]
  split
  · rename_i hempty
    rw [List.rdropWhile, List.isEmpty_iff.mp hempty, List.reverse_nil, List.append_nil]
    exact List.rdropWhile_concat_neg _ _ _ hneg
  · rw [List.reverse_append, List.reverse_reverse]
    rfl

theorem trim_space_trimEnd (h : ∃ c ∈ value.head?, isWhitespace c = false) :
    trim (' ' :: trimEnd value) = trimEnd value := by
  obtain ⟨d, rest, hd⟩ := List.exists_cons_of_ne_nil (trimEnd_ne_nil h)
  have hhead := trimEnd_head? h
  obtain ⟨c, hc, hvisible⟩ := h
  rw [← hhead, hd] at hc
  cases hc
  have hspace : isWhitespace ' ' = true := by decide
  rw [trim, List.dropWhile_cons_of_pos hspace, hd,
    List.dropWhile_cons_of_neg (by simp [hvisible]), ← hd]
  exact List.rdropWhile_idempotent _ _

theorem trim_key_space (h : BareKey key) : trim (key ++ [' ']) = key := by
  obtain ⟨c, rest, rfl, _, hc⟩ := h.head
  have hspace : isWhitespace ' ' = true := by decide
  rw [trim, List.cons_append, List.dropWhile_cons_of_neg (by simp [hc]), ← List.cons_append,
    List.rdropWhile_concat_pos _ _ _ hspace, List.rdropWhile_eq_self_iff]
  intro hne
  have hlast := List.all_eq_true.mp h.2 _ (List.getLast_mem hne)
  simp [not_isWhitespace_of_bare hlast]

theorem readLine_assign (r : Reader) (hkey : BareKey key)
    (hvalue : ∃ c ∈ value.head?, isWhitespace c = false) :
    readLine r (Line.assign key value).text = (r.1, r.2 ++ [(r.1 ++ key, trimEnd value)]) := by
  obtain ⟨c, rest, hcons, hbare, hc⟩ := hkey.head
  have htrim : trim (Line.assign key value).text = key ++ ' ' :: '=' :: ' ' :: trimEnd value := by
    have htext : (Line.assign key value).text = c :: ((rest ++ [' ', '=', ' ']) ++ value) := by
      rw [Line.text, hcons]
      simp
    rw [htext, trim_cons_append hc (trimEnd_ne_nil hvalue), hcons]
    simp
  have hhash : c ≠ '#' := ne_of_bare hbare (by decide)
  have hbracket : c ≠ '[' := ne_of_bare hbare (by decide)
  have hheader : headerName (key ++ ' ' :: '=' :: ' ' :: trimEnd value) = none := by
    rw [hcons, headerName, List.cons_append, stripFirst, if_neg hbracket]
    rfl
  have hsplit : splitOnce ['='] (key ++ ' ' :: '=' :: ' ' :: trimEnd value) =
      some (key ++ [' '], ' ' :: trimEnd value) := by
    have hnot : '=' ∉ key ++ [' '] := by
      rw [List.mem_append]
      rintro (hmem | hmem)
      · exact hkey.notMem (by decide) hmem
      · exact absurd hmem (by decide)
    have hassoc : key ++ ' ' :: '=' :: ' ' :: trimEnd value =
        (key ++ [' ']) ++ '=' :: (' ' :: trimEnd value) := by simp
    rw [hassoc, splitOnce_singleton hnot]
  have hcomment : ¬ (key ++ ' ' :: '=' :: ' ' :: trimEnd value = [] ∨
      (key ++ ' ' :: '=' :: ' ' :: trimEnd value).head? = some '#') := by
    simp [hcons, hhash]
  simp only [readLine, htrim, if_neg hcomment, hheader, hsplit, trim_key_space hkey,
    trim_space_trimEnd hvalue]

theorem readLine_header (r : Reader) (name : List Char) :
    readLine r (Line.header name).text = (name ++ ['.'], r.2) := by
  have htrim : trim (Line.header name).text = '[' :: (name ++ [']']) :=
    trim_eq_self (by decide) (by decide)
  have hcomment : ¬ ('[' :: (name ++ [']']) = [] ∨ ('[' :: (name ++ [']'])).head? = some '#') := by
    simp
  simp only [readLine, htrim, if_neg hcomment, headerName_header]

theorem readLine_comment (r : Reader) (text : List Char) :
    readLine r (Line.comment text).text = r := by
  have hhash : isWhitespace '#' = false := by decide
  obtain ⟨rest, hrest⟩ : ∃ rest, trim ('#' :: text) = '#' :: rest := by
    have hhead : ∃ c ∈ ('#' :: text).head?, isWhitespace c = false := ⟨'#', rfl, hhash⟩
    obtain ⟨d, rest, hd⟩ := List.exists_cons_of_ne_nil (trimEnd_ne_nil hhead)
    have hsame := trimEnd_head? hhead
    rw [hd] at hsame
    cases hsame
    refine ⟨rest, ?_⟩
    rw [trim, List.dropWhile_cons_of_neg (by simp [hhash])]
    exact hd
  simp [readLine, Line.text, hrest]

end Assignments

theorem readLine_stripCr (r : Reader) (line : List Char) :
    readLine r (stripCr line) = readLine r line := by
  rw [readLine, readLine, trim_stripCr]

theorem foldl_readLine {ls : List Line} (hone : ∀ l ∈ ls, l.OneLine) (hproper : ∀ l ∈ ls, l.Proper)
    (r : Reader) : ((lines (document ls)).foldl readLine r).2 = r.2 ++ assignments r.1 ls := by
  induction ls generalizing r with
  | nil => exact (List.append_nil _).symm
  | cons l ls ih =>
    have hcons : document (l :: ls) = l.text ++ '\n' :: document ls := by
      rw [document, List.flatMap_cons, List.append_assoc]
      rfl
    rw [hcons, lines_append (hone l List.mem_cons_self), List.foldl_cons, readLine_stripCr,
      ih (fun l hl => hone l (List.mem_cons_of_mem _ hl))
        (fun l hl => hproper l (List.mem_cons_of_mem _ hl))]
    have hl := hproper l List.mem_cons_self
    cases l with
    | blank => rfl
    | comment text => rw [readLine_comment, assignments]
    | header name => rw [readLine_header, assignments]
    | assign key value => rw [readLine_assign r hl.1 hl.2, assignments, List.append_assoc]; rfl

theorem keyed_document {ls : List Line} (hone : ∀ l ∈ ls, l.OneLine)
    (hproper : ∀ l ∈ ls, l.Proper) : keyed (document ls) = assignments [] ls :=
  foldl_readLine hone hproper ([], [])

-- Of a value over two lines only the first is read: these two texts read alike.
example : keyed (document [.assign ['k'] ['<', '\n', 'a', '>']]) =
    keyed (document [.assign ['k'] ['<', '\n', 'b', '>']]) := by
  decide

end Zecd.KeyedText
