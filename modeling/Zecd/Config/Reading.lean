import Zecd.Config.File
import Zecd.Foundation.KeyDiff

/-! # Reading the effective configuration back

The settings are the keys in full, each with what is written for it. Where every line of a
rendering is written on one line, the settings are what is read from it.
-/

namespace Zecd.Config

open KeyedText

/-! ## The settings -/

def shownItems : List Item → List (List Char × Shown)
  | [] => []
  | .kv key (some shown) :: items => (key.toList, shown) :: shownItems items
  | .kv _ none :: items => shownItems items
  | .redacted _ _ :: items => shownItems items

def qualify (table : List Char) (l : List (List Char × Shown)) : List (List Char × Shown) :=
  l.map fun x => (table ++ x.1, x.2)

/-- Every key in full, with what is written for it. -/
def settings (lib : Libraries) (c : AppConfig) : List (List Char × Shown) :=
  shownItems (topLevelItems c) ++
    (tables lib c).flatMap fun x => qualify (x.1 ++ ['.']) (shownItems x.2)

/-- Each line of the rendering is one line of its text. -/
def Clean (lib : Libraries) (c : AppConfig) : Prop := ∀ l ∈ renderLines lib c, l.OneLine

/-! ## Literals -/

def Blank (x : List Char) : Prop := x = [] ∨ x.head? = some ' '

/-- What the TOML library promises of the texts it writes: a string is in quotation marks, an
array in brackets, and each ends where its own closing mark is. -/
structure Libraries.Lawful (lib : Libraries) : Prop where
  str_head : ∀ s, ∃ c ∈ (lib.strVal s).head?, c = '"' ∨ c = '\''
  str_last : ∀ s, ∃ c ∈ (lib.strVal s).getLast?, c = '"' ∨ c = '\''
  str_ends : ∀ {s t x y}, Blank x → Blank y → lib.strVal s ++ x = lib.strVal t ++ y → s = t
  list_head : ∀ l, (lib.listVal l).head? = some '['
  list_last : ∀ l, (lib.listVal l).getLast? = some ']'
  list_ends : ∀ {l m x y}, Blank x → Blank y → lib.listVal l ++ x = lib.listVal m ++ y → l = m

def Value.displayed : Value → Value
  | .text p => .chars p.display
  | .number n => .number n
  | .flag b => .flag b
  | .list l => .list l

def Value.Begins : Value → Char → Prop
  | .text _, c => c = '"' ∨ c = '\''
  | .number _, c => c.isDigit
  | .flag _, c => c = 't' ∨ c = 'f'
  | .list _, c => c = '['

def Shown.comment (s : Shown) : List Char := trimEnd s.suffix

section Literals

variable {lib : Libraries} {v w : Value} {x y : List Char} {c : Char}

theorem literal_begins (hlib : lib.Lawful) (v : Value) :
    ∃ c ∈ (v.literal lib).head?, v.Begins c := by
  cases v with
  | text p => exact hlib.str_head p.display
  | number n =>
    obtain ⟨c, rest, hc⟩ := List.exists_cons_of_ne_nil (Nat.toDigits_ne_nil (n := n) (b := 10))
    refine ⟨c, by simp [Value.literal, hc], ?_⟩
    exact Nat.isDigit_of_mem_toDigits (b := 10) (by decide) (by decide)
      (hc ▸ List.mem_cons_self)
  | flag b => cases b <;> simp [Value.literal, Value.Begins]
  | list l => exact ⟨'[', hlib.list_head l, rfl⟩

theorem not_isWhitespace_of_isDigit (h : c.isDigit = true) : Text.isWhitespace c = false := by
  apply not_isWhitespace_of_bare
  simp only [Char.isDigit, Bool.and_eq_true, decide_eq_true_eq, UInt32.le_iff_toNat_le] at h
  simp only [isBareChar, Bool.or_eq_true, Bool.and_eq_true, decide_eq_true_eq]
  exact Or.inl (Or.inl (Or.inl (Or.inl h)))

theorem literal_visible (hlib : lib.Lawful) (v : Value) :
    ∃ c ∈ (v.literal lib).head?, Text.isWhitespace c = false := by
  obtain ⟨c, hc, hbegins⟩ := literal_begins hlib v
  refine ⟨c, hc, ?_⟩
  cases v with
  | text p => rcases hbegins with rfl | rfl <;> decide
  | number n => exact not_isWhitespace_of_isDigit hbegins
  | flag b => rcases hbegins with rfl | rfl <;> decide
  | list l => subst hbegins; decide

theorem literal_last (hlib : lib.Lawful) (v : Value) :
    ∃ c ∈ (v.literal lib).getLast?, Text.isWhitespace c = false := by
  cases v with
  | text p =>
    obtain ⟨c, hc, hquote⟩ := hlib.str_last p.display
    refine ⟨c, hc, ?_⟩
    rcases hquote with rfl | rfl <;> decide
  | number n =>
    have hne : Nat.toDigits 10 n ≠ [] := Nat.toDigits_ne_nil
    refine ⟨_, List.getLast?_eq_some_getLast hne, not_isWhitespace_of_isDigit ?_⟩
    exact Nat.isDigit_of_mem_toDigits (by decide) (by decide) (List.getLast_mem hne)
  | flag b =>
    cases b
    · exact ⟨'e', rfl, by decide⟩
    · exact ⟨'e', rfl, by decide⟩
  | list l => exact ⟨']', hlib.list_last l, by decide⟩

theorem literal_displayed (lib : Libraries) (v : Value) :
    v.displayed.literal lib = v.literal lib := by
  cases v with
  | text p => exact congrArg lib.strVal (Path.display_ofText p.display)
  | number n => rfl
  | flag b => rfl
  | list l => rfl

theorem takeWhile_isDigit (n : ℕ) (hx : Blank x) :
    (Nat.toDigits 10 n ++ x).takeWhile Char.isDigit = Nat.toDigits 10 n := by
  have hrest : x.takeWhile Char.isDigit = [] := by
    rcases hx with rfl | hx
    · rfl
    · obtain ⟨rest, rfl⟩ := List.head?_eq_some_iff.mp hx
      exact List.takeWhile_cons_of_neg (by decide)
  rw [List.takeWhile_append_of_pos fun c hc =>
    Nat.isDigit_of_mem_toDigits (by decide) (by decide) hc, hrest, List.append_nil]

theorem literal_ends (hlib : lib.Lawful) (hx : Blank x) (hy : Blank y)
    (h : v.literal lib ++ x = w.literal lib ++ y) : v.displayed = w.displayed := by
  obtain ⟨c, hc, hv⟩ := literal_begins hlib v
  obtain ⟨d, hd, hw⟩ := literal_begins hlib w
  obtain rfl : c = d := by
    have hhead := congrArg List.head? h
    rw [List.head?_append, List.head?_append, hc, hd] at hhead
    exact Option.some.inj hhead
  cases v with
  | text p =>
    cases w with
    | text q => exact congrArg Value.chars (hlib.str_ends hx hy h)
    | number n => rcases hv with rfl | rfl <;> cases hw
    | flag b => rcases hv with rfl | rfl <;> simp [Value.Begins] at hw
    | list l => rcases hv with rfl | rfl <;> simp [Value.Begins] at hw
  | number n =>
    cases w with
    | text q => rcases hw with rfl | rfl <;> cases hv
    | number m =>
      have hdigits := congrArg (List.takeWhile Char.isDigit) h
      rw [Value.literal, Value.literal, takeWhile_isDigit n hx, takeWhile_isDigit m hy] at hdigits
      have hvalue := congrArg (Nat.ofDigitChars 10 · 0) hdigits
      simp only [Nat.ofDigitChars_ten_toDigits] at hvalue
      exact congrArg Value.number hvalue
    | flag b => rcases hw with rfl | rfl <;> cases hv
    | list l => subst hw; cases hv
  | flag a =>
    cases w with
    | text q => rcases hw with rfl | rfl <;> simp [Value.Begins] at hv
    | number m => rcases hv with rfl | rfl <;> cases hw
    | flag b => cases a <;> cases b <;> simp [Value.literal, Value.displayed] at h ⊢
    | list l => subst hw; simp [Value.Begins] at hv
  | list l =>
    cases w with
    | text q => rcases hw with rfl | rfl <;> simp [Value.Begins] at hv
    | number m => subst hv; cases hw
    | flag b => subst hv; simp [Value.Begins] at hw
    | list m => exact congrArg Value.list (hlib.list_ends hx hy h)

/-! ## What is printed -/

variable {s t : Shown}

theorem suffix_visible (v : Value) (note : List Char) :
    (⟨v, some note⟩ : Shown).comment = "  #".toList ++ trimEnd (' ' :: note) := by
  change trimEnd ("  #".toList ++ ' ' :: note) = _
  exact trimEnd_append ⟨'#', rfl, by decide⟩

theorem comment_blank (s : Shown) : Blank s.comment := by
  obtain ⟨v, note⟩ := s
  cases note with
  | none => exact Or.inl rfl
  | some note => exact Or.inr (by rw [suffix_visible]; rfl)

theorem trimEnd_printed (hlib : lib.Lawful) (s : Shown) :
    trimEnd (s.printed lib) = s.value.literal lib ++ s.comment :=
  trimEnd_append (literal_last hlib s.value)

theorem printed_eq_iff (hlib : lib.Lawful) :
    trimEnd (s.printed lib) = trimEnd (t.printed lib) ↔
      s.value.displayed = t.value.displayed ∧ s.comment = t.comment := by
  rw [trimEnd_printed hlib, trimEnd_printed hlib]
  constructor
  · intro h
    have hvalue := literal_ends hlib (comment_blank s) (comment_blank t) h
    refine ⟨hvalue, ?_⟩
    rw [← literal_displayed lib s.value, hvalue, literal_displayed] at h
    exact List.append_cancel_left h
  · rintro ⟨hvalue, hcomment⟩
    rw [← literal_displayed lib s.value, hvalue, literal_displayed, hcomment]

end Literals

/-! ## What is assigned -/

section Assigned

variable {lib : Libraries} {table : List Char} {items : List Item} {ls : List Line}

def readAs (lib : Libraries) (x : List Char × Shown) : List Char × List Char :=
  (x.1, trimEnd (x.2.printed lib))

theorem assignments_items (table : List Char) (items : List Item) (ls : List Line) :
    assignments table (items.flatMap (Item.lines lib) ++ ls) =
      (qualify table (shownItems items)).map (readAs lib) ++ assignments table ls := by
  induction items with
  | nil => rfl
  | cons item items ih =>
    rw [List.flatMap_cons, List.append_assoc]
    cases item with
    | kv key shown =>
      cases shown with
      | none => exact ih
      | some shown =>
        change (table ++ key.toList, trimEnd (shown.printed lib)) ::
          assignments table (items.flatMap (Item.lines lib) ++ ls) = _
        rw [ih]
        rfl
    | redacted keys set => cases set <;> exact ih

theorem assignments_tables (table : List Char) (tbls : List (List Char × List Item)) :
    assignments table (tbls.flatMap fun x => tableLines lib x.1 x.2) =
      (tbls.flatMap fun x => qualify (x.1 ++ ['.']) (shownItems x.2)).map (readAs lib) := by
  induction tbls generalizing table with
  | nil => rfl
  | cons x tbls ih =>
    rw [List.flatMap_cons, List.flatMap_cons, List.map_append, tableLines]
    change assignments (x.1 ++ ['.']) (_ ++ _) = _
    rw [assignments_items, ih]

theorem qualify_nil (l : List (List Char × Shown)) : qualify [] l = l := List.map_id l

theorem assignments_renderLines (lib : Libraries) (c : AppConfig) :
    assignments [] (renderLines lib c) = (settings lib c).map (readAs lib) := by
  rw [renderLines, List.append_assoc]
  change assignments [] ((topLevelItems c).flatMap (Item.lines lib) ++ _) = _
  rw [assignments_items, assignments_tables, qualify_nil, settings, List.map_append]

end Assigned

/-! ## The keys -/

section Keys

variable {lib : Libraries} {c : AppConfig} {items : List Item} {k : List Char} {s : Shown}

def Item.key : Item → Option (List Char)
  | .kv key _ => some key.toList
  | .redacted _ _ => none

theorem shownItems_sublist (items : List Item) :
    ((shownItems items).map Prod.fst).Sublist (items.filterMap Item.key) := by
  induction items with
  | nil => exact List.Sublist.refl _
  | cons item items ih =>
    cases item with
    | kv key shown =>
      cases shown with
      | none => exact ih.cons _
      | some shown => exact ih.cons_cons _
    | redacted keys set => exact ih

structure WellKeyed (items : List Item) : Prop where
  bare : ∀ k ∈ items.filterMap Item.key, BareKey k
  nodup : (items.filterMap Item.key).Nodup

theorem WellKeyed.of_keys {keys : List String}
    (h : items.filterMap Item.key = keys.map String.toList)
    (hbare : ∀ k ∈ keys, BareKey k.toList) (hnodup : keys.Nodup) : WellKeyed items := by
  rw [← List.forall_mem_map, ← h] at hbare
  exact ⟨hbare, h ▸ hnodup.map fun _ _ => String.toList_injective⟩

theorem WellKeyed.bare_of_mem (h : WellKeyed items) (hk : (k, s) ∈ shownItems items) :
    BareKey k :=
  h.bare k ((shownItems_sublist items).subset (List.mem_map_of_mem hk))

theorem WellKeyed.nodup_shownItems (h : WellKeyed items) :
    ((shownItems items).map Prod.fst).Nodup :=
  h.nodup.sublist (shownItems_sublist items)

def topLevelKeys : List String := ["network", "datadir", "default_wallet"]

def fixedKeys : List (String × List String) :=
  [("backend", ["server", "proxy", "connect_timeout_secs", "reconnect_base_secs",
      "reconnect_max_secs", "rfc1918_is_local", "allow_remote_cleartext", "tls", "tls_roots",
      "tls_insecure_skip_verify", "tls_ca_file", "tls_pinned_sha256",
      "assume_transparent_in_compact_blocks"]),
    ("zebra", ["rpc_cookie"]),
    ("rpc", ["bind", "port", "cookiefile", "work_queue", "allowed_methods",
      "allow_duplicate_shielded_recipients"]),
    ("keys", ["age_identity", "auto_unlock", "allow_multiple_spending_wallets",
      "bootstrap_from_keys"]),
    ("sync", ["interval_secs", "rebroadcast_secs", "fetch_memos", "batch_size",
      "writer_cache_mib", "enhance_concurrency"]),
    ("spend", ["trusted_confirmations", "untrusted_confirmations", "trust_own_transactions",
      "privacy_policy", "orchard_action_limit", "max_tx_bytes", "cache_proving_key",
      "pipeline_proving", "target_note_count", "min_split_output_value", "shutdown_drain_secs",
      "max_send_catchup_blocks"]),
    ("pools", poolsFileKeys "enabled"),
    ("health", ["enabled", "bind", "port", "readiness", "max_scan_lag"]),
    ("fleet", ["enabled", "manifest_dir", "dir", "shard_size", "cohort_depth"]),
    ("log", ["level", "format"])]

def walletKeys : List String :=
  ["dir", "keys_file", "server", "tls", "tls_roots", "tls_insecure_skip_verify", "tls_ca_file",
    "tls_pinned_sha256", "assume_transparent_in_compact_blocks"] ++ poolsFileKeys "pools"

-- a literal is the string of its characters: they are looked at without decoding it

theorem topLevelKeys_bare : ∀ k ∈ topLevelKeys, BareKey k.toList := by
  simp only [topLevelKeys, List.forall_mem_cons, -String.reduceToList]
  and_intros
  all_goals first
    | exact List.forall_mem_nil _
    | rw [String.toList_ofList]; decide

theorem walletKeys_bare : ∀ k ∈ walletKeys, BareKey k.toList := by
  simp only [walletKeys, poolsFileKeys, List.cons_append, List.nil_append, List.forall_mem_cons,
    -String.reduceToList]
  and_intros
  all_goals first
    | exact List.forall_mem_nil _
    | rw [String.toList_ofList]; decide

theorem fixedKeys_bare : ∀ x ∈ fixedKeys, ∀ k ∈ x.2, BareKey k.toList := by
  simp only [fixedKeys, poolsFileKeys, List.forall_mem_cons, -String.reduceToList]
  and_intros
  all_goals first
    | exact List.forall_mem_nil _
    | rw [String.toList_ofList]; decide

theorem fixedKeys_nodup : ∀ x ∈ fixedKeys, x.2.Nodup := by decide

theorem topLevelItems_wellKeyed (c : AppConfig) : WellKeyed (topLevelItems c) :=
  .of_keys (show _ = topLevelKeys.map String.toList from rfl) topLevelKeys_bare
    (by decide)

theorem walletItems_wellKeyed (lib : Libraries) (c : AppConfig) (w : WalletEntry) :
    WellKeyed (walletItems lib c w) :=
  .of_keys (show _ = walletKeys.map String.toList from rfl) walletKeys_bare (by decide)

theorem fixedTables_keys (lib : Libraries) (c : AppConfig) :
    (fixedTables lib c).map (fun x => (x.1, x.2.filterMap Item.key)) =
      fixedKeys.map fun x => (x.1.toList, x.2.map String.toList) :=
  rfl

theorem fixedTables_wellKeyed {x : List Char × List Item} (hx : x ∈ fixedTables lib c) :
    WellKeyed x.2 := by
  have hmem : (x.1, x.2.filterMap Item.key) ∈
      fixedKeys.map fun x => (x.1.toList, x.2.map String.toList) :=
    fixedTables_keys lib c ▸ List.mem_map_of_mem hx
  obtain ⟨y, hy, hxy⟩ := List.mem_map.mp hmem
  exact .of_keys (Prod.ext_iff.mp hxy).2.symm (fixedKeys_bare y hy) (fixedKeys_nodup y hy)

theorem tables_wellKeyed {x : List Char × List Item} (hx : x ∈ tables lib c) :
    WellKeyed x.2 := by
  rcases List.mem_append.mp hx with hx | hx
  · exact fixedTables_wellKeyed hx
  · obtain ⟨w, -, rfl⟩ := List.mem_map.mp hx
    exact walletItems_wellKeyed lib c w.2

/-! ## No key twice -/

theorem dot_notMem (h : BareKey k) : '.' ∉ k := h.notMem (by decide)

theorem qualified_inj {s t k l : List Char} (hk : BareKey k) (hl : BareKey l)
    (h : s ++ ['.'] ++ k = t ++ ['.'] ++ l) : s = t ∧ k = l := by
  have hs : Text.rsplitOnce '.' (s ++ ['.'] ++ k) = some (s, k) :=
    Text.rsplitOnce_eq_some.mpr ⟨by simp, dot_notMem hk⟩
  have ht : Text.rsplitOnce '.' (s ++ ['.'] ++ k) = some (t, l) :=
    Text.rsplitOnce_eq_some.mpr ⟨by simpa using h, dot_notMem hl⟩
  rw [hs] at ht
  cases ht
  exact ⟨rfl, rfl⟩

theorem fixedTables_names (lib : Libraries) (c : AppConfig) :
    (fixedTables lib c).map Prod.fst = fixedKeys.map fun x => x.1.toList :=
  rfl

theorem fixedTables_nodup (lib : Libraries) (c : AppConfig) :
    ((fixedTables lib c).map Prod.fst).Nodup := by
  rw [fixedTables_names]
  decide

theorem forall_fixedTables {P : List Char → Prop}
    (h : ∀ t ∈ fixedKeys.map fun x => x.1.toList, P t) : ∀ x ∈ fixedTables lib c, P x.1 := by
  rwa [← fixedTables_names lib c, List.forall_mem_map] at h

theorem tables_nodup (lib : Libraries) (c : AppConfig) :
    ((tables lib c).map Prod.fst).Nodup := by
  have hwallets : (walletTables lib c).map Prod.fst = (c.wallets.map Prod.fst).map walletTable := by
    rw [walletTables, List.map_map, List.map_map]
    rfl
  have hplain : ∀ t ∈ fixedKeys.map fun x => x.1.toList, '.' ∉ t := by decide
  rw [tables, List.map_append, hwallets, List.nodup_append]
  refine ⟨fixedTables_nodup lib c, ?_, ?_⟩
  · exact c.wallets_nodup.map fun _ _ h => List.append_cancel_left h
  · rintro t ht _ hw rfl
    obtain ⟨name, -, rfl⟩ := List.mem_map.mp hw
    exact hplain (walletTable name) ht (List.mem_append_left name (by decide))

theorem map_fst_qualify (x : List Char × List Item) :
    (qualify (x.1 ++ ['.']) (shownItems x.2)).map Prod.fst =
      ((shownItems x.2).map Prod.fst).map (x.1 ++ ['.'] ++ ·) := by
  rw [qualify, List.map_map, List.map_map]
  rfl

theorem mem_tableKeys {x : List Char × List Item} (hx : x ∈ tables lib c)
    (hk : k ∈ ((shownItems x.2).map Prod.fst).map (x.1 ++ ['.'] ++ ·)) :
    ∃ l, BareKey l ∧ k = x.1 ++ ['.'] ++ l := by
  obtain ⟨l, hl, rfl⟩ := List.mem_map.mp hk
  obtain ⟨y, hy, rfl⟩ := List.mem_map.mp hl
  exact ⟨y.1, (tables_wellKeyed hx).bare_of_mem hy, rfl⟩

theorem settings_nodup (lib : Libraries) (c : AppConfig) :
    ((settings lib c).map Prod.fst).Nodup := by
  have hnodup : (tables lib c).Pairwise fun x y => x.1 ≠ y.1 :=
    List.pairwise_map.mp (tables_nodup lib c)
  rw [settings, List.map_append, List.map_flatMap, List.nodup_append]
  simp only [map_fst_qualify]
  refine ⟨(topLevelItems_wellKeyed c).nodup_shownItems, ?_, ?_⟩
  · rw [List.nodup_flatMap]
    constructor
    · intro x hx
      exact (tables_wellKeyed hx).nodup_shownItems.map fun _ _ h => List.append_cancel_left h
    · apply hnodup.imp_of_mem
      intro x y hx hy hxy k hkx hky
      obtain ⟨l, hl, rfl⟩ := mem_tableKeys hx hkx
      obtain ⟨l', hl', heq⟩ := mem_tableKeys hy hky
      exact hxy (qualified_inj hl hl' heq).1
  · rintro k hk _ hk' rfl
    obtain ⟨x, hx, hkx⟩ := List.mem_flatMap.mp hk'
    obtain ⟨l, -, rfl⟩ := mem_tableKeys hx hkx
    obtain ⟨y, hy, heq⟩ := List.mem_map.mp hk
    have hdot := dot_notMem ((topLevelItems_wellKeyed c).bare_of_mem hy)
    rw [heq] at hdot
    simp at hdot

end Keys

/-! ## Lines that are one line -/

section OneLine

variable {lib : Libraries} {c : AppConfig} {items : List Item} {x : List Char × Shown}

def Item.hidden : Item → Option (List Char)
  | .kv _ _ => none
  | .redacted keys _ => some keys.toList

theorem mem_shownItems :
    x ∈ shownItems items ↔ ∃ key, .kv key (some x.2) ∈ items ∧ key.toList = x.1 := by
  induction items with
  | nil => simp [shownItems]
  | cons item items ih =>
    rcases item with ⟨key, _ | shown⟩ | ⟨keys, set⟩
    · simp [shownItems, ih]
    · simp only [shownItems, List.mem_cons, ih, Item.kv.injEq, Option.some.injEq]
      constructor
      · rintro (rfl | ⟨k, hk, hx⟩)
        · exact ⟨key, Or.inl ⟨rfl, rfl⟩, rfl⟩
        · exact ⟨k, Or.inr hk, hx⟩
      · rintro ⟨k, ⟨rfl, rfl⟩ | hk, hx⟩
        · exact Or.inl (Prod.ext hx.symm rfl)
        · exact Or.inr ⟨k, hk, hx⟩
    · simp [shownItems, ih]

def hiddenKeys : List String := ["rpc_user, rpc_password", "user, password", "auth"]

theorem tables_hidden (lib : Libraries) (c : AppConfig) {x : List Char × List Item}
    (hx : x ∈ tables lib c) : ∀ k ∈ x.2.filterMap Item.hidden, '\n' ∉ k := by
  intro k hk
  have hfixed : (fixedTables lib c).flatMap (fun x => x.2.filterMap Item.hidden) =
      hiddenKeys.map String.toList := rfl
  rcases List.mem_append.mp hx with hx | hx
  · have hmem : k ∈ hiddenKeys.map String.toList :=
      hfixed ▸ List.mem_flatMap.mpr ⟨x, hx, hk⟩
    have hall : ∀ k ∈ hiddenKeys.map String.toList, '\n' ∉ k := by decide
    exact hall k hmem
  · obtain ⟨w, -, rfl⟩ := List.mem_map.mp hx
    have hnone : (walletItems lib c w.2).filterMap Item.hidden = [] := rfl
    rw [hnone] at hk
    cases hk

theorem items_oneLine (hkeys : WellKeyed items)
    (hhidden : ∀ k ∈ items.filterMap Item.hidden, '\n' ∉ k) :
    (∀ l ∈ items.flatMap (Item.lines lib), l.OneLine) ↔
      ∀ x ∈ shownItems items, '\n' ∉ x.2.printed lib := by
  constructor
  · intro h x hx hnewline
    obtain ⟨key, hitem, -⟩ := mem_shownItems.mp hx
    exact h (.assign key.toList (x.2.printed lib))
      (List.mem_flatMap.mpr ⟨_, hitem, List.mem_singleton.mpr rfl⟩)
      (by simp [Line.text, hnewline])
  · intro h l hl
    obtain ⟨item, hitem, hline⟩ := List.mem_flatMap.mp hl
    rcases item with ⟨key, _ | shown⟩ | ⟨keys, _ | _⟩
    · cases hline
    · obtain rfl := List.mem_singleton.mp hline
      have hkey : '\n' ∉ key.toList :=
        (hkeys.bare _ (List.mem_filterMap.mpr ⟨_, hitem, rfl⟩)).notMem (by decide)
      have hvalue : '\n' ∉ shown.printed lib :=
        h (key.toList, shown) (mem_shownItems.mpr ⟨key, hitem, rfl⟩)
      simp [Line.OneLine, Line.text, hkey, hvalue]
    · cases hline
    · obtain rfl := List.mem_singleton.mp hline
      have hkeys : '\n' ∉ keys.toList :=
        hhidden _ (List.mem_filterMap.mpr ⟨_, hitem, rfl⟩)
      simp [Line.OneLine, Line.text, hkeys]

theorem headerLines_oneLine : ∀ l ∈ headerLines, '\n' ∉ l.text := by
  simp only [headerLines, List.forall_mem_cons, String.toList_append, -String.reduceToList]
  and_intros
  all_goals first
    | exact List.forall_mem_nil _
    | rw [String.toList_ofList, String.toList_ofList]; decide
    | rw [String.toList_ofList]; decide
    | decide

theorem header_oneLine (name : List Char) : (Line.header name).OneLine ↔ '\n' ∉ name := by
  simp [Line.OneLine, Line.text]

theorem tables_oneLine (hwallets : ∀ w ∈ c.wallets, '\n' ∉ w.1) {x : List Char × List Item}
    (hx : x ∈ tables lib c) : '\n' ∉ x.1 := by
  rcases List.mem_append.mp hx with hx | hx
  · exact forall_fixedTables (P := fun t => '\n' ∉ t) (by decide) x hx
  · obtain ⟨w, hw, rfl⟩ := List.mem_map.mp hx
    exact fun hnewline => (List.mem_append.mp hnewline).elim (by decide) (hwallets w hw)

theorem clean_iff_tables : Clean lib c ↔
    (∀ l ∈ (topLevelItems c).flatMap (Item.lines lib), l.OneLine) ∧ ∀ x ∈ tables lib c,
      '\n' ∉ x.1 ∧ ∀ l ∈ x.2.flatMap (Item.lines lib), l.OneLine := by
  have hblank : Line.blank.OneLine := List.not_mem_nil
  rw [Clean, renderLines]
  simp only [List.forall_mem_append, List.forall_mem_cons, hblank, true_and,
    List.forall_mem_flatMap, tableLines, header_oneLine]
  exact and_congr_left fun _ => and_iff_right headerLines_oneLine

theorem forall_qualify {table : List Char} {l : List (List Char × Shown)} {P : Shown → Prop} :
    (∀ x ∈ qualify table l, P x.2) ↔ ∀ x ∈ l, P x.2 := by
  rw [qualify, List.forall_mem_map]

theorem clean_iff : Clean lib c ↔
    (∀ x ∈ settings lib c, '\n' ∉ x.2.printed lib) ∧ ∀ w ∈ c.wallets, '\n' ∉ w.1 := by
  have hhidden : (topLevelItems c).filterMap Item.hidden = [] := rfl
  have htop : (∀ l ∈ (topLevelItems c).flatMap (Item.lines lib), l.OneLine) ↔ _ :=
    items_oneLine (topLevelItems_wellKeyed c) fun k hk => by rw [hhidden] at hk; cases hk
  have htables : ∀ x ∈ tables lib c, ((∀ l ∈ x.2.flatMap (Item.lines lib), l.OneLine) ↔
      ∀ y ∈ qualify (x.1 ++ ['.']) (shownItems x.2), '\n' ∉ y.2.printed lib) := fun x hx => by
    rw [items_oneLine (tables_wellKeyed hx) (tables_hidden lib c hx)]
    exact (forall_qualify (P := fun s => '\n' ∉ s.printed lib)).symm
  rw [clean_iff_tables, htop, settings, List.forall_mem_append, List.forall_mem_flatMap, and_assoc]
  apply and_congr_right
  intro _
  constructor
  · intro h
    refine ⟨fun x hx => (htables x hx).mp (h x hx).2, fun w hw hnewline => ?_⟩
    have hx : (walletTable w.1, walletItems lib c w.2) ∈ tables lib c :=
      List.mem_append_right _ (List.mem_map_of_mem hw)
    exact (h _ hx).1 (List.mem_append_right _ hnewline)
  · rintro ⟨hvalues, hwallets⟩ x hx
    exact ⟨tables_oneLine hwallets hx, (htables x hx).mpr (hvalues x hx)⟩

end OneLine

/-! ## What is read -/

section Read

variable {lib : Libraries} {c : AppConfig}

theorem proper_of_items {items : List Item} (hlib : lib.Lawful) (hkeys : WellKeyed items) :
    ∀ l ∈ items.flatMap (Item.lines lib), l.Proper := by
  intro l hl
  obtain ⟨item, hitem, hline⟩ := List.mem_flatMap.mp hl
  cases item with
  | kv key shown =>
    cases shown with
    | none => cases hline
    | some shown =>
      obtain rfl := List.mem_singleton.mp hline
      refine ⟨hkeys.bare _ (List.mem_filterMap.mpr ⟨_, hitem, rfl⟩), ?_⟩
      obtain ⟨c, hc, hvisible⟩ := literal_visible hlib shown.value
      refine ⟨c, ?_, hvisible⟩
      rw [Shown.printed, List.head?_append, hc]
      rfl
  | redacted keys set =>
    cases set with
    | true => rw [List.mem_singleton.mp hline]; trivial
    | false => cases hline

theorem renderLines_proper (hlib : lib.Lawful) (c : AppConfig) :
    ∀ l ∈ renderLines lib c, l.Proper := by
  intro l hl
  rw [renderLines, List.mem_append, List.mem_append, List.mem_cons] at hl
  rcases hl with (hl | rfl | hl) | hl
  · rw [headerLines] at hl
    fin_cases hl <;> trivial
  · trivial
  · exact proper_of_items hlib (topLevelItems_wellKeyed c) l hl
  · obtain ⟨x, hx, hl⟩ := List.mem_flatMap.mp hl
    rw [tableLines, List.mem_cons, List.mem_cons] at hl
    rcases hl with rfl | rfl | hl
    · trivial
    · trivial
    · exact proper_of_items hlib (tables_wellKeyed hx) l hl

theorem keyed_render (hlib : lib.Lawful) (hclean : Clean lib c) :
    keyed (render lib c) = (settings lib c).map (readAs lib) := by
  rw [render, keyed_document hclean (renderLines_proper hlib c), assignments_renderLines]

end Read

end Zecd.Config
