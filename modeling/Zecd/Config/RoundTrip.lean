import Zecd.Config.Reread
import Zecd.Config.LineToml

/-! # Rendering and reading back

A rendering is read as the document of its configuration if every wallet's name is a bare key.
Any other name is lost: its header names another key, a shorter one if that has to be quoted.
-/

namespace Zecd.Config

open KeyedText Fallible

/-! ## Bare names -/

section Bare

variable {t : Toml} {c : AppConfig}

theorem walletTable_eq (name : List Char) :
    walletTable name = "wallets".toList ++ '.' :: name := rfl

theorem wallets_bare : BareKey "wallets".toList := by decide

theorem fixed_bare {x : List Char × List Item} (hx : x ∈ fixedTables t.toLibraries c) :
    BareKey x.1 ∧ x.1 ≠ "wallets".toList := by
  have hall : ∀ k ∈ fixedKeys.map fun x => x.1.toList, BareKey k ∧ k ≠ "wallets".toList := by
    decide
  exact forall_fixedTables hall x hx

theorem headerPath_wallet (ht : t.Lawful) (name : List Char) :
    t.headerPath (walletTable name) = (t.headerPath name).map ("wallets".toList :: ·) := by
  rw [walletTable_eq, ht.dotted _ _ wallets_bare]

theorem top_apart : ∀ k ∈ topLevelKeys.map String.toList,
    k ≠ "wallets".toList ∧ k ∉ fixedKeys.map fun x => x.1.toList := by
  decide

theorem documentOf_nodup (lib : Libraries) (c : AppConfig) :
    ((documentOf lib c).tables.map Prod.fst).Nodup := by
  have hsingle := (fixedTables_nodup lib c).map List.singleton_injective
  have hpair := c.wallets_nodup.map fun x y (h : ["wallets".toList, x] = ["wallets".toList, y]) =>
    List.singleton_injective (List.cons.inj h).2
  rw [List.map_map] at hsingle hpair
  rw [documentOf, List.map_append, List.map_map, List.map_map]
  refine List.nodup_append.mpr ⟨hsingle, hpair, ?_⟩
  intro p hp q hq hpq
  obtain ⟨x, -, rfl⟩ := List.mem_map.mp hp
  obtain ⟨y, -, rfl⟩ := List.mem_map.mp hq
  have hlength := congrArg List.length hpq
  simp at hlength

theorem mem_documentOf {lib : Libraries} {y : List (List Char) × Table}
    (hy : y ∈ (documentOf lib c).tables) :
    (∃ x ∈ fixedTables lib c, y.1 = [x.1]) ∨ ∃ x ∈ c.wallets, y.1 = ["wallets".toList, x.1] := by
  rcases List.mem_append.mp hy with hy | hy
  · obtain ⟨x, hx, rfl⟩ := List.mem_map.mp hy
    exact Or.inl ⟨x, hx, rfl⟩
  · obtain ⟨x, hx, rfl⟩ := List.mem_map.mp hy
    exact Or.inr ⟨x, hx, rfl⟩

theorem documentOf_wellFormed (t : Toml) (c : AppConfig) :
    WellFormed (documentOf t.toLibraries c).top (documentOf t.toLibraries c).tables := by
  refine ⟨documentOf_nodup t.toLibraries c, ?_⟩
  simp only [Bool.eq_false_iff, ne_eq, List.isPrefixOf_iff_prefix]
  rw [List.forall_mem_cons]
  constructor
  · intro k hk y hy hprefix
    obtain ⟨_, hx, rfl⟩ := List.mem_map.mp hk
    obtain ⟨z, hz, rfl⟩ := List.mem_map.mp hx
    have hkey : z.1 ∈ topLevelKeys.map String.toList :=
      (shownItems_sublist (topLevelItems c)).subset (List.mem_map_of_mem hz)
    obtain ⟨hwallets, hfixed⟩ := top_apart z.1 hkey
    rcases mem_documentOf hy with ⟨x, hx, heq⟩ | ⟨x, hx, heq⟩ <;> rw [heq] at hprefix
    · apply hfixed
      rw [(List.cons_prefix_cons.mp hprefix).1, ← fixedTables_names t.toLibraries c]
      exact List.mem_map_of_mem hx
    · exact hwallets (List.cons_prefix_cons.mp hprefix).1
  · intro x hx k _ y hy hprefix
    have hlength := hprefix.length_le
    rcases mem_documentOf hx with ⟨x', hx', heq⟩ | ⟨x', _, heq⟩ <;> rw [heq] at hprefix hlength
    · rcases mem_documentOf hy with ⟨y', _, heq'⟩ | ⟨y', _, heq'⟩ <;> rw [heq'] at hprefix hlength
      · simp at hlength
      · exact (fixed_bare hx').2 (List.cons_prefix_cons.mp hprefix).1
    · rcases mem_documentOf hy with ⟨y', _, heq'⟩ | ⟨y', _, heq'⟩ <;> rw [heq'] at hlength <;>
        simp at hlength

theorem document_pageOf (ht : t.Lawful) (hbare : ∀ x ∈ c.wallets, BareKey x.1) :
    (pageOf t.toLibraries c).document t.headerPath = some (documentOf t.toLibraries c) := by
  have hfixed : ∀ x ∈ fixedTables t.toLibraries c,
      (t.headerPath x.1).map (·, entries x.2) = some ([x.1], entries x.2) := by
    intro x hx
    rw [ht.bare x.1 (fixed_bare hx).1]
    rfl
  have hwallets : (walletTables t.toLibraries c).mapM
      (fun x => (t.headerPath x.1).map (·, entries x.2)) = some (c.wallets.map fun x =>
        (["wallets".toList, x.1], entries (walletItems t.toLibraries c x.2))) := by
    rw [walletTables, List.mapM_map]
    refine mapM_eq_some_map fun x hx => ?_
    rw [Function.comp_apply, headerPath_wallet ht, ht.bare x.1 (hbare x hx)]
    rfl
  have htables : (tables t.toLibraries c).mapM (fun x => (t.headerPath x.1).map (·, entries x.2)) =
      some (documentOf t.toLibraries c).tables := by
    rw [tables, List.mapM_append, mapM_eq_some_map hfixed, hwallets]
    rfl
  rw [Page.document, pageOf, htables]
  exact if_pos (documentOf_wellFormed t c)

end Bare

/-! ## Names that are not bare -/

section Quoted

variable {t : Toml} {lib : Libraries} {host : Host} {defaults : BinaryDefaults}
  {cli : ConfigOverrides} {c c' : AppConfig} {file : ConfigFile} {d : Document}

theorem of_mapM_eq_some {α β : Type} {f : α → Option β} {l : List α} {m : List β}
    (h : l.mapM f = some m) : m.length = l.length ∧ ∀ y ∈ m, ∃ x ∈ l, f x = some y := by
  induction l generalizing m with
  | nil =>
    cases h
    exact ⟨rfl, fun _ hy => nomatch hy⟩
  | cons x l ih =>
    simp only [List.mapM_cons, Option.bind_eq_bind, Option.bind_eq_some_iff, Option.pure_def,
      Option.some.injEq] at h
    obtain ⟨y, hy, ys, hys, rfl⟩ := h
    obtain ⟨hlength, hmem⟩ := ih hys
    refine ⟨congrArg (· + 1) hlength, List.forall_mem_cons.mpr ⟨⟨x, List.mem_cons_self, hy⟩, ?_⟩⟩
    intro z hz
    obtain ⟨w, hw, hwz⟩ := hmem z hz
    exact ⟨w, List.mem_cons_of_mem _ hw, hwz⟩

theorem length_entryOrInsert {α : Type} {name : List Char} {v : α} {l : List (List Char × α)}
    (h : name ∉ l.map Prod.fst) : (entryOrInsert name v l).length = l.length + 1 := by
  induction l with
  | nil => rfl
  | cons x l ih =>
    obtain ⟨hx, hl⟩ := not_or.mp (mt List.mem_cons.mpr h)
    rw [entryOrInsert, if_neg (Ne.symm hx)]
    split
    · rfl
    · exact congrArg (· + 1) (ih hl)

theorem names_of_resolve (h : resolve lib host defaults cli file = .ok c)
    (hlength : c.wallets.length ≤ file.wallets.length) :
    c.wallets.map Prod.fst = file.wallets.map Prod.fst := by
  simp only [resolve, bind_eq_ok, Except.ok.injEq] at h
  obtain ⟨network, -, pools, -, wallets, hwallets, _, -, _, -, _, -, _, -, _, -, _, -, _, -, _, -,
    rfl⟩ := h
  simp only [resolveWallets, bind_eq_ok, Except.ok.injEq] at hwallets
  obtain ⟨m, -, rfl⟩ := hwallets
  have hsorted := file.wallets_sorted
  rw [← m.2] at hsorted
  have hsame : m.1.length = file.wallets.length := by
    simpa using congrArg List.length m.2
  by_cases hmem : file.defaultWallet.getD "default".toList ∈ m.1.map Prod.fst
  · change (entryOrInsert _ _ _).map _ = _
    rw [entryOrInsert_of_mem hmem hsorted, m.2]
  · have hlonger := length_entryOrInsert (v := implicitWallet ⟨resolveDatadir defaults cli file,
      network, file.defaultWallet.getD "default".toList, keysFileGlobal cli file, pools⟩) hmem
    change (entryOrInsert _ _ _).length ≤ _ at hlength
    omega

theorem wallets_of_ofDocument (h : ConfigFile.ofDocument d = some file) :
    d.tables.all knownTable = true ∧ ∃ ws, readWallets d = some ws ∧
      file.wallets = ws.mergeSort fun x y => decide (x.1 ≤ y.1) := by
  rw [ConfigFile.ofDocument] at h
  obtain ⟨_, -, h⟩ := Option.bind_eq_some_iff.mp h
  obtain ⟨hknown, h⟩ := Option.ite_none_right_eq_some.mp h
  -- The keys before the tables come before the wallets, the sections after them.
  iterate 3 obtain ⟨_, -, h⟩ := Option.bind_eq_some_iff.mp h
  obtain ⟨ws, hws, h⟩ := Option.bind_eq_some_iff.mp h
  iterate 10 obtain ⟨_, -, h⟩ := Option.bind_eq_some_iff.mp h
  obtain ⟨hsorted, h⟩ := Option.dite_none_right_eq_some.mp h
  cases h
  exact ⟨hknown, ws, hws, rfl⟩

theorem names_of_ofDocument (h : ConfigFile.ofDocument d = some file) :
    file.wallets.length = (d.tables.filterMap fun x => walletName x.1).length ∧
      ∀ q ∈ file.wallets.map Prod.fst, ∃ x ∈ d.tables, walletName x.1 = some q := by
  obtain ⟨-, ws, hws, hsort⟩ := wallets_of_ofDocument h
  obtain ⟨hlength, hmem⟩ := of_mapM_eq_some hws
  constructor
  · rw [hsort, List.length_mergeSort, hlength]
    simp only [List.length_filterMap_eq_countP, Option.isSome_map]
  · intro q hq
    obtain ⟨y, hy, rfl⟩ := List.mem_map.mp hq
    rw [hsort, List.mem_mergeSort] at hy
    obtain ⟨x, hx, hread⟩ := hmem y hy
    obtain ⟨z, hz, hname⟩ := List.mem_filterMap.mp hx
    obtain ⟨name, hwallet, rfl⟩ := Option.map_eq_some_iff.mp hname
    obtain ⟨_, -, rfl⟩ := Option.map_eq_some_iff.mp hread
    exact ⟨z, hz, hwallet⟩

theorem tables_of_document {headerPath : List Char → Option (List (List Char))}
    (h : (pageOf lib c).document headerPath = some d) :
    ∃ fixed wallets, d.tables = fixed ++ wallets ∧
      (fixedTables lib c).mapM (fun x => (headerPath x.1).map (·, entries x.2)) = some fixed ∧
      (walletTables lib c).mapM (fun x => (headerPath x.1).map (·, entries x.2)) =
        some wallets := by
  simp only [Page.document, pageOf, tables, List.mapM_append, Option.bind_eq_bind,
    Option.bind_eq_some_iff, Option.pure_def, Option.some.injEq] at h
  obtain ⟨_, ⟨fixed, hfixed, wallets, hwallets, rfl⟩, h⟩ := h
  obtain ⟨-, ⟨⟩⟩ := Option.ite_none_right_eq_some.mp h
  exact ⟨fixed, wallets, rfl, hfixed, hwallets⟩

theorem wallet_known {w : WalletEntry} {path : List (List Char)}
    (h : knownTable ("wallets".toList :: path, entries (walletItems lib c w)) = true) :
    ∃ q, path = [q] := by
  have hsections : ∀ s ∈ sectionNames, s.toList ≠ "wallets".toList := by decide
  simp only [knownTable, Bool.or_eq_true, Bool.and_eq_true, decide_eq_true_eq] at h
  rcases h with (h | h) | ⟨-, h⟩
  · obtain ⟨s, hs, heq⟩ := List.mem_map.mp h
    exact absurd (List.cons.inj heq).1 (hsections s hs)
  · rcases path with _ | ⟨q, _ | ⟨r, path⟩⟩
    · cases h
    · exact ⟨q, rfl⟩
    · cases h
  · -- The directory of a wallet is always written.
    cases h

theorem names_of_reading (ht : t.Lawful)
    (hdoc : (pageOf t.toLibraries c).document t.headerPath = some d)
    (hfile : ConfigFile.ofDocument d = some file) : c.wallets.length ≤ file.wallets.length ∧
      ∀ q ∈ file.wallets.map Prod.fst, ∃ x ∈ c.wallets, t.headerPath x.1 = some [q] := by
  obtain ⟨hlength, hnames⟩ := names_of_ofDocument hfile
  obtain ⟨hknown, -⟩ := wallets_of_ofDocument hfile
  obtain ⟨fixed, wallets, htables, hfixed, hwallets⟩ := tables_of_document hdoc
  have hplain : ∀ y ∈ fixed, walletName y.1 = none := by
    intro y hy
    obtain ⟨x, hx, hpath⟩ := (of_mapM_eq_some hfixed).2 y hy
    rw [ht.bare x.1 (fixed_bare hx).1] at hpath
    cases hpath
    rfl
  have hnamed : ∀ y ∈ wallets, ∃ x ∈ c.wallets, ∃ q, t.headerPath x.1 = some [q] ∧
      walletName y.1 = some q := by
    intro y hy
    obtain ⟨_, htable, hnamed⟩ := (of_mapM_eq_some hwallets).2 y hy
    obtain ⟨x, hx, rfl⟩ := List.mem_map.mp htable
    rw [headerPath_wallet ht, Option.map_map] at hnamed
    obtain ⟨path, hpath, rfl⟩ := Option.map_eq_some_iff.mp hnamed
    have hy' := List.all_eq_true.mp hknown _ (htables ▸ List.mem_append_right fixed hy)
    obtain ⟨q, rfl⟩ := wallet_known hy'
    exact ⟨x, hx, q, hpath, rfl⟩
  constructor
  · have hcount : (wallets.filterMap fun y => walletName y.1).length = wallets.length := by
      rw [List.length_filterMap_eq_countP, List.countP_eq_length]
      intro y hy
      obtain ⟨-, -, q, -, hname⟩ := hnamed y hy
      rw [hname]
      rfl
    rw [hlength, htables, List.filterMap_append, List.length_append, hcount,
      (of_mapM_eq_some hwallets).1, walletTables, List.length_map]
    exact Nat.le_add_left _ _
  · intro q hq
    obtain ⟨y, hy, hname⟩ := hnames q hq
    rw [htables, List.mem_append] at hy
    rcases hy with hy | hy
    · rw [hplain y hy] at hname
      cases hname
    · obtain ⟨x, hx, q', hpath, hname'⟩ := hnamed y hy
      rw [hname] at hname'
      cases hname'
      exact ⟨x, hx, hpath⟩

theorem bare_of_names (ht : t.Lawful) {names : List (List Char)}
    (h : ∀ q ∈ names, ∃ s ∈ names, t.headerPath s = some [q]) : ∀ q ∈ names, BareKey q := by
  by_contra hbare
  simp only [not_forall] at hbare
  obtain ⟨name, hname, hquoted⟩ := hbare
  -- The longest name that is not bare would have to be quoted in a longer one.
  obtain ⟨q, hq, hlongest⟩ := Finset.exists_max_image
    (names.toFinset.filter fun q => ¬ BareKey q) List.length
    ⟨name, Finset.mem_filter.mpr ⟨List.mem_toFinset.mpr hname, hquoted⟩⟩
  obtain ⟨hq, hqbare⟩ := Finset.mem_filter.mp hq
  obtain ⟨s, hs, hpath⟩ := h q (List.mem_toFinset.mp hq)
  rcases ht.single s q hpath with hbare | hshorter
  · exact hqbare hbare
  · have hsbare : ¬ BareKey s := by
      intro hbare
      rw [ht.bare s hbare] at hpath
      cases hpath
      exact hqbare hbare
    exact absurd (hlongest s (Finset.mem_filter.mpr ⟨List.mem_toFinset.mpr hs, hsbare⟩))
      (not_le.mpr hshorter)

end Quoted

/-! ## The round trip -/

/-- Another configuration says the same: it is the same but for secrets, every key is written with
the same value and note, and without secrets the renderings are the same text. -/
structure SaysSame (lib : Libraries) (c c' : AppConfig) : Prop where
  shown : c'.shown = c.shown
  settings : settings lib c' = settings lib c
  render : c.shown = c → render lib c' = render lib c

/-- The rendering, resolved as a file and without overrides, says the same. -/
def RoundTrips (t : Toml) (host : Host) (defaults : BinaryDefaults) (c : AppConfig) : Prop :=
  ∃ file c', t.fromStr (render t.toLibraries c) = some file ∧
    resolve t.toLibraries host defaults {} file = .ok c' ∧ SaysSame t.toLibraries c c'

section RoundTrip

variable {t : Toml} {host : Host} {defaults : BinaryDefaults} {c : AppConfig}

theorem shownItems_filter (items : List Item) :
    shownItems (items.filter fun i => i.key.isSome) = shownItems items := by
  induction items with
  | nil => rfl
  | cons i items ih =>
    rcases i with ⟨key, _ | s⟩ | ⟨keys, set⟩
    · exact ih
    · exact congrArg ((key.toList, s) :: ·) ih
    · exact ih

theorem settings_shown (lib : Libraries) (c : AppConfig) :
    settings lib c.shown = settings lib c := by
  have htables : ∀ c, (tables lib c).flatMap (fun x => qualify (x.1 ++ ['.']) (shownItems x.2)) =
      ((fixedTables lib c).map fun x => (x.1, x.2.filter fun i => i.key.isSome)).flatMap
        (fun x => qualify (x.1 ++ ['.']) (shownItems x.2)) ++
      (walletTables lib c).flatMap fun x => qualify (x.1 ++ ['.']) (shownItems x.2) := by
    intro c
    simp only [tables, List.flatMap_append, List.flatMap_map, shownItems_filter]
  rw [settings, settings, htables, htables]
  rfl

theorem saysSame_shown (lib : Libraries) (c : AppConfig) : SaysSame lib c c.shown :=
  ⟨rfl, settings_shown lib c, fun h => by rw [h]⟩

/-- A legible rendering is read as the document that its headers name. -/
theorem fromStr_render (ht : t.Lawful) (h : c.InRange) (hlegible : Legible t.toLibraries c) :
    t.fromStr (render t.toLibraries c) =
      ((pageOf t.toLibraries c).document t.headerPath).bind ConfigFile.ofDocument := by
  rw [Toml.fromStr, ← text_pageOf, ht.reads _ (plain_pageOf h hlegible)]

theorem bare_of_roundTrips (ht : t.Lawful) (h : c.InRange) (hlegible : Legible t.toLibraries c)
    (htrips : RoundTrips t host defaults c) : ∀ x ∈ c.wallets, BareKey x.1 := by
  obtain ⟨file, c', hfile, hresolve, hsame⟩ := htrips
  rw [fromStr_render ht h hlegible] at hfile
  obtain ⟨d, hdoc, hfile⟩ := Option.bind_eq_some_iff.mp hfile
  obtain ⟨hlength, hnames⟩ := names_of_reading ht hdoc hfile
  have hwallets : c'.wallets = c.wallets :=
    show c'.shown.wallets = c.shown.wallets from congrArg AppConfig.wallets hsame.shown
  rw [← hwallets] at hlength
  rw [← names_of_resolve hresolve hlength, hwallets] at hnames
  have hheaders : ∀ q ∈ c.wallets.map Prod.fst, ∃ s ∈ c.wallets.map Prod.fst,
      t.headerPath s = some [q] := by
    intro q hq
    obtain ⟨x, hx, hpath⟩ := hnames q hq
    exact ⟨x.1, List.mem_map_of_mem hx, hpath⟩
  exact fun x hx => bare_of_names ht hheaders x.1 (List.mem_map_of_mem hx)

/-- A configuration without control characters in its names and notes round-trips exactly if the
names of its wallets are bare keys and it survives being written. -/
theorem roundTrips_of_valid (ht : t.Lawful) (h : c.Valid host)
    (hlegible : Legible t.toLibraries c) :
    RoundTrips t host defaults c ↔ (∀ x ∈ c.wallets, BareKey x.1) ∧ c.Survives := by
  have hread : (∀ x ∈ c.wallets, BareKey x.1) → t.fromStr (render t.toLibraries c) =
      some (fileOf t.toLibraries c) := by
    intro hbare
    rw [fromStr_render ht h.inRange hlegible, document_pageOf ht hbare, Option.bind_some,
      ofDocument_documentOf h.inRange]
  constructor
  · intro htrips
    have hbare := bare_of_roundTrips ht h.inRange hlegible htrips
    obtain ⟨file, c', hfile, hresolve, hsame⟩ := htrips
    rw [hread hbare] at hfile
    cases hfile
    exact ⟨hbare, (resolve_fileOf_iff h ht.ip).mp ⟨c', hresolve, hsame.shown⟩⟩
  · rintro ⟨hbare, hsurvives⟩
    exact ⟨_, _, hread hbare, resolve_fileOf_of_survives h ht.ip hsurvives,
      saysSame_shown t.toLibraries c⟩

theorem printable_of_bare {k : List Char} (h : BareKey k) : Printable k := by
  refine List.all_eq_true.mpr fun c hc => ?_
  have hbare := List.all_eq_true.mp h.2 c hc
  simp only [isBareChar, Bool.or_eq_true, Bool.and_eq_true, decide_eq_true_eq,
    beq_iff_eq] at hbare
  simp only [isPrintable, Bool.or_eq_true, Bool.and_eq_true, decide_eq_true_eq, bne_iff_ne]
  exact Or.inr (by omega)

/-- What is written is read back as it was: the notes are on their lines, the wallets have bare
names, and the paths and the proxy survive. -/
structure AppConfig.WrittenWell (lib : Libraries) (c : AppConfig) : Prop where
  notes : ∀ x ∈ settings lib c, ∀ note ∈ x.2.note, Printable note
  names : ∀ x ∈ c.wallets, BareKey x.1
  survives : c.Survives

/-- A configuration that was resolved round-trips if it is written well. Where no name and no note
has a control character, it round-trips only then. -/
theorem roundTrips_exactly {cli : ConfigOverrides} {file : ConfigFile} (ht : t.Lawful)
    (hc : resolve t.toLibraries host defaults cli file = .ok c) :
    (c.WrittenWell t.toLibraries → RoundTrips t host defaults c) ∧
      (Legible t.toLibraries c → RoundTrips t host defaults c → c.WrittenWell t.toLibraries) := by
  have hvalid := resolve_valid hc
  constructor
  · rintro ⟨hnotes, hnames, hsurvives⟩
    have hlegible : Legible t.toLibraries c :=
      ⟨fun x hx => printable_of_bare (hnames x hx), hnotes⟩
    exact (roundTrips_of_valid ht hvalid hlegible).mpr ⟨hnames, hsurvives⟩
  · intro hlegible htrips
    obtain ⟨hnames, hsurvives⟩ := (roundTrips_of_valid ht hvalid hlegible).mp htrips
    exact ⟨hlegible.notes, hnames, hsurvives⟩

end RoundTrip

/-! ## Two configurations -/

/-- There are no files but the configuration. -/
def emptyHost : Host :=
  ⟨fun _ => .error "no such file", fun _ => .error "no such file", String.ofList⟩

/-- A data directory that is absolute, and a wallet with an endpoint of its own. -/
def absoluteFile : ConfigFile where
  network := some "main".toList
  datadir := some "/srv/zecd".toList
  wallets := [("cold".toList, { server := some "zecrocks".toList })]
  wallets_sorted := List.pairwise_singleton _ _
  backend := some { proxy := some "socks5h://[fd00::1]:1080".toList }

def absoluteConfig : AppConfig :=
  let c := defaultConfig .main
  { c with
    datadir := Path.ofText "/srv/zecd".toList
    wallets := [("cold".toList,
      { dir := Path.ofText "/srv/zecd/cold".toList
        keysFile := none
        chain := .main
        backend := ⟨some "zecrocks".toList, none, none, none, none, none, none, none⟩
        pools := c.pools }),
      ("default".toList,
      { dir := Path.ofText "/srv/zecd/default".toList
        keysFile := none
        chain := .main
        backend := ⟨none, none, none, none, none, none, none, none⟩
        pools := c.pools })]
    wallets_sorted := by decide
    backend := { c.backend with
      proxy := some ⟨"fd00::1".toList, 1080, by decide, by decide⟩ }
    rpc := { c.rpc with
      port := 18888
      cookiefile := some (Path.ofText "/srv/zecd/.cookie".toList) }
    keys := { c.keys with ageIdentity := some (Path.ofText "/srv/zecd/identity.txt".toList) }
    fleet := { c.fleet with
      manifestDir := Path.ofText "/srv/zecd/fleet/zec/wallets.d".toList
      dir := Path.ofText "/srv/zecd/fleet/zec/shards".toList } }

theorem absoluteFile_resolves : resolve LineToml.toml.toLibraries emptyHost zecdDefaults
    { rpcPort := some 18888 } absoluteFile = .ok absoluteConfig := rfl

theorem absoluteDatadir_roundTrips :
    RoundTrips LineToml.toml emptyHost zecdDefaults absoluteConfig :=
  (roundTrips_exactly LineToml.lawful absoluteFile_resolves).1 {
    notes := by decide
    names := by decide
    survives := {
      paths := by decide
      fleet := by decide
      proxy := by decide } }

/-- The defaults have a relative data directory, and the fleet's are joined to it a second time. -/
theorem relativeDatadir_drifts : resolve LineToml.toml.toLibraries emptyHost zecdDefaults {} {} =
    .ok (defaultConfig .test) ∧
      ¬ RoundTrips LineToml.toml emptyHost zecdDefaults (defaultConfig .test) := by
  have hresolve : resolve LineToml.toml.toLibraries emptyHost zecdDefaults {} {} =
      .ok (defaultConfig .test) := rfl
  refine ⟨hresolve, fun htrips => ?_⟩
  have hlegible : Legible LineToml.toml.toLibraries (defaultConfig .test) :=
    ⟨by decide, by decide⟩
  have hwell := (roundTrips_of_valid LineToml.lawful (resolve_valid hresolve) hlegible).mp htrips
  exact absurd hwell.2.fleet (by decide)

end Zecd.Config
