import Zecd.Config.Rewritten

/-! # Documents that are read back

A document of comments, tables and keys with their values is read by the TOML library. What a
header names is the library's to tell: a bare key is its own name, and a key that is quoted is
shorter than it is written.
-/

namespace Zecd.Config

open KeyedText

/-! ## Documents that are written -/

/-- A document, as it is written: comments, keys, and tables under their headers. -/
structure Page where
  preamble : List (List Char)
  top : List Item
  tables : List (List Char × List Item)

def Page.lines (lib : Libraries) (p : Page) : List Line :=
  p.preamble.map .comment ++ .blank :: p.top.flatMap (Item.lines lib) ++
    p.tables.flatMap fun x => tableLines lib x.1 x.2

def Page.text (lib : Libraries) (p : Page) : List Char := document (p.lines lib)

/-- A character that a comment may have: the tab is the only control character. -/
def isPrintable (c : Char) : Bool := c == '\t' || (decide (32 ≤ c.toNat) && c.toNat != 127)

def Printable (s : List Char) : Prop := s.all isPrintable = true

instance (s : List Char) : Decidable (Printable s) := inferInstanceAs (Decidable (_ = _))

/-- The integers of a document are signed. -/
def Value.Fits : Value → Prop
  | .number n => n < 2 ^ 63
  | _ => True

/-- The value fits, and the comments are on their line. -/
def Item.Plain : Item → Prop
  | .kv _ (some s) => s.value.Fits ∧ ∀ note ∈ s.note, Printable note
  | .kv _ none => True
  | .redacted keys _ => Printable keys.toList

/-- Each comment, header and key is on a line of its own. -/
structure Page.Plain (p : Page) : Prop where
  preamble : ∀ text ∈ p.preamble, Printable text
  top : WellKeyed p.top ∧ ∀ i ∈ p.top, i.Plain
  headers : ∀ x ∈ p.tables, Printable x.1 ∧ x.1.head? ≠ some '['
  tables : ∀ x ∈ p.tables, WellKeyed x.2 ∧ ∀ i ∈ x.2, i.Plain

/-! ## Documents that are read -/

/-- No table is there twice, and none in place of a key. -/
def WellFormed (top : Table) (tables : List (List (List Char) × Table)) : Prop :=
  (tables.map Prod.fst).Nodup ∧ ∀ x ∈ ([], top) :: tables, ∀ k ∈ x.2.map Prod.fst,
    ∀ y ∈ tables, (x.1 ++ [k]).isPrefixOf y.1 = false

instance (top : Table) (tables : List (List (List Char) × Table)) :
    Decidable (WellFormed top tables) := inferInstanceAs (Decidable (_ ∧ _))

def Page.document (headerPath : List Char → Option (List (List Char))) (p : Page) :
    Option Document := do
  let tables ← p.tables.mapM fun x => (headerPath x.1).map (·, entries x.2)
  if WellFormed (entries p.top) tables then some ⟨entries p.top, tables⟩ else none

structure Toml extends Libraries where
  parse : List Char → Option Document
  /-- What is named between the brackets of a header. -/
  headerPath : List Char → Option (List (List Char))

/-- What is documented of TOML, and of the addresses. A key is bare or quoted, and keys are told
apart by dots. -/
structure Toml.Lawful (t : Toml) : Prop where
  ip : ∀ ip, t.parseIp (t.displayIp ip) = some ip
  bare : ∀ k, BareKey k → t.headerPath k = some [k]
  dotted : ∀ k s, BareKey k → t.headerPath (k ++ '.' :: s) = (t.headerPath s).map (k :: ·)
  single : ∀ s k, t.headerPath s = some [k] → BareKey k ∨ k.length < s.length
  reads : ∀ p : Page, p.Plain → t.parse (p.text t.toLibraries) = p.document t.headerPath

def Toml.fromStr (t : Toml) (text : List Char) : Option ConfigFile :=
  (t.parse text).bind ConfigFile.ofDocument

/-! ## A rendering is a document -/

theorem mapM_eq_some_map {α β : Type} {f : α → Option β} {g : α → β} {l : List α}
    (h : ∀ x ∈ l, f x = some (g x)) : l.mapM f = some (l.map g) := by
  induction l with
  | nil => rfl
  | cons x l ih =>
    obtain ⟨hx, hl⟩ := List.forall_mem_cons.mp h
    rw [List.mapM_cons, hx, ih hl]
    rfl

def headerComments : List (List Char) := headerLines.filterMap fun l => match l with
  | .comment text => some text
  | _ => none

def pageOf (lib : Libraries) (c : AppConfig) : Page :=
  ⟨headerComments, topLevelItems c, tables lib c⟩

theorem text_pageOf (lib : Libraries) (c : AppConfig) :
    (pageOf lib c).text lib = render lib c := rfl

/-- The wallets' names and the notes have no control characters. -/
structure Legible (lib : Libraries) (c : AppConfig) : Prop where
  names : ∀ x ∈ c.wallets, Printable x.1
  notes : ∀ x ∈ settings lib c, ∀ note ∈ x.2.note, Printable note

section Plain

variable {lib : Libraries} {c : AppConfig} {items : List Item}

def Item.Fits : Item → Prop
  | .kv _ (some s) => s.value.Fits
  | _ => True

theorem fits_kvOpt {α : Type} {key : String} {f : α → Value} (h : ∀ a, (f a).Fits)
    (o : Option α) : (kvOpt key (o.map f)).Fits := by
  cases o with
  | none => trivial
  | some a => exact h a

theorem fits_path (key : String) (o : Option Path) : (kvOpt key (o.map .text)).Fits :=
  fits_kvOpt (f := .text) (fun _ => trivial) o

theorem fits_poolsKeys {p : PoolsConfig} (h : p.InRange) (enabledKey : String) :
    ∀ i ∈ poolsKeys enabledKey p, i.Fits := by
  have hgap := h.transparentGapLimit
  have hinitial := h.transparentInitialScan
  have hwarn := h.transparentGapWarnThreshold
  simp only [poolsKeys, kv, List.forall_mem_cons, Item.Fits, Value.Fits]
  refine ⟨trivial, trivial, trivial, trivial, ?_, ?_, trivial, ?_, List.forall_mem_nil _⟩ <;> omega

theorem fits_backendItems (h : c.backend.InRange) : ∀ i ∈ backendItems lib c, i.Fits := by
  have hconnect := h.connectTimeoutSecs
  have hbase := h.reconnectBaseSecs
  have hmax := h.reconnectMaxSecs
  have hproxy : (kvOpt "proxy" (c.backend.proxy.map fun p => .chars p.display)).Fits :=
    fits_kvOpt (f := fun p : Upstream.SocksProxy => .chars p.display) (fun _ => trivial) _
  have hpins : (kvOpt "tls_pinned_sha256" (if c.backend.tlsPins = [] then none
      else some (.list (c.backend.tlsPins.map (·.display))))).Fits := by
    split <;> trivial
  simp only [backendItems, kv, kvNote, List.forall_mem_cons, Item.Fits, Value.Fits, Value.chars,
    Value.str]
  exact ⟨trivial, hproxy, by omega, by omega, by omega, trivial, trivial, trivial, trivial,
    trivial, fits_path _ _, hpins, trivial, List.forall_mem_nil _⟩

theorem fits_fixedTables (h : c.InRange) : ∀ x ∈ fixedTables lib c, ∀ i ∈ x.2, i.Fits := by
  obtain ⟨hbackend, ⟨hport, hqueue⟩, ⟨hinterval, hrebroadcast, hbatch, hcache, hconcurrency⟩,
    hspend, hpools, ⟨hhealthPort, hlag⟩, ⟨hshard, hcohort⟩, -⟩ := h
  obtain ⟨htrusted, huntrusted, hactions, hbytes, hnotes, hsplit, hdrain, hcatchup⟩ := hspend
  simp only [fixedTables, List.forall_mem_cons]
  refine ⟨fits_backendItems hbackend, ?_, ?_, ?_, ?_, ?_, fits_poolsKeys hpools "enabled", ?_, ?_,
    ?_, List.forall_mem_nil _⟩
  · simp only [zebraItems, List.forall_mem_cons]
    exact ⟨fits_path _ _, trivial, List.forall_mem_nil _⟩
  · simp only [rpcItems, kv, List.forall_mem_cons, Item.Fits, Value.Fits, Value.chars]
    exact ⟨trivial, by omega, trivial, trivial, fits_path _ _, by omega, trivial,
      trivial, List.forall_mem_nil _⟩
  · simp only [keysItems, kv, List.forall_mem_cons, Item.Fits, Value.Fits]
    exact ⟨fits_path _ _, trivial, trivial, trivial, List.forall_mem_nil _⟩
  · simp only [syncItems, kv, List.forall_mem_cons, Item.Fits, Value.Fits]
    exact ⟨by omega, by omega, trivial, by omega, by omega, by omega, List.forall_mem_nil _⟩
  · simp only [spendItems, kv, List.forall_mem_cons, Item.Fits, Value.Fits, Value.str]
    exact ⟨by omega, by omega, trivial, trivial, by omega, by omega, trivial, trivial, by omega,
      by omega, by omega, by omega, List.forall_mem_nil _⟩
  · simp only [healthItems, kv, List.forall_mem_cons, Item.Fits, Value.Fits, Value.chars,
      Value.str]
    exact ⟨trivial, trivial, by omega, trivial, by omega, List.forall_mem_nil _⟩
  · simp only [fleetItems, kv, List.forall_mem_cons, Item.Fits, Value.Fits]
    exact ⟨trivial, trivial, trivial, by omega, by omega, List.forall_mem_nil _⟩
  · simp only [logItems, kv, List.forall_mem_cons, Item.Fits, Value.Fits, Value.chars]
    exact ⟨trivial, trivial, List.forall_mem_nil _⟩

theorem fits_walletItems {w : WalletEntry} (h : w.pools.InRange) :
    ∀ i ∈ walletItems lib c w, i.Fits := by
  have hserver : (Item.kv "server" (w.backend.server.map fun server =>
      ⟨.chars server, some (endpointNote lib (resolveForWallet c w))⟩)).Fits := by
    cases w.backend.server <;> trivial
  have htls : (kvOpt "tls" (w.backend.tls.map fun tls => .str (tlsMode tls))).Fits :=
    fits_kvOpt (f := fun tls => .str (tlsMode tls)) (fun _ => trivial) _
  have hroots : (kvOpt "tls_roots" (w.backend.tlsRoots.map fun roots => .str roots.show)).Fits :=
    fits_kvOpt (f := fun roots : TlsRoots => .str roots.show) (fun _ => trivial) _
  have hflag : ∀ key (o : Option Bool), (kvOpt key (o.map .flag)).Fits := fun _ o =>
    fits_kvOpt (f := .flag) (fun _ => trivial) o
  have hpins : (kvOpt "tls_pinned_sha256"
      (w.backend.tlsPins.map fun pins => .list (pins.map (·.display)))).Fits :=
    fits_kvOpt (f := fun pins : List CertFingerprint => .list (pins.map (·.display)))
      (fun _ => trivial) _
  simp only [walletItems, List.forall_mem_append, List.forall_mem_cons]
  exact ⟨⟨trivial, fits_path _ _, hserver, htls, hroots, hflag _ _, fits_path _ _, hpins,
    hflag _ _, List.forall_mem_nil _⟩, fits_poolsKeys h "pools"⟩

theorem fits_tables (h : c.InRange) {x : List Char × List Item} (hx : x ∈ tables lib c) :
    ∀ i ∈ x.2, i.Fits := by
  rcases List.mem_append.mp hx with hx | hx
  · exact fits_fixedTables h x hx
  · obtain ⟨w, hw, rfl⟩ := List.mem_map.mp hx
    exact fits_walletItems (h.wallets w hw)

theorem hidden_printable {x : List Char × List Item} (hx : x ∈ tables lib c) :
    ∀ k ∈ x.2.filterMap Item.hidden, Printable k := by
  have hall : ∀ k ∈ hiddenKeys.map String.toList, Printable k := by decide
  rcases List.mem_append.mp hx with hx | hx
  · have hfixed : (fixedTables lib c).flatMap (fun x => x.2.filterMap Item.hidden) =
        hiddenKeys.map String.toList := rfl
    exact fun k hk => hall k (hfixed ▸ List.mem_flatMap.mpr ⟨x, hx, hk⟩)
  · obtain ⟨w, -, rfl⟩ := List.mem_map.mp hx
    have hnone : (walletItems lib c w.2).filterMap Item.hidden = [] := rfl
    exact fun k hk => by rw [hnone] at hk; cases hk

theorem item_plain (hfits : ∀ i ∈ items, i.Fits)
    (hnotes : ∀ x ∈ shownItems items, ∀ note ∈ x.2.note, Printable note)
    (hhidden : ∀ k ∈ items.filterMap Item.hidden, Printable k) : ∀ i ∈ items, i.Plain := by
  intro i hi
  rcases i with ⟨key, _ | s⟩ | ⟨keys, set⟩
  · trivial
  · exact ⟨hfits _ hi, hnotes (key.toList, s) (mem_shownItems.mpr ⟨key, hi, rfl⟩)⟩
  · exact hhidden _ (List.mem_filterMap.mpr ⟨_, hi, rfl⟩)

theorem walletTable_printable {name : List Char} (h : Printable name) :
    Printable (walletTable name) := by
  have hprefix : ("wallets.".toList).all isPrintable = true := by decide
  have hname : name.all isPrintable = true := h
  unfold Printable walletTable
  rw [List.all_append, hprefix, hname, Bool.true_and]

theorem header_printable (hlegible : Legible lib c) {x : List Char × List Item}
    (hx : x ∈ tables lib c) : Printable x.1 ∧ x.1.head? ≠ some '[' := by
  rcases List.mem_append.mp hx with hx | hx
  · have hall : ∀ t ∈ fixedKeys.map fun x => x.1.toList, Printable t ∧ t.head? ≠ some '[' := by
      decide
    exact forall_fixedTables hall x hx
  · obtain ⟨w, hw, rfl⟩ := List.mem_map.mp hx
    have hhead : (walletTable w.1).head? = some 'w' := rfl
    exact ⟨walletTable_printable (hlegible.names w hw), by rw [hhead]; decide⟩

theorem headerComments_printable : ∀ text ∈ headerComments, Printable text := by
  simp only [headerComments, headerLines, List.filterMap_cons, List.filterMap_nil,
    List.forall_mem_cons, String.toList_append, -String.reduceToList]
  and_intros
  all_goals first
    | exact List.forall_mem_nil _
    | rw [String.toList_ofList, String.toList_ofList]; decide
    | rw [String.toList_ofList]; decide
    | decide

theorem plain_pageOf (h : c.InRange) (hlegible : Legible lib c) : (pageOf lib c).Plain where
  preamble := headerComments_printable
  top := by
    have hhidden : ∀ k ∈ (topLevelItems c).filterMap Item.hidden, Printable k :=
      List.forall_mem_nil _
    refine ⟨topLevelItems_wellKeyed c, item_plain ?_ ?_ hhidden⟩
    · simp only [pageOf, topLevelItems, List.forall_mem_cons]
      exact ⟨trivial, trivial, trivial, List.forall_mem_nil _⟩
    · exact fun x hx => hlegible.notes x (List.mem_append_left _ hx)
  headers x hx := header_printable hlegible hx
  tables x hx := by
    refine ⟨tables_wellKeyed hx, item_plain (fits_tables h hx) (fun y hy => ?_)
      (hidden_printable hx)⟩
    exact hlegible.notes (x.1 ++ ['.'] ++ y.1, y.2) (List.mem_append_right _
      (List.mem_flatMap.mpr ⟨x, hx, List.mem_map.mpr ⟨y, hy, rfl⟩⟩))

end Plain

end Zecd.Config
