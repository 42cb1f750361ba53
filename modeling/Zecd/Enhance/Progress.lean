import Zecd.Enhance.Drain

/-! # Progress of the drain

A pass marks what it attempted, so that the next one goes on to other requests. An answer whose
bytes do not parse as a transaction ends the pass like a lost connection, and leaves its request
unmarked at the front. Passes make progress exactly if the first request is not of this kind.
-/

namespace Zecd.Enhance

/-! ## Answers -/

/-- What one fetch gives: a transport failure, no such transaction, or bytes with the height they
were mined at, which may parse as a transaction or not. -/
inductive Fetched where
  | failed
  | notFound
  | found (parses : Bool) (mined : Option ℕ+)
  deriving DecidableEq, Repr

def Fetched.parses : Fetched → Bool
  | .found parses _ => parses
  | _ => true

/-- What a fetch of the concurrent half comes to. Bytes that do not parse are an error of the
fetch. -/
def Fetched.outcome : Fetched → Option FetchedTransaction
  | .failed => none
  | .notFound => some none
  | .found parses mined => if parses then some (some mined) else none

/-- A transaction of an address: named by the zebra index, or streamed by lightwalletd. -/
inductive TxEvidence where
  | txid (txid : TxId)
  | raw (txid : TxId) (parses : Bool) (mined : Option ℕ+)
  deriving DecidableEq, Repr

/-- The upstream, the wallet layer and the shutdown signal, as one call meets them. -/
structure Surroundings where
  fetchTx : TxId → Fetched
  /-- `none` is a transport failure. -/
  addressEvidence : AddressRequest → ℕ → ℕ → Option (List TxEvidence)
  decryptAndStore : WalletDb → TxId → Option ℕ+ → Option WalletDb
  recordReceives : WalletDb → TxId → Option ℕ+ → WalletDb
  notifyNotFound : WalletDb → TxId → Option WalletDb
  setTransactionStatus : WalletDb → TxId → TransactionStatus → Option WalletDb
  notifyAddressChecked : WalletDb → AddressRequest → ℕ → Option WalletDb
  heightRead : TxId → Bool
  /-- Before the fetches (0) and before each address search. -/
  shutdownSeen : ℕ → Bool
  /-- Before each transaction of an address search. -/
  shutdownBefore : AddressRequest → ℕ → Bool

namespace Surroundings

variable (o : Surroundings)

def txAlreadyRecorded (db : WalletDb) (txid : TxId) : Bool :=
  o.heightRead txid && (db.txHeight txid).isSome

/-- The transaction of one piece of evidence, or `none` if there is none to store. An error says
whether the connection is kept. -/
def parseOrFetch (db : WalletDb) : TxEvidence → Except Bool (Option (TxId × Option ℕ+))
  | .txid txid =>
    if o.txAlreadyRecorded db txid then .ok none
    else
      match o.fetchTx txid with
      | .failed => .error false
      | .notFound => .ok none
      | .found parses mined => if parses then .ok (some (txid, mined)) else .error true
  | .raw txid parses mined =>
    if parses then .ok (if o.txAlreadyRecorded db txid then none else some (txid, mined))
    else .error true

/-- `store_tx_evidence`: the database after it, whether it succeeded, and whether the connection
is kept. -/
def storeTxEvidence (r : AddressRequest) : ℕ → WalletDb → List TxEvidence → WalletDb × Bool × Bool
  | _, db, [] => (db, true, true)
  | i, db, item :: rest =>
    if o.shutdownBefore r i then (db, false, true)
    else
      match o.parseOrFetch db item with
      | .error kept => (db, false, kept)
      | .ok none => storeTxEvidence r (i + 1) db rest
      | .ok (some (txid, mined)) =>
        match o.decryptAndStore db txid mined with
        | none => (db, false, true)
        | some db => storeTxEvidence r (i + 1) (o.recordReceives db txid mined) rest

def checkAddress (db : WalletDb) (r : AddressRequest) (start asOf : ℕ) : WalletDb × Bool × Bool :=
  match o.addressEvidence r start asOf with
  | none => (db, false, false)
  | some evidence =>
    let (db, stored, kept) := o.storeTxEvidence r 0 db evidence
    if stored then
      match o.notifyAddressChecked db r asOf with
      | none => (db, false, true)
      | some db => (db, true, true)
    else (db, false, kept)

def layer : Layer where
  fetchTx txid := (o.fetchTx txid).outcome
  decryptAndStore := o.decryptAndStore
  notifyNotFound := o.notifyNotFound
  setTransactionStatus := o.setTransactionStatus
  checkAddress := o.checkAddress
  shutdownSeen := o.shutdownSeen

/-- The upstream answers, whatever bytes it answers with. -/
structure Answers : Prop where
  fetches : ∀ txid, o.fetchTx txid ≠ .failed
  queries : ∀ r start asOf, (o.addressEvidence r start asOf).isSome = true

structure Accepts : Prop where
  store : ∀ db txid mined, (o.decryptAndStore db txid mined).isSome = true
  notFound : ∀ db txid, (o.notifyNotFound db txid).isSome = true
  status : ∀ db txid status, (o.setTransactionStatus db txid status).isSome = true
  checked : ∀ db r asOf, (o.notifyAddressChecked db r asOf).isSome = true

/-- No shutdown is seen. -/
structure Running : Prop where
  requests : ∀ i, o.shutdownSeen i = false
  evidence : ∀ r i, o.shutdownBefore r i = false

structure AllParse : Prop where
  fetches : ∀ txid, (o.fetchTx txid).parses = true
  streamed : ∀ r start asOf, ∀ evidence ∈ o.addressEvidence r start asOf,
    ∀ txid parses mined, .raw txid parses mined ∈ evidence → parses = true

/-- Each transaction of the evidence that has to be parsed parses, with those before it stored. -/
def EvidenceParses : WalletDb → List TxEvidence → Prop
  | _, [] => True
  | db, item :: rest =>
    match item with
    | .txid txid =>
      if o.txAlreadyRecorded db txid then EvidenceParses db rest
      else
        match o.fetchTx txid with
        | .found true mined =>
          EvidenceParses (((o.decryptAndStore db txid mined).map
            (o.recordReceives · txid mined)).getD db) rest
        | .found false _ => False
        | _ => EvidenceParses db rest
    | .raw _ false _ => False
    | .raw txid true mined =>
      if o.txAlreadyRecorded db txid then EvidenceParses db rest
      else EvidenceParses (((o.decryptAndStore db txid mined).map
        (o.recordReceives · txid mined)).getD db) rest

/-- What the upstream answers to the request parses. -/
def RequestParses (tip : ℕ) (db : WalletDb) : EnhanceRequest → Prop
  | .getStatus txid | .enhancement txid => (o.fetchTx txid).parses = true
  | .transactionsInvolvingAddress r =>
    ∀ start asOf, tiaCheckRange r.blockRangeStart tip = some (start, asOf) →
      ∀ evidence ∈ o.addressEvidence r start asOf, o.EvidenceParses db evidence

end Surroundings

/-! ## Calls -/

def isTxidRequest (r : EnhanceRequest) : Bool := (txidRequest r).isSome

/-- The order in which a pass services its requests: single transactions first. -/
def serviceOrder (pass : List EnhanceRequest) : List EnhanceRequest :=
  pass.filter isTxidRequest ++ pass.filter fun r => !isTxidRequest r

/-- A call of `enhance_step` that services its pass: there is a tip, a connection and a request
table, the upstream answers and the database accepts. -/
structure Serviced (o : Surroundings) (reads : Reads) (s : State) (tip : ℕ) : Prop where
  tip : s.tipHeight = some tip
  client : s.client = true
  requests : reads.requests = true
  running : o.Running
  answers : o.Answers
  accepts : o.Accepts

/-- The outstanding requests that are not attempted are strictly fewer after the call. -/
def Shrinks (pending : List EnhanceRequest) (s' : State) : Prop :=
  {r | r ∈ pending ∧ r ∉ s'.satisfied} ⊂ {r | r ∈ pending}

/-! ## Single transactions -/

variable {cfg : Config} {o : Surroundings} {s : State} {db : WalletDb} {tip : ℕ}
  {pass rs pending : List EnhanceRequest} {r : EnhanceRequest}

/-- The answer to a single-transaction request parses. -/
def Surroundings.fetchParses (o : Surroundings) (r : EnhanceRequest) : Bool :=
  (txidRequest r).all fun t => (o.fetchTx t.1).parses

theorem outcome_eq {f : Fetched} (h : f ≠ .failed) :
    (f.parses = true ∧ ∃ found, f.outcome = some found) ∨
      (f.parses = false ∧ f.outcome = none) := by
  cases f with
  | failed => exact absurd rfl h
  | notFound => exact Or.inl ⟨rfl, none, rfl⟩
  | found parses mined =>
    cases parses with
    | true => exact Or.inl ⟨rfl, some mined, rfl⟩
    | false => exact Or.inr ⟨rfl, rfl⟩

/-- What is applied are the requests before the first whose answer does not parse. -/
theorem fetchedPrefix_requests (h : o.Answers) (pass : List EnhanceRequest) :
    (fetchedPrefix o.layer pass).map (·.1) =
      (pass.filter isTxidRequest).takeWhile o.fetchParses := by
  induction pass with
  | nil => rfl
  | cons r rs ih =>
    rw [fetchedPrefix]
    cases ht : txidRequest r with
    | none => simpa [isTxidRequest, ht] using ih
    | some t =>
      have hr : isTxidRequest r = true := by rw [isTxidRequest, ht]; rfl
      rw [List.filter_cons_of_pos hr]
      rcases outcome_eq (h.fetches t.1) with ⟨hparses, found, hfound⟩ | ⟨hparses, hfound⟩
      · have hfetch : o.fetchParses r = true := by
          rw [Surroundings.fetchParses, ht, Option.all_some, hparses]
        rw [List.takeWhile_cons_of_pos hfetch, ← ih]
        simp only [Surroundings.layer, hfound, List.map_cons]
      · have hfetch : o.fetchParses r = false := by
          rw [Surroundings.fetchParses, ht, Option.all_some, hparses]
        rw [List.takeWhile_cons_of_neg (by simp [hfetch])]
        simp only [Surroundings.layer, hfound, List.map_nil]

theorem fetchFails_eq (h : o.Answers) (pass : List EnhanceRequest) :
    fetchFails o.layer pass = (pass.filter isTxidRequest).any fun r => !o.fetchParses r := by
  induction pass with
  | nil => rfl
  | cons r rs ih =>
    rw [fetchFails, List.any_cons]
    rw [fetchFails] at ih
    rw [ih]
    cases ht : txidRequest r with
    | none => simp [isTxidRequest, ht]
    | some t =>
      have hr : isTxidRequest r = true := by rw [isTxidRequest, ht]; rfl
      rw [List.filter_cons_of_pos hr, List.any_cons, Surroundings.fetchParses, ht]
      rcases outcome_eq (h.fetches t.1) with ⟨hparses, found, hfound⟩ | ⟨hparses, hfound⟩
      · simp [Surroundings.layer, hfound, hparses]
      · simp [Surroundings.layer, hfound, hparses]

theorem applyFetchedRequests_isSome (h : o.Accepts) (db : WalletDb)
    (fetched : List (EnhanceRequest × (TxId × Bool) × FetchedTransaction)) :
    ∃ db', applyFetchedRequests o.layer db fetched = some db' := by
  have hone : ∀ db txid enhance found,
      ∃ db', applyFetched o.layer db txid enhance found = some db' := by
    intro db txid enhance found
    apply Option.isSome_iff_exists.mp
    unfold applyFetched
    cases found with
    | none =>
      cases enhance with
      | true => exact h.notFound db txid
      | false => exact h.status db txid _
    | some mined =>
      cases enhance with
      | true => exact h.store db txid mined
      | false => exact h.status db txid _
  induction fetched generalizing db with
  | nil => exact ⟨db, rfl⟩
  | cons x rest ih =>
    obtain ⟨r, ⟨txid, enhance⟩, found⟩ := x
    obtain ⟨db', hdb⟩ := hone db txid enhance found
    obtain ⟨db'', hrest⟩ := ih db'
    exact ⟨db'', by rw [applyFetchedRequests, hdb, Option.bind_some, hrest]⟩

theorem serviceTxids_spec (ha : o.Answers) (hw : o.Accepts) (s : State)
    (pass : List EnhanceRequest) :
    ∃ s', serviceTxids o.layer s pass =
        ⟨s', ((pass.filter isTxidRequest).takeWhile o.fetchParses).length,
          (pass.filter isTxidRequest).any fun r => !o.fetchParses r⟩ ∧
      s'.satisfied = s.satisfied ++ (pass.filter isTxidRequest).takeWhile o.fetchParses ∧
      (pass.filter isTxidRequest = [] → s'.db = s.db) := by
  obtain ⟨db', hdb⟩ := applyFetchedRequests_isSome hw s.db (fetchedPrefix o.layer pass)
  have hlength : (fetchedPrefix o.layer pass).length =
      ((pass.filter isTxidRequest).takeWhile o.fetchParses).length := by
    rw [← fetchedPrefix_requests ha, List.length_map]
  simp only [serviceTxids, hdb, fetchFails_eq ha, fetchedPrefix_requests ha, hlength]
  refine ⟨_, rfl, rfl, fun hnone => ?_⟩
  have hnil : fetchedPrefix o.layer pass = [] := by
    rw [← List.map_eq_nil_iff, fetchedPrefix_requests ha, hnone]
    rfl
  rw [hnil] at hdb
  exact (Option.some_inj.mp hdb).symm

/-! ## Address searches -/

theorem storeTxEvidence_ok_iff (ha : o.Answers) (hw : o.Accepts) (hrun : o.Running)
    (a : AddressRequest) (i : ℕ) (db : WalletDb) (evidence : List TxEvidence) :
    (o.storeTxEvidence a i db evidence).2.1 = true ↔ o.EvidenceParses db evidence := by
  induction evidence generalizing i db with
  | nil => exact iff_of_true rfl trivial
  | cons item rest ih =>
    rw [Surroundings.storeTxEvidence, if_neg (by simp [hrun.evidence])]
    cases item with
    | txid txid =>
      rw [Surroundings.parseOrFetch, Surroundings.EvidenceParses]
      by_cases hknown : o.txAlreadyRecorded db txid = true
      · rw [if_pos hknown, if_pos hknown]
        exact ih (i + 1) db
      · rw [if_neg hknown, if_neg hknown]
        cases hfetch : o.fetchTx txid with
        | failed => exact absurd hfetch (ha.fetches txid)
        | notFound => exact ih (i + 1) db
        | found parses mined =>
          cases parses with
          | false => exact iff_of_false nofun id
          | true =>
            obtain ⟨db', hdb⟩ := Option.isSome_iff_exists.mp (hw.store db txid mined)
            simp only [if_true, hdb, Option.map_some, Option.getD_some]
            exact ih (i + 1) (o.recordReceives db' txid mined)
    | raw txid parses mined =>
      rw [Surroundings.parseOrFetch]
      cases parses with
      | false => exact iff_of_false nofun id
      | true =>
        rw [Surroundings.EvidenceParses, if_pos rfl]
        by_cases hknown : o.txAlreadyRecorded db txid = true
        · rw [if_pos hknown, if_pos hknown]
          exact ih (i + 1) db
        · rw [if_neg hknown, if_neg hknown]
          obtain ⟨db', hdb⟩ := Option.isSome_iff_exists.mp (hw.store db txid mined)
          simp only [hdb, Option.map_some, Option.getD_some]
          exact ih (i + 1) (o.recordReceives db' txid mined)

theorem checkAddress_ok_iff (ha : o.Answers) (hw : o.Accepts) (hrun : o.Running)
    (db : WalletDb) (a : AddressRequest) (start asOf : ℕ) :
    (o.checkAddress db a start asOf).2.1 = true ↔
      ∀ evidence ∈ o.addressEvidence a start asOf, o.EvidenceParses db evidence := by
  obtain ⟨evidence, hevidence⟩ := Option.isSome_iff_exists.mp (ha.queries a start asOf)
  have hstored := storeTxEvidence_ok_iff ha hw hrun a 0 db evidence
  simp only [Surroundings.checkAddress, hevidence, Option.mem_some_iff, forall_eq']
  rw [← hstored]
  obtain ⟨db', stored, kept⟩ := o.storeTxEvidence a 0 db evidence
  cases stored with
  | true =>
    obtain ⟨db'', hdb⟩ := Option.isSome_iff_exists.mp (hw.checked db' a asOf)
    simp [hdb]
  | false => simp

theorem serviceAddressRequest_spec (ha : o.Answers) (hw : o.Accepts) (hrun : o.Running)
    (tip : ℕ) (s : State) (a : AddressRequest) :
    ((serviceAddressRequest o.layer tip s a).2 = true ↔
        o.RequestParses tip s.db (.transactionsInvolvingAddress a)) ∧
      (serviceAddressRequest o.layer tip s a).1.satisfied = s.satisfied := by
  unfold serviceAddressRequest
  rw [Surroundings.RequestParses]
  cases hrange : tiaCheckRange a.blockRangeStart tip with
  | none => exact ⟨iff_of_true rfl nofun, rfl⟩
  | some range =>
    obtain ⟨start, asOf⟩ := range
    have hok := checkAddress_ok_iff ha hw hrun s.db a start asOf
    refine ⟨?_, rfl⟩
    constructor
    · intro h start' asOf' heq
      cases heq
      exact hok.mp h
    · exact fun h => hok.mpr (h start asOf rfl)

/-! ## Passes -/

section Passes

variable {l : Layer} {q : PassState} {i : ℕ}

theorem serviceAddresses_of_aborted (h : q.aborted = true) :
    serviceAddresses l tip i q rs = (q, false) := by
  induction rs generalizing i with
  | nil => rfl
  | cons r rs ih =>
    rw [serviceAddresses]
    cases addressRequest r with
    | none => exact ih
    | some a => exact if_pos h

theorem serviceAddresses_spec (ha : o.Answers) (hw : o.Accepts) (hrun : o.Running) :
    (serviceAddresses o.layer tip i q rs).2 = false ∧
      q.state.satisfied ⊆ (serviceAddresses o.layer tip i q rs).1.state.satisfied := by
  induction rs generalizing i q with
  | nil => exact ⟨rfl, List.Subset.refl _⟩
  | cons r rs ih =>
    rw [serviceAddresses]
    cases addressRequest r with
    | none => exact ih
    | some a =>
      obtain ⟨-, hkeep⟩ := serviceAddressRequest_spec ha hw hrun tip q.state a
      have hstop : ¬ o.layer.shutdownSeen i = true := by
        rw [show o.layer.shutdownSeen i = false from hrun.requests i]
        exact Bool.false_ne_true
      dsimp only
      by_cases haborted : q.aborted = true
      · rw [if_pos haborted]
        exact ⟨rfl, List.Subset.refl _⟩
      · rw [if_neg haborted, if_neg hstop]
        split
        · obtain ⟨hdone, hsub⟩ := @ih ⟨{ (serviceAddressRequest o.layer tip q.state a).1 with
            satisfied := (serviceAddressRequest o.layer tip q.state a).1.satisfied ++ [r] },
            q.handled + 1, false⟩ (i + 1)
          refine ⟨hdone, List.Subset.trans ?_ hsub⟩
          rw [hkeep]
          exact List.subset_append_left _ _
        · exact ⟨rfl, by rw [hkeep]; exact List.Subset.refl _⟩

theorem serviceAddresses_of_parses (i : ℕ) (q : PassState) (rs : List EnhanceRequest)
    (ha : o.Answers) (hw : o.Accepts) (hrun : o.Running)
    (hparse : ∀ db a, o.RequestParses tip db (.transactionsInvolvingAddress a))
    (hq : q.aborted = false) :
    (serviceAddresses o.layer tip i q rs).1.state.satisfied =
        q.state.satisfied ++ rs.filter (fun r => !isTxidRequest r) ∧
      (serviceAddresses o.layer tip i q rs).1.handled =
        q.handled + (rs.filter fun r => !isTxidRequest r).length ∧
      (serviceAddresses o.layer tip i q rs).1.aborted = false := by
  induction rs generalizing i q with
  | nil => simp [serviceAddresses, hq]
  | cons r rs ih =>
    rw [serviceAddresses]
    cases r with
    | getStatus txid => simpa [addressRequest, isTxidRequest, txidRequest] using ih i q hq
    | enhancement txid => simpa [addressRequest, isTxidRequest, txidRequest] using ih i q hq
    | transactionsInvolvingAddress a =>
      obtain ⟨hok, hkeep⟩ := serviceAddressRequest_spec ha hw hrun tip q.state a
      have hstop : ¬ o.layer.shutdownSeen i = true := by
        rw [show o.layer.shutdownSeen i = false from hrun.requests i]
        exact Bool.false_ne_true
      have hrest := ih (i + 1) ⟨{ (serviceAddressRequest o.layer tip q.state a).1 with
        satisfied := (serviceAddressRequest o.layer tip q.state a).1.satisfied ++
          [.transactionsInvolvingAddress a] }, q.handled + 1, false⟩ rfl
      simp only [addressRequest, hq, Bool.false_eq_true, if_false, hstop,
        if_pos (hok.mpr (hparse _ a))]
      refine ⟨hrest.1.trans ?_, hrest.2.1.trans ?_, hrest.2.2⟩
      · simp [isTxidRequest, txidRequest, hkeep]
      · simp [isTxidRequest, txidRequest]
        omega

/-- The first address search is marked if its answers parse; else nothing is. -/
theorem serviceAddresses_head (ha : o.Answers) (hw : o.Accepts) (hrun : o.Running)
    {a : AddressRequest} (hq : q.aborted = false) :
    (o.RequestParses tip q.state.db (.transactionsInvolvingAddress a) →
        .transactionsInvolvingAddress a ∈
          (serviceAddresses o.layer tip i q
            (.transactionsInvolvingAddress a :: rs)).1.state.satisfied) ∧
      (¬ o.RequestParses tip q.state.db (.transactionsInvolvingAddress a) →
        (serviceAddresses o.layer tip i q
          (.transactionsInvolvingAddress a :: rs)).1.state.satisfied = q.state.satisfied) := by
  obtain ⟨hok, hkeep⟩ := serviceAddressRequest_spec ha hw hrun tip q.state a
  have hstop : ¬ o.layer.shutdownSeen i = true := by
    rw [show o.layer.shutdownSeen i = false from hrun.requests i]
    exact Bool.false_ne_true
  rw [serviceAddresses]
  simp only [addressRequest, hq, Bool.false_eq_true, if_false, hstop]
  constructor
  · intro hparse
    rw [if_pos (hok.mpr hparse)]
    exact (serviceAddresses_spec ha hw hrun).2 (List.mem_append_right _ (List.mem_singleton_self _))
  · intro hnot
    rw [if_neg fun h => hnot (hok.mp h)]
    exact hkeep

end Passes

/-! ## Progress -/

theorem nodup_eraseDups {α : Type*} [BEq α] [LawfulBEq α] (l : List α) : l.eraseDups.Nodup := by
  induction hn : l.length using Nat.strong_induction_on generalizing l with
  | _ n ih =>
    cases l with
    | nil => exact List.nodup_nil
    | cons a l =>
      rw [List.eraseDups_cons, List.nodup_cons]
      refine ⟨fun ha => ?_, ih _ ?_ _ rfl⟩
      · simpa using (List.mem_filter.mp (List.mem_eraseDups.mp ha)).2
      · subst hn
        exact (List.length_filter_le _ _).trans_lt (Nat.lt_succ_self _)

theorem mem_freshRequests {reads : Reads} (hr : r ∈ freshRequests cfg reads s) :
    r ∉ s.satisfied := by
  have hmem := List.mem_eraseDups.mp hr
  simp only [List.mem_filter, Bool.and_eq_true, decide_eq_true_eq] at hmem
  exact hmem.2.2

theorem nodup_freshRequests {reads : Reads} : (freshRequests cfg reads s).Nodup :=
  nodup_eraseDups _

theorem republish_satisfied {publish : Reads} {q : PassState} :
    (republish cfg publish pending q).satisfied = q.state.satisfied := by
  unfold republish
  split
  · rfl
  · rfl

theorem enhanceStep_of_serviced {reads publish : Reads} (h : Serviced o reads s tip) :
    let pending := freshRequests cfg reads s
    let q := (servicePass o.layer tip s (passRequests cfg pending)).1
    enhanceStep cfg o.layer reads publish s =
      (republish cfg publish pending q, !q.aborted && decide (q.handled < pending.length)) := by
  have hgo : (!s.client || !reads.requests || o.layer.shutdownSeen 0) = false := by
    rw [h.client, h.requests, show o.layer.shutdownSeen 0 = false from h.running.requests 0]
    rfl
  have hdone : (serviceAddresses o.layer tip 1
      (serviceTxids o.layer s (passRequests cfg (freshRequests cfg reads s)))
      (passRequests cfg (freshRequests cfg reads s))).2 = false :=
    (serviceAddresses_spec h.answers h.accepts h.running).1
  unfold enhanceStep
  rw [h.tip]
  dsimp only
  rw [hgo, if_neg Bool.false_ne_true]
  unfold servicePass
  generalize hpass : serviceAddresses o.layer tip 1 _ _ = result at hdone ⊢
  obtain ⟨q, interrupted⟩ := result
  cases hdone
  rfl

theorem shrinks_iff {s' : State} :
    Shrinks pending s' ↔ ∃ r ∈ pending, r ∈ s'.satisfied := by
  rw [Shrinks, Set.ssubset_iff_of_subset fun r hr => hr.1]
  constructor
  · rintro ⟨r, hr, hnot⟩
    refine ⟨r, hr, ?_⟩
    by_contra hmark
    exact hnot ⟨hr, hmark⟩
  · rintro ⟨r, hr, hmark⟩
    exact ⟨r, hr, fun h => h.2 hmark⟩

theorem requestParses_of_isTxidRequest (h : isTxidRequest r = true) :
    o.RequestParses tip db r ↔ o.fetchParses r = true := by
  cases r with
  | getStatus txid => rfl
  | enhancement txid => rfl
  | transactionsInvolvingAddress a => cases h

variable (tip) in
theorem servicePass_marks (ha : o.Answers) (hw : o.Accepts) (hrun : o.Running)
    (hpass : pass ≠ []) (hfresh : ∀ r ∈ pass, r ∉ s.satisfied) :
    ((∀ r ∈ (serviceOrder pass).head?, o.RequestParses tip s.db r) →
        ∃ r ∈ pass, r ∈ (servicePass o.layer tip s pass).1.state.satisfied) ∧
      ((¬ ∀ r ∈ (serviceOrder pass).head?, o.RequestParses tip s.db r) →
        (servicePass o.layer tip s pass).1.state.satisfied = s.satisfied) := by
  obtain ⟨s', hservice, hmarks, hdb⟩ := serviceTxids_spec ha hw s pass
  unfold servicePass serviceOrder
  rw [hservice]
  cases htxids : pass.filter isTxidRequest with
  | cons r₀ rest =>
    have hr₀ := List.mem_filter.mp (htxids ▸ List.mem_cons_self : r₀ ∈ pass.filter isTxidRequest)
    rw [htxids] at hmarks
    simp only [List.cons_append, List.head?_cons, Option.mem_some_iff, forall_eq',
      requestParses_of_isTxidRequest hr₀.2]
    constructor
    · intro hparse
      rw [List.takeWhile_cons_of_pos hparse] at hmarks
      refine ⟨r₀, hr₀.1, (serviceAddresses_spec ha hw hrun).2 ?_⟩
      show r₀ ∈ s'.satisfied
      rw [hmarks]
      exact List.mem_append_right _ List.mem_cons_self
    · intro hnot
      rw [List.takeWhile_cons_of_neg hnot, List.append_nil] at hmarks
      rw [serviceAddresses_of_aborted (by simp [hnot])]
      exact hmarks
  | nil =>
    rw [htxids, List.takeWhile_nil, List.append_nil] at hmarks
    obtain ⟨r₀, rest, rfl⟩ := List.exists_cons_of_ne_nil hpass
    have hr₀ : isTxidRequest r₀ = false := by
      rw [← Bool.not_eq_true]
      exact fun h => List.filter_eq_nil_iff.mp htxids r₀ List.mem_cons_self h
    have hhead : ((r₀ :: rest).filter fun r => !isTxidRequest r).head? = some r₀ := by
      rw [List.filter_cons_of_pos (by simp [hr₀])]
      rfl
    rw [List.nil_append, hhead]
    cases r₀ with
    | getStatus txid => cases hr₀
    | enhancement txid => cases hr₀
    | transactionsInvolvingAddress a =>
      obtain ⟨hyes, hno⟩ := @serviceAddresses_head o tip rest ⟨s', 0, false⟩ 1 ha hw hrun a rfl
      rw [show s'.db = s.db from hdb htxids] at hyes hno
      simp only [Option.mem_some_iff, forall_eq', List.takeWhile_nil, List.length_nil,
        List.any_nil]
      exact ⟨fun hparse => ⟨_, List.mem_cons_self, hyes hparse⟩,
        fun hnot => (hno hnot).trans hmarks⟩

variable (cfg) in
theorem passRequests_ne_nil (h : pending ≠ []) : passRequests cfg pending ≠ [] := by
  obtain ⟨r, rest, rfl⟩ := List.exists_cons_of_ne_nil h
  unfold passRequests
  rw [← Nat.succ_pred_eq_of_pos (show 0 < max cfg.enhanceConcurrency 1 by omega),
    List.take_succ_cons]
  exact List.cons_ne_nil _ _

/-- A call makes progress exactly if the first answers parse. -/
theorem enhanceStep_shrinks_iff {reads publish : Reads} (h : Serviced o reads s tip)
    (hne : freshRequests cfg reads s ≠ []) :
    Shrinks (freshRequests cfg reads s) (enhanceStep cfg o.layer reads publish s).1 ↔
      ∀ r ∈ (serviceOrder (passRequests cfg (freshRequests cfg reads s))).head?,
        o.RequestParses tip s.db r := by
  have hsub : passRequests cfg (freshRequests cfg reads s) ⊆ freshRequests cfg reads s :=
    List.take_subset _ _
  obtain ⟨hyes, hno⟩ := servicePass_marks tip h.answers h.accepts h.running
    (passRequests_ne_nil cfg hne) fun r hr => mem_freshRequests (hsub hr)
  rw [enhanceStep_of_serviced h, shrinks_iff]
  simp only [republish_satisfied]
  constructor
  · rintro ⟨r, hr, hmark⟩
    by_contra hnot
    rw [hno hnot] at hmark
    exact mem_freshRequests hr hmark
  · intro hparse
    obtain ⟨r, hr, hmark⟩ := hyes hparse
    exact ⟨r, hsub hr, hmark⟩

end Zecd.Enhance
