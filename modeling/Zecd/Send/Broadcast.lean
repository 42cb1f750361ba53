import Zecd.Send.Actor

/-! # What a rejected broadcast is taken for

An upstream may reject a transaction because it has it already, and that is a delivery. Which
rejections are of this kind is told from words in a free text. A rejection is answered for what
it reports exactly if the words of its text are those of such a report.
-/

namespace Zecd

/-- What a rejection reports: the upstream has the transaction in its mempool, or in its chain, or
refuses it for another reason. -/
inductive Reported | inMempool | inChain | refused
  deriving DecidableEq, Repr

def alreadyInUtxoSet : RpcError := ⟨-27, "Transaction outputs already in utxo set"⟩

/-- `classify_broadcast_outcome`: what `sendrawtransaction` answers for a verdict. -/
def classifyBroadcastOutcome (o : BroadcastOutcome) : Except RpcError Unit :=
  if o.isAccepted then .ok ()
  else
    match upstreamAlreadyHasTx o.errorMessage with
    | .inMempool => .ok ()
    | .inChain => .error alreadyInUtxoSet
    | .no => .error (rpcVerifyRejected o)

/-- A committed send and `sendrawtransaction` answer what the rejection reports. -/
def AnsweredAs (o : BroadcastOutcome) : Reported → Prop
  | .inMempool => verdictResult (some o) = .ok () ∧ classifyBroadcastOutcome o = .ok ()
  | .inChain => verdictResult (some o) = .ok () ∧
      classifyBroadcastOutcome o = .error alreadyInUtxoSet
  | .refused => verdictResult (some o) = .error (rpcVerifyRejected o) ∧
      classifyBroadcastOutcome o = .error (rpcVerifyRejected o)

/-- The text has this word, in any letter case. -/
def Mentions (msg word : String) : Prop := word.toList <:+: asciiLowercase msg

instance (msg word : String) : Decidable (Mentions msg word) :=
  inferInstanceAs (Decidable (_ <:+: _))

def WordsAgree (msg : String) : Reported → Prop
  | .inMempool => Mentions msg "already" ∧ (Mentions msg "mempool" ∨ Mentions msg "known")
  | .inChain => Mentions msg "already" ∧ ¬ Mentions msg "mempool" ∧ ¬ Mentions msg "known" ∧
      (Mentions msg "chain" ∨ Mentions msg "in state")
  | .refused => ¬ (Mentions msg "already" ∧ (Mentions msg "mempool" ∨ Mentions msg "known" ∨
      Mentions msg "chain" ∨ Mentions msg "in state"))

/-! ## The texts that are known -/

/-- How zebra and zcashd say that they have the transaction in their mempool. -/
def inMempoolTexts : List String :=
  ["transaction already exists in mempool", "txn-already-in-mempool", "txn-already-known"]

/-- How they say that it is mined. -/
def inChainText : String := "transaction already in block chain"

/-- How zebra says that the mempool has a transaction that spends the same. -/
def conflictText : String :=
  "transaction rejected because another transaction in the mempool has already spent some of " ++
    "its inputs"

/-- The message is this text in some letter case, with something before and after it. -/
def Says (o : BroadcastOutcome) (text : String) : Prop :=
  ∃ before said after, o.errorMessage = before ++ said ++ after ∧ asciiLowercase said = text.toList

structure Answers (o : BroadcastOutcome) : Prop where
  accepted : o.isAccepted = true →
    verdictResult (some o) = .ok () ∧ classifyBroadcastOutcome o = .ok ()
  exact : ∀ r, o.isAccepted = false → (AnsweredAs o r ↔ WordsAgree o.errorMessage r)
  inMempool : o.isAccepted = false →
    ∀ text ∈ inMempoolTexts, Says o text → AnsweredAs o .inMempool
  inChain : o.isAccepted = false → Says o inChainText →
    (AnsweredAs o .inChain ↔
      ¬ Mentions o.errorMessage "mempool" ∧ ¬ Mentions o.errorMessage "known")
  conflict : o.isAccepted = false → Says o conflictText → ¬ AnsweredAs o .refused

/-! ## Words -/

variable {o : BroadcastOutcome} {msg text word : String} {r : Reported}

theorem asciiLowercase_append (a b : String) :
    asciiLowercase (a ++ b) = asciiLowercase a ++ asciiLowercase b := by
  rw [asciiLowercase, String.toList_append, List.map_append]
  rfl

theorem Says.mentions (h : Says o text) (hword : word.toList <:+: text.toList) :
    Mentions o.errorMessage word := by
  obtain ⟨before, said, after, hmsg, hsaid⟩ := h
  apply hword.trans
  rw [hmsg, asciiLowercase_append, asciiLowercase_append, hsaid]
  exact List.infix_append _ _ _

theorem infix_ofList {w t : List Char} (hword : word = String.ofList w)
    (htext : text = String.ofList t) (h : w <:+: t) : word.toList <:+: text.toList := by
  rwa [hword, htext, String.toList_ofList, String.toList_ofList]

theorem infix_append {a b : String} (h : word.toList <:+: a.toList) :
    word.toList <:+: (a ++ b).toList := by
  rw [String.toList_append]
  exact h.trans (List.prefix_append _ _).isInfix

theorem asciiLowercase_ofList {t : List Char} (htext : text = String.ofList t)
    (h : t.map (fun c => if 'A' ≤ c ∧ c ≤ 'Z' then Char.ofNat (c.toNat + 32) else c) = t) :
    asciiLowercase text = text.toList := by
  rwa [asciiLowercase, htext, String.toList_ofList]

theorem asciiLowercase_append_eq {a b : String} (ha : asciiLowercase a = a.toList)
    (hb : asciiLowercase b = b.toList) : asciiLowercase (a ++ b) = (a ++ b).toList := by
  rw [asciiLowercase_append, ha, hb, String.toList_append]

theorem upstreamAlreadyHasTx_eq (msg : String) : upstreamAlreadyHasTx msg =
    if Mentions msg "already" then
      if Mentions msg "mempool" ∨ Mentions msg "known" then .inMempool
      else if Mentions msg "chain" ∨ Mentions msg "in state" then .inChain
      else .no
    else .no := by
  unfold upstreamAlreadyHasTx
  simp only [Bool.not_eq_true', decide_eq_false_iff_not, Bool.or_eq_true, decide_eq_true_eq]
  exact ite_not _ _ _

def Reported.reading : Reported → AlreadyKnown
  | .inMempool => .inMempool
  | .inChain => .inChain
  | .refused => .no

theorem upstreamAlreadyHasTx_iff : upstreamAlreadyHasTx msg = r.reading ↔ WordsAgree msg r := by
  rw [upstreamAlreadyHasTx_eq]
  by_cases halready : Mentions msg "already"
  · by_cases hpool : Mentions msg "mempool" ∨ Mentions msg "known"
    · rw [if_pos halready, if_pos hpool]
      cases r with
      | inMempool => exact iff_of_true rfl ⟨halready, hpool⟩
      | inChain => exact iff_of_false nofun fun h => hpool.elim h.2.1 h.2.2.1
      | refused => exact iff_of_false nofun fun h => h ⟨halready, hpool.imp_right Or.inl⟩
    · obtain ⟨hmempool, hknown⟩ := not_or.mp hpool
      rw [if_pos halready, if_neg hpool]
      by_cases hchain : Mentions msg "chain" ∨ Mentions msg "in state"
      · rw [if_pos hchain]
        cases r with
        | inMempool => exact iff_of_false nofun fun h => hpool h.2
        | inChain => exact iff_of_true rfl ⟨halready, hmempool, hknown, hchain⟩
        | refused =>
          exact iff_of_false nofun fun h => h ⟨halready, Or.inr (Or.inr hchain)⟩
      · rw [if_neg hchain]
        cases r with
        | inMempool => exact iff_of_false nofun fun h => hpool h.2
        | inChain => exact iff_of_false nofun fun h => hchain h.2.2.2
        | refused =>
          refine iff_of_true rfl ?_
          rintro ⟨-, h | h | h⟩
          · exact hmempool h
          · exact hknown h
          · exact hchain h
  · rw [if_neg halready]
    cases r with
    | inMempool => exact iff_of_false nofun fun h => halready h.1
    | inChain => exact iff_of_false nofun fun h => halready h.1
    | refused => exact iff_of_true rfl fun h => halready h.1

/-! ## Answers -/

theorem answeredAs_iff (h : o.isAccepted = false) :
    AnsweredAs o r ↔ upstreamAlreadyHasTx o.errorMessage = r.reading := by
  have hsend : verdictResult (some o) =
      if upstreamAlreadyHasTx o.errorMessage != .no then .ok ()
      else .error (rpcVerifyRejected o) := by
    rw [verdictResult, h, Bool.false_or]
  have hraw : classifyBroadcastOutcome o =
      match upstreamAlreadyHasTx o.errorMessage with
      | .inMempool => .ok ()
      | .inChain => .error alreadyInUtxoSet
      | .no => .error (rpcVerifyRejected o) := by
    rw [classifyBroadcastOutcome, h]
    rfl
  rw [AnsweredAs.eq_def, hsend, hraw]
  cases upstreamAlreadyHasTx o.errorMessage with
  | no => cases r <;> simp [Reported.reading]
  | inMempool => cases r <;> simp [Reported.reading]
  | inChain => cases r <;> simp [Reported.reading]

theorem answeredAs_iff_words (h : o.isAccepted = false) :
    AnsweredAs o r ↔ WordsAgree o.errorMessage r :=
  (answeredAs_iff h).trans upstreamAlreadyHasTx_iff

theorem inMempoolTexts_mention (h : text ∈ inMempoolTexts) (hsaid : Says o text) :
    WordsAgree o.errorMessage .inMempool := by
  simp only [inMempoolTexts, List.mem_cons, List.not_mem_nil, or_false] at h
  rcases h with rfl | rfl | rfl
  · exact ⟨hsaid.mentions (infix_ofList rfl rfl (by decide)),
      Or.inl (hsaid.mentions (infix_ofList rfl rfl (by decide)))⟩
  · exact ⟨hsaid.mentions (infix_ofList rfl rfl (by decide)),
      Or.inl (hsaid.mentions (infix_ofList rfl rfl (by decide)))⟩
  · exact ⟨hsaid.mentions (infix_ofList rfl rfl (by decide)),
      Or.inr (hsaid.mentions (infix_ofList rfl rfl (by decide)))⟩

theorem conflictText_words :
    "already".toList <:+: conflictText.toList ∧ "mempool".toList <:+: conflictText.toList :=
  ⟨infix_append (infix_ofList rfl rfl (by decide +kernel)),
    infix_append (infix_ofList rfl rfl (by decide))⟩

theorem Says.conflict_words (h : Says o conflictText) : WordsAgree o.errorMessage .inMempool :=
  ⟨h.mentions conflictText_words.1, Or.inl (h.mentions conflictText_words.2)⟩

/-- Rejections are answered for what they report exactly if their words are those of the report. -/
theorem answers (o : BroadcastOutcome) : Answers o where
  accepted h := by simp [verdictResult, classifyBroadcastOutcome, h]
  exact _ := answeredAs_iff_words
  inMempool h _ htext hsaid := (answeredAs_iff_words h).mpr (inMempoolTexts_mention htext hsaid)
  inChain h hsaid := by
    have halready : Mentions o.errorMessage "already" :=
      hsaid.mentions (infix_ofList rfl rfl (by decide))
    have hchain : Mentions o.errorMessage "chain" :=
      hsaid.mentions (infix_ofList rfl rfl (by decide))
    rw [answeredAs_iff_words h]
    exact ⟨fun hwords => ⟨hwords.2.1, hwords.2.2.1⟩, fun hnot =>
      ⟨halready, hnot.1, hnot.2, Or.inl hchain⟩⟩
  conflict h hsaid hanswer :=
    (answeredAs_iff_words h).mp hanswer (hsaid.conflict_words.imp_right (Or.imp_right Or.inl))

def conflictOutcome : BroadcastOutcome := ⟨-25, conflictText⟩

theorem says_conflict : Says conflictOutcome conflictText := by
  refine ⟨"", conflictText, "", by rw [String.empty_append, String.append_empty]; rfl, ?_⟩
  exact asciiLowercase_append_eq (asciiLowercase_ofList rfl (by decide))
    (asciiLowercase_ofList rfl (by decide))

/-- A payment that another transaction took the inputs of is answered as delivered. -/
theorem conflict_delivered : Says conflictOutcome conflictText ∧
    verdictResult (some conflictOutcome) = .ok () ∧
      classifyBroadcastOutcome conflictOutcome = .ok () :=
  ⟨says_conflict, (answeredAs_iff_words rfl).mpr says_conflict.conflict_words⟩

end Zecd
