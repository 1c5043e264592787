import DigWallet.Verify.Bundle

/-!
# DigWallet.Verify.Signed — the signed classes

An admitted leg carries an `AGG_SIG_ME` exactly when its class is signed, and then the sole message is
the tree hash of its quoted puzzle.  `standard_run`: what a standard-layer run adds to the quoted list.
-/

namespace DigWallet

variable {sdk : Sdk}

/-! ## The sole `AGG_SIG_ME` -/

@[simp] theorem ofBytes?_bytes (hash : Bytes32) : Bytes32.ofBytes? hash.bytes = some hash := by
  rw [Bytes32.ofBytes?, dif_pos hash.size]

theorem ofBytes?_eq_some {bytes : Bytes} {hash : Bytes32} (h : Bytes32.ofBytes? bytes = some hash) :
    bytes = hash.bytes := by
  unfold Bytes32.ofBytes? at h
  split_ifs at h
  cases h
  rfl

theorem soleAggSigMeMessage_eq_ok {conditions : List Condition} {message : Bytes32} :
    soleAggSigMeMessage conditions = .ok message ↔
      ∃ publicKey, conditions.filterMap Condition.asAggSigMe = [⟨publicKey, message.bytes⟩] := by
  unfold soleAggSigMeMessage
  constructor
  · intro h
    split at h
    · cases h
    · rename_i sole hsole
      split at h
      · rename_i found hfound
        cases h
        exact ⟨sole.publicKey, by rw [hsole, ← ofBytes?_eq_some hfound]⟩
      · cases h
    · cases h
  · rintro ⟨publicKey, h⟩
    simp [h]

/-- The leg's coin carries an `AGG_SIG_ME`. -/
def Leg.carriesAggSigMe (leg : Leg sdk) : Bool := leg.conditions.any (·.asAggSigMe.isSome)

theorem any_aggSigMe_of_sole {conditions : List Condition} {message : Bytes32}
    (h : soleAggSigMeMessage conditions = .ok message) :
    conditions.any (·.asAggSigMe.isSome) = true := by
  obtain ⟨publicKey, hsole⟩ := soleAggSigMeMessage_eq_ok.mp h
  have hmem : (⟨publicKey, message.bytes⟩ : AggSig) ∈
      conditions.filterMap Condition.asAggSigMe := by
    rw [hsole]
    exact List.mem_singleton.mpr rfl
  obtain ⟨condition, hcondition, hsig⟩ := List.mem_filterMap.mp hmem
  exact List.any_eq_true.mpr ⟨condition, hcondition, by rw [hsig]; rfl⟩

theorem any_aggSigMe_eq_false {conditions : List Condition}
    (h : ∀ c ∈ conditions, isAggSig c = false) :
    conditions.any (·.asAggSigMe.isSome) = false := by
  rw [List.any_eq_false]
  intro condition hcondition
  have hnot := h condition hcondition
  rw [isAggSig, Bool.or_eq_false_iff] at hnot
  simpa using hnot.1

/-! ## The signed classes -/

section Leg

variable {leg : Leg sdk}

/-- A signed leg's sole message is the hash of its quoted puzzle. -/
theorem Leg.Admitted.commits (h : leg.Admitted) {signed : QuotedConditions sdk}
    (hsigned : leg.signed? = some signed) : Leg.Commits signed leg.conditions := by
  cases leg with
  | catSend _ _ _ => cases hsigned; exact h.1
  | standardSend _ _ => cases hsigned; exact h.1
  | optionTransfer _ _ => cases hsigned; exact h.1
  | nftTransfer _ _ _ _ =>
    cases hsigned
    obtain ⟨-, -, hcommits, -⟩ := h
    exact hcommits
  | melt _ _ =>
    cases hsigned
    obtain ⟨-, hcommits, -⟩ := h
    exact hcommits
  | _ => cases hsigned

/-- An unsigned leg carries no signature condition. -/
theorem Leg.Admitted.no_aggSig (h : leg.Admitted) (hsigned : leg.signed? = none) :
    ∀ c ∈ leg.conditions, isAggSig c = false := by
  cases leg with
  | catClaim _ _ => exact h
  | settlementClaim _ => exact h
  | launch _ => exact fun c hc => (h.1 c hc).1
  | eveMint _ _ _ _ =>
    obtain ⟨-, -, hconditions, -⟩ := h
    intro c hc
    exact (hconditions c hc).1
  | _ => cases hsigned

/-- Among admitted legs the carriers are the five signed classes. -/
theorem Leg.Admitted.carriesAggSigMe_eq (h : leg.Admitted) :
    leg.carriesAggSigMe = leg.signed?.isSome := by
  cases hsigned : leg.signed? with
  | none => exact any_aggSigMe_eq_false (h.no_aggSig hsigned)
  | some signed => exact any_aggSigMe_of_sole (h.commits hsigned)

theorem Leg.Admitted.signed_of_sole (h : leg.Admitted) {message : Bytes32}
    (hsole : soleAggSigMeMessage leg.conditions = .ok message) :
    ∃ signed, leg.signed? = some signed ∧ message = sdk.treeHash signed.puzzle := by
  have hcarries : leg.carriesAggSigMe = true := any_aggSigMe_of_sole hsole
  rw [h.carriesAggSigMe_eq] at hcarries
  obtain ⟨signed, hsigned⟩ := Option.isSome_iff_exists.mp hcarries
  have hcommits := h.commits hsigned
  exact ⟨signed, hsigned, Except.ok.inj (hsole.symm.trans hcommits)⟩

end Leg

/-- A quoted puzzle has one condition list. -/
theorem QuotedConditions.conditions_eq {quoted quoted' : QuotedConditions sdk}
    (h : quoted.puzzle = quoted'.puzzle) : quoted.conditions = quoted'.conditions := by
  obtain ⟨op, body, hpuzzle, -, hbody⟩ := quoted.quotes
  obtain ⟨op', body', hpuzzle', -, hbody'⟩ := quoted'.quotes
  rw [hpuzzle, hpuzzle'] at h
  cases h
  exact Except.ok.inj (hbody.symm.trans hbody')

/-! ## Runs -/

theorem runConditions_eq_ok {puzzle solution : Node} {conditions : List Condition} :
    runConditions sdk puzzle solution = .ok conditions ↔
      sdk.conditionsOf puzzle solution = .ok conditions := by
  unfold runConditions
  simp only [bind_eq_ok, orReject_eq_ok, Sdk.conditionsOf_eq_ok]

theorem prove_puzzle {puzzle : Node} {what : String} {quoted : QuotedConditions sdk}
    (h : QuotedConditions.prove sdk puzzle what = .ok quoted) : quoted.puzzle = puzzle := by
  unfold QuotedConditions.prove at h
  split at h
  · cases h
  · split_ifs at h
    split at h
    · cases h
      rfl
    · cases h

/-- The committed list is the one the solution's delegated puzzle quotes. -/
theorem committedStandardSpend_eq_ok {solution : Node} {committed : CommittedStandardSpend sdk}
    (h : committedStandardSpend sdk solution = .ok committed) :
    ∃ layer, sdk.standardParseSolution solution = .ok layer ∧
      committed.conditions.puzzle = layer.delegatedPuzzle := by
  unfold committedStandardSpend at h
  simp only [bind_eq_ok, orReject_eq_ok] at h
  obtain ⟨layer, hlayer, quoted, hquoted, heq⟩ := h
  cases heq
  exact ⟨layer, hlayer, prove_puzzle hquoted⟩

/-- **A standard-layer run is the quoted list, under at most the layer's own `AGG_SIG_ME`.** -/
theorem standard_run (hstandard : sdk.StandardLayer) {puzzle : Puzzle} {publicKey : PublicKey}
    {solution : Node} {committed : CommittedStandardSpend sdk} {conditions : List Condition}
    (hpuzzle : sdk.standardParsePuzzle puzzle = .ok (some publicKey))
    (hsigned : committedStandardSpend sdk solution = .ok committed)
    (hrun : runConditions sdk puzzle.ptr solution = .ok conditions) :
    ∃ own, (own = [] ∨
        own = [.aggSigMe ⟨publicKey, (sdk.treeHash committed.conditions.puzzle).bytes⟩]) ∧
      conditions = own ++ committed.conditions.conditions := by
  obtain ⟨layer, hlayer, hdelegated⟩ := committedStandardSpend_eq_ok hsigned
  obtain ⟨rest, hrest, hconditions⟩ :=
    hstandard.run hpuzzle hlayer (runConditions_eq_ok.mp hrun)
  obtain ⟨op, body, hquote, hop, hbody⟩ := committed.conditions.quotes
  have heval : sdk.conditionsOf layer.delegatedPuzzle layer.solution =
      .ok committed.conditions.conditions := by
    rw [← hdelegated, hquote, Sdk.conditionsOf, hstandard.quote hop]
    exact hbody
  obtain rfl := Except.ok.inj (hrest.symm.trans heval)
  refine ⟨_, ?_, hconditions⟩
  rw [hdelegated]
  split_ifs
  · exact .inr rfl
  · exact .inl rfl

end DigWallet
