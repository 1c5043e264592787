import DigWallet.Engine.Rows

/-!
# DigWallet.Engine.Discovery — what a hint finds

`HintIndex` relates coins to hints through two maps.  `discovery_exact`: after every sequence of
calls on a wallet, the queries answer with exactly the pairs indexed since the coin was last dropped.
-/

namespace DigWallet

namespace HintIndex

variable {hints : HintIndex} {c c' : String} {h h' : Hint}

/-! ## The two maps -/

/-- The coins filed under a hint. -/
def bucket (hints : HintIndex) (h : Hint) : Finset String := (hints.byHint.get? h).getD ∅

/-- The hints filed for a coin. -/
def entry (hints : HintIndex) (c : String) : Finset Hint := (hints.byCoin.get? c).getD ∅

/-- The maps are inverse to each other and no hint has an empty bucket. -/
structure Coherent (hints : HintIndex) : Prop where
  inverse : ∀ c h, c ∈ hints.bucket h ↔ h ∈ hints.entry c
  filled : ∀ h coins, hints.byHint.get? h = some coins → coins ≠ ∅

theorem coherent_new : new.Coherent where
  inverse _ _ := iff_of_false (Finset.notMem_empty _) (Finset.notMem_empty _)
  filled _ _ hget := by cases hget

theorem bucket_indexOne :
    (indexOne c hints h).bucket h' = if h = h' then insert c (hints.bucket h) else hints.bucket h' := by
  unfold bucket indexOne
  rw [Table.get?_put]
  by_cases heq : h = h'
  · rw [if_pos heq, if_pos heq, Option.getD_some]
  · rw [if_neg heq, if_neg heq]

theorem entry_indexOne :
    (indexOne c hints h).entry c' = if c = c' then insert h (hints.entry c) else hints.entry c' := by
  unfold entry indexOne
  rw [Table.get?_put]
  by_cases heq : c = c'
  · rw [if_pos heq, if_pos heq, Option.getD_some]
  · rw [if_neg heq, if_neg heq]

theorem mem_bucket_indexOne :
    c' ∈ (indexOne c hints h).bucket h' ↔ (c' = c ∧ h' = h) ∨ c' ∈ hints.bucket h' := by
  rw [bucket_indexOne]
  by_cases heq : h = h'
  · subst heq
    rw [if_pos rfl, Finset.mem_insert, and_iff_left rfl]
  · rw [if_neg heq, or_iff_right fun hboth => heq hboth.2.symm]

theorem mem_entry_indexOne :
    h' ∈ (indexOne c hints h).entry c' ↔ (c' = c ∧ h' = h) ∨ h' ∈ hints.entry c' := by
  rw [entry_indexOne]
  by_cases heq : c = c'
  · subst heq
    rw [if_pos rfl, Finset.mem_insert, and_iff_right rfl]
  · rw [if_neg heq, or_iff_right fun hboth => heq hboth.1.symm]

theorem coherent_indexOne (hc : hints.Coherent) : (indexOne c hints h).Coherent where
  inverse c' h' := by rw [mem_bucket_indexOne, mem_entry_indexOne, hc.inverse]
  filled h' coins hget := by
    rw [indexOne, Table.get?_put] at hget
    by_cases heq : h = h'
    · rw [if_pos heq] at hget
      rw [← Option.some.inj hget]
      exact Finset.insert_ne_empty _ _
    · rw [if_neg heq] at hget
      exact hc.filled h' coins hget

/-- The entry a call of `index` starts from. -/
theorem entry_open : entry { hints with
    byCoin := hints.byCoin.put c ((hints.byCoin.get? c).getD ∅) } c' = hints.entry c' := by
  unfold entry
  rw [Table.get?_put]
  by_cases heq : c = c'
  · rw [if_pos heq, heq, Option.getD_some]
  · rw [if_neg heq]

/-- Induction on the hints, the index generalized. -/
theorem mem_bucket_foldl {memos : List Hint} :
    c' ∈ (memos.foldl (indexOne c) hints).bucket h' ↔
      (c' = c ∧ h' ∈ memos) ∨ c' ∈ hints.bucket h' := by
  induction memos generalizing hints with
  | nil => simp
  | cons h memos ih =>
    rw [List.foldl_cons, ih, mem_bucket_indexOne, List.mem_cons]
    constructor
    · rintro (⟨hcoin, hmem⟩ | ⟨hcoin, hhint⟩ | hmem)
      · exact .inl ⟨hcoin, .inr hmem⟩
      · exact .inl ⟨hcoin, .inl hhint⟩
      · exact .inr hmem
    · rintro (⟨hcoin, hhint | hmem⟩ | hmem)
      · exact .inr (.inl ⟨hcoin, hhint⟩)
      · exact .inl ⟨hcoin, hmem⟩
      · exact .inr (.inr hmem)

theorem mem_bucket_index {memos : List Hint} :
    c' ∈ (hints.index c memos).bucket h' ↔ (c' = c ∧ h' ∈ memos) ∨ c' ∈ hints.bucket h' :=
  mem_bucket_foldl

theorem coherent_index (hc : hints.Coherent) (c : String) (memos : List Hint) :
    (hints.index c memos).Coherent := by
  unfold index
  have hopen : Coherent { hints with
      byCoin := hints.byCoin.put c ((hints.byCoin.get? c).getD ∅) } :=
    ⟨fun c' h' => (hc.inverse c' h').trans (by rw [entry_open]), hc.filled⟩
  generalize { hints with byCoin := hints.byCoin.put c ((hints.byCoin.get? c).getD ∅) } = opened at hopen
  clear hc
  induction memos generalizing opened with
  | nil => exact hopen
  | cons h memos ih => exact ih _ (coherent_indexOne hopen)

/-! ## Forgetting -/

theorem entry_forget : (hints.forget c).entry c' = if c' = c then ∅ else hints.entry c' := by
  unfold forget
  cases hget : hints.byCoin.get? c with
  | none =>
    by_cases heq : c' = c
    · rw [if_pos heq, heq, entry, hget]
      rfl
    · rw [if_neg heq]
  | some memos =>
    unfold entry
    rw [Table.get?_keep]
    by_cases heq : c' = c
    · rw [if_pos heq, heq, hget]
      simp
    · rw [if_neg heq]
      cases hints.byCoin.get? c' with
      | none => rfl
      | some memos' => simp [heq, Option.filter]

theorem get?_byHint_forget {memos : Finset Hint} (hget : hints.byCoin.get? c = some memos) :
    (hints.forget c).byHint.get? h =
      ((hints.byHint.get? h).map fun coins => if h ∈ memos then coins.erase c else coins).filter
        fun coins => !(decide (h ∈ memos) && decide (coins = ∅)) := by
  unfold forget
  rw [hget]
  show Table.get? (Table.keep _ _) h = _
  rw [Table.get?_keep, Table.get?_alter]

theorem bucket_forget (hc : hints.Coherent) : (hints.forget c).bucket h = (hints.bucket h).erase c := by
  have hinverse := hc.inverse c h
  cases hget : hints.byCoin.get? c with
  | none =>
    have hnot : c ∉ hints.bucket h := by
      rw [hinverse, entry, hget]
      exact Finset.notMem_empty _
    rw [Finset.erase_eq_of_notMem hnot, forget, hget]
  | some memos =>
    have hentry : hints.entry c = memos := by
      rw [entry, hget]
      rfl
    rw [hentry] at hinverse
    rw [bucket, get?_byHint_forget hget]
    by_cases hmem : h ∈ memos
    · unfold bucket
      cases hints.byHint.get? h with
      | none => rfl
      | some coins =>
        by_cases hempty : coins.erase c = ∅
        · simp [hmem, hempty, Option.filter]
        · simp [hmem, hempty, Option.filter]
    · have hnot : c ∉ hints.bucket h := fun hin => hmem (hinverse.mp hin)
      rw [Finset.erase_eq_of_notMem hnot, bucket]
      cases hints.byHint.get? h with
      | none => rfl
      | some coins => simp [hmem, Option.filter]

theorem coherent_forget (hc : hints.Coherent) (c : String) : (hints.forget c).Coherent where
  inverse c' h' := by
    rw [bucket_forget hc, entry_forget, Finset.mem_erase, hc.inverse]
    by_cases heq : c' = c
    · simp [heq]
    · simp [heq]
  filled h' coins hfound := by
    cases hget : hints.byCoin.get? c with
    | none =>
      rw [forget, hget] at hfound
      exact hc.filled h' coins hfound
    | some memos =>
      rw [get?_byHint_forget hget, Option.filter_eq_some_iff] at hfound
      obtain ⟨hfound, hkept⟩ := hfound
      obtain ⟨coins', hcoins', rfl⟩ := Option.map_eq_some_iff.mp hfound
      by_cases hmem : h' ∈ memos
      · rw [if_pos hmem] at hkept ⊢
        simpa [hmem] using hkept
      · rw [if_neg hmem]
        exact hc.filled h' coins' hcoins'

/-- Induction on the coins forgotten, the index generalized. -/
theorem foldl_forget (hc : hints.Coherent) (ids : List String) :
    (ids.foldl forget hints).Coherent ∧
      ∀ c h, c ∈ (ids.foldl forget hints).bucket h ↔ c ∈ hints.bucket h ∧ c ∉ ids := by
  induction ids generalizing hints with
  | nil => exact ⟨hc, fun c h => by simp⟩
  | cons id ids ih =>
    obtain ⟨hcoherent, hmem⟩ := ih (coherent_forget hc id)
    refine ⟨hcoherent, fun c h => ?_⟩
    rw [List.foldl_cons, hmem, bucket_forget hc, Finset.mem_erase, List.mem_cons, not_or]
    constructor
    · rintro ⟨⟨hne, hin⟩, hnot⟩
      exact ⟨hin, hne, hnot⟩
    · rintro ⟨hin, hne, hnot⟩
      exact ⟨⟨hne, hin⟩, hnot⟩

/-- Indexing every coin of a spend. -/
def indexAll (hints : HintIndex) (extracted : List (String × List Hint)) : HintIndex :=
  extracted.foldl (fun hints coin => hints.index coin.1 coin.2) hints

theorem coherent_indexAll (hc : hints.Coherent) (extracted : List (String × List Hint)) :
    (hints.indexAll extracted).Coherent := by
  induction extracted generalizing hints with
  | nil => exact hc
  | cons coin extracted ih => exact ih (coherent_index hc coin.1 coin.2)

/-- Induction on the coins indexed, the index generalized. -/
theorem mem_bucket_indexAll {extracted : List (String × List Hint)} :
    c ∈ (hints.indexAll extracted).bucket h ↔
      (∃ memos, (c, memos) ∈ extracted ∧ h ∈ memos) ∨ c ∈ hints.bucket h := by
  induction extracted generalizing hints with
  | nil => simp [indexAll]
  | cons coin extracted ih =>
    rw [indexAll, List.foldl_cons]
    refine ih.trans ?_
    rw [mem_bucket_index]
    constructor
    · rintro (⟨memos, hin, hhint⟩ | ⟨rfl, hhint⟩ | hin)
      · exact .inl ⟨memos, List.mem_cons_of_mem _ hin, hhint⟩
      · exact .inl ⟨coin.2, List.mem_cons_self, hhint⟩
      · exact .inr hin
    · rintro (⟨memos, hin, hhint⟩ | hin)
      · rcases List.mem_cons.mp hin with heq | hin
        · subst heq
          exact .inr (.inl ⟨rfl, hhint⟩)
        · exact .inl ⟨memos, hin, hhint⟩
      · exact .inr (.inr hin)

/-! ## The queries -/

theorem mem_coinsByHint : c ∈ hints.coinsByHint h ↔ c ∈ hints.bucket h := Finset.mem_sort _

theorem mem_hintsFor : h ∈ hints.hintsFor c ↔ h ∈ hints.entry c := Finset.mem_sort _

/-- The intersection with the buckets to come.  Induction on them, the matches generalized. -/
theorem mem_retainIn {matched : Finset String} {queried : List Hint} :
    c ∈ hints.retainIn matched queried ↔ c ∈ matched ∧ ∀ h ∈ queried, c ∈ hints.bucket h := by
  induction queried generalizing matched with
  | nil => simp [retainIn]
  | cons h queried ih =>
    unfold retainIn
    rw [List.forall_mem_cons]
    cases hget : hints.byHint.get? h with
    | none => simp [bucket, hget]
    | some coins =>
      show c ∈ hints.retainIn _ _ ↔ _
      rw [ih, Finset.mem_filter, bucket, hget, Option.getD_some, and_assoc]

theorem nodup_retainIn (matched : Finset String) (queried : List Hint) :
    (hints.retainIn matched queried).Nodup := by
  induction queried generalizing matched with
  | nil => exact Finset.sort_nodup _ _
  | cons h queried ih =>
    unfold retainIn
    cases hints.byHint.get? h with
    | none => exact List.nodup_nil
    | some coins => exact ih _

theorem coinsByAllHints_cons (queried : List Hint) :
    hints.coinsByAllHints (h :: queried) =
      ((hints.byHint.get? h).map fun seed => hints.retainIn seed queried).getD [] := by
  rw [coinsByAllHints]
  cases hints.byHint.get? h with
  | none => rfl
  | some seed => rfl

theorem mem_coinsByAllHints {queried : List Hint} :
    c ∈ hints.coinsByAllHints queried ↔ queried ≠ [] ∧ ∀ h ∈ queried, c ∈ hints.bucket h := by
  cases queried with
  | nil => simp [coinsByAllHints]
  | cons h queried =>
    rw [coinsByAllHints_cons, List.forall_mem_cons, and_iff_right (List.cons_ne_nil h queried)]
    cases hget : hints.byHint.get? h with
    | none => simp [bucket, hget]
    | some coins => rw [Option.map_some, Option.getD_some, mem_retainIn, bucket, hget, Option.getD_some]

theorem nodup_coinsByAllHints (queried : List Hint) : (hints.coinsByAllHints queried).Nodup := by
  cases queried with
  | nil => exact List.nodup_nil
  | cons h queried =>
    rw [coinsByAllHints_cons]
    cases hints.byHint.get? h with
    | none => exact List.nodup_nil
    | some coins => exact nodup_retainIn coins queried

theorem coinsByHint_eq : hints.coinsByHint h = hints.coinsByAllHints [h] := by
  rw [coinsByAllHints_cons, coinsByHint, listed]
  cases hints.byHint.get? h with
  | none => exact Finset.sort_empty (· ≤ ·)
  | some coins => rfl

theorem mem_extend {matched : Finset String} :
    c ∈ hints.extend matched h ↔ c ∈ matched ∨ c ∈ hints.bucket h := by
  unfold extend bucket
  cases hints.byHint.get? h with
  | none => simp
  | some coins => exact Finset.mem_union

/-- Induction on the hints, the matches generalized. -/
theorem mem_foldl_extend {matched : Finset String} {queried : List Hint} :
    c ∈ queried.foldl hints.extend matched ↔ c ∈ matched ∨ ∃ h ∈ queried, c ∈ hints.bucket h := by
  induction queried generalizing matched with
  | nil => simp
  | cons h queried ih =>
    rw [List.foldl_cons, ih, mem_extend, or_assoc]
    simp

theorem mem_coinsByAnyHint {queried : List Hint} :
    c ∈ hints.coinsByAnyHint queried ↔ ∃ h ∈ queried, c ∈ hints.bucket h := by
  rw [coinsByAnyHint, Finset.mem_sort, mem_foldl_extend, or_iff_right (Finset.notMem_empty c)]

end HintIndex

/-! ## Calls on one wallet -/

/-- The calls that index hints or move coins. -/
inductive HintCall
  | indexCoinHints (coinId : String) (memos : List Hint)
  | indexHintsFromSpend (coinSpend : CoinSpend)
  | applyCoinState (record : CoinRecord)
  | rollbackTo (forkHeight : UInt32)

section Runs

variable (sdk : Sdk) (runProgram : Node → Node → Except String Node)

namespace HintCall

def onState (state : WalletState) : HintCall → WalletState
  | indexCoinHints coinId memos => state.indexCoinHints coinId memos
  | indexHintsFromSpend coinSpend => (state.indexHintsFromSpend sdk runProgram coinSpend).1
  | applyCoinState record => (state.applyCoinState record).1
  | rollbackTo forkHeight => (state.rollbackTo forkHeight).1

/-- The call indexes the pair. -/
def Indexes (c : String) (h : Hint) : HintCall → Prop
  | indexCoinHints coinId memos => c = coinId ∧ h ∈ memos
  | indexHintsFromSpend coinSpend => ∃ extracted,
      hintsFromCoinSpend sdk runProgram coinSpend = .ok extracted ∧
      ∃ memos, (c, memos) ∈ extracted ∧ h ∈ memos
  | applyCoinState _ | rollbackTo _ => False

/-- The call is a reorg that drops the coin. -/
def Drops (state : WalletState) (c : String) : HintCall → Prop
  | rollbackTo forkHeight =>
    ∃ record, state.coins.get? c = some record ∧ above forkHeight record.createdHeight = true
  | indexCoinHints _ _ | indexHintsFromSpend _ | applyCoinState _ => False

end HintCall

/-- A wallet after the calls. -/
def afterCalls (calls : List HintCall) : WalletState :=
  calls.foldl (HintCall.onState sdk runProgram) .fresh

/-- Some call indexed the pair and no later one dropped the coin. -/
def IndexedSince (calls : List HintCall) (c : String) (h : Hint) : Prop :=
  ∃ before call after, calls = before ++ call :: after ∧ call.Indexes sdk runProgram c h ∧
    ∀ between drop rest, after = between ++ drop :: rest →
      ¬ drop.Drops (afterCalls sdk runProgram (before ++ call :: between)) c

theorem afterCalls_concat (calls : List HintCall) (call : HintCall) :
    afterCalls sdk runProgram (calls ++ [call]) =
      call.onState sdk runProgram (afterCalls sdk runProgram calls) := by
  simp [afterCalls, List.foldl_append]

theorem indexedSince_concat (calls : List HintCall) (call : HintCall) (c : String) (h : Hint) :
    IndexedSince sdk runProgram (calls ++ [call]) c h ↔ call.Indexes sdk runProgram c h ∨
      IndexedSince sdk runProgram calls c h ∧ ¬ call.Drops (afterCalls sdk runProgram calls) c := by
  constructor
  · rintro ⟨before, first, after, heq, hindexes, hkept⟩
    rcases List.eq_nil_or_concat' after with rfl | ⟨after, last, rfl⟩
    · obtain ⟨-, hlast⟩ := List.append_inj' heq rfl
      cases hlast
      exact .inl hindexes
    · rw [← List.cons_append, ← List.append_assoc] at heq
      obtain ⟨rfl, hlast⟩ := List.append_inj' heq rfl
      cases hlast
      refine .inr ⟨⟨before, first, after, rfl, hindexes, fun between drop rest hafter => ?_⟩,
        hkept after call [] rfl⟩
      refine hkept between drop (rest ++ [call]) ?_
      rw [hafter, List.append_assoc, List.cons_append]
  · rintro (hindexes | ⟨⟨before, first, after, rfl, hindexes, hkept⟩, hnot⟩)
    · refine ⟨calls, call, [], rfl, hindexes, fun between drop rest hafter => ?_⟩
      simp at hafter
    · refine ⟨before, first, after ++ [call], by simp, hindexes, fun between drop rest hafter => ?_⟩
      rcases List.eq_nil_or_concat' rest with rfl | ⟨rest, last, rfl⟩
      · obtain ⟨rfl, hlast⟩ := List.append_inj' hafter rfl
        cases hlast
        exact hnot
      · rw [← List.cons_append, ← List.append_assoc] at hafter
        obtain ⟨rfl, -⟩ := List.append_inj' hafter rfl
        exact hkept between drop rest rfl

/-- The index is coherent and files the pairs indexed since; records stand under their own ids. -/
structure Files (calls : List HintCall) : Prop where
  coherent : (afterCalls sdk runProgram calls).hints.Coherent
  filed : ∀ c h, c ∈ (afterCalls sdk runProgram calls).hints.bucket h ↔
    IndexedSince sdk runProgram calls c h
  keyed : (afterCalls sdk runProgram calls).Keyed

variable {sdk runProgram}

/-- What one call does to the pairs filed. -/
theorem bucket_onState {state : WalletState} (hc : state.hints.Coherent) (call : HintCall) :
    (call.onState sdk runProgram state).hints.Coherent ∧
      ∀ c h, c ∈ (call.onState sdk runProgram state).hints.bucket h ↔
        call.Indexes sdk runProgram c h ∨ c ∈ state.hints.bucket h ∧ ¬ call.Drops state c := by
  cases call with
  | indexCoinHints coinId memos =>
    refine ⟨HintIndex.coherent_index hc coinId memos, fun c h => ?_⟩
    rw [and_iff_left (show ¬ HintCall.Drops state c (.indexCoinHints coinId memos) from id)]
    exact HintIndex.mem_bucket_index
  | indexHintsFromSpend coinSpend =>
    have hnot : ∀ c, ¬ HintCall.Drops state c (.indexHintsFromSpend coinSpend) := fun c => id
    have hindexes : ∀ c h, HintCall.Indexes sdk runProgram c h (.indexHintsFromSpend coinSpend) ↔
        ∃ extracted, hintsFromCoinSpend sdk runProgram coinSpend = .ok extracted ∧
          ∃ memos, (c, memos) ∈ extracted ∧ h ∈ memos := fun c h => Iff.rfl
    show (state.indexHintsFromSpend sdk runProgram coinSpend).1.hints.Coherent ∧ ∀ c h,
      c ∈ (state.indexHintsFromSpend sdk runProgram coinSpend).1.hints.bucket h ↔ _
    unfold WalletState.indexHintsFromSpend
    cases hextracted : hintsFromCoinSpend sdk runProgram coinSpend with
    | error e =>
      refine ⟨hc, fun c h => ?_⟩
      rw [and_iff_left (hnot c), hindexes, hextracted]
      simp
    | ok extracted =>
      refine ⟨HintIndex.coherent_indexAll hc extracted, fun c h => ?_⟩
      rw [and_iff_left (hnot c), hindexes, hextracted]
      refine HintIndex.mem_bucket_indexAll.trans (or_congr_left ?_)
      simp
  | applyCoinState record =>
    refine ⟨hc, fun c h => ?_⟩
    rw [and_iff_left (show ¬ HintCall.Drops state c (.applyCoinState record) from id)]
    exact (or_iff_right id).symm
  | rollbackTo forkHeight =>
    obtain ⟨hcoherent, hmem⟩ := HintIndex.foldl_forget hc
      (WalletState.idsWhere state.coins fun coin => above forkHeight coin.createdHeight)
    refine ⟨hcoherent, fun c h => (hmem c h).trans ?_⟩
    rw [WalletState.mem_idsWhere]
    exact (or_iff_right id).symm

theorem keyed_onHintCall {state : WalletState} (hkeyed : state.Keyed) (call : HintCall) :
    (call.onState sdk runProgram state).Keyed := by
  cases call with
  | indexCoinHints coinId memos => exact { hkeyed with }
  | indexHintsFromSpend coinSpend =>
    show (state.indexHintsFromSpend sdk runProgram coinSpend).1.Keyed
    unfold WalletState.indexHintsFromSpend
    cases hintsFromCoinSpend sdk runProgram coinSpend with
    | error e => exact hkeyed
    | ok extracted => exact { hkeyed with }
  | applyCoinState record => exact keyed_onState hkeyed (.applyCoinState ⟨0⟩ record)
  | rollbackTo forkHeight => exact keyed_onState hkeyed (.rollbackTo ⟨0⟩ forkHeight)

/-- By induction on the calls, from the last. -/
theorem files_afterCalls (calls : List HintCall) : Files sdk runProgram calls := by
  induction calls using List.reverseRecOn with
  | nil =>
    refine ⟨HintIndex.coherent_new, fun c h => ?_, ?_⟩
    · refine iff_of_false (Finset.notMem_empty c) ?_
      rintro ⟨before, call, after, heq, -⟩
      simp at heq
    · exact (mirrors_new ⟨0⟩).2
  | append_singleton calls call ih =>
    obtain ⟨hcoherent, hmem⟩ := bucket_onState ih.coherent call
    refine ⟨?_, fun c h => ?_, ?_⟩
    · rwa [afterCalls_concat]
    · rw [afterCalls_concat, hmem, indexedSince_concat, ih.filed]
    · rw [afterCalls_concat]
      exact keyed_onHintCall ih.keyed call

/-! ## The answers -/

theorem mem_resolve {coins : Table String CoinRecord} {ids : List String} {record : CoinRecord} :
    record ∈ WalletState.resolve coins ids ↔ ∃ id ∈ ids, coins.get? id = some record := List.mem_filterMap

theorem nodup_resolve {state : WalletState} (hkeyed : state.Keyed) {ids : List String}
    (hids : ids.Nodup) : (WalletState.resolve state.coins ids).Nodup := by
  refine hids.filterMap fun id id' record hget hget' => ?_
  rw [← hkeyed.coins id record hget, ← hkeyed.coins id' record hget']

variable (sdk runProgram) in
/-- The answers of the queries after the calls, in the pairs indexed since. -/
structure FindsExactly (calls : List HintCall) (state : WalletState) : Prop where
  all_nodup : ∀ queried, (state.coinsByAllHints queried).Nodup
  all : ∀ queried record, record ∈ state.coinsByAllHints queried ↔ queried ≠ [] ∧
    ∃ c, state.coins.get? c = some record ∧ ∀ h ∈ queried, IndexedSince sdk runProgram calls c h
  one : ∀ h, state.coinsByHint h = state.coinsByAllHints [h]
  hints_nodup : ∀ c, (state.hintsForCoin c).Nodup
  hints : ∀ c h, h ∈ state.hintsForCoin c ↔ IndexedSince sdk runProgram calls c h
  any_nodup : ∀ queried, (state.hints.coinsByAnyHint queried).Nodup
  any : ∀ queried c, c ∈ state.hints.coinsByAnyHint queried ↔
    ∃ h ∈ queried, IndexedSince sdk runProgram calls c h
  coherent : state.hints.Coherent

end Runs

/-- **Hint discovery is exact**, after every sequence of calls on a wallet. -/
theorem discovery_exact (sdk : Sdk) (runProgram : Node → Node → Except String Node)
    (calls : List HintCall) :
    FindsExactly sdk runProgram calls (afterCalls sdk runProgram calls) := by
  obtain ⟨hcoherent, hfiled, hkeyed⟩ := @files_afterCalls sdk runProgram calls
  constructor
  · exact fun queried => nodup_resolve hkeyed (HintIndex.nodup_coinsByAllHints queried)
  · intro queried record
    unfold WalletState.coinsByAllHints
    rw [mem_resolve]
    simp only [HintIndex.mem_coinsByAllHints, hfiled]
    constructor
    · rintro ⟨c, ⟨hne, hall⟩, hget⟩
      exact ⟨hne, c, hget, hall⟩
    · rintro ⟨hne, c, hget, hall⟩
      exact ⟨c, ⟨hne, hall⟩, hget⟩
  · intro h
    rw [WalletState.coinsByHint, HintIndex.coinsByHint_eq]
    rfl
  · exact fun c => Finset.sort_nodup _ _
  · intro c h
    rw [← hfiled, hcoherent.inverse]
    exact HintIndex.mem_hintsFor
  · exact fun queried => Finset.sort_nodup _ _
  · intro queried c
    rw [HintIndex.mem_coinsByAnyHint]
    simp only [hfiled]
  · exact hcoherent

end DigWallet
