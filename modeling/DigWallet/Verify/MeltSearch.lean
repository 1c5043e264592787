import DigWallet.Verify.Singletons

/-!
# DigWallet.Verify.MeltSearch — the signed puzzle of a melt

`findSubtreeByTreeHash` finds a subtree of the committed hash exactly when one stands at most
`maxSolutionSearchDepth` levels down.  `committedMelt_exact`: what a melt commits to depends on the
message alone, and it is refused unless the searched levels hold a quoted list of that hash.
-/

namespace DigWallet

/-! ## The levels of a tree -/

/-- The subtrees `depth` levels down, from the left. -/
def Node.subtreesAt : Node → ℕ → List Node
  | node, 0 => [node]
  | .atom _, _ + 1 => []
  | .pair first rest, depth + 1 => first.subtreesAt depth ++ rest.subtreesAt depth

/-- The subtrees at most `bound` levels down. -/
def Node.subtreesWithin (node : Node) (bound : ℕ) : List Node :=
  (List.range (bound + 1)).flatMap node.subtreesAt

theorem Node.subtreesAt_zero (node : Node) : node.subtreesAt 0 = [node] := by
  cases node <;> rfl

theorem Node.mem_subtreesAt_zero {node sub : Node} : sub ∈ node.subtreesAt 0 ↔ sub = node := by
  rw [subtreesAt_zero]
  exact List.mem_singleton

theorem Node.mem_subtreesAt_succ {first rest sub : Node} {depth : ℕ} :
    sub ∈ (Node.pair first rest).subtreesAt (depth + 1) ↔
      sub ∈ first.subtreesAt depth ∨ sub ∈ rest.subtreesAt depth := List.mem_append

theorem Node.mem_subtreesWithin {node sub : Node} {bound : ℕ} :
    sub ∈ node.subtreesWithin bound ↔ ∃ depth ≤ bound, sub ∈ node.subtreesAt depth := by
  simp only [subtreesWithin, List.mem_flatMap, List.mem_range, Nat.lt_succ_iff]

section Search

variable {sdk : Sdk} {target : Bytes32}

/-! ## The search -/

/-- What is found stands within the bound.  Induction on the tree; `depth` levels are above it. -/
theorem mem_of_findSubtree {node found : Node} {depth : ℕ}
    (h : findSubtreeByTreeHash sdk target node depth = some found)
    (hdepth : depth ≤ maxSolutionSearchDepth) :
    ∃ below, depth + below ≤ maxSolutionSearchDepth ∧ found ∈ node.subtreesAt below := by
  induction node generalizing depth with
  | atom bytes =>
    unfold findSubtreeByTreeHash at h
    split_ifs at h with htarget
    cases h
    exact ⟨0, hdepth, Node.mem_subtreesAt_zero.mpr rfl⟩
  | pair first rest ihfirst ihrest =>
    unfold findSubtreeByTreeHash at h
    split_ifs at h with htarget hbound
    · cases h
      exact ⟨0, hdepth, Node.mem_subtreesAt_zero.mpr rfl⟩
    · have hnext : depth + 1 ≤ maxSolutionSearchDepth := by omega
      rcases Option.or_eq_some_iff.mp h with h | ⟨-, h⟩
      · obtain ⟨below, hbelow, hmem⟩ := ihfirst h hnext
        exact ⟨below + 1, by omega, Node.mem_subtreesAt_succ.mpr (.inl hmem)⟩
      · obtain ⟨below, hbelow, hmem⟩ := ihrest h hnext
        exact ⟨below + 1, by omega, Node.mem_subtreesAt_succ.mpr (.inr hmem)⟩

/-- A subtree of the hash within the bound is enough.  Induction on its depth. -/
theorem findSubtree_isSome {node sub : Node} {depth below : ℕ} (hmem : sub ∈ node.subtreesAt below)
    (hbound : depth + below ≤ maxSolutionSearchDepth) (hhash : sdk.treeHash sub = target) :
    (findSubtreeByTreeHash sdk target node depth).isSome := by
  induction below generalizing node depth with
  | zero =>
    obtain rfl := Node.mem_subtreesAt_zero.mp hmem
    unfold findSubtreeByTreeHash
    rw [if_pos hhash]
    rfl
  | succ below ih =>
    cases node with
    | atom bytes => cases hmem
    | pair first rest =>
      unfold findSubtreeByTreeHash
      split_ifs with htarget hdeep
      · rfl
      · omega
      · have hnext : depth + 1 + below ≤ maxSolutionSearchDepth := by omega
        rw [Option.isSome_or, Bool.or_eq_true]
        rcases Node.mem_subtreesAt_succ.mp hmem with hmem | hmem
        · exact .inl (ih hmem hnext)
        · exact .inr (ih hmem hnext)

theorem findSubtree_isSome_iff {tree : Node} :
    (findSubtreeByTreeHash sdk target tree 0).isSome ↔
      ∃ depth ≤ maxSolutionSearchDepth, ∃ node ∈ tree.subtreesAt depth,
        sdk.treeHash node = target := by
  constructor
  · intro hsome
    obtain ⟨found, hfound⟩ := Option.isSome_iff_exists.mp hsome
    obtain ⟨below, hbelow, hmem⟩ := mem_of_findSubtree hfound (Nat.zero_le _)
    exact ⟨below, by omega, found, hmem, treeHash_findSubtree sdk hfound⟩
  · rintro ⟨depth, hdepth, node, hmem, hhash⟩
    exact findSubtree_isSome hmem (by omega) hhash

/-! ## The committed conditions -/

/-- The subtrees of a solution that the search visits when it finds nothing. -/
def searched (solution : Node) : List Node := solution.subtreesWithin maxSolutionSearchDepth

theorem mem_searched_of_find {solution found : Node}
    (h : findSubtreeByTreeHash sdk target solution 0 = some found) : found ∈ searched solution := by
  obtain ⟨below, hbelow, hmem⟩ := mem_of_findSubtree h (Nat.zero_le _)
  exact Node.mem_subtreesWithin.mpr ⟨below, by omega, hmem⟩

/-- One message, one list: whichever occurrence either search finds. -/
theorem committedMelt_conditions_eq {solution solution' : Node} {message : Bytes32}
    {committed committed' : QuotedConditions sdk}
    (hinj : sdk.CollisionFree (searched solution ++ searched solution'))
    (h : committedMeltConditions sdk solution message = .ok committed)
    (h' : committedMeltConditions sdk solution' message = .ok committed') :
    committed.conditions = committed'.conditions := by
  have hfind := find_of_committedMelt h
  have hfind' := find_of_committedMelt h'
  have hpuzzle : committed.puzzle = committed'.puzzle := by
    refine hinj _ (List.mem_append_left _ (mem_searched_of_find hfind)) _
      (List.mem_append_right _ (mem_searched_of_find hfind')) ?_
    rw [treeHash_findSubtree sdk hfind, treeHash_findSubtree sdk hfind']
  exact QuotedConditions.conditions_eq hpuzzle

/-- A list is recovered only from a quoted one of the message's hash. -/
theorem committedMelt_refuses {solution : Node} {message : Bytes32}
    (h : ∀ node ∈ searched solution, sdk.treeHash node = message →
      ∀ conditions, ¬ sdk.Quotes node conditions) :
    ∃ e, committedMeltConditions sdk solution message = .error e ∧ IsRefusal e := by
  cases hresult : committedMeltConditions sdk solution message with
  | error e => exact ⟨e, rfl, refuses_committedMeltConditions sdk solution message e hresult⟩
  | ok committed =>
    have hfind := find_of_committedMelt hresult
    exact absurd committed.quotes
      (h _ (mem_searched_of_find hfind) (treeHash_findSubtree sdk hfind) _)

/-- **The signed melt puzzle is found exactly**, and what it commits to is read off the message.  An
absent puzzle and one below the bound are cases of the last part, which then asks nothing. -/
theorem committedMelt_exact (sdk : Sdk) :
    (∀ (tree : Node) (target : Bytes32),
      ((findSubtreeByTreeHash sdk target tree 0).isSome ↔
        ∃ depth ≤ maxSolutionSearchDepth, ∃ node ∈ tree.subtreesAt depth,
          sdk.treeHash node = target) ∧
      ∀ found, findSubtreeByTreeHash sdk target tree 0 = some found →
        sdk.treeHash found = target) ∧
    (∀ (solution solution' : Node) (message : Bytes32) (committed committed' : QuotedConditions sdk),
      sdk.CollisionFree (searched solution ++ searched solution') →
      committedMeltConditions sdk solution message = .ok committed →
      committedMeltConditions sdk solution' message = .ok committed' →
        committed.conditions = committed'.conditions) ∧
    ∀ (solution : Node) (message : Bytes32),
      (∀ node ∈ searched solution, sdk.treeHash node = message →
        ∀ conditions, ¬ sdk.Quotes node conditions) →
      ∃ e, committedMeltConditions sdk solution message = .error e ∧ IsRefusal e :=
  ⟨fun _ _ => ⟨findSubtree_isSome_iff, fun _ hfound => treeHash_findSubtree sdk hfound⟩,
    fun _ _ _ _ _ hinj h h' => committedMelt_conditions_eq hinj h h',
    fun _ _ h => committedMelt_refuses h⟩

end Search

section Witness

open Sim

/-- A melt's delegated puzzle. -/
def meltQuote : Node := quote [meltMarker]

set_option maxRecDepth 8000 in
/-- One delegated puzzle, at two depths; and a solution without it. -/
theorem committedMelt_exact_meltQuote :
    (∃ committed committed', committedMeltConditions sim (signing [meltMarker])
        (treeHash meltQuote) = .ok committed ∧
      committedMeltConditions sim (.pair nil (.pair nil (signing [meltMarker])))
        (treeHash meltQuote) = .ok committed' ∧
      committed.conditions = committed'.conditions) ∧
    ∃ e, committedMeltConditions sim nil (treeHash meltQuote) = .error e ∧ IsRefusal e := by
  obtain ⟨-, hone, hrefuses⟩ := committedMelt_exact sim
  have hinj : sim.CollisionFree (searched (signing [meltMarker]) ++
      searched (.pair nil (.pair nil (signing [meltMarker])))) := by decide +kernel
  obtain ⟨committed, hcommitted⟩ : ∃ committed, committedMeltConditions sim (signing [meltMarker])
      (treeHash meltQuote) = .ok committed := ⟨_, rfl⟩
  obtain ⟨committed', hcommitted'⟩ : ∃ committed, committedMeltConditions sim
      (.pair nil (.pair nil (signing [meltMarker]))) (treeHash meltQuote) = .ok committed := ⟨_, rfl⟩
  refine ⟨⟨committed, committed', hcommitted, hcommitted', hone _ _ _ _ _ hinj hcommitted
    hcommitted'⟩, hrefuses _ _ ?_⟩
  intro node hnode hhash
  have hne : ∀ node ∈ searched nil, treeHash node ≠ treeHash meltQuote := by decide +kernel
  exact absurd hhash (hne node hnode)

end Witness

end DigWallet
