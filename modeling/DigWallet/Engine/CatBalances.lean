import Mathlib.Algebra.BigOperators.Group.Finset.Basic
import Mathlib.Algebra.Order.BigOperators.Group.Finset
import DigWallet.Engine.Assets
import DigWallet.Engine.Steps
import DigWallet.Lib.Runs
import DigWallet.SimAssets

/-!
# DigWallet.Engine.CatBalances — what a stored CAT balance is

The stored balance of an asset is what the last processed spend of it created, whoever owns those
coins and whether or not they are spent by now.  It follows the wallet's coins as long as each spend
keeps all of an asset in its own children: `KeepsBalance`.
-/

namespace DigWallet

open Totals

/-! ## The records of one spend -/

section Records

variable {overflowChecks : Bool}

/-- The balance under an asset id. -/
def balanceIn (cats : List CatRecord) (assetId : AssetId) : Option UInt64 :=
  (cats.find? fun cat => cat.assetId = assetId).map fun cat => cat.balance.mojos

/-- `addCat` with wrap-around. -/
def bumpCat (assetId : AssetId) (amount : UInt64) : List CatRecord → List CatRecord
  | [] => [⟨assetId, ⟨amount⟩, none⟩]
  | existing :: cats =>
    if existing.assetId = assetId then
      { existing with balance := ⟨existing.balance.mojos + amount⟩ } :: cats
    else existing :: bumpCat assetId amount cats

theorem balanceIn_cons (existing : CatRecord) (cats : List CatRecord) (assetId : AssetId) :
    balanceIn (existing :: cats) assetId =
      if existing.assetId = assetId then some existing.balance.mojos else balanceIn cats assetId := by
  unfold balanceIn
  rw [List.find?_cons]
  by_cases h : existing.assetId = assetId
  · simp [h]
  · simp [h]

theorem balanceIn_bumpCat (assetId assetId' : AssetId) (amount : UInt64) (cats : List CatRecord) :
    balanceIn (bumpCat assetId amount cats) assetId' =
      if assetId = assetId' then some ((balanceIn cats assetId).getD 0 + amount)
      else balanceIn cats assetId' := by
  induction cats with
  | nil =>
    show balanceIn [⟨assetId, ⟨amount⟩, none⟩] assetId' = _
    rw [balanceIn_cons]
    by_cases h : assetId = assetId'
    · rw [if_pos h, if_pos h]
      show some amount = some (0 + amount)
      rw [UInt64.zero_add]
    · rw [if_neg h, if_neg h]
  | cons existing cats ih =>
    unfold bumpCat
    by_cases hexisting : existing.assetId = assetId
    · by_cases h : assetId = assetId'
      · simp [balanceIn_cons, hexisting, h]
      · simp [balanceIn_cons, hexisting, h]
    · rw [if_neg hexisting, balanceIn_cons, ih, balanceIn_cons, balanceIn_cons, if_neg hexisting]
      by_cases h : assetId = assetId'
      · have hne : ¬ existing.assetId = assetId' := fun h' => hexisting (h'.trans h.symm)
        simp [h, hne]
      · simp [h]

theorem addCat_eq (assetId : AssetId) (amount : UInt64) (cats : List CatRecord) :
    addCat overflowChecks assetId amount cats =
      if overflowChecks = true ∧ 2 ^ 64 ≤ ((balanceIn cats assetId).getD 0).toNat + amount.toNat then
        none
      else some (bumpCat assetId amount cats) := by
  induction cats with
  | nil =>
    have hamount := amount.toNat_lt
    have hfits : ¬ (overflowChecks = true ∧
        2 ^ 64 ≤ ((balanceIn [] assetId).getD 0).toNat + amount.toNat) := by
      rintro ⟨-, hover⟩
      have hzero : ((balanceIn [] assetId).getD 0).toNat = 0 := rfl
      omega
    rw [if_neg hfits]
    rfl
  | cons existing cats ih =>
    unfold addCat bumpCat
    by_cases hexisting : existing.assetId = assetId
    · rw [if_pos hexisting, if_pos hexisting, balanceIn_cons, if_pos hexisting]
      show (addU64 overflowChecks existing.balance.mojos amount).bind _ = _
      unfold addU64
      rw [Option.getD_some]
      by_cases hover : overflowChecks = true ∧
          2 ^ 64 ≤ existing.balance.mojos.toNat + amount.toNat
      · rw [if_pos hover, if_pos hover]
        rfl
      · rw [if_neg hover, if_neg hover]
        rfl
    · rw [if_neg hexisting, if_neg hexisting, balanceIn_cons, if_neg hexisting, ih]
      by_cases hover : overflowChecks = true ∧
          2 ^ 64 ≤ ((balanceIn cats assetId).getD 0).toNat + amount.toNat
      · rw [if_pos hover, if_pos hover]
        rfl
      · rw [if_neg hover, if_neg hover]
        rfl

/-- The distinct assets stay distinct. -/
theorem map_assetId_bumpCat (assetId : AssetId) (amount : UInt64) (cats : List CatRecord) :
    (bumpCat assetId amount cats).map CatRecord.assetId =
      if assetId ∈ cats.map CatRecord.assetId then cats.map CatRecord.assetId
      else cats.map CatRecord.assetId ++ [assetId] := by
  induction cats with
  | nil => rfl
  | cons existing cats ih =>
    unfold bumpCat
    by_cases hexisting : existing.assetId = assetId
    · rw [if_pos hexisting, List.map_cons, List.map_cons, hexisting, if_pos List.mem_cons_self]
    · rw [if_neg hexisting, List.map_cons, List.map_cons, ih]
      by_cases hmem : assetId ∈ cats.map CatRecord.assetId
      · rw [if_pos hmem, if_pos (List.mem_cons_of_mem _ hmem)]
      · have hnot : assetId ∉ existing.assetId :: cats.map CatRecord.assetId := by
          rw [List.mem_cons]
          exact not_or.mpr ⟨Ne.symm hexisting, hmem⟩
        rw [if_neg hmem, if_neg hnot, List.cons_append]

/-! ### All the children -/

/-- The coins of one asset among the children. -/
def coinsOf (assetId : AssetId) (children : List ChildCat) : List Coin :=
  (children.filter fun cat => cat.asset = assetId).map ChildCat.coin

def amounts (coins : List Coin) : List UInt64 := coins.map Coin.amount

theorem coinsOf_cons (assetId : AssetId) (cat : ChildCat) (children : List ChildCat) :
    coinsOf assetId (cat :: children) =
      if cat.asset = assetId then cat.coin :: coinsOf assetId children
      else coinsOf assetId children := by
  unfold coinsOf
  by_cases h : cat.asset = assetId
  · simp [h]
  · simp [h]

/-- The records of `hydrate_cats`, with wrap-around. -/
def bumpAll (children : List ChildCat) (cats : List CatRecord) : List CatRecord :=
  children.foldl (fun cats cat => bumpCat cat.asset cat.coin.amount cats) cats

/-- The balance under an asset id, 0 if there is none. -/
def balanceNat (cats : List CatRecord) (assetId : AssetId) : ℕ :=
  ((balanceIn cats assetId).getD 0).toNat

/-- With checks, no total leaves `u64`. -/
def SumsFit (overflowChecks : Bool) (cats : List CatRecord) (children : List ChildCat) : Prop :=
  overflowChecks = true →
    ∀ assetId, balanceNat cats assetId + total (amounts (coinsOf assetId children)) < 2 ^ 64

theorem total_coinsOf_cons (assetId : AssetId) (cat : ChildCat) (children : List ChildCat) :
    total (amounts (coinsOf assetId (cat :: children))) =
      (if cat.asset = assetId then cat.coin.amount.toNat else 0) +
        total (amounts (coinsOf assetId children)) := by
  rw [coinsOf_cons]
  by_cases h : cat.asset = assetId
  · rw [if_pos h, if_pos h]
    exact total_cons _ _
  · rw [if_neg h, if_neg h, Nat.zero_add]

theorem foldlM_addCat_eq_some (children : List ChildCat) (cats out : List CatRecord) :
    children.foldlM (fun cats cat => addCat overflowChecks cat.asset cat.coin.amount cats) cats =
        some out ↔
      out = bumpAll children cats ∧ SumsFit overflowChecks cats children := by
  induction children generalizing cats with
  | nil =>
    have hfits : SumsFit overflowChecks cats [] := by
      intro _ assetId
      have hlt := ((balanceIn cats assetId).getD 0).toNat_lt
      exact hlt
    rw [and_iff_left hfits]
    exact ⟨fun h => (Option.some.inj h).symm, fun h => congrArg some h.symm⟩
  | cons cat children ih =>
    rw [List.foldlM_cons, addCat_eq]
    by_cases hover : overflowChecks = true ∧
        2 ^ 64 ≤ ((balanceIn cats cat.asset).getD 0).toNat + cat.coin.amount.toNat
    · rw [if_pos hover]
      constructor
      · intro h
        cases h
      · rintro ⟨-, hfits⟩
        have hasset := hfits hover.1 cat.asset
        rw [total_coinsOf_cons, if_pos rfl] at hasset
        have hlarge := hover.2
        unfold balanceNat at hasset
        omega
    · rw [if_neg hover]
      show List.foldlM _ (bumpCat _ _ _) children = some out ↔ _
      rw [ih]
      refine and_congr_right fun _ => ?_
      unfold SumsFit
      refine imp_congr_right fun hchecks => forall_congr' fun assetId => ?_
      have hfits : ((balanceIn cats cat.asset).getD 0).toNat + cat.coin.amount.toNat < 2 ^ 64 := by
        by_contra hlarge
        exact hover ⟨hchecks, by omega⟩
      rw [total_coinsOf_cons]
      unfold balanceNat
      rw [balanceIn_bumpCat]
      by_cases h : cat.asset = assetId
      · rw [if_pos h, if_pos h, Option.getD_some, toNat_add_of_lt hfits, h]
        omega
      · rw [if_neg h, if_neg h]
        omega

theorem balanceIn_bumpAll (assetId : AssetId) (children : List ChildCat) (cats : List CatRecord) :
    balanceIn (bumpAll children cats) assetId =
      if coinsOf assetId children = [] then balanceIn cats assetId
      else some (UInt64.ofNat
        (balanceNat cats assetId + total (amounts (coinsOf assetId children)))) := by
  induction children generalizing cats with
  | nil => rfl
  | cons cat children ih =>
    show balanceIn (bumpAll children (bumpCat _ _ cats)) assetId = _
    rw [ih, total_coinsOf_cons, coinsOf_cons]
    unfold balanceNat
    rw [balanceIn_bumpCat]
    by_cases h : cat.asset = assetId
    · rw [if_pos h, if_pos h, if_pos h, if_neg (List.cons_ne_nil _ _), Option.getD_some, h]
      have hwrap : ∀ n, UInt64.ofNat (((balanceIn cats assetId).getD 0 + cat.coin.amount).toNat + n) =
          UInt64.ofNat (((balanceIn cats assetId).getD 0).toNat + (cat.coin.amount.toNat + n)) := by
        intro n
        apply UInt64.toNat_inj.mp
        rw [UInt64.toNat_ofNat', UInt64.toNat_ofNat', UInt64.toNat_add]
        omega
      by_cases hnil : coinsOf assetId children = []
      · have hzero := hwrap 0
        rw [Nat.add_zero, UInt64.ofNat_toNat] at hzero
        rw [if_pos hnil, hnil, hzero]
        rfl
      · rw [if_neg hnil, hwrap]
    · rw [if_neg h, if_neg h, if_neg h, Nat.zero_add]

theorem nodup_bumpAll (children : List ChildCat) {cats : List CatRecord}
    (h : (cats.map CatRecord.assetId).Nodup) :
    ((bumpAll children cats).map CatRecord.assetId).Nodup := by
  induction children generalizing cats with
  | nil => exact h
  | cons cat children ih =>
    refine ih ?_
    rw [map_assetId_bumpCat]
    by_cases hmem : cat.asset ∈ cats.map CatRecord.assetId
    · rwa [if_pos hmem]
    · rw [if_neg hmem]
      refine List.nodup_append.mpr ⟨h, List.nodup_singleton _, ?_⟩
      rintro x hx y hy rfl
      obtain rfl : x = cat.asset := List.mem_singleton.mp hy
      exact hmem hx

end Records

/-! ## One spend -/

/-- The balance stored under an asset id. -/
def WalletState.storedCat (state : WalletState) (assetId : AssetId) : Option UInt64 :=
  (state.cats.get? assetId.text).map fun record => record.balance.mojos

theorem storedCat_upsertCat (state : WalletState) (record : CatRecord) (assetId : AssetId) :
    (state.upsertCat record).storedCat assetId =
      if record.assetId = assetId then some record.balance.mojos else state.storedCat assetId := by
  show ((state.cats.put record.assetId.text record).get? assetId.text).map _ = _
  rw [Table.get?_put]
  by_cases h : record.assetId = assetId
  · rw [if_pos h, h, if_pos rfl]
    rfl
  · have hne : ¬ record.assetId.text = assetId.text := by
      intro htext
      exact h (congrArg AssetId.mk htext)
    rw [if_neg h, if_neg hne]
    rfl

theorem storedCat_foldl_upsertCat {cats : List CatRecord} (state : WalletState)
    (assetId : AssetId) (h : (cats.map CatRecord.assetId).Nodup) :
    (cats.foldl WalletState.upsertCat state).storedCat assetId =
      (balanceIn cats assetId).or (state.storedCat assetId) := by
  induction cats generalizing state with
  | nil => rfl
  | cons record cats ih =>
    rw [List.map_cons, List.nodup_cons] at h
    rw [List.foldl_cons, ih _ h.2, storedCat_upsertCat, balanceIn_cons]
    by_cases hid : record.assetId = assetId
    · have hnone : balanceIn cats assetId = none := by
        unfold balanceIn
        rw [Option.map_eq_none_iff, List.find?_eq_none]
        intro other hother hsame
        have hasset := (of_decide_eq_true hsame).trans hid.symm
        exact h.1 (hasset ▸ List.mem_map_of_mem hother)
      rw [if_pos hid, if_pos hid, hnone]
      rfl
    · rw [if_neg hid, if_neg hid]

section Spend

variable (sdk : Sdk) (drivers : AssetDrivers) (overflowChecks : Bool)

/-- The children the CAT driver finds, if any. -/
def catChildren (parent : CoinSpend) (puzzle : Puzzle) (solution : Node) : List ChildCat :=
  match drivers.catParseChildren parent.coin puzzle solution with
  | .ok (some children) => children
  | _ => []

/-- The CAT coins a spend creates, if the reconstruction reaches them. -/
def createdCats (spend : CoinSpend) : List ChildCat :=
  match sdk.nodeFromBytes spend.puzzleReveal, sdk.nodeFromBytes spend.solution,
      oddChildren sdk drivers spend with
  | .ok puzzle, .ok solution, .ok _ => catChildren drivers spend (sdk.parsePuzzle puzzle) solution
  | _, _, _ => []

theorem cats_hydrateNft (parent : CoinSpend) (puzzle : Puzzle) (solution : Node)
    (out : HydratedSingletons) : (hydrateNft drivers parent puzzle solution out).cats = out.cats := by
  unfold hydrateNft
  split <;> rfl

theorem cats_foldl_hydrateDid (parent : CoinSpend) (children : List Coin) (out : HydratedSingletons) :
    (children.foldl (hydrateDid drivers parent) out).cats = out.cats := by
  induction children generalizing out with
  | nil => rfl
  | cons child children ih =>
    rw [List.foldl_cons, ih]
    unfold hydrateDid
    split <;> rfl

theorem hydrateCats_eq_some {parent : CoinSpend} {puzzle : Puzzle} {solution : Node}
    {out hydrated : HydratedSingletons} (hout : out.cats = [])
    (h : hydrateCats drivers overflowChecks parent puzzle solution out = some hydrated) :
    hydrated.cats = bumpAll (catChildren drivers parent puzzle solution) [] ∧
      SumsFit overflowChecks [] (catChildren drivers parent puzzle solution) := by
  have hnil : SumsFit overflowChecks [] [] := by
    intro _ assetId
    exact Nat.two_pow_pos 64
  unfold hydrateCats at h
  unfold catChildren
  cases hparse : drivers.catParseChildren parent.coin puzzle solution with
  | error e =>
    rw [hparse] at h
    obtain rfl := Option.some.inj h
    exact ⟨hout, hnil⟩
  | ok found =>
    rw [hparse] at h
    cases found with
    | none =>
      obtain rfl := Option.some.inj h
      exact ⟨hout, hnil⟩
    | some children =>
      obtain ⟨cats, hcats, h⟩ := Option.bind_eq_some_iff.mp h
      obtain rfl := Option.some.inj h
      rw [hout, foldlM_addCat_eq_some] at hcats
      exact hcats

theorem hydrateCats_eq_none {parent : CoinSpend} {puzzle : Puzzle} {solution : Node}
    {out : HydratedSingletons} (hout : out.cats = [])
    (h : hydrateCats drivers overflowChecks parent puzzle solution out = none) :
    ¬ SumsFit overflowChecks [] (catChildren drivers parent puzzle solution) := by
  unfold hydrateCats at h
  unfold catChildren
  cases hparse : drivers.catParseChildren parent.coin puzzle solution with
  | error e =>
    rw [hparse] at h
    cases h
  | ok found =>
    rw [hparse] at h
    cases found with
    | none => cases h
    | some children =>
      intro hfits
      have hsome := (foldlM_addCat_eq_some children [] (bumpAll children [])).mpr ⟨rfl, hfits⟩
      rw [hout] at h
      obtain hnone := (Option.bind_eq_none_iff.mp h) _ hsome
      cases hnone

/-- The CAT records of a reconstruction: it fails before them, panics on them, or has them. -/
theorem reconstruct_cases (spend : CoinSpend) :
    (∃ e, reconstructFromParentSpend sdk drivers overflowChecks spend = .error e ∧
      createdCats sdk drivers spend = []) ∨
    (reconstructFromParentSpend sdk drivers overflowChecks spend = .ok none ∧
      ¬ SumsFit overflowChecks [] (createdCats sdk drivers spend)) ∨
    ∃ hydrated, reconstructFromParentSpend sdk drivers overflowChecks spend = .ok (some hydrated) ∧
      hydrated.cats = bumpAll (createdCats sdk drivers spend) [] ∧
        SumsFit overflowChecks [] (createdCats sdk drivers spend) := by
  unfold reconstructFromParentSpend createdCats hydrateDids
  cases hpuzzle : sdk.nodeFromBytes spend.puzzleReveal with
  | error e => exact .inl ⟨_, rfl, rfl⟩
  | ok puzzle =>
    cases hsolution : sdk.nodeFromBytes spend.solution with
    | error e => exact .inl ⟨_, rfl, rfl⟩
    | ok solution =>
      cases hodd : oddChildren sdk drivers spend with
      | error e => exact .inl ⟨e, rfl, rfl⟩
      | ok children =>
        set out := children.foldl (hydrateDid drivers spend)
          (hydrateNft drivers spend (sdk.parsePuzzle puzzle) solution ⟨[], [], [], 0⟩) with hdefine
        have hout : out.cats = [] := by
          rw [hdefine, cats_foldl_hydrateDid, cats_hydrateNft]
        cases hcats : hydrateCats drivers overflowChecks spend (sdk.parsePuzzle puzzle) solution
            out with
        | none =>
          refine .inr (.inl ⟨?_, hydrateCats_eq_none drivers overflowChecks hout hcats⟩)
          exact congrArg Except.ok hcats
        | some hydrated =>
          refine .inr (.inr ⟨hydrated, ?_, hydrateCats_eq_some drivers overflowChecks hout hcats⟩)
          exact congrArg Except.ok hcats

theorem storedCat_absorb (state : WalletState) {hydrated : HydratedSingletons}
    {children : List ChildCat} (h : hydrated.cats = bumpAll children []) (assetId : AssetId) :
    (state.absorb hydrated).storedCat assetId =
      if coinsOf assetId children = [] then state.storedCat assetId
      else some (UInt64.ofNat (total (amounts (coinsOf assetId children)))) := by
  have hdids : ∀ (dids : List DidRecord) (state : WalletState),
      (dids.foldl WalletState.upsertDid state).cats = state.cats := by
    intro dids
    induction dids with
    | nil => exact fun _ => rfl
    | cons did dids ih => exact fun state => ih (state.upsertDid did)
  have hnfts : ∀ (nfts : List NftRecord) (state : WalletState),
      (nfts.foldl WalletState.upsertNft state).cats = state.cats := by
    intro nfts
    induction nfts with
    | nil => exact fun _ => rfl
    | cons nft nfts ih => exact fun state => ih (state.upsertNft nft)
  have hnodup : ((bumpAll children []).map CatRecord.assetId).Nodup :=
    nodup_bumpAll children List.nodup_nil
  unfold WalletState.absorb
  rw [h, storedCat_foldl_upsertCat _ _ hnodup, balanceIn_bumpAll]
  by_cases hnil : coinsOf assetId children = []
  · rw [if_pos hnil, if_pos hnil]
    unfold WalletState.storedCat
    rw [hnfts, hdids]
    rfl
  · rw [if_neg hnil, if_neg hnil]
    show some (UInt64.ofNat (0 + _)) = _
    rw [Nat.zero_add]

theorem storedCat_indexSpendHints (sync : WalletState × SpendSyncOutcome) (spend : CoinSpend)
    (assetId : AssetId) :
    (indexSpendHints sdk drivers sync spend).1.storedCat assetId = sync.1.storedCat assetId := by
  unfold indexSpendHints
  split <;> rfl

/-- The stored balance after one more spend: replaced if the spend creates the asset. -/
def storedAfter (assetId : AssetId) (stored : Option UInt64) (spend : CoinSpend) : Option UInt64 :=
  if coinsOf assetId (createdCats sdk drivers spend) = [] then stored
  else some (UInt64.ofNat (total (amounts (coinsOf assetId (createdCats sdk drivers spend)))))

/-- A spend is processed when its totals fit, and replaces the balances of the assets it creates. -/
theorem syncSpend_cases (sync : WalletState × SpendSyncOutcome) (spend : CoinSpend) :
    (syncSpend sdk drivers overflowChecks sync spend = none ∧
      ¬ SumsFit overflowChecks [] (createdCats sdk drivers spend)) ∨
    ∃ next, syncSpend sdk drivers overflowChecks sync spend = some next ∧
      SumsFit overflowChecks [] (createdCats sdk drivers spend) ∧
      ∀ assetId, next.1.storedCat assetId =
        storedAfter sdk drivers assetId (sync.1.storedCat assetId) spend := by
  unfold syncSpend
  rcases reconstruct_cases sdk drivers overflowChecks spend with
    ⟨e, hreconstruct, hnone⟩ | ⟨hreconstruct, hover⟩ | ⟨hydrated, hreconstruct, hcats, hfits⟩
  · refine .inr ⟨_, by rw [hreconstruct], ?_, ?_⟩
    · intro _ assetId
      rw [hnone]
      exact Nat.two_pow_pos 64
    · intro assetId
      unfold storedAfter
      rw [hnone, if_pos (by rfl)]
      exact storedCat_indexSpendHints sdk drivers sync spend assetId
  · exact .inl ⟨by rw [hreconstruct]; rfl, hover⟩
  · refine .inr ⟨_, by rw [hreconstruct]; rfl, hfits, ?_⟩
    intro assetId
    unfold storedAfter
    rw [← storedCat_indexSpendHints sdk drivers sync spend assetId]
    exact storedCat_absorb _ hcats assetId

end Spend

/-! ## Runs -/

section Runs

variable (sdk : Sdk) (drivers : AssetDrivers) (overflowChecks : Bool)

theorem foldlM_syncSpend_cases (spends : List CoinSpend) (sync : WalletState × SpendSyncOutcome) :
    (spends.foldlM (syncSpend sdk drivers overflowChecks) sync = none ∧
      ¬ ∀ spend ∈ spends, SumsFit overflowChecks [] (createdCats sdk drivers spend)) ∨
    ∃ next, spends.foldlM (syncSpend sdk drivers overflowChecks) sync = some next ∧
      (∀ spend ∈ spends, SumsFit overflowChecks [] (createdCats sdk drivers spend)) ∧
      ∀ assetId, next.1.storedCat assetId =
        spends.foldl (storedAfter sdk drivers assetId) (sync.1.storedCat assetId) := by
  induction spends generalizing sync with
  | nil => exact .inr ⟨sync, rfl, List.forall_mem_nil _, fun _ => rfl⟩
  | cons spend spends ih =>
    rw [List.foldlM_cons]
    rcases syncSpend_cases sdk drivers overflowChecks sync spend with
      ⟨hnone, hover⟩ | ⟨middle, hmiddle, hfits, hstored⟩
    · rw [hnone]
      exact .inl ⟨rfl, fun hall => hover (hall spend List.mem_cons_self)⟩
    · rw [hmiddle]
      rcases ih middle with ⟨hnone, hover⟩ | ⟨next, hnext, hfits', hstored'⟩
      · exact .inl ⟨hnone, fun hall => hover fun s hs => hall s (List.mem_cons_of_mem _ hs)⟩
      · refine .inr ⟨next, hnext, List.forall_mem_cons.mpr ⟨hfits, hfits'⟩, ?_⟩
        intro assetId
        rw [hstored', hstored]
        rfl

/-- The calls of `sync_spends_from_peer`, with what the peer answers to each. -/
def syncAllSpends (w : WalletId) (engine : SyncEngine)
    (answers : List (WalletResult (List CoinSpend))) : Option SyncEngine :=
  answers.foldlM (fun engine answer =>
    (engine.syncSpendsFromPeer sdk drivers overflowChecks w answer).map Prod.fst) engine

/-- The spends of one answer. -/
def answered : WalletResult (List CoinSpend) → List CoinSpend
  | .ok spends => spends
  | .error _ => []

/-- The processed spends, in order. -/
def processed (answers : List (WalletResult (List CoinSpend))) : List CoinSpend :=
  answers.flatMap answered

theorem syncSpendsFromPeer_ok (w : WalletId) (engine : SyncEngine) (spends : List CoinSpend) :
    engine.syncSpendsFromPeer sdk drivers overflowChecks w (.ok spends) =
      (spends.foldlM (syncSpend sdk drivers overflowChecks)
        (engine.wallet w, ⟨spends.length, 0, 0, 0⟩)).map fun out =>
          (engine.setWallet w out.1, .ok out.2) := by
  unfold SyncEngine.syncSpendsFromPeer
  dsimp only
  cases spends.foldlM (syncSpend sdk drivers overflowChecks)
    (engine.wallet w, ⟨spends.length, 0, 0, 0⟩) <;> rfl

theorem syncSpendsFromPeer_cases (w : WalletId) (engine : SyncEngine)
    (answer : WalletResult (List CoinSpend)) :
    (engine.syncSpendsFromPeer sdk drivers overflowChecks w answer = none ∧
      ¬ ∀ spend ∈ answered answer, SumsFit overflowChecks [] (createdCats sdk drivers spend)) ∨
    ∃ out, engine.syncSpendsFromPeer sdk drivers overflowChecks w answer = some out ∧
      (∀ spend ∈ answered answer, SumsFit overflowChecks [] (createdCats sdk drivers spend)) ∧
      ∀ assetId, (out.1.wallet w).storedCat assetId =
        (answered answer).foldl (storedAfter sdk drivers assetId)
          ((engine.wallet w).storedCat assetId) := by
  cases answer with
  | error e => exact .inr ⟨_, rfl, List.forall_mem_nil _, fun _ => rfl⟩
  | ok spends =>
    rw [syncSpendsFromPeer_ok]
    rcases foldlM_syncSpend_cases sdk drivers overflowChecks spends
      (engine.wallet w, ⟨spends.length, 0, 0, 0⟩) with ⟨hnone, hover⟩ | ⟨next, hnext, hfits, hstored⟩
    · exact .inl ⟨by rw [hnone]; rfl, hover⟩
    · refine .inr ⟨_, by rw [hnext]; rfl, hfits, ?_⟩
      intro assetId
      rw [wallet_setWallet_self]
      exact hstored assetId

theorem syncAllSpends_cases (w : WalletId) (engine : SyncEngine)
    (answers : List (WalletResult (List CoinSpend))) :
    (syncAllSpends sdk drivers overflowChecks w engine answers = none ∧
      ¬ ∀ spend ∈ processed answers, SumsFit overflowChecks [] (createdCats sdk drivers spend)) ∨
    ∃ next, syncAllSpends sdk drivers overflowChecks w engine answers = some next ∧
      (∀ spend ∈ processed answers, SumsFit overflowChecks [] (createdCats sdk drivers spend)) ∧
      ∀ assetId, (next.wallet w).storedCat assetId =
        (processed answers).foldl (storedAfter sdk drivers assetId)
          ((engine.wallet w).storedCat assetId) := by
  induction answers generalizing engine with
  | nil => exact .inr ⟨engine, rfl, List.forall_mem_nil _, fun _ => rfl⟩
  | cons answer answers ih =>
    unfold syncAllSpends processed
    rw [List.foldlM_cons, List.flatMap_cons]
    rcases syncSpendsFromPeer_cases sdk drivers overflowChecks w engine answer with
      ⟨hnone, hover⟩ | ⟨out, hout, hfits, hstored⟩
    · rw [hnone]
      refine .inl ⟨rfl, fun hall => hover fun spend hspend => ?_⟩
      exact hall spend (List.mem_append_left _ hspend)
    · rw [hout]
      rcases ih out.1 with ⟨hnone, hover⟩ | ⟨next, hnext, hfits', hstored'⟩
      · refine .inl ⟨hnone, fun hall => hover fun spend hspend => ?_⟩
        exact hall spend (List.mem_append_right _ hspend)
      · refine .inr ⟨next, hnext, List.forall_mem_append.mpr ⟨hfits, hfits'⟩, ?_⟩
        intro assetId
        rw [hstored', hstored, List.foldl_append]
        rfl

/-! ## What the wallet holds -/

/-- The wallet's coins of the asset that a spend created and none consumed. -/
def heldCoins (tracked : List Puzzlehash) (spends : List CoinSpend) (assetId : AssetId) :
    Finset Coin :=
  ((coinsOf assetId ((spends.flatMap (createdCats sdk drivers)).filter fun cat =>
    (⟨hexEncode cat.p2PuzzleHash.bytes⟩ : Puzzlehash) ∈ tracked)).toFinset).filter fun coin =>
      coin ∉ spends.map CoinSpend.coin

/-- The stored balance of every asset, 0 without a record, is what the wallet holds of it. -/
def BalancesFollow (tracked : List Puzzlehash) (spends : List CoinSpend) (state : WalletState) : Prop :=
  ∀ assetId, ((state.storedCat assetId).getD 0).toNat =
    ∑ coin ∈ heldCoins sdk drivers tracked spends assetId, coin.amount.toNat

/-- The coins of the asset a spend creates, in place of those of the last one, if there are any. -/
def latest (assetId : AssetId) (last : List Coin) (spend : CoinSpend) : List Coin :=
  if coinsOf assetId (createdCats sdk drivers spend) = [] then last
  else coinsOf assetId (createdCats sdk drivers spend)

/-- The coins of the asset which the last spend that creates any creates. -/
def lastCoins (spends : List CoinSpend) (assetId : AssetId) : List Coin :=
  spends.foldl (latest sdk drivers assetId) []

variable (spends : List CoinSpend) (assetId : AssetId)

/-- What is stored when `last` are the coins last created. -/
def storedOf (last : List Coin) : Option UInt64 :=
  if last = [] then none else some (UInt64.ofNat (total (amounts last)))

theorem storedAfter_storedOf (last : List Coin) (spend : CoinSpend) :
    storedAfter sdk drivers assetId (storedOf last) spend =
      storedOf (latest sdk drivers assetId last spend) := by
  unfold storedAfter latest
  by_cases hnil : coinsOf assetId (createdCats sdk drivers spend) = []
  · rw [if_pos hnil, if_pos hnil]
  · rw [if_neg hnil, if_neg hnil]
    exact (if_neg hnil).symm

theorem foldl_storedAfter (last : List Coin) :
    spends.foldl (storedAfter sdk drivers assetId) (storedOf last) =
      storedOf (spends.foldl (latest sdk drivers assetId) last) := by
  induction spends generalizing last with
  | nil => rfl
  | cons spend spends ih =>
    rw [List.foldl_cons, List.foldl_cons, storedAfter_storedOf, ih]

/-- The stored balance is what the last spend of the asset created, up to wrap-around. -/
theorem toNat_foldl_storedAfter :
    ((spends.foldl (storedAfter sdk drivers assetId) none).getD 0).toNat =
      total (amounts (lastCoins sdk drivers spends assetId)) % 2 ^ 64 := by
  have hfold : spends.foldl (storedAfter sdk drivers assetId) none =
      storedOf (lastCoins sdk drivers spends assetId) := foldl_storedAfter sdk drivers spends assetId []
  rw [hfold]
  unfold storedOf
  by_cases hnil : lastCoins sdk drivers spends assetId = []
  · rw [if_pos hnil, hnil]
    rfl
  · rw [if_neg hnil, Option.getD_some, UInt64.toNat_ofNat']

/-! ## Spends that keep the balances -/

variable (tracked : List Puzzlehash)

/-- The spend's coins of the asset are, each once, all that the wallet then holds of it. -/
structure Gathers (before : List CoinSpend) (spend : CoinSpend) : Prop where
  nodup : (coinsOf assetId (createdCats sdk drivers spend)).Nodup
  fits : total (amounts (coinsOf assetId (createdCats sdk drivers spend))) < 2 ^ 64
  own : ∀ cat ∈ createdCats sdk drivers spend, cat.asset = assetId →
    (⟨hexEncode cat.p2PuzzleHash.bytes⟩ : Puzzlehash) ∈ tracked
  unspent : ∀ coin ∈ coinsOf assetId (createdCats sdk drivers spend),
    coin ∉ (before ++ [spend]).map CoinSpend.coin
  all : ∀ coin ∈ heldCoins sdk drivers tracked before assetId,
    coin = spend.coin ∨ coin ∈ coinsOf assetId (createdCats sdk drivers spend)

instance (before : List CoinSpend) (spend : CoinSpend) :
    Decidable (Gathers sdk drivers assetId tracked before spend) :=
  decidable_of_iff ((coinsOf assetId (createdCats sdk drivers spend)).Nodup ∧
      total (amounts (coinsOf assetId (createdCats sdk drivers spend))) < 2 ^ 64 ∧
      (∀ cat ∈ createdCats sdk drivers spend, cat.asset = assetId →
        (⟨hexEncode cat.p2PuzzleHash.bytes⟩ : Puzzlehash) ∈ tracked) ∧
      (∀ coin ∈ coinsOf assetId (createdCats sdk drivers spend),
        coin ∉ (before ++ [spend]).map CoinSpend.coin) ∧
      ∀ coin ∈ heldCoins sdk drivers tracked before assetId,
        coin = spend.coin ∨ coin ∈ coinsOf assetId (createdCats sdk drivers spend))
    ⟨fun ⟨hnodup, hfits, hown, hunspent, hall⟩ => ⟨hnodup, hfits, hown, hunspent, hall⟩,
      fun h => ⟨h.nodup, h.fits, h.own, h.unspent, h.all⟩⟩

/-- A spend of the asset gathers all of it, any other leaves the wallet's coins of it alone. -/
def KeepsBalance (before : List CoinSpend) (spend : CoinSpend) : Prop :=
  if coinsOf assetId (createdCats sdk drivers spend) = [] then
    spend.coin ∉ heldCoins sdk drivers tracked before assetId
  else Gathers sdk drivers assetId tracked before spend

instance (before : List CoinSpend) (spend : CoinSpend) :
    Decidable (KeepsBalance sdk drivers assetId tracked before spend) :=
  inferInstanceAs (Decidable (if coinsOf assetId (createdCats sdk drivers spend) = [] then
    spend.coin ∉ heldCoins sdk drivers tracked before assetId
  else Gathers sdk drivers assetId tracked before spend))

variable {sdk drivers tracked} {assetId} {spends}

theorem mem_heldCoins {coin : Coin} : coin ∈ heldCoins sdk drivers tracked spends assetId ↔
    (∃ spend ∈ spends, ∃ cat ∈ createdCats sdk drivers spend, cat.asset = assetId ∧
      (⟨hexEncode cat.p2PuzzleHash.bytes⟩ : Puzzlehash) ∈ tracked ∧ cat.coin = coin) ∧
    coin ∉ spends.map CoinSpend.coin := by
  unfold heldCoins coinsOf
  simp only [Finset.mem_filter, List.mem_toFinset, List.mem_map, List.mem_filter, List.mem_flatMap,
    decide_eq_true_eq]
  refine and_congr_left fun _ => ?_
  constructor
  · rintro ⟨cat, ⟨⟨⟨spend, hspend, hcat⟩, hown⟩, hasset⟩, hcoin⟩
    exact ⟨spend, hspend, cat, hcat, hasset, hown, hcoin⟩
  · rintro ⟨spend, hspend, cat, hcat, hasset, hown, hcoin⟩
    exact ⟨cat, ⟨⟨⟨spend, hspend, hcat⟩, hown⟩, hasset⟩, hcoin⟩

theorem mem_coinsOf {children : List ChildCat} {coin : Coin} :
    coin ∈ coinsOf assetId children ↔ ∃ cat ∈ children, cat.asset = assetId ∧ cat.coin = coin := by
  unfold coinsOf
  simp only [List.mem_map, List.mem_filter, decide_eq_true_eq, and_assoc]

/-- A spend that creates none of the asset and spends none the wallet holds changes nothing. -/
theorem heldCoins_of_untouched {before : List CoinSpend} {spend : CoinSpend}
    (hnone : coinsOf assetId (createdCats sdk drivers spend) = [])
    (huntouched : spend.coin ∉ heldCoins sdk drivers tracked before assetId) :
    heldCoins sdk drivers tracked (before ++ [spend]) assetId =
      heldCoins sdk drivers tracked before assetId := by
  ext coin
  rw [mem_heldCoins, mem_heldCoins]
  simp only [List.map_append, List.map_cons, List.map_nil, List.mem_append, List.mem_singleton,
    not_or]
  constructor
  · rintro ⟨⟨other, hother, cat, hcat, hasset, hown, hcoin⟩, hunspent, -⟩
    rcases hother with hother | rfl
    · exact ⟨⟨other, hother, cat, hcat, hasset, hown, hcoin⟩, hunspent⟩
    · have hmem : coin ∈ coinsOf assetId (createdCats sdk drivers other) :=
        mem_coinsOf.mpr ⟨cat, hcat, hasset, hcoin⟩
      rw [hnone] at hmem
      cases hmem
  · rintro ⟨⟨other, hother, cat, hcat, hasset, hown, hcoin⟩, hunspent⟩
    refine ⟨⟨other, .inl hother, cat, hcat, hasset, hown, hcoin⟩, hunspent, ?_⟩
    rintro rfl
    exact huntouched (mem_heldCoins.mpr ⟨⟨other, hother, cat, hcat, hasset, hown, hcoin⟩, hunspent⟩)

/-- After a spend that gathers the asset the wallet holds what it creates. -/
theorem Gathers.heldCoins_eq {before : List CoinSpend} {spend : CoinSpend}
    (h : Gathers sdk drivers assetId tracked before spend) :
    heldCoins sdk drivers tracked (before ++ [spend]) assetId =
      (coinsOf assetId (createdCats sdk drivers spend)).toFinset := by
  ext coin
  rw [mem_heldCoins, List.mem_toFinset]
  constructor
  · rintro ⟨⟨other, hother, cat, hcat, hasset, hown, hcoin⟩, hunspent⟩
    rcases List.mem_append.mp hother with hother | hother
    · rw [List.map_append, List.mem_append, not_or] at hunspent
      have hheld : coin ∈ heldCoins sdk drivers tracked before assetId :=
        mem_heldCoins.mpr ⟨⟨other, hother, cat, hcat, hasset, hown, hcoin⟩, hunspent.1⟩
      refine (h.all coin hheld).resolve_left ?_
      intro hspent
      exact hunspent.2 (List.mem_singleton.mpr hspent)
    · obtain rfl := List.mem_singleton.mp hother
      exact mem_coinsOf.mpr ⟨cat, hcat, hasset, hcoin⟩
  · intro hmem
    refine ⟨?_, h.unspent coin hmem⟩
    obtain ⟨cat, hcat, hasset, hcoin⟩ := mem_coinsOf.mp hmem
    exact ⟨spend, by simp, cat, hcat, hasset, h.own cat hcat hasset, hcoin⟩

/-- The coins last created are, each once, what the wallet holds. -/
structure LastHeld (sdk : Sdk) (drivers : AssetDrivers) (tracked : List Puzzlehash)
    (spends : List CoinSpend) (assetId : AssetId) : Prop where
  nodup : (lastCoins sdk drivers spends assetId).Nodup
  fits : total (amounts (lastCoins sdk drivers spends assetId)) < 2 ^ 64
  held : heldCoins sdk drivers tracked spends assetId =
    (lastCoins sdk drivers spends assetId).toFinset

theorem LastHeld.step {before : List CoinSpend} {spend : CoinSpend}
    (h : LastHeld sdk drivers tracked before assetId)
    (hkeeps : KeepsBalance sdk drivers assetId tracked before spend) :
    LastHeld sdk drivers tracked (before ++ [spend]) assetId := by
  have hlast : lastCoins sdk drivers (before ++ [spend]) assetId =
      latest sdk drivers assetId (lastCoins sdk drivers before assetId) spend := by
    rw [lastCoins, List.foldl_concat]
    rfl
  unfold KeepsBalance at hkeeps
  unfold latest at hlast
  by_cases hnone : coinsOf assetId (createdCats sdk drivers spend) = []
  · rw [if_pos hnone] at hkeeps hlast
    refine ⟨hlast ▸ h.nodup, hlast ▸ h.fits, ?_⟩
    rw [hlast, heldCoins_of_untouched hnone hkeeps, h.held]
  · rw [if_neg hnone] at hkeeps hlast
    exact ⟨hlast ▸ hkeeps.nodup, hlast ▸ hkeeps.fits, hlast ▸ hkeeps.heldCoins_eq⟩

theorem lastHeld_run
    (h : ∀ before spend, before ++ [spend] <+: spends →
      KeepsBalance sdk drivers assetId tracked before spend) :
    LastHeld sdk drivers tracked spends assetId := by
  induction spends using List.reverseRecOn with
  | nil => exact ⟨List.nodup_nil, Nat.two_pow_pos 64, rfl⟩
  | append_singleton spends spend ih =>
    obtain ⟨hbefore, hlast⟩ := forall_prefix_concat.mp h
    exact (ih hbefore).step hlast

theorem LastHeld.total_eq (h : LastHeld sdk drivers tracked spends assetId) :
    total (amounts (lastCoins sdk drivers spends assetId)) =
      ∑ coin ∈ heldCoins sdk drivers tracked spends assetId, coin.amount.toNat := by
  rw [h.held, List.sum_toFinset _ h.nodup, amounts, total, List.map_map]
  rfl

/-- No total of a run that keeps the balances overflows. -/
theorem sumsFit_of_keeps (overflowChecks : Bool)
    (h : ∀ before spend, before ++ [spend] <+: spends → ∀ assetId,
      KeepsBalance sdk drivers assetId tracked before spend) :
    ∀ spend ∈ spends, SumsFit overflowChecks [] (createdCats sdk drivers spend) := by
  intro spend hspend _ assetId
  obtain ⟨before, after, rfl⟩ := List.append_of_mem hspend
  have hkeeps := h before spend ⟨after, by simp⟩ assetId
  show 0 + total (amounts (coinsOf assetId (createdCats sdk drivers spend))) < 2 ^ 64
  rw [Nat.zero_add]
  unfold KeepsBalance at hkeeps
  by_cases hnone : coinsOf assetId (createdCats sdk drivers spend) = []
  · rw [hnone]
    exact Nat.two_pow_pos 64
  · rw [if_neg hnone] at hkeeps
    exact hkeeps.fits

variable (sdk drivers tracked)

/-- **CAT balances.**  In a run of calls on a new wallet whose spends all keep the balances, the stored
balances are at every point what the wallet holds. -/
theorem cat_balances_follow (w : WalletId) (answers : List (WalletResult (List CoinSpend)))
    (h : ∀ before spend, before ++ [spend] <+: processed answers → ∀ assetId,
      KeepsBalance sdk drivers assetId tracked before spend) :
    ∀ calls, calls <+: answers →
      ∃ engine, syncAllSpends sdk drivers overflowChecks w .new calls = some engine ∧
        BalancesFollow sdk drivers tracked (processed calls) (engine.wallet w) := by
  intro calls hcalls
  have hprefix : processed calls <+: processed answers := by
    obtain ⟨rest, rfl⟩ := hcalls
    exact ⟨processed rest, List.flatMap_append.symm⟩
  have hkeeps : ∀ before spend, before ++ [spend] <+: processed calls → ∀ assetId,
      KeepsBalance sdk drivers assetId tracked before spend :=
    fun before spend hbefore => h before spend (hbefore.trans hprefix)
  rcases syncAllSpends_cases sdk drivers overflowChecks w .new calls with
    ⟨-, hover⟩ | ⟨engine, hengine, -, hstored⟩
  · exact absurd (sumsFit_of_keeps overflowChecks hkeeps) hover
  · refine ⟨engine, hengine, fun assetId => ?_⟩
    have hlast := lastHeld_run fun before spend hbefore => hkeeps before spend hbefore assetId
    rw [hstored, ← hlast.total_eq, ← Nat.mod_eq_of_lt hlast.fits]
    exact toNat_foldl_storedAfter sdk drivers (processed calls) assetId

/-- Only the assets created so far matter. -/
theorem keepsBalance_of_created {before : List CoinSpend} {spend : CoinSpend}
    (h : ∀ assetId ∈ ((before ++ [spend]).flatMap (createdCats sdk drivers)).map ChildCat.asset,
      KeepsBalance sdk drivers assetId tracked before spend) (assetId : AssetId) :
    KeepsBalance sdk drivers assetId tracked before spend := by
  by_cases hmem : assetId ∈
      ((before ++ [spend]).flatMap (createdCats sdk drivers)).map ChildCat.asset
  · exact h assetId hmem
  · have hother : ∀ other ∈ before ++ [spend], ∀ cat ∈ createdCats sdk drivers other,
        cat.asset ≠ assetId := by
      rintro other hother cat hcat rfl
      exact hmem (List.mem_map_of_mem (List.mem_flatMap.mpr ⟨other, hother, hcat⟩))
    have hnone : coinsOf assetId (createdCats sdk drivers spend) = [] := by
      rw [List.eq_nil_iff_forall_not_mem]
      intro coin hcoin
      obtain ⟨cat, hcat, hasset, -⟩ := mem_coinsOf.mp hcoin
      exact hother spend (by simp) cat hcat hasset
    rw [KeepsBalance, if_pos hnone]
    intro hheld
    obtain ⟨⟨other, hmem, cat, hcat, hasset, -⟩, -⟩ := mem_heldCoins.mp hheld
    exact hother other (List.mem_append_left _ hmem) cat hcat hasset

end Runs

section Witness

open Sim

def ownHash : List Puzzlehash := [⟨hexEncode home.bytes⟩]

/-- A CAT of eight comes home, is split there into five and three, and the split is delivered again. -/
def receivedCat : CoinSpend := catToHome (.rep 0x11) (.rep 0xaa) 8

def splitCat : CoinSpend := catSplitHome (coinId receivedCat.coin) (.rep 0xaa) 8 [5, 3]

def splitCalls : List (WalletResult (List CoinSpend)) :=
  [.ok [receivedCat], .error ⟨.transport, "no peer"⟩, .ok [splitCat], .ok [splitCat]]

theorem cat_balances_follow_split : ∃ engine,
    syncAllSpends sim drivers true ⟨7⟩ .new splitCalls = some engine ∧
      BalancesFollow sim drivers ownHash (processed splitCalls) (engine.wallet ⟨7⟩) := by
  refine cat_balances_follow sim drivers true ownHash ⟨7⟩ splitCalls ?_ splitCalls (List.prefix_refl _)
  have hsteps : ∀ before spend, before ++ [spend] <+: [] ++ [receivedCat] ++ [splitCat] ++ [splitCat] →
      ∀ assetId, KeepsBalance sim drivers assetId ownHash before spend := by
    refine forall_prefix_concat.mpr ⟨forall_prefix_concat.mpr ⟨forall_prefix_concat.mpr ⟨?_, ?_⟩, ?_⟩, ?_⟩
    · intro before spend hprefix
      simp at hprefix
    · exact keepsBalance_of_created sim drivers ownHash (by decide +kernel)
    · exact keepsBalance_of_created sim drivers ownHash (by decide +kernel)
    · exact keepsBalance_of_created sim drivers ownHash (by decide +kernel)
  exact hsteps

/-- Two coins of one asset, five and three, spent to the wallet itself. -/
def twoSpends : List (WalletResult (List CoinSpend)) :=
  [.ok [catToHome (Bytes32.rep 0x11) (Bytes32.rep 0xaa) 5,
    catToHome (Bytes32.rep 0x12) (Bytes32.rep 0xaa) 3]]

/-- The second spend's three replace the first one's five; the wallet holds eight. -/
theorem later_spend_replaces_balance : ¬ ∃ engine,
    syncAllSpends sim drivers false ⟨7⟩ .new twoSpends = some engine ∧
      BalancesFollow sim drivers ownHash (processed twoSpends)
        (engine.wallet ⟨7⟩) := by
  rintro ⟨engine, hengine, hfollow⟩
  have hstored : ∀ engine ∈ syncAllSpends sim drivers false ⟨7⟩ .new twoSpends,
      (engine.wallet ⟨7⟩).storedCat ⟨hexEncode (Bytes32.rep 0xaa).bytes⟩ = some 3 := by
    decide +kernel
  have hheld : ∑ coin ∈ heldCoins sim drivers ownHash
      (processed twoSpends) ⟨hexEncode (Bytes32.rep 0xaa).bytes⟩, coin.amount.toNat = 8 := by
    decide +kernel
  have hasset := hfollow ⟨hexEncode (Bytes32.rep 0xaa).bytes⟩
  rw [hheld, hstored engine (Option.mem_def.mpr hengine)] at hasset
  cases hasset

end Witness

end DigWallet
