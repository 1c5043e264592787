import DigWallet.Verify.Run

/-!
# DigWallet.Verify.Bundle — a bundle as its list of legs

`legs` pairs each coin with its leg.  Each field of `bundleTally` is a sum or a concatenation over
`legs`; the closed forms here are what the bundle-level results reason with.
-/

namespace DigWallet

variable (sdk : Sdk)

/-- The legs of a bundle, each with its coin. -/
def legs (coinSpends : List CoinSpend) : List (Coin × Leg sdk) :=
  coinSpends.filterMap fun spend => (legOf sdk spend).map fun leg => (spend.coin, leg)

variable {sdk} {coinSpends : List CoinSpend}

theorem mem_legs {p : Coin × Leg sdk} : p ∈ legs sdk coinSpends ↔
    ∃ spend ∈ coinSpends, spend.coin = p.1 ∧ legOf sdk spend = some p.2 := by
  unfold legs
  simp only [List.mem_filterMap, Option.map_eq_some_iff]
  constructor
  · rintro ⟨spend, hspend, leg, hleg, rfl⟩
    exact ⟨spend, hspend, rfl, hleg⟩
  · rintro ⟨spend, hspend, hcoin, hleg⟩
    exact ⟨spend, hspend, p.2, hleg, by rw [hcoin]⟩

theorem legs_cons {spend : CoinSpend} {leg : Leg sdk} (h : legOf sdk spend = some leg) :
    legs sdk (spend :: coinSpends) = (spend.coin, leg) :: legs sdk coinSpends := by
  simp [legs, h]

/-- In an accepted bundle each coin spend has a leg. -/
theorem legs_map_fst (hadm : ∀ spend ∈ coinSpends, Admitted sdk spend) :
    (legs sdk coinSpends).map Prod.fst = coinSpends.map CoinSpend.coin := by
  induction coinSpends with
  | nil => rfl
  | cons spend coinSpends ih =>
    obtain ⟨-, leg, hleg, -⟩ := hadm spend (by simp)
    have htail := ih fun s hs => hadm s (by simp [hs])
    rw [legs_cons hleg, List.map_cons, htail, List.map_cons]

theorem legs_admitted (hadm : ∀ spend ∈ coinSpends, Admitted sdk spend) :
    ∀ p ∈ legs sdk coinSpends, p.2.Admitted := by
  intro p hp
  obtain ⟨spend, hspend, -, hleg⟩ := mem_legs.mp hp
  obtain ⟨-, leg, hleg', hadmitted⟩ := hadm spend hspend
  obtain rfl := Option.some.inj (hleg.symm.trans hleg')
  exact hadmitted

theorem sum_tallyOf (coinSpends : List CoinSpend) :
    (coinSpends.map (tallyOf sdk)).sum =
      ((legs sdk coinSpends).map fun p => p.2.tally p.1).sum := by
  induction coinSpends with
  | nil => rfl
  | cons spend coinSpends ih =>
    unfold legs at ih ⊢
    rw [List.map_cons, List.sum_cons, ih]
    cases hleg : legOf sdk spend with
    | none => simp [tallyOf, hleg]
    | some leg => simp [tallyOf, hleg]

/-! ## Amounts -/

/-- The amounts of the coins of one denomination. -/
def amountIn (asset? : Option Bytes32) (legs : List (Coin × Leg sdk)) : ℕ :=
  (legs.map fun p => if p.2.asset? = asset? then p.1.amount.toNat else 0).sum

/-- What one leg creates. -/
def Leg.amountCreated (leg : Leg sdk) : ℕ := (leg.creates.map fun create => create.amount.toNat).sum

/-- The amounts the legs of one denomination create. -/
def amountOut (asset? : Option Bytes32) (legs : List (Coin × Leg sdk)) : ℕ :=
  (legs.map fun p => if p.2.asset? = asset? then p.2.amountCreated else 0).sum

theorem sum_map_split {α : Type} (f : α → ℕ) (P : α → Bool) (l : List α) :
    (l.map f).sum = ((l.filter P).map f).sum + ((l.filter fun a => !P a).map f).sum := by
  induction l with
  | nil => rfl
  | cons a l ih => cases hP : P a <;> simp [hP] <;> omega

/-- Splitting the legs splits the amounts. -/
theorem amountIn_split (asset? : Option Bytes32) (legs : List (Coin × Leg sdk))
    (P : Coin × Leg sdk → Bool) : amountIn asset? legs =
      amountIn asset? (legs.filter P) + amountIn asset? (legs.filter fun p => !P p) :=
  sum_map_split _ P legs

theorem amountOut_split (asset? : Option Bytes32) (legs : List (Coin × Leg sdk))
    (P : Coin × Leg sdk → Bool) : amountOut asset? legs =
      amountOut asset? (legs.filter P) + amountOut asset? (legs.filter fun p => !P p) :=
  sum_map_split _ P legs

/-! ## The fields of one leg's tally -/

section Leg

variable (coin : Coin) (leg : Leg sdk)

/-- The fields no `factsTally` touches. -/
theorem factsTally_value : (leg.factsTally coin).outputs = [] ∧
    (leg.factsTally coin).protocolSink = [] ∧ (leg.factsTally coin).xchIn = 0 ∧
    (leg.factsTally coin).xchOut = 0 ∧ (leg.factsTally coin).catIn = 0 ∧
    (leg.factsTally coin).catOut = 0 ∧ (leg.factsTally coin).spentCoinIds = [] := by
  cases leg <;> exact ⟨rfl, rfl, rfl, rfl, rfl, rfl, rfl⟩

theorem tally_outputs : (leg.tally coin).outputs =
    leg.created.filter fun output => !isProtocolSinkHash sdk output.puzzleHash := by
  simp [Leg.tally, Leg.restTally, Leg.enterTally, createsTally_eq, factsTally_value, Leg.created]

theorem tally_protocolSink : (leg.tally coin).protocolSink =
    leg.created.filter fun output => isProtocolSinkHash sdk output.puzzleHash := by
  simp [Leg.tally, Leg.restTally, Leg.enterTally, createsTally_eq, factsTally_value, Leg.created]

theorem tally_xchIn : (leg.tally coin).xchIn =
    if leg.asset? = none then coin.amount.toNat else 0 := by
  simp [Leg.tally, Leg.restTally, Leg.enterTally, createsTally_eq, factsTally_value]

theorem tally_xchOut : (leg.tally coin).xchOut =
    if leg.asset? = none then leg.amountCreated else 0 := by
  simp [Leg.tally, Leg.restTally, Leg.enterTally, createsTally_eq, factsTally_value,
    Leg.amountCreated]

theorem tally_catIn (asset : Bytes32) : (leg.tally coin).catIn asset =
    if leg.asset? = some asset then coin.amount.toNat else 0 := by
  simp [Leg.tally, Leg.restTally, Leg.enterTally, createsTally_eq, factsTally_value]

theorem tally_catOut (asset : Bytes32) : (leg.tally coin).catOut asset =
    if leg.asset? = some asset then leg.amountCreated else 0 := by
  simp [Leg.tally, Leg.restTally, Leg.enterTally, createsTally_eq, factsTally_value,
    Leg.amountCreated]

/-- The fields only `factsTally` touches are those of `factsTally`. -/
theorem tally_facts : (leg.tally coin).fee = (leg.factsTally coin).fee ∧
    (leg.tally coin).melted = (leg.factsTally coin).melted ∧
    (leg.tally coin).meltedSingletons = (leg.factsTally coin).meltedSingletons ∧
    (leg.tally coin).nftOperations = (leg.factsTally coin).nftOperations ∧
    (leg.tally coin).launcherCoinIds = (leg.factsTally coin).launcherCoinIds ∧
    (leg.tally coin).launcherParents = (leg.factsTally coin).launcherParents ∧
    (leg.tally coin).eveParents = (leg.factsTally coin).eveParents ∧
    (leg.tally coin).launcherAnnouncements = (leg.factsTally coin).launcherAnnouncements ∧
    (leg.tally coin).signedAnnouncementAssertions =
      (leg.factsTally coin).signedAnnouncementAssertions ∧
    (leg.tally coin).bindings = (leg.factsTally coin).bindings ∧
    (leg.tally coin).spentCoinIds = [] := by
  simp [Leg.tally, Leg.restTally, Leg.enterTally, createsTally_eq, factsTally_value]

theorem tally_fee : (leg.tally coin).fee = (leg.factsTally coin).fee := by simp [tally_facts]

theorem tally_melted : (leg.tally coin).melted = (leg.factsTally coin).melted := by
  simp [tally_facts]

theorem tally_meltedSingletons :
    (leg.tally coin).meltedSingletons = (leg.factsTally coin).meltedSingletons := by
  simp [tally_facts]

theorem tally_nftOperations :
    (leg.tally coin).nftOperations = (leg.factsTally coin).nftOperations := by
  simp [tally_facts]

end Leg

/-! ## The fields of the bundle's tally -/

section Bundle

variable (coinSpends)

theorem bundleTally_list {β : Type} (f : Tally → List β) (h0 : f 0 = [])
    (hadd : ∀ a b, f (a + b) = f a ++ f b) (hids : ∀ ids, f { spentCoinIds := ids } = []) :
    f (bundleTally sdk coinSpends) = (legs sdk coinSpends).flatMap fun p => f (p.2.tally p.1) := by
  rw [bundleTally, hadd, hids, sum_tallyOf, Tally.sum_list f h0 hadd, List.flatMap_map,
    List.nil_append]

theorem bundleTally_nat (f : Tally → ℕ) (h0 : f 0 = 0) (hadd : ∀ a b, f (a + b) = f a + f b)
    (hids : ∀ ids, f { spentCoinIds := ids } = 0) :
    f (bundleTally sdk coinSpends) =
      ((legs sdk coinSpends).map fun p => f (p.2.tally p.1)).sum := by
  rw [bundleTally, hadd, hids, sum_tallyOf, Tally.sum_nat f h0 hadd, List.map_map, Nat.zero_add]
  rfl

/-- Every coin the bundle's legs create. -/
def createdBy (legs : List (Coin × Leg sdk)) : List DecodedOutput :=
  legs.flatMap fun p => p.2.created

theorem bundleTally_outputs : (bundleTally sdk coinSpends).outputs =
    (createdBy (legs sdk coinSpends)).filter
      fun output => !isProtocolSinkHash sdk output.puzzleHash := by
  rw [bundleTally_list coinSpends Tally.outputs rfl Tally.add_outputs fun _ => rfl, createdBy,
    List.filter_flatMap]
  simp only [tally_outputs]

theorem bundleTally_protocolSink : (bundleTally sdk coinSpends).protocolSink =
    (createdBy (legs sdk coinSpends)).filter
      fun output => isProtocolSinkHash sdk output.puzzleHash := by
  rw [bundleTally_list coinSpends Tally.protocolSink rfl Tally.add_protocolSink fun _ => rfl,
    createdBy, List.filter_flatMap]
  simp only [tally_protocolSink]

theorem bundleTally_xchIn :
    (bundleTally sdk coinSpends).xchIn = amountIn none (legs sdk coinSpends) := by
  rw [bundleTally_nat coinSpends Tally.xchIn rfl Tally.add_xchIn fun _ => rfl, amountIn]
  simp only [tally_xchIn]

theorem bundleTally_xchOut :
    (bundleTally sdk coinSpends).xchOut = amountOut none (legs sdk coinSpends) := by
  rw [bundleTally_nat coinSpends Tally.xchOut rfl Tally.add_xchOut fun _ => rfl, amountOut]
  simp only [tally_xchOut]

theorem bundleTally_catIn (asset : Bytes32) :
    (bundleTally sdk coinSpends).catIn asset = amountIn (some asset) (legs sdk coinSpends) := by
  rw [bundleTally_nat coinSpends (fun t => t.catIn asset) rfl (fun _ _ => rfl) fun _ => rfl,
    amountIn]
  simp only [tally_catIn]

theorem bundleTally_catOut (asset : Bytes32) :
    (bundleTally sdk coinSpends).catOut asset = amountOut (some asset) (legs sdk coinSpends) := by
  rw [bundleTally_nat coinSpends (fun t => t.catOut asset) rfl (fun _ _ => rfl) fun _ => rfl,
    amountOut]
  simp only [tally_catOut]

theorem bundleTally_spentCoinIds : (bundleTally sdk coinSpends).spentCoinIds =
    coinSpends.map fun spend => sdk.coinId spend.coin := by
  have hzero : ((legs sdk coinSpends).flatMap fun p => (p.2.tally p.1).spentCoinIds) = [] := by
    apply List.flatMap_eq_nil_iff.mpr
    intro p _
    simp [tally_facts]
  rw [bundleTally, Tally.add_spentCoinIds, sum_tallyOf,
    Tally.sum_list Tally.spentCoinIds rfl Tally.add_spentCoinIds, List.flatMap_map, hzero,
    List.append_nil]

/-- The fields of the bundle that only `factsTally` feeds. -/
theorem bundleTally_facts {β : Type} (f : Tally → List β) (h0 : f 0 = [])
    (hadd : ∀ a b, f (a + b) = f a ++ f b) (hids : ∀ ids, f { spentCoinIds := ids } = [])
    (hfacts : ∀ (coin : Coin) (leg : Leg sdk), f (leg.tally coin) = f (leg.factsTally coin)) :
    f (bundleTally sdk coinSpends) =
      (legs sdk coinSpends).flatMap fun p => f (p.2.factsTally p.1) := by
  rw [bundleTally_list coinSpends f h0 hadd hids]
  simp only [hfacts]

theorem flatMap_eq_map_filter {α β : Type} {f : α → List β} {P : α → Bool} {g : α → β}
    (h : ∀ a, f a = if P a then [g a] else []) (l : List α) :
    l.flatMap f = (l.filter P).map g := by
  induction l with
  | nil => rfl
  | cons a l ih =>
    rw [List.flatMap_cons, ih, h, List.filter_cons]
    split_ifs <;> rfl

end Bundle

end DigWallet
