import DigWallet.Lib.Ties
import DigWallet.Verify.Mint
import Mathlib.Data.List.FinRange

/-!
# DigWallet.Verify.Order — the verdict under reordering

Every check of `analyze` but the settlement binding reads the bundle's tally as sums and multisets.
The settlement binding resolves an asserted coin id to the last coin with that id.  `settled_iff`
reads it as a `Ties.Tied` question, and `exists_perm_lastWith` turns any resolution of the repeated ids
into an order of the bundle.
-/

namespace DigWallet

open Ties

/-! ## The settlement binding as ties -/

/-- A coin is tied to an announcement it carries, to the coins of an asserted puzzle hash, and to the
coin an asserted id resolves to. -/
def tieGraph (bindings : List CoinBinding) : Ties.Graph CoinBinding Bytes32 where
  goal b := b.carriesAnnouncement = true
  free a b := b ∈ bindings ∧ b.puzzleHash ∈ a.requiresPuzzleHashes
  asks a coinId := coinId ∈ a.requiresCoinIds
  holds coinId b := b ∈ bindings ∧ b.coinId = coinId

/-- The last coin with an id. -/
def lastWith (bindings : List CoinBinding) (coinId : Bytes32) : Option CoinBinding :=
  (bindings.filter fun b => b.coinId = coinId).getLast?

section Bindings

variable {bindings : List CoinBinding}

theorem resolves_lastWith : Resolves (tieGraph bindings) (lastWith bindings) where
  sound := by
    intro coinId b h
    have hmem := List.mem_filter.mp (List.mem_of_getLast? h)
    exact ⟨hmem.1, of_decide_eq_true hmem.2⟩
  total := by
    rintro coinId b ⟨hb, hid⟩
    have hmem : b ∈ bindings.filter fun b => b.coinId = coinId :=
      List.mem_filter.mpr ⟨hb, decide_eq_true hid⟩
    exact ⟨_, List.getLast?_eq_some_getLast (List.ne_nil_of_mem hmem)⟩

theorem byCoinId_map (coinId : Bytes32) :
    (byCoinId bindings coinId).map bindings.get = lastWith bindings coinId := by
  have hlist : (List.finRange bindings.length).map bindings.get = bindings :=
    List.map_get_finRange bindings
  unfold byCoinId lastWith
  rw [← List.getLast?_map]
  conv_rhs => rw [← hlist, List.filter_map]
  rfl

theorem mem_requiredIndices {i j : Fin bindings.length} : j ∈ requiredIndices bindings i ↔
    (∃ coinId ∈ (bindings.get i).requiresCoinIds, byCoinId bindings coinId = some j) ∨
      (bindings.get j).puzzleHash ∈ (bindings.get i).requiresPuzzleHashes := by
  unfold requiredIndices byPuzzleHash
  simp only [List.mem_reverse, List.mem_append, List.mem_filterMap, List.mem_flatMap,
    List.mem_filter, List.mem_finRange, true_and, decide_eq_true_eq]
  apply or_congr_right
  constructor
  · rintro ⟨puzzleHash, hmem, rfl⟩
    exact hmem
  · intro hmem
    exact ⟨_, hmem, rfl⟩

/-- The stack search decides the ties of the last-wins resolution. -/
theorem tiedToAnnouncement_iff {i : Fin bindings.length} : tiedToAnnouncement bindings i = true ↔
    Tied (tieGraph bindings) (lastWith bindings) (bindings.get i) := by
  unfold tiedToAnnouncement
  rw [Search.search_iff]
  constructor
  · rintro ⟨t, hreach, hgoal⟩
    induction hreach using Relation.ReflTransGen.head_induction_on with
    | refl => exact .goal hgoal
    | head hstep _ ih =>
      rename_i i j
      rcases mem_requiredIndices.mp hstep with ⟨coinId, hid, hj⟩ | hpuzzle
      · refine .ask hid ?_ ih
        rw [← byCoinId_map, hj]
        rfl
      · exact .free ⟨List.getElem_mem _, hpuzzle⟩ ih
  · intro h
    generalize hb : bindings.get i = b at h
    induction h generalizing i with
    | goal h =>
      refine ⟨i, .refl, ?_⟩
      show (bindings.get i).carriesAnnouncement = true
      rw [hb]
      exact h
    | @free a b h _ ih =>
      obtain ⟨hmem, hpuzzle⟩ := h
      obtain ⟨j, hj, hjb⟩ := List.getElem_of_mem hmem
      obtain ⟨t, hreach, hgoal⟩ := ih (i := ⟨j, hj⟩) hjb
      refine ⟨t, .head (mem_requiredIndices.mpr (.inr ?_)) hreach, hgoal⟩
      show bindings[j].puzzleHash ∈ (bindings.get i).requiresPuzzleHashes
      rw [hjb, hb]
      exact hpuzzle
    | @ask a b coinId h hk _ ih =>
      rw [← byCoinId_map, Option.map_eq_some_iff] at hk
      obtain ⟨j, hj, hjb⟩ := hk
      obtain ⟨t, hreach, hgoal⟩ := ih (i := j) hjb
      refine ⟨t, .head (mem_requiredIndices.mpr (.inl ⟨coinId, ?_, hj⟩)) hreach, hgoal⟩
      rw [hb]
      exact h

/-- The settlement binding: each coin that pays a sink is tied. -/
theorem settled_iff : enforceBundleSettlementBinding bindings = .ok () ↔
    ∀ b ∈ bindings, b.createsSink = true → Tied (tieGraph bindings) (lastWith bindings) b := by
  unfold enforceBundleSettlementBinding
  rw [require_eq_ok, List.all_eq_true]
  constructor
  · intro h b hb hsink
    obtain ⟨i, hi, rfl⟩ := List.getElem_of_mem hb
    have htied := h ⟨i, hi⟩ (List.mem_finRange _)
    rw [Bool.or_eq_true, Bool.not_eq_true'] at htied
    rcases htied with hfalse | htied
    · exact absurd (hsink.symm.trans hfalse) (by decide)
    · exact tiedToAnnouncement_iff.mp htied
  · intro h i _
    cases hsink : bindings[i].createsSink with
    | false => rfl
    | true => exact tiedToAnnouncement_iff.mpr (h _ (List.getElem_mem _) hsink)

/-- The tie graph reads only which coins there are. -/
theorem tieGraph_perm {bindings' : List CoinBinding} (h : bindings.Perm bindings') :
    tieGraph bindings = tieGraph bindings' := by
  unfold tieGraph
  congr 1
  · funext a b
    rw [h.mem_iff]
  · funext coinId b
    rw [h.mem_iff]

/-- Moving the picked holders to the end makes them the last ones. -/
theorem lastWith_append_picked {ρ : Bytes32 → Option CoinBinding}
    (hρ : Resolves (tieGraph bindings) ρ) (picked : CoinBinding → Bool)
    (hpicked : ∀ b, picked b = true ↔ ρ b.coinId = some b) (coinId : Bytes32) :
    lastWith ((bindings.filter fun b => !picked b) ++ bindings.filter picked) coinId =
      ρ coinId := by
  unfold lastWith
  rw [List.filter_append]
  cases hk : ρ coinId with
  | none =>
    have hnone : ∀ P : CoinBinding → Bool,
        (bindings.filter P).filter (fun b => b.coinId = coinId) = [] := by
      intro P
      rw [List.filter_eq_nil_iff]
      intro b hb hid
      obtain ⟨c, hc⟩ := hρ.total (k := coinId) (a := b)
        ⟨(List.mem_filter.mp hb).1, of_decide_eq_true hid⟩
      rw [hk] at hc
      cases hc
    rw [hnone, hnone]
    rfl
  | some w =>
    obtain ⟨hw, hid⟩ := hρ.sound hk
    have hall : ∀ b ∈ (bindings.filter picked).filter (fun b => b.coinId = coinId), b = w := by
      intro b hb
      obtain ⟨hb, hbid⟩ := List.mem_filter.mp hb
      have hbpicked := (hpicked b).mp (List.mem_filter.mp hb).2
      rw [of_decide_eq_true hbid, hk] at hbpicked
      exact (Option.some.inj hbpicked).symm
    have hmem : w ∈ (bindings.filter picked).filter fun b => b.coinId = coinId := by
      refine List.mem_filter.mpr ⟨List.mem_filter.mpr ⟨hw, (hpicked w).mpr ?_⟩, decide_eq_true hid⟩
      rw [hid, hk]
    have hne := List.ne_nil_of_mem hmem
    rw [List.getLast?_append_of_ne_nil _ hne, List.getLast?_eq_some_getLast hne,
      hall _ (List.getLast_mem hne)]

end Bindings

/-! ## The other checks -/

variable {sdk : Sdk} {coinSpends coinSpends' : List CoinSpend}

/-- The same totals, and the same recorded facts up to order. -/
structure Tally.Similar (t t' : Tally) : Prop where
  outputs : t.outputs.Perm t'.outputs
  protocolSink : t.protocolSink.Perm t'.protocolSink
  fee : t.fee = t'.fee
  melted : t.melted = t'.melted
  meltedSingletons : t.meltedSingletons.Perm t'.meltedSingletons
  xchIn : t.xchIn = t'.xchIn
  xchOut : t.xchOut = t'.xchOut
  catIn : ∀ asset, t.catIn asset = t'.catIn asset
  catOut : ∀ asset, t.catOut asset = t'.catOut asset
  nftOperations : t.nftOperations.Perm t'.nftOperations
  spentCoinIds : t.spentCoinIds.Perm t'.spentCoinIds
  launcherCoinIds : t.launcherCoinIds.Perm t'.launcherCoinIds
  launcherParents : t.launcherParents.Perm t'.launcherParents
  eveParents : t.eveParents.Perm t'.eveParents
  launcherAnnouncements : t.launcherAnnouncements.Perm t'.launcherAnnouncements
  signedAnnouncementAssertions :
    t.signedAnnouncementAssertions.Perm t'.signedAnnouncementAssertions
  bindings : t.bindings.Perm t'.bindings

theorem legs_perm (h : coinSpends.Perm coinSpends') :
    (legs sdk coinSpends).Perm (legs sdk coinSpends') := h.filterMap _

variable (sdk) in
theorem bundleTally_similar (h : coinSpends.Perm coinSpends') :
    (bundleTally sdk coinSpends).Similar (bundleTally sdk coinSpends') := by
  have hlist : ∀ {β : Type} (f : Tally → List β), f 0 = [] → (∀ a b, f (a + b) = f a ++ f b) →
      (∀ ids, f { spentCoinIds := ids } = []) →
      (f (bundleTally sdk coinSpends)).Perm (f (bundleTally sdk coinSpends')) := by
    intro β f h0 hadd hids
    rw [bundleTally_list coinSpends f h0 hadd hids, bundleTally_list coinSpends' f h0 hadd hids]
    exact (legs_perm h).flatMap_right _
  have hnat : ∀ f : Tally → ℕ, f 0 = 0 → (∀ a b, f (a + b) = f a + f b) →
      (∀ ids, f { spentCoinIds := ids } = 0) →
      f (bundleTally sdk coinSpends) = f (bundleTally sdk coinSpends') := by
    intro f h0 hadd hids
    rw [bundleTally_nat coinSpends f h0 hadd hids, bundleTally_nat coinSpends' f h0 hadd hids]
    exact ((legs_perm h).map _).sum_nat
  exact {
    outputs := hlist Tally.outputs rfl Tally.add_outputs fun _ => rfl
    protocolSink := hlist Tally.protocolSink rfl Tally.add_protocolSink fun _ => rfl
    fee := hnat Tally.fee rfl Tally.add_fee fun _ => rfl
    melted := hnat Tally.melted rfl Tally.add_melted fun _ => rfl
    meltedSingletons := hlist Tally.meltedSingletons rfl Tally.add_meltedSingletons fun _ => rfl
    xchIn := hnat Tally.xchIn rfl Tally.add_xchIn fun _ => rfl
    xchOut := hnat Tally.xchOut rfl Tally.add_xchOut fun _ => rfl
    catIn := fun asset => hnat (fun t => t.catIn asset) rfl (fun _ _ => rfl) fun _ => rfl
    catOut := fun asset => hnat (fun t => t.catOut asset) rfl (fun _ _ => rfl) fun _ => rfl
    nftOperations := hlist Tally.nftOperations rfl Tally.add_nftOperations fun _ => rfl
    spentCoinIds := by
      rw [bundleTally_spentCoinIds, bundleTally_spentCoinIds]
      exact h.map _
    launcherCoinIds := hlist Tally.launcherCoinIds rfl Tally.add_launcherCoinIds fun _ => rfl
    launcherParents := hlist Tally.launcherParents rfl Tally.add_launcherParents fun _ => rfl
    eveParents := hlist Tally.eveParents rfl Tally.add_eveParents fun _ => rfl
    launcherAnnouncements :=
      hlist Tally.launcherAnnouncements rfl Tally.add_launcherAnnouncements fun _ => rfl
    signedAnnouncementAssertions := hlist Tally.signedAnnouncementAssertions rfl
      Tally.add_signedAnnouncementAssertions fun _ => rfl
    bindings := hlist Tally.bindings rfl Tally.add_bindings fun _ => rfl }

theorem Tally.Similar.mintBound {t t' : Tally} (h : t.Similar t') (hmint : MintBound sdk t) :
    MintBound sdk t' := by
  rcases hmint with ⟨hparents, heves⟩ | ⟨hsink, hparents, heves, hlaunchers, hannounced⟩
  · refine .inl ⟨?_, ?_⟩
    · exact List.perm_nil.mp (hparents ▸ h.launcherParents.symm)
    · exact List.perm_nil.mp (heves ▸ h.eveParents.symm)
  · refine .inr ⟨?_, fun parent hp => ?_, fun parent hp => ?_, fun launcher hl => ?_,
      fun entry he => ?_⟩
    · rcases hsink with hempty | ⟨output, ho, hhash⟩
      · exact .inl (List.perm_nil.mp (hempty ▸ h.launcherParents.symm))
      · exact .inr ⟨output, h.protocolSink.subset ho, hhash⟩
    · exact h.spentCoinIds.subset (hparents _ (h.launcherParents.symm.subset hp))
    · exact h.launcherCoinIds.subset (heves _ (h.eveParents.symm.subset hp))
    · exact h.eveParents.subset (hlaunchers _ (h.launcherCoinIds.symm.subset hl))
    · obtain ⟨id, hid, hsigned⟩ := hannounced _ (h.launcherAnnouncements.symm.subset he)
      exact ⟨id, hid, h.signedAnnouncementAssertions.subset hsigned⟩

theorem Tally.Similar.fits {t t' : Tally} (h : t.Similar t') (hfits : t.Fits) : t'.Fits where
  fee := h.fee ▸ hfits.fee
  melted := h.melted ▸ hfits.melted
  xchIn := h.xchIn ▸ hfits.xchIn
  xchOut := h.xchOut ▸ hfits.xchOut
  catIn asset := h.catIn asset ▸ hfits.catIn asset
  catOut asset := h.catOut asset ▸ hfits.catOut asset

theorem Tally.Similar.conserves {t t' : Tally} (h : t.Similar t') {optionMode : Bool} {fee : ℕ}
    (hxch : Conserves optionMode t fee) : Conserves optionMode t' fee := by
  unfold Conserves at hxch ⊢
  rw [← h.xchIn, ← h.xchOut, ← h.melted, ← h.fee]
  exact hxch

variable (sdk) in
/-- Every check of `analyze` but the settlement binding. -/
structure PassesRest (coinSpends : List CoinSpend) : Prop where
  nonempty : coinSpends ≠ []
  admitted : ∀ spend ∈ coinSpends, Admitted sdk spend
  fits : (bundleTally sdk coinSpends).Fits
  mint : MintBound sdk (bundleTally sdk coinSpends)
  xch : ∃ fee : UInt64,
    Conserves (isOptionBundle sdk coinSpends) (bundleTally sdk coinSpends) fee.toNat
  cat : ∀ asset,
    (bundleTally sdk coinSpends).catIn asset = (bundleTally sdk coinSpends).catOut asset

theorem accepted_iff : (∃ effect, analyze sdk coinSpends = .ok effect) ↔
    PassesRest sdk coinSpends ∧
      enforceBundleSettlementBinding (bundleTally sdk coinSpends).bindings = .ok () := by
  simp only [analyze_eq_ok]
  constructor
  · rintro ⟨effect, h⟩
    exact ⟨⟨h.nonempty, h.admitted, h.fits, h.mint, ⟨effect.fee, h.xch⟩, h.cat⟩, h.settlement⟩
  · rintro ⟨⟨hne, hadm, hfits, hmint, ⟨fee, hxch⟩, hcat⟩, hsettled⟩
    exact ⟨⟨_, _, fee, _, _⟩, hne, hadm, hfits, hmint, hsettled, hxch, hcat, rfl, rfl, rfl, rfl⟩

theorem isOptionBundle_perm (h : coinSpends.Perm coinSpends') :
    isOptionBundle sdk coinSpends = isOptionBundle sdk coinSpends' := h.any_eq

theorem PassesRest.perm (hperm : coinSpends.Perm coinSpends') (h : PassesRest sdk coinSpends) :
    PassesRest sdk coinSpends' := by
  have hsimilar := bundleTally_similar sdk hperm
  obtain ⟨fee, hxch⟩ := h.xch
  refine ⟨fun hnil => h.nonempty ?_, fun spend hs => h.admitted spend (hperm.symm.subset hs),
    hsimilar.fits h.fits, hsimilar.mintBound h.mint, ⟨fee, ?_⟩, fun asset => ?_⟩
  · exact List.perm_nil.mp (hnil ▸ hperm)
  · rw [← isOptionBundle_perm hperm]
    exact hsimilar.conserves hxch
  · rw [← hsimilar.catIn, ← hsimilar.catOut]
    exact h.cat asset

/-! ## Orders and resolutions -/

/-- The offer-binding facts a coin spend records. -/
def Leg.binding? (coin : Coin) : Leg sdk → Option CoinBinding
  | catSend _ _ conditions | standardSend _ conditions => some (coinBinding sdk coin conditions)
  | _ => none

variable (sdk) in
def bindingOf (spend : CoinSpend) : Option CoinBinding :=
  (legOf sdk spend).bind fun leg => leg.binding? spend.coin

theorem bundleTally_bindings (coinSpends : List CoinSpend) :
    (bundleTally sdk coinSpends).bindings = coinSpends.filterMap (bindingOf sdk) := by
  rw [bundleTally_facts coinSpends Tally.bindings rfl Tally.add_bindings (fun _ => rfl)
    fun coin leg => by simp [tally_facts]]
  have hleg : ∀ p : Coin × Leg sdk, (p.2.factsTally p.1).bindings = (p.2.binding? p.1).toList := by
    rintro ⟨coin, leg⟩
    cases leg <;> rfl
  simp only [hleg]
  rw [← List.filterMap_eq_flatMap_toList, legs, List.filterMap_filterMap]
  apply List.filterMap_congr
  intro spend _
  unfold bindingOf
  cases legOf sdk spend <;> rfl

/-- Filtering by what `f` yields, before or after taking it. -/
theorem filterMap_filter_yield {α β : Type} (f : α → Option β) (Q : Option β → Bool) (l : List α) :
    (l.filter fun a => Q (f a)).filterMap f = (l.filterMap f).filter fun b => Q (some b) := by
  rw [List.filterMap_filter, List.filter_filterMap]
  apply List.filterMap_congr
  intro a _
  cases f a with
  | none => simp
  | some b => cases hQ : Q (some b) <;> simp [Option.filter, hQ]

/-- Every resolution of the repeated coin ids is the last-wins one of some order. -/
theorem exists_perm_lastWith {ρ : Bytes32 → Option CoinBinding}
    (hρ : Resolves (tieGraph (bundleTally sdk coinSpends).bindings) ρ) :
    ∃ reordered, coinSpends.Perm reordered ∧
      lastWith (bundleTally sdk reordered).bindings = ρ := by
  let picked : CoinBinding → Bool := fun b => ρ b.coinId = some b
  have hpicked : ∀ b, picked b = true ↔ ρ b.coinId = some b := fun b => decide_eq_true_iff
  refine ⟨(coinSpends.filter fun spend => !(bindingOf sdk spend).any picked) ++
    coinSpends.filter fun spend => (bindingOf sdk spend).any picked, ?_, ?_⟩
  · exact (List.perm_append_comm.trans (List.filter_append_perm _ _)).symm
  · rw [bundleTally_bindings] at hρ ⊢
    rw [List.filterMap_append, filterMap_filter_yield (bindingOf sdk) (fun b => !b.any picked),
      filterMap_filter_yield (bindingOf sdk) (fun b => b.any picked)]
    funext coinId
    exact lastWith_append_picked hρ picked hpicked coinId

/-! ## Order safety -/

variable (sdk) in
/-- In a bundle that passes every other check: if each coin that pays a sink may be tied by some
resolution of the repeated coin ids, it is tied by every one. -/
def OrderSafe (coinSpends : List CoinSpend) : Prop :=
  PassesRest sdk coinSpends →
    (∀ b ∈ (bundleTally sdk coinSpends).bindings, b.createsSink = true →
      May (tieGraph (bundleTally sdk coinSpends).bindings) b) →
    ∀ b ∈ (bundleTally sdk coinSpends).bindings, b.createsSink = true →
      Must (tieGraph (bundleTally sdk coinSpends).bindings) b

/-- Settlement of a reordered bundle, over the tie graph of the bundle. -/
theorem settled_perm_iff (h : coinSpends.Perm coinSpends') :
    enforceBundleSettlementBinding (bundleTally sdk coinSpends').bindings = .ok () ↔
      ∀ b ∈ (bundleTally sdk coinSpends).bindings, b.createsSink = true →
        Tied (tieGraph (bundleTally sdk coinSpends).bindings)
          (lastWith (bundleTally sdk coinSpends').bindings) b := by
  have hbindings := (bundleTally_similar sdk h).bindings
  rw [settled_iff, ← tieGraph_perm hbindings]
  constructor
  · intro hall b hb
    exact hall b (hbindings.subset hb)
  · intro hall b hb
    exact hall b (hbindings.symm.subset hb)

theorem resolves_perm (h : coinSpends.Perm coinSpends') :
    Resolves (tieGraph (bundleTally sdk coinSpends).bindings)
      (lastWith (bundleTally sdk coinSpends').bindings) := by
  rw [tieGraph_perm (bundleTally_similar sdk h).bindings]
  exact resolves_lastWith

/-- **Every order gets one verdict exactly when the bundle is order-safe.** -/
theorem accepted_perm_iff : (∀ reordered, coinSpends.Perm reordered →
      ((∃ effect, analyze sdk coinSpends = .ok effect) ↔
        ∃ effect, analyze sdk reordered = .ok effect)) ↔ OrderSafe sdk coinSpends := by
  constructor
  · intro hall hrest hmay
    -- the best order is accepted, so the bundle is, so the adversary's order is
    obtain ⟨best, hbest, hbestTied⟩ :=
      exists_resolution_may (tieGraph (bundleTally sdk coinSpends).bindings)
    obtain ⟨worst, hworst, hworstTied⟩ :=
      exists_resolution_must (tieGraph (bundleTally sdk coinSpends).bindings)
    obtain ⟨bestOrder, hbestPerm, hbestLast⟩ := exists_perm_lastWith hbest
    obtain ⟨worstOrder, hworstPerm, hworstLast⟩ := exists_perm_lastWith hworst
    have haccepted : ∃ effect, analyze sdk coinSpends = .ok effect := by
      refine (hall bestOrder hbestPerm).mpr (accepted_iff.mpr ⟨hrest.perm hbestPerm, ?_⟩)
      rw [settled_perm_iff hbestPerm, hbestLast]
      intro b hb hsink
      exact hbestTied b (hmay b hb hsink)
    have hworstAccepted := (accepted_iff.mp ((hall worstOrder hworstPerm).mp haccepted)).2
    rw [settled_perm_iff hworstPerm, hworstLast] at hworstAccepted
    intro b hb hsink
    exact hworstTied b (hworstAccepted b hb hsink)
  · intro hsafe reordered hperm
    have hsettled : PassesRest sdk coinSpends →
        (enforceBundleSettlementBinding (bundleTally sdk coinSpends).bindings = .ok () ↔
          enforceBundleSettlementBinding (bundleTally sdk reordered).bindings = .ok ()) := by
      intro hrest
      rw [settled_perm_iff (List.Perm.refl coinSpends), settled_perm_iff hperm]
      constructor
      · intro htied b hb hsink
        refine Must.tied (resolves_perm hperm) (hsafe hrest (fun c hc hcsink => ?_) b hb hsink)
        exact (htied c hc hcsink).may resolves_lastWith
      · intro htied b hb hsink
        refine Must.tied resolves_lastWith (hsafe hrest (fun c hc hcsink => ?_) b hb hsink)
        exact (htied c hc hcsink).may (resolves_perm hperm)
    rw [accepted_iff, accepted_iff]
    constructor
    · exact fun ⟨hrest, h⟩ => ⟨hrest.perm hperm, (hsettled hrest).mp h⟩
    · rintro ⟨hrest, h⟩
      have hrest := hrest.perm hperm.symm
      exact ⟨hrest, (hsettled hrest).mpr h⟩

/-- Two orders accepted: the same fee, and the same lists up to order. -/
theorem effect_perm {effect effect' : SpendEffect} (hperm : coinSpends.Perm coinSpends')
    (h : analyze sdk coinSpends = .ok effect) (h' : analyze sdk coinSpends' = .ok effect') :
    effect.fee = effect'.fee ∧ effect.outputs.Perm effect'.outputs ∧
      effect.protocolSink.Perm effect'.protocolSink ∧
      effect.meltedSingletons.Perm effect'.meltedSingletons ∧
      effect.nftOperations.Perm effect'.nftOperations := by
  have haccepts := (analyze_eq_ok sdk).mp h
  have haccepts' := (analyze_eq_ok sdk).mp h'
  have hsimilar := bundleTally_similar sdk hperm
  refine ⟨?_, ?_, ?_, ?_, ?_⟩
  · have hin := haccepts.xch.1
    have hin' := haccepts'.xch.1
    have hxchIn := hsimilar.xchIn
    have hxchOut := hsimilar.xchOut
    exact UInt64.toNat_inj.mp (by omega)
  · rw [haccepts.outputs, haccepts'.outputs]
    exact hsimilar.outputs
  · rw [haccepts.protocolSink, haccepts'.protocolSink]
    exact hsimilar.protocolSink
  · rw [haccepts.meltedSingletons, haccepts'.meltedSingletons]
    exact hsimilar.meltedSingletons
  · rw [haccepts.nftOperations, haccepts'.nftOperations]
    exact hsimilar.nftOperations

end DigWallet
