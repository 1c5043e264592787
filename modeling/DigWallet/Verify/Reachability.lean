import DigWallet.Verify.Order

/-!
# DigWallet.Verify.Reachability — the settlement binding is reachability

With distinct coin ids an asserted coin id has one holder, and the stack search with its visited set
decides whether a coin reaches an announcement along the assertions of the bundle.
-/

namespace DigWallet

open Ties

section Reachability

variable {bindings : List CoinBinding}

/-- `a` asserts that `b`, a coin of the list, is spent with it: by its id or by its puzzle hash. -/
def Requires (bindings : List CoinBinding) (a b : CoinBinding) : Prop :=
  b ∈ bindings ∧ (b.coinId ∈ a.requiresCoinIds ∨ b.puzzleHash ∈ a.requiresPuzzleHashes)

theorem tieGraph_edge : (tieGraph bindings).Edge = Requires bindings := by
  funext a b
  apply propext
  constructor
  · rintro (⟨hb, hpuzzle⟩ | ⟨coinId, hasks, hb, rfl⟩)
    · exact ⟨hb, .inr hpuzzle⟩
    · exact ⟨hb, .inl hasks⟩
  · rintro ⟨hb, hid | hpuzzle⟩
    · exact .inr ⟨b.coinId, hid, hb, rfl⟩
    · exact .inl ⟨hb, hpuzzle⟩

/-- The settlement binding accepts exactly when every coin that pays a sink reaches a coin that
carries an announcement. -/
theorem settlement_iff_reachable (h : (bindings.map CoinBinding.coinId).Nodup) :
    enforceBundleSettlementBinding bindings = .ok () ↔
      ∀ b ∈ bindings, b.createsSink = true →
        ∃ t, Relation.ReflTransGen (Requires bindings) b t ∧ t.carriesAnnouncement = true := by
  rw [settled_iff]
  have hunique : ∀ {coinId a b}, (tieGraph bindings).holds coinId a →
      (tieGraph bindings).holds coinId b → a = b := by
    rintro coinId a b ⟨ha, rfl⟩ ⟨hb, hid⟩
    exact List.inj_on_of_nodup_map h ha hb hid.symm
  refine forall_congr' fun b => forall_congr' fun _ => forall_congr' fun _ => ?_
  rw [tied_iff_reach resolves_lastWith hunique, tieGraph_edge]
  rfl

end Reachability

/-- A coin that pays a sink and asserts a coin that is not spent, itself, and a puzzle hash. -/
def sinkBinding : CoinBinding :=
  ⟨.rep 1, .rep 11, true, false, [.rep 9, .rep 1], [.rep 12]⟩

/-- A ring of three coins, two with one puzzle hash, of which the last carries an announcement. -/
def ringBindings : List CoinBinding :=
  [sinkBinding, ⟨.rep 2, .rep 12, false, false, [.rep 1], []⟩,
    ⟨.rep 3, .rep 12, true, true, [.rep 1], []⟩]

theorem ring_settled : enforceBundleSettlementBinding ringBindings = .ok () := by
  refine (settlement_iff_reachable (by decide)).mpr ?_
  have hlast : (⟨.rep 3, .rep 12, true, true, [.rep 1], []⟩ : CoinBinding) ∈ ringBindings := by decide
  intro b hb hsink
  rcases List.mem_cons.mp hb with rfl | hb
  · exact ⟨_, .single ⟨hlast, .inr (by decide)⟩, rfl⟩
  · rcases List.mem_cons.mp hb with rfl | hb
    · cases hsink
    · obtain rfl := List.mem_singleton.mp hb
      exact ⟨_, .refl, rfl⟩

end DigWallet
