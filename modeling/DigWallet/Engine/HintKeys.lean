import DigWallet.Engine.Discovery
import DigWallet.Lib.Text

/-!
# DigWallet.Engine.HintKeys — the spellings of a memo

A memo is filed under its lower-case hex.  `Hint::new` brings every spelling to that key; the derived
`Deserialize` keeps the spelling.  `hintsNormal_iff`: when the key is met whichever way a hint enters.
-/

namespace DigWallet

open Text

/-! ## Spellings -/

/-- The text begins with `0x` or `0X`. -/
def marked : List Char → Bool
  | '0' :: 'x' :: _ => true
  | '0' :: 'X' :: _ => true
  | _ => false

/-- A hex spelling of the bytes: the digits in either case, bare or behind `0x` or `0X`. -/
def Spells (memo : Bytes) (spelling : String) : Prop :=
  ∃ digits, digits.map Char.toLower = hexChars memo ∧
    (spelling.toList = digits ∨ spelling.toList = '0' :: 'x' :: digits ∨
      spelling.toList = '0' :: 'X' :: digits)

theorem toLower_hexDigit {n : ℕ} (hn : n < 16) : (hexDigit n).toLower = hexDigit n := by
  have hall : ∀ i : Fin 16, (hexDigit i).toLower = hexDigit i := by decide
  exact hall ⟨n, hn⟩

theorem toLower_hexChars (memo : Bytes) : (hexChars memo).map Char.toLower = hexChars memo := by
  conv_rhs => rw [← List.map_id (hexChars memo)]
  refine List.map_congr_left fun c hc => ?_
  obtain ⟨n, hn, rfl⟩ := exists_of_mem_hexChars hc
  exact toLower_hexDigit hn

theorem x_notMem_hexChars (memo : Bytes) : 'x' ∉ hexChars memo := by
  intro h
  obtain ⟨n, hn, hdigit⟩ := exists_of_mem_hexChars h
  have hall : ∀ i : Fin 16, hexDigit i ≠ 'x' := by decide
  exact hall ⟨n, hn⟩ hdigit

theorem marked_eq_true {text : List Char} :
    marked text = true ↔ ∃ rest, text = '0' :: 'x' :: rest ∨ text = '0' :: 'X' :: rest := by
  unfold marked
  split
  · simp
  · simp
  · rename_i hx hX
    refine iff_of_false Bool.false_ne_true ?_
    rintro ⟨rest, heq | heq⟩
    · exact hx rest heq
    · exact hX rest heq

theorem body_of_unmarked {text : List Char} (h : marked text = false) : Hint.body text = text := by
  unfold Hint.body
  split
  · exact absurd h.symm Bool.false_ne_true
  · exact absurd h.symm Bool.false_ne_true
  · rfl

theorem length_body_of_marked {text : List Char} (h : marked text = true) :
    (Hint.body text).length + 2 = text.length := by
  obtain ⟨rest, rfl | rfl⟩ := marked_eq_true.mp h
  · rfl
  · rfl

/-- Lower-casing keeps the mark. -/
theorem marked_toLower (text : List Char) : marked (text.map Char.toLower) = marked text := by
  rw [Bool.eq_iff_iff, marked_eq_true, marked_eq_true]
  constructor
  · rintro ⟨rest, heq⟩
    match text with
    | [] => simp at heq
    | [_] => simp at heq
    | first :: second :: tail =>
      simp only [List.map_cons, List.cons.injEq] at heq
      rcases heq with ⟨hfirst, hsecond, -⟩ | ⟨hfirst, hsecond, -⟩
      · obtain rfl := toLower_eq_zero_iff.mp hfirst
        obtain rfl | rfl := toLower_eq_x_iff.mp hsecond
        · exact ⟨tail, .inl rfl⟩
        · exact ⟨tail, .inr rfl⟩
      · have hlower := toLower_toLower second
        rw [hsecond] at hlower
        exact absurd hlower (by decide)
  · rintro ⟨rest, rfl | rfl⟩
    · exact ⟨rest.map Char.toLower, .inl rfl⟩
    · exact ⟨rest.map Char.toLower, .inl rfl⟩

theorem unmarked_digits {memo : Bytes} {digits : List Char}
    (h : digits.map Char.toLower = hexChars memo) : marked digits = false := by
  rw [← marked_toLower, h, Bool.eq_false_iff]
  intro hmarked
  obtain ⟨rest, heq | heq⟩ := marked_eq_true.mp hmarked
  · exact x_notMem_hexChars memo (heq ▸ List.mem_cons_of_mem _ List.mem_cons_self)
  · have hlower := toLower_hexChars memo
    rw [heq] at hlower
    simp at hlower

/-! ## The constructors -/

theorem new_of_spells {memo : Bytes} {spelling : String} (h : Spells memo spelling) :
    Hint.new spelling = .fromBytes memo := by
  obtain ⟨digits, hdigits, hspelling⟩ := h
  have hbody : Hint.body spelling.toList = digits := by
    rcases hspelling with heq | heq | heq
    · rw [heq, body_of_unmarked (unmarked_digits hdigits)]
    · rw [heq, Hint.body]
    · rw [heq, Hint.body]
  unfold Hint.new Hint.fromBytes hexEncode
  rw [hbody, hdigits]

/-- The spelling is the key itself. -/
theorem deserialize_iff {memo : Bytes} {spelling : String} (h : Spells memo spelling) :
    Hint.deserialize spelling = .fromBytes memo ↔
      marked spelling.toList = false ∧ spelling.toList.map Char.toLower = spelling.toList := by
  obtain ⟨digits, hdigits, hspelling⟩ := h
  have hkey : Hint.deserialize spelling = .fromBytes memo ↔ spelling.toList = hexChars memo := by
    unfold Hint.deserialize Hint.fromBytes hexEncode
    rw [Hint.mk.injEq, ← String.toList_inj, String.toList_ofList]
  rw [hkey]
  constructor
  · intro heq
    rw [heq]
    exact ⟨unmarked_digits (toLower_hexChars memo), toLower_hexChars memo⟩
  · rintro ⟨hunmarked, hlower⟩
    rcases hspelling with heq | heq | heq
    · rw [← hlower, heq, hdigits]
    · rw [heq] at hunmarked
      cases hunmarked
    · rw [heq] at hunmarked
      cases hunmarked

/-- One more reading strips one more mark. -/
theorem new_idempotent_iff {s : String} :
    Hint.new (Hint.new s).text = Hint.new s ↔ marked (Hint.body s.toList) = false := by
  have hagain : Hint.new (Hint.new s).text = Hint.new s ↔
      (Hint.body ((Hint.body s.toList).map Char.toLower)).map Char.toLower =
        (Hint.body s.toList).map Char.toLower := by
    unfold Hint.new
    rw [Hint.mk.injEq, ← String.toList_inj]
    simp only [String.toList_ofList]
  rw [hagain, ← marked_toLower]
  constructor
  · intro heq
    rw [Bool.eq_false_iff]
    intro hmarked
    have hlength := length_body_of_marked hmarked
    have hsame := congrArg List.length heq
    rw [List.length_map] at hsame
    omega
  · intro hunmarked
    rw [body_of_unmarked hunmarked, List.map_map]
    exact List.map_congr_left fun c _ => toLower_toLower c

theorem fromBytes_injective : Function.Injective Hint.fromBytes := by
  intro memo memo' h
  exact hexEncode_injective (congrArg Hint.text h)

/-! ## Every way in -/

/-- Both ways in give the key of the memo, and find the coins of a spend that announces it; the
normal form is kept, and no other memo has the key. -/
structure HintsNormal (memo : Bytes) (spelling s : String) : Prop where
  new_eq : Hint.new spelling = .fromBytes memo
  deserialize_eq : Hint.deserialize spelling = .fromBytes memo
  finds : ∀ (sdk : Sdk) (runProgram : Node → Node → Except String Node) (hints : HintIndex)
    (coinSpend : CoinSpend) (extracted : List (String × List Hint)) (coinId : String)
    (memos : List Hint), hintsFromCoinSpend sdk runProgram coinSpend = .ok extracted →
    (coinId, memos) ∈ extracted → .fromBytes memo ∈ memos →
      coinId ∈ (hints.indexAll extracted).coinsByHint (.new spelling) ∧
      coinId ∈ (hints.indexAll extracted).coinsByHint (.deserialize spelling)
  idempotent : Hint.new (Hint.new s).text = Hint.new s
  injective : ∀ memo', Hint.fromBytes memo' = .fromBytes memo → memo' = memo

/-- **Any spelling of a memo finds its coin exactly when** it is the key as it stands; and normalising
twice changes nothing exactly when one mark is all the text has. -/
theorem hintsNormal_iff (memo : Bytes) (spelling : String) (hspells : Spells memo spelling)
    (s : String) : HintsNormal memo spelling s ↔
      (marked spelling.toList = false ∧ spelling.toList.map Char.toLower = spelling.toList) ∧
        marked (Hint.body s.toList) = false := by
  constructor
  · intro h
    exact ⟨(deserialize_iff hspells).mp h.deserialize_eq, new_idempotent_iff.mp h.idempotent⟩
  · rintro ⟨hkey, hmark⟩
    have hnew := new_of_spells hspells
    have hdeserialize := (deserialize_iff hspells).mpr hkey
    refine ⟨hnew, hdeserialize, ?_, new_idempotent_iff.mpr hmark, fun memo' h => fromBytes_injective h⟩
    intro sdk runProgram hints coinSpend extracted coinId memos _ hcoin hmemo
    have hfound : coinId ∈ (hints.indexAll extracted).coinsByHint (.fromBytes memo) :=
      HintIndex.mem_coinsByHint.mpr (HintIndex.mem_bucket_indexAll.mpr (.inl ⟨memos, hcoin, hmemo⟩))
    rw [hnew, hdeserialize]
    exact ⟨hfound, hfound⟩

theorem spells_ab12 : Spells [0xab, 0x12] "ab12" := ⟨"ab12".toList, by decide, .inl rfl⟩

theorem hintsNormal_ab12 : HintsNormal [0xab, 0x12] "ab12" "0xAB12" :=
  (hintsNormal_iff [0xab, 0x12] "ab12" spells_ab12 "0xAB12").mpr (by decide)

/-- The request field `"0xAB12"` is no key. -/
theorem hints_not_normal : ¬ ∀ (memo : Bytes) (spelling : String), Spells memo spelling →
    ∀ s, HintsNormal memo spelling s := by
  intro hall
  have hspells : Spells [0xab, 0x12] "0xAB12" :=
    ⟨"AB12".toList, by decide, .inr (.inl (by decide))⟩
  have hnormal := hall [0xab, 0x12] "0xAB12" hspells "0x0xab"
  exact absurd hnormal.deserialize_eq (by decide)

end DigWallet
