import DigWallet.Lib.Results
import Mathlib.Algebra.GroupWithZero.Nat
import Mathlib.Algebra.Ring.Int.Defs

/-!
# DigWallet.Lib.Json — codecs between values and JSON

A `Codec` accepts what it writes and every extension of it: a JSON value with the fields of its objects
in any order and others added.  `Fields` are what an object or a positional array is read by, joined by
`pair`; `record` is their codec, and `record_without` what it makes of an object that lacks some.
-/

namespace DigWallet.Wire

inductive Json
  | null
  | bool (b : Bool)
  | number (n : ℤ)
  | float (text : String)
  | string (text : String)
  | array (items : List Json)
  | object (fields : List (String × Json))

inductive JsonError
  | invalidType (expected : String)
  | invalidValue (expected : String)
  | invalidLength
  | missingField (name : String)
  | custom (message : String)

/-- The same value under more fields, in any order. -/
inductive Extends : Json → Json → Prop
  | refl (j : Json) : Extends j j
  | array {items items' : List Json} (hitems : List.Forall₂ Extends items items') :
      Extends (.array items) (.array items')
  | object {fields fields' : List (String × Json)} (value : String → Json)
      (hlookup : ∀ name v, fields.lookup name = some v → fields'.lookup name = some (value name))
      (hvalue : ∀ name v, fields.lookup name = some v → Extends v (value name)) :
      Extends (.object fields) (.object fields')

namespace Extends

variable {j : Json}

theorem null (h : Extends .null j) : j = .null := by
  cases h
  rfl

theorem number {n : ℤ} (h : Extends (.number n) j) : j = .number n := by
  cases h
  rfl

theorem string {text : String} (h : Extends (.string text) j) : j = .string text := by
  cases h
  rfl

theorem ne_null {j' : Json} (h : Extends j j') (hj : j ≠ .null) : j' ≠ .null := by
  cases h with
  | refl => exact hj
  | array => exact nofun
  | object => exact nofun

theorem of_array {items : List Json} (h : Extends (.array items) j) :
    ∃ items', j = .array items' ∧ List.Forall₂ Extends items items' := by
  cases h with
  | refl => exact ⟨items, rfl, List.forall₂_same.mpr fun item _ => .refl item⟩
  | array hitems => exact ⟨_, rfl, hitems⟩

theorem of_object {fields : List (String × Json)} (h : Extends (.object fields) j) :
    ∃ fields', j = .object fields' ∧ ∀ name v, fields.lookup name = some v →
      ∃ v', fields'.lookup name = some v' ∧ Extends v v' := by
  cases h with
  | refl => exact ⟨fields, rfl, fun name v hv => ⟨v, hv, .refl v⟩⟩
  | object value hlookup hvalue =>
    exact ⟨_, rfl, fun name v hv => ⟨value name, hlookup name v hv, hvalue name v hv⟩⟩

end Extends

/-- A type's `Serialize` and `Deserialize`; `absent` is what a missing field reads as. -/
structure Codec (α : Type) where
  serialize : α → Json
  deserialize : Json → Except JsonError α
  absent : Option α
  accepts : ∀ {a j}, Extends (serialize a) j → deserialize j = .ok a

variable {α β : Type}

namespace Codec

def string : Codec String where
  serialize := .string
  deserialize
    | .string text => .ok text
    | _ => .error (.invalidType "a string")
  absent := none
  accepts h := by rw [h.string]

/-- A number of at most `bits` bits. -/
def unsigned (expected : String) (bits : ℕ) (toNat : α → ℕ) (ofNat : ℕ → α)
    (hbound : ∀ a, toNat a < 2 ^ bits) (hinverse : ∀ a, ofNat (toNat a) = a) : Codec α where
  serialize a := .number (toNat a)
  deserialize
    | .number n =>
      if 0 ≤ n ∧ n < 2 ^ bits then .ok (ofNat n.toNat) else .error (.invalidValue expected)
    | _ => .error (.invalidType expected)
  absent := none
  accepts := by
    intro a j h
    have hrange : (0 : ℤ) ≤ toNat a ∧ (toNat a : ℤ) < 2 ^ bits := by
      exact_mod_cast And.intro (Nat.zero_le _) (hbound a)
    rw [h.number]
    dsimp only
    rw [if_pos hrange, Int.toNat_natCast, hinverse]

def u32 : Codec UInt32 :=
  unsigned "u32" 32 UInt32.toNat UInt32.ofNat UInt32.toNat_lt fun _ => UInt32.ofNat_toNat

def u64 : Codec UInt64 :=
  unsigned "u64" 64 UInt64.toNat UInt64.ofNat UInt64.toNat_lt fun _ => UInt64.ofNat_toNat

def list (codec : Codec α) : Codec (List α) where
  serialize l := .array (l.map codec.serialize)
  deserialize
    | .array items => items.mapM codec.deserialize
    | _ => .error (.invalidType "a sequence")
  absent := none
  accepts := by
    intro l j h
    obtain ⟨items, rfl, hitems⟩ := h.of_array
    rw [List.forall₂_map_left_iff] at hitems
    exact mapM_eq_ok.mpr (hitems.imp fun a item hitem => codec.accepts hitem).flip

/-- `None` is `null`, and reads a missing field. -/
def option (codec : Codec α) (hnull : ∀ a, codec.serialize a ≠ .null) : Codec (Option α) where
  serialize
    | none => .null
    | some a => codec.serialize a
  deserialize
    | .null => .ok none
    | j => (codec.deserialize j).map some
  absent := some none
  accepts := by
    intro o j h
    cases o with
    | none => rw [h.null]
    | some a =>
      have hj := h.ne_null (hnull a)
      have hread := codec.accepts h
      cases j with
      | null => exact absurd rfl hj
      | _ =>
        dsimp only
        rw [hread]
        rfl

/-- A value written through another type, whose reading may fail. -/
def parsed (codec : Codec α) (render : β → α) (parse : α → Except String β)
    (hparse : ∀ b, parse (render b) = .ok b) : Codec β where
  serialize b := codec.serialize (render b)
  deserialize j := do
    let a ← codec.deserialize j
    match parse a with
    | .ok b => .ok b
    | .error e => .error (.custom e)
  absent := none
  accepts := by
    intro b j h
    rw [codec.accepts h]
    show (match parse (render b) with
      | .ok b => .ok b
      | .error e => .error (.custom e) : Except JsonError β) = .ok b
    rw [hparse]

/-- A newtype. -/
def iso (codec : Codec α) (pack : α → β) (unpack : β → α) (hinverse : ∀ b, pack (unpack b) = b) :
    Codec β where
  serialize b := codec.serialize (unpack b)
  deserialize j := (codec.deserialize j).map pack
  absent := codec.absent.map pack
  accepts := by
    intro b j h
    rw [codec.accepts h]
    exact congrArg Except.ok (hinverse b)

end Codec

/-! ## Records -/

theorem lookup_isSome {fields : List (String × Json)} {name : String} :
    (fields.lookup name).isSome ↔ name ∈ fields.map Prod.fst := by
  induction fields with
  | nil => simp
  | cons field fields ih =>
    obtain ⟨key, v⟩ := field
    rw [List.lookup_cons, List.map_cons, List.mem_cons]
    by_cases h : name = key
    · simp [h]
    · simp [beq_false_of_ne h, h, ih]

/-- `look` finds every written field, or an extension of it, except for those in `lacking`. -/
def Finds (lacking : List String) (fields : List (String × Json)) (look : String → Option Json) :
    Prop :=
  ∀ name v, fields.lookup name = some v →
    if name ∈ lacking then look name = none else ∃ v', look name = some v' ∧ Extends v v'

theorem finds_append {lacking : List String} {fields fields' : List (String × Json)}
    {look : String → Option Json}
    (hapart : ∀ name ∈ fields.map Prod.fst, name ∉ fields'.map Prod.fst)
    (h : Finds lacking (fields ++ fields') look) :
    Finds lacking fields look ∧ Finds lacking fields' look := by
  refine ⟨fun name v hv => h name v ?_, fun name v hv => h name v ?_⟩
  · rw [List.lookup_append, hv]
    rfl
  · have hmem : name ∈ fields'.map Prod.fst := by
      rw [← lookup_isSome, hv]
      rfl
    have hnone : fields.lookup name = none := by
      rw [← Option.not_isSome_iff_eq_none, lookup_isSome]
      exact fun hfirst => hapart name hfirst hmem
    rw [List.lookup_append, hnone, hv]
    rfl

/-- Fields under `names`, those in `additive` readable when missing: `without` is what is then read. -/
structure Fields (names : List String) (α : Type) where
  additive : List String
  write : α → List (String × Json)
  read : (String → Option Json) → Except JsonError α
  readSeq : List Json → Except JsonError (α × List Json)
  without : List String → α → α
  written : ∀ a, (write a).map Prod.fst = names
  additive_mem : ∀ name ∈ additive, name ∈ names
  without_nil : ∀ a, without [] a = a
  reads : names.Nodup → ∀ {a look lacking}, (∀ name ∈ names, name ∈ lacking → name ∈ additive) →
    Finds lacking (write a) look → read look = .ok (without lacking a)

namespace Fields

variable {names names' : List String}

/-- One field, and what it reads as when it is missing from an object or from an array. -/
def member (name : String) (codec : Codec α) (missing missingSeq : Option α) : Fields [name] α where
  additive := if missing.isSome then [name] else []
  write a := [(name, codec.serialize a)]
  read look :=
    match look name with
    | some j => codec.deserialize j
    | none =>
      match missing with
      | some a => .ok a
      | none => .error (.missingField name)
  readSeq
    | [] =>
      match missingSeq with
      | some a => .ok (a, [])
      | none => .error .invalidLength
    | j :: rest => (codec.deserialize j).map fun a => (a, rest)
  without lacking a := if name ∈ lacking then missing.getD a else a
  written _ := rfl
  additive_mem key h := by
    split at h
    · exact h
    · exact absurd h List.not_mem_nil
  without_nil _ := if_neg List.not_mem_nil
  reads := by
    intro _ a look lacking hadditive h
    have hname := h name (codec.serialize a) (by simp)
    by_cases hlacking : name ∈ lacking
    · rw [if_pos hlacking] at hname
      have hmissing := hadditive name (List.mem_singleton_self name) hlacking
      cases missing with
      | none => exact absurd hmissing List.not_mem_nil
      | some a' =>
        rw [if_pos hlacking, hname]
        rfl
    · rw [if_neg hlacking] at hname
      obtain ⟨v, hv, hextends⟩ := hname
      rw [if_neg hlacking, hv]
      exact codec.accepts hextends

/-- A field whose absence is an error, unless its type has a value for it. -/
def field (name : String) (codec : Codec α) : Fields [name] α := member name codec codec.absent none

/-- A field with `#[serde(default)]`. -/
def defaulted (name : String) (codec : Codec α) (default : α) : Fields [name] α :=
  member name codec (some default) (some default)

/-- The fields of two records side by side. -/
def pair (f : Fields names α) (g : Fields names' β) : Fields (names ++ names') (α × β) where
  additive := f.additive ++ g.additive
  write p := f.write p.1 ++ g.write p.2
  read look := do
    let a ← f.read look
    let b ← g.read look
    .ok (a, b)
  readSeq items := do
    let (a, items) ← f.readSeq items
    let (b, items) ← g.readSeq items
    .ok ((a, b), items)
  without lacking p := (f.without lacking p.1, g.without lacking p.2)
  written p := by rw [List.map_append, f.written, g.written]
  additive_mem name h := by
    rcases List.mem_append.mp h with h | h
    · exact List.mem_append_left _ (f.additive_mem name h)
    · exact List.mem_append_right _ (g.additive_mem name h)
  without_nil p := by rw [f.without_nil, g.without_nil]
  reads := by
    rintro hnodup ⟨a, b⟩ look lacking hadditive h
    obtain ⟨hnames, hnames', hdisjoint⟩ := List.nodup_append.mp hnodup
    have hapart : ∀ name ∈ names, name ∉ names' := fun name hname hname' =>
      hdisjoint name hname name hname' rfl
    obtain ⟨hfirst, hsecond⟩ := finds_append (by rw [f.written, g.written]; exact hapart) h
    have hf : f.read look = .ok (f.without lacking a) := by
      refine f.reads hnames (fun name hname hlacking => ?_) hfirst
      rcases List.mem_append.mp (hadditive name (List.mem_append_left _ hname) hlacking) with h | h
      · exact h
      · exact absurd (g.additive_mem name h) (hapart name hname)
    have hg : g.read look = .ok (g.without lacking b) := by
      refine g.reads hnames' (fun name hname hlacking => ?_) hsecond
      rcases List.mem_append.mp (hadditive name (List.mem_append_right _ hname) hlacking) with h | h
      · exact absurd hname (hapart name (f.additive_mem name h))
      · exact h
    rw [hf, hg]
    rfl

def iso (f : Fields names α) (pack : α → β) (unpack : β → α)
    (hinverse : ∀ b, pack (unpack b) = b) : Fields names β where
  additive := f.additive
  write b := f.write (unpack b)
  read look := (f.read look).map pack
  readSeq items := (f.readSeq items).map fun (a, rest) => (pack a, rest)
  without lacking b := pack (f.without lacking (unpack b))
  written b := f.written (unpack b)
  additive_mem := f.additive_mem
  without_nil b := by rw [f.without_nil, hinverse]
  reads := by
    intro hnodup b look lacking hadditive h
    rw [f.reads hnodup hadditive h]
    rfl

/-- A derived struct: an object, or an array of just its fields. -/
def record (hnodup : names.Nodup) (f : Fields names α) : Codec α where
  serialize a := .object (f.write a)
  deserialize
    | .object fields => f.read fun name => fields.lookup name
    | .array items => do
      let (a, rest) ← f.readSeq items
      if rest.isEmpty then .ok a else .error .invalidLength
    | _ => .error (.invalidType "a struct")
  absent := none
  accepts := by
    intro a j h
    obtain ⟨fields, rfl, hfields⟩ := h.of_object
    have hfinds : Finds [] (f.write a) fun name => fields.lookup name := by
      intro name v hv
      rw [if_neg List.not_mem_nil]
      exact hfields name v hv
    have hreads := f.reads hnodup (fun _ _ h => absurd h List.not_mem_nil) hfinds
    rw [f.without_nil] at hreads
    exact hreads

/-- An object that lacks additive fields reads as the value without them. -/
theorem record_without {f : Fields names α} {a : α} {fields : List (String × Json)}
    {lacking : List String} (hnodup : names.Nodup) (hlacking : ∀ name ∈ lacking, name ∈ f.additive)
    (h : Finds lacking (f.write a) fun name => fields.lookup name) :
    (f.record hnodup).deserialize (.object fields) = .ok (f.without lacking a) :=
  f.reads hnodup (fun name _ hname => hlacking name hname) h

variable {f : Fields names α} {g : Fields names' β} {look : String → Option Json}

theorem member_read {name : String} {codec : Codec α} {missing missingSeq : Option α} {j : Json}
    {a : α} (hlook : look name = some j) (hread : codec.deserialize j = .ok a) :
    (member name codec missing missingSeq).read look = .ok a := by
  show (match look name with
    | some j => codec.deserialize j
    | none => _) = _
  rw [hlook]
  exact hread

theorem pair_read {a : α} {b : β} (hf : f.read look = .ok a) (hg : g.read look = .ok b) :
    (f.pair g).read look = .ok (a, b) := by
  show (f.read look >>= fun a => g.read look >>= fun b => .ok (a, b)) = _
  rw [hf, hg]
  rfl

theorem iso_read {pack : α → β} {unpack : β → α} {hinverse : ∀ b, pack (unpack b) = b} {a : α}
    (hf : f.read look = .ok a) :
    (f.iso pack unpack hinverse).read look = .ok (pack a) :=
  congrArg (Except.map pack) hf

end Fields

end DigWallet.Wire
