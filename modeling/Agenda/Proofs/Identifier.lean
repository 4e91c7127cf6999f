import Agenda.Uuid
import Mathlib.Algebra.Group.Nat.Defs

/-!
# Identifiers are read back

`Uuid.read?` reads the written form of every identifier as that identifier (`Uuid.read?_text`), so
no two identifiers are written alike (`Uuid.text_injective`).  The written form holds nothing but
hexadecimal digits and hyphens, so none of what the lenient reader drops but the hyphens is there;
without the hyphens it is one numeral of 32 digits (`hexDigits_append`).
-/

namespace Agenda

namespace Text

/-! ### Hexadecimal digits -/

/-- The values of the digits that `hexDigits` writes. -/
def hexValues : Nat → Nat → List Nat
  | 0, _ => []
  | width + 1, n => hexValues width (n / 16) ++ [n % 16]

theorem hexDigits_eq_map (width n : Nat) :
    hexDigits width n = (hexValues width n).map hexDigit := by
  induction width generalizing n with
  | zero => rfl
  | succ w ih => rw [hexDigits, hexValues, List.map_append, ih]; rfl

theorem lt_of_mem_hexValues {width n d : Nat} (h : d ∈ hexValues width n) : d < 16 := by
  induction width generalizing n with
  | zero => cases h
  | succ w ih =>
    rw [hexValues, List.mem_append, List.mem_singleton] at h
    rcases h with h | rfl
    · exact ih h
    · exact Nat.mod_lt _ (by decide)

theorem ofDigits_hexValues (width n : Nat) :
    Numeral.ofDigits 16 (hexValues width n) = n % 16 ^ width := by
  induction width generalizing n with
  | zero => rw [Nat.pow_zero, Nat.mod_one]; rfl
  | succ w ih =>
    have hfold : Numeral.ofDigits 16 (hexValues w (n / 16) ++ [n % 16]) =
        16 * Numeral.ofDigits 16 (hexValues w (n / 16)) + n % 16 := by
      rw [Numeral.ofDigits, List.foldl_append]
      rfl
    rw [hexValues, hfold, ih, Nat.pow_succ, Nat.mul_comm (16 ^ w), Nat.mod_mul, Nat.add_comm]

/-- Higher and lower digits of one number. -/
theorem hexDigits_append (a b n : Nat) :
    hexDigits a (n / 16 ^ b) ++ hexDigits b n = hexDigits (a + b) n := by
  induction b generalizing n with
  | zero => rw [Nat.pow_zero, Nat.div_one, hexDigits, List.append_nil, Nat.add_zero]
  | succ b ih =>
    have hdiv : n / 16 ^ (b + 1) = n / 16 / 16 ^ b := by
      rw [Nat.div_div_eq_div_mul, Nat.pow_succ, Nat.mul_comm]
    rw [hexDigits, ← List.append_assoc, hdiv, ih, ← Nat.add_assoc, hexDigits]

/-- What a hexadecimal digit is not, and what it is read as. -/
theorem hexDigit_spec : ∀ d < 16, hexDigit? (hexDigit d) = some d ∧ isWhite (hexDigit d) = false ∧
    hexDigit d ∉ ['-', '+', 'x', 'X', '_', 'u', '{', '}'] := by
  decide

/-! ### The parts of the reader -/

/-- Nothing is stripped from a text that has no character of the class. -/
theorem stripEnds_eq_self {p : Char → Bool} {cs : List Char} (h : ∀ c ∈ cs, p c = false) :
    stripEnds p cs = cs := by
  have hdrop : ∀ xs : List Char, (∀ c ∈ xs, p c = false) → xs.dropWhile p = xs := by
    intro xs hxs
    cases xs with
    | nil => rfl
    | cons x xs => rw [List.dropWhile_cons_of_neg]; simp [hxs x List.mem_cons_self]
  rw [stripEnds, hdrop cs h, hdrop cs.reverse fun c hc => h c (List.mem_reverse.1 hc),
    List.reverse_reverse]

theorem digits?_map_hexDigit {ds : List Nat} (hne : ds ≠ []) (h : ∀ d ∈ ds, d < 16) :
    Numeral.digits? hexDigit? (ds.map hexDigit) = some ds := by
  induction ds with
  | nil => exact absurd rfl hne
  | cons d ds ih =>
    have hd := (hexDigit_spec d (h d List.mem_cons_self)).1
    cases ds with
    | nil => simp [Numeral.digits?, hd]
    | cons e es =>
      have he := (hexDigit_spec e (h e (by simp))).2.2
      have hrest := ih (by simp) fun x hx => h x (List.mem_cons_of_mem _ hx)
      rw [List.map_cons] at hrest
      rw [List.map_cons, List.map_cons, Numeral.digits?]
      · simp [hd, hrest]
      · intro hnil
        cases hnil
      · rintro rest heq
        exact he (by simp [(List.cons.inj heq).1])

/-- A numeral of two or more hexadecimal digits is read as its value. -/
theorem readHex?_hexDigits (width n : Nat) :
    readHex? (hexDigits (width + 2) n) = some ((n % 16 ^ (width + 2) : Nat) : Int) := by
  have hlt : ∀ d ∈ hexValues (width + 2) n, d < 16 := fun d hd => lt_of_mem_hexValues hd
  have hlen : (hexValues (width + 2) n).length = width + 2 := by
    have := length_hexDigits (width + 2) n
    rwa [hexDigits_eq_map, List.length_map] at this
  have hwhite : ∀ c ∈ hexDigits (width + 2) n, isWhite c = false := by
    intro c hc
    rw [hexDigits_eq_map] at hc
    obtain ⟨d, hd, rfl⟩ := List.mem_map.1 hc
    exact (hexDigit_spec d (hlt d hd)).2.1
  have hvalue := ofDigits_hexValues (width + 2) n
  rw [readHex?, stripEnds_eq_self hwhite, hexDigits_eq_map]
  -- two digits are enough to see that there is neither a sign nor a marker in front
  generalize hexValues (width + 2) n = ds at hlt hlen hvalue
  match ds, hlen with
  | d :: e :: ds, _ =>
    have hd := (hexDigit_spec d (hlt d (by simp))).2.2
    have he := (hexDigit_spec e (hlt e (by simp))).2.2
    simp only [List.mem_cons, not_or] at hd he
    have hsign : Numeral.splitSign ((d :: e :: ds).map hexDigit) =
        (false, (d :: e :: ds).map hexDigit) := by
      rw [List.map_cons, Numeral.splitSign]
      · intro rest heq
        exact hd.1 (List.cons.inj heq).1
      · intro rest heq
        exact hd.2.1 (List.cons.inj heq).1
    have hmarker : Numeral.dropHexMarker ((d :: e :: ds).map hexDigit) =
        (d :: e :: ds).map hexDigit := by
      unfold Numeral.dropHexMarker
      simp only [List.map_cons]
      rw [if_neg]
      simp [he.2.2.1, he.2.2.2.1]
    rw [hsign]
    simp only [hmarker, digits?_map_hexDigit (List.cons_ne_nil d _) hlt, Option.map_some, hvalue]
    rfl

end Text

namespace Uuid

/-- A word whose first character does not occur is not found. -/
theorem removeWord_of_notMem {w : Char} {word cs : List Char} (h : w ∉ cs) :
    removeWord (w :: word) cs = cs := by
  induction cs with
  | nil => rw [removeWord]
  | cons c cs ih =>
    rw [List.mem_cons, not_or] at h
    have hprefix : (w :: word).isPrefixOf (c :: cs) = false := by
      simp [List.isPrefixOf, h.1]
    rw [removeWord, hprefix, ih h.2]
    rfl

theorem toNat_lt (u : Uuid) : u.toNat < 16 ^ 32 := u.bits.isLt

theorem ofNat_toNat (u : Uuid) : ofNat u.toNat = u := by
  rw [ofNat, toNat, BitVec.ofNat_toNat, BitVec.setWidth_eq]

/-- Hexadecimal digits and hyphens are all that is written. -/
theorem mem_chars {u : Uuid} {c : Char} (h : c ∈ u.chars) :
    c = '-' ∨ ∃ d < 16, c = Text.hexDigit d := by
  have hdigit : ∀ {width n}, c ∈ Text.hexDigits width n → ∃ d < 16, c = Text.hexDigit d := by
    intro width n hc
    rw [Text.hexDigits_eq_map] at hc
    obtain ⟨d, hd, rfl⟩ := List.mem_map.1 hc
    exact ⟨d, Text.lt_of_mem_hexValues hd, rfl⟩
  simp only [chars, List.mem_append, List.mem_cons] at h
  rcases h with (((h | h | h) | h | h) | h | h) | h | h
  all_goals first
    | exact .inl h
    | exact .inr (hdigit h)

/-- Without the hyphens, the written form is the number of the identifier. -/
theorem filter_chars (u : Uuid) : u.chars.filter (· != '-') = Text.hexDigits 32 u.toNat := by
  have hkeep (width n : Nat) :
      (Text.hexDigits width n).filter (· != '-') = Text.hexDigits width n := by
    rw [List.filter_eq_self]
    intro c hc
    rw [Text.hexDigits_eq_map] at hc
    obtain ⟨d, hd, rfl⟩ := List.mem_map.1 hc
    have hnot := (Text.hexDigit_spec d (Text.lt_of_mem_hexValues hd)).2.2
    simp only [List.mem_cons, not_or] at hnot
    simpa using hnot.1
  have hshift (n a b c : Nat) (h : a = 4 * (b + c)) : n >>> a = n >>> (4 * b) / 16 ^ c := by
    have hpow : (16 : Nat) ^ c = 2 ^ (4 * c) := by rw [Nat.pow_mul]
    rw [Nat.shiftRight_eq_div_pow, Nat.shiftRight_eq_div_pow, hpow, Nat.div_div_eq_div_mul,
      ← Nat.pow_add, h, Nat.mul_add]
  simp only [chars, List.filter_append, List.filter_cons, hkeep, bne_self_eq_false,
    Bool.false_eq_true, if_false]
  -- from the front on, each group of digits is joined to the next one
  rw [hshift u.toNat 96 20 4 rfl, Text.hexDigits_append, hshift u.toNat (4 * 20) 16 4 rfl,
    Text.hexDigits_append, hshift u.toNat (4 * 16) 12 4 rfl, Text.hexDigits_append,
    hshift u.toNat (4 * 12) 0 12 rfl, Nat.mul_zero, Nat.shiftRight_zero, Text.hexDigits_append]

/-- **Read back.**  The lenient reader reads every written identifier. -/
theorem read?_text (u : Uuid) : read? u.text = some u := by
  have hnot : ∀ c ∈ ['+', 'x', 'X', '_', 'u', '{', '}'], c ∉ u.chars := by
    intro c hc hmem
    rcases mem_chars hmem with rfl | ⟨d, hd, rfl⟩
    · exact absurd hc (by decide)
    · exact (Text.hexDigit_spec d hd).2.2 (List.mem_cons_of_mem _ hc)
  have hbraces : ∀ c ∈ u.chars, (c == '{' || c == '}') = false := by
    intro c hc
    rw [Bool.or_eq_false_iff, beq_eq_false_iff_ne, beq_eq_false_iff_ne]
    constructor <;> rintro rfl <;> exact hnot _ (by decide) hc
  have hurn : removeWord "urn:".toList u.chars = u.chars :=
    removeWord_of_notMem (hnot 'u' (by decide))
  have huuid : removeWord "uuid:".toList u.chars = u.chars :=
    removeWord_of_notMem (hnot 'u' (by decide))
  have hnumber : u.toNat % 16 ^ (30 + 2) = u.toNat := Nat.mod_eq_of_lt u.toNat_lt
  -- none of the words and braces that the reader drops can occur
  unfold read?
  simp only [text, String.toList_ofList, hurn, huuid, Text.stripEnds_eq_self hbraces,
    filter_chars, Text.length_hexDigits, if_true]
  rw [Text.readHex?_hexDigits 30, hnumber]
  simp [ofNat_toNat]

/-- No two identifiers are written alike. -/
theorem text_injective {u v : Uuid} (h : u.text = v.text) : u = v := by
  have hread := read?_text u
  rw [h, read?_text v] at hread
  exact (Option.some.inj hread).symm

theorem text_inj {u v : Uuid} : u.text = v.text ↔ u = v :=
  ⟨text_injective, congrArg text⟩

/-- The written form is not empty. -/
theorem text_ne_empty (u : Uuid) : u.text ≠ "" := by
  intro h
  have hread := read?_text u
  rw [h] at hread
  exact absurd hread (by simp [read?, removeWord, Text.stripEnds])

end Uuid

end Agenda
