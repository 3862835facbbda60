import Mathlib.Data.List.Induction
import Tcam.MacAddress
import Tcam.Proofs.Text.Hex

/-!
# The texts that spell an address

A text is cut at its colons, or at its hyphens if it has no colon.  It spells an
address exactly if there are six parts and each is a hexadecimal number of any
length that an octet can hold, perhaps with a plus sign in front; the octets of
the address are these numbers in order.  What an address is written as is one of
its texts.
-/

namespace Tcam.MacAddress

variable {separator : Char} {part cs : List Char} {parts : List (List Char)}
  {o : Octet} {os : List Octet} {m : MacAddress} {input : String} {i k : Nat}

/-! ## Octets -/

@[simp] theorem length_octets (m : MacAddress) : m.octets.length = 6 := by
  simp [octets]

theorem getElem?_octets (m : MacAddress) (hi : i < 6) :
    m.octets[i]? = some (m.extractLsb' (8 * (5 - i)) 8) := by
  simp [octets, hi]

/-- An address is known by its octets. -/
theorem octets_injective {m n : MacAddress} (h : m.octets = n.octets) : m = n := by
  apply BitVec.eq_of_getLsbD_eq
  intro bit hbit
  have hoctet : m.octets[5 - bit / 8]? = n.octets[5 - bit / 8]? := by rw [h]
  rw [getElem?_octets m (by omega), getElem?_octets n (by omega), Option.some.injEq] at hoctet
  have hvalue := congrArg (·.getLsbD (bit % 8)) hoctet
  have hposition : 8 * (5 - (5 - bit / 8)) + bit % 8 = bit := by omega
  simpa [BitVec.getLsbD_extractLsb', hposition, Nat.mod_lt] using hvalue

theorem ofOctets_append (os : List Octet) (o : Octet) :
    ofOctets (os ++ [o]) = ofOctets os <<< 8 ||| o.setWidth 48 := by
  simp [ofOctets]

theorem extractLsb'_ofOctets_append_zero :
    (ofOctets (os ++ [o])).extractLsb' 0 8 = o := by
  apply BitVec.eq_of_getLsbD_eq
  intro bit hbit
  simp [ofOctets_append, hbit]
  omega

/-- One more octet moves those in front of it up. -/
theorem extractLsb'_ofOctets_append_succ (hk : k < 5) :
    (ofOctets (os ++ [o])).extractLsb' (8 * (k + 1)) 8 =
      (ofOctets os).extractLsb' (8 * k) 8 := by
  apply BitVec.eq_of_getLsbD_eq
  intro bit hbit
  have hhigh : ¬ 8 * (k + 1) + bit < 8 := by omega
  have hbelow : 8 * (k + 1) + bit < 48 := by omega
  have hposition : 8 * (k + 1) + bit - 8 = 8 * k + bit := by omega
  have hempty : o.getLsbD (8 * (k + 1) + bit) = false := BitVec.getLsbD_of_ge o _ (by omega)
  simp only [ofOctets_append, BitVec.getLsbD_extractLsb', BitVec.getLsbD_or,
    BitVec.getLsbD_shiftLeft, BitVec.getLsbD_setWidth, hbit, hhigh, hbelow, hposition, hempty,
    decide_true, decide_false, Bool.true_and, Bool.not_false, Bool.and_false, Bool.or_false]

/-- Counted from the end, octet `k` of at most six lies at bit `8 * k`. -/
theorem getElem?_reverse_eq_extractLsb' (hos : os.length ≤ 6) (hk : k < os.length) :
    os.reverse[k]? = some ((ofOctets os).extractLsb' (8 * k) 8) := by
  -- The fold ends with the lowest octet, so octets are taken from the end.
  induction os using List.reverseRecOn generalizing k with
  | nil => simp at hk
  | append_singleton os o ih =>
      rw [List.length_append, List.length_singleton] at hos hk
      rw [List.reverse_concat]
      cases k with
      | zero => simp [extractLsb'_ofOctets_append_zero]
      | succ k =>
          rw [List.getElem?_cons_succ, extractLsb'_ofOctets_append_succ (by omega)]
          exact ih (by omega) (by omega)

/-- Six octets are those of their address. -/
theorem octets_ofOctets (h : os.length = 6) : (ofOctets os).octets = os := by
  apply List.ext_getElem?
  intro i
  rcases Nat.lt_or_ge i 6 with hi | hi
  · have hindex : os.length - 1 - (5 - i) = i := by omega
    rw [getElem?_octets _ hi, ← getElem?_reverse_eq_extractLsb' (by omega) (by omega),
      List.getElem?_reverse (by omega), hindex]
  · rw [List.getElem?_eq_none (by simpa using hi), List.getElem?_eq_none (by omega)]

theorem ofOctets_octets (m : MacAddress) : ofOctets m.octets = m :=
  octets_injective (octets_ofOctets (length_octets m))

/-! ## Parts -/

theorem split_eq_splitOn : split separator cs = cs.splitOn separator := by
  rw [List.splitOn_eq_splitOnP]
  induction cs with
  | nil => rfl
  | cons c cs ih =>
      rw [List.splitOnP_cons_eq_if_modifyHead, split, ih]
      obtain ⟨part, parts, hparts⟩ :=
        List.exists_cons_of_ne_nil (List.splitOnP_ne_nil (· == separator) cs)
      by_cases hc : c = separator
      · simp [hc]
      · simp [hc, hparts]

/-- A part spells an octet: behind an optional plus sign it is a hexadecimal
number, the octet's. -/
def SpellsOctet (part : List Char) (o : Octet) : Prop :=
  ∃ sign digits, sign ∈ [[], ['+']] ∧ part = sign ++ digits ∧ Hex.Numeral digits o.toNat

theorem SpellsOctet.of_numeral (h : Hex.Numeral part o.toNat) : SpellsOctet part o :=
  ⟨[], part, List.mem_cons_self, rfl, h⟩

theorem ofNat_eq_iff {n : Nat} : n < 256 ∧ BitVec.ofNat 8 n = o ↔ n = o.toNat := by
  constructor
  · rintro ⟨hn, rfl⟩
    simp [Nat.mod_eq_of_lt hn]
  · rintro rfl
    exact ⟨o.isLt, by rw [BitVec.ofNat_toNat, BitVec.setWidth_eq]⟩

/-- Behind a plus sign stands a number. -/
theorem octet?_plus {digits : List Char} :
    octet? ('+' :: digits) = some o ↔ Hex.Numeral digits o.toNat := by
  rw [← Hex.nat?_eq_some_iff]
  cases hn : Hex.nat? digits with
  | none => simp [octet?, hn]
  | some n => simp [octet?, hn, ofNat_eq_iff]

/-- A part without a plus sign is read as it is with one. -/
theorem octet?_eq_octet?_plus (h : ∀ digits, part ≠ '+' :: digits) :
    octet? part = octet? ('+' :: part) := by
  unfold octet?
  split
  · next digits => exact absurd rfl (h digits)
  · next => rfl

theorem octet?_eq_some_iff : octet? part = some o ↔ SpellsOctet part o := by
  constructor
  · intro h
    by_cases hplus : ∃ digits, part = '+' :: digits
    · obtain ⟨digits, rfl⟩ := hplus
      exact ⟨['+'], digits, by simp, rfl, octet?_plus.mp h⟩
    · rw [octet?_eq_octet?_plus fun digits hpart => hplus ⟨digits, hpart⟩] at h
      exact .of_numeral (octet?_plus.mp h)
  · rintro ⟨sign, digits, hsign, rfl, hnumeral⟩
    rcases List.mem_pair.mp hsign with rfl | rfl
    · -- A number without a sign does not start with one.
      have hplus : ∀ rest, digits ≠ '+' :: rest := by
        rintro rest rfl
        exact hnumeral.not_mem rfl List.mem_cons_self
      rw [List.nil_append, octet?_eq_octet?_plus hplus]
      exact octet?_plus.mpr hnumeral
    · exact octet?_plus.mpr hnumeral

theorem octets?_eq_some_iff : octets? parts = some os ↔ List.Forall₂ SpellsOctet parts os := by
  induction parts generalizing os with
  | nil => simp [octets?, List.forall₂_nil_left_iff, eq_comm]
  | cons part parts ih =>
      constructor
      · intro h
        cases ho : octet? part with
        | none => simp [octets?, ho] at h
        | some o =>
            cases hos : octets? parts with
            | none => simp [octets?, ho, hos] at h
            | some rest =>
                simp only [octets?, ho, hos, Option.some.injEq] at h
                exact h ▸ .cons (octet?_eq_some_iff.mp ho) (ih.mp hos)
      · intro h
        cases h with
        | cons hfirst hrest =>
            simp only [octets?, octet?_eq_some_iff.mpr hfirst, ih.mpr hrest]

theorem exists_octets_iff :
    (∃ os, List.Forall₂ SpellsOctet parts os) ↔ ∀ part ∈ parts, ∃ o, SpellsOctet part o := by
  induction parts with
  | nil => simp [List.forall₂_nil_left_iff]
  | cons part parts ih =>
      rw [List.forall_mem_cons, ← ih]
      constructor
      · rintro ⟨os, h⟩
        cases h with
        | cons hfirst hrest => exact ⟨⟨_, hfirst⟩, _, hrest⟩
      · rintro ⟨⟨o, hfirst⟩, os, hrest⟩
        exact ⟨o :: os, .cons hfirst hrest⟩

/-- Some address has the octets that the parts spell exactly if there are six
parts that spell one each. -/
theorem exists_address_iff :
    (∃ m : MacAddress, List.Forall₂ SpellsOctet parts m.octets) ↔
      parts.length = 6 ∧ ∀ part ∈ parts, ∃ o, SpellsOctet part o := by
  rw [← exists_octets_iff]
  constructor
  · rintro ⟨m, h⟩
    exact ⟨h.length_eq.trans m.length_octets, _, h⟩
  · rintro ⟨hlength, os, h⟩
    have hos : os.length = 6 := h.length_eq.symm.trans hlength
    exact ⟨ofOctets os, (octets_ofOctets hos).symm ▸ h⟩

/-! ## Texts -/

/-- The parts of a text: between its colons, or between its hyphens if it has no
colon. -/
def partsOf (text : String) : List (List Char) :=
  text.toList.splitOn (if ':' ∈ text.toList then ':' else '-')

theorem ofChars?_eq_some_iff :
    ofChars? input.toList = some m ↔ octets? (partsOf input) = some m.octets := by
  have hparts : split (if ':' ∈ input.toList then ':' else '-') input.toList = partsOf input :=
    split_eq_splitOn
  cases hos : octets? (partsOf input) with
  | none => simp [ofChars?, hparts, hos]
  | some os =>
      by_cases hlength : os.length = 6
      · simp only [ofChars?, hparts, hos, hlength, if_true, Option.some.injEq]
        constructor
        · rintro rfl
          exact (octets_ofOctets hlength).symm
        · rintro rfl
          exact ofOctets_octets m
      · have hother : os ≠ m.octets := by
          rintro rfl
          exact hlength m.length_octets
        simp [ofChars?, hparts, hos, hlength, hother]

theorem parse_eq_ok_iff :
    parse input = .ok m ↔ List.Forall₂ SpellsOctet (partsOf input) m.octets := by
  rw [← octets?_eq_some_iff, ← ofChars?_eq_some_iff]
  unfold parse
  cases ofChars? input.toList <;> simp

/-- There is one way to refuse a text. -/
theorem parse_eq_error_iff :
    parse input = .error (.invalidArgument (.malformedMac input)) ↔ ∀ m, parse input ≠ .ok m := by
  unfold parse
  cases ofChars? input.toList <;> simp

theorem partsOf_text (m : MacAddress) :
    partsOf m.text = m.octets.map fun o => (Hex.padded o).toList := by
  have htext : m.text.toList =
      [':'].intercalate (m.octets.map fun o => (Hex.padded o).toList) := by
    simp [text, String.toList_intercalate, Function.comp_def]
  have hcolon : ':' ∈ m.text.toList := by
    rw [htext]
    simp [octets, List.range_succ, List.intercalate]
  have hplain : ∀ part ∈ m.octets.map fun o => (Hex.padded o).toList, ':' ∉ part := by
    simp only [List.mem_map]
    rintro _ ⟨o, -, rfl⟩
    exact (Hex.numeral_padded o).not_mem rfl
  have hparts : m.octets.map (fun o => (Hex.padded o).toList) ≠ [] := by
    simp [octets]
  rw [partsOf, if_pos hcolon, htext, List.splitOn_intercalate ':' hplain hparts]

theorem parse_text (m : MacAddress) : parse m.text = .ok m := by
  rw [parse_eq_ok_iff, partsOf_text, List.forall₂_map_left_iff, List.forall₂_same]
  intro o ho
  exact .of_numeral (Hex.numeral_padded o)

/-- A text is read as an address exactly if it has six parts and they spell the
octets of the address in order; any other text is refused as malformed.  What an
address is written as is read as that address. -/
theorem parse_six_octets :
    (∀ (input : String) (m : MacAddress), parse input = .ok m ↔
      (partsOf input).length = 6 ∧ List.Forall₂ SpellsOctet (partsOf input) m.octets) ∧
    (∀ input : String, parse input = .error (.invalidArgument (.malformedMac input)) ↔
      ¬ ((partsOf input).length = 6 ∧ ∀ part ∈ partsOf input, ∃ o, SpellsOctet part o)) ∧
    ∀ m : MacAddress, parse m.text = .ok m := by
  refine ⟨fun input m => ?_, fun input => ?_, parse_text⟩
  · rw [parse_eq_ok_iff]
    constructor
    · intro h
      exact ⟨h.length_eq.trans m.length_octets, h⟩
    · exact And.right
  · rw [parse_eq_error_iff, ← exists_address_iff, not_exists]
    simp only [ne_eq, parse_eq_ok_iff]

/-- A part may have a plus sign and any number of zeros in front. -/
example : parse "00-+1-0002-aB-00-F" = .ok (ofOctets [0x00, 0x01, 0x02, 0xab, 0x00, 0x0f]) := by
  rfl

end Tcam.MacAddress
