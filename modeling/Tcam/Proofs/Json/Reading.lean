import Mathlib.Data.List.Basic
import Tcam.Json.Reader
import Tcam.Proofs.Json.Grammar
import Tcam.Proofs.Text.Hex

/-!
# Every JSON text is read

The reader accepts every text that the grammar derives (`understood_of_derives`), whatever
follows it and with one unit of fuel for each of its characters.  A number ends where no
further character can belong to it, so only there something is asked of what follows
(`Stops`).
-/

namespace Tcam.Json

variable {c : Char} {cs bs rest : List Char} {fuel : Nat} {j : Json}

-- The equations are the readers' steps: what each first character is taken for.
attribute [simp] readString readValue readItems readMembers

/-! ## Blanks -/

theorem isBlank_iff : isBlank c = true ↔ c = ' ' ∨ c = '\n' ∨ c = '\t' ∨ c = '\r' := by
  simp [isBlank, or_assoc]

theorem skipBlank_append (h : Blanks bs) (cs : List Char) :
    skipBlank (bs ++ cs) = skipBlank cs := by
  unfold skipBlank
  rw [List.dropWhile_append_of_pos fun c hc => isBlank_iff.mpr (h c hc)]

theorem skipBlank_cons (hc : isBlank c = false) (cs : List Char) :
    skipBlank (c :: cs) = c :: cs := by
  rw [skipBlank, List.dropWhile_cons_of_neg (Bool.eq_false_iff.mp hc)]

theorem skipBlank_eq_nil (h : Blanks bs) : skipBlank bs = [] := by
  rw [← List.append_nil bs, skipBlank_append h, skipBlank, List.dropWhile_nil]

/-- What stands behind blanks is found. -/
theorem skipBlank_append_cons (h : Blanks bs) (hc : isBlank c = false) (cs : List Char) :
    skipBlank (bs ++ c :: cs) = c :: cs := by
  rw [skipBlank_append h, skipBlank_cons hc]

@[simp]
theorem skipBlank_skipBlank (cs : List Char) : skipBlank (skipBlank cs) = skipBlank cs := by
  induction cs with
  | nil => rfl
  | cons c cs ih =>
      by_cases hc : isBlank c = true
      · have hskip : skipBlank (c :: cs) = skipBlank cs := List.dropWhile_cons_of_pos hc
        rw [hskip, ih]
      · have hskip := skipBlank_cons (Bool.eq_false_iff.mpr hc) cs
        rw [hskip, hskip]

theorem Blanks.append {bs' : List Char} (h : Blanks bs) (h' : Blanks bs') : Blanks (bs ++ bs') :=
  fun c hc => (List.mem_append.mp hc).elim (h c) (h' c)

/-! ## Numbers -/

/-- The first of the characters, if there is one, does not have the property. -/
def Stops (p : Char → Bool) (cs : List Char) : Prop :=
  ∀ c, cs.head? = some c → p c = false

theorem stops_nil (p : Char → Bool) : Stops p [] :=
  fun _ h => nomatch h

theorem stops_cons {p : Char → Bool} (hc : p c = false) : Stops p (c :: cs) := by
  intro d hd
  obtain rfl := Option.some.inj hd
  exact hc

theorem Stops.mono {p q : Char → Bool} (h : Stops p cs) (hpq : ∀ c, q c = true → p c = true) :
    Stops q cs :=
  fun c hc => Bool.eq_false_iff.mpr fun hq => Bool.eq_false_iff.mp (h c hc) (hpq c hq)

/-- Blanks stop what what follows them stops. -/
theorem Stops.append {p : Char → Bool} (h : Stops p rest) (hbs : Blanks bs)
    (hp : ∀ c, isBlank c = true → p c = false) : Stops p (bs ++ rest) := by
  cases bs with
  | nil => exact h
  | cons b bs => exact stops_cons (hp b (isBlank_iff.mpr (hbs b List.mem_cons_self)))

/-- The character can belong to the digits of a whole part or start a fraction. -/
def continuesFraction (c : Char) : Bool :=
  isDigit c || c == '.'

/-- The character can continue a number. -/
def continuesNumber (c : Char) : Bool :=
  continuesFraction c || c == 'e' || c == 'E'

theorem isDigit_iff : isDigit c = true ↔ '0' ≤ c ∧ c ≤ '9' := by
  simp [isDigit]

theorem readDigits_append {ds : List Char} (h : Digits ds) (hrest : Stops isDigit rest) :
    readDigits (ds ++ rest) = some (ds, rest) := by
  have hds : ∀ d ∈ ds, isDigit d = true := fun d hd => isDigit_iff.mpr (h.2 d hd)
  have hnone : rest.takeWhile isDigit = [] ∧ rest.dropWhile isDigit = rest := by
    cases rest with
    | nil => exact ⟨rfl, rfl⟩
    | cons c rest =>
        have hc := hrest c rfl
        simp [hc]
  unfold readDigits
  rw [List.takeWhile_append_of_pos hds, List.dropWhile_append_of_pos hds, hnone.1, hnone.2,
    List.append_nil]
  cases ds with
  | nil => exact absurd rfl h.1
  | cons d ds => rfl

theorem readWhole_append {whole : List Char} (h : Whole whole) (hrest : Stops isDigit rest) :
    readWhole (whole ++ rest) = some (digitsValue whole, rest) := by
  rcases h with rfl | ⟨hdigits, hzero⟩
  · rfl
  · have hread := readDigits_append hdigits hrest
    cases whole with
    | nil => exact absurd rfl hdigits.1
    | cons d ds =>
        have hd : d ≠ '0' := fun hd => hzero (congrArg some hd)
        unfold readWhole
        split
        · next heq => exact absurd (List.cons.inj heq).1 hd
        · rw [hread]
          rfl

theorem readFraction_append {fraction : List Char} (h : Fraction fraction)
    (hrest : Stops continuesFraction rest) :
    readFraction (fraction ++ rest) = some (fraction, rest) := by
  have hdigits : Stops isDigit rest := hrest.mono fun c hc => by simp [continuesFraction, hc]
  rcases h with rfl | ⟨ds, hds, rfl⟩
  · cases rest with
    | nil => rfl
    | cons c rest =>
        have hc : c ≠ '.' := by
          rintro rfl
          exact nomatch hrest _ rfl
        unfold readFraction
        split
        · next heq => exact absurd (List.cons.inj heq).1 hc
        · rfl
  · rw [List.cons_append, readFraction, readDigits_append hds hdigits]
    rfl

theorem readExponent_append {exponent : List Char} (h : Exponent exponent)
    (hrest : Stops continuesNumber rest) :
    readExponent (exponent ++ rest) = some (exponent, rest) := by
  have hdigits : Stops isDigit rest :=
    hrest.mono fun c hc => by simp [continuesNumber, continuesFraction, hc]
  rcases h with rfl | ⟨e, sign, ds, he, hsign, hds, rfl⟩
  · cases rest with
    | nil => rfl
    | cons c rest =>
        have hc := hrest c rfl
        have hne : ¬(c = 'e' ∨ c = 'E') := by
          rintro (rfl | rfl)
          · exact nomatch hc
          · exact nomatch hc
        exact if_neg hne
  · have hread := readDigits_append hds hdigits
    have hletter : e = 'e' ∨ e = 'E' := by
      simpa using he
    refine (if_pos hletter).trans ?_
    simp only [List.mem_cons, List.not_mem_nil, or_false] at hsign
    rcases hsign with rfl | rfl | rfl
    · -- The first digit is no sign.
      obtain ⟨d, ds, rfl⟩ := List.exists_cons_of_ne_nil hds.1
      have hdigit := isDigit_iff.mpr (hds.2 d List.mem_cons_self)
      split
      · next heq =>
          obtain rfl := (List.cons.inj heq).1
          exact nomatch hdigit
      · next heq =>
          obtain rfl := (List.cons.inj heq).1
          exact nomatch hdigit
      · exact congrArg (Option.map _) hread
    · exact congrArg (Option.map _) hread
    · exact congrArg (Option.map _) hread

theorem Exponent.stops {exponent : List Char} (h : Exponent exponent)
    (hrest : Stops continuesNumber rest) : Stops continuesFraction (exponent ++ rest) := by
  rcases h with rfl | ⟨e, sign, ds, he, -, -, rfl⟩
  · exact hrest.mono fun c hc => by simp [continuesNumber, hc]
  · have hletter : e = 'e' ∨ e = 'E' := by
      simpa using he
    rcases hletter with rfl | rfl
    · exact stops_cons rfl
    · exact stops_cons rfl

theorem Fraction.stops {fraction : List Char} (h : Fraction fraction)
    (hrest : Stops continuesFraction rest) : Stops isDigit (fraction ++ rest) := by
  rcases h with rfl | ⟨ds, -, rfl⟩
  · exact hrest.mono fun c hc => by simp [continuesFraction, hc]
  · exact stops_cons rfl

theorem readUnsigned_append {whole fraction exponent : List Char} (hwhole : Whole whole)
    (hfraction : Fraction fraction) (hexponent : Exponent exponent)
    (hrest : Stops continuesNumber rest) (negative : Bool) :
    readUnsigned negative (whole ++ (fraction ++ (exponent ++ rest))) =
      some (⟨negative, digitsValue whole, fraction ++ exponent⟩, rest) := by
  have hstops := hexponent.stops hrest
  unfold readUnsigned
  rw [readWhole_append hwhole (hfraction.stops hstops)]
  change (readFraction (fraction ++ (exponent ++ rest)) >>= fun _ => _) = _
  rw [readFraction_append hfraction hstops]
  change (readExponent (exponent ++ rest) >>= fun _ => _) = _
  rw [readExponent_append hexponent hrest]
  rfl

/-- Numbers start with a digit or with a sign. -/
def startsNumber (c : Char) : Bool :=
  isDigit c || c == '-'

theorem Whole.exists_cons {whole : List Char} (h : Whole whole) :
    ∃ d ds, whole = d :: ds ∧ isDigit d = true := by
  rcases h with rfl | ⟨hdigits, -⟩
  · exact ⟨'0', [], rfl, rfl⟩
  · obtain ⟨d, ds, rfl⟩ := List.exists_cons_of_ne_nil hdigits.1
    exact ⟨d, ds, rfl, isDigit_iff.mpr (hdigits.2 d List.mem_cons_self)⟩

theorem readNumber_append {sign whole fraction exponent : List Char} (hsign : sign ∈ [[], ['-']])
    (hwhole : Whole whole) (hfraction : Fraction fraction) (hexponent : Exponent exponent)
    (hrest : Stops continuesNumber rest) :
    readNumber (sign ++ (whole ++ (fraction ++ (exponent ++ rest)))) =
      some (⟨sign == ['-'], digitsValue whole, fraction ++ exponent⟩, rest) := by
  have hread := readUnsigned_append hwhole hfraction hexponent hrest
  rcases List.mem_pair.mp hsign with rfl | rfl
  · unfold readNumber
    split
    · next heq =>
        obtain ⟨d, ds, rfl, hdigit⟩ := hwhole.exists_cons
        obtain rfl := (List.cons.inj heq).1
        exact nomatch hdigit
    · exact hread false
  · exact hread true

theorem Numeral.exists_cons (h : Numeral cs) : ∃ c cs', cs = c :: cs' ∧ startsNumber c = true := by
  obtain ⟨sign, whole, fraction, exponent, hsign, hwhole, -, -, rfl⟩ := h
  rcases List.mem_pair.mp hsign with rfl | rfl
  · obtain ⟨d, ds, rfl, hdigit⟩ := hwhole.exists_cons
    exact ⟨d, _, rfl, by simp [startsNumber, hdigit]⟩
  · exact ⟨'-', _, rfl, rfl⟩

/-! ## String literals -/

theorem hexUnit?_of_unitText {ds : List Char} {u : Word} (h : UnitText ds u) :
    hexUnit? ds = some u := by
  cases h with
  | digits ha hb hc hd =>
      simp only [hexUnit?, Hex.nat?, Hex.continueNat?, Hex.digit?_of_hexDigit ha,
        Hex.digit?_of_hexDigit hb, Hex.digit?_of_hexDigit hc, Hex.digit?_of_hexDigit hd,
        Option.map_some, Nat.mul_zero, Nat.zero_add]

theorem escaped?_of_mem {e : Char} (h : (e, c) ∈ escapes) : escaped? e = some c ∧ e ≠ 'u' := by
  have hall : ∀ p ∈ escapes, escaped? p.1 = some p.2 ∧ p.1 ≠ 'u' := by
    decide
  exact hall (e, c) h

theorem readString_char {items : List TextItem} {rest' : List Char} (hquote : c ≠ '\x22')
    (hbackslash : c ≠ '\\') (hcontrol : 0x20 ≤ c.toNat)
    (h : readString rest = some (items, rest')) :
    readString (c :: rest) = some (.char c :: items, rest') := by
  have hkept : ¬(c = '\\' ∨ c.toNat < 0x20) := not_or.mpr ⟨hbackslash, Nat.not_lt.mpr hcontrol⟩
  unfold readString
  split
  · next heq => cases heq
  · next heq => exact absurd (List.cons.inj heq).1 hquote
  · next heq => exact absurd (List.cons.inj heq).1 hbackslash
  · next heq => exact absurd (List.cons.inj heq).1 hbackslash
  · next heq =>
      obtain ⟨rfl, rfl⟩ := List.cons.inj heq
      rw [if_neg hkept, h]
      rfl

theorem readString_escape {e : Char} {items : List TextItem} {rest' : List Char}
    (he : (e, c) ∈ escapes) (h : readString rest = some (items, rest')) :
    readString ('\\' :: e :: rest) = some (.char c :: items, rest') := by
  obtain ⟨hescaped, hu⟩ := escaped?_of_mem he
  unfold readString
  split
  · next heq => cases heq
  · next heq => exact absurd (List.cons.inj heq).1 (by decide)
  · next heq => exact absurd (List.cons.inj (List.cons.inj heq).2).1 hu
  · next heq =>
      obtain ⟨rfl, rfl⟩ := List.cons.inj (List.cons.inj heq).2
      rw [hescaped, h]
      rfl
  · next hother heq =>
      obtain ⟨hc, hrest⟩ := List.cons.inj heq
      exact (hother e rest hc.symm hrest.symm).elim

theorem readString_unit {ds : List Char} {u : Word} {items : List TextItem} {rest' : List Char}
    (hu : UnitText ds u) (h : readString rest = some (items, rest')) :
    readString ('\\' :: 'u' :: (ds ++ rest)) = some (.unit u :: items, rest') := by
  have hunit := hexUnit?_of_unitText hu
  cases hu with
  | digits ha hb hc hd =>
      simp only [List.cons_append, List.nil_append]
      rw [readString, hunit, h]
      rfl

/-- A literal is read up to its closing quotation mark. -/
theorem readString_append {items : List TextItem} (h : Literal cs items) (rest : List Char) :
    readString (cs ++ '\x22' :: rest) = some (items, rest) := by
  induction h with
  | nil => rfl
  | char hquote hbackslash hcontrol _ ih => exact readString_char hquote hbackslash hcontrol ih
  | escape he _ ih => exact readString_escape he ih
  | unit hu _ ih =>
      rw [List.cons_append, List.cons_append, List.append_assoc]
      exact readString_unit hu ih

theorem isHigh_iff {u : Word} :
    TextItem.isHigh u = true ↔ 0xd800 ≤ u.toNat ∧ u.toNat < 0xdc00 := by
  simp only [TextItem.isHigh, Bool.and_eq_true, decide_eq_true_eq, BitVec.le_def]
  exact and_congr_right fun _ => Nat.lt_succ_iff.symm

theorem isLow_iff {u : Word} :
    TextItem.isLow u = true ↔ 0xdc00 ≤ u.toNat ∧ u.toNat < 0xe000 := by
  simp only [TextItem.isLow, Bool.and_eq_true, decide_eq_true_eq, BitVec.le_def]
  exact and_congr_right fun _ => Nat.lt_succ_iff.symm

/-- The characters that a literal stands for are found. -/
theorem chars?_of_denotes {items : List TextItem} (h : Denotes items cs) :
    TextItem.chars? items = some cs := by
  induction h with
  | nil => rfl
  | char _ ih =>
      rw [TextItem.chars?, ih]
      rfl
  | @unit u items _ hu _ ih =>
      have hhigh : TextItem.isHigh u = false := by
        rw [Bool.eq_false_iff, Ne, isHigh_iff]
        omega
      have hlow : TextItem.isLow u = false := by
        rw [Bool.eq_false_iff, Ne, isLow_iff]
        omega
      -- The unit stands for itself, whatever the next element is.
      unfold TextItem.chars?
      split
      · next heq => cases heq
      · next heq => cases heq
      · next heq =>
          obtain ⟨hunit, rfl⟩ := List.cons.inj heq
          obtain rfl := TextItem.unit.inj hunit
          simp only [hhigh, hlow, Bool.false_and, Bool.or_self, Bool.false_eq_true, if_false, ih,
            Option.map_some]
      · next heq =>
          obtain ⟨hunit, rfl⟩ := List.cons.inj heq
          obtain rfl := TextItem.unit.inj hunit
          simp only [hhigh, hlow, Bool.or_self, Bool.false_eq_true, if_false, ih, Option.map_some]
  | pair hhigh hlow _ ih =>
      rw [TextItem.chars?, isHigh_iff.mpr hhigh, isLow_iff.mpr hlow, ih]
      rfl

/-! ## Values -/

theorem readValue_skipBlank (fuel : Nat) (cs : List Char) :
    readValue fuel (skipBlank cs) = readValue fuel cs := by
  cases fuel with
  | zero => rfl
  | succ fuel => rw [readValue, readValue, skipBlank_skipBlank]

theorem readItems_skipBlank (fuel : Nat) (cs : List Char) :
    readItems fuel (skipBlank cs) = readItems fuel cs := by
  cases fuel with
  | zero => rfl
  | succ fuel => rw [readItems, readItems, readValue_skipBlank]

theorem readMembers_skipBlank (fuel : Nat) (cs : List Char) :
    readMembers fuel (skipBlank cs) = readMembers fuel cs := by
  cases fuel with
  | zero => rfl
  | succ fuel => rw [readMembers, readMembers, skipBlank_skipBlank]

theorem readValue_append (h : Blanks bs) (fuel : Nat) (cs : List Char) :
    readValue fuel (bs ++ cs) = readValue fuel cs := by
  rw [← readValue_skipBlank, skipBlank_append h, readValue_skipBlank]

/-- The characters are read as the value, but for blanks at their end. -/
def Reads (cs : List Char) (j : Json) : Prop :=
  ∃ after, Blanks after ∧ ∀ fuel, cs.length ≤ fuel → ∀ rest, Stops continuesNumber rest →
    readValue fuel (cs ++ rest) = some (j, after ++ rest)

/-- The characters are read as elements of an array, up to the closing bracket. -/
def ReadsItems (cs : List Char) (items : List Json) : Prop :=
  ∀ fuel, cs.length < fuel → ∀ rest, readItems fuel (cs ++ ']' :: rest) = some (items, rest)

/-- The characters are read as a member of an object, the last or another one. -/
def ReadsMember (cs : List Char) (m : List TextItem × Json) : Prop :=
  ∀ fuel, cs.length ≤ fuel → ∀ rest,
    readMembers (fuel + 1) (cs ++ '\x7d' :: rest) = some ([m], rest) ∧
    readMembers (fuel + 1) (cs ++ ',' :: rest) =
      (readMembers fuel rest).map fun r => (m :: r.1, r.2)

/-- The characters are read as members of an object, up to the closing brace. -/
def ReadsMembers (cs : List Char) (members : List (List TextItem × Json)) : Prop :=
  ∀ fuel, cs.length < fuel → ∀ rest, readMembers fuel (cs ++ '\x7d' :: rest) = some (members, rest)

/-- A value of at least one character that is read whatever follows it. -/
theorem Reads.intro (hread : ∀ fuel, cs.length ≤ fuel + 1 → ∀ rest,
    Stops continuesNumber rest → readValue (fuel + 1) (cs ++ rest) = some (j, rest))
    (hcs : cs ≠ []) : Reads cs j := by
  refine ⟨[], nofun, fun fuel hfuel rest hrest => ?_⟩
  cases fuel with
  | zero => exact absurd (List.eq_nil_of_length_eq_zero (Nat.le_zero.mp hfuel)) hcs
  | succ fuel => exact hread fuel hfuel rest hrest

theorem reads_null : Reads "null".toList .null :=
  .intro (fun fuel _ rest _ => by rw [readValue]; rfl) (by decide)

theorem reads_true : Reads "true".toList (.bool true) :=
  .intro (fun fuel _ rest _ => by rw [readValue]; rfl) (by decide)

theorem reads_false : Reads "false".toList (.bool false) :=
  .intro (fun fuel _ rest _ => by rw [readValue]; rfl) (by decide)

theorem readValue_number (hc : startsNumber c = true) (fuel : Nat) (cs : List Char) :
    readValue (fuel + 1) (c :: cs) = (readNumber (c :: cs)).map fun r => (.number r.1, r.2) := by
  have hblank : isBlank c = false := by
    rw [Bool.eq_false_iff, Ne, isBlank_iff]
    rintro (rfl | rfl | rfl | rfl) <;> cases hc
  have hne {d : Char} {ds ds' : List Char} (hd : startsNumber d = false) (h : c :: ds = d :: ds') :
      False := by
    rw [(List.cons.inj h).1, hd] at hc
    cases hc
  rw [readValue, skipBlank_cons hblank]
  split
  · next heq => exact (hne rfl heq).elim
  · next heq => exact (hne rfl heq).elim
  · next heq => exact (hne rfl heq).elim
  · next heq => exact (hne rfl heq).elim
  · next heq => exact (hne rfl heq).elim
  · next heq => exact (hne rfl heq).elim
  · rfl

theorem reads_number {sign whole fraction exponent : List Char} (hsign : sign ∈ [[], ['-']])
    (hwhole : Whole whole) (hfraction : Fraction fraction) (hexponent : Exponent exponent) :
    Reads (sign ++ (whole ++ (fraction ++ exponent)))
      (.number ⟨sign == ['-'], digitsValue whole, fraction ++ exponent⟩) := by
  have hnumeral : Numeral (sign ++ (whole ++ (fraction ++ exponent))) :=
    ⟨sign, whole, fraction, exponent, hsign, hwhole, hfraction, hexponent, rfl⟩
  obtain ⟨c, cs, hcs, hc⟩ := hnumeral.exists_cons
  refine .intro (fun fuel _ rest hrest => ?_) (hcs ▸ List.cons_ne_nil c cs)
  have hread := readNumber_append hsign hwhole hfraction hexponent hrest
  simp only [← List.append_assoc] at hread hcs ⊢
  rw [hcs, List.cons_append, readValue_number hc, ← List.cons_append, ← hcs, hread]
  rfl

theorem reads_string {items : List TextItem} (h : Literal cs items) :
    Reads ('\x22' :: (cs ++ ['\x22'])) (.string items) := by
  refine .intro (fun fuel _ rest _ => ?_) (List.cons_ne_nil _ _)
  rw [List.cons_append, List.append_assoc, readValue, skipBlank_cons rfl]
  exact congrArg (Option.map _) (readString_append h rest)

/-! ### Arrays -/

theorem reads_emptyArray (h : Blanks cs) : Reads ('[' :: (cs ++ [']'])) (.array []) := by
  refine .intro (fun fuel _ rest _ => ?_) (List.cons_ne_nil _ _)
  rw [List.cons_append, List.append_assoc, readValue, skipBlank_cons rfl]
  simp only [List.singleton_append, skipBlank_append_cons h (rfl : isBlank ']' = false)]

/-- No value starts with a bracket that closes. -/
theorem skipBlank_ne_bracket {r : List Json × List Char} (h : readItems fuel cs = some r)
    (tail : List Char) : skipBlank cs ≠ ']' :: tail := by
  intro hskip
  have hnone (n : Nat) : readValue n cs = none := by
    cases n with
    | zero => rfl
    | succ n =>
        rw [readValue, hskip]
        rfl
  cases fuel with
  | zero => cases h
  | succ fuel =>
      rw [readItems, hnone] at h
      cases h

theorem readValue_array (fuel : Nat) (h : ∀ tail, skipBlank cs ≠ ']' :: tail) :
    readValue (fuel + 1) ('[' :: cs) =
      (readItems fuel (skipBlank cs)).map fun r => (.array r.1, r.2) := by
  have hfirst : skipBlank ('[' :: cs) = '[' :: cs := skipBlank_cons rfl cs
  -- The assumption rules out the other branch.
  simp only [readValue, hfirst]

theorem reads_array {items : List Json} (h : ReadsItems cs items) :
    Reads ('[' :: (cs ++ [']'])) (.array items) := by
  refine .intro (fun fuel hfuel rest _ => ?_) (List.cons_ne_nil _ _)
  have hread := h fuel (by simp at hfuel; omega) rest
  rw [List.cons_append, List.append_assoc, List.singleton_append,
    readValue_array fuel (skipBlank_ne_bracket hread), readItems_skipBlank, hread]
  rfl

theorem reads_element {before after : List Char} (hbefore : Blanks before) (h : Reads cs j)
    (hafter : Blanks after) : Reads (before ++ (cs ++ after)) j := by
  obtain ⟨left, hleft, hread⟩ := h
  refine ⟨left ++ after, hleft.append hafter, fun fuel hfuel rest hrest => ?_⟩
  simp only [List.length_append] at hfuel
  have hstops : Stops continuesNumber (after ++ rest) := by
    refine hrest.append hafter fun c hc => ?_
    rcases isBlank_iff.mp hc with rfl | rfl | rfl | rfl <;> rfl
  rw [List.append_assoc, readValue_append hbefore, List.append_assoc,
    hread fuel (by omega) _ hstops, List.append_assoc]

theorem readsItems_last (h : Reads cs j) : ReadsItems cs [j] := by
  intro fuel hfuel rest
  obtain ⟨left, hleft, hread⟩ := h
  cases fuel with
  | zero => cases hfuel
  | succ fuel =>
      rw [readItems, hread fuel (Nat.lt_succ_iff.mp hfuel) _ (stops_cons rfl)]
      simp only [skipBlank_append_cons hleft (rfl : isBlank ']' = false)]

theorem readsItems_cons {rest : List Char} {items : List Json} (h : Reads cs j)
    (hrest : ReadsItems rest items) : ReadsItems (cs ++ ',' :: rest) (j :: items) := by
  intro fuel hfuel behind
  obtain ⟨left, hleft, hread⟩ := h
  simp only [List.length_append, List.length_cons] at hfuel
  cases fuel with
  | zero => cases hfuel
  | succ fuel =>
      rw [List.append_assoc, List.cons_append, readItems,
        hread fuel (by omega) _ (stops_cons rfl)]
      simp only [skipBlank_append_cons hleft (rfl : isBlank ',' = false)]
      rw [hrest fuel (by omega)]
      rfl

/-! ### Objects -/

theorem reads_emptyObject (h : Blanks cs) : Reads ('\x7b' :: (cs ++ ['\x7d'])) (.object []) := by
  refine .intro (fun fuel _ rest _ => ?_) (List.cons_ne_nil _ _)
  rw [List.cons_append, List.append_assoc, readValue, skipBlank_cons rfl]
  simp only [List.singleton_append, skipBlank_append_cons h (rfl : isBlank '\x7d' = false)]

/-- Members start with a name. -/
theorem skipBlank_ne_brace {r : List (List TextItem × Json) × List Char}
    (h : readMembers fuel cs = some r) (tail : List Char) : skipBlank cs ≠ '\x7d' :: tail := by
  intro hskip
  cases fuel with
  | zero => cases h
  | succ fuel =>
      rw [readMembers, hskip] at h
      cases h

theorem readValue_object (fuel : Nat) (h : ∀ tail, skipBlank cs ≠ '\x7d' :: tail) :
    readValue (fuel + 1) ('\x7b' :: cs) =
      (readMembers fuel (skipBlank cs)).map fun r => (.object r.1, r.2) := by
  have hfirst : skipBlank ('\x7b' :: cs) = '\x7b' :: cs := skipBlank_cons rfl cs
  -- The assumption rules out the other branch.
  simp only [readValue, hfirst]

theorem reads_object {members : List (List TextItem × Json)} (h : ReadsMembers cs members) :
    Reads ('\x7b' :: (cs ++ ['\x7d'])) (.object members) := by
  refine .intro (fun fuel hfuel rest _ => ?_) (List.cons_ne_nil _ _)
  have hread := h fuel (by simp at hfuel; omega) rest
  rw [List.cons_append, List.append_assoc, List.singleton_append,
    readValue_object fuel (skipBlank_ne_brace hread), readMembers_skipBlank, hread]
  rfl

theorem readsMember {before name between : List Char} {items : List TextItem}
    (hbefore : Blanks before) (hname : Literal name items) (hbetween : Blanks between)
    (h : Reads cs j) :
    ReadsMember (before ++ '\x22' :: (name ++ '\x22' :: (between ++ ':' :: cs))) (items, j) := by
  intro fuel hfuel rest
  obtain ⟨left, hleft, hread⟩ := h
  simp only [List.length_append, List.length_cons] at hfuel
  have hvalue (c : Char) (hc : continuesNumber c = false) :
      readValue fuel (cs ++ c :: rest) = some (j, left ++ c :: rest) :=
    hread fuel (by omega) _ (stops_cons hc)
  simp only [List.append_assoc, List.cons_append, readMembers,
    skipBlank_append_cons hbefore (rfl : isBlank '\x22' = false), readString_append hname,
    skipBlank_append_cons hbetween (rfl : isBlank ':' = false), hvalue '\x7d' rfl, hvalue ',' rfl,
    skipBlank_append_cons hleft (rfl : isBlank '\x7d' = false),
    skipBlank_append_cons hleft (rfl : isBlank ',' = false), and_self]

theorem readsMembers_last {m : List TextItem × Json} (h : ReadsMember cs m) :
    ReadsMembers cs [m] := by
  intro fuel hfuel rest
  cases fuel with
  | zero => cases hfuel
  | succ fuel => exact (h fuel (Nat.lt_succ_iff.mp hfuel) rest).1

theorem readsMembers_cons {rest : List Char} {m : List TextItem × Json}
    {members : List (List TextItem × Json)} (h : ReadsMember cs m)
    (hrest : ReadsMembers rest members) : ReadsMembers (cs ++ ',' :: rest) (m :: members) := by
  intro fuel hfuel behind
  simp only [List.length_append, List.length_cons] at hfuel
  cases fuel with
  | zero => cases hfuel
  | succ fuel =>
      rw [List.append_assoc, List.cons_append, (h fuel (by omega) _).2, hrest fuel (by omega)]
      rfl

/-- What the reader makes of a text of the kind. -/
def Understood (cs : List Char) : Symbol → Prop
  | .value | .element => ∃ j, Reads cs j
  | .elements => ∃ items, ReadsItems cs items
  | .member => ∃ m, ReadsMember cs m
  | .members => ∃ members, ReadsMembers cs members

/-- Every text of the grammar is read. -/
theorem understood_of_derives {symbol : Symbol} (h : Derives symbol cs) : Understood cs symbol := by
  induction h with
  | null => exact ⟨_, reads_null⟩
  | true => exact ⟨_, reads_true⟩
  | false => exact ⟨_, reads_false⟩
  | number h =>
      obtain ⟨sign, whole, fraction, exponent, hsign, hwhole, hfraction, hexponent, rfl⟩ := h
      exact ⟨_, reads_number hsign hwhole hfraction hexponent⟩
  | string h => exact ⟨_, reads_string h⟩
  | emptyArray h => exact ⟨_, reads_emptyArray h⟩
  | array _ ih => exact ih.elim fun _ h => ⟨_, reads_array h⟩
  | emptyObject h => exact ⟨_, reads_emptyObject h⟩
  | object _ ih => exact ih.elim fun _ h => ⟨_, reads_object h⟩
  | element hbefore _ hafter ih => exact ih.elim fun _ h => ⟨_, reads_element hbefore h hafter⟩
  | lastElement _ ih => exact ih.elim fun _ h => ⟨_, readsItems_last h⟩
  | elements _ _ ih ihrest =>
      obtain ⟨j, hj⟩ := ih
      obtain ⟨items, hitems⟩ := ihrest
      exact ⟨_, readsItems_cons hj hitems⟩
  | member hbefore hname hbetween _ ih =>
      exact ih.elim fun _ h => ⟨_, readsMember hbefore hname hbetween h⟩
  | lastMember _ ih => exact ih.elim fun _ h => ⟨_, readsMembers_last h⟩
  | members _ _ ih ihrest =>
      obtain ⟨m, hm⟩ := ih
      obtain ⟨members, hmembers⟩ := ihrest
      exact ⟨_, readsMembers_cons hm hmembers⟩

/-- A text has one value only. -/
theorem Reads.unique {j' : Json} (h : Reads cs j) (h' : Reads cs j') : j = j' := by
  obtain ⟨_, -, hread⟩ := h
  obtain ⟨_, -, hread'⟩ := h'
  have hsame := hread cs.length (Nat.le_refl _) [] (stops_nil _)
  rw [hread' cs.length (Nat.le_refl _) [] (stops_nil _)] at hsame
  exact (Prod.mk.inj (Option.some.inj hsame)).1.symm

theorem ofChars?_of_reads (h : Reads cs j) : ofChars? cs = some j := by
  obtain ⟨after, hafter, hread⟩ := h
  have hwhole := hread (cs.length + 1) (Nat.le_succ _) [] (stops_nil _)
  rw [List.append_nil, List.append_nil] at hwhole
  unfold ofChars?
  rw [hwhole]
  exact if_pos (skipBlank_eq_nil hafter)

/-! ## Natural numbers -/

theorem head?_toDigits {n : Nat} (hn : 0 < n) : (Nat.toDigits 10 n).head? ≠ some '0' := by
  have hsingle : ∀ m < 10, 0 < m → Nat.digitChar m ≠ '0' := by
    decide
  induction n using Nat.strongRecOn with
  | ind n ih =>
      by_cases hlt : n < 10
      · rw [Nat.toDigits_of_lt_base hlt]
        exact fun h => hsingle n hlt hn (Option.some.inj h)
      · have hquotient : 0 < n / 10 := by omega
        have hhead := ih (n / 10) (by omega) hquotient
        rw [Nat.toDigits_of_base_le (by decide) (Nat.le_of_not_lt hlt)]
        obtain ⟨d, ds, hds⟩ := List.exists_cons_of_ne_nil (Nat.toDigits_ne_nil (n := n / 10))
        rw [hds] at hhead ⊢
        exact hhead

theorem digits_toDigits (n : Nat) : Digits (Nat.toDigits 10 n) := by
  refine ⟨Nat.toDigits_ne_nil, fun c hc => ?_⟩
  have hdigit := Nat.isDigit_of_mem_toDigits (by decide) (Nat.le_refl 10) hc
  simp only [Char.isDigit, Bool.and_eq_true, decide_eq_true_eq] at hdigit
  exact hdigit

theorem whole_toDigits (n : Nat) : Whole (Nat.toDigits 10 n) := by
  cases n with
  | zero => exact Or.inl rfl
  | succ n => exact Or.inr ⟨digits_toDigits _, head?_toDigits n.succ_pos⟩

theorem numeral_toDigits (n : Nat) : Numeral (Nat.toDigits 10 n) :=
  ⟨[], Nat.toDigits 10 n, [], [], by decide, whole_toDigits n, Or.inl rfl, Or.inl rfl, by simp⟩

theorem reads_toDigits (n : Nat) : Reads (Nat.toDigits 10 n) (.ofNat n) := by
  have hread : Reads ([] ++ (Nat.toDigits 10 n ++ ([] ++ []))) _ :=
    reads_number (by decide) (whole_toDigits n) (Or.inl rfl) (Or.inl rfl)
  have hvalue : digitsValue (Nat.toDigits 10 n) = n :=
    Nat.ofDigitChars_toDigits (by decide) (Nat.le_refl 10)
  rw [hvalue, List.append_nil, List.append_nil] at hread
  exact hread

end Tcam.Json
