import Mathlib.Data.Bool.AllAny
import Mathlib.Data.List.Forall2
import Tcam.Shape.Text

/-!
# The texts that name a shape

Reading a name puts the whole text in capitals, and a capital form can have
several characters and can lead from outside ASCII into it.  The names use ten
characters, and a capital form is one of these alone for three reasons only: the
character is there already, it is the small letter, or it is the dotless `ı`,
whose capital is `I`.  Hence the texts that name a shape are compared with its
name character by character, and a text whose capital form has another length
names none.

The long `ſ` is the only other character outside ASCII whose capital form is one
ASCII letter, and no name has an `S`.
-/

namespace Tcam

namespace Casing

/-- The characters that the names of shapes are made of. -/
def letters : List Char :=
  ['I', 'P', 'V', '4', '6', '_', 'T', 'C', 'U', 'D']

/-- A character stands for a letter: it is the letter in either case, or the
dotless `ı` in place of `I`. -/
def Spells (c d : Char) : Prop :=
  c = d ∨ c = d.toLower ∨ (c = '\u0131' ∧ d = 'I')

/-- The runs whose capitals are ASCII letters: the small letters, `ı` and `ſ`. -/
def asciiRuns : List Run :=
  [⟨0x0061, 0x007a, 1, -32⟩, ⟨0x0131, 0x0131, 1, -232⟩, ⟨0x017f, 0x017f, 1, -300⟩]

theorem mem_asciiRuns_of_mem_runs :
    ∀ r ∈ runs, 128 ≤ r.first + r.shift ∨ r ∈ asciiRuns := by
  decide +kernel

/-- Each capital form of several characters has one that no name uses. -/
theorem exists_not_mem_letters_of_mem_longForms :
    ∀ p ∈ longForms, ∃ n ∈ p.2, Char.ofNat n ∉ letters := by
  decide +kernel

theorem ascii_of_mem_letters : ∀ d ∈ letters, d ≠ '\x00' ∧ d.toNat < 128 ∧ d ≠ 'S' := by
  -- Only the list is to be gone through, not all characters.
  rw [← List.all_iff_forall_prop]
  decide

theorem toLower_of_mem_letters :
    ∀ d ∈ letters, 0x61 ≤ d.toNat + 32 ∧ d.toNat + 32 ≤ 0x7a →
      d.toLower = Char.ofNat (d.toNat + 32) := by
  rw [← List.all_iff_forall_prop]
  decide

theorem capital_of_mem_letters : ∀ d ∈ letters, capital d = [d] ∧ capital d.toLower = [d] := by
  rw [← List.all_iff_forall_prop]
  decide +kernel

variable {c d : Char} {cs : List Char}

theorem eq_toNat_of_ofNat_eq {n : Nat} (h : Char.ofNat n = d) (hd : d ≠ '\x00') :
    n = d.toNat := by
  unfold Char.ofNat at h
  by_cases hvalid : n.isValidChar
  · rw [dif_pos hvalid] at h
    exact congrArg Char.toNat h
  · rw [dif_neg hvalid] at h
    exact absurd h.symm hd

theorem Run.covers_iff {r : Run} {n : Nat} :
    r.covers n = true ↔ r.first ≤ n ∧ n ≤ r.last ∧ (n - r.first) % r.step = 0 := by
  simp [Run.covers, and_assoc]

/-- A run that leads to a letter leads there from its small form or from `ı`. -/
theorem spells_of_image {r : Run} (hr : r ∈ runs) (hcovers : r.covers c.toNat = true)
    (hd : d ∈ letters) (himage : Char.ofNat (r.image c.toNat) = d) : Spells c d := by
  obtain ⟨hzero, hascii, hlong⟩ := ascii_of_mem_letters d hd
  obtain ⟨hfirst, hlast, -⟩ := Run.covers_iff.mp hcovers
  have hcode : (c.toNat + r.shift).toNat = d.toNat := eq_toNat_of_ofNat_eq himage hzero
  rcases mem_asciiRuns_of_mem_runs r hr with habove | hmem
  · -- All capitals of the run lie outside ASCII.
    omega
  · simp only [asciiRuns, List.mem_cons, List.not_mem_nil, or_false] at hmem
    rcases hmem with rfl | rfl | rfl <;> dsimp only at hfirst hlast hcode
    · have hcapital : d.toNat + 32 = c.toNat := by omega
      have hlower : d.toLower = c := by
        rw [toLower_of_mem_letters d hd (by omega), hcapital, Char.ofNat_toNat]
      exact .inr (.inl hlower.symm)
    · have hdotless : c.toNat = 0x131 ∧ d.toNat = 0x49 := by omega
      exact .inr (.inr ⟨Char.toNat_inj.mp hdotless.1, Char.toNat_inj.mp hdotless.2⟩)
    · -- The long `ſ` leads to a letter that no name has.
      have hs : d.toNat = 0x53 := by omega
      exact absurd (Char.toNat_inj.mp hs) hlong

/-- A capital form made of letters is a single one, and the character stands for
it. -/
theorem spells_of_capital (h : ∀ d ∈ capital c, d ∈ letters) :
    ∃ d, capital c = [d] ∧ Spells c d := by
  unfold capital at h ⊢
  split at h
  · next form hform =>
      obtain ⟨before, after, hsplit, -⟩ := List.lookup_eq_some_iff.mp hform
      obtain ⟨n, hn, hout⟩ :=
        exists_not_mem_letters_of_mem_longForms (c.toNat, form) (by simp [hsplit])
      -- A long form would bring a character with it that is no letter.
      exact absurd (h _ (List.mem_map_of_mem hn)) hout
  · next =>
      split at h
      · next r hr =>
          have hcovers : r.covers c.toNat = true := by simpa using List.find?_some hr
          exact ⟨_, rfl, spells_of_image (List.mem_of_find?_eq_some hr) hcovers
            (h _ (List.mem_singleton_self _)) rfl⟩
      · next => exact ⟨c, rfl, .inl rfl⟩

theorem capital_of_spells (hd : d ∈ letters) (h : Spells c d) : capital c = [d] := by
  rcases h with rfl | rfl | ⟨rfl, rfl⟩
  · exact (capital_of_mem_letters c hd).1
  · exact (capital_of_mem_letters d hd).2
  · decide +kernel

theorem upper_cons : upper (c :: cs) = capital c ++ upper cs := by
  simp [upper]

/-- A text is a word of letters in capitals exactly if its characters stand for
the letters one by one. -/
theorem upper_eq_iff {word : List Char} (hword : ∀ d ∈ word, d ∈ letters) :
    upper cs = word ↔ List.Forall₂ Spells cs word := by
  induction cs generalizing word with
  | nil => simp [upper, eq_comm]
  | cons c cs ih =>
      rw [upper_cons]
      constructor
      · rintro rfl
        obtain ⟨d, hcapital, hspells⟩ :=
          spells_of_capital fun d hd => hword d (List.mem_append_left _ hd)
        rw [hcapital]
        exact .cons hspells ((ih fun d hd => hword d (List.mem_append_right _ hd)).mp rfl)
      · intro h
        cases h with
        | cons hspells hrest =>
            rw [capital_of_spells (hword _ List.mem_cons_self) hspells,
              (ih fun d hd => hword d (List.mem_cons_of_mem _ hd)).mpr hrest]
            rfl

end Casing

namespace Shape

open Casing

variable {s t : Shape} {cs : List Char} {input : String}

theorem mem_letters_of_mem_text (s : Shape) : ∀ d ∈ s.text.toList, d ∈ letters := by
  rw [← List.all_iff_forall_prop]
  obtain ⟨network, transport⟩ := s
  cases network <;> cases transport <;> decide

theorem mem_all (s : Shape) : s ∈ all := by
  obtain ⟨network, transport⟩ := s
  cases network <;> cases transport <;> decide

theorem text_injective : ∀ s ∈ all, ∀ t ∈ all, s.text.toList = t.text.toList → s = t := by
  decide

theorem ofChars?_eq_some_iff : ofChars? cs = some s ↔ upper cs = s.text.toList := by
  constructor
  · intro h
    have hname : (s.text.toList == upper cs) = true := by
      simpa using List.find?_some h
    exact (beq_iff_eq.mp hname).symm
  · intro h
    cases hfound : ofChars? cs with
    | none =>
        have hdiffers := List.find?_eq_none.mp hfound s (mem_all s)
        exact absurd (beq_iff_eq.mpr h.symm) hdiffers
    | some t =>
        have hname : (t.text.toList == upper cs) = true := by
          simpa using List.find?_some hfound
        have hsame : t.text.toList = s.text.toList := (beq_iff_eq.mp hname).trans h
        rw [text_injective t (mem_all t) s (mem_all s) hsame]

/-- A text is read as a shape exactly if its characters stand for those of the
name. -/
theorem parse_eq_ok_iff :
    parse input = .ok s ↔ List.Forall₂ Spells input.toList s.text.toList := by
  rw [← upper_eq_iff (mem_letters_of_mem_text s), ← ofChars?_eq_some_iff]
  unfold parse
  cases ofChars? input.toList <;> simp

/-- There is one way to refuse a text. -/
theorem parse_eq_error_iff :
    parse input = .error (.invalidArgument (.unknownShape input)) ↔ ∀ s, parse input ≠ .ok s := by
  unfold parse
  cases ofChars? input.toList <;> simp

/-- A text read as a shape keeps its length when it is put in capitals. -/
theorem length_upper_of_parse_eq_ok (h : parse input = .ok s) :
    (upper input.toList).length = input.toList.length := by
  have hspells : List.Forall₂ Spells input.toList s.text.toList := parse_eq_ok_iff.mp h
  rw [(upper_eq_iff (mem_letters_of_mem_text s)).mpr hspells, hspells.length_eq]

/-- A text is read as a shape exactly if it has as many characters as the name of
the shape and each stands for the letter in its place: the letter in either case,
or the dotless `ı` for `I`.  Every other text is refused as an unknown shape, and so
is each text that has another number of characters when it is put in capitals. -/
theorem parse_grammar (input : String) :
    (∀ s : Shape, parse input = .ok s ↔ List.Forall₂ Spells input.toList s.text.toList) ∧
    (parse input = .error (.invalidArgument (.unknownShape input)) ↔
      ∀ s : Shape, ¬ List.Forall₂ Spells input.toList s.text.toList) ∧
    ((upper input.toList).length ≠ input.toList.length →
      parse input = .error (.invalidArgument (.unknownShape input))) := by
  refine ⟨fun s => parse_eq_ok_iff, ?_, ?_⟩
  · rw [parse_eq_error_iff]
    simp only [ne_eq, parse_eq_ok_iff]
  · intro hlength
    exact parse_eq_error_iff.mpr fun s hok => hlength (length_upper_of_parse_eq_ok hok)

/-- The capital form of `ẗ` is a `T` with a combining mark, so it does not stand
for a `T`. -/
theorem parse_grammar_markedLetter :
    (upper "ipv4_\u1e97cp".toList).length ≠ "ipv4_\u1e97cp".toList.length ∧
      parse "ipv4_\u1e97cp" = .error (.invalidArgument (.unknownShape "ipv4_\u1e97cp")) := by
  have hlonger : (upper "ipv4_\u1e97cp".toList).length ≠ "ipv4_\u1e97cp".toList.length := by
    decide +kernel
  exact ⟨hlonger, (parse_grammar "ipv4_\u1e97cp").2.2 hlonger⟩

/-- The dotless `ı` is read as an `I`. -/
example : parse "\u0131pV4_Tcp" = .ok ⟨.ipv4, .tcp⟩ := by
  rfl

end Shape

end Tcam
