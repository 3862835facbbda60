import Tcam.Json.Basic

/-!
# The grammar of JSON text

Which runs of characters are JSON, without a word about how they are read.  Blanks
may stand around every value and every name.  A string literal is described by its
elements, characters and UTF-16 units, and a literal names a string only if each
surrogate among them has its partner (`Denotes`).  `ObjectText` describes an object
by the names of its members and the texts of their values.
-/

namespace Tcam.Json

/-- Any number of blanks. -/
def Blanks (cs : List Char) : Prop :=
  ∀ c ∈ cs, c = ' ' ∨ c = '\n' ∨ c = '\t' ∨ c = '\r'

/-! ## Numbers -/

/-- At least one decimal digit. -/
def Digits (cs : List Char) : Prop :=
  cs ≠ [] ∧ ∀ c ∈ cs, '0' ≤ c ∧ c ≤ '9'

/-- A leading zero stands alone. -/
def Whole (cs : List Char) : Prop :=
  cs = ['0'] ∨ Digits cs ∧ cs.head? ≠ some '0'

def Fraction (cs : List Char) : Prop :=
  cs = [] ∨ ∃ ds, Digits ds ∧ cs = '.' :: ds

def Exponent (cs : List Char) : Prop :=
  cs = [] ∨ ∃ e sign ds, e ∈ ['e', 'E'] ∧ sign ∈ [[], ['+'], ['-']] ∧ Digits ds ∧
    cs = e :: (sign ++ ds)

def Numeral (cs : List Char) : Prop :=
  ∃ sign whole fraction exponent, sign ∈ [[], ['-']] ∧ Whole whole ∧ Fraction fraction ∧
    Exponent exponent ∧ cs = sign ++ (whole ++ (fraction ++ exponent))

/-! ## Strings -/

/-- The letters that may follow a backslash, and the characters that they stand for. -/
def escapes : List (Char × Char) :=
  [('\x22', '\x22'), ('\\', '\\'), ('/', '/'), ('b', '\x08'), ('f', '\x0c'), ('n', '\n'),
   ('r', '\r'), ('t', '\t')]

/-- A hexadecimal digit, in either case. -/
def HexDigit (c : Char) (n : Nat) : Prop :=
  n < 16 ∧ (c = Nat.digitChar n ∨ c = (Nat.digitChar n).toUpper)

/-- Four hexadecimal digits name a UTF-16 unit. -/
inductive UnitText : List Char → Word → Prop
  | digits {a b c d : Char} {i j k l : Nat} (ha : HexDigit a i) (hb : HexDigit b j)
      (hc : HexDigit c k) (hd : HexDigit d l) :
      UnitText [a, b, c, d] (BitVec.ofNat 16 (16 * (16 * (16 * i + j) + k) + l))

/-- What stands between the quotation marks of a string literal, and its elements. -/
inductive Literal : List Char → List TextItem → Prop
  | nil : Literal [] []
  | char {c : Char} {cs : List Char} {items : List TextItem} (hquote : c ≠ '\x22')
      (hbackslash : c ≠ '\\') (hcontrol : 0x20 ≤ c.toNat) (h : Literal cs items) :
      Literal (c :: cs) (.char c :: items)
  | escape {e c : Char} {cs : List Char} {items : List TextItem} (he : (e, c) ∈ escapes)
      (h : Literal cs items) : Literal ('\\' :: e :: cs) (.char c :: items)
  | unit {u : Word} {ds cs : List Char} {items : List TextItem} (hu : UnitText ds u)
      (h : Literal cs items) : Literal ('\\' :: 'u' :: (ds ++ cs)) (.unit u :: items)

/-- The characters that the elements of a literal stand for. -/
inductive Denotes : List TextItem → List Char → Prop
  | nil : Denotes [] []
  | char {c : Char} {items : List TextItem} {cs : List Char} (h : Denotes items cs) :
      Denotes (.char c :: items) (c :: cs)
  | unit {u : Word} {items : List TextItem} {cs : List Char}
      (hu : u.toNat < 0xd800 ∨ 0xe000 ≤ u.toNat) (h : Denotes items cs) :
      Denotes (.unit u :: items) (Char.ofNat u.toNat :: cs)
  | pair {u v : Word} {items : List TextItem} {cs : List Char}
      (hhigh : 0xd800 ≤ u.toNat ∧ u.toNat < 0xdc00) (hlow : 0xdc00 ≤ v.toNat ∧ v.toNat < 0xe000)
      (h : Denotes items cs) :
      Denotes (.unit u :: .unit v :: items)
        (Char.ofNat (0x10000 + 0x400 * (u.toNat - 0xd800) + (v.toNat - 0xdc00)) :: cs)

/-! ## Values -/

/-- What a run of characters can be.  An element is a value with blanks around it. -/
inductive Symbol where
  | value
  | element
  | elements
  | member
  | members

/-- The characters are a text of the kind. -/
inductive Derives : Symbol → List Char → Prop
  | null : Derives .value "null".toList
  | true : Derives .value "true".toList
  | false : Derives .value "false".toList
  | number {cs : List Char} (h : Numeral cs) : Derives .value cs
  | string {cs : List Char} {items : List TextItem} (h : Literal cs items) :
      Derives .value ('\x22' :: (cs ++ ['\x22']))
  | emptyArray {cs : List Char} (h : Blanks cs) : Derives .value ('[' :: (cs ++ [']']))
  | array {cs : List Char} (h : Derives .elements cs) : Derives .value ('[' :: (cs ++ [']']))
  | emptyObject {cs : List Char} (h : Blanks cs) :
      Derives .value ('\x7b' :: (cs ++ ['\x7d']))
  | object {cs : List Char} (h : Derives .members cs) :
      Derives .value ('\x7b' :: (cs ++ ['\x7d']))
  | element {before cs after : List Char} (hbefore : Blanks before) (h : Derives .value cs)
      (hafter : Blanks after) : Derives .element (before ++ (cs ++ after))
  | lastElement {cs : List Char} (h : Derives .element cs) : Derives .elements cs
  | elements {cs rest : List Char} (h : Derives .element cs) (hrest : Derives .elements rest) :
      Derives .elements (cs ++ ',' :: rest)
  | member {before name between cs : List Char} {items : List TextItem}
      (hbefore : Blanks before) (hname : Literal name items) (hbetween : Blanks between)
      (h : Derives .element cs) :
      Derives .member (before ++ '\x22' :: (name ++ '\x22' :: (between ++ ':' :: cs)))
  | lastMember {cs : List Char} (h : Derives .member cs) : Derives .members cs
  | members {cs rest : List Char} (h : Derives .member cs) (hrest : Derives .members rest) :
      Derives .members (cs ++ ',' :: rest)

/-! ## Objects -/

/-- One member of an object: the string that names it, and the text of its value. -/
structure Member where
  name : String
  value : List Char

/-- The text of a member. -/
inductive MemberText : Member → List Char → Prop
  | member {m : Member} {items : List TextItem} {before name between front back : List Char}
      (hbefore : Blanks before) (hname : Literal name items)
      (hstring : Denotes items m.name.toList) (hbetween : Blanks between) (hfront : Blanks front)
      (hvalue : Derives .value m.value) (hback : Blanks back) :
      MemberText m (before ++
        '\x22' :: (name ++ '\x22' :: (between ++ ':' :: (front ++ (m.value ++ back)))))

/-- The text of some members, at least one. -/
inductive MembersText : List Member → List Char → Prop
  | last {m : Member} {cs : List Char} (h : MemberText m cs) : MembersText [m] cs
  | cons {m : Member} {members : List Member} {cs rest : List Char} (h : MemberText m cs)
      (hrest : MembersText members rest) : MembersText (m :: members) (cs ++ ',' :: rest)

/-- The text of an object. -/
inductive ObjectText : List Member → List Char → Prop
  | empty {cs : List Char} (h : Blanks cs) : ObjectText [] ('\x7b' :: (cs ++ ['\x7d']))
  | members {members : List Member} {cs : List Char} (h : MembersText members cs) :
      ObjectText members ('\x7b' :: (cs ++ ['\x7d']))

theorem MemberText.derives {m : Member} {cs : List Char} (h : MemberText m cs) :
    Derives .member cs := by
  obtain ⟨hbefore, hname, -, hbetween, hfront, hvalue, hback⟩ := h
  exact .member hbefore hname hbetween (.element hfront hvalue hback)

theorem MembersText.derives {members : List Member} {cs : List Char}
    (h : MembersText members cs) : Derives .members cs := by
  induction h with
  | last h => exact .lastMember h.derives
  | cons h _ ih => exact .members h.derives ih

/-- The text of an object is the text of a value. -/
theorem ObjectText.derives {members : List Member} {cs : List Char}
    (h : ObjectText members cs) : Derives .value cs := by
  cases h with
  | empty h => exact .emptyObject h
  | members h => exact .object h.derives

end Tcam.Json
