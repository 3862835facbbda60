import Mathlib.Data.List.Forall2
import Tcam.Config.Json
import Tcam.Proofs.Json.Reading

/-!
# Configurations in JSON text

Which texts describe a configuration (`Config.Describes`): objects in which each known
member occurs once or is left out, and any members of other names besides.  Loading such a
text validates the configuration that it describes (`load_of_describes`), and the text
written for a configuration describes it (`describes_text`).
-/

namespace Tcam

namespace Json

/-! ## Members by name -/

/-- The texts of all values that the members give to a name. -/
def valuesOf (members : List Member) (name : String) : List (List Char) :=
  (members.filter fun m => m.name == name).map Member.value

/-- One member has the name, and its value is as `Says` tells. -/
def Gives (members : List Member) (name : String) (Says : List Char → Prop) : Prop :=
  ∃ cs, valuesOf members name = [cs] ∧ Says cs

/-- The decoded member has the name of the member and the value that its text says. -/
def Agrees (m : Member) (p : String × Json) : Prop :=
  p.1 = m.name ∧ Reads m.value p.2

variable {members : List Member} {named : List (String × Json)} {cs : List Char} {j : Json}

theorem readsMember_of_memberText {m : Member} (h : MemberText m cs) :
    ∃ items j, ReadsMember cs (items, j) ∧ TextItem.chars? items = some m.name.toList ∧
      Reads m.value j := by
  obtain ⟨hbefore, hname, hstring, hbetween, hfront, hvalue, hback⟩ := h
  obtain ⟨j, hj⟩ := understood_of_derives hvalue
  exact ⟨_, j, readsMember hbefore hname hbetween (reads_element hfront hj hback),
    chars?_of_denotes hstring, hj⟩

theorem readsMembers_of_membersText (h : MembersText members cs) :
    ∃ js named, ReadsMembers cs js ∧ namedMembers? js = some named ∧
      List.Forall₂ Agrees members named := by
  have hname (m : Member) : String.ofList m.name.toList = m.name := String.ofList_toList
  induction h with
  | @last m cs h =>
      obtain ⟨items, j, hread, hchars, hj⟩ := readsMember_of_memberText h
      refine ⟨[(items, j)], [(m.name, j)], readsMembers_last hread, ?_, .cons ⟨rfl, hj⟩ .nil⟩
      simp only [namedMembers?, hchars, hname]
  | @cons m _ cs rest h _ ih =>
      obtain ⟨items, j, hread, hchars, hj⟩ := readsMember_of_memberText h
      obtain ⟨js, named, hreads, hnamed, hagree⟩ := ih
      refine ⟨(items, j) :: js, (m.name, j) :: named, readsMembers_cons hread hreads, ?_,
        .cons ⟨rfl, hj⟩ hagree⟩
      simp only [namedMembers?, hchars, hnamed, hname]

/-- An object is read with its names and the values of its members. -/
theorem reads_of_objectText (h : ObjectText members cs) :
    ∃ js named, Reads cs (.object js) ∧ namedMembers? js = some named ∧
      List.Forall₂ Agrees members named := by
  cases h with
  | empty h => exact ⟨[], [], reads_emptyObject h, rfl, .nil⟩
  | members h =>
      obtain ⟨js, named, hread, hnamed, hagree⟩ := readsMembers_of_membersText h
      exact ⟨js, named, reads_object hread, hnamed, hagree⟩

theorem forall₂_valuesOf (h : List.Forall₂ Agrees members named) (name : String) :
    List.Forall₂ Reads (valuesOf members name)
      ((named.filter fun p => p.1 == name).map Prod.snd) := by
  induction h with
  | nil => exact .nil
  | @cons m p _ _ hm _ ih =>
      obtain ⟨hname, hvalue⟩ := hm
      unfold valuesOf
      by_cases hp : m.name = name
      · simp only [List.filter_cons, hname, hp, beq_self_eq_true, if_true, List.map_cons]
        exact .cons hvalue ih
      · simp only [List.filter_cons, hname, beq_eq_false_iff_ne.mpr hp, Bool.false_eq_true,
          if_false]
        exact ih

theorem member?_of_valuesOf_eq_nil (h : List.Forall₂ Agrees members named) {name : String}
    (hvalues : valuesOf members name = []) : member? name named = some none := by
  have hforall := forall₂_valuesOf h name
  rw [hvalues, List.forall₂_nil_left_iff, List.map_eq_nil_iff] at hforall
  rw [member?, hforall]

theorem Gives.exists_member? {name : String} {Says : List Char → Prop} {α : Type}
    {read : Json → Option α} {v : α} (h : Gives members name Says)
    (hagree : List.Forall₂ Agrees members named)
    (hread : ∀ {cs}, Says cs → ∃ j, Reads cs j ∧ read j = some v) :
    ∃ j, member? name named = some (some j) ∧ read j = some v := by
  obtain ⟨cs, hvalues, hsays⟩ := h
  obtain ⟨j, hj, hv⟩ := hread hsays
  refine ⟨j, ?_, hv⟩
  have hforall := forall₂_valuesOf hagree name
  rw [hvalues, List.forall₂_cons_left_iff] at hforall
  obtain ⟨j', rest, hj', hrest, hmap⟩ := hforall
  rw [List.forall₂_nil_left_iff] at hrest
  subst hrest
  obtain ⟨p, hp, rfl⟩ := List.map_eq_singleton_iff.mp hmap
  rw [member?, hp, hj.unique hj']

/-- The characters are the number in decimal digits. -/
def Decimal {n : Nat} (v : BitVec n) (cs : List Char) : Prop :=
  cs = Nat.toDigits 10 v.toNat

theorem Decimal.exists_reads {n : Nat} {v : BitVec n} (h : Decimal v cs) :
    ∃ j, Reads cs j ∧ j.bits? n = some v :=
  ⟨.ofNat v.toNat, h ▸ reads_toDigits v.toNat, by simp [bits?, nat?, ofNat]⟩

/-! ## Written objects -/

/-- No character of the string is escaped. -/
def IsPlain (s : String) : Prop :=
  ∀ c ∈ s.toList, c ≠ '\x22' ∧ c ≠ '\\' ∧ 0x20 ≤ c.toNat

instance (s : String) : Decidable (IsPlain s) :=
  List.decidableBAll _ s.toList

theorem literal_plain {s : String} (h : IsPlain s) : Literal s.toList (plain s) := by
  unfold IsPlain at h
  unfold plain
  generalize s.toList = cs at h ⊢
  induction cs with
  | nil => exact .nil
  | cons c cs ih =>
      obtain ⟨⟨hquote, hbackslash, hcontrol⟩, hrest⟩ := List.forall_mem_cons.mp h
      exact .char hquote hbackslash hcontrol (ih hrest)

theorem denotes_plain (s : String) : Denotes (plain s) s.toList := by
  unfold plain
  induction s.toList with
  | nil => exact .nil
  | cons c cs ih => exact .char ih

theorem writeString_plain {s : String} (h : IsPlain s) :
    writeString (plain s) = '\x22' :: (s.toList ++ ['\x22']) := by
  have hitems : (plain s).flatMap writeItem = s.toList := by
    unfold IsPlain at h
    unfold plain
    generalize s.toList = cs at h ⊢
    induction cs with
    | nil => rfl
    | cons c cs ih =>
        obtain ⟨⟨hquote, hbackslash, hcontrol⟩, hrest⟩ := List.forall_mem_cons.mp h
        have hc : writeItem (.char c) = [c] := by
          simp [writeItem, writeChar, hquote, hbackslash, Nat.not_lt.mpr hcontrol]
        rw [List.map_cons, List.flatMap_cons, hc, ih hrest]
        rfl
  rw [writeString, hitems]
  rfl

/-- The members as their names and the texts of their values. -/
def written (members : List (String × Json)) : List Member :=
  members.map fun m => ⟨m.1, write m.2⟩

theorem memberText_write {name : String} (hname : IsPlain name) (hj : Derives .value (write j)) :
    MemberText ⟨name, write j⟩ (writeString (plain name) ++ ':' :: write j) := by
  have hnone : Blanks [] := nofun
  have h := MemberText.member (m := ⟨name, write j⟩) hnone (literal_plain hname)
    (denotes_plain name) hnone hnone hj hnone
  rw [writeString_plain hname]
  simpa using h

theorem membersText_write (m : String × Json) (members : List (String × Json))
    (h : ∀ m' ∈ m :: members, IsPlain m'.1 ∧ Derives .value (write m'.2)) :
    MembersText (written (m :: members))
      (writeMembers ((m :: members).map fun m => (plain m.1, m.2))) := by
  induction members generalizing m with
  | nil =>
      obtain ⟨hname, hj⟩ := h m List.mem_cons_self
      exact .last (memberText_write hname hj)
  | cons m' members ih =>
      obtain ⟨⟨hname, hj⟩, hrest⟩ := List.forall_mem_cons.mp h
      exact .cons (memberText_write hname hj) (ih m' hrest)

/-- A written object is the text of its members. -/
theorem objectText_write (m : String × Json) (members : List (String × Json))
    (h : ∀ m' ∈ m :: members, IsPlain m'.1 ∧ Derives .value (write m'.2)) :
    ObjectText (written (m :: members))
      (write (.object ((m :: members).map fun m => (plain m.1, m.2)))) := by
  rw [write]
  exact .members (membersText_write m members h)

theorem write_ofNat (n : Nat) : write (.ofNat n) = Nat.toDigits 10 n := by
  rw [ofNat, write, writeNumber]
  simp

end Json

open Json

theorem bind_of_some {α β : Type} {x : Option α} {f : α → Option β} {a : α} {b : β}
    (hx : x = some a) (hf : f a = some b) : (x >>= f) = some b :=
  Option.bind_eq_some_iff.mpr ⟨a, hx, hf⟩

/-- The characters are an object with the four members of the geometry, each once, and
perhaps others. -/
def GeometryText (g : Geometry) (cs : List Char) : Prop :=
  ∃ members, ObjectText members cs ∧ Gives members "block" (Decimal g.block) ∧
    Gives members "min_index" (Decimal g.minIndex) ∧
    Gives members "max_index" (Decimal g.maxIndex) ∧
    Gives members "window_pages" (Decimal g.windowPages)

theorem GeometryText.exists_reads {g : Geometry} {cs : List Char} (h : GeometryText g cs) :
    ∃ j, Reads cs j ∧ Geometry.ofJson? j = some g := by
  obtain ⟨members, hobject, hblock, hmin, hmax, hpages⟩ := h
  obtain ⟨js, named, hread, hnamed, hagree⟩ := reads_of_objectText hobject
  obtain ⟨block, hblock, hblock'⟩ := hblock.exists_member? hagree Decimal.exists_reads
  obtain ⟨minIndex, hmin, hmin'⟩ := hmin.exists_member? hagree Decimal.exists_reads
  obtain ⟨maxIndex, hmax, hmax'⟩ := hmax.exists_member? hagree Decimal.exists_reads
  obtain ⟨pages, hpages, hpages'⟩ := hpages.exists_member? hagree Decimal.exists_reads
  have hgeometry : Geometry.ofMembers? block minIndex maxIndex pages = some g :=
    bind_of_some hblock' (bind_of_some hmin' (bind_of_some hmax' (bind_of_some hpages' rfl)))
  refine ⟨.object js, hread, bind_of_some hnamed ?_⟩
  exact bind_of_some hblock (bind_of_some hmin (bind_of_some hmax
    (bind_of_some hpages hgeometry)))

namespace Config

/-- The members settle a value: they give it once, or they do not mention it and it is
the standard one. -/
def Settles {α : Type} (members : List Member) (name : String) (Says : α → List Char → Prop)
    (standard value : α) : Prop :=
  valuesOf members name = [] ∧ value = standard ∨ Gives members name (Says value)

/-- The text is an object, with blanks around it, that describes the configuration. -/
def Describes (text : String) (c : Config) : Prop :=
  ∃ before members cs after, Blanks before ∧ ObjectText members cs ∧ Blanks after ∧
    text.toList = before ++ (cs ++ after) ∧
    Settles members "ingress" GeometryText (default : Config).ingress c.ingress ∧
    Settles members "egress" GeometryText (default : Config).egress c.egress ∧
    Settles members "busy_poll_limit" Decimal (default : Config).busyPollLimit
      c.busyPollLimit ∧
    Settles members "port_count" Decimal (default : Config).portCount c.portCount

/-- What the members settle is what is found among them. -/
theorem Settles.memberOr_eq {α : Type} {members : List Member} {named : List (String × Json)}
    (hagree : List.Forall₂ Agrees members named) {name : String} {Says : α → List Char → Prop}
    {standard value : α} {read : Json → Option α}
    (h : Settles members name Says standard value)
    (hread : ∀ {cs}, Says value cs → ∃ j, Reads cs j ∧ read j = some value) :
    ∃ found, member? name named = some found ∧ memberOr read standard found = some value := by
  rcases h with ⟨hnone, rfl⟩ | hgives
  · exact ⟨none, member?_of_valuesOf_eq_nil hagree hnone, rfl⟩
  · obtain ⟨j, hmember, hvalue⟩ := hgives.exists_member? hagree hread
    exact ⟨some j, hmember, hvalue⟩

theorem parse_of_describes {text : String} {c : Config} (h : Describes text c) :
    parse text = .ok c := by
  obtain ⟨before, members, cs, after, hbefore, hobject, hafter, htext, hingress, hegress, hlimit,
    hcount⟩ := h
  obtain ⟨js, named, hread, hnamed, hagree⟩ := reads_of_objectText hobject
  have hparse : Json.parse? text = some (.object js) := by
    rw [Json.parse?, htext]
    exact ofChars?_of_reads (reads_element hbefore hread hafter)
  obtain ⟨ingress, hingress, hingress'⟩ := hingress.memberOr_eq hagree GeometryText.exists_reads
  obtain ⟨egress, hegress, hegress'⟩ := hegress.memberOr_eq hagree GeometryText.exists_reads
  obtain ⟨limit, hlimit, hlimit'⟩ := hlimit.memberOr_eq hagree Decimal.exists_reads
  obtain ⟨count, hcount, hcount'⟩ := hcount.memberOr_eq hagree Decimal.exists_reads
  have hmembers : ofMembers? ingress egress limit count = some c :=
    bind_of_some hingress' (bind_of_some hegress' (bind_of_some hlimit'
      (bind_of_some hcount' rfl)))
  have hconfig : ofJson? (.object js) = some c :=
    bind_of_some hnamed (bind_of_some hingress (bind_of_some hegress (bind_of_some hlimit
      (bind_of_some hcount hmembers))))
  rw [parse, hparse, Option.bind_some, hconfig]

/-- Loading a text validates the configuration that it describes. -/
theorem load_of_describes {text : String} {c : Config} (h : Describes text c) :
    load text = c.validate.map fun _ => c := by
  unfold load
  rw [parse_of_describes h]
  change (c.validate >>= fun _ => pure c) = _
  cases c.validate with
  | ok u => rfl
  | error e => rfl

end Config

/-! ## Written configurations -/

namespace Json

theorem derives_ofNat (n : Nat) : Derives .value (write (.ofNat n)) := by
  rw [write_ofNat]
  exact .number (numeral_toDigits n)

theorem decimal_ofNat {n : Nat} (v : BitVec n) : Decimal v (write (.ofNat v.toNat)) :=
  write_ofNat v.toNat

end Json

theorem geometryText_write (g : Geometry) : GeometryText g (write g.toJson) := by
  have hobject := objectText_write ("block", .ofNat g.block.toNat)
    [("min_index", .ofNat g.minIndex.toNat), ("max_index", .ofNat g.maxIndex.toNat),
      ("window_pages", .ofNat g.windowPages.toNat)] (by
    simp only [List.forall_mem_cons, derives_ofNat, and_true, List.not_mem_nil, false_imp_iff,
      implies_true]
    decide)
  exact ⟨_, hobject, ⟨_, rfl, decimal_ofNat _⟩, ⟨_, rfl, decimal_ofNat _⟩,
    ⟨_, rfl, decimal_ofNat _⟩, ⟨_, rfl, decimal_ofNat _⟩⟩

theorem GeometryText.derives {g : Geometry} {cs : List Char} (h : GeometryText g cs) :
    Derives .value cs :=
  h.elim fun _ h => h.1.derives

namespace Config

/-- The text of a configuration describes it. -/
theorem describes_text (c : Config) : Describes c.text c := by
  have hgeometry (g : Geometry) := (geometryText_write g).derives
  have hobject := objectText_write ("ingress", c.ingress.toJson)
    [("egress", c.egress.toJson), ("busy_poll_limit", .ofNat c.busyPollLimit.toNat),
      ("port_count", .ofNat c.portCount.toNat)] (by
    simp only [List.forall_mem_cons, hgeometry, derives_ofNat, and_true, List.not_mem_nil,
      false_imp_iff, implies_true]
    decide)
  have htext : c.text.toList = [] ++ (write c.toJson ++ []) := by
    rw [Config.text, Json.text, String.toList_ofList, List.append_nil, List.nil_append]
  exact ⟨[], _, _, [], nofun, hobject, nofun, htext, Or.inr ⟨_, rfl, geometryText_write _⟩,
    Or.inr ⟨_, rfl, geometryText_write _⟩, Or.inr ⟨_, rfl, decimal_ofNat _⟩,
    Or.inr ⟨_, rfl, decimal_ofNat _⟩⟩

/-- Loading a text gives the configuration that it describes, or the error of the
configuration's validation.  Members may come in any order, those that are left out take
their default values, and members of other names can hold any JSON value.  The text
written for a configuration is one of those that describe it. -/
theorem load_eq_validate :
    (∀ c : Config, load c.text = c.validate.map fun _ => c) ∧
    ∀ text c, Describes text c → load text = c.validate.map fun _ => c :=
  ⟨fun c => load_of_describes (describes_text c), fun _ _ h => load_of_describes h⟩

/-- A text that gives one of the four members, behind one of another name. -/
def partialSample : String :=
  " \x7b\"new\": [null, -1.5e+3], \"port_count\" :\n7\x7d"

theorem load_eq_validate_partialSample :
    Describes partialSample { (default : Config) with portCount := 7#8 } ∧
      load partialSample = .ok { (default : Config) with portCount := 7#8 } := by
  have hnone : Blanks [] := nofun
  have hspace : Blanks [' '] := by simp [Blanks]
  have hline : Blanks ['\n'] := by simp [Blanks]
  have hdigit {d : Char} (hd : '0' ≤ d ∧ d ≤ '9') : Digits [d] :=
    ⟨List.cons_ne_nil d [], by simpa using hd⟩
  have hnumeral : Numeral ['-', '1', '.', '5', 'e', '+', '3'] :=
    ⟨['-'], ['1'], ['.', '5'], ['e', '+', '3'], by decide,
      Or.inr ⟨hdigit (by decide), by decide⟩, Or.inr ⟨['5'], hdigit (by decide), rfl⟩,
      Or.inr ⟨'e', ['+'], ['3'], by decide, by decide, hdigit (by decide), rfl⟩, rfl⟩
  have hvalue : Derives .value _ := .array (.elements (.element hnone .null hnone)
    (.lastElement (.element hspace (.number hnumeral) hnone)))
  have hseven : Derives .value (Nat.toDigits 10 7) := .number (numeral_toDigits 7)
  have hnew := MemberText.member (m := ⟨"new", _⟩) hnone (literal_plain (by decide))
    (denotes_plain "new") hnone hspace hvalue hnone
  have hcount := MemberText.member (m := ⟨"port_count", _⟩) hspace (literal_plain (by decide))
    (denotes_plain "port_count") hspace hline hseven hnone
  have hdescribes : Describes partialSample { (default : Config) with portCount := 7#8 } :=
    ⟨[' '], _, _, [], hspace, .members (.cons hnew (.last hcount)), hnone, by decide,
      Or.inl ⟨rfl, rfl⟩, Or.inl ⟨rfl, rfl⟩, Or.inl ⟨rfl, rfl⟩, Or.inr ⟨_, rfl, rfl⟩⟩
  exact ⟨hdescribes, (load_eq_validate.2 _ _ hdescribes).trans rfl⟩

end Config

end Tcam
