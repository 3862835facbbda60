import Tcam.Proofs.Device.Execute
import Tcam.Proofs.Slot.Registers

/-!
# Accesses with every index checked

The accesses of a block once more, now with a check of every index of a slot or of a
data register before it is used.  They give nothing where an index is out of bounds.
That never happens: each of them gives exactly what the unchecked access gives.  Of the
commands, those on one slot stay inside the table because the block refuses an index
beyond it (`perform?_eq_none_iff`), and a search because it ends at the largest index.
-/

namespace Tcam

/-- The command is about the one slot that it names. -/
def Command.NamesSlot (c : Command) : Prop :=
  c.opcode = .flushEntry ∨ c.opcode = .load ∨ c.opcode = .read

instance (c : Command) : Decidable c.NamesSlot :=
  inferInstanceAs (Decidable (_ ∨ _ ∨ _))

theorem Command.namesSlot_iff (c : Command) :
    c.NamesSlot ↔ c.opcode ≠ .flushAll ∧ c.opcode ≠ .getNext := by
  unfold NamesSlot
  cases c.opcode <;> decide

namespace Device

variable {g : Geometry} {α β : Type}

/-! ## Commands -/

/-- The block with the image of a slot replaced, if it has the slot. -/
def setSlot? (d : Device g) (i : Nat) (image : SlotImage) : Option (Device g) :=
  if h : i < g.maxIndex.toNat + 1 then some { d with slots := d.slots.set i image h } else none

/-- The first loaded one of the slots, if all that are looked at exist. -/
def search? (d : Device g) : List Nat → Option (Option Nat)
  | [] => some none
  | i :: rest =>
    (d.slots[i]?).bind fun image => if image.isValid then some (some i) else d.search? rest

/-- The effect of a command. -/
def effect? (c : Command) (d : Device g) : Option (SlotIndex × Device g) :=
  match c.opcode with
  | .flushAll => some (c.index, { d with slots := Vector.replicate _ .empty })
  | .flushEntry => do
    return (c.index, ← d.setSlot? c.index.toNat .empty)
  | .load => do
    let image ← d.slots[c.index.toNat]?
    let registers ← Registers.copy? c.page.registers d.data (image.page c.page)
    return (c.index, ← d.setSlot? c.index.toNat (image.setPage c.page registers))
  | .read => do
    let image ← d.slots[c.index.toNat]?
    let data ← Registers.copy? c.page.registers (image.page c.page) 0#(16 * dataRegisters)
    return (c.index, { d with data := data })
  | .getNext => do
    let start := searchStart g c.index
    match ← d.search? (List.range' start (g.maxIndex.toNat + 1 - start)) with
    | some i =>
      let image ← d.slots[i]?
      let data ← Registers.copy? dataRegisters image.key 0#(16 * dataRegisters)
      return (BitVec.ofNat 16 i, { d with data := data })
    | none => return (g.maxIndex, { d with data := 0#_ })

/-- The run of a command. -/
def perform? (c : Command) (d : Device g) : Option (Device g) := do
  let r ← effect? c { d with history := c :: d.history }
  return { r.2 with operation := { c with index := r.1 }.idleWord, busyRemaining := d.busyDelay }

theorem setSlot?_eq {d : Device g} {slot : SlotIndex} {old : SlotImage}
    (h : d.slots[slot.toNat]? = some old) (f : SlotImage → SlotImage) :
    d.setSlot? slot.toNat (f old) = some (d.updateSlot slot f) := by
  have hlt := (Vector.getElem?_eq_some_iff.mp h).1
  have hset : d.slots.set slot.toNat (f old) hlt = d.slots.setIfInBounds slot.toNat (f old) := by
    apply Vector.ext
    intro i hi
    rw [Vector.getElem_set, Vector.getElem_setIfInBounds]
  rw [setSlot?, dif_pos hlt, updateSlot, h, hset]

theorem search?_eq (d : Device g) {indices : List Nat} (h : ∀ i ∈ indices, i ≤ g.maxIndex.toNat) :
    d.search? indices =
      some (indices.find? fun i => (d.slots[i]?).any SlotImage.isValid) := by
  induction indices with
  | nil => rfl
  | cons i rest ih =>
      obtain ⟨hi, hrest⟩ := List.forall_mem_cons.mp h
      have himage : d.slots[i]? = some d.slots[i] := Vector.getElem?_eq_getElem (by omega)
      rw [search?, himage, Option.bind_some, List.find?_cons, himage, Option.any_some, ih hrest]
      cases d.slots[i].isValid <;> rfl

/-- A search for a loaded slot looks at slots of the table only. -/
theorem search?_range' (d : Device g) (start : Nat) :
    d.search? (List.range' start (g.maxIndex.toNat + 1 - start)) = some (d.firstValid? start) := by
  apply search?_eq
  intro i hi
  have hmem := List.mem_range'_1.mp hi
  omega

/-- With its slot inside the table, a command has all its indices in bounds. -/
theorem effect?_eq {c : Command} (h : c.NamesSlot → c.index ≤ g.maxIndex) (d : Device g) :
    effect? c d = some (effect c d) := by
  obtain ⟨opcode, page, index⟩ := c
  unfold effect? effect
  cases opcode with
  | flushAll => rfl
  | flushEntry =>
      obtain ⟨image, himage⟩ := d.slot?_eq_some_of_le (h (Or.inl rfl))
      dsimp only
      rw [setSlot?_eq himage fun _ => .empty]
      rfl
  | load =>
      obtain ⟨image, himage⟩ := d.slot?_eq_some_of_le (h (Or.inr (Or.inl rfl)))
      have hslot : d.slots[index.toNat]? = some image := himage
      dsimp only
      rw [hslot]
      change (Registers.copy? page.registers d.data (image.page page)).bind _ = _
      rw [Registers.copy?_all page.registers_le]
      change (d.setSlot? index.toNat (image.setPage page _)).bind _ = _
      rw [setSlot?_eq himage fun s => s.setPage page (d.data.setWidth _)]
      rfl
  | read =>
      obtain ⟨image, himage⟩ := d.slot?_eq_some_of_le (h (Or.inr (Or.inr rfl)))
      have hslot : d.slots[index.toNat]? = some image := himage
      dsimp only
      rw [himage, hslot]
      change (Registers.copy? page.registers (image.page page) _).bind _ = _
      rw [Registers.copy?_zeros page.registers_le]
      rfl
  | getNext =>
      dsimp only
      rw [search?_range']
      cases hfirst : d.firstValid? (searchStart g index) with
      | none => rfl
      | some i =>
          -- The search stopped at a slot that it looked at.
          have hmem := List.mem_range'_1.mp (List.mem_of_find?_eq_some hfirst)
          have hslot : d.slots[i]? = some d.slots[i] := Vector.getElem?_eq_getElem (by omega)
          change (d.slots[i]?).bind _ = some (_, { d with data := ((d.slots[i]?).getD .empty).key })
          rw [hslot, Option.bind_some, Option.getD_some]
          change (Registers.copy? dataRegisters d.slots[i].key _).bind _ = _
          rw [Registers.copy?_all (Nat.le_refl dataRegisters), BitVec.setWidth_eq]
          rfl

theorem perform?_eq {c : Command} (h : c.NamesSlot → c.index ≤ g.maxIndex) (d : Device g) :
    perform? c d = some (d.perform c) := by
  unfold perform?
  rw [effect?_eq h]
  rfl

theorem setSlot?_eq_none {d : Device g} {slot : SlotIndex} (h : g.maxIndex < slot)
    (image : SlotImage) : d.setSlot? slot.toNat image = none := by
  have hlt : g.maxIndex.toNat < slot.toNat := h
  exact dif_neg (by omega)

theorem slot?_eq_none {d : Device g} {slot : SlotIndex} (h : g.maxIndex < slot) :
    d.slots[slot.toNat]? = none := by
  have hlt : g.maxIndex.toNat < slot.toNat := h
  exact Vector.getElem?_eq_none (by omega)

/-- A command would leave the bounds exactly if it names a slot beyond the table. -/
theorem perform?_eq_none_iff (c : Command) (d : Device g) :
    perform? c d = none ↔ c.NamesSlot ∧ g.maxIndex < c.index := by
  constructor
  · intro hnone
    by_cases hout : c.NamesSlot ∧ g.maxIndex < c.index
    · exact hout
    · have hle : c.NamesSlot → c.index ≤ g.maxIndex := fun hnames =>
        BitVec.not_lt.mp fun hlt => hout ⟨hnames, hlt⟩
      rw [perform?_eq hle] at hnone
      exact absurd hnone (Option.some_ne_none _)
  · rintro ⟨hnames, hlt⟩
    unfold perform? effect?
    rcases hnames with hopcode | hopcode | hopcode
    · rw [hopcode, setSlot?_eq_none hlt]
      rfl
    · rw [hopcode, slot?_eq_none hlt]
      rfl
    · rw [hopcode, slot?_eq_none hlt]
      rfl

/-! ## The rules for commands -/

/-- The word asks for the command within the rules: a known opcode, a known page, a slot
of the table where one is named, and sub-block 0 where the action page moves. -/
structure Lawful (d : Device g) (word : Word) (c : Command) : Prop where
  opcode : opcodeField.get word = c.opcode.bits
  page : pageField.get word = c.page.bits
  index : entryField.get word = c.index
  inTable : c.NamesSlot → c.index ≤ g.maxIndex
  subBlock : c.page = .action → c.opcode = .load ∨ c.opcode = .read →
    subBlockField.get d.extension = actionSubBlock

/-- The block runs the commands within the rules and no others. -/
theorem commandOf_eq_ok_iff {word : Word} {d : Device g} {c : Command} :
    commandOf word d = .ok c ↔ d.Lawful word c := by
  unfold commandOf
  constructor
  · intro h
    cases hopcode : Opcode.ofBits? (opcodeField.get word) with
    | none =>
        rw [hopcode] at h
        cases h
    | some opcode =>
        cases hpage : Page.ofBits? (pageField.get word) with
        | none =>
            rw [hopcode, hpage] at h
            cases h
        | some page =>
            rw [hopcode, hpage] at h
            simp only [Checks.refuse_eq_ok_iff] at h
            obtain ⟨hindex, hblock, hc⟩ := h
            obtain rfl := Except.ok.inj hc
            refine ⟨Opcode.ofBits?_eq_some_iff.mp hopcode, Page.ofBits?_eq_some_iff.mp hpage, rfl,
              fun hnames => ?_, fun haction hmoves => ?_⟩
            · obtain ⟨hall, hnext⟩ := (Command.namesSlot_iff _).mp hnames
              exact BitVec.not_lt.mp fun hlt => hindex ⟨hall, hnext, hlt⟩
            · exact Decidable.byContradiction fun hne => hblock ⟨haction, hmoves, hne⟩
  · intro h
    rw [Opcode.ofBits?_eq_some_iff.mpr h.opcode, Page.ofBits?_eq_some_iff.mpr h.page]
    simp only [Checks.refuse_eq_ok_iff]
    rw [h.index]
    refine ⟨?_, ?_, rfl⟩
    · rintro ⟨hall, hnext, hlt⟩
      exact BitVec.not_lt.mpr (h.inTable (c.namesSlot_iff.mpr ⟨hall, hnext⟩)) hlt
    · rintro ⟨haction, hmoves, hne⟩
      exact hne (h.subBlock haction hmoves)

/-! ## Accesses -/

/-- What an access comes to, if its indices are in bounds. -/
abbrev Checked (g : Geometry) (α : Type) :=
  Option (EStateM.Result RegError (Device g) α)

/-- Goes on after an access that is not refused. -/
def Checked.andThen (r : Checked g α) (next : α → Device g → Checked g β) : Checked g β :=
  r.bind fun
    | .ok a d => next a d
    | .error e d => some (.error e d)

/-- Reads a granted register. -/
def fetch? (offset : RegOffset) (d : Device g) : Checked g Word :=
  if offset = operationRegister then some (poll d)
  else if offset = extensionRegister then some (.ok d.extension d)
  else match dataIndex? offset with
    | some i => (d.data.get? i).map fun word => .ok word d
    | none => some (.error (.noSuchRegister g.blockAddr offset) d)

/-- Writes a granted register. -/
def store? (offset : RegOffset) (value : Word) (d : Device g) : Checked g Unit :=
  if offset = operationRegister then
    if busyField.getFlag value then
      match commandOf value d with
      | .ok c => (d.perform? c).map (.ok ())
      | .error fault => some (.error (.access g.blockAddr operationRegister fault) d)
    else some (.ok () { d with operation := value })
  else if offset = extensionRegister then some (.ok () { d with extension := value })
  else match dataIndex? offset with
    | some i => (d.data.set? i value).map fun data => .ok () { d with data := data }
    | none => some (.error (.noSuchRegister g.blockAddr offset) d)

def readRegister? (block : BlockAddr) (offset : RegOffset) (d : Device g) : Checked g Word :=
  Checked.andThen (some (checkBlock block offset d)) fun _ d =>
    Checked.andThen (some (grant offset d)) fun _ d => fetch? offset d

def writeRegister? (block : BlockAddr) (offset : RegOffset) (value : Word) (d : Device g) :
    Checked g Unit :=
  Checked.andThen (some (checkBlock block offset d)) fun _ d =>
    Checked.andThen (some (grant offset d)) fun _ d => store? offset value d

def readField? (block : BlockAddr) (offset : RegOffset) (field : BitField) (d : Device g) :
    Checked g Word :=
  (readRegister? block offset d).andThen fun word d => some (.ok (field.get word) d)

def writeField? (block : BlockAddr) (offset : RegOffset) (field : BitField) (value : Word)
    (d : Device g) : Checked g Unit :=
  (readRegister? block offset d).andThen fun word d =>
    writeRegister? block offset (field.set word value) d

/-- Accesses that come out as without checks do so one after the other. -/
theorem Checked.andThen_eq {d : Device g} {r : Checked g α} {next : α → Device g → Checked g β}
    {m : EStateM RegError (Device g) α} {f : α → EStateM RegError (Device g) β}
    (hr : r = some (m d)) (hnext : ∀ a d, next a d = some (f a d)) :
    r.andThen next = some ((m >>= f) d) := by
  rw [hr, andThen, Option.bind_some]
  cases hm : m d with
  | ok a d₁ =>
      rw [bind_of_ok hm]
      exact hnext a d₁
  | error e d₁ => rw [bind_of_error hm]

theorem fetch?_eq (offset : RegOffset) (d : Device g) :
    fetch? offset d = some (fetch offset d) := by
  by_cases hoperation : offset = operationRegister
  · rw [hoperation]
    rfl
  by_cases hextension : offset = extensionRegister
  · rw [hextension, fetch_extensionRegister]
    rfl
  simp only [fetch?, fetch, hoperation, hextension, if_false]
  cases hindex : dataIndex? offset with
  | none => rfl
  | some i =>
      dsimp only
      rw [Registers.get?, if_pos (dataIndex?_lt hindex)]
      rfl

theorem store?_eq (offset : RegOffset) (value : Word) (d : Device g) :
    store? offset value d = some (store offset value d) := by
  by_cases hoperation : offset = operationRegister
  · simp only [store?, store, hoperation, if_true]
    cases busyField.getFlag value with
    | false => rfl
    | true =>
        simp only [if_true]
        cases hcommand : commandOf value d with
        | error fault => rfl
        | ok c =>
            dsimp only
            rw [perform?_eq (commandOf_eq_ok_iff.mp hcommand).inTable]
            rfl
  by_cases hextension : offset = extensionRegister
  · rw [hextension, store_extensionRegister]
    rfl
  simp only [store?, store, hoperation, hextension, if_false]
  cases hindex : dataIndex? offset with
  | none => rfl
  | some i =>
      dsimp only
      rw [Registers.set?, if_pos (dataIndex?_lt hindex)]
      rfl

theorem readRegister?_eq (block : BlockAddr) (offset : RegOffset) (d : Device g) :
    readRegister? block offset d = some (RegisterBus.readRegister block offset d) :=
  Checked.andThen_eq rfl fun _ _ => Checked.andThen_eq rfl fun _ d => fetch?_eq offset d

theorem writeRegister?_eq (block : BlockAddr) (offset : RegOffset) (value : Word) (d : Device g) :
    writeRegister? block offset value d = some (RegisterBus.writeRegister block offset value d) :=
  Checked.andThen_eq rfl fun _ _ => Checked.andThen_eq rfl fun _ d => store?_eq offset value d

theorem readField?_eq (block : BlockAddr) (offset : RegOffset) (field : BitField) (d : Device g) :
    readField? block offset field d = some (RegisterBus.readField block offset field d) :=
  Checked.andThen_eq (readRegister?_eq block offset d) fun _ _ => rfl

theorem writeField?_eq (block : BlockAddr) (offset : RegOffset) (field : BitField) (value : Word)
    (d : Device g) :
    writeField? block offset field value d =
      some (RegisterBus.writeField block offset field value d) :=
  Checked.andThen_eq (readRegister?_eq block offset d) fun _ d => writeRegister?_eq block offset _ d

end Device

end Tcam
