import Tcam.Device.Access
import Tcam.Proofs.Command
import Tcam.Proofs.Geometry

/-!
# What an access to a device does

Every access either hits an injected fault, and then changes nothing but
counters, or does what it is meant to do.  `Agrees` compares two devices without
their counters and their busy bit, and `Ready` says that neither a fault nor the
busy bit will get in the way.
-/

namespace Tcam.Device

variable {g : Geometry}

/-- The devices have the same slots, the same registers and the same history.
They may differ in how long they are busy and in what they count. -/
structure Agrees (d' d : Device g) : Prop where
  slots : d'.slots = d.slots
  operation : d'.operation = d.operation
  extension : d'.extension = d.extension
  data : d'.data = d.data
  history : d'.history = d.history

theorem Agrees.refl (d : Device g) : d.Agrees d :=
  ⟨rfl, rfl, rfl, rfl, rfl⟩

theorem Agrees.trans {d₁ d₂ d₃ : Device g} (h : d₁.Agrees d₂) (h' : d₂.Agrees d₃) :
    d₁.Agrees d₃ :=
  ⟨h.slots.trans h'.slots, h.operation.trans h'.operation, h.extension.trans h'.extension,
    h.data.trans h'.data, h.history.trans h'.history⟩

/-- No access will fail, and the busy bit clears within `limit` polls, now and
after every command. -/
structure Ready (d : Device g) (limit : Nat) : Prop where
  noFault : d.failAt = none
  notStuck : d.stuckBusy = false
  delay_lt : d.busyDelay < limit
  remaining_lt : d.busyRemaining < limit

/-! ## Accesses -/

/-- The device after an access that the injected fault hits. -/
def faulted (d : Device g) : Device g :=
  { d with accesses := d.accesses + 1, failAt := none }

/-- The device with one more access counted. -/
def counted (d : Device g) : Device g :=
  { d with accesses := d.accesses + 1 }

theorem faulted_agrees (d : Device g) : d.faulted.Agrees d :=
  ⟨rfl, rfl, rfl, rfl, rfl⟩

theorem counted_agrees (d : Device g) : d.counted.Agrees d :=
  ⟨rfl, rfl, rfl, rfl, rfl⟩

/-- The next access is the one that the injected fault hits. -/
abbrev FaultDue (d : Device g) : Prop :=
  d.failAt = some (d.accesses + 1)

/-- An access to the block is counted and hits the injected fault or not. -/
theorem granted_eq {α : Type} (d : Device g) (offset : RegOffset)
    (access : EStateM RegError (Device g) α) :
    (do
      checkBlock g.blockAddr offset
      grant offset
      access : EStateM RegError (Device g) α) d =
      if d.FaultDue then .error (.access g.blockAddr offset .injected) d.faulted
      else access d.counted := by
  change EStateM.bind (checkBlock g.blockAddr offset) _ d = _
  simp only [EStateM.bind, checkBlock, if_true]
  change EStateM.bind (grant offset) _ d = _
  by_cases hdue : d.FaultDue
  · rw [if_pos hdue]
    simp only [EStateM.bind, grant, hdue, if_true, faulted]
  · rw [if_neg hdue]
    simp only [EStateM.bind, grant, hdue, if_false, counted]

theorem readRegister_eq (d : Device g) (offset : RegOffset) :
    RegisterBus.readRegister g.blockAddr offset d =
      if d.FaultDue then .error (.access g.blockAddr offset .injected) d.faulted
      else fetch offset d.counted :=
  d.granted_eq offset (fetch offset)

theorem writeRegister_eq (d : Device g) (offset : RegOffset) (value : Word) :
    RegisterBus.writeRegister g.blockAddr offset value d =
      if d.FaultDue then .error (.access g.blockAddr offset .injected) d.faulted
      else store offset value d.counted :=
  d.granted_eq offset (store offset value)

theorem dataRegister_spec {i : Nat} (hi : i < dataRegisters) :
    dataRegister i ≠ operationRegister ∧ dataRegister i ≠ extensionRegister ∧
      dataIndex? (dataRegister i) = some i := by
  have hall : ∀ i < dataRegisters, dataRegister i ≠ operationRegister ∧
      dataRegister i ≠ extensionRegister ∧ dataIndex? (dataRegister i) = some i := by
    decide
  exact hall i hi

theorem fetch_dataRegister {i : Nat} (hi : i < dataRegisters) (d : Device g) :
    fetch (dataRegister i) d = .ok (d.data.get i) d := by
  obtain ⟨hoperation, hextension, hindex⟩ := dataRegister_spec hi
  simp only [fetch, hoperation, hextension, hindex, if_false]
  rfl

theorem store_dataRegister {i : Nat} (hi : i < dataRegisters) (value : Word) (d : Device g) :
    store (dataRegister i) value d = .ok () { d with data := d.data.set i value } := by
  obtain ⟨hoperation, hextension, hindex⟩ := dataRegister_spec hi
  simp only [store, hoperation, hextension, hindex, if_false]

/-- The device after a poll of its busy bit. -/
def polled (d : Device g) : Device g :=
  { d.counted with polls := d.polls + 1, busyRemaining := d.busyRemaining - 1 }

/-- The busy bit as a poll sees it. -/
def busyBit (d : Device g) : Bool :=
  d.stuckBusy || decide (0 < d.busyRemaining)

theorem polled_agrees (d : Device g) : d.polled.Agrees d :=
  ⟨rfl, rfl, rfl, rfl, rfl⟩

theorem fetch_operationRegister (d : Device g) :
    fetch operationRegister d.counted = .ok (busyField.setFlag d.operation d.busyBit) d.polled :=
  rfl

theorem readField_operationRegister (d : Device g) :
    RegisterBus.readField g.blockAddr operationRegister busyField d =
      if d.FaultDue then .error (.access g.blockAddr operationRegister .injected) d.faulted
      else .ok (busyField.get (busyField.setFlag d.operation d.busyBit)) d.polled := by
  change EStateM.bind (RegisterBus.readRegister g.blockAddr operationRegister) _ d = _
  rw [EStateM.bind, readRegister_eq, fetch_operationRegister]
  by_cases hdue : d.FaultDue
  · rw [if_pos hdue, if_pos hdue]
  · rw [if_neg hdue, if_neg hdue]
    rfl

theorem fetch_extensionRegister (d : Device g) :
    fetch extensionRegister d = .ok d.extension d := by
  have hne : extensionRegister ≠ operationRegister := by
    decide
  simp only [fetch, hne, if_false]
  rfl

theorem store_extensionRegister (value : Word) (d : Device g) :
    store extensionRegister value d = .ok () { d with extension := value } := by
  have hne : extensionRegister ≠ operationRegister := by
    decide
  simp only [store, hne, if_false, if_true]

/-! ## Kinds of registers -/

theorem dataIndex?_lt {offset : RegOffset} {i : Nat} (h : dataIndex? offset = some i) :
    i < dataRegisters := by
  obtain ⟨hin, hi⟩ := Option.ite_none_right_eq_some.mp h
  obtain rfl := Option.some.inj hi
  exact hin.2

/-- A granted read does one thing for each kind of register. -/
theorem fetch_kinds (offset : RegOffset) :
    (∀ d : Device g, fetch offset d = poll d) ∨
      (∀ d : Device g, fetch offset d = .ok d.extension d) ∨
      (∃ i < dataRegisters, ∀ d : Device g, fetch offset d = .ok (d.data.get i) d) ∨
      ∀ d : Device g, fetch offset d = .error (.noSuchRegister g.blockAddr offset) d := by
  by_cases hoperation : offset = operationRegister
  · exact Or.inl fun d => by rw [fetch, if_pos hoperation]
  by_cases hextension : offset = extensionRegister
  · exact Or.inr (Or.inl fun d => by rw [hextension, fetch_extensionRegister])
  simp only [fetch, hoperation, hextension, if_false]
  cases hindex : dataIndex? offset with
  | none => exact Or.inr (Or.inr (Or.inr fun d => rfl))
  | some i => exact Or.inr (Or.inr (Or.inl ⟨i, dataIndex?_lt hindex, fun d => rfl⟩))

/-- Writing the value to the register starts a command. -/
def Starts (offset : RegOffset) (value : Word) : Prop :=
  offset = operationRegister ∧ busyField.getFlag value = true

instance (offset : RegOffset) (value : Word) : Decidable (Starts offset value) :=
  inferInstanceAs (Decidable (_ ∧ _))

/-- Any other granted write does one thing for each kind of register. -/
theorem store_kinds {offset : RegOffset} {value : Word} (h : ¬Starts offset value) :
    (∀ d : Device g, store offset value d = .ok () { d with operation := value }) ∨
      (offset = extensionRegister ∧
        ∀ d : Device g, store offset value d = .ok () { d with extension := value }) ∨
      (∃ i < dataRegisters,
        ∀ d : Device g, store offset value d = .ok () { d with data := d.data.set i value }) ∨
      ∀ d : Device g, store offset value d = .error (.noSuchRegister g.blockAddr offset) d := by
  unfold store
  by_cases hoperation : offset = operationRegister
  · exact Or.inl fun d => by rw [if_pos hoperation, if_neg fun hbusy => h ⟨hoperation, hbusy⟩]
  simp only [if_neg hoperation]
  by_cases hextension : offset = extensionRegister
  · exact Or.inr (Or.inl ⟨hextension, fun d => if_pos hextension⟩)
  simp only [if_neg hextension]
  cases hindex : dataIndex? offset with
  | none => exact Or.inr (Or.inr (Or.inr fun d => rfl))
  | some i => exact Or.inr (Or.inr (Or.inl ⟨i, dataIndex?_lt hindex, fun d => rfl⟩))

theorem store_of_command {offset : RegOffset} {value : Word} {c : Command} {d : Device g}
    (h : Starts offset value) (hcommand : commandOf value d = .ok c) :
    store offset value d = .ok () (d.perform c) := by
  unfold store
  rw [if_pos h.1, if_pos h.2, hcommand]

theorem store_of_fault {offset : RegOffset} {value : Word} {fault : AccessFault} {d : Device g}
    (h : Starts offset value) (hcommand : commandOf value d = .error fault) :
    store offset value d = .error (.access g.blockAddr operationRegister fault) d := by
  unfold store
  rw [if_pos h.1, if_pos h.2, hcommand]

/-- The block can run the command. -/
def Runs (d : Device g) (c : Command) : Prop :=
  commandOf c.word d = .ok c

theorem Agrees.runs {c : Command} {d d' : Device g} (h : d'.Agrees d) (hruns : d.Runs c) :
    d'.Runs c := by
  unfold Runs commandOf at hruns ⊢
  rw [h.extension]
  exact hruns

theorem store_word {c : Command} {d : Device g} (h : d.Runs c) :
    store operationRegister c.word d = .ok () (d.perform c) :=
  store_of_command ⟨rfl, c.busy_word⟩ h

/-- A command runs if its slot exists and, for the action page, the sub-block is
selected. -/
theorem runs_of_index_le {c : Command} {d : Device g} (hmax : g.maxIndex ≤ maxSlotIndex)
    (hindex : c.index ≤ g.maxIndex)
    (hblock : c.page = .action → (subBlockField.get d.extension : Word) = actionSubBlock) :
    d.Runs c := by
  have hle : c.index ≤ maxSlotIndex := BitVec.le_trans hindex hmax
  unfold Runs commandOf
  simp only [c.opcode_word, c.page_word, Command.index_word hle]
  rw [if_neg (fun h => BitVec.not_lt.mpr hindex h.2.2), if_neg (fun h => h.2.2 (hblock h.1))]

end Tcam.Device
