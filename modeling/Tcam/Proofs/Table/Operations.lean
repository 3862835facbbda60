import Tcam.Proofs.Device.Content
import Tcam.Proofs.PortVector
import Tcam.Proofs.Table.Command
import Tcam.Table.Operations

/-!
# Operations on slots

What every operation returns and what it leaves in the slots, in any state of
the device and with any content of its slots.  An operation that breaks off has
executed an initial part of its commands.
-/

namespace Tcam

/-- The entry with its source ports changed. -/
def Entry.withPorts (entry : Entry) (update : Masked PortVector → Masked PortVector) : Entry :=
  let ports := update ⟨entry.key.value.sourcePorts, entry.key.mask.sourcePorts⟩
  { entry with
    key := ⟨{ entry.key.value with sourcePorts := ports.value },
      { entry.key.mask with sourcePorts := ports.mask }⟩ }

namespace Table

open Session (Ends)

variable {t : Table} {s : Table.State (Device t.geometry)}

/-- Commands on the key page need no selection. -/
theorem runs_key (hvalid : t.geometry.Valid) (opcode : Opcode) {slot : SlotIndex}
    (hslot : slot ≤ t.geometry.maxIndex) (d : Device t.geometry) : d.Runs ⟨opcode, .key, slot⟩ :=
  Device.runs_of_index_le (c := ⟨opcode, .key, slot⟩) hvalid.maxIndex_le hslot nofun

/-! ## Flushes -/

theorem flushAll_ends (hvalid : t.geometry.Valid) :
    Ends t.pollLimit t.flushAll s
      (fun _ s' => s'.bus.slots = Vector.replicate _ .empty)
      (fun e s' => e.isRetryable = true ∧
        (s'.bus.slots = s.bus.slots ∨ s'.bus.slots = Vector.replicate _ .empty)) := by
  unfold flushAll
  have hzero : 0#16 ≤ t.geometry.maxIndex := BitVec.le_def.mpr (Nat.zero_le _)
  refine (command_ends (runs_key hvalid .flushAll hzero s.bus)).bind ?_ fun _ s₁ h₁ => ?_
  · rintro e s' ⟨he, h | h⟩
    · exact ⟨he, Or.inl h.slots⟩
    · exact ⟨he, Or.inr (h.slots.trans (Device.perform_flushAll_slots _ _ _))⟩
  · refine (count_ends _).mono (fun _ s' hs' => ?_) (fun _ _ => False.elim)
    rw [hs', h₁.slots, Device.perform_flushAll_slots]

theorem flushEntry_ends (hvalid : t.geometry.Valid) (slot : SlotIndex) :
    Ends t.pollLimit (t.flushEntry slot) s
      (fun _ s' => t.geometry.checkSlot slot = .ok () ∧
        s'.bus.slots = (s.bus.flushed slot).slots)
      (fun e s' => t.geometry.checkSlot slot = .error e ∧ s' = s ∨
        t.geometry.checkSlot slot = .ok () ∧ e.isRetryable = true ∧
          (s'.bus.slots = s.bus.slots ∨
            s'.bus.slots = (s.bus.flushed slot).slots)) := by
  unfold flushEntry
  refine Ends.check (fun e h => ?_) fun _ hslot => ?_
  · exact ⟨(Geometry.isRefusal_of_checkSlot h).not_retryable, Or.inl ⟨h, rfl⟩⟩
  have hmax := (Geometry.checkSlot_eq_ok_iff.mp hslot).2
  refine (command_ends (runs_key hvalid .flushEntry hmax s.bus)).bind ?_ fun _ s₁ h₁ => ?_
  · rintro e s' ⟨he, h | h⟩
    · exact Or.inr ⟨hslot, he, Or.inl h.slots⟩
    · exact Or.inr ⟨hslot, he, Or.inr (h.slots.trans (Device.perform_flushEntry_slots _ _ _))⟩
  · refine (count_ends _).mono (fun _ s' hs' => ⟨hslot, ?_⟩) (fun _ _ => False.elim)
    rw [hs', h₁.slots, Device.perform_flushEntry_slots]

/-! ## Loads -/

/-- The action page can be accessed. -/
abbrev ActionSelected (d : Device t.geometry) : Prop :=
  (subBlockField.get d.extension : Word) = actionSubBlock

theorem loadPage_ends (hvalid : t.geometry.Valid) {slot : SlotIndex}
    (hslot : slot ≤ t.geometry.maxIndex) (page : Page) (image : SlotImage)
    (hselected : ActionSelected s.bus) :
    Ends t.pollLimit (t.loadPage slot page image) s
      (fun _ s' => s.bus.Loads slot image [page] s'.bus ∧ ActionSelected s'.bus)
      (fun e s' => e.isRetryable = true ∧
        (s.bus.Loads slot image [] s'.bus ∨ s.bus.Loads slot image [page] s'.bus)) := by
  unfold loadPage
  refine (writePage_ends page.registers_le (image.page page)).bind ?_ ?_
  · rintro e s' ⟨he, data, hagrees⟩
    exact ⟨he, Or.inl (.nil hagrees.slots hagrees.history)⟩
  rintro _ s₁ ⟨data, h₁, hdata⟩
  have hruns : s₁.bus.Runs ⟨.load, page, slot⟩ :=
    Device.runs_of_index_le hvalid.maxIndex_le hslot fun _ => h₁.extension ▸ hselected
  have hloads {s' : Table.State (Device t.geometry)}
      (h : s'.bus.Agrees (s₁.bus.perform ⟨.load, page, slot⟩)) :
      s.bus.Loads slot image [page] s'.bus := by
    have hslots₁ : s₁.bus.slots = s.bus.slots := h₁.slots
    have hdata₁ : s₁.bus.data = data := h₁.data
    have hhistory₁ : s₁.bus.history = s.bus.history := h₁.history
    refine ⟨h.slots.trans ?_, h.history.trans ?_⟩
    · rw [Device.perform_load_slots, Device.updateSlot_slots_congr hslots₁, hdata₁, hdata]
      rfl
    · rw [Device.perform_eq, hhistory₁]
      rfl
  refine (command_ends hruns).mono (fun _ s' h => ⟨hloads h, ?_⟩) ?_
  · unfold ActionSelected
    rw [h.extension, Device.perform_eq]
    exact h₁.extension ▸ hselected
  · rintro e s' ⟨he, h | h⟩
    · exact ⟨he, Or.inl (.nil (h.slots.trans h₁.slots) (h.history.trans h₁.history))⟩
    · exact ⟨he, Or.inr (hloads h)⟩

/-- A load that breaks off has loaded an initial part of the pages. -/
theorem loadPages_ends (hvalid : t.geometry.Valid) {slot : SlotIndex}
    (hslot : slot ≤ t.geometry.maxIndex) (image : SlotImage) (pages : List Page)
    (hselected : ActionSelected s.bus) :
    Ends t.pollLimit (pages.forM fun page => t.loadPage slot page image) s
      (fun _ s' => s.bus.Loads slot image pages s'.bus)
      (fun e s' => e.isRetryable = true ∧
        ∃ done, done <+: pages ∧ s.bus.Loads slot image done s'.bus) := by
  -- The induction is on the pages that are left to load.
  induction pages generalizing s with
  | nil => exact Ends.pure (.nil rfl rfl)
  | cons page pages ih =>
      change Ends _ (t.loadPage slot page image >>= fun _ => pages.forM _) s _ _
      refine (loadPage_ends hvalid hslot page image hselected).bind ?_ ?_
      · rintro e s' ⟨he, h | h⟩
        · exact ⟨he, [], List.nil_prefix, h⟩
        · exact ⟨he, [page], List.prefix_iff_exists_eq_append.mpr ⟨pages, rfl⟩, h⟩
      · rintro _ s₁ ⟨h₁, hselected₁⟩
        refine (ih hselected₁).mono (fun _ s' h => h₁.cons h) ?_
        rintro e s' ⟨he, done, hdone, h⟩
        exact ⟨he, page :: done, List.cons_prefix_cons.mpr ⟨rfl, hdone⟩, h₁.cons h⟩

theorem loadEntry_eq {σ : Type} [RegisterBus σ] (slot : SlotIndex) (entry : Entry) :
    t.loadEntry slot entry = (do
      ofExcept (t.geometry.checkSlot slot)
      ofExcept (entry.check t.geometry)
      t.selectActionSubBlock
      t.geometry.loadOrder.forM fun page => t.loadPage slot page (.ofEntry entry)
      Session.count fun s => { s with loads := s.loads + 1 } : Session σ Unit) := by
  unfold loadEntry Geometry.loadOrder
  cases t.geometry.hasWindowPage with
  | false => simp
  | true => simp

theorem selected_of_agrees {d : Device t.geometry} {w : Word}
    (h : s.bus.Agrees { d with extension := subBlockField.set w actionSubBlock }) :
    ActionSelected s.bus := by
  unfold ActionSelected
  rw [h.extension]
  exact BitField.get_set_self _ _ _ (by decide)

/-- The slots after an interrupted load of the entry. -/
def PartlyLoaded (s : Table.State (Device t.geometry)) (slot : SlotIndex) (entry : Entry)
    (s' : Table.State (Device t.geometry)) : Prop :=
  ∃ done, done <+: t.geometry.loadOrder ∧
    s'.bus.slots = s.bus.loaded slot (.ofEntry entry) done

/-- A load writes the pages of the entry in order, or an initial part of them. -/
theorem loadEntry_loads (hvalid : t.geometry.Valid) (slot : SlotIndex) (entry : Entry) :
    Ends t.pollLimit (t.loadEntry slot entry) s
      (fun _ s' => t.geometry.checkSlot slot = .ok () ∧ entry.check t.geometry = .ok () ∧
        s.bus.Loads slot (.ofEntry entry) t.geometry.loadOrder s'.bus)
      (fun e s' => t.geometry.checkSlot slot = .error e ∧ s' = s ∨
        t.geometry.checkSlot slot = .ok () ∧ entry.check t.geometry = .error e ∧ s' = s ∨
        t.geometry.checkSlot slot = .ok () ∧ entry.check t.geometry = .ok () ∧
          e.isRetryable = true ∧ ∃ done, done <+: t.geometry.loadOrder ∧
            s.bus.Loads slot (.ofEntry entry) done s'.bus) := by
  rw [loadEntry_eq]
  refine Ends.check (fun e h => ?_) fun _ hslot => ?_
  · exact ⟨(Geometry.isRefusal_of_checkSlot h).not_retryable, Or.inl ⟨h, rfl⟩⟩
  refine Ends.check (fun e h => ?_) fun _ hentry => ?_
  · exact ⟨(Entry.isRefusal_of_check h).not_retryable, Or.inr (Or.inl ⟨hslot, h, rfl⟩)⟩
  have hmax := (Geometry.checkSlot_eq_ok_iff.mp hslot).2
  refine selectActionSubBlock_ends.bind ?_ fun _ s₁ h₁ => ?_
  · rintro e s' ⟨he, h⟩
    exact Or.inr (Or.inr ⟨hslot, hentry, he, [], List.nil_prefix, .nil h.slots h.history⟩)
  refine (loadPages_ends hvalid hmax _ _ (selected_of_agrees h₁)).bind ?_ fun _ s₂ h₂ => ?_
  · rintro e s' ⟨he, done, hdone, h⟩
    exact Or.inr (Or.inr ⟨hslot, hentry, he, done, hdone, h.congr h₁.slots h₁.history⟩)
  · refine (count_ends _).mono (fun _ s' h => ⟨hslot, hentry, ?_⟩) (fun _ _ => False.elim)
    rw [h]
    exact h₂.congr h₁.slots h₁.history

theorem loadEntry_ends (hvalid : t.geometry.Valid) (slot : SlotIndex) (entry : Entry) :
    Ends t.pollLimit (t.loadEntry slot entry) s
      (fun _ s' => t.geometry.checkSlot slot = .ok () ∧ entry.check t.geometry = .ok () ∧
        s'.bus.slots = s.bus.loaded slot (.ofEntry entry) t.geometry.loadOrder)
      (fun e s' => t.geometry.checkSlot slot = .error e ∧ s' = s ∨
        t.geometry.checkSlot slot = .ok () ∧ entry.check t.geometry = .error e ∧ s' = s ∨
        t.geometry.checkSlot slot = .ok () ∧ entry.check t.geometry = .ok () ∧
          e.isRetryable = true ∧ PartlyLoaded s slot entry s') := by
  refine (loadEntry_loads hvalid slot entry).mono (fun _ _ h => ⟨h.1, h.2.1, h.2.2.slots⟩) ?_
  rintro e s' (h | h | ⟨hslot, hentry, he, done, hdone, h⟩)
  · exact Or.inl h
  · exact Or.inr (Or.inl h)
  · exact Or.inr (Or.inr ⟨hslot, hentry, he, done, hdone, h.slots⟩)

/-! ## Reads -/

theorem fetchPage_ends (hvalid : t.geometry.Valid) {slot : SlotIndex}
    (hslot : slot ≤ t.geometry.maxIndex) (page : Page)
    (hselected : page = .action → ActionSelected s.bus) :
    Ends t.pollLimit (t.fetchPage slot page) s
      (fun r s' => r = ((s.bus.slot? slot).getD .empty).page page ∧ s'.bus.slots = s.bus.slots)
      (fun e s' => e.isRetryable = true ∧ s'.bus.slots = s.bus.slots) := by
  unfold fetchPage
  have hruns : s.bus.Runs ⟨.read, page, slot⟩ :=
    Device.runs_of_index_le hvalid.maxIndex_le hslot hselected
  refine (command_ends hruns).bind ?_ fun _ s₁ h₁ => ?_
  · rintro e s' ⟨he, h | h⟩
    · exact ⟨he, h.slots⟩
    · exact ⟨he, h.slots.trans (Device.perform_read_slots _ _ _)⟩
  have hslots₁ : s₁.bus.slots = s.bus.slots := h₁.slots
  refine (readPage_ends page.registers_le).mono ?_ ?_
  · rintro r s' ⟨hr, h⟩
    refine ⟨?_, h.slots.trans hslots₁⟩
    have hle : 16 * page.registers ≤ 16 * dataRegisters :=
      Nat.mul_le_mul_left 16 page.registers_le
    rw [hr, h₁.data, Device.perform_read_data, BitVec.setWidth_setWidth_of_le _ hle,
      BitVec.setWidth_eq]
  · rintro e s' ⟨he, h⟩
    exact ⟨he, h.slots.trans hslots₁⟩

/-- Reads the window page if the table has one. -/
def fetchWindow {σ : Type} [RegisterBus σ] (t : Table) (slot : SlotIndex) :
    Session σ (Registers 26) :=
  if t.geometry.hasWindowPage then t.fetchPage slot .window else pure SlotImage.empty.window

theorem fetchWindow_ends (hvalid : t.geometry.Valid) {slot : SlotIndex}
    (hslot : slot ≤ t.geometry.maxIndex) :
    Ends t.pollLimit (t.fetchWindow slot) s
      (fun r s' => r = (s.bus.shown slot).window ∧ s'.bus.slots = s.bus.slots)
      (fun e s' => e.isRetryable = true ∧ s'.bus.slots = s.bus.slots) := by
  unfold fetchWindow Device.shown
  cases t.geometry.hasWindowPage with
  | false => exact Ends.pure ⟨rfl, rfl⟩
  | true => exact fetchPage_ends hvalid hslot .window nofun

theorem readEntry_eq {σ : Type} [RegisterBus σ] (slot : SlotIndex) :
    t.readEntry slot = (do
      ofExcept (t.geometry.checkSlot slot)
      let key ← t.fetchPage slot .key
      let window ← t.fetchWindow slot
      t.selectActionSubBlock
      let action ← t.fetchPage slot .action
      Session.count fun s => { s with reads := s.reads + 1 }
      return ⟨slot, SlotImage.isValid ⟨key, window, action⟩,
        SlotImage.entry ⟨key, window, action⟩⟩ : Session σ Slot) := by
  unfold readEntry fetchWindow
  cases t.geometry.hasWindowPage with
  | false => rfl
  | true => rfl

theorem readEntry_ends (hvalid : t.geometry.Valid) (slot : SlotIndex) :
    Ends t.pollLimit (t.readEntry slot) s
      (fun found s' => t.geometry.checkSlot slot = .ok () ∧ found = s.bus.content slot ∧
        s'.bus.slots = s.bus.slots)
      (fun e s' => t.geometry.checkSlot slot = .error e ∧ s' = s ∨
        t.geometry.checkSlot slot = .ok () ∧ e.isRetryable = true ∧
          s'.bus.slots = s.bus.slots) := by
  rw [readEntry_eq]
  refine Ends.check (fun e h => ?_) fun _ hslot => ?_
  · exact ⟨(Geometry.isRefusal_of_checkSlot h).not_retryable, Or.inl ⟨h, rfl⟩⟩
  have hmax := (Geometry.checkSlot_eq_ok_iff.mp hslot).2
  refine (fetchPage_ends hvalid hmax .key nofun).bind ?_ ?_
  · exact fun e s' h => Or.inr ⟨hslot, h⟩
  rintro key s₁ ⟨hkey, h₁⟩
  refine (fetchWindow_ends hvalid hmax).bind ?_ ?_
  · exact fun e s' h => Or.inr ⟨hslot, h.1, h.2.trans h₁⟩
  rintro window s₂ ⟨hwindow, h₂⟩
  refine selectActionSubBlock_ends.bind ?_ fun _ s₃ h₃ => ?_
  · exact fun e s' h => Or.inr ⟨hslot, h.1, h.2.slots.trans (h₂.trans h₁)⟩
  have hslots₃ : s₃.bus.slots = s.bus.slots := h₃.slots.trans (h₂.trans h₁)
  refine (fetchPage_ends hvalid hmax .action fun _ => selected_of_agrees h₃).bind ?_ ?_
  · exact fun e s' h => Or.inr ⟨hslot, h.1, h.2.trans hslots₃⟩
  rintro action s₄ ⟨haction, h₄⟩
  refine (count_ends _).bind (fun _ _ => False.elim) fun _ s₅ h₅ => ?_
  refine Ends.pure ⟨hslot, ?_, (congrArg Device.slots h₅).trans (h₄.trans hslots₃)⟩
  -- All three pages were read while the slots were those of `s`.
  have himage : (⟨key, window, action⟩ : SlotImage) = s.bus.shown slot := by
    rw [Device.slot?_congr hslots₃] at haction
    rw [hkey, hwindow, haction]
    unfold Device.shown
    rw [Device.slot?_congr h₁]
    cases t.geometry.hasWindowPage with
    | false => rfl
    | true => rfl
  rw [himage, Device.content]

/-! ## Searches -/

theorem registersAreZero_ends {limit : Nat} (l : List Nat) (hl : ∀ k ∈ l, k < dataRegisters) :
    Ends limit (t.registersAreZero l) s
      (fun b s' => (b = true ↔ ∀ k ∈ l, s.bus.data.get k = 0#16) ∧ s'.bus.Agrees s.bus)
      (Fails s) := by
  induction l generalizing s with
  | nil => exact Ends.pure ⟨iff_of_true rfl nofun, Device.Agrees.refl s.bus⟩
  | cons k l ih =>
      unfold registersAreZero
      refine (readData_ends (hl k List.mem_cons_self)).bind (fun _ _ he => he) ?_
      rintro word s₁ ⟨hword, h₁⟩
      rw [List.forall_mem_cons, ← hword]
      by_cases hzero : word = 0#16
      · rw [if_pos hzero]
        refine (ih fun k' hk' => hl k' (List.mem_cons_of_mem k hk')).mono ?_ ?_
        · rintro b s' ⟨hb, h⟩
          rw [h₁.data] at hb
          exact ⟨hb.trans (and_iff_right hzero).symm, h.trans h₁⟩
        · exact fun e s' h => ⟨h.1, h.2.trans h₁⟩
      · rw [if_neg hzero]
        exact Ends.pure ⟨iff_of_false nofun fun h => hzero h.1, h₁⟩

/-- The reported index stands for a miss. -/
def isMiss {σ : Type} [RegisterBus σ] (t : Table) (found : SlotIndex) : Session σ Bool :=
  if found = t.geometry.maxIndex then t.registersAreZero missRegisters else pure false

theorem isMiss_ends {limit : Nat} (found : SlotIndex) :
    Ends limit (t.isMiss found) s
      (fun b s' => (b = true ↔ found = t.geometry.maxIndex ∧
        ∀ k ∈ missRegisters, s.bus.data.get k = 0#16) ∧ s'.bus.Agrees s.bus)
      (Fails s) := by
  unfold isMiss
  by_cases hmax : found = t.geometry.maxIndex
  · rw [if_pos hmax]
    refine (registersAreZero_ends missRegisters (by decide)).mono ?_ (fun _ _ he => he)
    exact fun b s' h => ⟨h.1.trans (and_iff_right hmax).symm, h.2⟩
  · rw [if_neg hmax]
    exact Ends.pure ⟨iff_of_false nofun fun h => hmax h.1, Device.Agrees.refl s.bus⟩

/-- Searches start at a slot of the table. -/
def checkStart (t : Table) (slot : SlotIndex) : Except Error Unit :=
  if t.geometry.maxIndex < slot then
    .error (.invalidArgument (.slotBeyondMaximum slot t.geometry.maxIndex))
  else .ok ()

theorem checkStart_eq_ok_iff {slot : SlotIndex} :
    t.checkStart slot = .ok () ↔ slot ≤ t.geometry.maxIndex := by
  unfold checkStart
  rw [Checks.refuse_eq_ok_iff, BitVec.not_lt, and_iff_left rfl]

theorem checkStart_eq_error_iff {slot : SlotIndex} {e : Error} :
    t.checkStart slot = .error e ↔ t.geometry.maxIndex < slot ∧
      .invalidArgument (.slotBeyondMaximum slot t.geometry.maxIndex) = e := by
  unfold checkStart
  rw [Checks.refuse_eq_error_iff]
  exact or_iff_left fun h => nomatch h.2

theorem isRefusal_of_checkStart {slot : SlotIndex} {e : Error} (h : t.checkStart slot = .error e) :
    e.IsRefusal :=
  ⟨_, (checkStart_eq_error_iff.mp h).2.symm⟩

theorem getNextEntry_eq {σ : Type} [RegisterBus σ] (slot : SlotIndex) :
    t.getNextEntry slot = (do
      ofExcept (t.checkStart slot)
      t.command .getNext .key slot
      Session.count fun s => { s with getNext := s.getNext + 1 }
      let word ← t.readRegister operationRegister
      let miss ← t.isMiss (entryField.get word)
      if miss then throw (.notFound slot)
      else t.readEntry (entryField.get word) : Session σ Slot) := by
  unfold getNextEntry checkStart isMiss
  by_cases hslot : t.geometry.maxIndex < slot
  · rw [if_pos hslot, if_pos hslot]
    rfl
  · rw [if_neg hslot, if_neg hslot]
    change _ = t.command .getNext .key slot >>= fun _ => _
    refine bind_congr fun _ => bind_congr fun _ => bind_congr fun word => ?_
    by_cases hlast : (entryField.get word : SlotIndex) = t.geometry.maxIndex
    · rw [if_pos hlast, if_pos hlast]
      refine bind_congr fun miss => ?_
      cases miss with
      | false => rfl
      | true => rfl
    · rw [if_neg hlast, if_neg hlast]
      rfl

/-- Searches for the first valid slot after the given one, without reading it. -/
def locate {σ : Type} [RegisterBus σ] (t : Table) (slot : SlotIndex) : Session σ SlotIndex := do
  ofExcept (t.checkStart slot)
  t.command .getNext .key slot
  Session.count fun s => { s with getNext := s.getNext + 1 }
  let word ← t.readRegister operationRegister
  let miss ← t.isMiss (entryField.get word)
  if miss then throw (.notFound slot)
  else return entryField.get word

theorem getNextEntry_eq_locate {σ : Type} [RegisterBus σ] (slot : SlotIndex) :
    (t.getNextEntry slot : Session σ Slot) = t.locate slot >>= t.readEntry := by
  rw [getNextEntry_eq, locate]
  simp only [bind_assoc]
  refine bind_congr fun _ => bind_congr fun _ => bind_congr fun _ => bind_congr fun word => ?_
  refine bind_congr fun miss => ?_
  cases miss with
  | false => rfl
  | true => rfl

theorem locate_ends (hvalid : t.geometry.Valid) (slot : SlotIndex) :
    Ends t.pollLimit (t.locate slot) s
      (fun i s' => t.checkStart slot = .ok () ∧ s'.bus.slots = s.bus.slots ∧ s.bus.Finds slot i)
      (fun e s' => t.checkStart slot = .error e ∧ s' = s ∨
        t.checkStart slot = .ok () ∧ s'.bus.slots = s.bus.slots ∧
          (e = .notFound slot ∧ (∀ i, ¬s.bus.Finds slot i) ∨ e.isRetryable = true)) := by
  unfold locate
  refine Ends.check (fun e h => ?_) fun _ hstart => ?_
  · exact ⟨(isRefusal_of_checkStart h).not_retryable, Or.inl ⟨h, rfl⟩⟩
  have hruns := runs_key hvalid .getNext (checkStart_eq_ok_iff.mp hstart) s.bus
  have hkept : (s.bus.perform ⟨.getNext, .key, slot⟩).slots = s.bus.slots :=
    Device.perform_getNext_slots _ _ _
  refine (command_ends hruns).bind ?_ fun _ s₁ h₁ => ?_
  · rintro e s' ⟨he, h | h⟩
    · exact Or.inr ⟨hstart, h.slots, Or.inr he⟩
    · exact Or.inr ⟨hstart, h.slots.trans hkept, Or.inr he⟩
  have hslots₁ : s₁.bus.slots = s.bus.slots := h₁.slots.trans hkept
  refine (count_ends _).bind (fun _ _ => False.elim) fun _ s₂ h₂ => ?_
  refine readOperation_ends.bind ?_ ?_
  · exact fun e s' h => Or.inr ⟨hstart, (h.2.slots.trans (h₂ ▸ hslots₁)), Or.inr h.1⟩
  rintro word s₃ ⟨⟨busy, hword⟩, h₃⟩
  have h₃' : s₃.bus.Agrees (s.bus.perform ⟨.getNext, .key, slot⟩) := h₃.trans (h₂ ▸ h₁)
  -- From here on the registers tell what the search has found.
  have hfinds := Device.finds_iff_of_agrees hvalid h₃' busy
  have hslots₃ : s₃.bus.slots = s.bus.slots := h₃.slots.trans (h₂ ▸ hslots₁)
  rw [h₃.operation, ← hword] at hfinds
  refine (isMiss_ends (entryField.get word)).bind ?_ ?_
  · exact fun e s' h => Or.inr ⟨hstart, h.2.slots.trans hslots₃, Or.inr h.1⟩
  rintro miss s₄ ⟨hmiss, h₄⟩
  have hslots₄ : s₄.bus.slots = s.bus.slots := h₄.slots.trans hslots₃
  cases miss with
  | true =>
      refine Ends.throw rfl (Or.inr ⟨hstart, hslots₄, Or.inl ⟨rfl, fun i hi => ?_⟩⟩)
      obtain ⟨rfl, hshown⟩ := (hfinds i).mp hi
      exact hshown (hmiss.mp rfl)
  | false =>
      have hfound : s.bus.Finds slot (entryField.get word) :=
        (hfinds _).mpr ⟨rfl, fun h => nomatch hmiss.mpr h⟩
      exact Ends.pure ⟨hstart, hslots₄, hfound⟩

theorem getNextEntry_ends (hvalid : t.geometry.Valid) (slot : SlotIndex) :
    Ends t.pollLimit (t.getNextEntry slot) s
      (fun found s' => t.checkStart slot = .ok () ∧ s'.bus.slots = s.bus.slots ∧
        ∃ i, s.bus.Finds slot i ∧ found = s.bus.content i)
      (fun e s' => t.checkStart slot = .error e ∧ s' = s ∨
        t.checkStart slot = .ok () ∧ s'.bus.slots = s.bus.slots ∧
          (e = .notFound slot ∧ (∀ i, ¬s.bus.Finds slot i) ∨ e.isRetryable = true)) := by
  rw [getNextEntry_eq_locate]
  refine (locate_ends hvalid slot).bind (fun _ _ h => h) ?_
  rintro i s₁ ⟨hstart, hslots₁, hfound⟩
  refine (readEntry_ends hvalid i).mono ?_ ?_
  · rintro found s' ⟨-, rfl, h⟩
    exact ⟨hstart, h.trans hslots₁, i, hfound, Device.content_congr hslots₁ _⟩
  · rintro e s' (⟨h, -⟩ | ⟨-, he, h⟩)
    · exact absurd hfound.inRange (Geometry.checkSlot_eq_error_iff.mp h).1
    · exact Or.inr ⟨hstart, h.trans hslots₁, Or.inr he⟩

theorem previous_le {slot : SlotIndex} (hslot : slot ≤ t.geometry.maxIndex) :
    t.previous slot ≤ t.geometry.maxIndex := by
  unfold previous
  split
  · exact BitVec.le_refl _
  · bv_omega

/-- A search after the previous slot starts at the slot itself. -/
theorem searchStart_previous {slot : SlotIndex}
    (hslot : t.geometry.minIndex ≤ slot ∧ slot ≤ t.geometry.maxIndex) :
    Device.searchStart t.geometry (t.previous slot) = slot.toNat := by
  obtain ⟨hmin, hmax⟩ := hslot
  unfold previous
  by_cases hzero : slot = 0#16
  · rw [if_pos hzero, Device.searchStart_maxIndex]
    bv_omega
  · rw [if_neg hzero]
    have hlt : slot - 1#16 < t.geometry.maxIndex := by
      bv_omega
    rw [Device.searchStart_of_lt hlt]
    bv_omega

/-- A search after the previous slot finds the slot exactly if it is present. -/
theorem finds_previous_iff {d : Device t.geometry} {slot : SlotIndex}
    (hslot : t.geometry.minIndex ≤ slot ∧ slot ≤ t.geometry.maxIndex) :
    d.Finds (t.previous slot) slot ↔ d.Present slot := by
  unfold Device.Finds Device.Present
  rw [Device.firstAfter?_eq_some_iff, searchStart_previous hslot]
  refine and_congr_left fun _ => ?_
  constructor
  · exact fun h => h.2.1
  · intro hloaded
    refine ⟨Nat.le_refl _, hloaded, fun j hle hlt => ?_⟩
    exact absurd (BitVec.lt_def.mp hlt) (Nat.not_lt.mpr hle)

/-- The search starts one slot before, so it finds the slot or a later one. -/
theorem searchFor_ends (hvalid : t.geometry.Valid) {slot : SlotIndex}
    (hslot : t.geometry.minIndex ≤ slot ∧ slot ≤ t.geometry.maxIndex) :
    Ends t.pollLimit
      (tryCatch (t.getNextEntry (t.previous slot)) fun
        | .notFound _ => throw (.notFound slot)
        | e => throw e) s
      (fun found s' => s'.bus.slots = s.bus.slots ∧
        ∃ i, s.bus.Finds (t.previous slot) i ∧ found = s.bus.content i)
      (fun e s' => s'.bus.slots = s.bus.slots ∧
        (e = .notFound slot ∧ ¬s.bus.Present slot ∨ e.isRetryable = true)) := by
  have hstart : t.checkStart (t.previous slot) = .ok () :=
    checkStart_eq_ok_iff.mpr (previous_le hslot.2)
  refine ((getNextEntry_ends hvalid (t.previous slot)).mono (fun _ _ h => h.2) ?_).catchMiss
    (F := fun e s' => s'.bus.slots = s.bus.slots ∧
      (e = .notFound (t.previous slot) ∧ ¬s.bus.Present slot ∨ e.isRetryable = true)) ?_ ?_
  · rintro e s' (⟨h, -⟩ | ⟨-, h, ⟨he, hnone⟩ | he⟩)
    · cases hstart.symm.trans h
    · refine ⟨h, Or.inl ⟨he, fun hpresent => ?_⟩⟩
      exact hnone slot ((finds_previous_iff hslot).mpr hpresent)
    · exact ⟨h, Or.inr he⟩
  · rintro i s' ⟨h, ⟨-, habsent⟩ | he⟩
    · exact Ends.throw rfl ⟨h, Or.inl ⟨rfl, habsent⟩⟩
    · cases he
  · rintro e s' ⟨h, ⟨rfl, -⟩ | he⟩ hother
    · exact absurd rfl (hother _)
    · exact ⟨h, Or.inr he⟩

theorem findEntry_ends (hvalid : t.geometry.Valid) (slot : SlotIndex) :
    Ends t.pollLimit (t.findEntry slot) s
      (fun found s' => t.geometry.checkSlot slot = .ok () ∧ s'.bus.slots = s.bus.slots ∧
        s.bus.Present slot ∧ found = s.bus.content slot)
      (fun e s' => t.geometry.checkSlot slot = .error e ∧ s' = s ∨
        t.geometry.checkSlot slot = .ok () ∧ s'.bus.slots = s.bus.slots ∧
          (e = .notFound slot ∧ ¬s.bus.Present slot ∨ e.isRetryable = true)) := by
  unfold findEntry
  refine Ends.check (fun e h => ?_) fun _ hslot => ?_
  · exact ⟨(Geometry.isRefusal_of_checkSlot h).not_retryable, Or.inl ⟨h, rfl⟩⟩
  have hrange := Geometry.checkSlot_eq_ok_iff.mp hslot
  refine (searchFor_ends hvalid hrange).bind (fun e s' h => Or.inr ⟨hslot, h⟩) ?_
  rintro found s₁ ⟨h₁, i, hfinds, rfl⟩
  change Ends _ (if i = slot then _ else _) _ _ _
  by_cases hi : i = slot
  · subst hi
    have hpresent := (finds_previous_iff hrange).mp hfinds
    rw [if_pos rfl]
    exact Ends.pure ⟨hslot, h₁, hpresent, rfl⟩
  · have habsent : ¬s.bus.Present slot := by
      intro hpresent
      have hslotFound := (finds_previous_iff hrange).mpr hpresent
      exact hi (Option.some.inj (hfinds.1.symm.trans hslotFound.1))
    rw [if_neg hi]
    exact Ends.throw rfl (Or.inr ⟨hslot, h₁, Or.inl ⟨rfl, habsent⟩⟩)

/-! ## Changing ports -/

/-- The update does not leave the ports of a vector. -/
def KeepsWidth (update : Masked PortVector → Masked PortVector) : Prop :=
  ∀ ports : Masked PortVector,
    (∀ i, PortVector.width ≤ i →
      ports.value.contains i = false ∧ ports.mask.contains i = false) →
    ∀ i, PortVector.width ≤ i →
      (update ports).value.contains i = false ∧ (update ports).mask.contains i = false

theorem keepsWidth_admit (port : Nat) :
    KeepsWidth fun ports => ⟨ports.value.erase port, ports.mask.erase port⟩ := by
  intro ports hports i hi
  obtain ⟨hvalue, hmask⟩ := hports i hi
  simp only [PortVector.contains_erase, hvalue, hmask, Bool.false_and, and_self]

theorem keepsWidth_block {port : Nat} (hport : port < PortVector.width) :
    KeepsWidth fun ports => ⟨ports.value.erase port, ports.mask.insert port⟩ := by
  intro ports hports i hi
  obtain ⟨hvalue, hmask⟩ := hports i hi
  have hne : i ≠ port := Nat.ne_of_gt (Nat.lt_of_lt_of_le hport hi)
  simp [PortVector.contains_erase, PortVector.contains_insert, hvalue, hmask, hne]

theorem check_withPorts {entry : Entry} {update : Masked PortVector → Masked PortVector}
    (hentry : entry.check t.geometry = .ok ()) (hupdate : KeepsWidth update) :
    (entry.withPorts update).check t.geometry = .ok () := by
  rw [Entry.check_eq_ok_iff] at hentry ⊢
  refine ⟨?_, hentry.2⟩
  have hkey := Layout.check_eq_ok_iff.mp hentry.1
  rw [KeyMatch.check, Layout.check_eq_ok_iff]
  simp only [KeyMatch.layout, List.forall_mem_cons, List.not_mem_nil, false_imp_iff, implies_true,
    and_true] at hkey ⊢
  obtain ⟨htype, htypeMask, htime, htimeMask, hports, hportsMask, hrest⟩ := hkey
  have hkept := hupdate ⟨entry.key.value.sourcePorts, entry.key.mask.sourcePorts⟩ fun i hi =>
    ⟨(BitField.fits_iff _ _).mp hports i hi, (BitField.fits_iff _ _).mp hportsMask i hi⟩
  exact ⟨htype, htypeMask, htime, htimeMask,
    (BitField.fits_iff _ _).mpr fun i hi => (hkept i hi).1,
    (BitField.fits_iff _ _).mpr fun i hi => (hkept i hi).2, hrest⟩

theorem updatePorts_ends (hvalid : t.geometry.Valid) (slot : SlotIndex) (port : Octet)
    {update : Masked PortVector → Masked PortVector}
    (hupdate : port.toNat < PortVector.width → KeepsWidth update) :
    Ends t.pollLimit (t.updatePorts slot port update) s
      (fun _ s' => port.toNat < PortVector.width ∧ t.geometry.checkSlot slot = .ok () ∧
        s.bus.Present slot ∧
        s'.bus.slots = s.bus.loaded slot
          (.ofEntry ((s.bus.content slot).entry.withPorts update)) t.geometry.loadOrder)
      (fun e s' =>
        ¬port.toNat < PortVector.width ∧ e = .invalidArgument (.portBeyondVector port) ∧ s' = s ∨
        port.toNat < PortVector.width ∧
          (t.geometry.checkSlot slot = .error e ∧ s' = s ∨
            t.geometry.checkSlot slot = .ok () ∧
              (e = .notFound slot ∧ ¬s.bus.Present slot ∧ s'.bus.slots = s.bus.slots ∨
                e.isRetryable = true ∧ (s'.bus.slots = s.bus.slots ∨ s.bus.Present slot ∧
                  PartlyLoaded s slot ((s.bus.content slot).entry.withPorts update) s')))) := by
  unfold updatePorts
  by_cases hport : PortVector.width ≤ port.toNat
  · rw [if_pos hport]
    refine (Ends.throw rfl (Or.inl ⟨Nat.not_lt.mpr hport, rfl, rfl⟩)).bind
      (Q := fun _ _ => False) (fun _ _ h => h) (fun _ _ => False.elim)
  rw [if_neg hport]
  have hlt := Nat.lt_of_not_le hport
  refine (findEntry_ends hvalid slot).bind ?_ ?_
  · rintro e s' (h | ⟨hslot, h, ⟨he, habsent⟩ | he⟩)
    · exact Or.inr ⟨hlt, Or.inl h⟩
    · exact Or.inr ⟨hlt, Or.inr ⟨hslot, Or.inl ⟨he, habsent, h⟩⟩⟩
    · exact Or.inr ⟨hlt, Or.inr ⟨hslot, Or.inr ⟨he, Or.inl h⟩⟩⟩
  rintro found s₁ ⟨hslot, h₁, hpresent, rfl⟩
  -- The entry fits since it was read, and other ports leave it fitting.
  have hcheck := check_withPorts (Device.check_content s.bus slot) (hupdate hlt)
  refine (loadEntry_ends hvalid slot ((s.bus.content slot).entry.withPorts update)).mono ?_ ?_
  · rintro _ s' ⟨-, -, h⟩
    exact ⟨hlt, hslot, hpresent, h.trans (Device.loaded_congr h₁ slot _ _)⟩
  · rintro e s' (⟨h, -⟩ | ⟨-, h, -⟩ | ⟨-, -, he, done, hdone, h⟩)
    · exact nomatch hslot.symm.trans h
    · exact nomatch hcheck.symm.trans h
    · exact Or.inr ⟨hlt, Or.inr ⟨hslot, Or.inr ⟨he, Or.inr ⟨hpresent, done, hdone,
        h.trans (Device.loaded_congr h₁ slot _ _)⟩⟩⟩⟩

end Table

end Tcam
