import Tcam.Proofs.Device.History
import Tcam.Proofs.Table.Composition

/-!
# The history that operations leave

Every operation of a table leaves the history of the device in agreement with its
slots, in any state and wherever it breaks off.  This has to be shown for the
basic operations only, command by command.
-/

namespace Tcam

namespace Table

open Session (Ends)

variable {t : Table} {s : Table.State (Device t.geometry)}

/-- If the history agreed with the slots before, it does so afterwards. -/
def Chronicles (d d' : Device t.geometry) : Prop :=
  d.Chronicled → d'.Chronicled

/-- However the session ends, the history agrees with the slots if it did before. -/
abbrev EndsChronicled {α : Type} (limit : Nat) (m : Session (Device t.geometry) α)
    (s : Table.State (Device t.geometry)) : Prop :=
  Ends limit m s (fun _ s' => Chronicles s.bus s'.bus) (fun _ s' => Chronicles s.bus s'.bus)

theorem Chronicles.of_agrees {d d' : Device t.geometry} (h : d'.Agrees d) : Chronicles d d' :=
  fun hd => hd.congr h.slots h.history

theorem Chronicles.trans {d₁ d₂ d₃ : Device t.geometry} (h : Chronicles d₁ d₂)
    (h' : Chronicles d₂ d₃) : Chronicles d₁ d₃ :=
  fun hd => h' (h hd)

/-- First `m`, which also makes sure of `Q`, then `f`. -/
theorem EndsChronicled.bind_of {α β : Type} {limit : Nat} {m : Session (Device t.geometry) α}
    {f : α → Session (Device t.geometry) β} {Q : α → Table.State (Device t.geometry) → Prop}
    (hm : Ends limit m s (fun a s' => Q a s' ∧ Chronicles s.bus s'.bus)
      (fun _ s' => Chronicles s.bus s'.bus))
    (hf : ∀ a s₁, Q a s₁ → EndsChronicled limit (f a) s₁) : EndsChronicled limit (m >>= f) s := by
  refine hm.bind (fun _ _ h => h) fun a s₁ h => ?_
  exact (hf a s₁ h.1).mono (fun _ _ h' => h.2.trans h') (fun _ _ h' => h.2.trans h')

theorem EndsChronicled.bind {α β : Type} {limit : Nat} {m : Session (Device t.geometry) α}
    {f : α → Session (Device t.geometry) β} (hm : EndsChronicled limit m s)
    (hf : ∀ a s₁, EndsChronicled limit (f a) s₁) : EndsChronicled limit (m >>= f) s :=
  .bind_of (Q := fun _ _ => True) (hm.mono (fun _ _ h => ⟨trivial, h⟩) (fun _ _ h => h))
    fun a s₁ _ => hf a s₁

/-- A session that neither executes a command nor changes a slot. -/
theorem chronicles_of_agrees {α : Type} {limit : Nat} {m : Session (Device t.geometry) α}
    {Q : α → Table.State (Device t.geometry) → Prop}
    (h : Ends limit m s (fun a s' => Q a s' ∧ s'.bus.Agrees s.bus) (Fails s)) :
    EndsChronicled limit m s :=
  h.mono (fun _ _ h => .of_agrees h.2) (fun _ _ h => .of_agrees h.2)

/-- A command that is all that an operation executes. -/
theorem command_chronicles {opcode : Opcode} {page : Page} {index : SlotIndex}
    (hruns : s.bus.Runs ⟨opcode, page, index⟩)
    (hstep : ∀ d' : Device t.geometry, d'.slots = (s.bus.perform ⟨opcode, page, index⟩).slots →
      d'.history = ⟨opcode, page, index⟩ :: s.bus.history → s.bus.Executes d') :
    EndsChronicled t.pollLimit (t.command opcode page index) s := by
  have hdone {s' : Table.State (Device t.geometry)}
      (h : s'.bus.Agrees (s.bus.perform ⟨opcode, page, index⟩)) : Chronicles s.bus s'.bus := by
    have hhistory : s'.bus.history = ⟨opcode, page, index⟩ :: s.bus.history := by
      rw [h.history, Device.perform_eq]
    exact fun hd => hd.executes (hstep s'.bus h.slots hhistory)
  refine (command_ends hruns).mono (fun _ s' h => hdone h) ?_
  rintro e s' ⟨-, h | h⟩
  · exact .of_agrees h
  · exact hdone h

theorem count_chronicles {limit : Nat} (f : Stats → Stats) :
    EndsChronicled limit (Session.count f) s :=
  (count_ends f).mono (fun _ _ h => h ▸ id) (fun _ _ => False.elim)

variable (hvalid : t.geometry.Valid)

include hvalid

theorem flushAll_chronicles : EndsChronicled t.pollLimit t.flushAll s := by
  have hruns : s.bus.Runs ⟨.flushAll, .key, 0#16⟩ :=
    Device.runs_of_index_le hvalid.maxIndex_le (BitVec.le_def.mpr (Nat.zero_le _)) nofun
  refine EndsChronicled.bind (command_chronicles hruns fun d' h h' => ?_) fun _ _ =>
    count_chronicles _
  exact .flushAll h h'

theorem flushEntry_chronicles (slot : SlotIndex) :
    EndsChronicled t.pollLimit (t.flushEntry slot) s := by
  refine Ends.check (fun e h => ?_) fun _ hslot => ?_
  · exact ⟨(Geometry.isRefusal_of_checkSlot h).not_retryable, id⟩
  have hruns : s.bus.Runs ⟨.flushEntry, .key, slot⟩ :=
    Device.runs_of_index_le hvalid.maxIndex_le (Geometry.checkSlot_eq_ok_iff.mp hslot).2 nofun
  refine EndsChronicled.bind (command_chronicles hruns fun d' h h' => ?_) fun _ _ =>
    count_chronicles _
  exact .flushEntry slot (h.trans (Device.perform_flushEntry_slots _ _ _)) h'

theorem loadEntry_chronicles (slot : SlotIndex) (entry : Entry) :
    EndsChronicled t.pollLimit (t.loadEntry slot entry) s := by
  have hstep {s' : Table.State (Device t.geometry)} {pages : List Page}
      (hslot : t.geometry.checkSlot slot = .ok ()) (hpages : pages <+: t.geometry.loadOrder)
      (h : s.bus.Loads slot (.ofEntry entry) pages s'.bus) : Chronicles s.bus s'.bus :=
    fun hd => hd.executes (.load slot entry pages hslot hpages h)
  refine (loadEntry_loads hvalid slot entry).mono ?_ ?_
  · exact fun _ _ h => hstep h.1 (List.prefix_refl _) h.2.2
  · rintro e s' (⟨-, rfl⟩ | ⟨-, -, rfl⟩ | ⟨hslot, -, -, pages, hpages, h⟩)
    · exact id
    · exact id
    · exact hstep hslot hpages h

theorem fetchPage_chronicles {slot : SlotIndex} (hslot : slot ≤ t.geometry.maxIndex) (page : Page)
    (hpage : page = .window → t.geometry.hasWindowPage = true)
    (hselected : page = .action → ActionSelected s.bus) :
    EndsChronicled t.pollLimit (t.fetchPage slot page) s := by
  have hruns : s.bus.Runs ⟨.read, page, slot⟩ :=
    Device.runs_of_index_le hvalid.maxIndex_le hslot hselected
  refine EndsChronicled.bind (command_chronicles hruns fun d' h h' => ?_) fun _ s₁ => ?_
  · exact .read slot page hpage h h'
  · exact chronicles_of_agrees (readPage_ends page.registers_le)

theorem fetchWindow_chronicles {slot : SlotIndex} (hslot : slot ≤ t.geometry.maxIndex) :
    EndsChronicled t.pollLimit (t.fetchWindow slot) s := by
  unfold fetchWindow
  cases hpage : t.geometry.hasWindowPage with
  | false => exact Ends.pure id
  | true => exact fetchPage_chronicles hvalid hslot .window (fun _ => hpage) nofun

theorem readEntry_chronicles (slot : SlotIndex) :
    EndsChronicled t.pollLimit (t.readEntry slot) s := by
  rw [readEntry_eq]
  refine Ends.check (fun e h => ?_) fun _ hslot => ?_
  · exact ⟨(Geometry.isRefusal_of_checkSlot h).not_retryable, id⟩
  have hmax := (Geometry.checkSlot_eq_ok_iff.mp hslot).2
  refine EndsChronicled.bind (fetchPage_chronicles hvalid hmax .key nofun nofun) fun key s₁ => ?_
  refine EndsChronicled.bind (fetchWindow_chronicles hvalid hmax) fun window s₂ => ?_
  -- The action page can only be read because its sub-block has been selected.
  refine EndsChronicled.bind_of (Q := fun _ s' => ActionSelected s'.bus) ?_ fun _ s₃ hselected => ?_
  · refine selectActionSubBlock_ends.mono ?_ (fun _ _ h => .of_agrees h.2)
    exact fun _ _ h => ⟨selected_of_agrees h, fun hd => hd.congr h.slots h.history⟩
  refine EndsChronicled.bind (fetchPage_chronicles hvalid hmax .action nofun fun _ => hselected)
    fun _ s₄ => ?_
  exact EndsChronicled.bind (count_chronicles _) fun _ _ => Ends.pure id

theorem getNextEntry_chronicles (slot : SlotIndex) :
    EndsChronicled t.pollLimit (t.getNextEntry slot) s := by
  rw [getNextEntry_eq]
  refine Ends.check (fun e h => ?_) fun _ hstart => ?_
  · exact ⟨(isRefusal_of_checkStart h).not_retryable, id⟩
  have hruns : s.bus.Runs ⟨.getNext, .key, slot⟩ :=
    Device.runs_of_index_le hvalid.maxIndex_le (checkStart_eq_ok_iff.mp hstart) nofun
  refine EndsChronicled.bind (command_chronicles hruns fun d' h h' => ?_) fun _ s₁ => ?_
  · exact .getNext slot (h.trans (Device.perform_getNext_slots _ _ _)) h'
  refine EndsChronicled.bind (count_chronicles _) fun _ s₂ => ?_
  refine EndsChronicled.bind (chronicles_of_agrees readOperation_ends) fun word s₃ => ?_
  refine EndsChronicled.bind (chronicles_of_agrees (isMiss_ends _)) fun miss s₄ => ?_
  cases miss with
  | true => exact Ends.throw rfl id
  | false => exact readEntry_chronicles hvalid _

/-- Whatever an operation executes, the history goes on agreeing with the slots. -/
theorem within_chronicles {α : Type} {m : Script α} (h : Composed t.Basic m) :
    t.Within Chronicles (m (Device t.geometry)) := by
  refine within_of_basic (fun _ => id) (fun _ _ _ => .trans) (fun α m h s => ?_) h
  cases h with
  | flushAll => exact flushAll_chronicles hvalid
  | flushEntry slot => exact flushEntry_chronicles hvalid slot
  | loadEntry slot entry => exact loadEntry_chronicles hvalid slot entry
  | readEntry slot => exact readEntry_chronicles hvalid slot
  | getNextEntry slot => exact getNextEntry_chronicles hvalid slot
  | throw e he => exact Ends.throw he id

end Table

end Tcam
