import Tcam.Proofs.Slot.Registers
import Tcam.Proofs.Table.Ends

/-!
# Register accesses and commands of a table

What the building blocks of the operations do, in any state of the device.  A
command that breaks off has either been executed completely or not at all.
-/

namespace Tcam

namespace Device

variable {g : Geometry} {limit : Nat}

theorem Ready.of_eq {d d' : Device g} (h : d.Ready limit) (hfail : d'.failAt = d.failAt)
    (hstuck : d'.stuckBusy = d.stuckBusy) (hdelay : d'.busyDelay = d.busyDelay)
    (hremaining : d'.busyRemaining ≤ d.busyRemaining) : d'.Ready limit :=
  ⟨hfail.trans h.noFault, hstuck.trans h.notStuck, hdelay ▸ h.delay_lt,
    Nat.lt_of_le_of_lt hremaining h.remaining_lt⟩

theorem not_faultDue {d : Device g} (h : d.failAt = none) : ¬d.FaultDue := by
  rw [FaultDue, h]
  exact nofun

theorem Ready.not_faultDue {d : Device g} (h : d.Ready limit) : ¬d.FaultDue :=
  Device.not_faultDue h.noFault

/-- A command keeps the block ready, since its busy bit clears in time as well. -/
theorem Ready.perform {d : Device g} (h : d.Ready limit) (c : Command) :
    (d.perform c).Ready limit := by
  rw [perform_eq]
  exact ⟨h.noFault, h.notStuck, h.delay_lt, h.delay_lt⟩

end Device

namespace Table

open Session (Ends onBus)

variable {t : Table} {s : Table.State (Device t.geometry)} {limit : Nat}

/-! ## Single accesses -/

/-- A failure of the hardware that has changed no slot and no register. -/
def Fails (s : Table.State (Device t.geometry)) (e : Error) (s' : Table.State (Device t.geometry)) :
    Prop :=
  e.isRetryable = true ∧ s'.bus.Agrees s.bus

theorem onBus_ends {α : Type} {access : EStateM RegError (Device t.geometry) α} {a : α}
    {r : RegError} {d : Device t.geometry}
    (h : access s.bus = if s.bus.FaultDue then .error r s.bus.faulted else .ok a d)
    (hready : s.bus.Ready limit → d.Ready limit) :
    Ends limit (onBus access) s (fun b s' => b = a ∧ s'.bus = d) (Fails s) := by
  unfold Ends onBus
  rw [h]
  by_cases hdue : s.bus.FaultDue
  · rw [if_pos hdue]
    exact ⟨fun hr => absurd hdue hr.not_faultDue, rfl, s.bus.faulted_agrees⟩
  · rw [if_neg hdue]
    exact ⟨hready, rfl, rfl⟩

theorem readRegister_ends {offset : RegOffset} {w : Word} {d : Device t.geometry}
    (h : Device.fetch offset s.bus.counted = .ok w d)
    (hready : s.bus.Ready limit → d.Ready limit) :
    Ends limit (t.readRegister offset) s (fun v s' => v = w ∧ s'.bus = d) (Fails s) := by
  have haccess := s.bus.readRegister_eq offset
  rw [h] at haccess
  exact onBus_ends haccess hready

theorem writeRegister_ends {offset : RegOffset} {value : Word} {d : Device t.geometry}
    (h : Device.store offset value s.bus.counted = .ok () d)
    (hready : s.bus.Ready limit → d.Ready limit) :
    Ends limit (t.writeRegister offset value) s (fun _ s' => s'.bus = d) (Fails s) := by
  have haccess := s.bus.writeRegister_eq offset value
  rw [h] at haccess
  exact (onBus_ends haccess hready).mono (fun _ _ hd => hd.2) (fun _ _ he => he)

theorem readData_ends {i : Nat} (hi : i < dataRegisters) :
    Ends limit (t.readRegister (dataRegister i)) s
      (fun w s' => w = s.bus.data.get i ∧ s'.bus.Agrees s.bus) (Fails s) := by
  refine (readRegister_ends (Device.fetch_dataRegister hi s.bus.counted) ?_).mono ?_ ?_
  · exact fun hr => hr.of_eq rfl rfl rfl (Nat.le_refl _)
  · rintro w s' ⟨hw, hs'⟩
    exact ⟨hw, hs' ▸ s.bus.counted_agrees⟩
  · exact fun _ _ he => he

theorem writeData_ends {i : Nat} (hi : i < dataRegisters) (value : Word) :
    Ends limit (t.writeRegister (dataRegister i) value) s
      (fun _ s' => s'.bus.Agrees { s.bus with data := s.bus.data.set i value }) (Fails s) := by
  refine (writeRegister_ends (Device.store_dataRegister hi value s.bus.counted) ?_).mono ?_ ?_
  · exact fun hr => hr.of_eq rfl rfl rfl (Nat.le_refl _)
  · intro _ s' hs'
    rw [hs']
    exact ⟨rfl, rfl, rfl, rfl, rfl⟩
  · exact fun _ _ he => he

theorem readOperation_ends :
    Ends limit (t.readRegister operationRegister) s
      (fun w s' => (∃ busy, w = busyField.setFlag s.bus.operation busy) ∧ s'.bus.Agrees s.bus)
      (Fails s) := by
  refine (readRegister_ends s.bus.fetch_operationRegister ?_).mono ?_ ?_
  · exact fun hr => hr.of_eq rfl rfl rfl (Nat.sub_le _ _)
  · rintro w s' ⟨hw, hs'⟩
    rw [hs']
    exact ⟨⟨_, hw⟩, ⟨rfl, rfl, rfl, rfl, rfl⟩⟩
  · exact fun _ _ he => he

/-- The write of a command that the block can run. -/
theorem writeOperation_ends {c : Command} (h : s.bus.Runs c) :
    Ends limit (t.writeRegister operationRegister c.word) s
      (fun _ s' => s'.bus.Agrees (s.bus.perform c)) (Fails s) := by
  have hruns : s.bus.counted.Runs c := h
  refine (writeRegister_ends (Device.store_word hruns) ?_).mono ?_ ?_
  · intro hr
    have hcounted : s.bus.counted.Ready limit := hr.of_eq rfl rfl rfl (Nat.le_refl _)
    exact hcounted.perform c
  · intro _ s' hs'
    rw [hs']
    exact s.bus.counted_agrees.perform c
  · exact fun _ _ he => he

/-! ## Waiting -/

theorem busyField_get_setFlag (w : Word) (busy : Bool) :
    (busyField.get (busyField.setFlag w busy) : Word) = 0#16 ↔ busy = false := by
  rw [BitField.setFlag, BitField.get_set_self _ _ _ (by decide)]
  cases busy <;> decide

theorem poll_succ (n : Nat) (s : Table.State (Device t.geometry)) :
    t.poll (n + 1) s =
      if s.bus.FaultDue then
        .error (.transport (.access t.block operationRegister .injected)) { s with
          bus := s.bus.faulted
          stats := { s.stats with transportErrors := s.stats.transportErrors + 1 } }
      else if s.bus.busyBit then t.poll n { s with bus := s.bus.polled }
      else .ok () { s with bus := s.bus.polled } := by
  rw [poll]
  change EStateM.bind (onBus (RegisterBus.readField t.block operationRegister busyField)) _ s = _
  unfold EStateM.bind onBus
  rw [block, Device.readField_operationRegister]
  by_cases hdue : s.bus.FaultDue
  · rw [if_pos hdue, if_pos hdue]
  · rw [if_neg hdue, if_neg hdue]
    simp only [busyField_get_setFlag]
    cases s.bus.busyBit with
    | false => rfl
    | true => rfl

/-- The block is not busy for so long that `n` polls do not see the end of it. -/
structure Settles (d : Device t.geometry) (n : Nat) : Prop where
  noFault : d.failAt = none
  notStuck : d.stuckBusy = false
  remaining_lt : d.busyRemaining < n

/-- Polling ends with a clear busy bit, unless a fault, a stuck bit or a long
command gets in the way. -/
theorem poll_outcome (n : Nat) (s : Table.State (Device t.geometry)) :
    (∃ s', t.poll n s = .ok () s' ∧ s'.bus.Agrees s.bus ∧
        (s.bus.Ready limit → s'.bus.Ready limit)) ∨
      ∃ e s', t.poll n s = .error e s' ∧ Fails s e s' ∧ ¬Settles s.bus n := by
  -- One poll more sees the end of a busy time that is one poll longer.
  induction n generalizing s with
  | zero =>
      refine Or.inr ⟨_, _, rfl, ⟨rfl, Device.Agrees.refl s.bus⟩, ?_⟩
      rintro ⟨-, -, hlt⟩
      exact Nat.not_lt_zero _ hlt
  | succ n ih =>
      rw [poll_succ]
      by_cases hdue : s.bus.FaultDue
      · rw [if_pos hdue]
        refine Or.inr ⟨_, _, rfl, ⟨rfl, s.bus.faulted_agrees⟩, fun h => ?_⟩
        exact absurd (h.noFault.symm.trans hdue) nofun
      · rw [if_neg hdue]
        have hready : s.bus.Ready limit → s.bus.polled.Ready limit :=
          fun h => h.of_eq rfl rfl rfl (Nat.sub_le _ _)
        cases hbusy : s.bus.busyBit with
        | false => exact Or.inl ⟨_, rfl, s.bus.polled_agrees, hready⟩
        | true =>
            rw [if_pos rfl]
            rcases ih { s with bus := s.bus.polled } with
              ⟨s', hpoll, hagrees, hready'⟩ | ⟨e, s', hpoll, hfails, hlong⟩
            · exact Or.inl ⟨s', hpoll, hagrees.trans s.bus.polled_agrees,
                fun h => hready' (hready h)⟩
            · refine Or.inr ⟨e, s', hpoll, ⟨hfails.1, hfails.2.trans s.bus.polled_agrees⟩, ?_⟩
              intro h
              refine hlong ⟨h.noFault, h.notStuck, ?_⟩
              have hpos : 0 < s.bus.busyRemaining := by
                simpa [Device.busyBit, h.notStuck] using hbusy
              have hlt := h.remaining_lt
              change s.bus.busyRemaining - 1 < n
              omega

theorem waitReady_ends : Ends t.pollLimit t.waitReady s (fun _ s' => s'.bus.Agrees s.bus)
    (Fails s) := by
  unfold Ends waitReady
  rcases poll_outcome t.pollLimit s with
    ⟨s', hpoll, hagrees, hready⟩ | ⟨e, s', hpoll, hfails, hlong⟩
  · rw [hpoll]
    exact ⟨hready, hagrees⟩
  · rw [hpoll]
    exact ⟨fun h => absurd ⟨h.noFault, h.notStuck, h.remaining_lt⟩ hlong, hfails⟩

/-! ## Commands -/

theorem enter_ends (phase : Phase) :
    Ends limit (Session.enter phase) s (fun _ s' => s'.bus = s.bus) (fun _ _ => False) :=
  ⟨id, rfl⟩

theorem count_ends (f : Stats → Stats) :
    Ends limit (Session.count f) s (fun _ s' => s'.bus = s.bus) (fun _ _ => False) :=
  ⟨id, rfl⟩

/-- A failure of the hardware before or after the command has been executed. -/
def Interrupts (c : Command) (s : Table.State (Device t.geometry)) (e : Error)
    (s' : Table.State (Device t.geometry)) : Prop :=
  e.isRetryable = true ∧ (s'.bus.Agrees s.bus ∨ s'.bus.Agrees (s.bus.perform c))

theorem issue_ends {c : Command} (h : s.bus.Runs c) :
    Ends t.pollLimit (t.issue c) s (fun _ s' => s'.bus.Agrees (s.bus.perform c))
      (Interrupts c s) := by
  unfold issue
  refine (enter_ends .awaitingBusy).bind (fun _ _ => False.elim) fun _ s₁ h₁ => ?_
  -- What fails up to the write of the word leaves the command out.
  refine waitReady_ends.bind ?_ fun _ s₂ h₂ => ?_
  · rintro e s' ⟨he, hagrees⟩
    exact ⟨he, Or.inl (h₁ ▸ hagrees)⟩
  have hagrees : s₂.bus.Agrees s.bus := h₁ ▸ h₂
  refine (writeOperation_ends (hagrees.runs h)).bind ?_ fun _ s₃ h₃ => ?_
  · rintro e s' ⟨he, hfailed⟩
    exact ⟨he, Or.inl (hfailed.trans hagrees)⟩
  have hdone : s₃.bus.Agrees (s.bus.perform c) := h₃.trans (hagrees.perform c)
  refine (enter_ends .commandIssued).bind (fun _ _ => False.elim) fun _ s₄ h₄ => ?_
  refine waitReady_ends.mono ?_ ?_
  · exact fun _ s' hs' => hs'.trans (h₄ ▸ hdone)
  · rintro e s' ⟨he, hfailed⟩
    exact ⟨he, Or.inr (hfailed.trans (h₄ ▸ hdone))⟩

/-- A command that breaks off has been executed completely or not at all. -/
theorem command_ends {opcode : Opcode} {page : Page} {index : SlotIndex}
    (h : s.bus.Runs ⟨opcode, page, index⟩) :
    Ends t.pollLimit (t.command opcode page index) s
      (fun _ s' => s'.bus.Agrees (s.bus.perform ⟨opcode, page, index⟩))
      (Interrupts ⟨opcode, page, index⟩ s) := by
  have hissue := issue_ends h
  unfold Ends at hissue ⊢
  unfold command
  cases hrun : t.issue ⟨opcode, page, index⟩ s with
  | ok u s' =>
      rw [hrun] at hissue
      exact hissue
  | error e s' =>
      rw [hrun] at hissue
      exact hissue

theorem onBus_bind {σ α β : Type} (x : EStateM RegError σ α) (f : α → EStateM RegError σ β) :
    onBus (x >>= f) = onBus x >>= fun a => onBus (f a) := by
  funext s
  change onBus (EStateM.bind x f) s = EStateM.bind (onBus x) (fun a => onBus (f a)) s
  cases hx : x s.bus with
  | ok a d => simp only [onBus, EStateM.bind, hx]
  | error r d => simp only [onBus, EStateM.bind, hx]

/-- Selecting the sub-block takes two accesses, and each of them may be hit. -/
theorem selectActionSubBlock_eq (s : Table.State (Device t.geometry)) :
    t.selectActionSubBlock s =
      if s.bus.FaultDue then
        .error (.transport (.access t.block extensionRegister .injected)) { s with
          bus := s.bus.faulted
          stats := { s.stats with transportErrors := s.stats.transportErrors + 1 } }
      else if s.bus.counted.FaultDue then
        .error (.transport (.access t.block extensionRegister .injected)) { s with
          bus := s.bus.counted.faulted
          stats := { s.stats with transportErrors := s.stats.transportErrors + 1 } }
      else .ok () { s with
        bus := { s.bus.counted.counted with
          extension := subBlockField.set s.bus.extension actionSubBlock } } := by
  unfold selectActionSubBlock RegisterBus.writeField
  rw [onBus_bind]
  change EStateM.bind (onBus (RegisterBus.readRegister t.geometry.blockAddr extensionRegister))
    (fun word => onBus (RegisterBus.writeRegister t.geometry.blockAddr extensionRegister
      (subBlockField.set word actionSubBlock))) s = _
  unfold EStateM.bind onBus
  rw [Device.readRegister_eq]
  by_cases hdue : s.bus.FaultDue
  · rw [if_pos hdue, if_pos hdue]
    rfl
  · rw [if_neg hdue, if_neg hdue, Device.fetch_extensionRegister]
    simp only [Device.writeRegister_eq]
    by_cases hnext : s.bus.counted.FaultDue
    · rw [if_pos hnext, if_pos hnext]
      rfl
    · rw [if_neg hnext, if_neg hnext, Device.store_extensionRegister]
      rfl

/-- Selecting the sub-block of the action page keeps the other bits of its register. -/
theorem selectActionSubBlock_ends :
    Ends limit t.selectActionSubBlock s
      (fun _ s' => s'.bus.Agrees
        { s.bus with extension := subBlockField.set s.bus.extension actionSubBlock })
      (Fails s) := by
  unfold selectActionSubBlock RegisterBus.writeField
  rw [onBus_bind]
  have hread : Ends limit (t.readRegister extensionRegister) s
      (fun w s' => w = s.bus.extension ∧ s'.bus = s.bus.counted) (Fails s) := by
    refine readRegister_ends s.bus.counted.fetch_extensionRegister ?_
    exact fun h => h.of_eq rfl rfl rfl (Nat.le_refl _)
  refine hread.bind (fun _ _ he => he) ?_
  rintro _ s₁ ⟨rfl, h₁⟩
  refine (writeRegister_ends (Device.store_extensionRegister _ s₁.bus.counted) ?_).mono ?_ ?_
  · exact fun h => h.of_eq rfl rfl rfl (Nat.le_refl _)
  · intro _ s' hs'
    rw [hs', h₁]
    exact ⟨rfl, rfl, rfl, rfl, rfl⟩
  · rintro e s' ⟨he, hagrees⟩
    rw [h₁] at hagrees
    exact ⟨he, hagrees.trans s.bus.counted_agrees⟩

/-! ## Pages -/

/-- The state differs in its data registers at most. -/
def SameButData (s s' : Table.State (Device t.geometry)) : Prop :=
  ∃ data, s'.bus.Agrees { s.bus with data := data }

/-- Writing a page fills the lowest data registers with it. -/
theorem writePage_ends {n : Nat} (hn : n ≤ dataRegisters) (page : Registers n) :
    Ends limit (t.writePage page) s
      (fun _ s' => ∃ data, s'.bus.Agrees { s.bus with data := data } ∧
        data.setWidth (16 * n) = page)
      (fun e s' => e.isRetryable = true ∧ SameButData s s') := by
  unfold writePage
  -- Before the turn of register `i` the registers below it hold the page.
  refine (Ends.forM_range
    (I := fun i s' => ∃ data, s'.bus.Agrees { s.bus with data := data } ∧
      ∀ j < 16 * i, data.getLsbD j = page.getLsbD j) ?_ ?_).mono ?_ (fun _ _ he => he)
  · rintro i hi s₁ ⟨data, hagrees, hwritten⟩
    refine (writeData_ends (Nat.lt_of_lt_of_le hi hn) (page.get i)).mono ?_ ?_
    · intro _ s' hs'
      refine ⟨data.set i (page.get i), ?_, ?_⟩
      · refine hs'.trans ⟨hagrees.slots, hagrees.operation, hagrees.extension, ?_,
          hagrees.history⟩
        exact congrArg (fun r => r.set i (page.get i)) hagrees.data
      · intro j hj
        rw [Registers.getLsbD_set]
        by_cases hin : 16 * i ≤ j
        · have hi' := Nat.lt_of_lt_of_le hi hn
          rw [if_pos (by omega), Registers.getLsbD_get page i (j - 16 * i) (by omega),
            Nat.add_sub_cancel' hin]
        · rw [if_neg (fun h => hin h.2.1)]
          exact hwritten j (by omega)
    · rintro e s' ⟨he, hfailed⟩
      exact ⟨he, data, hfailed.trans hagrees⟩
  · exact ⟨s.bus.data, Device.Agrees.refl s.bus, fun j hj => absurd hj (Nat.not_lt_zero j)⟩
  · rintro _ s' ⟨data, hagrees, hwritten⟩
    refine ⟨data, hagrees, ?_⟩
    apply BitVec.eq_of_getLsbD_eq
    intro j hj
    rw [BitVec.getLsbD_setWidth, hwritten j hj]
    simp [hj]

/-- Reading a page gives the lowest data registers. -/
theorem readPage_ends {n : Nat} (hn : n ≤ dataRegisters) :
    Ends limit (t.readPage n) s
      (fun page s' => page = s.bus.data.setWidth (16 * n) ∧ s'.bus.Agrees s.bus) (Fails s) := by
  unfold readPage
  -- Before the turn of register `i` the page holds the registers below it.
  refine (Ends.foldlM_range
    (I := fun i page s' => s'.bus.Agrees s.bus ∧
      ∀ j < 16 * i, page.getLsbD j = s.bus.data.getLsbD j) ?_ ?_).mono ?_ (fun _ _ he => he)
  · rintro i hi page s₁ ⟨hagrees, hread⟩
    refine (readData_ends (Nat.lt_of_lt_of_le hi hn)).bind ?_ ?_
    · rintro e s' ⟨he, hfailed⟩
      exact ⟨he, hfailed.trans hagrees⟩
    · rintro w s₂ ⟨hw, h₂⟩
      refine Ends.pure ⟨h₂.trans hagrees, fun j hj => ?_⟩
      rw [Registers.getLsbD_set]
      by_cases hin : 16 * i ≤ j
      · rw [if_pos (by omega), hw, Registers.getLsbD_get _ i (j - 16 * i) (by omega),
          Nat.add_sub_cancel' hin, hagrees.data]
      · rw [if_neg (fun h => hin h.2.1)]
        exact hread j (by omega)
  · exact ⟨Device.Agrees.refl s.bus, fun j hj => absurd hj (Nat.not_lt_zero j)⟩
  · rintro page s' ⟨hagrees, hread⟩
    refine ⟨?_, hagrees⟩
    apply BitVec.eq_of_getLsbD_eq
    intro j hj
    rw [BitVec.getLsbD_setWidth, hread j hj]
    simp [hj]

end Table

end Tcam
