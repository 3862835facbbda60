import Mathlib.Logic.Relation
import Tcam.Proofs.Table.Trace

/-!
# What accesses can do to a device

`Device.Accessed` lists what the smallest parts of a session can do to a device.
Every session leaves a device that such steps lead to (`reaches_of_steps`), so what
each of them keeps, all operations keep: the bits of the extension register that do
not select the sub-block, and how soon the busy bit clears.
-/

namespace Tcam

namespace Device

variable {g : Geometry} {d d' : Device g} {limit : Nat}

/-- One access to the device, or the two that select a sub-block. -/
inductive Accessed (d : Device g) : Device g → Prop
  | faulted : Accessed d d.faulted
  | counted : Accessed d d.counted
  | polled : Accessed d d.polled
  | operation (word : Word) : Accessed d { d.counted with operation := word }
  | data (data : Registers dataRegisters) : Accessed d { d.counted with data := data }
  | perform (c : Command) : Accessed d (d.counted.perform c)
  | selected : Accessed d { d.counted.counted with
      extension := subBlockField.set d.extension actionSubBlock }

/-- Any number of accesses. -/
abbrev Reaches : Device g → Device g → Prop :=
  Relation.ReflTransGen Accessed

theorem accessed_fetch (offset : RegOffset) (d : Device g) :
    d.Accessed (endState (fetch offset d.counted)) := by
  rcases fetch_kinds offset with h | h | ⟨i, -, h⟩ | h
  · rw [h]
    exact .polled
  · rw [h]
    exact .counted
  · rw [h]
    exact .counted
  · rw [h]
    exact .counted

theorem accessed_store {offset : RegOffset} (hextension : offset ≠ extensionRegister)
    (value : Word) (d : Device g) : d.Accessed (endState (store offset value d.counted)) := by
  by_cases hstarts : Starts offset value
  · cases hcommand : commandOf value d.counted with
    | error fault =>
        rw [store_of_fault hstarts hcommand]
        exact .counted
    | ok c =>
        rw [store_of_command hstarts hcommand]
        exact .perform c
  · rcases store_kinds hstarts with h | ⟨hoffset, -⟩ | ⟨i, -, h⟩ | h
    · rw [h]
      exact .operation value
    · exact absurd hoffset hextension
    · rw [h]
      exact .data _
    · rw [h]
      exact .counted

/-- The bits above the sub-block are not touched. -/
theorem Accessed.extension (h : d.Accessed d') :
    d'.extension.extractLsb 15 4 = d.extension.extractLsb 15 4 := by
  cases h with
  | perform c =>
      rw [perform_eq]
      rfl
  | selected =>
      have hset (w : Word) :
          (subBlockField.set w actionSubBlock).extractLsb 15 4 = w.extractLsb 15 4 := by
        apply BitVec.eq_of_getLsbD_eq
        intro i _
        -- The field ends below bit four.
        have houtside : ¬(4 + i < 16 ∧ subBlockField.offset ≤ 4 + i ∧
            4 + i < subBlockField.offset + subBlockField.width) := by
          simp only [subBlockField]
          omega
        rw [BitVec.getLsbD_extractLsb, BitVec.getLsbD_extractLsb, BitField.getLsbD_set,
          if_neg houtside]
      exact hset d.extension
  | _ => rfl

theorem Reaches.extension (h : d.Reaches d') :
    d'.extension.extractLsb 15 4 = d.extension.extractLsb 15 4 := by
  induction h with
  | refl => rfl
  | tail _ hstep ih => exact hstep.extension.trans ih

/-- The busy bit clears within `limit` polls, now and after every command. -/
structure Prompt (d : Device g) (limit : Nat) : Prop where
  notStuck : d.stuckBusy = false
  delay_lt : d.busyDelay < limit
  remaining_lt : d.busyRemaining < limit

theorem Prompt.ready (h : d.Prompt limit) (hfault : d.failAt = none) : d.Ready limit :=
  ⟨hfault, h.notStuck, h.delay_lt, h.remaining_lt⟩

theorem Accessed.prompt (h : d.Accessed d') (hd : d.Prompt limit) : d'.Prompt limit := by
  cases h with
  | perform c =>
      rw [perform_eq]
      exact ⟨hd.notStuck, hd.delay_lt, hd.delay_lt⟩
  | polled => exact ⟨hd.notStuck, hd.delay_lt, Nat.lt_of_le_of_lt (Nat.sub_le _ _) hd.remaining_lt⟩
  | _ => exact ⟨hd.notStuck, hd.delay_lt, hd.remaining_lt⟩

theorem Reaches.prompt (h : d.Reaches d') (hd : d.Prompt limit) : d'.Prompt limit := by
  induction h with
  | refl => exact hd
  | tail _ hstep ih => exact hstep.prompt ih

end Device

namespace Table

open Session (onBus)

variable {t : Table} {α : Type}

theorem reaches_onBus {access x : EStateM RegError (Device t.geometry) α} {r : RegError}
    (h : ∀ d : Device t.geometry, access d = if d.FaultDue then .error r d.faulted else x d.counted)
    (hx : ∀ d : Device t.geometry, d.Accessed (endState (x d.counted)))
    (s : State (Device t.geometry)) : s.bus.Reaches (endState (onBus access s)).bus := by
  refine .single ?_
  unfold onBus
  rw [h]
  by_cases hdue : s.bus.FaultDue
  · rw [if_pos hdue]
    exact .faulted
  · rw [if_neg hdue]
    have hstep := hx s.bus
    cases hrun : x s.bus.counted with
    | ok a d =>
        rw [hrun] at hstep
        exact hstep
    | error e d =>
        rw [hrun] at hstep
        exact hstep

theorem reaches_select (s : State (Device t.geometry)) :
    s.bus.Reaches (endState (t.selectActionSubBlock s)).bus := by
  rw [selectActionSubBlock_eq]
  by_cases hdue : s.bus.FaultDue
  · rw [if_pos hdue]
    exact .single .faulted
  rw [if_neg hdue]
  by_cases hnext : s.bus.counted.FaultDue
  · rw [if_pos hnext]
    exact .tail (.single .counted) .faulted
  · rw [if_neg hnext]
    exact .single .selected

/-- Every session of single steps leaves a device that accesses lead to. -/
theorem reaches_of_steps {m : Script α} (h : Composed t.Step m) (s : State (Device t.geometry)) :
    s.bus.Reaches (endState (m (Device t.geometry) s)).bus := by
  induction h generalizing s with
  | part h =>
      cases h with
      | read offset =>
          exact reaches_onBus (t := t) (fun d => d.readRegister_eq offset)
            (Device.accessed_fetch offset) s
      | write offset value hoffset =>
          exact reaches_onBus (t := t) (fun d => d.writeRegister_eq offset value)
            (Device.accessed_store hoffset value) s
      | select => exact reaches_select s
      | count f _ => exact .refl
      | enter phase => exact .refl
      | throw e _ => exact .refl
  | pure a => exact .refl
  | @bind _ _ m f _ _ ihm ihf =>
      have hm := ihm s
      change s.bus.Reaches (endState (EStateM.bind (m _) (fun a => f a _) s)).bus
      unfold EStateM.bind
      cases hrun : m (Device t.geometry) s with
      | ok a s₁ =>
          rw [hrun] at hm
          exact hm.trans (ihf a s₁)
      | error e s₁ =>
          rw [hrun] at hm
          exact hm
  | @catchMiss _ m onMiss _ _ ihm ihmiss =>
      have hm := ihm s
      change s.bus.Reaches (endState (EStateM.tryCatch (m _) _ s)).bus
      unfold EStateM.tryCatch
      cases hrun : m (Device t.geometry) s with
      | ok a s₁ =>
          rw [hrun] at hm
          exact hm
      | error e s₁ =>
          rw [hrun] at hm
          cases e with
          | notFound i => exact hm.trans (ihmiss s₁)
          | _ => exact hm
  | settled _ ih =>
      simp only [Session.settled_eq, endState_mapState]
      exact ih s

end Table

end Tcam
