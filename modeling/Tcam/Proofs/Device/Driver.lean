import Tcam.Proofs.Device.Bounds
import Tcam.Proofs.Table.Composition

/-!
# Blocks in the hands of any driver

A driver may read and write any register of any block, whole or by fields, with any
values, and it may make the block slow, stuck or faulty.  Whatever the geometry and
whatever the calls, the block never uses an index that is out of bounds, never runs a
command outside the rules, and changes nothing on a refusal (`fresh_withstands`).
-/

namespace Tcam

/-- A call of a driver.  Only the first four access registers; their fields may lie
anywhere, and their values need not fit. -/
inductive DriverCall where
  | readRegister (block : BlockAddr) (offset : RegOffset)
  | writeRegister (block : BlockAddr) (offset : RegOffset) (value : Word)
  | readField (block : BlockAddr) (offset : RegOffset) (field : BitField)
  | writeField (block : BlockAddr) (offset : RegOffset) (field : BitField) (value : Word)
  | setBusyDelay (polls : Nat)
  | setStuckBusy (stuck : Bool)
  | failNthAccess (n : Nat)
  | clearHistory
  deriving DecidableEq, Repr

namespace Device

variable {g : Geometry} {d d' : Device g} {α : Type}

/-! ## Refusals -/

/-- Slots, registers, busy countdown and history are as they were. -/
structure Kept (d' d : Device g) : Prop extends d'.Agrees d where
  busyRemaining : d'.busyRemaining = d.busyRemaining

theorem kept_counted (d : Device g) : d.counted.Kept d :=
  ⟨d.counted_agrees, rfl⟩

theorem kept_faulted (d : Device g) : d.faulted.Kept d :=
  ⟨d.faulted_agrees, rfl⟩

/-- An access is refused and changes nothing, or it does what it is meant to do. -/
theorem granted_cases (block : BlockAddr) (offset : RegOffset)
    (access : EStateM RegError (Device g) α) (d : Device g) :
    (∃ e d', (do
      checkBlock block offset
      grant offset
      access : EStateM RegError (Device g) α) d = .error e d' ∧ d'.Kept d) ∨
    block = g.blockAddr ∧ (do
      checkBlock block offset
      grant offset
      access : EStateM RegError (Device g) α) d = access d.counted := by
  by_cases hblock : block = g.blockAddr
  · rw [hblock, granted_eq]
    by_cases hdue : d.FaultDue
    · rw [if_pos hdue]
      exact Or.inl ⟨_, _, rfl, d.kept_faulted⟩
    · rw [if_neg hdue]
      exact Or.inr ⟨rfl, rfl⟩
  · -- An access to another block does not even count.
    have hrefused : checkBlock block offset d = .error (.noSuchRegister block offset) d :=
      if_neg hblock
    exact Or.inl ⟨_, d, bind_of_error hrefused, Agrees.refl d, rfl⟩

/-- A granted read is refused and changes nothing, or it leaves the history. -/
theorem fetch_cases (offset : RegOffset) (d : Device g) :
    (∃ e, fetch offset d = .error e d) ∨
      ∃ word d', fetch offset d = .ok word d' ∧ d'.history = d.history := by
  rcases fetch_kinds offset with h | h | ⟨i, -, h⟩ | h
  · exact Or.inr ⟨_, _, h d, rfl⟩
  · exact Or.inr ⟨_, _, h d, rfl⟩
  · exact Or.inr ⟨_, _, h d, rfl⟩
  · exact Or.inl ⟨_, h d⟩

theorem store_of_lawful {offset : RegOffset} {value : Word} {c : Command}
    (hstarts : Starts offset value) (hlawful : d.Lawful value c) :
    store offset value d = .ok () (d.perform c) :=
  store_of_command hstarts (commandOf_eq_ok_iff.mpr hlawful)

/-- A granted write is refused and changes nothing, or it leaves the history, or it runs a
command within the rules. -/
theorem store_cases (offset : RegOffset) (value : Word) (d : Device g) :
    (∃ e, store offset value d = .error e d) ∨
      (¬Starts offset value ∧ ∃ d', store offset value d = .ok () d' ∧ d'.history = d.history) ∨
      (Starts offset value ∧
        ∃ c, d.Lawful value c ∧ store offset value d = .ok () (d.perform c)) := by
  by_cases hstarts : Starts offset value
  · cases hcommand : commandOf value d with
    | error fault => exact Or.inl ⟨_, store_of_fault hstarts hcommand⟩
    | ok c =>
        have hlawful : d.Lawful value c := commandOf_eq_ok_iff.mp hcommand
        exact Or.inr (Or.inr ⟨hstarts, c, hlawful, store_of_lawful hstarts hlawful⟩)
  · rcases store_kinds hstarts with h | ⟨-, h⟩ | ⟨i, -, h⟩ | h
    · exact Or.inr (Or.inl ⟨hstarts, _, h d, rfl⟩)
    · exact Or.inr (Or.inl ⟨hstarts, _, h d, rfl⟩)
    · exact Or.inr (Or.inl ⟨hstarts, _, h d, rfl⟩)
    · exact Or.inl ⟨_, h d⟩

/-- The rules look at the extension register only. -/
theorem Lawful.congr {word : Word} {c : Command} (h : d.Lawful word c)
    (hextension : d'.extension = d.extension) : d'.Lawful word c :=
  ⟨h.opcode, h.page, h.index, h.inTable, hextension ▸ h.subBlock⟩

/-! ## Register accesses -/

theorem readRegister_cases (block : BlockAddr) (offset : RegOffset) (d : Device g) :
    (∃ e d', RegisterBus.readRegister block offset d = .error e d' ∧ d'.Kept d) ∨
      ∃ word d', RegisterBus.readRegister block offset d = .ok word d' ∧
        d'.history = d.history := by
  rcases granted_cases block offset (fetch offset) d with hrefused | ⟨-, hgranted⟩
  · exact Or.inl hrefused
  rcases fetch_cases offset d.counted with ⟨e, hfetch⟩ | ⟨word, d', hfetch, hhistory⟩
  · exact Or.inl ⟨e, _, hgranted.trans hfetch, d.kept_counted⟩
  · exact Or.inr ⟨word, d', hgranted.trans hfetch, hhistory⟩

theorem writeRegister_cases (block : BlockAddr) (offset : RegOffset) (value : Word)
    (d : Device g) :
    (∃ e d', RegisterBus.writeRegister block offset value d = .error e d' ∧ d'.Kept d) ∨
      (¬Starts offset value ∧ ∃ d', RegisterBus.writeRegister block offset value d = .ok () d' ∧
        d'.history = d.history) ∨
      (block = g.blockAddr ∧ Starts offset value ∧ ∃ c, d.Lawful value c ∧
        RegisterBus.writeRegister block offset value d = .ok () (d.counted.perform c)) := by
  rcases granted_cases block offset (store offset value) d with hrefused | ⟨hblock, hgranted⟩
  · exact Or.inl hrefused
  rcases store_cases offset value d.counted with
    ⟨e, hstore⟩ | ⟨hidle, d', hstore, hhistory⟩ | ⟨hstarts, c, hlawful, hstore⟩
  · exact Or.inl ⟨e, _, hgranted.trans hstore, d.kept_counted⟩
  · exact Or.inr (Or.inl ⟨hidle, d', hgranted.trans hstore, hhistory⟩)
  · exact Or.inr (Or.inr ⟨hblock, hstarts, c, hlawful.congr rfl, hgranted.trans hstore⟩)

theorem writeRegister_of_lawful {block : BlockAddr} {offset : RegOffset} {value : Word}
    {c : Command} (hblock : block = g.blockAddr) (hstarts : Starts offset value)
    (hlawful : d.Lawful value c) (hdue : ¬d.FaultDue) :
    RegisterBus.writeRegister block offset value d = .ok () (d.counted.perform c) := by
  rw [hblock, writeRegister_eq, if_neg hdue]
  exact store_of_lawful hstarts (hlawful.congr rfl)

end Device

namespace DriverCall

open Device

variable {g : Geometry}

/-- Makes the call, and answers with the number that it reads, if it reads one. -/
def run : DriverCall → EStateM RegError (Device g) (Option Word)
  | readRegister block offset => do
    return some (← RegisterBus.readRegister block offset)
  | writeRegister block offset value => do
    RegisterBus.writeRegister block offset value
    return none
  | readField block offset field => do
    return some (← RegisterBus.readField block offset field)
  | writeField block offset field value => do
    RegisterBus.writeField block offset field value
    return none
  | setBusyDelay polls => fun d => .ok none (d.setBusyDelay polls)
  | setStuckBusy stuck => fun d => .ok none (d.setStuckBusy stuck)
  | failNthAccess n => fun d => .ok none (d.failNthAccess n)
  | clearHistory => fun d => .ok none d.clearHistory

/-- Makes the call with every index checked. -/
def run? (call : DriverCall) (d : Device g) : Checked g (Option Word) :=
  match call with
  | readRegister block offset =>
    (readRegister? block offset d).andThen fun word d => some (.ok (some word) d)
  | writeRegister block offset value =>
    (writeRegister? block offset value d).andThen fun _ d => some (.ok none d)
  | readField block offset field =>
    (readField? block offset field d).andThen fun word d => some (.ok (some word) d)
  | writeField block offset field value =>
    (writeField? block offset field value d).andThen fun _ d => some (.ok none d)
  | setBusyDelay polls => some (.ok none (d.setBusyDelay polls))
  | setStuckBusy stuck => some (.ok none (d.setStuckBusy stuck))
  | failNthAccess n => some (.ok none (d.failNthAccess n))
  | clearHistory => some (.ok none d.clearHistory)

theorem run?_eq (call : DriverCall) (d : Device g) : call.run? d = some (call.run d) := by
  cases call with
  | readRegister block offset =>
      exact Checked.andThen_eq (readRegister?_eq block offset d) fun _ _ => rfl
  | writeRegister block offset value =>
      exact Checked.andThen_eq (writeRegister?_eq block offset value d) fun _ _ => rfl
  | readField block offset field =>
      exact Checked.andThen_eq (readField?_eq block offset field d) fun _ _ => rfl
  | writeField block offset field value =>
      exact Checked.andThen_eq (writeField?_eq block offset field value d) fun _ _ => rfl
  | setBusyDelay polls => rfl
  | setStuckBusy stuck => rfl
  | failNthAccess n => rfl
  | clearHistory => rfl

/-! ## What a call can come to -/

/-- The block right before the last register access of the call. -/
def atLastAccess (call : DriverCall) (d : Device g) : Device g :=
  match call with
  | writeField block offset _ _ =>
    match RegisterBus.readRegister block offset d with
    | .ok _ d₁ => d₁
    | .error _ _ => d
  | _ => d

/-- The word with which the call asks the block for a command, if it does. -/
def commandWord? (call : DriverCall) (d : Device g) : Option Word :=
  let asked (block : BlockAddr) (offset : RegOffset) (value : Word) :=
    if block = g.blockAddr ∧ Starts offset value then some value else none
  match call with
  | writeRegister block offset value => asked block offset value
  | writeField block offset field value =>
    match RegisterBus.readRegister block offset d with
    | .ok word _ => asked block offset (field.set word value)
    | .error _ _ => none
  | _ => none

section WriteField

variable {block : BlockAddr} {offset : RegOffset} {word : Word} {d d₁ : Device g}

theorem atLastAccess_writeField (field : BitField) (value : Word)
    (hread : RegisterBus.readRegister block offset d = .ok word d₁) :
    (writeField block offset field value).atLastAccess d = d₁ := by
  simp only [atLastAccess, hread]

/-- After its first half, a field write is a write of the whole register. -/
theorem writeField_eq (field : BitField) (value : Word)
    (hread : RegisterBus.readRegister block offset d = .ok word d₁) :
    RegisterBus.writeField block offset field value d =
      RegisterBus.writeRegister block offset (field.set word value) d₁ :=
  bind_of_ok hread

end WriteField

/-- A call is refused, or it runs no command, or it runs one within the rules. -/
inductive Outcome (call : DriverCall) (d : Device g) : Prop
  | refused (e : RegError) (d' : Device g) (hrun : call.run d = .error e d')
      (hkept : d'.Kept (call.atLastAccess d))
  | idle (answer : Option Word) (d' : Device g) (hrun : call.run d = .ok answer d')
      (hword : call.commandWord? d = none)
      (hhistory : d'.history = d.history ∨ call = .clearHistory ∧ d'.history = [])
  | command (word : Word) (c : Command) (hword : call.commandWord? d = some word)
      (hlawful : (call.atLastAccess d).Lawful word c)
      (hrun : call.run d = .ok none ((call.atLastAccess d).counted.perform c))

theorem outcome (call : DriverCall) (d : Device g) : call.Outcome d := by
  cases call with
  | readRegister block offset =>
      rcases readRegister_cases block offset d with
        ⟨e, d', hread, hkept⟩ | ⟨word, d', hread, hhistory⟩
      · exact .refused e d' (bind_of_error hread) hkept
      · exact .idle (some word) d' (bind_of_ok hread) rfl (Or.inl hhistory)
  | writeRegister block offset value =>
      rcases writeRegister_cases block offset value d with
        ⟨e, d', hwrite, hkept⟩ | ⟨hidle, d', hwrite, hhistory⟩ |
          ⟨hblock, hstarts, c, hlawful, hwrite⟩
      · exact .refused e d' (bind_of_error hwrite) hkept
      · exact .idle none d' (bind_of_ok hwrite) (if_neg fun h => hidle h.2) (Or.inl hhistory)
      · exact .command value c (if_pos ⟨hblock, hstarts⟩) hlawful (bind_of_ok hwrite)
  | readField block offset field =>
      rcases readRegister_cases block offset d with
        ⟨e, d', hread, hkept⟩ | ⟨word, d', hread, hhistory⟩
      · exact .refused e d' (bind_of_error (bind_of_error hread)) hkept
      · have hfield : RegisterBus.readField block offset field d = .ok (field.get word) d' :=
          bind_of_ok hread
        exact .idle (some (field.get word)) d' (bind_of_ok hfield) rfl (Or.inl hhistory)
  | writeField block offset field value =>
      rcases readRegister_cases block offset d with
        ⟨e, d', hread, hkept⟩ | ⟨word, d₁, hread, hhistory₁⟩
      · have hlast : (writeField block offset field value).atLastAccess d = d := by
          simp only [atLastAccess, hread]
        exact .refused e d' (bind_of_error (bind_of_error hread)) (hlast.symm ▸ hkept)
      have hlast : (writeField block offset field value).atLastAccess d = d₁ :=
        atLastAccess_writeField field value hread
      have hfield := writeField_eq field value hread
      rcases writeRegister_cases block offset (field.set word value) d₁ with
        ⟨e, d', hwrite, hkept⟩ | ⟨hidle, d', hwrite, hhistory⟩ |
          ⟨hblock, hstarts, c, hlawful, hwrite⟩
      · exact .refused e d' (bind_of_error (hfield.trans hwrite)) (hlast.symm ▸ hkept)
      · refine .idle none d' (bind_of_ok (hfield.trans hwrite)) ?_
          (Or.inl (hhistory.trans hhistory₁))
        simp only [commandWord?, hread]
        exact if_neg fun h => hidle h.2
      · refine .command (field.set word value) c ?_ (hlast.symm ▸ hlawful) ?_
        · simp only [commandWord?, hread]
          exact if_pos ⟨hblock, hstarts⟩
        · rw [hlast]
          exact bind_of_ok (hfield.trans hwrite)
  | setBusyDelay polls => exact .idle none _ rfl rfl (Or.inl rfl)
  | setStuckBusy stuck => exact .idle none _ rfl rfl (Or.inl rfl)
  | failNthAccess n => exact .idle none _ rfl rfl (Or.inl rfl)
  | clearHistory => exact .idle none _ rfl rfl (Or.inr ⟨rfl, rfl⟩)

theorem history_atLastAccess (call : DriverCall) (d : Device g) :
    (call.atLastAccess d).history = d.history := by
  cases call with
  | writeField block offset field value =>
      unfold atLastAccess
      rcases readRegister_cases block offset d with
        ⟨e, d', hread, -⟩ | ⟨word, d₁, hread, hhistory⟩
      · simp only [hread]
      · simp only [hread]
        exact hhistory
  | _ => rfl

/-- A command within the rules runs unless the injected fault is due. -/
theorem run_of_lawful {call : DriverCall} {d : Device g} {word : Word} {c : Command}
    (hword : call.commandWord? d = some word) (hlawful : (call.atLastAccess d).Lawful word c)
    (hdue : ¬(call.atLastAccess d).FaultDue) :
    call.run d = .ok none ((call.atLastAccess d).counted.perform c) := by
  cases call with
  | writeRegister block offset value =>
      obtain ⟨⟨hblock, hstarts⟩, hvalue⟩ := Option.ite_none_right_eq_some.mp hword
      obtain rfl := Option.some.inj hvalue
      exact bind_of_ok (writeRegister_of_lawful hblock hstarts hlawful hdue)
  | writeField block offset field value =>
      cases hread : RegisterBus.readRegister block offset d with
      | error e d' =>
          simp only [commandWord?, hread] at hword
          cases hword
      | ok old d₁ =>
          simp only [commandWord?, hread] at hword
          obtain ⟨⟨hblock, hstarts⟩, hvalue⟩ := Option.ite_none_right_eq_some.mp hword
          obtain rfl := Option.some.inj hvalue
          rw [atLastAccess_writeField field value hread] at hlawful hdue ⊢
          have hwrite := writeRegister_of_lawful hblock hstarts hlawful hdue
          exact bind_of_ok ((writeField_eq field value hread).trans hwrite)
  | _ => cases hword

end DriverCall

namespace Device

variable {g : Geometry}

/-- The block withstands a call of a driver. -/
structure Withstands (d : Device g) (call : DriverCall) : Prop where
  /-- With every index checked the call comes out the same. -/
  inBounds : call.run? d = some (call.run d)
  /-- A command within the rules runs, unless the injected fault hits it. -/
  runs : ∀ word c, call.commandWord? d = some word → (call.atLastAccess d).Lawful word c →
    ¬(call.atLastAccess d).FaultDue →
      call.run d = .ok none ((call.atLastAccess d).counted.perform c)
  /-- A command outside the rules is refused. -/
  refused : ∀ word, call.commandWord? d = some word →
    (∀ c, ¬(call.atLastAccess d).Lawful word c) → ∃ e d', call.run d = .error e d'
  /-- Only a command within the rules enters the history. -/
  history : ∀ answer d', call.run d = .ok answer d' → d'.history = d.history ∨
    (call = .clearHistory ∧ d'.history = []) ∨
    ∃ word c, call.commandWord? d = some word ∧ (call.atLastAccess d).Lawful word c ∧
      d'.history = c :: d.history
  /-- A refused access changes nothing. -/
  kept : ∀ e d', call.run d = .error e d' → d'.Kept (call.atLastAccess d)

theorem withstands (d : Device g) (call : DriverCall) : d.Withstands call where
  inBounds := call.run?_eq d
  runs _ _ hword hlawful hdue := DriverCall.run_of_lawful hword hlawful hdue
  refused word hword hunlawful := by
    cases call.outcome d with
    | refused e d' hrun hkept => exact ⟨e, d', hrun⟩
    | idle answer d' hrun hword' hhistory => cases hword'.symm.trans hword
    | command word' c hword' hlawful hrun =>
        obtain rfl := Option.some.inj (hword'.symm.trans hword)
        exact absurd hlawful (hunlawful c)
  history answer d' hrun := by
    cases call.outcome d with
    | refused e d'' hrun' hkept => cases hrun.symm.trans hrun'
    | idle answer' d'' hrun' hword hhistory =>
        obtain ⟨-, rfl⟩ := EStateM.Result.ok.inj (hrun'.symm.trans hrun)
        exact hhistory.imp_right Or.inl
    | command word c hword hlawful hrun' =>
        obtain ⟨-, rfl⟩ := EStateM.Result.ok.inj (hrun'.symm.trans hrun)
        refine Or.inr (Or.inr ⟨word, c, hword, hlawful, ?_⟩)
        rw [perform_eq]
        exact congrArg (c :: ·) (call.history_atLastAccess d)
  kept e d' hrun := by
    cases call.outcome d with
    | refused e' d'' hrun' hkept =>
        obtain ⟨-, rfl⟩ := EStateM.Result.error.inj (hrun'.symm.trans hrun)
        exact hkept
    | idle answer d'' hrun' hword hhistory => cases hrun.symm.trans hrun'
    | command word c hword hlawful hrun' => cases hrun.symm.trans hrun'

/-- The block after a run of calls, whatever they come to. -/
def afterCalls (calls : List DriverCall) (d : Device g) : Device g :=
  calls.foldl (fun d call => endState (call.run d)) d

/-- The block after a run of calls with every index checked. -/
def afterCalls? (calls : List DriverCall) (d : Device g) : Option (Device g) :=
  calls.foldlM (fun d call => (call.run? d).map endState) d

theorem afterCalls?_eq (calls : List DriverCall) (d : Device g) :
    afterCalls? calls d = some (afterCalls calls d) := by
  induction calls generalizing d with
  | nil => rfl
  | cons call calls ih =>
      have hfirst : (call.run? d).map endState = some (endState (call.run d)) := by
        rw [call.run?_eq, Option.map_some]
      rw [afterCalls?, List.foldlM_cons, hfirst]
      exact ih _

theorem isSome_slot?_iff (d : Device g) (slot : SlotIndex) :
    (d.slot? slot).isSome = true ↔ slot ≤ g.maxIndex := by
  rw [Option.isSome_iff_exists]
  constructor
  · rintro ⟨image, himage⟩
    exact le_maxIndex_of_slot? himage
  · exact fun h => d.slot?_eq_some_of_le h

/-- A block of any geometry in the hands of any driver.  No call of a run has an index out
of bounds, the block keeps its slots up to the largest index, and it withstands whatever
call comes next. -/
theorem fresh_withstands (g : Geometry) (calls : List DriverCall) :
    afterCalls? calls (fresh g) = some (afterCalls calls (fresh g)) ∧
      (∀ slot, ((afterCalls calls (fresh g)).slot? slot).isSome = true ↔ slot ≤ g.maxIndex) ∧
      ∀ call, (afterCalls calls (fresh g)).Withstands call :=
  ⟨afterCalls?_eq calls (fresh g), isSome_slot?_iff _, withstands _⟩

end Device

end Tcam
