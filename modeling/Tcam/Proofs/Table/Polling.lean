import Tcam.Proofs.Table.Composition

/-!
# How long a table waits

Without faults a table polls a busy bit until it clears, or until it has polled as often
as it may.  So if the block is busy for too long before a command, the command is not
executed, and if it is busy for too long after it, no other command is.  Everything that
an operation does before its first command leaves the busy bit alone, so the first
command tells how it ends in both cases (`TimesOut`).
-/

namespace Tcam

namespace Device

variable {g : Geometry} {d d₁ d' : Device g} {k : Nat}

/-- Only polls have been made, `k` of them. -/
structure PolledTimes (k : Nat) (d d' : Device g) : Prop where
  agrees : d'.Agrees d
  failAt : d'.failAt = d.failAt
  busyDelay : d'.busyDelay = d.busyDelay
  polls : d'.polls = d.polls + k

theorem PolledTimes.refl (d : Device g) : PolledTimes 0 d d :=
  ⟨.refl d, rfl, rfl, rfl⟩

theorem PolledTimes.of_polled (h : PolledTimes k d.polled d') : PolledTimes (k + 1) d d' where
  agrees := h.agrees.trans d.polled_agrees
  failAt := h.failAt
  busyDelay := h.busyDelay
  polls := h.polls.trans (by rw [polled, Nat.add_assoc, Nat.add_comm 1 k])

/-- No command has been executed and no poll made, and the block is as busy as it was. -/
structure Undisturbed (d d' : Device g) : Prop where
  slots : d'.slots = d.slots
  history : d'.history = d.history
  failAt : d'.failAt = d.failAt
  stuckBusy : d'.stuckBusy = d.stuckBusy
  busyDelay : d'.busyDelay = d.busyDelay
  busyRemaining : d'.busyRemaining = d.busyRemaining
  polls : d'.polls = d.polls

theorem Undisturbed.refl (d : Device g) : d.Undisturbed d :=
  ⟨rfl, rfl, rfl, rfl, rfl, rfl, rfl⟩

theorem Undisturbed.trans (h : d.Undisturbed d₁) (h' : d₁.Undisturbed d') : d.Undisturbed d' :=
  ⟨h'.slots.trans h.slots, h'.history.trans h.history, h'.failAt.trans h.failAt,
    h'.stuckBusy.trans h.stuckBusy, h'.busyDelay.trans h.busyDelay,
    h'.busyRemaining.trans h.busyRemaining, h'.polls.trans h.polls⟩

/-- From `d` to `d'` the listed commands have been executed, latest first, and a number
of polls made. -/
structure Spent (polls : Nat) (executed : List Command) (d d' : Device g) : Prop where
  polls : d'.polls = d.polls + polls
  history : d'.history = executed ++ d.history
  slots : executed = [] → d'.slots = d.slots

theorem Undisturbed.spent {polls : Nat} {executed : List Command} (h : d.Undisturbed d₁)
    (h' : Spent polls executed d₁ d') : Spent polls executed d d' :=
  ⟨h.polls ▸ h'.polls, h.history ▸ h'.history, fun he => (h'.slots he).trans h.slots⟩

/-- The block will be busy for longer than a table with this limit waits. -/
abbrev Blocked (d : Device g) (limit : Nat) : Prop :=
  d.stuckBusy = true ∨ limit ≤ d.busyRemaining

/-- The block will be free in time, but not after another command. -/
structure Slow (d : Device g) (limit : Nat) : Prop where
  notStuck : d.stuckBusy = false
  remaining_lt : d.busyRemaining < limit
  le_delay : limit ≤ d.busyDelay

/-- A command is kept in the history and makes the block busy. -/
theorem perform_counters (c : Command) (d : Device g) :
    (d.perform c).history = c :: d.history ∧ (d.perform c).busyRemaining = d.busyDelay ∧
      (d.perform c).failAt = d.failAt ∧ (d.perform c).polls = d.polls := by
  rw [perform_eq]
  exact ⟨rfl, rfl, rfl, rfl⟩

end Device

namespace Table

open Device (PolledTimes Undisturbed Spent)

variable {t : Table} {α β : Type} {s s' : State (Device t.geometry)}

/-! ## Polls -/

theorem poll_of_blocked {n : Nat} (hfault : s.bus.failAt = none) (h : s.bus.Blocked n) :
    ∃ s', t.poll n s = .error (.busyTimeout t.block t.pollLimit) s' ∧
      PolledTimes n s.bus s'.bus := by
  induction n generalizing s with
  | zero => exact ⟨_, rfl, .refl s.bus⟩
  | succ n ih =>
      have hbusy : s.bus.busyBit = true := by
        rcases h with hstuck | hle
        · rw [Device.busyBit, hstuck, Bool.true_or]
        · rw [Device.busyBit, decide_eq_true (by omega : 0 < s.bus.busyRemaining), Bool.or_true]
      have hnext : s.bus.polled.Blocked n := h.imp_right fun hle => Nat.le_sub_of_add_le hle
      obtain ⟨s', hrun, hpolled⟩ := ih (s := { s with bus := s.bus.polled }) hfault hnext
      rw [poll_succ, if_neg (Device.not_faultDue hfault), if_pos hbusy]
      exact ⟨s', hrun, hpolled.of_polled⟩

theorem poll_of_free {n : Nat} (hfault : s.bus.failAt = none) (hstuck : s.bus.stuckBusy = false)
    (h : s.bus.busyRemaining < n) :
    ∃ s', t.poll n s = .ok () s' ∧ PolledTimes (s.bus.busyRemaining + 1) s.bus s'.bus := by
  induction n generalizing s with
  | zero => exact absurd h (Nat.not_lt_zero _)
  | succ n ih =>
      rw [poll_succ, if_neg (Device.not_faultDue hfault)]
      cases hbusy : s.bus.busyBit with
      | false =>
          have hzero : s.bus.busyRemaining = 0 := by
            simpa [Device.busyBit, hstuck] using hbusy
          refine ⟨_, rfl, ?_⟩
          rw [hzero]
          exact (PolledTimes.refl s.bus.polled).of_polled
      | true =>
          have hpos : 0 < s.bus.busyRemaining := by
            simpa [Device.busyBit, hstuck] using hbusy
          have hlt : s.bus.polled.busyRemaining < n := by
            change s.bus.busyRemaining - 1 < n
            omega
          obtain ⟨s', hrun, hpolled⟩ := ih (s := { s with bus := s.bus.polled }) hfault hstuck hlt
          have hcount : s.bus.polled.busyRemaining + 1 = s.bus.busyRemaining :=
            Nat.sub_add_cancel hpos
          rw [if_pos rfl, ← hcount]
          exact ⟨s', hrun, hpolled.of_polled⟩

/-! ## Sessions that give up -/

/-- The session answers a busy timeout, after the given polls and commands. -/
def GivesUp (t : Table) (m : Session (Device t.geometry) α) (s : State (Device t.geometry))
    (polls : Nat) (executed : List Command) : Prop :=
  ∃ s', m s = .error (.busyTimeout t.block t.pollLimit) s' ∧ Spent polls executed s.bus s'.bus

/-- A session that the busy bit ends at its first command. -/
structure TimesOut (t : Table) (m : Session (Device t.geometry) α)
    (s : State (Device t.geometry)) : Prop where
  blocked : s.bus.Blocked t.pollLimit → t.GivesUp m s t.pollLimit []
  slow : s.bus.Slow t.pollLimit →
    ∃ c, t.GivesUp m s (s.bus.busyRemaining + 1 + t.pollLimit) [c]

section Rules

variable {m : Session (Device t.geometry) α} {f : α → Session (Device t.geometry) β}

/-- A session that gives a result although the busy bit would have ended it at its first
command shows that the device was ready. -/
theorem TimesOut.ready {a : α} (h : t.TimesOut m s) (hfault : s.bus.failAt = none)
    (hrun : m s = .ok a s') : s.bus.Ready t.pollLimit := by
  have hnot {polls : Nat} {executed : List Command} : ¬t.GivesUp m s polls executed := by
    rintro ⟨s₁, hgiven, -⟩
    exact nomatch hrun.symm.trans hgiven
  have hfree : ¬s.bus.Blocked t.pollLimit := fun hblocked => hnot (h.blocked hblocked)
  have hstuck : s.bus.stuckBusy = false := Bool.eq_false_iff.mpr fun hstuck => hfree (Or.inl hstuck)
  have hremaining := Nat.lt_of_not_le fun hle => hfree (Or.inr hle)
  refine ⟨hfault, hstuck, Nat.lt_of_not_le fun hle => ?_, hremaining⟩
  obtain ⟨c, hgiven⟩ := h.slow ⟨hstuck, hremaining, hle⟩
  exact hnot hgiven

theorem TimesOut.of_givesUp {m' : Session (Device t.geometry) β} (hm : t.TimesOut m s)
    (h : ∀ polls executed, t.GivesUp m s polls executed → t.GivesUp m' s polls executed) :
    t.TimesOut m' s where
  blocked hblocked := h _ _ (hm.blocked hblocked)
  slow hslow := (hm.slow hslow).imp fun _ => h _ _

theorem TimesOut.bind (hm : t.TimesOut m s) : t.TimesOut (m >>= f) s := by
  refine hm.of_givesUp ?_
  rintro polls executed ⟨s', hrun, hspent⟩
  refine ⟨s', ?_, hspent⟩
  change EStateM.bind m f s = _
  rw [EStateM.bind, hrun]

/-- A timeout is not a miss. -/
theorem TimesOut.catchMiss {onMiss : Session (Device t.geometry) α} (hm : t.TimesOut m s) :
    t.TimesOut (MonadExcept.tryCatch m fun
      | .notFound _ => onMiss
      | e => MonadExcept.throw e) s := by
  refine hm.of_givesUp ?_
  rintro polls executed ⟨s', hrun, hspent⟩
  exact ⟨s', Session.tryCatch_of_error hrun _, hspent⟩

theorem TimesOut.settled (hm : t.TimesOut m s) : t.TimesOut m.settled s := by
  refine hm.of_givesUp ?_
  rintro polls executed ⟨s', hrun, hspent⟩
  refine ⟨{ s' with phase := .idle }, ?_, hspent⟩
  rw [Session.settled, hrun]

theorem TimesOut.check {x : Except Error α} {a : α} (hx : x = .ok a) (hf : t.TimesOut (f a) s) :
    t.TimesOut (ofExcept x >>= f) s := by
  rw [hx]
  exact hf

/-- What comes before the first command makes no difference. -/
theorem TimesOut.after {a : α} (hrun : m s = .ok a s') (h : s.bus.Undisturbed s'.bus)
    (hf : t.TimesOut (f a) s') : t.TimesOut (m >>= f) s := by
  have hbind {polls : Nat} {executed : List Command} (hends : t.GivesUp (f a) s' polls executed) :
      t.GivesUp (m >>= f) s polls executed := by
    obtain ⟨s₂, hrun', hspent⟩ := hends
    refine ⟨s₂, ?_, h.spent hspent⟩
    change EStateM.bind m f s = _
    rw [EStateM.bind, hrun]
    exact hrun'
  refine ⟨fun hblocked => hbind (hf.blocked ?_), fun hslow => ?_⟩
  · rw [Device.Blocked, h.stuckBusy, h.busyRemaining]
    exact hblocked
  · have hslow' : s'.bus.Slow t.pollLimit := by
      refine ⟨h.stuckBusy.trans hslow.notStuck, ?_, ?_⟩
      · rw [h.busyRemaining]
        exact hslow.remaining_lt
      · rw [h.busyDelay]
        exact hslow.le_delay
    obtain ⟨c, hends⟩ := hf.slow hslow'
    rw [h.busyRemaining] at hends
    exact ⟨c, hbind hends⟩

end Rules

/-! ## Commands -/

theorem writeOperation_eq {c : Command} (hfault : s.bus.failAt = none) (hruns : s.bus.Runs c) :
    t.writeRegister operationRegister c.word s =
      .ok () { s with bus := s.bus.counted.perform c } := by
  have haccess := s.bus.writeRegister_eq operationRegister c.word
  rw [if_neg (Device.not_faultDue hfault),
    Device.store_word (Device.Agrees.runs s.bus.counted_agrees hruns)] at haccess
  rw [writeRegister, Session.onBus, block, haccess]

/-- A command is not executed if the block is busy for too long before it, and executed
if the block is busy for too long after it. -/
theorem timesOut_command {opcode : Opcode} {page : Page} {index : SlotIndex}
    (hfault : s.bus.failAt = none) (hruns : s.bus.Runs ⟨opcode, page, index⟩) :
    t.TimesOut (t.command opcode page index) s := by
  rw [command_eq]
  refine .settled (.after (a := ()) (m := Session.enter .awaitingBusy) rfl (.refl s.bus) ?_)
  let s₁ : State (Device t.geometry) := { s with phase := .awaitingBusy }
  refine ⟨fun hblocked => ?_, fun hslow => ?_⟩
  · obtain ⟨s', hrun, hpolled⟩ := poll_of_blocked (s := s₁) hfault hblocked
    refine ⟨s', ?_, hpolled.polls, hpolled.agrees.history, fun _ => hpolled.agrees.slots⟩
    change EStateM.bind (t.poll t.pollLimit) _ s₁ = _
    rw [EStateM.bind, hrun]
  · obtain ⟨s₂, hfirst, hpolled⟩ := poll_of_free (s := s₁) hfault hslow.notStuck hslow.remaining_lt
    have hwrite := writeOperation_eq (hpolled.failAt.trans hfault) (hpolled.agrees.runs hruns)
    let s₃ : State (Device t.geometry) :=
      { s₂ with bus := s₂.bus.counted.perform ⟨opcode, page, index⟩, phase := .commandIssued }
    obtain ⟨hhistory, hremaining, hfault₃, hpolls⟩ :=
      Device.perform_counters ⟨opcode, page, index⟩ s₂.bus.counted
    have hblocked : s₃.bus.Blocked t.pollLimit := by
      refine Or.inr ?_
      rw [hremaining, Device.counted, hpolled.busyDelay]
      exact hslow.le_delay
    have hfault' : s₃.bus.failAt = none := hfault₃.trans (hpolled.failAt.trans hfault)
    obtain ⟨s', hsecond, hpolled'⟩ := poll_of_blocked hfault' hblocked
    refine ⟨⟨opcode, page, index⟩, s', ?_, ?_, ?_, fun h => absurd h (List.cons_ne_nil _ _)⟩
    · change EStateM.bind (t.poll t.pollLimit) (fun _ => EStateM.bind (t.writeRegister _ _)
        fun _ => EStateM.bind (Session.enter .commandIssued) fun _ => t.poll t.pollLimit) s₁ = _
      simp only [EStateM.bind, hfirst, hwrite]
      exact hsecond
    · rw [hpolled'.polls, hpolls, Device.counted, hpolled.polls, Nat.add_assoc]
    · rw [hpolled'.agrees.history, hhistory, Device.counted, hpolled.agrees.history]
      rfl

/-! ## What comes before the first command -/

theorem writeData_eq {i : Nat} (hfault : s.bus.failAt = none) (hi : i < dataRegisters)
    (value : Word) : t.writeRegister (dataRegister i) value s =
      .ok () { s with bus := { s.bus.counted with data := s.bus.data.set i value } } := by
  have haccess := s.bus.writeRegister_eq (dataRegister i) value
  rw [if_neg (Device.not_faultDue hfault), Device.store_dataRegister hi] at haccess
  rw [writeRegister, Session.onBus, block, haccess]
  rfl

theorem forM_undisturbed {ι : Type} {f : ι → Session (Device t.geometry) Unit} {l : List ι}
    (hf : ∀ i ∈ l, ∀ s : State (Device t.geometry), s.bus.failAt = none →
      ∃ s', f i s = .ok () s' ∧ s.bus.Undisturbed s'.bus) (hfault : s.bus.failAt = none) :
    ∃ s', l.forM f s = .ok () s' ∧ s.bus.Undisturbed s'.bus := by
  induction l generalizing s with
  | nil => exact ⟨s, rfl, .refl s.bus⟩
  | cons i l ih =>
      obtain ⟨hi, hl⟩ := List.forall_mem_cons.mp hf
      obtain ⟨s₁, hrun, h₁⟩ := hi s hfault
      obtain ⟨s', hrest, h'⟩ := ih hl (h₁.failAt.trans hfault)
      refine ⟨s', ?_, h₁.trans h'⟩
      change EStateM.bind (f i) (fun _ => l.forM f) s = _
      rw [EStateM.bind, hrun]
      exact hrest

theorem writePage_undisturbed {n : Nat} (hn : n ≤ dataRegisters) (page : Registers n)
    (hfault : s.bus.failAt = none) :
    ∃ s', t.writePage page s = .ok () s' ∧ s.bus.Undisturbed s'.bus := by
  refine forM_undisturbed (fun i hi s hfault => ?_) hfault
  have hlt := Nat.lt_of_lt_of_le (List.mem_range.mp hi) hn
  exact ⟨_, writeData_eq hfault hlt (page.get i), rfl, rfl, rfl, rfl, rfl, rfl, rfl⟩

theorem select_undisturbed (hfault : s.bus.failAt = none) :
    ∃ s', t.selectActionSubBlock s = .ok () s' ∧ s.bus.Undisturbed s'.bus ∧
      ActionSelected s'.bus := by
  rw [selectActionSubBlock_eq, if_neg (Device.not_faultDue hfault),
    if_neg (Device.not_faultDue (d := s.bus.counted) hfault)]
  exact ⟨_, rfl, ⟨rfl, rfl, rfl, rfl, rfl, rfl, rfl⟩, BitField.get_set_self _ _ _ (by decide)⟩

/-! ## Operations -/

section Operations

variable (hvalid : t.geometry.Valid) (hfault : s.bus.failAt = none)

include hvalid hfault

theorem timesOut_key (opcode : Opcode) {slot : SlotIndex} (hslot : slot ≤ t.geometry.maxIndex) :
    t.TimesOut (t.command opcode .key slot) s :=
  timesOut_command hfault (runs_key hvalid opcode hslot s.bus)

theorem timesOut_flushAll : t.TimesOut t.flushAll s :=
  (timesOut_key hvalid hfault .flushAll (BitVec.le_def.mpr (Nat.zero_le _))).bind

theorem timesOut_flushEntry {slot : SlotIndex} (hslot : t.geometry.checkSlot slot = .ok ()) :
    t.TimesOut (t.flushEntry slot) s :=
  have hmax := (Geometry.checkSlot_eq_ok_iff.mp hslot).2
  .check hslot (timesOut_key hvalid hfault .flushEntry hmax).bind

/-- The registers are written and the sub-block is selected before the first command. -/
theorem timesOut_loadEntry {slot : SlotIndex} {entry : Entry}
    (hslot : t.geometry.checkSlot slot = .ok ()) (hentry : entry.check t.geometry = .ok ()) :
    t.TimesOut (t.loadEntry slot entry) s := by
  have hmax := (Geometry.checkSlot_eq_ok_iff.mp hslot).2
  obtain ⟨s₁, hselect, h₁, hselected⟩ := select_undisturbed (t := t) hfault
  have hpage : t.TimesOut (t.loadPage slot .action (.ofEntry entry)) s₁ := by
    have hfault₁ := h₁.failAt.trans hfault
    obtain ⟨s₂, hwrite, h₂⟩ := writePage_undisturbed (t := t) Page.action.registers_le
      ((SlotImage.ofEntry entry).page .action) hfault₁
    have hends : Session.Ends t.pollLimit (t.writePage _) s₁ _ _ :=
      writePage_ends Page.action.registers_le ((SlotImage.ofEntry entry).page .action)
    obtain ⟨data, hagrees, -⟩ := hends.of_ok hwrite
    refine .after hwrite h₂ (timesOut_command (h₂.failAt.trans hfault₁) ?_)
    exact Device.runs_of_index_le hvalid.maxIndex_le hmax fun _ => hagrees.extension ▸ hselected
  rw [loadEntry_eq]
  refine .check hslot (.check hentry (.after hselect h₁ (.bind ?_)))
  unfold Geometry.loadOrder
  split
  · exact hpage.bind
  · exact hpage.bind

theorem timesOut_readEntry {slot : SlotIndex} (hslot : t.geometry.checkSlot slot = .ok ()) :
    t.TimesOut (t.readEntry slot) s := by
  rw [readEntry_eq]
  have hmax := (Geometry.checkSlot_eq_ok_iff.mp hslot).2
  exact .check hslot (.bind (.bind (timesOut_key hvalid hfault .read hmax)))

theorem timesOut_getNextEntry {slot : SlotIndex} (hslot : slot ≤ t.geometry.maxIndex) :
    t.TimesOut (t.getNextEntry slot) s := by
  rw [getNextEntry_eq]
  exact .check (checkStart_eq_ok_iff.mpr hslot) (timesOut_key hvalid hfault .getNext hslot).bind

theorem timesOut_findEntry {slot : SlotIndex} (hslot : t.geometry.checkSlot slot = .ok ()) :
    t.TimesOut (t.findEntry slot) s := by
  have hmax := (Geometry.checkSlot_eq_ok_iff.mp hslot).2
  exact .check hslot (.bind (.catchMiss (timesOut_getNextEntry hvalid hfault (previous_le hmax))))

theorem timesOut_updatePorts {slot : SlotIndex} {port : Octet}
    (hport : port.toNat < PortVector.width) (hslot : t.geometry.checkSlot slot = .ok ())
    (update : Masked PortVector → Masked PortVector) :
    t.TimesOut (t.updatePorts slot port update) s := by
  unfold updatePorts
  rw [if_neg (Nat.not_le.mpr hport)]
  exact (timesOut_findEntry hvalid hfault hslot).bind

end Operations

end Table

end Tcam
