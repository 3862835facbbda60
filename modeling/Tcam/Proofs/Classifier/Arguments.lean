import Mathlib.Control.Monad.Basic
import Tcam.Proofs.Classifier.Walk

/-!
# Argument errors of a table

Which arguments a table refuses depends on its geometry and the request alone
(`Request.Unfit`), and it refuses them before the first access (`judges_request`).
Inside of an operation arguments are checked again, on an index and on an entry that
come back from the device.  Those checks never fail: every index that a search reports
is one of the table (`not_refuses_of_locate`), and an entry that was found can be loaded
again with other ports (`not_refuses_of_findEntry`).
-/

namespace Tcam

/-- The table has no usable slot of this index. -/
def Geometry.Lacks (g : Geometry) (slot : SlotIndex) : Prop :=
  slot < g.minIndex ∨ g.maxIndex < slot

/-- A slot, a port or an entry of the request is none for a table of the geometry. -/
def Request.Unfit (g : Geometry) : Request → Prop
  | .flushAll => False
  | .flushEntry slot | .readEntry slot | .findEntry slot => g.Lacks slot
  | .loadEntry slot entry => g.Lacks slot ∨ entry.check g ≠ .ok ()
  | .getNextEntry slot => g.maxIndex < slot
  | .addPort slot port | .removePort slot port => g.Lacks slot ∨ 11 ≤ port.toNat

theorem Geometry.checkSlot_eq_ok_iff_not_lacks {g : Geometry} {slot : SlotIndex} :
    g.checkSlot slot = .ok () ↔ ¬g.Lacks slot := by
  rw [checkSlot_eq_ok_iff, Lacks, not_or, BitVec.not_lt, BitVec.not_lt]

theorem Geometry.not_lacks_of_checkSlot {g : Geometry} {slot : SlotIndex}
    (h : g.checkSlot slot = .ok ()) : ¬g.Lacks slot :=
  checkSlot_eq_ok_iff_not_lacks.mp h

theorem Geometry.lacks_of_checkSlot {g : Geometry} {slot : SlotIndex} {e : Error}
    (h : g.checkSlot slot = .error e) : g.Lacks slot := by
  by_contra hslot
  exact nomatch (checkSlot_eq_ok_iff_not_lacks.mpr hslot).symm.trans h

/-- A failure of the hardware and a miss are no refusals. -/
theorem Error.not_isRefusal_of_isRetryable {e : Error} (h : e.isRetryable = true) :
    ¬e.IsRefusal :=
  fun hrefusal => nomatch hrefusal.not_retryable.symm.trans h

theorem Error.not_isRefusal_notFound (slot : SlotIndex) : ¬(Error.notFound slot).IsRefusal := by
  rintro ⟨_, h⟩
  cases h

/-- The session breaks off because it refuses an argument. -/
def Session.Refuses {σ α : Type} (m : Session σ α) (s : Table.State σ) : Prop :=
  ∃ cause s', m s = .error (.invalidArgument cause) s'

namespace Table

open Session (Ends)

variable {t : Table} {s : Table.State (Device t.geometry)} {slot : SlotIndex} {α β : Type}

/-- The session goes on exactly if `unfit` does not hold, and a refusal changes nothing. -/
abbrev Judges (t : Table) (unfit : Prop) (m : Session (Device t.geometry) α) : Prop :=
  ∀ s, Ends t.pollLimit m s (fun _ _ => ¬unfit)
    (fun e s' => unfit ∧ e.IsRefusal ∧ s' = s ∨ ¬unfit ∧ ¬e.IsRefusal)

section Judged

variable {unfit : Prop} {m : Session (Device t.geometry) α}

theorem Judges.map (hm : t.Judges unfit m) (f : α → β) : t.Judges unfit (do return f (← m)) :=
  fun s => (hm s).map.mono (fun _ _ ⟨_, _, h⟩ => h) (fun _ _ h => h)

/-- The session refuses exactly in case of `unfit`. -/
theorem Judges.refuses_iff (hm : t.Judges unfit m) : m.Refuses s ↔ unfit := by
  constructor
  · rintro ⟨cause, s', hrun⟩
    rcases (hm s).of_error hrun with ⟨h, -⟩ | ⟨-, h⟩
    · exact h
    · exact absurd ⟨cause, rfl⟩ h
  · intro h
    cases hrun : m s with
    | ok a s' => exact absurd h ((hm s).of_ok hrun)
    | error e s' =>
        rcases (hm s).of_error hrun with ⟨-, ⟨cause, rfl⟩, -⟩ | ⟨hfit, -⟩
        · exact ⟨cause, s', hrun⟩
        · exact absurd h hfit

theorem Judges.state_eq {cause : ArgumentError} {s' : Table.State (Device t.geometry)}
    (hm : t.Judges unfit m) (hrun : m s = .error (.invalidArgument cause) s') : s' = s := by
  rcases (hm s).of_error hrun with ⟨-, -, h⟩ | ⟨-, h⟩
  · exact h
  · exact absurd ⟨cause, rfl⟩ h

end Judged

section Operations

variable (hvalid : t.geometry.Valid)

include hvalid

theorem judges_flushAll : t.Judges False t.flushAll :=
  fun _ => (flushAll_ends hvalid).mono (fun _ _ _ => id) fun _ _ h =>
    Or.inr ⟨id, Error.not_isRefusal_of_isRetryable h.1⟩

theorem judges_flushEntry (slot : SlotIndex) :
    t.Judges (t.geometry.Lacks slot) (t.flushEntry slot) := by
  refine fun s => (flushEntry_ends hvalid slot).mono ?_ ?_
  · exact fun _ _ h => Geometry.not_lacks_of_checkSlot h.1
  · rintro e s' (⟨hslot, hs⟩ | ⟨hslot, he, -⟩)
    · exact Or.inl ⟨Geometry.lacks_of_checkSlot hslot, Geometry.isRefusal_of_checkSlot hslot, hs⟩
    · exact Or.inr ⟨Geometry.not_lacks_of_checkSlot hslot, Error.not_isRefusal_of_isRetryable he⟩

theorem judges_loadEntry (slot : SlotIndex) (entry : Entry) :
    t.Judges (t.geometry.Lacks slot ∨ entry.check t.geometry ≠ .ok ())
      (t.loadEntry slot entry) := by
  have hfit (hslot : t.geometry.checkSlot slot = .ok ())
      (hentry : entry.check t.geometry = .ok ()) :
      ¬(t.geometry.Lacks slot ∨ entry.check t.geometry ≠ .ok ()) :=
    not_or.mpr ⟨Geometry.not_lacks_of_checkSlot hslot, not_not_intro hentry⟩
  refine fun s => (loadEntry_ends hvalid slot entry).mono (fun _ _ h => hfit h.1 h.2.1) ?_
  rintro e s' (⟨hslot, hs⟩ | ⟨-, hentry, hs⟩ | ⟨hslot, hentry, he, -⟩)
  · have hunfit := Geometry.lacks_of_checkSlot hslot
    exact Or.inl ⟨Or.inl hunfit, Geometry.isRefusal_of_checkSlot hslot, hs⟩
  · have hunfit : entry.check t.geometry ≠ .ok () := fun h => nomatch h.symm.trans hentry
    exact Or.inl ⟨Or.inr hunfit, Entry.isRefusal_of_check hentry, hs⟩
  · exact Or.inr ⟨hfit hslot hentry, Error.not_isRefusal_of_isRetryable he⟩

theorem judges_readEntry (slot : SlotIndex) :
    t.Judges (t.geometry.Lacks slot) (t.readEntry slot) := by
  refine fun s => (readEntry_ends hvalid slot).mono ?_ ?_
  · exact fun _ _ h => Geometry.not_lacks_of_checkSlot h.1
  · rintro e s' (⟨hslot, hs⟩ | ⟨hslot, he, -⟩)
    · exact Or.inl ⟨Geometry.lacks_of_checkSlot hslot, Geometry.isRefusal_of_checkSlot hslot, hs⟩
    · exact Or.inr ⟨Geometry.not_lacks_of_checkSlot hslot, Error.not_isRefusal_of_isRetryable he⟩

theorem judges_getNextEntry (slot : SlotIndex) :
    t.Judges (t.geometry.maxIndex < slot) (t.getNextEntry slot) := by
  have hfit (hstart : t.checkStart slot = .ok ()) : ¬t.geometry.maxIndex < slot :=
    BitVec.not_lt.mpr (checkStart_eq_ok_iff.mp hstart)
  refine fun s => (getNextEntry_ends hvalid slot).mono (fun _ _ h => hfit h.1) ?_
  rintro e s' (⟨hstart, hs⟩ | ⟨hstart, -, ⟨rfl, -⟩ | he⟩)
  · exact Or.inl ⟨(checkStart_eq_error_iff.mp hstart).1, isRefusal_of_checkStart hstart, hs⟩
  · exact Or.inr ⟨hfit hstart, Error.not_isRefusal_notFound slot⟩
  · exact Or.inr ⟨hfit hstart, Error.not_isRefusal_of_isRetryable he⟩

theorem judges_findEntry (slot : SlotIndex) :
    t.Judges (t.geometry.Lacks slot) (t.findEntry slot) := by
  refine fun s => (findEntry_ends hvalid slot).mono ?_ ?_
  · exact fun _ _ h => Geometry.not_lacks_of_checkSlot h.1
  · rintro e s' (⟨hslot, hs⟩ | ⟨hslot, -, ⟨rfl, -⟩ | he⟩)
    · exact Or.inl ⟨Geometry.lacks_of_checkSlot hslot, Geometry.isRefusal_of_checkSlot hslot, hs⟩
    · exact Or.inr ⟨Geometry.not_lacks_of_checkSlot hslot, Error.not_isRefusal_notFound slot⟩
    · exact Or.inr ⟨Geometry.not_lacks_of_checkSlot hslot, Error.not_isRefusal_of_isRetryable he⟩

theorem judges_updatePorts (slot : SlotIndex) (port : Octet)
    {update : Masked PortVector → Masked PortVector}
    (hupdate : port.toNat < PortVector.width → KeepsWidth update) :
    t.Judges (t.geometry.Lacks slot ∨ PortVector.width ≤ port.toNat)
      (t.updatePorts slot port update) := by
  have hfit (hport : port.toNat < PortVector.width) (hslot : t.geometry.checkSlot slot = .ok ()) :
      ¬(t.geometry.Lacks slot ∨ PortVector.width ≤ port.toNat) :=
    not_or.mpr ⟨Geometry.not_lacks_of_checkSlot hslot, Nat.not_le_of_lt hport⟩
  refine fun s => (updatePorts_ends hvalid slot port hupdate).mono (fun _ _ h => hfit h.1 h.2.1) ?_
  rintro e s' (⟨hport, rfl, hs⟩ | ⟨hport, ⟨hslot, hs⟩ | ⟨hslot, ⟨rfl, -⟩ | ⟨he, -⟩⟩⟩)
  · exact Or.inl ⟨Or.inr (Nat.le_of_not_lt hport), ⟨_, rfl⟩, hs⟩
  · have hunfit := Geometry.lacks_of_checkSlot hslot
    exact Or.inl ⟨Or.inl hunfit, Geometry.isRefusal_of_checkSlot hslot, hs⟩
  · exact Or.inr ⟨hfit hport hslot, Error.not_isRefusal_notFound slot⟩
  · exact Or.inr ⟨hfit hport hslot, Error.not_isRefusal_of_isRetryable he⟩

/-- A request is refused exactly if its arguments are none for the table, whatever
state the table is in. -/
theorem judges_request (r : Request) : t.Judges (r.Unfit t.geometry) (r.session t) := by
  cases r with
  | flushAll => exact (judges_flushAll hvalid).map _
  | flushEntry slot => exact (judges_flushEntry hvalid slot).map _
  | loadEntry slot entry => exact (judges_loadEntry hvalid slot entry).map _
  | readEntry slot => exact (judges_readEntry hvalid slot).map _
  | getNextEntry slot => exact (judges_getNextEntry hvalid slot).map _
  | findEntry slot => exact (judges_findEntry hvalid slot).map _
  | addPort slot port =>
      exact (judges_updatePorts hvalid slot port fun _ => keepsWidth_admit port.toNat).map _
  | removePort slot port => exact (judges_updatePorts hvalid slot port keepsWidth_block).map _

/-- A slot that a search reports can be read. -/
theorem not_refuses_of_locate {s' s₁ : Table.State (Device t.geometry)} {found : SlotIndex}
    (h : t.locate slot s = .ok found s') : ¬(t.readEntry found).Refuses s₁ := by
  obtain ⟨-, -, hfound⟩ := (locate_ends hvalid slot).of_ok h
  rw [(judges_readEntry hvalid found).refuses_iff]
  exact Geometry.not_lacks_of_checkSlot (Geometry.checkSlot_eq_ok_iff.mpr hfound.inRange)

/-- An entry that was found can be loaded with other ports. -/
theorem not_refuses_of_findEntry {s' s₁ : Table.State (Device t.geometry)} {found : Slot}
    {update : Masked PortVector → Masked PortVector} (hupdate : KeepsWidth update)
    (h : t.findEntry slot s = .ok found s') :
    ¬(t.loadEntry slot (found.entry.withPorts update)).Refuses s₁ := by
  obtain ⟨hslot, -, -, rfl⟩ := (findEntry_ends hvalid slot).of_ok h
  rw [(judges_loadEntry hvalid slot _).refuses_iff, not_or, not_not]
  exact ⟨Geometry.not_lacks_of_checkSlot hslot,
    check_withPorts (Device.check_content s.bus slot) hupdate⟩

end Operations

/-- With a port of the vector, a change of ports finds the entry and loads it again. -/
theorem updatePorts_eq {σ : Type} [RegisterBus σ] {port : Octet} (hport : port.toNat < 11)
    (update : Masked PortVector → Masked PortVector) :
    (t.updatePorts slot port update : Session σ Unit) = t.findEntry slot >>= fun found =>
      t.loadEntry slot (found.entry.withPorts update) := by
  have hwidth : ¬PortVector.width ≤ port.toNat := Nat.not_le_of_lt hport
  unfold updatePorts
  rw [if_neg hwidth]
  rfl

end Table

namespace Classifier

variable {c : Classifier} {l : Lock (Table.State (Device c.table.geometry))}

theorem phase_after_locked {σ α : Type} (op : Session σ α) {l : Lock (Table.State σ)}
    (hl : l.content.phase = .idle) : (op.locked.after l).content.phase = .idle := by
  unfold Transaction.after
  cases hpoison : l.poisoned with
  | true =>
      rw [locked_of_poisoned op hpoison]
      exact hl
  | false =>
      rw [locked_eq op hpoison, Session.settled_eq]
      cases op l.content with
      | ok a s => rfl
      | error e s => rfl

/-- Between calls the table is idle. -/
theorem Reachable.idle (hl : c.Reachable l) : l.content.phase = .idle := by
  induction hl with
  | fresh => rfl
  | call l call _ ih =>
      rcases after_cases c call l with ⟨op, -, hop⟩ | ⟨-, f, hf, -⟩
      · rw [hop, carryOut_eq]
        cases c.script op with
        | ok m => exact phase_after_locked _ ih
        | error e => exact ih
      · rw [hf]
        exact ih

theorem locked_eq_error_iff {σ α : Type} {op : Session σ α} {l l' : Lock (Table.State σ)}
    {e : Error} (hl : l.poisoned = false) :
    op.locked l = .error e l' ↔
      ∃ s, op l.content = .error e s ∧ { l with content := { s with phase := .idle } } = l' := by
  rw [locked_eq op hl, Session.settled_eq]
  cases op l.content with
  | ok a s => simp [mapState]
  | error e s => simp [mapState]

/-- A request is refused exactly if its slot, its port or its entry is none for the
table, with any faults and delays pending, and a refusal leaves everything as it was, the
count of accesses included.  An operation checks again what comes back from the device,
and that check never refuses: neither when the slot that a search has found is read, nor
when an entry that was found is loaded with other ports. -/
theorem refuses_iff_unfit (hgeometry : c.table.geometry.validate = .ok ()) (hl : c.Reachable l) :
    let t := c.table
    (∀ r, (∃ cause l', t.serve r l = .error (.invalidArgument cause) l') ↔
      r.Unfit t.geometry) ∧
    (∀ r cause l', t.serve r l = .error (.invalidArgument cause) l' → l' = l) ∧
    (∀ slot, (t.getNextEntry slot : Session (Device t.geometry) Slot) =
        t.locate slot >>= t.readEntry ∧
      ∀ s : Table.State (Device t.geometry), ∀ found s',
        t.locate slot s = .ok found s' → ¬(t.readEntry found).Refuses s') ∧
    ∀ slot (port : Octet), port.toNat < 11 → ∀ update ∈ [admitting port, blocking port],
      (t.updatePorts slot port update : Session (Device t.geometry) Unit) =
        (t.findEntry slot >>= fun found => t.loadEntry slot (found.entry.withPorts update)) ∧
      ∀ s : Table.State (Device t.geometry), ∀ found s',
        t.findEntry slot s = .ok found s' →
          ¬(t.loadEntry slot (found.entry.withPorts update)).Refuses s' := by
  intro t
  have hvalid := Geometry.validate_eq_ok_iff.mp hgeometry
  have hpoison := (hl.evolves hvalid).1
  refine ⟨fun r => ?_, fun r cause l' hrun => ?_, fun slot => ⟨?_, ?_⟩, ?_⟩
  · rw [← (Table.judges_request hvalid r).refuses_iff (s := l.content)]
    constructor
    · rintro ⟨cause, l', hrun⟩
      obtain ⟨s, hs, -⟩ := (locked_eq_error_iff hpoison).mp hrun
      exact ⟨cause, s, hs⟩
    · rintro ⟨cause, s, hs⟩
      exact ⟨cause, _, (locked_eq_error_iff hpoison).mpr ⟨s, hs, rfl⟩⟩
  · obtain ⟨s, hs, rfl⟩ := (locked_eq_error_iff hpoison).mp hrun
    obtain rfl := (Table.judges_request hvalid r).state_eq hs
    rw [← hl.idle]
  · exact Table.getNextEntry_eq_locate slot
  · exact fun _ _ _ hfound => Table.not_refuses_of_locate hvalid hfound
  · intro slot port hport update hupdate
    have hkeeps : Table.KeepsWidth update := by
      rcases List.mem_pair.mp hupdate with rfl | rfl
      · exact Table.keepsWidth_admit port.toNat
      · exact Table.keepsWidth_block hport
    exact ⟨Table.updatePorts_eq hport update,
      fun _ _ _ hfound => Table.not_refuses_of_findEntry hvalid hkeeps hfound⟩

/-- A device that stays busy and fails the next access. -/
def faultySample : Lock (Table.State (Device egressSample.table.geometry)) :=
  egressSample.after (.failNthAccess 1) (egressSample.after (.setStuckBusy true) edgeSample)

/-- A search may start below the first slot, where nothing can be read. -/
theorem refuses_iff_unfit_faultySample :
    let t := egressSample.table
    t.geometry.validate = .ok () ∧ egressSample.Reachable faultySample ∧
      (∃ cause, t.serve (.addPort 5#16 11#8) faultySample =
        .error (.invalidArgument cause) faultySample) ∧
      (∃ cause, t.serve (.readEntry 0#16) faultySample =
        .error (.invalidArgument cause) faultySample) ∧
      ¬∃ cause l', t.serve (.getNextEntry 0#16) faultySample =
        .error (.invalidArgument cause) l' := by
  intro t
  have hgeometry : t.geometry.validate = .ok () := rfl
  have hreachable : egressSample.Reachable faultySample :=
    .call _ (.failNthAccess 1) (.call _ (.setStuckBusy true)
      (.call _ (.table (.loadEntry 63#16 default)) (.call _ (.table (.loadEntry 5#16 default))
        .fresh)))
  obtain ⟨hrefuses, hkept, -⟩ := refuses_iff_unfit hgeometry hreachable
  have hunchanged {r : Request} (hr : r.Unfit t.geometry) :
      ∃ cause, t.serve r faultySample = .error (.invalidArgument cause) faultySample := by
    obtain ⟨cause, l', hrun⟩ := (hrefuses r).mpr hr
    exact ⟨cause, by rw [hrun, hkept r cause l' hrun]⟩
  refine ⟨hgeometry, hreachable, hunchanged (Or.inr (by decide)),
    hunchanged (Or.inl (by decide)), fun h => ?_⟩
  exact absurd ((hrefuses _).mp h) (by decide : ¬t.geometry.maxIndex < 0#16)

end Classifier

end Tcam
