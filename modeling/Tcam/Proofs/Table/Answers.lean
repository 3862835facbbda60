import Tcam.Proofs.Device.Reload
import Tcam.Proofs.Table.Operations

/-!
# What a table answers when its device works

A ready device breaks no session off.  So what an operation can give at most, as its
rule for `Session.Ends` says, it does give (`Answers.result_eq`, `Answers.ok_of_ends`),
and reading, searching and loading a slot are known from the slots alone.
-/

namespace Tcam.Table

open Session (Ends)

variable {t : Table} {d : Device t.geometry} {l : Lock (Table.State (Device t.geometry))}
  {slot : SlotIndex} {entry : Entry} {e : Error} {α : Type}
  {m : Session (Device t.geometry) α}

/-- The table can be used, its device answers, and the slots are as in `d`. -/
structure Answers (d : Device t.geometry) (l : Lock (Table.State (Device t.geometry))) : Prop where
  usable : l.poisoned = false
  ready : l.content.bus.Ready t.pollLimit
  slots : l.content.bus.slots = d.slots

/-- Only the hardware could keep the session from its answer. -/
theorem Answers.result_eq {x : Except Error α} (h : Answers d l)
    (hends : Ends t.pollLimit m l.content (fun a _ => x = .ok a)
      (fun e _ => x = .error e ∨ e.isRetryable = true)) : m.locked.result l = x := by
  have hlocked : Transaction.Ends t.pollLimit m.locked l (fun a _ => x = .ok a)
      (fun e _ => x = .error e ∨ e.isRetryable = true) := .locked h.usable hends
  unfold Transaction.result
  rcases hlocked.cases with ⟨a, l', hrun, -, -, hx⟩ | ⟨e, l', hrun, -, hready, hx | he⟩
  · rw [hrun, hx]
  · rw [hrun, hx]
  · exact nomatch he.symm.trans (hready h.ready).2

/-- Only the hardware could keep the session from succeeding. -/
theorem Answers.ok_of_ends {Q : α → Device t.geometry → Prop} (h : Answers d l)
    (hends : Ends t.pollLimit m l.content (fun a s' => Q a s'.bus)
      (fun e _ => e.isRetryable = true)) :
    ∃ a l', m.locked l = .ok a l' ∧ Answers l'.content.bus l' ∧ Q a l'.content.bus := by
  have hlocked : Transaction.Ends t.pollLimit m.locked l (fun a s' => Q a s'.bus)
      (fun e _ => e.isRetryable = true) := .locked h.usable hends
  rcases hlocked.cases with ⟨a, l', hrun, hl', hready, hq⟩ | ⟨e, l', -, -, hready, he⟩
  · exact ⟨a, l', hrun, ⟨hl', hready h.ready, rfl⟩, hq⟩
  · exact nomatch he.symm.trans (hready h.ready).2

/-- Operations that check the slot first answer a slot outside of the table alike. -/
theorem Answers.result_of_refused {f : Unit → Session (Device t.geometry) α} (h : Answers d l)
    (hslot : t.geometry.checkSlot slot = .error e) :
    (ofExcept (t.geometry.checkSlot slot) >>= f).locked.result l = .error e := by
  refine h.result_eq (Ends.check (fun e' he' => ?_) fun _ hok => nomatch hslot.symm.trans hok)
  obtain rfl := Except.error.inj (hslot.symm.trans he')
  exact ⟨(Geometry.isRefusal_of_checkSlot hslot).not_retryable, Or.inl rfl⟩

theorem Answers.result_readEntry_of_refused (h : Answers d l)
    (hslot : t.geometry.checkSlot slot = .error e) :
    (t.readEntry slot).locked.result l = .error e :=
  h.result_of_refused hslot

theorem Answers.result_findEntry_of_refused (h : Answers d l)
    (hslot : t.geometry.checkSlot slot = .error e) :
    (t.findEntry slot).locked.result l = .error e :=
  h.result_of_refused hslot

variable (hvalid : t.geometry.Valid)

include hvalid

theorem Answers.result_readEntry (h : Answers d l) (hslot : t.geometry.checkSlot slot = .ok ()) :
    (t.readEntry slot).locked.result l = .ok (d.content slot) := by
  refine h.result_eq ((readEntry_ends hvalid slot).mono ?_ ?_)
  · rintro _ s' ⟨-, rfl, -⟩
    rw [Device.content_congr h.slots]
  · rintro e s' (⟨hrefused, -⟩ | ⟨-, he, -⟩)
    · exact nomatch hslot.symm.trans hrefused
    · exact Or.inr he

/-- A search finds the slot if it is valid, as long as no valid slot is taken for a miss. -/
theorem Answers.result_findEntry (h : Answers d l) (hslot : t.geometry.checkSlot slot = .ok ())
    (hshown : d.isValid slot = true → d.Present slot) :
    (t.findEntry slot).locked.result l =
      if d.isValid slot then .ok (d.content slot) else .error (.notFound slot) := by
  refine h.result_eq ((findEntry_ends hvalid slot).mono ?_ ?_)
  · rintro _ s' ⟨-, -, hpresent, rfl⟩
    have hloaded := (Device.isValid_congr h.slots slot).symm.trans hpresent.1
    rw [if_pos hloaded, Device.content_congr h.slots]
  · rintro e s' (⟨hrefused, -⟩ | ⟨-, -, ⟨rfl, habsent⟩ | he⟩)
    · exact nomatch hslot.symm.trans hrefused
    · refine Or.inl (if_neg fun hloaded => habsent ?_)
      exact (hshown hloaded).congr h.slots
    · exact Or.inr he

/-- A load of an entry that fits succeeds. -/
theorem Answers.loadEntry (h : Answers d l) (hslot : t.geometry.checkSlot slot = .ok ())
    (hentry : entry.check t.geometry = .ok ()) :
    ∃ l', (t.loadEntry slot entry).locked l = .ok () l' ∧ Answers l'.content.bus l' ∧
      l'.content.bus.slots = d.loaded slot (.ofEntry entry) t.geometry.loadOrder := by
  obtain ⟨_, l', hrun, h', hslots⟩ := h.ok_of_ends
    (Q := fun _ d' => d'.slots = l.content.bus.loaded slot (.ofEntry entry) t.geometry.loadOrder)
    ((loadEntry_ends hvalid slot entry).mono (fun _ _ hdone => hdone.2.2) (by
      rintro e s' (⟨hrefused, -⟩ | ⟨-, hrefused, -⟩ | ⟨-, -, he, -⟩)
      · exact nomatch hslot.symm.trans hrefused
      · exact nomatch hentry.symm.trans hrefused
      · exact he))
  exact ⟨l', hrun, h', hslots.trans (Device.loaded_congr h.slots slot _ _)⟩

end Tcam.Table
