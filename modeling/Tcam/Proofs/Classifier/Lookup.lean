import Tcam.Proofs.Classifier.Operations
import Tcam.Proofs.Device.Loading

/-!
# Looking up a rule

The slots of a device determine which rule is at a slot (`Device.ruleAt`).
Reading a rule gives this answer whenever the hardware does not break it off
(`result_readRule`), and it gives a rule back once its entries are in place
(`ruleAt_of_place`).
-/

namespace Tcam

namespace Device

variable {g : Geometry} {d d' : Device g}

/-- The entry in which an entry continues. -/
def continuationOf (d : Device g) (first : Entry) : Except Error (Option Entry) :=
  match first.next? with
  | none => .ok none
  | some next => do
    g.checkSlot next
    if d.isValid next then return some (d.content next).entry
    throw (.notFound next)

/-- The rule whose first entry is given. -/
def ruleFrom (d : Device g) (first : Entry) : Except Error Rule := do
  let second ← d.continuationOf first
  Rule.ofEntries first second

/-- The rule at a slot. -/
def ruleAt (d : Device g) (slot : SlotIndex) : Except Error (Option Rule) := do
  g.checkSlot slot
  if d.isValid slot then (d.ruleFrom (d.content slot).entry).map some else .ok none

theorem continuationOf_congr_slot? {first : Entry}
    (h : ∀ next, first.next? = some next → d'.slot? next = d.slot? next) :
    d'.continuationOf first = d.continuationOf first := by
  unfold continuationOf
  cases hnext : first.next? with
  | none => rfl
  | some next => simp only [isValid_congr_slot? (h next hnext), content_congr_slot? (h next hnext)]

theorem continuationOf_congr (h : d'.slots = d.slots) (first : Entry) :
    d'.continuationOf first = d.continuationOf first :=
  continuationOf_congr_slot? fun next _ => slot?_congr h next

/-- Only the slot itself and, if it is valid, the one in which it continues matter. -/
theorem ruleAt_congr_of_valid {slot : SlotIndex} (hslot : d'.slot? slot = d.slot? slot)
    (hnext : d.isValid slot = true → ∀ next, d.next? slot = some next →
      d'.slot? next = d.slot? next) : d'.ruleAt slot = d.ruleAt slot := by
  unfold ruleAt
  rw [isValid_congr_slot? hslot, content_congr_slot? hslot]
  cases hvalid : d.isValid slot with
  | false => simp only [Bool.false_eq_true, if_false]
  | true =>
      unfold ruleFrom
      rw [continuationOf_congr_slot? (hnext hvalid)]

theorem ruleAt_congr_slot? {slot : SlotIndex} (hslot : d'.slot? slot = d.slot? slot)
    (hnext : ∀ next, d.next? slot = some next → d'.slot? next = d.slot? next) :
    d'.ruleAt slot = d.ruleAt slot :=
  ruleAt_congr_of_valid hslot fun _ => hnext

theorem ruleAt_congr (h : d'.slots = d.slots) (slot : SlotIndex) :
    d'.ruleAt slot = d.ruleAt slot :=
  ruleAt_congr_slot? (slot?_congr h slot) fun next _ => slot?_congr h next

theorem ruleAt_of_checkSlot_eq_error {slot : SlotIndex} {e : Error}
    (hslot : g.checkSlot slot = .error e) : d.ruleAt slot = .error e := by
  unfold ruleAt
  rw [hslot]
  rfl

theorem ruleAt_of_not_valid {slot : SlotIndex} (hslot : g.checkSlot slot = .ok ())
    (h : d.isValid slot = false) : d.ruleAt slot = .ok none := by
  unfold ruleAt
  rw [hslot, h]
  rfl

theorem ruleAt_of_valid {slot : SlotIndex} (hslot : g.checkSlot slot = .ok ())
    (h : d.isValid slot = true) :
    d.ruleAt slot = (d.ruleFrom (d.content slot).entry).map some := by
  unfold ruleAt
  rw [hslot, h]
  rfl

/-- At a valid slot there is something to read, be it a rule or not. -/
theorem ruleAt_ne_none {slot : SlotIndex} (h : d.isValid slot = true) :
    d.ruleAt slot ≠ .ok none := by
  intro hnone
  cases hslot : g.checkSlot slot with
  | error e => exact nomatch (ruleAt_of_checkSlot_eq_error hslot).symm.trans hnone
  | ok u =>
      rw [ruleAt_of_valid hslot h] at hnone
      cases hrule : d.ruleFrom (d.content slot).entry with
      | error e => exact nomatch hrule ▸ hnone
      | ok rule => exact nomatch hrule ▸ hnone

end Device

/-- Slots that are read as the entries of a rule hold this rule. -/
theorem Device.ruleAt_of_place {g : Geometry} {d : Device g} {rule : Rule} {p : Placement}
    {slot slot2 : SlotIndex} (hslot : g.checkSlot slot = .ok ()) (hplace : rule.place slot2 = .ok p)
    (hfirst : d.content slot = ⟨slot, true, p.primary⟩)
    (hsecond : ∀ next second, p.continuation = some (next, second) →
      g.checkSlot next = .ok () ∧ d.content next = ⟨next, true, second⟩) :
    d.ruleAt slot = .ok (some rule) := by
  have hvalid {i : SlotIndex} {e : Entry} (h : d.content i = ⟨i, true, e⟩) : d.isValid i = true := by
    rw [← valid_content, h]
  have hcontinuation : d.continuationOf p.primary = .ok (p.continuation.map Prod.snd) := by
    unfold continuationOf
    rw [Rule.next?_primary hplace]
    cases hp : p.continuation with
    | none => rfl
    | some q =>
        obtain ⟨hnext, hcontent⟩ := hsecond q.1 q.2 hp
        simp only [Option.map_some, hnext, hvalid hcontent, hcontent]
        rfl
  have hrule : d.ruleFrom p.primary = .ok rule := by
    unfold ruleFrom
    rw [hcontinuation]
    exact Rule.ofEntries_place hplace
  rw [ruleAt_of_valid hslot (hvalid hfirst), hfirst, hrule]
  rfl

namespace Classifier

open Session (Ends)

section Reads

variable {t : Table} {s : Table.State (Device t.geometry)}

theorem lookup_ends (hvalid : t.geometry.Valid) (hmarked : s.bus.Marked) (slot : SlotIndex) :
    Ends t.pollLimit (lookup? t slot) s
      (fun found s' => s'.bus.slots = s.bus.slots ∧ t.geometry.checkSlot slot = .ok () ∧
        found = if s.bus.isValid slot then some (s.bus.content slot) else none)
      (fun e s' => s'.bus.slots = s.bus.slots ∧
        (t.geometry.checkSlot slot = .error e ∨ e.isRetryable = true)) := by
  unfold lookup?
  refine (Table.findEntry_ends hvalid slot).map.mono ?_ (fun _ _ he => he) |>.catchMiss ?_ ?_
  · rintro _ s' ⟨found, rfl, hslot, h, hpresent, rfl⟩
    rw [if_pos (hmarked.present_iff.mp hpresent)]
    exact ⟨h, hslot, rfl⟩
  · rintro i s' (⟨hslot, -⟩ | ⟨hslot, h, ⟨-, habsent⟩ | he⟩)
    · exact nomatch (Geometry.isRefusal_of_checkSlot hslot).choose_spec
    · have hfree : ¬s.bus.isValid slot = true := fun h => habsent (hmarked.present_iff.mpr h)
      rw [if_neg hfree]
      exact Ends.pure ⟨h, hslot, rfl⟩
    · exact nomatch he
  · rintro e s' (⟨hslot, rfl⟩ | ⟨-, h, ⟨rfl, -⟩ | he⟩) hother
    · exact ⟨rfl, Or.inl hslot⟩
    · exact absurd rfl (hother _)
    · exact ⟨h, Or.inr he⟩

theorem readContinuation_ends (hvalid : t.geometry.Valid) (first : Entry) :
    Ends t.pollLimit (readContinuation t first) s
      (fun second s' => s'.bus.slots = s.bus.slots ∧ s.bus.continuationOf first = .ok second)
      (fun e s' => s'.bus.slots = s.bus.slots ∧
        (s.bus.continuationOf first = .error e ∨ e.isRetryable = true)) := by
  unfold readContinuation Device.continuationOf
  cases first.next? with
  | none => exact Ends.pure ⟨rfl, rfl⟩
  | some next =>
      refine (Table.readEntry_ends hvalid next).bind ?_ ?_
      · rintro e s' (⟨hnext, rfl⟩ | ⟨-, he, h⟩)
        · refine ⟨rfl, Or.inl ?_⟩
          simp only [hnext]
          rfl
        · exact ⟨h, Or.inr he⟩
      rintro _ s₁ ⟨hnext, rfl, h₁⟩
      simp only [Device.valid_content, hnext]
      cases hloaded : s.bus.isValid next with
      | true => exact Ends.pure ⟨h₁, rfl⟩
      | false => exact Ends.throw rfl ⟨h₁, Or.inl rfl⟩

end Reads

variable {c : Classifier} {l : Lock (Table.State (Device c.table.geometry))}

/-- A rule is read as the slots have it, or the hardware breaks the reading off. -/
theorem readRule_ends (hvalid : c.table.geometry.Valid) (hl : l.poisoned = false)
    (hmarked : l.content.bus.Marked) (slot : SlotIndex) :
    Transaction.Ends c.table.pollLimit (c.readRule slot) l
      (fun found s' => s'.bus.slots = l.content.bus.slots ∧
        l.content.bus.ruleAt slot = .ok found)
      (fun e s' => s'.bus.slots = l.content.bus.slots ∧
        (l.content.bus.ruleAt slot = .error e ∨ e.isRetryable = true)) := by
  refine .locked hl ((lookup_ends hvalid hmarked slot).bind ?_ ?_)
  · rintro e s' ⟨h, hslot | he⟩
    · exact ⟨h, Or.inl (Device.ruleAt_of_checkSlot_eq_error hslot)⟩
    · exact ⟨h, Or.inr he⟩
  rintro _ s₁ ⟨h₁, hslot, rfl⟩
  cases hloaded : l.content.bus.isValid slot with
  | false => exact Ends.pure ⟨h₁, Device.ruleAt_of_not_valid hslot hloaded⟩
  | true =>
      have hcontinuation := Device.continuationOf_congr h₁ (l.content.bus.content slot).entry
      rw [Device.ruleAt_of_valid hslot hloaded, Device.ruleFrom, ← hcontinuation]
      refine (readContinuation_ends hvalid (l.content.bus.content slot).entry).bind ?_ ?_
      · rintro e s' ⟨h, hsecond | he⟩
        · rw [hsecond]
          exact ⟨h.trans h₁, Or.inl rfl⟩
        · exact ⟨h.trans h₁, Or.inr he⟩
      rintro second s₂ ⟨h₂, hsecond⟩
      rw [hsecond]
      refine Ends.check (fun e h => ?_) fun rule h => Ends.pure ⟨h₂.trans h₁, ?_⟩
      · refine ⟨(Rule.isRefusal_of_ofEntries h).not_retryable, h₂.trans h₁, Or.inl ?_⟩
        exact congrArg (Except.map some) h
      · exact congrArg (Except.map some) h

/-- On a ready device reading a rule answers what the slots have. -/
theorem result_readRule (hvalid : c.table.geometry.Valid) (hl : l.poisoned = false)
    (hready : l.content.bus.Ready c.table.pollLimit) (hmarked : l.content.bus.Marked)
    (slot : SlotIndex) : (c.readRule slot).result l = l.content.bus.ruleAt slot := by
  unfold Transaction.result
  rcases (readRule_ends hvalid hl hmarked slot).cases with
    ⟨found, l', hrun, -, -, -, hrule⟩ | ⟨e, l', hrun, -, hnot, -, hrule | he⟩
  · rw [hrun, hrule]
  · rw [hrun, hrule]
  · exact nomatch he.symm.trans (hnot hready).2

/-- A rule that was read is in the slots, whether the device is ready or not. -/
theorem ruleAt_of_result_readRule (hvalid : c.table.geometry.Valid) (hl : l.poisoned = false)
    (hmarked : l.content.bus.Marked) {slot : SlotIndex} {found : Option Rule}
    (h : (c.readRule slot).result l = .ok found) : l.content.bus.ruleAt slot = .ok found := by
  unfold Transaction.result at h
  rcases (readRule_ends hvalid hl hmarked slot).cases with
    ⟨found', l', hrun, -, -, -, hrule⟩ | ⟨e, l', hrun, -⟩
  · rw [hrun] at h
    exact Except.ok.inj h ▸ hrule
  · rw [hrun] at h
    exact nomatch h

end Classifier

end Tcam
