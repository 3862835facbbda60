import Tcam.Classifier
import Tcam.Proofs.Rule.Fit
import Tcam.Proofs.Table.Refinement

/-!
# Operations on rules

What configuring and removing a rule leaves in the slots, and with which outcome.
A rule of two slots takes two loads or two flushes, and an argument that the
second of them refuses is refused after the first.
-/

namespace Tcam

/-! ## Loading a placement -/

/-- Refuses a second entry that a slot of the geometry would not keep as it is. -/
def Placement.checkSecond (p : Placement) (g : Geometry) : Except Error Unit :=
  match p.continuation with
  | some (_, second) => second.check g
  | none => .ok ()

/-- With window pages the second entry of every accepted rule fits. -/
theorem Rule.checkSecond_of_place {r : Rule} {slot2 : SlotIndex} {p : Placement} {g : Geometry}
    (h : r.place slot2 = .ok p) (hpage : g.hasWindowPage = true) : p.checkSecond g = .ok () := by
  unfold Placement.checkSecond
  cases hp : p.continuation with
  | none => rfl
  | some q => exact check_continuation h hpage hp

/-- The device once the second slot of the placement, if it has one, is loaded. -/
def Placement.prepared {g : Geometry} (p : Placement) (d : Device g) : Device g :=
  match p.continuation with
  | some (slot2, second) => { d with slots := d.loaded slot2 (.ofEntry second) g.loadOrder }
  | none => d

namespace Classifier

open Session (Ends)

section Loads

variable {t : Table} {s : Table.State (Device t.geometry)} {slot : SlotIndex} {p : Placement}

/-- The first half of a load. -/
def loadSecond {σ : Type} [RegisterBus σ] (t : Table) (p : Placement) : Session σ Unit :=
  match p.continuation with
  | some (slot2, second) => t.loadEntry slot2 second
  | none => pure ()

theorem load_eq {σ : Type} [RegisterBus σ] (t : Table) (slot : SlotIndex) (p : Placement) :
    load t slot p = (loadSecond t p >>= fun _ => t.loadEntry slot p.primary :
      Session σ Unit) := by
  unfold load loadSecond
  cases p.continuation with
  | none => rfl
  | some q => rfl

/-- The placement is loaded. -/
def Placed (p : Placement) (slot : SlotIndex) (s s' : Table.State (Device t.geometry)) : Prop :=
  p.checkSecond t.geometry = .ok () ∧ p.primary.check t.geometry = .ok () ∧
    s'.bus.slots = (p.prepared s.bus).loaded slot (.ofEntry p.primary) t.geometry.loadOrder

/-- The slots after an interrupted load of a placement. -/
def PartlyPlaced (p : Placement) (slot : SlotIndex) (s s' : Table.State (Device t.geometry)) :
    Prop :=
  (∃ slot2 second, p.continuation = some (slot2, second) ∧
      Table.PartlyLoaded s slot2 second s') ∨
    p.primary.check t.geometry = .ok () ∧
      Table.PartlyLoaded { s with bus := p.prepared s.bus } slot p.primary s'

/-- The load of a placement breaks off.  The first entry is checked when the
second slot has been loaded already. -/
def PlacementFails (p : Placement) (slot : SlotIndex) (s : Table.State (Device t.geometry))
    (e : Error) (s' : Table.State (Device t.geometry)) : Prop :=
  p.checkSecond t.geometry = .error e ∧ s'.bus.slots = s.bus.slots ∨
    p.checkSecond t.geometry = .ok () ∧
      (p.primary.check t.geometry = .error e ∧ s'.bus.slots = (p.prepared s.bus).slots ∨
        e.isRetryable = true ∧ PartlyPlaced p slot s s')

/-- The second slot of the placement is in the table. -/
def ContinuesInTable (g : Geometry) (p : Placement) : Prop :=
  ∀ slot2 second, p.continuation = some (slot2, second) → g.checkSlot slot2 = .ok ()

theorem loadSecond_ends (hvalid : t.geometry.Valid)
    (hcontinuation : ContinuesInTable t.geometry p) :
    Ends t.pollLimit (loadSecond t p) s
      (fun _ s' => p.checkSecond t.geometry = .ok () ∧ s'.bus.slots = (p.prepared s.bus).slots)
      (fun e s' => p.checkSecond t.geometry = .error e ∧ s'.bus.slots = s.bus.slots ∨
        p.checkSecond t.geometry = .ok () ∧ e.isRetryable = true ∧
          ∃ slot2 second, p.continuation = some (slot2, second) ∧
            Table.PartlyLoaded s slot2 second s') := by
  unfold loadSecond Placement.checkSecond Placement.prepared
  cases hp : p.continuation with
  | none => exact Ends.pure ⟨rfl, rfl⟩
  | some q =>
      obtain ⟨slot2, second⟩ := q
      have hslot2 := hcontinuation slot2 second hp
      refine (Table.loadEntry_ends hvalid slot2 second).mono (fun _ _ h => h.2) ?_
      rintro e s' (⟨hslot, -⟩ | ⟨-, hcheck, rfl⟩ | ⟨-, hcheck, he, h⟩)
      · exact nomatch hslot2.symm.trans hslot
      · exact Or.inl ⟨hcheck, rfl⟩
      · exact Or.inr ⟨hcheck, he, slot2, second, rfl, h⟩

theorem load_ends (hvalid : t.geometry.Valid) (hslot : t.geometry.checkSlot slot = .ok ())
    (hcontinuation : ContinuesInTable t.geometry p) :
    Ends t.pollLimit (load t slot p) s (fun _ => Placed p slot s) (PlacementFails p slot s) := by
  rw [load_eq]
  refine (loadSecond_ends hvalid hcontinuation).bind ?_ ?_
  · rintro e s' (h | ⟨hsecond, he, h⟩)
    · exact Or.inl h
    · exact Or.inr ⟨hsecond, Or.inr ⟨he, Or.inl h⟩⟩
  rintro _ s₁ ⟨hsecond, h₁⟩
  have hloaded (pages : List Page) : s₁.bus.loaded slot (.ofEntry p.primary) pages =
      (p.prepared s.bus).loaded slot (.ofEntry p.primary) pages :=
    Device.loaded_congr h₁ slot _ pages
  refine (Table.loadEntry_ends hvalid slot p.primary).mono ?_ ?_
  · exact fun _ s' h => ⟨hsecond, h.2.1, h.2.2.trans (hloaded _)⟩
  · rintro e s' (⟨h, -⟩ | ⟨-, hprimary, rfl⟩ | ⟨-, hprimary, he, done, hdone, h⟩)
    · exact nomatch hslot.symm.trans h
    · exact Or.inr ⟨hsecond, Or.inl ⟨hprimary, h₁⟩⟩
    · exact Or.inr ⟨hsecond, Or.inr ⟨he, Or.inr ⟨hprimary, done, hdone, h.trans (hloaded done)⟩⟩⟩

end Loads

/-! ## Configuring a rule -/

variable {c : Classifier} {slot slot1 slot2 : SlotIndex} {rule : Rule} {p : Placement}
  {l : Lock (Table.State (Device c.table.geometry))}

theorem plan_eq_ok (h : c.plan slot1 slot2 rule = .ok p) :
    c.table.geometry.checkSlot slot1 = .ok () ∧ rule.place slot2 = .ok p ∧
      c.checkContinuation slot1 p = .ok () := by
  unfold plan at h
  simp only [Checks.bind_eq_ok_iff, Checks.pure_eq_ok] at h
  obtain ⟨_, hslot, q, hplace, _, hcontinuation, hq⟩ := h
  obtain rfl := Except.ok.inj hq
  exact ⟨hslot, hplace, hcontinuation⟩

theorem continuesInTable_of_plan (h : c.plan slot1 slot2 rule = .ok p) :
    ContinuesInTable c.table.geometry p := by
  intro slot second hp
  obtain ⟨-, -, hcontinuation⟩ := plan_eq_ok h
  unfold checkContinuation at hcontinuation
  rw [hp] at hcontinuation
  obtain ⟨_, hslot, -⟩ := Checks.bind_eq_ok_iff.mp hcontinuation
  exact hslot

theorem isRefusal_of_checkContinuation {e : Error} (h : c.checkContinuation slot p = .error e) :
    e.IsRefusal := by
  unfold checkContinuation at h
  cases hp : p.continuation with
  | none =>
      rw [hp] at h
      exact nomatch h
  | some q =>
      simp only [hp] at h
      rcases Checks.bind_eq_error_iff.mp h with hslot | ⟨_, -, h⟩
      · exact Geometry.isRefusal_of_checkSlot hslot
      · rw [Checks.throw_eq_error, Checks.pure_eq_ok, Checks.refuse_eq_error_iff] at h
        rcases h with ⟨-, rfl⟩ | ⟨-, h⟩
        · exact ⟨_, rfl⟩
        · exact nomatch h

theorem isRefusal_of_plan {e : Error} (h : c.plan slot1 slot2 rule = .error e) : e.IsRefusal := by
  unfold plan at h
  rcases Checks.bind_eq_error_iff.mp h with hslot | ⟨_, -, h⟩
  · exact Geometry.isRefusal_of_checkSlot hslot
  rcases Checks.bind_eq_error_iff.mp h with hplace | ⟨_, -, h⟩
  · exact Rule.isRefusal_of_place hplace
  rcases Checks.bind_eq_error_iff.mp h with hcontinuation | ⟨_, -, h⟩
  · exact isRefusal_of_checkContinuation hcontinuation
  · exact nomatch h

theorem configure_ends (hvalid : c.table.geometry.Valid) (hl : l.poisoned = false)
    (slot1 slot2 : SlotIndex) (rule : Rule) :
    Transaction.Ends c.table.pollLimit (c.configure slot1 slot2 rule) l
      (fun cascaded s' => ∃ p, c.plan slot1 slot2 rule = .ok p ∧ cascaded = p.isCascaded ∧
        Placed p slot1 l.content s')
      (fun e s' => c.plan slot1 slot2 rule = .error e ∧ s' = l.content ∨
        ∃ p, c.plan slot1 slot2 rule = .ok p ∧ PlacementFails p slot1 l.content e s') := by
  unfold configure
  refine Transaction.Ends.check hl (fun e h => ?_) fun p hp => ?_
  · exact ⟨(isRefusal_of_plan h).not_retryable, Or.inl ⟨h, rfl⟩⟩
  have hload : Transaction.Ends c.table.pollLimit (load c.table slot1 p).locked l
      (fun _ => Placed p slot1 l.content) (PlacementFails p slot1 l.content) :=
    .locked hl (load_ends hvalid (plan_eq_ok hp).1 (continuesInTable_of_plan hp))
  refine hload.map.mono ?_ (fun e s' h => Or.inr ⟨p, hp, h⟩)
  rintro _ s' ⟨-, rfl, h⟩
  exact ⟨p, hp, rfl, h⟩

/-! ## Removing a rule -/

/-- The flushes of a rule's slots. -/
def flushEntries {σ : Type} [RegisterBus σ] (t : Table) (slot : SlotIndex) : Session σ Unit := do
  let first ← t.findEntry slot
  t.flushEntry slot
  match first.entry.next? with
  | some next => t.flushEntry next
  | none => pure ()

theorem removeRule_eq {σ : Type} [RegisterBus σ] (c : Classifier) (slot : SlotIndex) :
    c.removeRule slot = (flushEntries c.table slot : Session σ Unit).locked :=
  rfl

section Removal

variable {t : Table} {s : Table.State (Device t.geometry)}

/-- The slots of a rule are flushed. -/
def Removed (slot : SlotIndex) (s s' : Table.State (Device t.geometry)) : Prop :=
  t.geometry.checkSlot slot = .ok () ∧ s.bus.Present slot ∧
    (s.bus.next? slot = none ∧ s'.bus.slots = (s.bus.flushed slot).slots ∨
      ∃ next, s.bus.next? slot = some next ∧ t.geometry.checkSlot next = .ok () ∧
        s'.bus.slots = ((s.bus.flushed slot).flushed next).slots)

/-- The removal of a rule breaks off.  The reference to the second slot is checked
when the first slot has been flushed already. -/
def RemovalFails (slot : SlotIndex) (s : Table.State (Device t.geometry)) (e : Error)
    (s' : Table.State (Device t.geometry)) : Prop :=
  t.geometry.checkSlot slot = .error e ∧ s'.bus.slots = s.bus.slots ∨
    t.geometry.checkSlot slot = .ok () ∧
      (e = .notFound slot ∧ ¬s.bus.Present slot ∧ s'.bus.slots = s.bus.slots ∨
        s.bus.Present slot ∧ (∃ next, s.bus.next? slot = some next ∧
          t.geometry.checkSlot next = .error e ∧ s'.bus.slots = (s.bus.flushed slot).slots) ∨
        e.isRetryable = true ∧ (s'.bus.slots = s.bus.slots ∨
          s.bus.Present slot ∧ (s'.bus.slots = (s.bus.flushed slot).slots ∨
            ∃ next, s.bus.next? slot = some next ∧ t.geometry.checkSlot next = .ok () ∧
              s'.bus.slots = ((s.bus.flushed slot).flushed next).slots)))

theorem flushEntries_ends (hvalid : t.geometry.Valid) (slot : SlotIndex) :
    Ends t.pollLimit (flushEntries t slot) s (fun _ => Removed slot s) (RemovalFails slot s) := by
  unfold flushEntries
  refine (Table.findEntry_ends hvalid slot).bind ?_ ?_
  · rintro e s' (⟨hslot, rfl⟩ | ⟨hslot, h, ⟨he, habsent⟩ | he⟩)
    · exact Or.inl ⟨hslot, rfl⟩
    · exact Or.inr ⟨hslot, Or.inl ⟨he, habsent, h⟩⟩
    · exact Or.inr ⟨hslot, Or.inr (Or.inr ⟨he, Or.inl h⟩)⟩
  rintro first s₁ ⟨hslot, h₁, hpresent, rfl⟩
  have hflushed₁ : (s₁.bus.flushed slot).slots = (s.bus.flushed slot).slots :=
    Device.flushed_congr h₁ slot
  refine (Table.flushEntry_ends hvalid slot).bind ?_ ?_
  · rintro e s' (⟨h, -⟩ | ⟨-, he, h | h⟩)
    · exact nomatch hslot.symm.trans h
    · exact Or.inr ⟨hslot, Or.inr (Or.inr ⟨he, Or.inl (h.trans h₁)⟩)⟩
    · exact Or.inr ⟨hslot, Or.inr (Or.inr ⟨he, Or.inr ⟨hpresent, Or.inl (h.trans hflushed₁)⟩⟩)⟩
  rintro _ s₂ ⟨-, h₂⟩
  have hslots₂ : s₂.bus.slots = (s.bus.flushed slot).slots := h₂.trans hflushed₁
  cases hnext : (s.bus.content slot).entry.next? with
  | none => exact Ends.pure ⟨hslot, hpresent, Or.inl ⟨hnext, hslots₂⟩⟩
  | some next =>
      have hflushed₂ : (s₂.bus.flushed next).slots = ((s.bus.flushed slot).flushed next).slots :=
        Device.flushed_congr hslots₂ next
      refine (Table.flushEntry_ends hvalid next).mono ?_ ?_
      · rintro _ s' ⟨hcheck, h⟩
        exact ⟨hslot, hpresent, Or.inr ⟨next, hnext, hcheck, h.trans hflushed₂⟩⟩
      · rintro e s' (⟨hcheck, rfl⟩ | ⟨hcheck, he, h | h⟩)
        · exact Or.inr ⟨hslot, Or.inr (Or.inl ⟨hpresent, next, hnext, hcheck, hslots₂⟩)⟩
        · exact Or.inr ⟨hslot, Or.inr (Or.inr ⟨he, Or.inr ⟨hpresent, Or.inl (h.trans hslots₂)⟩⟩)⟩
        · exact Or.inr ⟨hslot, Or.inr (Or.inr ⟨he, Or.inr ⟨hpresent,
            Or.inr ⟨next, hnext, hcheck, h.trans hflushed₂⟩⟩⟩)⟩

end Removal

theorem removeRule_ends (hvalid : c.table.geometry.Valid) (hl : l.poisoned = false)
    (slot : SlotIndex) :
    Transaction.Ends c.table.pollLimit (c.removeRule slot) l (fun _ => Removed slot l.content)
      (RemovalFails slot l.content) := by
  rw [removeRule_eq]
  exact .locked hl (flushEntries_ends hvalid slot)

end Classifier

end Tcam
