import Tcam.Proofs.Classifier.Continuation
import Tcam.Proofs.Device.Footprint

/-!
# Which slots an operation changes

Every operation changes at most the slots that it names, that its rule needs, or in
which the removed rule continued, whether it succeeds or fails (`changes_within`).
This is known of each operation from what it leaves behind, in any state of the
device, and of a transaction by induction on its requests.
-/

namespace Tcam

/-! ## What operations name -/

/-- The request may change the slot. -/
def Request.Touches : Request → SlotIndex → Prop
  | .flushAll, _ => True
  | .flushEntry slot, i | .loadEntry slot _, i | .addPort slot _, i | .removePort slot _, i =>
    i = slot
  | .readEntry _, _ | .getNextEntry _, _ | .findEntry _, _ => False

/-- The request flushes the slot. -/
def Request.Flushes : Request → SlotIndex → Prop
  | .flushAll, _ => True
  | .flushEntry slot, i => i = slot
  | .loadEntry _ _, _ | .addPort _ _, _ | .removePort _ _, _ => False
  | .readEntry _, _ | .getNextEntry _, _ | .findEntry _, _ => False

/-- Placed with this second slot, the rule takes it. -/
def Rule.CascadesInto (rule : Rule) (slot2 : SlotIndex) : Prop :=
  ∃ p, rule.place slot2 = .ok p ∧ p.isCascaded = true

namespace Operation

variable {g : Geometry}

/-- Begun with this device, the operation may change the slot. -/
def Touches (d : Device g) : Operation → SlotIndex → Prop
  | .table r, i => r.Touches i
  | .transaction requests, i => ∃ r ∈ requests, r.Touches i
  | .rule (.configure slot1 slot2 r), i => i = slot1 ∨ i = slot2 ∧ r.CascadesInto slot2
  | .rule (.removeRule slot), i => d.Flushes slot i
  | .rule (.addPort slot _), i | .rule (.removePort slot _), i => i = slot
  | .rule .flushAll, _ => True
  | .readRule _, _ => False

/-- Begun with this device, the operation may flush the slot. -/
def Flushes (d : Device g) : Operation → SlotIndex → Prop
  | .table r, i => r.Flushes i
  | .transaction requests, i => ∃ r ∈ requests, r.Flushes i
  | .rule (.removeRule slot), i => d.Flushes slot i
  | .rule .flushAll, _ => True
  | .rule (.configure _ _ _), _ | .rule (.addPort _ _), _ | .rule (.removePort _ _), _ => False
  | .readRule _, _ => False

end Operation

/-! ## Requests -/

namespace Table

open Session (Ends)
open Device (ChangesWithin)

variable {t : Table} {α : Type}

theorem Reads.changesWithin {m : Session (Device t.geometry) α} (h : t.Reads m)
    (touched flushed : SlotIndex → Prop) : t.Within (ChangesWithin touched flushed) m :=
  h.mono fun _ _ => .of_slots

variable (hvalid : t.geometry.Valid)

include hvalid

theorem changesWithin_flushAll :
    t.Within (ChangesWithin (fun _ => True) (fun _ => True)) t.flushAll := by
  refine fun s => (flushAll_ends hvalid).mono (fun _ _ => .of_flushedAll) ?_
  rintro e s' ⟨-, h | h⟩
  · exact .of_slots h
  · exact .of_flushedAll h

theorem changesWithin_flushEntry (slot : SlotIndex) :
    t.Within (ChangesWithin (fun i => i = slot) (fun i => i = slot)) (t.flushEntry slot) := by
  refine fun s => (flushEntry_ends hvalid slot).mono (fun _ _ h => .of_flushed h.2) ?_
  rintro e s' (⟨-, rfl⟩ | ⟨-, -, h | h⟩)
  · exact .refl _
  · exact .of_slots h
  · exact .of_flushed h

theorem changesWithin_loadEntry (slot : SlotIndex) (entry : Entry) :
    t.Within (ChangesWithin (fun i => i = slot) (fun _ => False)) (t.loadEntry slot entry) := by
  refine fun s => (loadEntry_ends hvalid slot entry).mono
    (fun _ _ h => .of_loaded List.prefix_rfl h.2.2) ?_
  rintro e s' (⟨-, rfl⟩ | ⟨-, -, rfl⟩ | ⟨-, -, -, done, hdone, h⟩)
  · exact .refl _
  · exact .refl _
  · exact .of_loaded hdone h

/-- The lookup changes nothing, and the load that follows it no other slot. -/
theorem changesWithin_updatePorts (slot : SlotIndex) (port : Octet)
    (update : Masked PortVector → Masked PortVector) :
    t.Within (ChangesWithin (fun i => i = slot) (fun _ => False))
      (t.updatePorts slot port update) := by
  have htrans (d₁ d₂ d₃ : Device t.geometry) :
      ChangesWithin (fun i => i = slot) (fun _ => False) d₁ d₂ →
      ChangesWithin (fun i => i = slot) (fun _ => False) d₂ d₃ →
      ChangesWithin (fun i => i = slot) (fun _ => False) d₁ d₃ := .trans
  have hlookup := (reads_findEntry hvalid slot).changesWithin (fun i => i = slot) (fun _ => False)
  unfold updatePorts
  split
  · exact fun s => ⟨fun hready => ⟨hready, rfl⟩, .refl s.bus⟩
  · exact hlookup.bind htrans fun _ => changesWithin_loadEntry hvalid slot _

theorem changesWithin_request (r : Request) :
    t.Within (ChangesWithin r.Touches r.Flushes) (r.session t) := by
  cases r with
  | flushAll => exact (changesWithin_flushAll hvalid).map _
  | flushEntry slot => exact (changesWithin_flushEntry hvalid slot).map _
  | loadEntry slot entry => exact (changesWithin_loadEntry hvalid slot entry).map _
  | readEntry slot => exact ((reads_readEntry hvalid slot).changesWithin _ _).map _
  | getNextEntry slot => exact ((reads_getNextEntry hvalid slot).changesWithin _ _).map _
  | findEntry slot => exact ((reads_findEntry hvalid slot).changesWithin _ _).map _
  | addPort slot port => exact (changesWithin_updatePorts hvalid slot port _).map _
  | removePort slot port => exact (changesWithin_updatePorts hvalid slot port _).map _

/-- A run of requests changes what one of them changes. -/
theorem changesWithin_requests (requests : List Request) :
    t.Within (ChangesWithin (fun i => ∃ r ∈ requests, r.Touches i)
      (fun i => ∃ r ∈ requests, r.Flushes i)) (requests.mapM (Request.session t)) := by
  induction requests with
  | nil => exact fun s => Ends.pure (.refl s.bus)
  | cons r rest ih =>
      rw [List.mapM_cons]
      -- What the first request and what the others change is within the whole.
      have hmono {touched flushed : SlotIndex → Prop} (htouched : ∀ i, touched i →
          ∃ r' ∈ r :: rest, r'.Touches i) (hflushed : ∀ i, flushed i →
          ∃ r' ∈ r :: rest, r'.Flushes i) {β : Type} {m : Session (Device t.geometry) β}
          (hm : t.Within (ChangesWithin touched flushed) m) :
          t.Within (ChangesWithin (fun i => ∃ r' ∈ r :: rest, r'.Touches i)
            (fun i => ∃ r' ∈ r :: rest, r'.Flushes i)) m :=
        hm.mono fun _ _ h => h.mono htouched hflushed
      have hfirst := hmono (fun _ hi => ⟨r, List.mem_cons_self, hi⟩)
        (fun _ hi => ⟨r, List.mem_cons_self, hi⟩) (changesWithin_request hvalid r)
      have hrest := hmono (fun _ ⟨r', hr', hi⟩ => ⟨r', List.mem_cons_of_mem r hr', hi⟩)
        (fun _ ⟨r', hr', hi⟩ => ⟨r', List.mem_cons_of_mem r hr', hi⟩) ih
      exact hfirst.bind (fun _ _ _ => .trans) fun _ => hrest.map _

end Table

/-! ## Rules -/

namespace Classifier

open Session (Ends)
open Device (ChangesWithin)

section Sessions

variable {t : Table} (hvalid : t.geometry.Valid)

include hvalid

/-- The second slot is loaded if there is one, then the first. -/
theorem changesWithin_load (slot : SlotIndex) (p : Placement) :
    t.Within (ChangesWithin (fun i => i = slot ∨ ∃ entry, p.continuation = some (i, entry))
      (fun _ => False)) (load t slot p) := by
  rw [load_eq]
  refine Table.Within.bind (fun _ _ _ => .trans) ?_ fun _ => ?_
  · unfold loadSecond
    cases hp : p.continuation with
    | none => exact fun s => Ends.pure (.refl s.bus)
    | some q =>
        have hsecond (i : SlotIndex) (hi : i = q.1) :
            i = slot ∨ ∃ entry, some q = some (i, entry) :=
          Or.inr ⟨q.2, by rw [hi]⟩
        exact (Table.changesWithin_loadEntry hvalid q.1 q.2).mono
          fun _ _ h => h.mono hsecond fun _ => id
  · exact (Table.changesWithin_loadEntry hvalid slot p.primary).mono
      fun _ _ h => h.mono (fun _ => Or.inl) fun _ => id

/-- The slot is flushed, and the slot in which it continues as the table has it. -/
theorem changesWithin_flushEntries (slot : SlotIndex) :
    t.Within (fun d => ChangesWithin (d.Flushes slot) (d.Flushes slot) d)
      (flushEntries t slot) := by
  intro s
  have hfirst {d' : Device t.geometry} (h : d'.slots = (s.bus.flushed slot).slots) :
      ChangesWithin (s.bus.Flushes slot) (s.bus.Flushes slot) s.bus d' :=
    (ChangesWithin.of_flushed h).mono (fun _ => Or.inl) (fun _ => Or.inl)
  have hboth {d' : Device t.geometry} {next : SlotIndex} (hnext : s.bus.next? slot = some next)
      (h : d'.slots = ((s.bus.flushed slot).flushed next).slots) :
      ChangesWithin (s.bus.Flushes slot) (s.bus.Flushes slot) s.bus d' := by
    have hin (i : SlotIndex) (hi : i = next) : s.bus.Flushes slot i :=
      Or.inr (hi ▸ hnext)
    exact (hfirst rfl).trans ((ChangesWithin.of_flushed h).mono hin hin)
  refine (flushEntries_ends hvalid slot).mono ?_ ?_
  · rintro _ s' ⟨-, -, ⟨-, h⟩ | ⟨next, hnext, -, h⟩⟩
    · exact hfirst h
    · exact hboth hnext h
  · rintro e s' (⟨-, h⟩ | ⟨-, ⟨-, -, h⟩ | ⟨-, next, -, -, h⟩ | ⟨-, h | ⟨-, hflushed⟩⟩⟩)
    · exact .of_slots h
    · exact .of_slots h
    · exact hfirst h
    · exact .of_slots h
    · rcases hflushed with h | ⟨next, hnext, -, h⟩
      · exact hfirst h
      · exact hboth hnext h

theorem reads_readContinuation (first : Entry) : t.Reads (readContinuation t first) :=
  fun _ => (readContinuation_ends hvalid first).mono (fun _ _ h => h.1) (fun _ _ h => h.1)

theorem reads_fetchRule (slot : SlotIndex) : t.Reads (fetchRule t slot) := by
  have htrans (d₁ d₂ d₃ : Device t.geometry) (h : d₂.slots = d₁.slots) (h' : d₃.slots = d₂.slots) :
      d₃.slots = d₁.slots :=
    h'.trans h
  have hpure {α : Type} (a : α) : t.Reads (pure a) := fun _ => Ends.pure rfl
  have hlookup : t.Reads (lookup? t slot) :=
    ((Table.reads_findEntry hvalid slot).map some).catchMiss htrans (hpure none)
  refine hlookup.bind htrans fun found => ?_
  cases found with
  | none => exact hpure none
  | some first =>
      refine (reads_readContinuation hvalid first.entry).bind htrans fun second => ?_
      exact .check (fun _ => rfl) (fun _ => Rule.isRefusal_of_ofEntries) fun rule =>
        hpure (some rule)

end Sessions

/-! ## Operations -/

variable {c : Classifier} {l : Lock (Table.State (Device c.table.geometry))}

/-- The session of an operation changes at most what the operation may change. -/
theorem changesWithin_script (hvalid : c.table.geometry.Valid) {op : Operation}
    {m : Script Answer} (h : c.script op = .ok m) :
    c.table.Within (fun d => ChangesWithin (op.Touches d) (op.Flushes d) d) (m _) := by
  cases op with
  | table r =>
      obtain rfl := Except.ok.inj h
      exact (Table.changesWithin_request hvalid r).map Answer.table
  | transaction requests =>
      obtain rfl := Except.ok.inj h
      exact (Table.changesWithin_requests hvalid requests).map Answer.transaction
  | rule r =>
      cases r with
      | configure slot1 slot2 rule =>
          obtain ⟨p, hp, rfl⟩ := Checks.map_eq_ok_iff.mp h
          obtain ⟨-, hplace, -⟩ := plan_eq_ok hp
          refine ((changesWithin_load hvalid slot1 p).mono fun _ _ hd => hd.mono ?_ ?_).map _
          · rintro i (hi | ⟨entry, hentry⟩)
            · exact Or.inl hi
            · obtain ⟨rfl, -⟩ := Rule.next?_continuation hplace hentry
              exact Or.inr ⟨rfl, p, hplace, by rw [Placement.isCascaded, hentry]; rfl⟩
          · exact fun _ => id
      | removeRule slot =>
          obtain rfl := Except.ok.inj h
          exact (changesWithin_flushEntries hvalid slot).map _
      | addPort slot port =>
          obtain ⟨_, -, rfl⟩ := Checks.map_eq_ok_iff.mp h
          exact (Table.changesWithin_updatePorts hvalid slot port _).map _
      | removePort slot port =>
          obtain ⟨_, -, rfl⟩ := Checks.map_eq_ok_iff.mp h
          exact (Table.changesWithin_updatePorts hvalid slot port _).map _
      | flushAll =>
          obtain rfl := Except.ok.inj h
          exact (Table.changesWithin_flushAll hvalid).map _
  | readRule slot =>
      obtain rfl := Except.ok.inj h
      exact ((reads_fetchRule hvalid slot).mono fun _ _ => .of_slots).map _

/-- However an operation ends, it has changed at most the slots that it may change.
Without window pages in use, a window page that it has changed was flushed. -/
theorem changes_within (hgeometry : c.table.geometry.validate = .ok ()) (op : Operation)
    (l : Lock (Table.State (Device c.table.geometry))) :
    ChangesWithin (op.Touches l.content.bus) (op.Flushes l.content.bus) l.content.bus
      ((c.carryOut op).after l).content.bus := by
  have hvalid := Geometry.validate_eq_ok_iff.mp hgeometry
  cases hl : l.poisoned with
  | true =>
      rw [after_of_poisoned c op hl]
      exact .refl l.content.bus
  | false =>
      let P (s' : Table.State (Device c.table.geometry)) : Prop :=
        ChangesWithin (op.Touches l.content.bus) (op.Flushes l.content.bus) l.content.bus s'.bus
      have hends : Transaction.Ends c.table.pollLimit (c.carryOut op) l (fun _ => P) (fun _ => P) :=
        carryOut_ends hl (fun _ _ => .refl l.content.bus)
          fun m h => changesWithin_script hvalid h l.content
      exact hends.after.2

/-- The egress table refuses the rule when the second slot has been loaded already.
Only that slot has changed, and no window page. -/
theorem changes_within_egressSample :
    let op : Operation := .rule (.configure 3#16 4#16 urgentSample)
    let d := Device.fresh egressSample.table.geometry
    let d' := ((egressSample.carryOut op).after (.ofContent (.ofBus d))).content.bus
    egressSample.table.geometry.validate = .ok () ∧
      d.isValid 4#16 = false ∧ d'.isValid 4#16 = true ∧
      (∀ i, i ≠ 3#16 → i ≠ 4#16 → d'.slot? i = d.slot? i) ∧
      ∀ i, d'.windowPage i = d.windowPage i := by
  intro op d d'
  have hchange : ChangesWithin (op.Touches d) (op.Flushes d) d d' :=
    changes_within rfl op (.ofContent (.ofBus d))
  refine ⟨rfl, by decide +kernel, by decide +kernel, fun i h3 h4 => ?_, fun i => ?_⟩
  · refine hchange.slot i ?_
    rintro (h | ⟨h, -⟩)
    · exact h3 h
    · exact h4 h
  · exact (hchange.window rfl i).resolve_right fun h => h.1

end Classifier

end Tcam
