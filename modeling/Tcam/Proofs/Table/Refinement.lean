import Tcam.Proofs.Device.Evolution
import Tcam.Proofs.SlotMap

/-!
# A table behaves like a slot map

The slots of a table represent a map if every slot with an entry holds the image
of the entry and every other slot is flushed.  Each operation keeps this
relation and gives the reply that the map gives, so a run of requests cannot
tell a table from a map (`replies_eq`).
-/

namespace Tcam

namespace SlotMap

variable {g : Geometry} {m : SlotMap} {d d' : Device g}

/-- The image of a slot with this content. -/
def imageOf : Option Entry → SlotImage
  | none => .empty
  | some entry => .ofEntry entry

/-- The slots of the device hold the entries of the map and nothing else. -/
structure Represents (m : SlotMap) (d : Device g) : Prop where
  image : ∀ slot, slot ≤ g.maxIndex → d.slot? slot = some (imageOf (m slot))
  fits : ∀ slot entry, m slot = some entry →
    g.checkSlot slot = .ok () ∧ entry.check g = .ok ()

theorem represents_empty (h : d.slots = Vector.replicate _ .empty) : empty.Represents d where
  image slot hslot := by
    have hlt := BitVec.le_def.mp hslot
    rw [Device.slot?, h, Vector.getElem?_replicate, if_pos (by omega)]
    rfl
  fits _ _ h := nomatch h

theorem Represents.of_slots (h : m.Represents d) (hslots : d'.slots = d.slots) :
    m.Represents d' where
  image slot hslot := by
    rw [Device.slot?_congr hslots]
    exact h.image slot hslot
  fits := h.fits

/-! ## Changing slots -/

/-- Replacing the image of a slot by the image of what the map has there then. -/
theorem Represents.put (h : m.Represents d) {slot : SlotIndex} {content : Option Entry}
    (hcontent : ∀ entry, content = some entry →
      g.checkSlot slot = .ok () ∧ entry.check g = .ok ())
    {f : SlotImage → SlotImage} (hf : f (imageOf (m slot)) = imageOf content)
    (hslots : d'.slots = (d.updateSlot slot f).slots) : (m.put slot content).Represents d' where
  image i hi := by
    rw [Device.slot?_congr hslots, Device.slot?_updateSlot]
    unfold SlotMap.put
    by_cases heq : i = slot
    · subst heq
      rw [if_pos rfl, if_pos rfl, h.image i hi, Option.map_some, hf]
    · rw [if_neg heq, if_neg heq, h.image i hi]
  fits i entry hentry := by
    unfold SlotMap.put at hentry
    by_cases heq : i = slot
    · rw [if_pos heq] at hentry
      exact heq ▸ hcontent entry hentry
    · rw [if_neg heq] at hentry
      exact h.fits i entry hentry

theorem Represents.flushed (h : m.Represents d) {slot : SlotIndex}
    (hslots : d'.slots = (d.flushed slot).slots) :
    (m.put slot none).Represents d' :=
  h.put (fun _ h => nomatch h) rfl hslots

/-- A slot has nothing in the window page if the table does not have that page. -/
theorem Represents.window_eq (h : m.Represents d) (hpage : g.hasWindowPage = false)
    (slot : SlotIndex) : (imageOf (m slot)).window = 0#(16 * 26) := by
  cases hentry : m slot with
  | none => rfl
  | some entry => exact SlotImage.window_ofEntry (h.fits slot entry hentry).2 hpage

theorem Represents.loaded (h : m.Represents d) {slot : SlotIndex} {entry : Entry}
    (hslot : g.checkSlot slot = .ok ()) (hentry : entry.check g = .ok ())
    (hslots : d'.slots = d.loaded slot (.ofEntry entry) g.loadOrder) :
    (m.put slot (some entry)).Represents d' := by
  refine h.put ?_ ?_ hslots
  · rintro _ ⟨⟩
    exact ⟨hslot, hentry⟩
  · unfold Geometry.loadOrder
    -- A load without a window page leaves the old one, which is empty as well.
    cases hpage : g.hasWindowPage with
    | true => rfl
    | false =>
        have hwindow : (imageOf (m slot)).window = (SlotImage.ofEntry entry).window :=
          (h.window_eq hpage slot).trans (SlotImage.window_ofEntry hentry hpage).symm
        change (⟨_, (imageOf (m slot)).window, _⟩ : SlotImage) = SlotImage.ofEntry entry
        rw [hwindow]
        rfl

/-! ## Looking at slots -/

theorem Represents.content_eq (h : m.Represents d) {slot : SlotIndex} (hslot : slot ≤ g.maxIndex) :
    d.content slot = ⟨slot, (m slot).isSome, (m slot).getD default⟩ := by
  have hshown : d.shown slot = imageOf (m slot) := by
    unfold Device.shown
    rw [h.image slot hslot, Option.getD_some]
    cases hpage : g.hasWindowPage with
    | true => rfl
    | false =>
        have hwindow : (imageOf (m slot)).window = SlotImage.empty.window :=
          h.window_eq hpage slot
        change ({ imageOf (m slot) with window := SlotImage.empty.window } : SlotImage) = _
        rw [← hwindow]
  rw [Device.content, hshown]
  cases hentry : m slot with
  | none =>
      rw [imageOf, SlotImage.isValid_empty, SlotImage.entry_empty]
      rfl
  | some entry =>
      obtain ⟨hkey, haction, -⟩ := Entry.check_eq_ok_iff.mp (h.fits slot entry hentry).2
      rw [imageOf, SlotImage.isValid_ofEntry, SlotImage.entry_ofEntry hkey haction]
      rfl

theorem Represents.isValid_iff (h : m.Represents d) {slot : SlotIndex} :
    d.isValid slot = true ↔ (m slot).isSome = true := by
  by_cases hslot : slot ≤ g.maxIndex
  · rw [Device.isValid, h.image slot hslot, Option.any_some]
    cases m slot with
    | none => simp [imageOf]
    | some entry => simp [imageOf]
  · refine iff_of_false (fun hvalid => hslot (Device.le_maxIndex_of_isValid hvalid)) fun hsome => ?_
    obtain ⟨entry, hentry⟩ := Option.isSome_iff_exists.mp hsome
    exact hslot (Geometry.checkSlot_eq_ok_iff.mp (h.fits slot entry hentry).1).2

theorem Represents.marked (h : m.Represents d) : d.Marked := by
  intro slot image himage
  rw [h.image slot (Device.le_maxIndex_of_slot? himage)] at himage
  obtain rfl := Option.some.inj himage
  cases m slot with
  | none => exact Or.inr Device.sentinel_empty
  | some entry => exact Or.inl (SlotImage.sentinel_ofEntry entry)

theorem Represents.present_iff (h : m.Represents d) {slot : SlotIndex} :
    d.Present slot ↔ (m slot).isSome = true :=
  h.marked.present_iff.trans h.isValid_iff

/-- A search starts at the slots that come after the given one. -/
theorem searchStart_le_iff {slot i : SlotIndex} (hslot : slot ≤ g.maxIndex)
    (hi : g.minIndex ≤ i) : Device.searchStart g slot ≤ i.toNat ↔ Follows g slot i := by
  unfold Follows
  have hmin := BitVec.le_def.mp hi
  by_cases hlast : slot = g.maxIndex
  · rw [hlast, Device.searchStart_maxIndex]
    exact iff_of_true hmin (Or.inl rfl)
  · have hlt : slot < g.maxIndex := by
      bv_omega
    rw [Device.searchStart_of_lt hlt, BitVec.lt_def]
    constructor
    · intro hle
      exact Or.inr (by omega)
    · rintro (h | h)
      · exact absurd h hlast
      · omega

theorem Represents.finds_iff (h : m.Represents d) {slot i : SlotIndex}
    (hslot : slot ≤ g.maxIndex) : d.Finds slot i ↔ m.next? g slot = some i := by
  have hstart {j : SlotIndex} (hj : (m j).isSome = true) :
      Device.searchStart g slot ≤ j.toNat ↔ Follows g slot j := by
    obtain ⟨entry, hentry⟩ := Option.isSome_iff_exists.mp hj
    exact searchStart_le_iff hslot (Geometry.checkSlot_eq_ok_iff.mp (h.fits j entry hentry).1).1
  unfold Device.Finds
  rw [Device.firstAfter?_eq_some_iff, next?_eq_some_iff, h.isValid_iff]
  constructor
  · rintro ⟨⟨hle, hsome, hfirst⟩, -⟩
    refine ⟨hsome, (hstart hsome).mp hle, fun j hj hfollows => BitVec.not_lt.mp fun hlt => ?_⟩
    have hnot := hfirst j ((hstart hj).mpr hfollows) hlt
    rw [h.isValid_iff.mpr hj] at hnot
    exact nomatch hnot
  · rintro ⟨hsome, hfollows, hleast⟩
    refine ⟨⟨(hstart hsome).mpr hfollows, hsome, fun j hj hlt => ?_⟩, h.marked.not_hidden i⟩
    rw [Bool.eq_false_iff]
    intro hvalid
    have hj' := h.isValid_iff.mp hvalid
    exact BitVec.not_le.mpr hlt (hleast j hj' ((hstart hj').mp hj))

end SlotMap

/-! ## Runs -/

/-- A request as an operation on the locked table. -/
def Request.session {σ : Type} [RegisterBus σ] (t : Table) : Request → Session σ Reply
  | .flushAll => do
    t.flushAll
    return .done
  | .flushEntry slot => do
    t.flushEntry slot
    return .done
  | .loadEntry slot entry => do
    t.loadEntry slot entry
    return .done
  | .readEntry slot => do return .found (← t.readEntry slot)
  | .getNextEntry slot => do return .found (← t.getNextEntry slot)
  | .findEntry slot => do return .found (← t.findEntry slot)
  | .addPort slot port => do
    t.addPort slot port
    return .done
  | .removePort slot port => do
    t.removePort slot port
    return .done

namespace Table

open Session (Ends)

/-- Serves a request with the table locked. -/
def serve {σ : Type} [RegisterBus σ] (t : Table) (r : Request) : Transaction σ Reply :=
  (r.session t).locked

variable {t : Table} {m : SlotMap} {l : Lock (Table.State (Device t.geometry))}

/-- The table is in working order and its slots represent the map. -/
structure Simulates (l : Lock (Table.State (Device t.geometry))) (m : SlotMap) : Prop where
  unpoisoned : l.poisoned = false
  ready : l.content.bus.Ready t.pollLimit
  represents : m.Represents l.content.bus

/-- The table and the map give the same reply and are related afterwards. -/
def Agree {α : Type} :
    EStateM.Result Error (Lock (Table.State (Device t.geometry))) α →
      EStateM.Result Error SlotMap α → Prop
  | .ok a l, .ok b m => a = b ∧ Simulates l m
  | .error e l, .error e' m => e = e' ∧ Simulates l m
  | _, _ => False

/-- An operation on a ready table is compared with its counterpart on the map by
its results and by the errors that are not the fault of the hardware. -/
theorem agree_of_ends {α : Type} {op : Session (Device t.geometry) α}
    {Q : α → Table.State (Device t.geometry) → Prop}
    {E : Error → Table.State (Device t.geometry) → Prop} {result : EStateM.Result Error SlotMap α}
    (hsim : Simulates l m) (hends : Ends t.pollLimit op l.content Q E)
    (hok : ∀ a s', Q a s' → ∃ m', result = .ok a m' ∧ m'.Represents s'.bus)
    (herror : ∀ e s', E e s' → e.isRetryable = false →
      ∃ m', result = .error e m' ∧ m'.Represents s'.bus) :
    Agree (op.locked l) result := by
  have hlocked : Transaction.Ends t.pollLimit op.locked l
      (fun a s' => ∃ m', result = .ok a m' ∧ m'.Represents s'.bus)
      (fun e s' => e.isRetryable = false → ∃ m', result = .error e m' ∧ m'.Represents s'.bus) :=
    .locked hsim.unpoisoned (hends.mono hok herror)
  rcases hlocked.cases with ⟨a, l', hrun, hl, hready, m', rfl, hrep⟩ |
    ⟨e, l', hrun, hl, hready, hrep⟩
  · rw [hrun]
    exact ⟨rfl, hl, hready hsim.ready, hrep⟩
  · obtain ⟨hready', hcause⟩ := hready hsim.ready
    obtain ⟨m', rfl, hrep'⟩ := hrep hcause
    rw [hrun]
    exact ⟨rfl, hl, hready', hrep'⟩

variable (hvalid : t.geometry.Valid) (hsim : Simulates l m)

include hvalid hsim

theorem agree_flushAll :
    Agree (t.serve .flushAll l) (SlotMap.serve t.geometry .flushAll m) := by
  refine agree_of_ends hsim ((flushAll_ends hvalid).map (h := fun _ => Reply.done)) ?_ ?_
  · rintro _ s' ⟨-, rfl, h⟩
    exact ⟨.empty, rfl, SlotMap.represents_empty h⟩
  · rintro e s' ⟨he, -⟩ hcause
    exact nomatch he.symm.trans hcause

theorem agree_flushEntry (slot : SlotIndex) :
    Agree (t.serve (.flushEntry slot) l) (SlotMap.serve t.geometry (.flushEntry slot) m) := by
  refine agree_of_ends hsim ((flushEntry_ends hvalid slot).map (h := fun _ => Reply.done)) ?_ ?_
  · rintro _ s' ⟨-, rfl, hslot, h⟩
    simp only [SlotMap.serve, hslot]
    exact ⟨m.put slot none, rfl, hsim.represents.flushed h⟩
  · rintro e s' (⟨hslot, rfl⟩ | ⟨-, he, -⟩) hcause
    · simp only [SlotMap.serve, hslot]
      exact ⟨m, rfl, hsim.represents⟩
    · cases he.symm.trans hcause

theorem agree_loadEntry (slot : SlotIndex) (entry : Entry) :
    Agree (t.serve (.loadEntry slot entry) l)
      (SlotMap.serve t.geometry (.loadEntry slot entry) m) := by
  refine agree_of_ends hsim
    ((loadEntry_ends hvalid slot entry).map (h := fun _ => Reply.done)) ?_ ?_
  · rintro _ s' ⟨-, rfl, hslot, hentry, h⟩
    simp only [SlotMap.serve, hslot, hentry]
    exact ⟨m.put slot (some entry), rfl, hsim.represents.loaded hslot hentry h⟩
  · rintro e s' (⟨hslot, rfl⟩ | ⟨hslot, hentry, rfl⟩ | ⟨-, -, he, -⟩) hcause
    · simp only [SlotMap.serve, hslot]
      exact ⟨m, rfl, hsim.represents⟩
    · simp only [SlotMap.serve, hslot, hentry]
      exact ⟨m, rfl, hsim.represents⟩
    · cases he.symm.trans hcause

theorem agree_readEntry (slot : SlotIndex) :
    Agree (t.serve (.readEntry slot) l) (SlotMap.serve t.geometry (.readEntry slot) m) := by
  refine agree_of_ends hsim ((readEntry_ends hvalid slot).map (h := Reply.found)) ?_ ?_
  · rintro _ s' ⟨_, rfl, hslot, rfl, h⟩
    simp only [SlotMap.serve, hslot]
    refine ⟨m, ?_, hsim.represents.of_slots h⟩
    rw [hsim.represents.content_eq (Geometry.checkSlot_eq_ok_iff.mp hslot).2]
    rfl
  · rintro e s' (⟨hslot, rfl⟩ | ⟨-, he, -⟩) hcause
    · simp only [SlotMap.serve, hslot]
      exact ⟨m, rfl, hsim.represents⟩
    · cases he.symm.trans hcause

theorem agree_getNextEntry (slot : SlotIndex) :
    Agree (t.serve (.getNextEntry slot) l) (SlotMap.serve t.geometry (.getNextEntry slot) m) := by
  refine agree_of_ends hsim ((getNextEntry_ends hvalid slot).map (h := Reply.found)) ?_ ?_
  · rintro _ s' ⟨_, rfl, hstart, h, i, hfinds, rfl⟩
    have hnext := (hsim.represents.finds_iff (checkStart_eq_ok_iff.mp hstart)).mp hfinds
    refine ⟨m, ?_, hsim.represents.of_slots h⟩
    rw [SlotMap.serve_getNextEntry_of_accepted (checkStart_eq_ok_iff.mp hstart), hnext,
      hsim.represents.content_eq hfinds.inRange.2, (SlotMap.next?_eq_some_iff.mp hnext).1]
  · rintro e s' (⟨hstart, rfl⟩ | ⟨hstart, h, ⟨rfl, hnone⟩ | he⟩) hcause
    · refine ⟨m, ?_, hsim.represents⟩
      obtain ⟨hlong, rfl⟩ := checkStart_eq_error_iff.mp hstart
      simp only [SlotMap.serve]
      rw [if_pos hlong]
      rfl
    · refine ⟨m, ?_, hsim.represents.of_slots h⟩
      rw [SlotMap.serve_getNextEntry_of_accepted (checkStart_eq_ok_iff.mp hstart)]
      cases hnext : SlotMap.next? t.geometry m slot with
      | none => rfl
      | some i =>
          have hfinds := (hsim.represents.finds_iff (checkStart_eq_ok_iff.mp hstart)).mpr hnext
          exact absurd hfinds (hnone i)
    · cases he.symm.trans hcause

theorem agree_findEntry (slot : SlotIndex) :
    Agree (t.serve (.findEntry slot) l) (SlotMap.serve t.geometry (.findEntry slot) m) := by
  refine agree_of_ends hsim ((findEntry_ends hvalid slot).map (h := Reply.found)) ?_ ?_
  · rintro _ s' ⟨_, rfl, hslot, h, hpresent, rfl⟩
    obtain ⟨entry, hentry⟩ :=
      Option.isSome_iff_exists.mp (hsim.represents.present_iff.mp hpresent)
    refine ⟨m, ?_, hsim.represents.of_slots h⟩
    rw [hsim.represents.content_eq (Geometry.checkSlot_eq_ok_iff.mp hslot).2,
      SlotMap.serve_findEntry_of_accepted hslot, hentry]
    rfl
  · rintro e s' (⟨hslot, rfl⟩ | ⟨hslot, h, ⟨rfl, habsent⟩ | he⟩) hcause
    · simp only [SlotMap.serve, hslot]
      exact ⟨m, rfl, hsim.represents⟩
    · refine ⟨m, ?_, hsim.represents.of_slots h⟩
      rw [SlotMap.serve_findEntry_of_accepted hslot]
      cases hentry : m slot with
      | none => rfl
      | some entry =>
          exact absurd (hsim.represents.present_iff.mpr (by rw [hentry]; rfl)) habsent
    · cases he.symm.trans hcause

theorem agree_changePorts (slot : SlotIndex) (port : Octet)
    {update : Masked PortVector → Masked PortVector}
    (hupdate : port.toNat < PortVector.width → KeepsWidth update) :
    Agree ((do t.updatePorts slot port update; return Reply.done :
        Session (Device t.geometry) Reply).locked l)
      (SlotMap.changePorts t.geometry slot port update m) := by
  refine agree_of_ends hsim
    ((updatePorts_ends hvalid slot port hupdate).map (h := fun _ => Reply.done)) ?_ ?_
  · rintro _ s' ⟨-, rfl, hport, hslot, hpresent, h⟩
    obtain ⟨entry, hentry⟩ :=
      Option.isSome_iff_exists.mp (hsim.represents.present_iff.mp hpresent)
    have hcontent : (l.content.bus.content slot).entry = entry := by
      rw [hsim.represents.content_eq (Geometry.checkSlot_eq_ok_iff.mp hslot).2, hentry]
      rfl
    rw [hcontent] at h
    have hfit := check_withPorts (hsim.represents.fits slot entry hentry).2 (hupdate hport)
    refine ⟨m.put slot (some (entry.withPorts update)), ?_,
      hsim.represents.loaded hslot hfit h⟩
    rw [SlotMap.changePorts_of_accepted hport hslot, hentry]
  · rintro e s' (⟨hport, rfl, rfl⟩ | ⟨hport, ⟨hslot, rfl⟩ | ⟨hslot, ⟨rfl, habsent, h⟩ | ⟨he, -⟩⟩⟩)
      hcause
    · refine ⟨m, ?_, hsim.represents⟩
      unfold SlotMap.changePorts
      rw [if_pos (Nat.le_of_not_lt hport)]
      rfl
    · refine ⟨m, ?_, hsim.represents⟩
      unfold SlotMap.changePorts
      rw [if_neg (Nat.not_le.mpr hport), hslot]
      rfl
    · refine ⟨m, ?_, hsim.represents.of_slots h⟩
      rw [SlotMap.changePorts_of_accepted hport hslot]
      cases hentry : m slot with
      | none => rfl
      | some entry =>
          exact absurd (hsim.represents.present_iff.mpr (by rw [hentry]; rfl)) habsent
    · cases he.symm.trans hcause

/-- Every request is answered as the map answers it. -/
theorem agree_serve (r : Request) : Agree (t.serve r l) (SlotMap.serve t.geometry r m) := by
  cases r with
  | flushAll => exact agree_flushAll hvalid hsim
  | flushEntry slot => exact agree_flushEntry hvalid hsim slot
  | loadEntry slot entry => exact agree_loadEntry hvalid hsim slot entry
  | readEntry slot => exact agree_readEntry hvalid hsim slot
  | getNextEntry slot => exact agree_getNextEntry hvalid hsim slot
  | findEntry slot => exact agree_findEntry hvalid hsim slot
  | addPort slot port =>
      exact agree_changePorts hvalid hsim slot port fun _ => keepsWidth_admit port.toNat
  | removePort slot port => exact agree_changePorts hvalid hsim slot port keepsWidth_block

/-- A run of requests cannot tell the table from the map. -/
theorem replies_eq (requests : List Request) :
    replies t.serve requests l = replies (SlotMap.serve t.geometry) requests m := by
  -- Related states give the same reply and stay related.
  induction requests generalizing l m with
  | nil => rfl
  | cons r rest ih =>
      have hstep := agree_serve hvalid hsim r
      unfold replies
      cases htable : t.serve r l with
      | ok a l' =>
          cases hmap : SlotMap.serve t.geometry r m with
          | ok b m' =>
              rw [htable, hmap] at hstep
              obtain ⟨rfl, hsim'⟩ := hstep
              exact congrArg _ (ih hsim')
          | error e m' =>
              rw [htable, hmap] at hstep
              exact hstep.elim
      | error e l' =>
          cases hmap : SlotMap.serve t.geometry r m with
          | ok b m' =>
              rw [htable, hmap] at hstep
              exact hstep.elim
          | error e' m' =>
              rw [htable, hmap] at hstep
              obtain ⟨rfl, hsim'⟩ := hstep
              exact congrArg _ (ih hsim')

omit hvalid hsim

theorem ofGeometry_eq_ok_iff {g : Geometry} {limit : Nat} :
    Table.ofGeometry g limit = .ok t ↔ g.Valid ∧ limit ≠ 0 ∧ t = ⟨g, limit⟩ := by
  unfold ofGeometry
  simp only [Checks.throw_bind, Checks.bind_eq_ok_iff]
  simp only [Checks.pure_eq_ok, Checks.refuse_eq_ok_iff, Except.ok.injEq]
  constructor
  · rintro ⟨_, hvalid, hlimit, rfl⟩
    exact ⟨Geometry.validate_eq_ok_iff.mp hvalid, hlimit, rfl⟩
  · rintro ⟨hvalid, hlimit, rfl⟩
    exact ⟨(), Geometry.validate_eq_ok_iff.mpr hvalid, hlimit, rfl⟩

/-- The slots of a fresh device represent the empty map. -/
theorem simulates_fresh {delay : Nat} (hdelay : delay < t.pollLimit) :
    Simulates (Lock.ofContent (.ofBus ((Device.fresh t.geometry).setBusyDelay delay))) .empty where
  unpoisoned := rfl
  ready := ⟨rfl, rfl, hdelay, Nat.zero_lt_of_lt hdelay⟩
  represents := SlotMap.represents_empty rfl

/-- A table over a fresh device answers every run of requests like the empty map
with the same geometry.  Every request that fails is to blame on its argument or
on a slot without an entry, never on the hardware. -/
theorem replies_eq_of_fresh {g : Geometry} {limit delay : Nat}
    (ht : Table.ofGeometry g limit = .ok t) (hdelay : delay < limit) (requests : List Request) :
    let l := Lock.ofContent (Table.State.ofBus ((Device.fresh t.geometry).setBusyDelay delay))
    replies t.serve requests l = replies (SlotMap.serve g) requests .empty ∧
      ∀ e, .error e ∈ replies t.serve requests l →
        (∃ cause, e = .invalidArgument cause) ∨ ∃ slot, e = .notFound slot := by
  obtain ⟨hvalid, -, rfl⟩ := ofGeometry_eq_ok_iff.mp ht
  have heq := replies_eq hvalid (simulates_fresh (t := ⟨g, limit⟩) hdelay) requests
  refine ⟨heq, fun e he => ?_⟩
  rw [heq] at he
  exact SlotMap.mem_replies_eq_error he

theorem replies_eq_of_fresh_egress :
    Table.ofGeometry .egress 16 = .ok ⟨.egress, 16⟩ ∧ 3 < 16 ∧ ∀ requests,
      let l := Lock.ofContent (Table.State.ofBus ((Device.fresh .egress).setBusyDelay 3))
      replies (Table.serve ⟨.egress, 16⟩) requests l =
          replies (SlotMap.serve .egress) requests .empty ∧
        ∀ e, .error e ∈ replies (Table.serve ⟨.egress, 16⟩) requests l →
          (∃ cause, e = .invalidArgument cause) ∨ ∃ slot, e = .notFound slot := by
  have ht : Table.ofGeometry .egress 16 = .ok ⟨.egress, 16⟩ :=
    ofGeometry_eq_ok_iff.mpr
      ⟨⟨by decide, by decide, by decide, Or.inl rfl⟩, by decide, rfl⟩
  exact ⟨ht, by decide, replies_eq_of_fresh ht (by decide)⟩

end Table

end Tcam
