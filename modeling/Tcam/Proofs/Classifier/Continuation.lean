import Tcam.Proofs.Classifier.Interruption
import Tcam.Proofs.Classifier.Refusal
import Tcam.Proofs.Classifier.Request

/-!
# Slots that continue in flushed ones

A valid slot that continues should do so in a valid slot (`Device.Linked`).  No
configuration, change of ports or flush of the whole table breaks this, wherever
it is cut short.  Removing a rule does if another slot continues in one of the
two slots that it flushes, and only then (`Run.linked_iff_spares`).
-/

namespace Tcam

namespace Device

variable {g : Geometry} {d d' : Device g} {slot : SlotIndex} {entry : Entry} {pages : List Page}

/-- Every valid slot that continues does so in a valid slot. -/
def Linked (d : Device g) : Prop :=
  ∀ i next, d.isValid i = true → d.next? i = some next → d.isValid next = true

/-- No two slots continue in each other, and none in itself. -/
def OneWay (d : Device g) : Prop :=
  ∀ i j, d.next? i = some j → d.next? j ≠ some i

/-- The state of continuations that configurations keep up. -/
structure Coherent (d : Device g) : Prop where
  linked : d.Linked
  oneWay : d.OneWay

theorem coherent_flushedAll (h : d.slots = Vector.replicate _ .empty) : d.Coherent where
  linked i _ hi := nomatch (isValid_of_flushedAll h i).symm.trans hi
  oneWay i _ hi := nomatch (next?_of_flushedAll h i).symm.trans hi

theorem Coherent.of_slots (hd : d.Coherent) (h : d'.slots = d.slots) : d'.Coherent where
  linked i next hi hnext := by
    rw [isValid_congr h] at hi ⊢
    exact hd.linked i next hi (next?_congr h i ▸ hnext)
  oneWay i j hi := by
    rw [next?_congr h] at hi ⊢
    exact hd.oneWay i j hi

/-- A slot may be loaded, completely or not, if the new entry continues in a valid
slot that does not continue back. -/
theorem Coherent.loaded (hd : d.Coherent) (hslot : slot ≤ g.maxIndex)
    (hentry : entry.check g = .ok ()) (hpages : pages <+: g.loadOrder)
    (hnext : ∀ next, entry.next? = some next →
      d.isValid next = true ∧ next ≠ slot ∧ d.next? next ≠ some slot)
    (h : d'.slots = d.loaded slot (.ofEntry entry) pages) : d'.Coherent where
  linked i next hi hi' := by
    rw [next?_of_loaded hslot hentry h] at hi'
    rw [isValid_of_loaded hslot h] at hi ⊢
    by_cases hnew : i = slot ∧ .action ∈ pages
    · rw [if_pos hnew] at hi'
      exact Or.inr (hnext next hi').1
    · rw [if_neg hnew] at hi'
      -- A slot that has turned valid has got its action page before.
      rcases hi with ⟨rfl, hkey⟩ | hi
      · exact absurd ⟨rfl, Geometry.action_mem_of_ne_nil hpages (List.ne_nil_of_mem hkey)⟩ hnew
      · exact Or.inr (hd.linked i next hi hi')
  oneWay i j hi := by
    rw [next?_of_loaded hslot hentry h] at hi ⊢
    by_cases hi' : i = slot ∧ .action ∈ pages
    · rw [if_pos hi'] at hi
      obtain ⟨-, hne, hback⟩ := hnext j hi
      rw [if_neg fun hj => hne hj.1, hi'.1]
      exact hback
    · rw [if_neg hi'] at hi
      by_cases hj : j = slot ∧ .action ∈ pages
      · rw [if_pos hj]
        intro hij
        exact (hnext i hij).2.2 (hj.1 ▸ hi)
      · rw [if_neg hj]
        exact hd.oneWay i j hi

/-- A slot may be flushed if no other valid slot continues in it. -/
theorem Coherent.flushed (hd : d.Coherent)
    (hother : ∀ i, i ≠ slot → d.isValid i = true → d.next? i ≠ some slot)
    (h : d'.slots = (d.flushed slot).slots) : d'.Coherent where
  linked i next hi hnext := by
    obtain ⟨hne, hi⟩ := (isValid_of_flushed h).mp hi
    rw [next?_of_flushed h, if_neg hne] at hnext
    refine (isValid_of_flushed h).mpr ⟨?_, hd.linked i next hi hnext⟩
    rintro rfl
    exact hother i hne hi hnext
  oneWay i j hi := by
    rw [next?_of_flushed h] at hi ⊢
    by_cases hi' : i = slot
    · rw [if_pos hi'] at hi
      exact nomatch hi
    · rw [if_neg hi'] at hi
      by_cases hj : j = slot
      · rw [if_pos hj]
        exact nofun
      · rw [if_neg hj]
        exact hd.oneWay i j hi

/-! ## Removals -/

/-- Removing the rule at `slot` flushes slot `i`. -/
def Flushes (d : Device g) (slot i : SlotIndex) : Prop :=
  i = slot ∨ d.next? slot = some i

/-- A slot that continues in a flushed one is flushed itself. -/
def Spares (d : Device g) (slot : SlotIndex) : Prop :=
  d.isValid slot = true → ∀ i next, d.isValid i = true → d.next? i = some next →
    d.Flushes slot next → d.Flushes slot i

theorem Coherent.flushed_first (hd : d.Coherent) (hvalid : d.isValid slot = true)
    (hspares : d.Spares slot) (h : d'.slots = (d.flushed slot).slots) : d'.Coherent := by
  refine hd.flushed (fun i hne hi hnext => ?_) h
  rcases hspares hvalid i slot hi hnext (Or.inl rfl) with heq | hback
  · exact hne heq
  · exact hd.oneWay slot i hback hnext

theorem Coherent.flushed_both (hd : d.Coherent) (hvalid : d.isValid slot = true)
    (hspares : d.Spares slot) {next : SlotIndex} (hnext : d.next? slot = some next)
    (h : d'.slots = ((d.flushed slot).flushed next).slots) : d'.Coherent := by
  have hfirst : (d.flushed slot).Coherent := hd.flushed_first hvalid hspares rfl
  refine hfirst.flushed (fun i hne hi hi' => ?_) h
  obtain ⟨hslot, hi⟩ := (isValid_of_flushed rfl).mp hi
  rw [next?_of_flushed rfl, if_neg hslot] at hi'
  rcases hspares hvalid i next hi hi' (Or.inr hnext) with heq | hsame
  · exact hslot heq
  · exact hne (Option.some.inj (hsame.symm.trans hnext))

/-- The flushed slots are free and the others are as before. -/
def OnlyFlushed (d d' : Device g) (slot : SlotIndex) : Prop :=
  ∀ i, (d'.isValid i = true ↔ ¬d.Flushes slot i ∧ d.isValid i = true) ∧
    (¬d.Flushes slot i → d'.next? i = d.next? i)

theorem onlyFlushed_both {next : SlotIndex} (hnext : d.next? slot = some next)
    (h : d'.slots = ((d.flushed slot).flushed next).slots) : d.OnlyFlushed d' slot := by
  intro i
  unfold Flushes
  rw [isValid_of_flushed h, isValid_of_flushed rfl, next?_of_flushed h, next?_of_flushed rfl,
    hnext, Option.some.injEq, not_or, eq_comm (a := next)]
  refine ⟨⟨fun h => ⟨⟨h.2.1, h.1⟩, h.2.2⟩, fun h => ⟨h.1.2, h.1.1, h.2⟩⟩, fun hne => ?_⟩
  rw [if_neg hne.2, if_neg hne.1]

theorem onlyFlushed_first (hnext : d.next? slot = none)
    (h : d'.slots = (d.flushed slot).slots) : d.OnlyFlushed d' slot := by
  intro i
  unfold Flushes
  rw [isValid_of_flushed h, next?_of_flushed h, hnext, or_iff_left nofun]
  exact ⟨Iff.rfl, fun hne => if_neg hne⟩

/-- If all is in order after a complete removal, no other slot has continued in a
flushed one. -/
theorem OnlyFlushed.spares_of_linked (h : d.OnlyFlushed d' slot) (hlinked : d'.Linked) :
    d.Spares slot := by
  intro _ i next hi hnext hflushed
  by_contra hkept
  have hloaded : d'.isValid i = true := (h i).1.mpr ⟨hkept, hi⟩
  have hnext' : d'.next? i = some next := ((h i).2 hkept).trans hnext
  exact ((h next).1.mp (hlinked i next hloaded hnext')).1 hflushed

end Device

/-- The request leaves no slot behind that continues in a flushed one. -/
def RuleRequest.Spares {g : Geometry} (d : Device g) : RuleRequest → Prop
  | .removeRule slot => d.Spares slot
  | _ => True

namespace Classifier

variable {c : Classifier} {l : Lock (Table.State (Device c.table.geometry))}

/-- Runs of requests that are allowed where they are made.  In between the device
may change in any way that leaves its slots alone: it may become slow or stuck,
or bound to fail at some access. -/
inductive Run (c : Classifier) (allowed : Device c.table.geometry → RuleRequest → Prop) :
    Lock (Table.State (Device c.table.geometry)) → Prop
  | fresh : Run c allowed (Lock.ofContent (.ofBus (.fresh c.table.geometry)))
  | device (l : Lock (Table.State (Device c.table.geometry)))
      (f : Device c.table.geometry → Device c.table.geometry)
      (hf : ∀ d, (f d).slots = d.slots) (h : Run c allowed l) : Run c allowed (adjust f l)
  | request (l : Lock (Table.State (Device c.table.geometry))) (r : RuleRequest)
      (hr : allowed l.content.bus r) (h : Run c allowed l) : Run c allowed ((c.serve r).after l)

theorem Run.evolves {allowed : Device c.table.geometry → RuleRequest → Prop}
    (hvalid : c.table.geometry.Valid) (h : c.Run allowed l) :
    l.poisoned = false ∧ (Device.fresh c.table.geometry).Evolves l.content.bus := by
  induction h with
  | fresh => exact ⟨rfl, .same rfl⟩
  | device l f hf _ ih => exact ⟨ih.1, ih.2.of_slots (hf l.content.bus)⟩
  | request l r _ _ ih =>
      obtain ⟨hl, hpast⟩ := ih
      obtain ⟨hl', hstep⟩ := serve_evolves hvalid hl r
      exact ⟨hl', hpast.trans hstep⟩

section Requests

variable (hvalid : c.table.geometry.Valid) (hl : l.poisoned = false)
  (hd : l.content.bus.Coherent)

/-- Wherever the load of a rule stops, its first slot continues in a valid slot. -/
theorem coherent_of_stopped {slot1 slot2 : SlotIndex} {rule : Rule} {p : Placement}
    {d d' : Device c.table.geometry} {second first : List Page}
    (hpage : c.table.geometry.hasWindowPage = true) (hd : d.Coherent)
    (hp : c.plan slot1 slot2 rule = .ok p) (hstop : p.Stopped slot1 d d' second first) :
    d'.Coherent := by
  obtain ⟨hslot1, hplace, -⟩ := plan_eq_ok hp
  have hseparate := separate_of_plan hp
  have hmax {i : SlotIndex} (hi : c.table.geometry.checkSlot i = .ok ()) :=
    (Geometry.checkSlot_eq_ok_iff.mp hi).2
  -- The second entry does not continue.
  have hbegun : (p.begun d second).Coherent := by
    unfold Placement.begun
    cases hnext : p.continuation with
    | none => exact hd
    | some q =>
        obtain ⟨-, hends⟩ := Rule.next?_continuation hplace hnext
        refine hd.loaded (hmax (hseparate q.1 q.2 hnext).2)
          (Rule.check_continuation hplace hpage hnext) hstop.second_initial ?_ rfl
        exact fun next hnext => nomatch hends.symm.trans hnext
  by_cases hfirst : first = []
  · subst hfirst
    exact hbegun.of_slots (hstop.slots.trans (p.midway_nil d slot1 second))
  refine hbegun.loaded (hmax hslot1) (Rule.check_primary hplace hpage) hstop.first_initial ?_
    hstop.slots
  intro next hnext
  rw [Rule.next?_primary hplace, Option.map_eq_some_iff] at hnext
  obtain ⟨⟨slot2, entry⟩, hq, hsame⟩ := hnext
  obtain rfl : slot2 = next := hsame
  have hinside := hmax (hseparate _ entry hq).2
  have hslots : (p.begun d second).slots =
      d.loaded slot2 (.ofEntry entry) c.table.geometry.loadOrder := by
    rw [Placement.begun, hq, hstop.backToFront hfirst]
  obtain ⟨-, hends⟩ := Rule.next?_continuation hplace hq
  refine ⟨?_, (hseparate _ entry hq).1, ?_⟩
  · exact (Device.isValid_of_loaded hinside hslots).mpr
      (Or.inl ⟨rfl, c.table.geometry.key_mem_loadOrder⟩)
  · rw [Device.next?_of_loaded hinside (Rule.check_continuation hplace hpage hq) hslots,
      if_pos ⟨rfl, c.table.geometry.action_mem_loadOrder⟩, hends]
    exact nofun

include hvalid hl hd

theorem coherent_configure (hpage : c.table.geometry.hasWindowPage = true)
    (slot1 slot2 : SlotIndex) (rule : Rule) :
    Transaction.Ends c.table.pollLimit (c.configure slot1 slot2 rule) l
      (fun _ s' => s'.bus.Coherent) (fun _ s' => s'.bus.Coherent) := by
  refine (configure_ends hvalid hl slot1 slot2 rule).mono ?_ ?_
  · rintro _ s' ⟨p, hp, -, hplaced⟩
    exact coherent_of_stopped hpage hd hp hplaced.stopped
  · rintro e s' (⟨-, rfl⟩ | ⟨p, hp, hfails⟩)
    · exact hd
    · obtain ⟨second, first, hstop, -⟩ := hfails.stopped
      exact coherent_of_stopped hpage hd hp hstop

theorem coherent_removeRule {slot : SlotIndex} (hmarked : l.content.bus.Marked)
    (hspares : l.content.bus.Spares slot) :
    Transaction.Ends c.table.pollLimit (c.removeRule slot) l
      (fun _ s' => s'.bus.Coherent) (fun _ s' => s'.bus.Coherent) := by
  refine (removeRule_ends hvalid hl slot).mono ?_ ?_
  · rintro _ s' ⟨-, hpresent, ⟨-, h⟩ | ⟨next, hnext, -, h⟩⟩
    · exact hd.flushed_first (hmarked.present_iff.mp hpresent) hspares h
    · exact hd.flushed_both (hmarked.present_iff.mp hpresent) hspares hnext h
  · rintro e s' (⟨-, h⟩ | ⟨-, ⟨-, -, h⟩ | ⟨hpresent, next, -, -, h⟩ |
      ⟨-, h | ⟨hpresent, h | ⟨next, hnext, -, h⟩⟩⟩⟩)
    · exact hd.of_slots h
    · exact hd.of_slots h
    · exact hd.flushed_first (hmarked.present_iff.mp hpresent) hspares h
    · exact hd.of_slots h
    · exact hd.flushed_first (hmarked.present_iff.mp hpresent) hspares h
    · exact hd.flushed_both (hmarked.present_iff.mp hpresent) hspares hnext h

/-- With other ports a slot continues where it did. -/
theorem coherent_changePorts (hmarked : l.content.bus.Marked) (slot : SlotIndex) (port : Octet)
    {update : PortUpdate} (hupdate : port.toNat < PortVector.width → Table.KeepsWidth update) :
    Transaction.Ends c.table.pollLimit (c.changePorts slot port update) l
      (fun _ s' => s'.bus.Coherent) (fun _ s' => s'.bus.Coherent) := by
  have hloaded {d' : Device c.table.geometry} {pages : List Page}
      (hport : port.toNat < PortVector.width) (hslot : c.table.geometry.checkSlot slot = .ok ())
      (hpresent : l.content.bus.Present slot) (hpages : pages <+: c.table.geometry.loadOrder)
      (h : d'.slots = l.content.bus.loaded slot
        (.ofEntry (withPortsAt l.content.bus slot update)) pages) : d'.Coherent := by
    have hentry := Table.check_withPorts (Device.check_content l.content.bus slot) (hupdate hport)
    refine hd.loaded (Geometry.checkSlot_eq_ok_iff.mp hslot).2 hentry hpages ?_ h
    intro next hnext
    have hnext' : l.content.bus.next? slot = some next := hnext
    refine ⟨hd.linked slot next (hmarked.present_iff.mp hpresent) hnext', ?_,
      hd.oneWay slot next hnext'⟩
    rintro rfl
    exact hd.oneWay next next hnext' hnext'
  refine (changePorts_ends hvalid hl slot port hupdate).mono ?_ ?_
  · rintro _ s' ⟨-, hport, hslot, hpresent, h⟩
    exact hloaded hport hslot hpresent List.prefix_rfl h
  · rintro e s' (⟨-, h⟩ | ⟨-, ⟨-, h⟩ | ⟨hport, ⟨-, h⟩ | ⟨hslot, ⟨-, -, h⟩ |
      ⟨-, h | ⟨hpresent, done, hdone, h⟩⟩⟩⟩⟩)
    · exact hd.of_slots h
    · exact hd.of_slots h
    · exact hd.of_slots h
    · exact hd.of_slots h
    · exact hd.of_slots h
    · exact hloaded hport hslot hpresent hdone h

/-- A request that spares the other slots keeps continuations in order, however it
ends. -/
theorem coherent_serve (hpage : c.table.geometry.hasWindowPage = true)
    (hmarked : l.content.bus.Marked) {r : RuleRequest} (hr : r.Spares l.content.bus) :
    ((c.serve r).after l).content.bus.Coherent := by
  have hafter {α : Type} {m : Transaction (Device c.table.geometry) α} {f : α → RuleReply}
      (h : Transaction.Ends c.table.pollLimit m l
        (fun _ s' => s'.bus.Coherent) (fun _ s' => s'.bus.Coherent)) :
      ((do return f (← m) : Transaction (Device c.table.geometry) RuleReply).after
        l).content.bus.Coherent := by
    rw [Transaction.after_map]
    exact h.after.2
  cases r with
  | configure slot1 slot2 rule => exact hafter (coherent_configure hvalid hl hd hpage slot1 slot2 rule)
  | removeRule slot => exact hafter (coherent_removeRule hvalid hl hd hmarked hr)
  | addPort slot port =>
      rw [serve_addPort]
      exact hafter (coherent_changePorts hvalid hl hd hmarked slot port
        fun _ => Table.keepsWidth_admit port.toNat)
  | removePort slot port =>
      rw [serve_removePort]
      exact hafter (coherent_changePorts hvalid hl hd hmarked slot port Table.keepsWidth_block)
  | flushAll =>
      refine hafter (Transaction.Ends.locked hl ((Table.flushAll_ends hvalid).mono ?_ ?_))
      · exact fun _ _ h => Device.coherent_flushedAll h
      · rintro e s' ⟨-, h | h⟩
        · exact hd.of_slots h
        · exact Device.coherent_flushedAll h

omit hd in
/-- A removal on a ready device flushes all it is meant to flush, or the slot is
free. -/
theorem removed_of_ready (hready : l.content.bus.Ready c.table.pollLimit)
    (hmarked : l.content.bus.Marked)
    (hevolves : (Device.fresh c.table.geometry).Evolves l.content.bus)
    (hlinked : l.content.bus.Linked) {slot : SlotIndex}
    (hloaded : l.content.bus.isValid slot = true) :
    Removed slot l.content ((c.removeRule slot).after l).content := by
  have hslot := hevolves.checkSlot hloaded
  unfold Transaction.after
  rcases (removeRule_ends hvalid hl slot).cases with
    ⟨_, l', hrun, -, -, hremoved⟩ | ⟨e, l', hrun, -, hnot, hfails⟩
  · rw [hrun]
    exact hremoved
  rcases hfails with ⟨hcheck, -⟩ | ⟨-, ⟨-, habsent, -⟩ | ⟨-, next, hnext, hcheck, -⟩ | ⟨he, -⟩⟩
  · exact nomatch hslot.symm.trans hcheck
  · exact absurd (hmarked.present_iff.mpr hloaded) habsent
  · -- The slot continues in a valid slot, and all valid slots are in the table.
    have hinside := hevolves.checkSlot (hlinked slot next hloaded hnext)
    exact nomatch hinside.symm.trans hcheck
  · exact nomatch he.symm.trans (hnot hready).2

end Requests

/-- In a run in which every removal spares the other slots, no valid slot continues
in an invalid one, wherever requests were cut short.  A request on a ready device
keeps it that way exactly if it spares the other slots. -/
theorem Run.linked_iff_spares (hgeometry : c.table.geometry.validate = .ok ())
    (hpage : c.table.geometry.hasWindowPage = true)
    (hrun : c.Run (fun d r => r.Spares d) l) :
    l.content.bus.Linked ∧ ∀ r, l.content.bus.Ready c.table.pollLimit →
      (((c.serve r).after l).content.bus.Linked ↔ r.Spares l.content.bus) := by
  have hvalid := Geometry.validate_eq_ok_iff.mp hgeometry
  have hfresh : (Device.fresh c.table.geometry).Marked := Device.marked_flushed rfl
  have hcoherent : l.content.bus.Coherent := by
    induction hrun with
    | fresh => exact Device.coherent_flushedAll rfl
    | device l f hf _ ih => exact ih.of_slots (hf l.content.bus)
    | request l r hr hpast ih =>
        obtain ⟨hl, hevolves⟩ := hpast.evolves hvalid
        exact coherent_serve hvalid hl ih hpage (hfresh.evolves hevolves) hr
  obtain ⟨hl, hevolves⟩ := hrun.evolves hvalid
  have hmarked := hfresh.evolves hevolves
  refine ⟨hcoherent.linked, fun r hready => ⟨fun hlinked => ?_, fun hr => ?_⟩⟩
  · cases r with
    | configure => trivial
    | addPort => trivial
    | removePort => trivial
    | flushAll => trivial
    | removeRule slot =>
        by_cases hloaded : l.content.bus.isValid slot = true
        · have hafter : (c.serve (.removeRule slot)).after l = (c.removeRule slot).after l :=
            Transaction.after_map (c.removeRule slot) (fun _ => RuleReply.done) l
          rw [hafter] at hlinked
          rcases removed_of_ready hvalid hl hready hmarked hevolves hcoherent.linked hloaded with
            ⟨-, -, ⟨hnext, h⟩ | ⟨next, hnext, -, h⟩⟩
          · exact (Device.onlyFlushed_first hnext h).spares_of_linked hlinked
          · exact (Device.onlyFlushed_both hnext h).spares_of_linked hlinked
        · exact fun h => absurd h hloaded
  · exact (coherent_serve hvalid hl hcoherent hpage hmarked hr).linked

/-- Two rules that continue in the same slot. -/
def sharedSample : Lock (Table.State (Device ingressSample.table.geometry)) :=
  (ingressSample.serve (.configure 11#16 12#16 urgentSample)).after
    ((ingressSample.serve (.configure 10#16 12#16 urgentSample)).after
      (.ofContent (.ofBus (.fresh ingressSample.table.geometry))))

/-- Without any fault, the removal of one of them leaves the other continuing in a
flushed slot. -/
theorem linked_iff_spares_sharedSample :
    ingressSample.table.geometry.validate = .ok () ∧
      ingressSample.table.geometry.hasWindowPage = true ∧
      ingressSample.Run (fun d r => r.Spares d) sharedSample ∧
      sharedSample.content.bus.Linked ∧
      sharedSample.content.bus.Ready ingressSample.table.pollLimit ∧
      ¬((ingressSample.serve (.removeRule 11#16)).after sharedSample).content.bus.Linked := by
  have hrun : ingressSample.Run (fun d r => r.Spares d) sharedSample :=
    .request _ (.configure 11#16 12#16 urgentSample) trivial
      (.request _ (.configure 10#16 12#16 urgentSample) trivial .fresh)
  have hready : sharedSample.content.bus.Ready ingressSample.table.pollLimit :=
    ⟨by decide +kernel, by decide +kernel, by decide +kernel, by decide +kernel⟩
  obtain ⟨hlinked, hiff⟩ := Run.linked_iff_spares rfl rfl hrun
  refine ⟨rfl, rfl, hrun, hlinked, hready, fun h => ?_⟩
  have hspares : sharedSample.content.bus.Spares 11#16 := (hiff (.removeRule 11#16) hready).mp h
  have hloaded : sharedSample.content.bus.isValid 11#16 = true ∧
      sharedSample.content.bus.isValid 10#16 = true := by
    decide +kernel
  have hnext : sharedSample.content.bus.next? 11#16 = some 12#16 ∧
      sharedSample.content.bus.next? 10#16 = some 12#16 := by
    decide +kernel
  -- Slot 10 continues in slot 12, which goes with slot 11, and stays itself.
  rcases hspares hloaded.1 10#16 12#16 hloaded.2 hnext.2 (Or.inr hnext.1) with hsame | hother
  · exact absurd hsame (by decide)
  · exact absurd (hnext.1.symm.trans hother) (by decide)

end Classifier

end Tcam
