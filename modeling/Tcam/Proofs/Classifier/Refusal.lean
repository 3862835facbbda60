import Tcam.Proofs.Classifier.Reachable

/-!
# Refused arguments and the slots

An operation that refuses an argument should leave the slots alone.  Configuring
and removing a rule do so except in one case each, and in both the check that
fails is made in the middle of the operation.  On a table without window pages
the second slot of a rule is loaded before the first entry is found too long.
And a rule whose entry continues outside of the table loses its first slot.
-/

namespace Tcam

namespace Device

variable {g : Geometry}

/-- Flushing a loaded slot shows. -/
theorem flushed_slots_ne {d : Device g} {slot : SlotIndex} (h : d.isValid slot = true) :
    (d.flushed slot).slots ≠ d.slots := by
  intro heq
  have himage := slot?_congr heq slot
  rw [slot?_updateSlot, if_pos rfl] at himage
  unfold isValid at h
  cases hslot : d.slot? slot with
  | none =>
      rw [hslot] at h
      exact nomatch h
  | some image =>
      rw [hslot, Option.map_some, Option.some.injEq] at himage
      rw [hslot, Option.any_some, ← himage, SlotImage.isValid_empty] at h
      exact nomatch h

/-- Loading an entry into a flushed slot shows. -/
theorem loaded_slots_ne {d : Device g} {slot : SlotIndex} (hslot : slot ≤ g.maxIndex)
    (h : d.isValid slot = false) (entry : Entry) :
    d.loaded slot (.ofEntry entry) g.loadOrder ≠ d.slots := by
  intro heq
  obtain ⟨image, himage⟩ := d.slot?_eq_some_of_le hslot
  have hkey : (image.withPages (.ofEntry entry) g.loadOrder).key =
      (SlotImage.ofEntry entry).key := by
    unfold Geometry.loadOrder
    cases g.hasWindowPage with
    | true => rfl
    | false => rfl
  have hslots : ({ d with slots := d.loaded slot (.ofEntry entry) g.loadOrder } : Device g).slots =
      (d.updateSlot slot fun old => old.withPages (.ofEntry entry) g.loadOrder).slots := rfl
  have hloaded := slot?_congr (hslots.symm.trans heq) slot
  rw [slot?_updateSlot, if_pos rfl, himage, Option.map_some, Option.some.injEq] at hloaded
  rw [isValid, himage, Option.any_some, ← hloaded, SlotImage.isValid, hkey,
    SlotImage.sentinel_ofEntry] at h
  exact absurd h (by decide)

end Device

namespace Classifier

/-- The transaction refuses an argument, and yet it has changed slots. -/
def RefusesAfterChange {g : Geometry} {α : Type} (m : Transaction (Device g) α)
    (l : Lock (Table.State (Device g))) : Prop :=
  ∃ cause l', m l = .error (.invalidArgument cause) l' ∧
    l'.content.bus.slots ≠ l.content.bus.slots

variable {c : Classifier} {l : Lock (Table.State (Device c.table.geometry))}

/-- Without window pages the second slot of a rule is loaded although the rule
is refused.  With window pages a refusal never comes that late. -/
theorem configure_refusesAfterChange_iff (hvalid : c.table.geometry.Valid)
    (hl : l.poisoned = false) (hready : l.content.bus.Ready c.table.pollLimit)
    (slot1 slot2 : SlotIndex) (rule : Rule) :
    RefusesAfterChange (c.configure slot1 slot2 rule) l ↔
      c.table.geometry.hasWindowPage = false ∧ ∃ p, c.plan slot1 slot2 rule = .ok p ∧
        p.checkSecond c.table.geometry = .ok () ∧
        (p.prepared l.content.bus).slots ≠ l.content.bus.slots := by
  have houtcome := (configure_ends hvalid hl slot1 slot2 rule).cases
  constructor
  · rintro ⟨cause, l', hrun, hchanged⟩
    rcases houtcome with ⟨_, _, hok, -⟩ | ⟨e, l'', herror, -, hnot, hfails⟩
    · exact nomatch hrun.symm.trans hok
    obtain ⟨rfl, rfl⟩ := EStateM.Result.error.inj (herror.symm.trans hrun)
    rcases hfails with ⟨-, hkept⟩ | ⟨p, hp, ⟨-, hkept⟩ | ⟨hsecond, ⟨hprimary, hslots⟩ | ⟨he, -⟩⟩⟩
    · exact absurd (congrArg (fun s => s.bus.slots) hkept) hchanged
    · exact absurd hkept hchanged
    · refine ⟨?_, p, hp, hsecond, hslots ▸ hchanged⟩
      -- With window pages the first entry would have passed its check.
      cases hpage : c.table.geometry.hasWindowPage with
      | false => rfl
      | true =>
          have hfits := Rule.check_primary (plan_eq_ok hp).2.1 hpage
          exact nomatch hfits.symm.trans hprimary
    · exact nomatch he
  · rintro ⟨hpage, p, hp, hsecond, hchanged⟩
    have htooLong := Rule.check_primary_ne_ok (plan_eq_ok hp).2.1 hpage
    -- The device is ready, so nothing but a check can fail.
    rcases houtcome with ⟨_, l', hok, -, -, q, hq, -, -, hprimary, -⟩ |
      ⟨e, l', herror, -, hnot, hfails⟩
    · obtain rfl := Except.ok.inj (hp.symm.trans hq)
      exact absurd hprimary htooLong
    rcases hfails with ⟨hplan, -⟩ | ⟨q, hq, hfails⟩
    · exact nomatch hp.symm.trans hplan
    obtain rfl := Except.ok.inj (hp.symm.trans hq)
    rcases hfails with ⟨hcheck, -⟩ | ⟨-, ⟨hprimary, hslots⟩ | ⟨he, -⟩⟩
    · exact nomatch hsecond.symm.trans hcheck
    · obtain ⟨cause, rfl⟩ := Entry.isRefusal_of_check hprimary
      exact ⟨cause, l', herror, hslots ▸ hchanged⟩
    · exact nomatch he.symm.trans (hnot hready).2

/-- A rule that continues outside of the table loses its first slot although its
removal is refused. -/
theorem removeRule_refusesAfterChange_iff (hvalid : c.table.geometry.Valid)
    (hl : l.poisoned = false) (hready : l.content.bus.Ready c.table.pollLimit)
    (hmarked : l.content.bus.Marked) (slot : SlotIndex) :
    RefusesAfterChange (c.removeRule slot) l ↔
      c.table.geometry.checkSlot slot = .ok () ∧ l.content.bus.isValid slot = true ∧
        ∃ next, l.content.bus.next? slot = some next ∧
          c.table.geometry.checkSlot next ≠ .ok () := by
  have houtcome := (removeRule_ends hvalid hl slot).cases
  constructor
  · rintro ⟨cause, l', hrun, hchanged⟩
    rcases houtcome with ⟨_, _, hok, -⟩ | ⟨e, l'', herror, -, hnot, hfails⟩
    · exact nomatch hrun.symm.trans hok
    obtain ⟨rfl, rfl⟩ := EStateM.Result.error.inj (herror.symm.trans hrun)
    rcases hfails with ⟨-, hkept⟩ | ⟨hslot, ⟨he, -⟩ | ⟨hpresent, next, hnext, hcheck, -⟩ | ⟨he, -⟩⟩
    · exact absurd hkept hchanged
    · exact nomatch he
    · refine ⟨hslot, hmarked.present_iff.mp hpresent, next, hnext, fun hok => ?_⟩
      exact nomatch hok.symm.trans hcheck
    · exact nomatch he
  · rintro ⟨hslot, hloaded, next, hnext, houtside⟩
    have hpresent := hmarked.present_iff.mpr hloaded
    rcases houtcome with ⟨_, l', -, -, -, -, -, hremoved⟩ | ⟨e, l', herror, -, hnot, hfails⟩
    · rcases hremoved with ⟨hnone, -⟩ | ⟨next', hnext', hinside, -⟩
      · exact nomatch hnext.symm.trans hnone
      · obtain rfl := Option.some.inj (hnext.symm.trans hnext')
        exact absurd hinside houtside
    rcases hfails with ⟨hcheck, -⟩ |
      ⟨-, ⟨-, habsent, -⟩ | ⟨-, next', -, hcheck, hslots⟩ | ⟨he, -⟩⟩
    · exact nomatch hslot.symm.trans hcheck
    · exact absurd hpresent habsent
    · obtain ⟨cause, rfl⟩ := Geometry.isRefusal_of_checkSlot hcheck
      refine ⟨cause, l', herror, ?_⟩
      rw [hslots]
      exact Device.flushed_slots_ne hloaded
    · exact nomatch he.symm.trans (hnot hready).2

/-- When an operation on rules refuses an argument and has changed slots
nevertheless, in all states that calls lead to. -/
theorem refusesAfterChange_iff (hgeometry : c.table.geometry.validate = .ok ())
    (hl : c.Reachable l) (hready : l.content.bus.Ready c.table.pollLimit) :
    (∀ slot1 slot2 rule, RefusesAfterChange (c.configure slot1 slot2 rule) l ↔
      c.table.geometry.hasWindowPage = false ∧ ∃ p, c.plan slot1 slot2 rule = .ok p ∧
        p.checkSecond c.table.geometry = .ok () ∧
        (p.prepared l.content.bus).slots ≠ l.content.bus.slots) ∧
    ∀ slot, RefusesAfterChange (c.removeRule slot) l ↔
      c.table.geometry.checkSlot slot = .ok () ∧ l.content.bus.isValid slot = true ∧
        ∃ next, l.content.bus.next? slot = some next ∧
          c.table.geometry.checkSlot next ≠ .ok () := by
  have hvalid := Geometry.validate_eq_ok_iff.mp hgeometry
  have hpoison := (hl.evolves hvalid).1
  exact ⟨configure_refusesAfterChange_iff hvalid hpoison hready,
    removeRule_refusesAfterChange_iff hvalid hpoison hready (hl.marked hvalid)⟩

/-- The classifier of the egress table, which has no window pages. -/
def egressSample : Classifier :=
  ⟨default, ⟨.egress, 1000⟩⟩

/-- An entry that continues in a slot the egress table does not have. -/
def danglingSample : Entry :=
  { (default : Entry) with fields := ⟨true, 200#8, default⟩ }

/-- A rule that compares the last field of its transport header. -/
def urgentSample : Rule :=
  { Rule.wildcard ⟨.ipv4, .tcp⟩ with
    headers := {
      network := .ipv4 .any
      transport := .tcp
        ⟨{ (default : TcpHeader) with urgentPointer := 1#16 },
          { (default : TcpHeader) with urgentPointer := 0xffff#16 }⟩ } }

theorem plan_urgentSample :
    egressSample.plan 3#16 4#16 urgentSample = .ok (urgentSample.linkedPlacement 4#16) := by
  have hplace : urgentSample.place 4#16 = .ok (urgentSample.linkedPlacement 4#16) := by
    rw [Rule.place_eq_ok_iff, KeyMatch.check, Action.check, Layout.check_eq_ok_iff,
      Layout.check_eq_ok_iff]
    decide +kernel
  unfold plan
  rw [hplace]
  rfl

theorem check_urgentSample :
    (urgentSample.linkedPlacement 4#16).checkSecond egressSample.table.geometry = .ok () := by
  change Entry.check _ _ = .ok ()
  rw [Entry.check_eq_ok_iff_fits]
  decide +kernel

theorem check_danglingSample : danglingSample.check egressSample.table.geometry = .ok () := by
  rw [Entry.check_eq_ok_iff_fits]
  decide +kernel

/-- Loading an entry that fits leads to a state that represents it. -/
theorem Reachable.exists_load {m : SlotMap} (hvalid : c.table.geometry.Valid) (hl : c.Reachable l)
    (hsim : Table.Simulates l m) {slot : SlotIndex} {entry : Entry}
    (hslot : c.table.geometry.checkSlot slot = .ok ())
    (hentry : entry.check c.table.geometry = .ok ()) :
    ∃ l', c.Reachable l' ∧ Table.Simulates l' (m.put slot (some entry)) := by
  refine ⟨c.after (.table (.loadEntry slot entry)) l, .call l _ hl, ?_⟩
  have hstep := Table.agree_loadEntry hvalid hsim slot entry
  have hserve : SlotMap.serve c.table.geometry (.loadEntry slot entry) m =
      .ok .done (m.put slot (some entry)) := by
    simp only [SlotMap.serve, hslot, hentry]
    rfl
  change Table.Simulates ((c.table.serve (.loadEntry slot entry)).after l) _
  unfold Transaction.after
  rw [hserve] at hstep
  cases hrun : c.table.serve (.loadEntry slot entry) l with
  | ok reply l' =>
      rw [hrun] at hstep
      exact hstep.2
  | error e l' =>
      rw [hrun] at hstep
      exact hstep.elim

/-- Both operations do it in one state of the egress table. -/
theorem refusesAfterChange_egressSample :
    egressSample.table.geometry.validate = .ok () ∧ ∃ l, egressSample.Reachable l ∧
      l.content.bus.Ready egressSample.table.pollLimit ∧
      RefusesAfterChange (egressSample.configure 3#16 4#16 urgentSample) l ∧
      RefusesAfterChange (egressSample.removeRule 5#16) l := by
  have hgeometry : egressSample.table.geometry.validate = .ok () := rfl
  have hdelay : 0 < egressSample.table.pollLimit := by
    decide
  have hslot : egressSample.table.geometry.checkSlot 5#16 = .ok () := rfl
  obtain ⟨l, hreachable, hsim⟩ := Reachable.exists_load
    (Geometry.validate_eq_ok_iff.mp hgeometry) .fresh (Table.simulates_fresh hdelay) hslot
    check_danglingSample
  obtain ⟨hconfigure, hremove⟩ := refusesAfterChange_iff hgeometry hreachable hsim.ready
  refine ⟨hgeometry, l, hreachable, hsim.ready, (hconfigure _ _ _).mpr ?_, (hremove _).mpr ?_⟩
  · have hempty : l.content.bus.isValid 4#16 = false := by
      rw [Bool.eq_false_iff]
      exact fun h => nomatch hsim.represents.isValid_iff.mp h
    have hchanged := Device.loaded_slots_ne (by decide) hempty
      ⟨Entry.cascadeKey 4#16, urgentSample.written.secondWindow, .terminal urgentSample.action⟩
    exact ⟨rfl, _, plan_urgentSample, check_urgentSample, hchanged⟩
  · have hcontent := hsim.represents.content_eq (by decide : 5#16 ≤ Geometry.egress.maxIndex)
    have hnext : l.content.bus.next? 5#16 = some 200#16 := by
      rw [Device.next?, hcontent]
      rfl
    exact ⟨rfl, hsim.represents.isValid_iff.mpr rfl, 200#16, hnext, nofun⟩

end Classifier

end Tcam
