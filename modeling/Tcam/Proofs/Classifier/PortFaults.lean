import Tcam.Proofs.Classifier.Ports

/-!
# Changes of ports that break off

A change of the ports of a slot loads all of its pages again, while the slot is valid and
in use.  It can break off after any of them.  Nevertheless the slot never shows a mixture
of pages: the pages that are loaded before the last one are the ones that the slot holds
already, bit by bit, since nothing in them is lost when they are read and loaded again.
-/

namespace Tcam

/-- The ports of an entry are in the key page. -/
theorem SlotImage.page_ofEntry_withPorts (e : Entry)
    (update : Masked PortVector → Masked PortVector) {page : Page} (hpage : page ≠ .key) :
    (ofEntry (e.withPorts update)).page page = (ofEntry e).page page := by
  have hwindow : (e.withPorts update).window = e.window := rfl
  have hfields : (e.withPorts update).fields = e.fields := rfl
  cases page with
  | key => exact absurd rfl hpage
  | window => simp only [SlotImage.page, ofEntry, hwindow]
  | action => simp only [SlotImage.page, ofEntry, hfields]

namespace Table

variable {t : Table} {d d' : Device t.geometry} {slot : SlotIndex} {update : Classifier.PortUpdate}

/-- A load with other ports that has broken off has changed nothing, or it was complete. -/
theorem slots_eq_or_portsLoaded (hd : d.Canonical) (hvalid : d.isValid slot = true)
    {done : List Page} (hdone : done <+: t.geometry.loadOrder)
    (h : d'.slots = d.loaded slot (.ofEntry (Classifier.withPortsAt d slot update)) done) :
    d'.slots = d.slots ∨ PortsLoaded slot update d d' := by
  by_cases hkey : Page.key ∈ done
  · rw [Geometry.eq_loadOrder_of_key_mem hdone hkey] at h
    exact Or.inr h
  · refine Or.inl (h.trans (hd.loaded_eq hvalid fun page hpage => ?_))
    exact SlotImage.page_ofEntry_withPorts _ update fun hown => hkey (hown ▸ hpage)

end Table

namespace Classifier

variable {c : Classifier} {l l' : Lock (Table.State (Device c.table.geometry))}
  {slot : SlotIndex} {change : PortChange} {e : Error}

/-- A change of ports that fails, for whatever reason and wherever, has left the slots as
they were, or as the same change leaves them without a failure.  So a valid slot stays
valid, with its window, its action and its continuation, and no other slot changes. -/
theorem portChange_atomic (hgeometry : c.table.geometry.validate = .ok ()) (hl : c.Reachable l)
    (h : change.call c.table slot l = .error e l') :
    (l'.content.bus.slots = l.content.bus.slots ∨
      ∀ calm : Lock (Table.State (Device c.table.geometry)), calm.poisoned = false →
        calm.content.bus.Ready c.table.pollLimit →
        calm.content.bus.slots = l.content.bus.slots →
        ∃ done, change.call c.table slot calm = .ok () done ∧
          l'.content.bus.slots = done.content.bus.slots) ∧
    (l.content.bus.isValid slot = true → l'.content.bus.isValid slot = true ∧
      (l'.content.bus.content slot).entry.window = (l.content.bus.content slot).entry.window ∧
      (l'.content.bus.content slot).entry.fields = (l.content.bus.content slot).entry.fields) ∧
    ∀ i, i ≠ slot → l'.content.bus.slot? i = l.content.bus.slot? i := by
  have hvalid := Geometry.validate_eq_ok_iff.mp hgeometry
  obtain ⟨husable, hd⟩ := hl.evolves hvalid
  have hcanonical := Device.canonical_of_evolves hd
  have hends := (Table.call_ends hvalid husable change slot).cases
  rcases hends with ⟨_, _, hok, -⟩ | ⟨e', l₁, herror, -, -, hfails⟩
  · exact nomatch hok.symm.trans h
  obtain ⟨rfl, rfl⟩ := EStateM.Result.error.inj (herror.symm.trans h)
  have hslots : l₁.content.bus.slots = l.content.bus.slots ∨
      change.port.toNat < PortVector.width ∧ c.table.geometry.checkSlot slot = .ok () ∧
        l.content.bus.Present slot ∧
        Table.PortsLoaded slot change.update l.content.bus l₁.content.bus := by
    rcases hfails with hkept | ⟨hport, hslot, hpresent, done, hdone, hpart⟩
    · exact Or.inl hkept
    · refine (Table.slots_eq_or_portsLoaded hcanonical hpresent.1 hdone hpart).imp_right ?_
      exact fun hloaded => ⟨hport, hslot, hpresent, hloaded⟩
  rcases hslots with hkept | ⟨hport, hslot, hpresent, hloaded⟩
  · refine ⟨Or.inl hkept, fun hbefore => ⟨?_, ?_⟩, fun i _ => Device.slot?_congr hkept i⟩
    · exact (Device.isValid_congr hkept slot).trans hbefore
    · rw [Device.content_congr hkept]
      exact ⟨rfl, rfl⟩
  · have hmax := (Geometry.checkSlot_eq_ok_iff.mp hslot).2
    refine ⟨Or.inr fun calm hcalm hready hsame => ?_, fun hbefore => ?_,
      fun i hi => Device.slot?_of_loaded_of_ne hloaded hi⟩
    · have hanswers : Table.Answers l.content.bus calm := ⟨hcalm, hready, hsame⟩
      obtain ⟨done, hrun, -, hdone⟩ := hanswers.call hvalid hport hslot hpresent
      exact ⟨done, hrun, hloaded.slots_eq hdone fun _ => rfl⟩
    · have hcontent := hloaded.content hmax (PortChange.keepsWidth hport)
      rw [← Device.valid_content, hcontent]
      exact ⟨rfl, rfl, rfl⟩

/-- A port of a rule is blocked, and the last access fails: the port is blocked although
the call has failed. -/
theorem portChange_atomic_lastAccess :
    let call := (PortChange.remove 2#8).call ingressSample.table 3#16
    let l := adjust (fun d => d.failNthAccess 148) programmedSample
    ingressSample.table.geometry.validate = .ok () ∧ ingressSample.Reachable l ∧
      ∃ l', call l = .error (.transport (.access ⟨0x1f#8⟩ operationRegister .injected)) l' ∧
        2 ∈ (l.content.bus.portsAt 3#16).admitted ∧
        2 ∉ (l'.content.bus.portsAt 3#16).admitted ∧
        ∃ done, call programmedSample = .ok () done ∧
          l'.content.bus.slots = done.content.bus.slots := by
  intro call l
  have hl : ingressSample.Reachable l := .call _ (.failNthAccess 148) reachable_programmedSample
  have hresult : call.result l =
      .error (.transport (.access ⟨0x1f#8⟩ operationRegister .injected)) := by
    decide +kernel
  have hbefore : 2 ∈ (l.content.bus.portsAt 3#16).admitted := by
    decide +kernel
  have hblocked : 2 ∉ ((call.after l).content.bus.portsAt 3#16).admitted := by
    decide +kernel
  have hrun := Transaction.eq_of_result_eq_error hresult
  refine ⟨rfl, hl, _, hrun, hbefore, hblocked, ?_⟩
  have hpoison : programmedSample.poisoned = false := by
    decide +kernel
  have hready : programmedSample.content.bus.Ready ingressSample.table.pollLimit :=
    ⟨by decide +kernel, by decide +kernel, by decide +kernel, by decide +kernel⟩
  have hsame (l₀ : Lock (Table.State (Device ingressSample.table.geometry))) :
      l₀.content.bus.slots = (adjust (fun d => d.failNthAccess 148) l₀).content.bus.slots := rfl
  obtain ⟨hkept | hdone, -⟩ := portChange_atomic rfl hl hrun
  · rw [Device.portsAt, Device.content_congr hkept] at hblocked
    exact absurd hbefore hblocked
  · exact hdone programmedSample hpoison hready (hsame programmedSample)

end Classifier

end Tcam
