import Mathlib.Control.Monad.Basic
import Tcam.Proofs.Classifier.Lookup
import Tcam.Proofs.Classifier.Reachable

/-!
# Rules whose load breaks off

Configuring a rule moves up to six pages, back to front: the pages of the second
slot, then the pages of the first, and of each slot the key page last.  A load
can break off between any two of them.  Over a free slot this does no harm: the
slot is free still, or the whole rule is in place (`free_or_inPlace_of_configure`).
Over a rule it leaves the pages that were moved with the new rule and the others
with the old one (`readRule_of_stopped_configure`), and what is read then can be
a mixture of both (`configure_mixesRules`).
-/

namespace Tcam

/-- The device after the listed pages of the second slot of a placement have been
loaded. -/
def Placement.begun {g : Geometry} (p : Placement) (d : Device g) (second : List Page) :
    Device g :=
  match p.continuation with
  | some (slot2, entry) => { d with slots := d.loaded slot2 (.ofEntry entry) second }
  | none => d

/-- The device after the listed pages of the second slot and then the listed
pages of the first slot of a placement have been loaded. -/
def Placement.midway {g : Geometry} (p : Placement) (d : Device g) (slot : SlotIndex)
    (second first : List Page) : Device g :=
  { p.begun d second with
    slots := (p.begun d second).loaded slot (.ofEntry p.primary) first }

/-- The load of a placement has stopped after the listed pages.  No page of the
first slot is loaded before the second slot is complete. -/
structure Placement.Stopped {g : Geometry} (p : Placement) (slot : SlotIndex) (d d' : Device g)
    (second first : List Page) : Prop where
  second_initial : second <+: g.loadOrder
  first_initial : first <+: g.loadOrder
  backToFront : first ≠ [] → second = g.loadOrder
  slots : d'.slots = (p.midway d slot second first).slots

/-- The slots hold all entries of the placement. -/
def Placement.InPlace {g : Geometry} (p : Placement) (slot : SlotIndex) (d : Device g) : Prop :=
  d.slot? slot = some (.ofEntry p.primary) ∧
    ∀ next entry, p.continuation = some (next, entry) → d.slot? next = some (.ofEntry entry)

namespace Placement

/-- The slots of the placement can be used together. -/
def Separate (p : Placement) (g : Geometry) (slot : SlotIndex) : Prop :=
  ∀ next entry, p.continuation = some (next, entry) →
    next ≠ slot ∧ g.checkSlot next = .ok ()

variable {g : Geometry} {p : Placement} {slot : SlotIndex} {d d' : Device g}
  {second first : List Page}

theorem begun_congr {d₁ : Device g} (h : d₁.slots = d.slots) (second : List Page) :
    (p.begun d₁ second).slots = (p.begun d second).slots := by
  unfold begun
  cases p.continuation with
  | none => exact h
  | some q => exact Device.loaded_congr h q.1 _ second

theorem begun_nil (p : Placement) (d : Device g) : (p.begun d []).slots = d.slots := by
  unfold begun
  cases p.continuation with
  | none => rfl
  | some q => exact d.loaded_nil q.1 _

theorem begun_loadOrder (p : Placement) (d : Device g) :
    p.begun d g.loadOrder = p.prepared d :=
  rfl

theorem midway_nil (p : Placement) (d : Device g) (slot : SlotIndex) (second : List Page) :
    (p.midway d slot second []).slots = (p.begun d second).slots :=
  (p.begun d second).loaded_nil slot _

namespace Stopped

theorem congr {d₁ : Device g} (hstop : p.Stopped slot d₁ d' second first)
    (h : d₁.slots = d.slots) : p.Stopped slot d d' second first :=
  { hstop with
    slots := hstop.slots.trans (Device.loaded_congr (begun_congr h second) slot _ first) }

variable (hstop : p.Stopped slot d d' second first)

include hstop

/-- Of the first slot the listed pages are new. -/
theorem slot?_first (hseparate : p.Separate g slot) : d'.slot? slot =
    (d.slot? slot).map fun old => old.withPages (.ofEntry p.primary) first := by
  have hbegun : (p.begun d second).slot? slot = d.slot? slot := by
    unfold begun
    cases hp : p.continuation with
    | none => rfl
    | some q => exact Device.slot?_of_loaded_of_ne rfl (hseparate q.1 q.2 hp).1.symm
  rw [Device.slot?_of_loaded hstop.slots, if_pos rfl, hbegun]

/-- Of the second slot the listed pages are new. -/
theorem slot?_second (hseparate : p.Separate g slot) {next : SlotIndex} {entry : Entry}
    (hp : p.continuation = some (next, entry)) : d'.slot? next =
      (d.slot? next).map fun old => old.withPages (.ofEntry entry) second := by
  rw [Device.slot?_of_loaded_of_ne hstop.slots (hseparate next entry hp).1, begun, hp]
  exact (Device.slot?_of_loaded rfl next).trans (if_pos rfl)

/-- No other slot has changed. -/
theorem slot?_of_ne {i : SlotIndex} (hi : i ≠ slot)
    (hp : ∀ entry, p.continuation ≠ some (i, entry)) : d'.slot? i = d.slot? i := by
  rw [Device.slot?_of_loaded_of_ne hstop.slots hi, begun]
  cases hq : p.continuation with
  | none => rfl
  | some q =>
      have hqi : i ≠ q.1 := fun h => hp q.2 (hq.trans (by rw [h]))
      exact Device.slot?_of_loaded_of_ne rfl hqi

/-- The key page of the first slot is the last of all. -/
theorem complete_of_key_mem (hkey : .key ∈ first) : first = g.loadOrder ∧ second = g.loadOrder :=
  ⟨Geometry.eq_loadOrder_of_key_mem hstop.first_initial hkey,
    hstop.backToFront (List.ne_nil_of_mem hkey)⟩

theorem isValid_first (hseparate : p.Separate g slot) :
    d'.isValid slot = true → .key ∈ first ∨ d.isValid slot = true := by
  intro h
  rw [Device.isValid, hstop.slot?_first hseparate] at h
  cases himage : d.slot? slot with
  | none =>
      rw [himage, Option.map_none, Option.any_none] at h
      cases h
  | some image =>
      rw [himage, Option.map_some, Option.any_some, SlotImage.isValid_withPages] at h
      by_cases hkey : Page.key ∈ first
      · exact Or.inl hkey
      · rw [if_neg hkey] at h
        rw [Device.isValid, himage]
        exact Or.inr h

/-- A slot that was valid has not become invalid. -/
theorem isValid_first_of_isValid (hseparate : p.Separate g slot) (h : d.isValid slot = true) :
    d'.isValid slot = true := by
  rw [Device.isValid, hstop.slot?_first hseparate]
  cases himage : d.slot? slot with
  | none =>
      rw [Device.isValid, himage, Option.any_none] at h
      cases h
  | some image =>
      rw [Device.isValid, himage, Option.any_some] at h
      rw [Option.map_some, Option.any_some, SlotImage.isValid_withPages, h,
        SlotImage.isValid_ofEntry, ite_self]

/-- With the last page all entries are in place. -/
theorem inPlace (hseparate : p.Separate g slot) (hpage : g.hasWindowPage = true)
    (hslot : g.checkSlot slot = .ok ()) (hkey : .key ∈ first) : p.InPlace slot d' := by
  obtain ⟨hfirst, hsecond⟩ := hstop.complete_of_key_mem hkey
  have hcomplete {i : SlotIndex} (hi : g.checkSlot i = .ok ()) (image : SlotImage) :
      ((d.slot? i).map fun old => old.withPages image g.loadOrder) = some image := by
    obtain ⟨old, hold⟩ := d.slot?_eq_some_of_le (Geometry.checkSlot_eq_ok_iff.mp hi).2
    rw [hold, Option.map_some, old.withPages_loadOrder image hpage]
  refine ⟨?_, fun next entry hp => ?_⟩
  · rw [hstop.slot?_first hseparate, hfirst, hcomplete hslot]
  · rw [hstop.slot?_second hseparate hp, hsecond, hcomplete (hseparate next entry hp).2]

end Stopped

end Placement

namespace Classifier

variable {c : Classifier} {slot1 slot2 : SlotIndex} {rule : Rule} {p : Placement} {e : Error}
  {l l' : Lock (Table.State (Device c.table.geometry))}

theorem separate_of_plan (h : c.plan slot1 slot2 rule = .ok p) :
    p.Separate c.table.geometry slot1 := by
  intro next entry hp
  refine ⟨?_, continuesInTable_of_plan h next entry hp⟩
  obtain ⟨-, -, hcontinuation⟩ := plan_eq_ok h
  unfold checkContinuation at hcontinuation
  rw [hp] at hcontinuation
  obtain ⟨_, -, hsame⟩ := Checks.bind_eq_ok_iff.mp hcontinuation
  rw [Checks.throw_eq_error, Checks.pure_eq_ok, Checks.refuse_eq_ok_iff] at hsame
  exact hsame.1

section Loads

variable {t : Table} {s s' : Table.State (Device t.geometry)} {slot : SlotIndex}

theorem Placed.stopped (h : Placed p slot s s') :
    p.Stopped slot s.bus s'.bus t.geometry.loadOrder t.geometry.loadOrder where
  second_initial := List.prefix_rfl
  first_initial := List.prefix_rfl
  backToFront _ := rfl
  slots := h.2.2

/-- A load that fails has stopped somewhere.  It does not get to the first slot
if the first entry does not fit. -/
theorem PlacementFails.stopped (h : PlacementFails p slot s e s') :
    ∃ second first, p.Stopped slot s.bus s'.bus second first ∧
      (first ≠ [] → p.primary.check t.geometry = .ok ()) := by
  have hbefore {second : List Page} (hsecond : second <+: t.geometry.loadOrder)
      (hslots : s'.bus.slots = (p.midway s.bus slot second []).slots) :
      ∃ second first, p.Stopped slot s.bus s'.bus second first ∧
        (first ≠ [] → p.primary.check t.geometry = .ok ()) :=
    ⟨second, [], ⟨hsecond, List.nil_prefix, absurd rfl, hslots⟩, absurd rfl⟩
  rcases h with ⟨-, hkept⟩ | ⟨-, ⟨-, hslots⟩ | ⟨-, hpart⟩⟩
  · refine hbefore List.nil_prefix ?_
    rw [hkept, Placement.midway_nil, Placement.begun_nil]
  · refine hbefore List.prefix_rfl ?_
    rw [hslots, Placement.midway_nil, Placement.begun_loadOrder]
  rcases hpart with ⟨next, entry, hnext, done, hdone, hslots⟩ | ⟨hfits, done, hdone, hslots⟩
  · refine hbefore hdone ?_
    rw [hslots, Placement.midway_nil, Placement.begun, hnext]
  · refine ⟨_, done, ⟨List.prefix_rfl, hdone, fun _ => rfl, ?_⟩, fun _ => hfits⟩
    rw [hslots, Placement.midway, Placement.begun_loadOrder]

end Loads

/-- A rule whose configuration fails was refused, or its load has stopped
somewhere. -/
theorem stopped_of_configure (hvalid : c.table.geometry.Valid) (hl : l.poisoned = false)
    (h : c.configure slot1 slot2 rule l = .error e l') :
    (c.plan slot1 slot2 rule = .error e ∧ l'.content.bus.slots = l.content.bus.slots) ∨
      ∃ p second first, c.plan slot1 slot2 rule = .ok p ∧
        p.Stopped slot1 l.content.bus l'.content.bus second first ∧
        (first ≠ [] → p.primary.check c.table.geometry = .ok ()) := by
  rcases (configure_ends hvalid hl slot1 slot2 rule).cases with
    ⟨_, _, hok, -⟩ | ⟨e', l'', herror, -, -, hfails⟩
  · exact nomatch h.symm.trans hok
  obtain ⟨rfl, rfl⟩ := EStateM.Result.error.inj (herror.symm.trans h)
  rcases hfails with ⟨hplan, hkept⟩ | ⟨p, hp, hfails⟩
  · exact Or.inl ⟨hplan, congrArg (fun s => s.bus.slots) hkept⟩
  · obtain ⟨second, first, hstop, hfits⟩ := hfails.stopped
    exact Or.inr ⟨p, second, first, hp, hstop, hfits⟩

/-- With all entries of a rule in place the rule is there. -/
theorem ruleAt_of_inPlace {d : Device c.table.geometry} (hp : c.plan slot1 slot2 rule = .ok p)
    (hpage : c.table.geometry.hasWindowPage = true) (h : p.InPlace slot1 d) :
    d.ruleAt slot1 = .ok (some rule) := by
  obtain ⟨hslot1, hplace, -⟩ := plan_eq_ok hp
  refine Device.ruleAt_of_place hslot1 hplace ?_ fun next entry hnext => ?_
  · exact Device.content_of_slot? h.1 (Rule.check_primary hplace hpage)
  · refine ⟨(separate_of_plan hp next entry hnext).2, ?_⟩
    exact Device.content_of_slot? (h.2 next entry hnext)
      (Rule.check_continuation hplace hpage hnext)

/-- What is read later on, when the hardware works again and nothing else has
happened to the slots. -/
theorem result_readRule_of_slots (hvalid : c.table.geometry.Valid)
    (hmarked : l.content.bus.Marked) (hl' : l'.poisoned = false)
    (hready : l'.content.bus.Ready c.table.pollLimit)
    (hslots : l'.content.bus.slots = l.content.bus.slots) (slot : SlotIndex) :
    (c.readRule slot).result l' = l.content.bus.ruleAt slot := by
  rw [result_readRule hvalid hl' hready (hmarked.evolves (.same hslots)),
    Device.ruleAt_congr hslots]

theorem Reachable.of_configure_eq_error (hl : c.Reachable l)
    (h : c.configure slot1 slot2 rule l = .error e l') : c.Reachable l' :=
  hl.of_configure h

/-! ## Free slots -/

/-- Configuring a rule at a free slot is atomic: if it fails for whatever reason,
the slot is free still or all entries of the rule are in place.  So it reads as
free or as this rule once the hardware works again. -/
theorem free_or_inPlace_of_configure (hgeometry : c.table.geometry.validate = .ok ())
    (hl : c.Reachable l) (hfree : l.content.bus.isValid slot1 = false)
    (h : c.configure slot1 slot2 rule l = .error e l') :
    (l'.content.bus.isValid slot1 = false ∨
      ∃ p, rule.place slot2 = .ok p ∧ p.InPlace slot1 l'.content.bus) ∧
    ∀ later : Lock (Table.State (Device c.table.geometry)), later.poisoned = false →
      later.content.bus.Ready c.table.pollLimit →
      later.content.bus.slots = l'.content.bus.slots →
      (c.table.geometry.checkSlot slot1 = .ok () →
        (c.readRule slot1).result later = .ok none ∨
          (c.readRule slot1).result later = .ok (some rule)) ∧
      ∀ refusal, c.table.geometry.checkSlot slot1 = .error refusal →
        (c.readRule slot1).result later = .error refusal := by
  have hvalid := Geometry.validate_eq_ok_iff.mp hgeometry
  have hmarked := (hl.of_configure_eq_error h).marked hvalid
  have hoccupied : l'.content.bus.isValid slot1 = false ∨ ∃ p, c.plan slot1 slot2 rule = .ok p ∧
      c.table.geometry.hasWindowPage = true ∧ p.InPlace slot1 l'.content.bus := by
    rcases stopped_of_configure hvalid (hl.evolves hvalid).1 h with
      ⟨-, hkept⟩ | ⟨p, second, first, hp, hstop, hfits⟩
    · exact Or.inl ((Device.isValid_congr hkept slot1).trans hfree)
    have hseparate := separate_of_plan hp
    obtain ⟨hslot1, hplace, -⟩ := plan_eq_ok hp
    by_cases hkey : Page.key ∈ first
    · -- Only a table with window pages takes the first entry of a rule.
      have hpage : c.table.geometry.hasWindowPage = true := by
        rw [← Bool.not_eq_false]
        exact fun hno => Rule.check_primary_ne_ok hplace hno (hfits (List.ne_nil_of_mem hkey))
      exact Or.inr ⟨p, hp, hpage, hstop.inPlace hseparate hpage hslot1 hkey⟩
    · refine Or.inl (Bool.eq_false_iff.mpr fun hloaded => ?_)
      rcases hstop.isValid_first hseparate hloaded with hin | hbefore
      · exact hkey hin
      · exact nomatch hfree.symm.trans hbefore
  refine ⟨hoccupied.imp_right fun ⟨p, hp, _, hplaced⟩ => ⟨p, (plan_eq_ok hp).2.1, hplaced⟩, ?_⟩
  intro later hlater hready hslots
  rw [result_readRule_of_slots hvalid hmarked hlater hready hslots]
  refine ⟨fun hslot => ?_, fun refusal hslot => Device.ruleAt_of_checkSlot_eq_error hslot⟩
  rcases hoccupied with hempty | ⟨p, hp, hpage, hplaced⟩
  · exact Or.inl (Device.ruleAt_of_not_valid hslot hempty)
  · exact Or.inr (ruleAt_of_inPlace hp hpage hplaced)

/-- The classifier of the ingress table, which has window pages. -/
def ingressSample : Classifier :=
  ⟨default, ⟨.ingress, 1000⟩⟩

/-- A rule for all frames of one shape. -/
def datagramSample : Rule :=
  Rule.wildcard ⟨.ipv4, .udp⟩

/-- The last access of a load fails: the rule is in place although it was not
configured without an error. -/
theorem free_or_inPlace_of_configure_lastAccess :
    ingressSample.table.geometry.validate = .ok () ∧ ∃ l l' cause, ingressSample.Reachable l ∧
      l.content.bus.isValid 3#16 = false ∧
      ingressSample.configure 3#16 4#16 datagramSample l = .error (.transport cause) l' ∧
      ∃ p, datagramSample.place 4#16 = .ok p ∧ p.InPlace 3#16 l'.content.bus := by
  let l : Lock (Table.State (Device ingressSample.table.geometry)) :=
    adjust (fun d => d.failNthAccess 72) (.ofContent (.ofBus (.fresh ingressSample.table.geometry)))
  have hl : ingressSample.Reachable l := .call _ (.failNthAccess 72) .fresh
  have hfree : l.content.bus.isValid 3#16 = false := by
    decide +kernel
  have hresult : (ingressSample.configure 3#16 4#16 datagramSample).result l =
      .error (.transport (.access ⟨0x1f#8⟩ operationRegister .injected)) := by
    decide +kernel
  have hloaded : ((ingressSample.configure 3#16 4#16 datagramSample).after l).content.bus.isValid
      3#16 = true := by
    decide +kernel
  have hrun := Transaction.eq_of_result_eq_error hresult
  refine ⟨rfl, l, _, _, hl, hfree, hrun, ?_⟩
  obtain ⟨hempty | hplaced, -⟩ := free_or_inPlace_of_configure rfl hl hfree hrun
  · exact nomatch hempty.symm.trans hloaded
  · exact hplaced

/-! ## Slots with a rule -/

/-- If configuring a rule over another one breaks off, the slots hold the pages
of the new rule that were loaded, back to front, and otherwise the old pages.
The old rule is read as long as no page of its slots has been overwritten, the
new rule once all pages are loaded, and never nothing. -/
theorem readRule_of_stopped_configure (hgeometry : c.table.geometry.validate = .ok ())
    (hpage : c.table.geometry.hasWindowPage = true) (hl : c.Reachable l) {old new : Rule}
    (hold : (c.readRule slot1).result l = .ok (some old)) {n : Nat} {cause : RegError}
    (h : c.configure slot1 slot2 new (adjust (fun d => d.failNthAccess n) l) =
      .error (.transport cause) l') :
    ∃ p second first, new.place slot2 = .ok p ∧
      p.Stopped slot1 l.content.bus l'.content.bus second first ∧
      ∀ later : Lock (Table.State (Device c.table.geometry)), later.poisoned = false →
        later.content.bus.Ready c.table.pollLimit →
        later.content.bus.slots = l'.content.bus.slots →
        (c.readRule slot1).result later =
            (p.midway l.content.bus slot1 second first).ruleAt slot1 ∧
          (c.readRule slot1).result later ≠ .ok none ∧
          (first = [] → (second = [] ∨
              ∀ next entry, p.continuation = some (next, entry) →
                l.content.bus.next? slot1 ≠ some next) →
            (c.readRule slot1).result later = .ok (some old)) ∧
          (first = c.table.geometry.loadOrder →
            (c.readRule slot1).result later = .ok (some new)) := by
  have hvalid := Geometry.validate_eq_ok_iff.mp hgeometry
  have hpoison := (hl.evolves hvalid).1
  have hmarked : l'.content.bus.Marked :=
    (Reachable.of_configure_eq_error (.call l (.failNthAccess n) hl) h).marked hvalid
  have hrule := ruleAt_of_result_readRule hvalid hpoison (hl.marked hvalid) hold
  rcases stopped_of_configure hvalid (l := adjust _ l) hpoison h with
    ⟨hplan, -⟩ | ⟨p, second, first, hp, hstop, -⟩
  · -- A refused argument is no failed access.
    exact nomatch (isRefusal_of_plan hplan).choose_spec
  replace hstop : p.Stopped slot1 l.content.bus l'.content.bus second first :=
    hstop.congr rfl
  have hseparate := separate_of_plan hp
  obtain ⟨hslot1, hplace, -⟩ := plan_eq_ok hp
  have hloaded : l.content.bus.isValid slot1 = true := by
    rw [← Bool.not_eq_false]
    exact fun hno => nomatch (Device.ruleAt_of_not_valid hslot1 hno).symm.trans hrule
  refine ⟨p, second, first, hplace, hstop, fun later hlater hready hslots => ?_⟩
  rw [result_readRule_of_slots hvalid hmarked hlater hready hslots]
  refine ⟨Device.ruleAt_congr hstop.slots slot1,
    Device.ruleAt_ne_none (hstop.isValid_first_of_isValid hseparate hloaded), ?_, ?_⟩
  · rintro rfl hsecond
    rw [← hrule]
    have hfirst : l'.content.bus.slot? slot1 = l.content.bus.slot? slot1 :=
      (hstop.slot?_first hseparate).trans Option.map_id'
    refine Device.ruleAt_congr_slot? hfirst fun next hnext => ?_
    by_cases hown : next = slot1
    · rw [hown, hfirst]
    rcases hsecond with rfl | hother
    · have hkept := hstop.slots.trans ((p.midway_nil _ slot1 []).trans (p.begun_nil _))
      exact Device.slot?_congr hkept next
    · exact hstop.slot?_of_ne hown fun entry hentry => hother next entry hentry hnext
  · rintro rfl
    exact ruleAt_of_inPlace hp hpage
      (hstop.inPlace hseparate hpage hslot1 c.table.geometry.key_mem_loadOrder)

/-- A rule for all frames of another shape, which it sends to one port. -/
def segmentSample : Rule :=
  { Rule.wildcard ⟨.ipv4, .tcp⟩ with action := .redirect (.single 5) }

/-- The device after one rule was configured. -/
def programmedSample : Lock (Table.State (Device ingressSample.table.geometry)) :=
  ingressSample.after (.configure 3#16 4#16 datagramSample)
    (.ofContent (.ofBus (.fresh ingressSample.table.geometry)))

theorem reachable_programmedSample : ingressSample.Reachable programmedSample :=
  .call _ (.configure 3#16 4#16 datagramSample) .fresh

theorem result_readRule_programmedSample :
    (ingressSample.readRule 3#16).result programmedSample = .ok (some datagramSample) := by
  decide +kernel

/-- The device after the other rule was to take its place and the twentieth access
failed. -/
def stoppedSample : Lock (Table.State (Device ingressSample.table.geometry)) :=
  (ingressSample.configure 3#16 4#16 segmentSample).after
    (adjust (fun d => d.failNthAccess 20) programmedSample)

theorem configure_programmedSample :
    ingressSample.configure 3#16 4#16 segmentSample
        (adjust (fun d => d.failNthAccess 20) programmedSample) =
      .error (.transport (.access ⟨0x1f#8⟩ (dataRegister 6) .injected)) stoppedSample := by
  apply Transaction.eq_of_result_eq_error
  decide +kernel

theorem ready_stoppedSample : stoppedSample.content.bus.Ready ingressSample.table.pollLimit :=
  ⟨by decide +kernel, by decide +kernel, by decide +kernel, by decide +kernel⟩

theorem readRule_of_stopped_configure_programmedSample :
    ingressSample.table.geometry.validate = .ok () ∧
      ingressSample.table.geometry.hasWindowPage = true ∧
      ingressSample.Reachable programmedSample ∧
      (ingressSample.readRule 3#16).result programmedSample = .ok (some datagramSample) ∧
      ingressSample.configure 3#16 4#16 segmentSample
          (adjust (fun d => d.failNthAccess 20) programmedSample) =
        .error (.transport (.access ⟨0x1f#8⟩ (dataRegister 6) .injected)) stoppedSample ∧
      ∃ p second first, segmentSample.place 4#16 = .ok p ∧
        p.Stopped 3#16 programmedSample.content.bus stoppedSample.content.bus second first ∧
        (ingressSample.readRule 3#16).result stoppedSample =
          (p.midway programmedSample.content.bus 3#16 second first).ruleAt 3#16 := by
  refine ⟨rfl, rfl, reachable_programmedSample, result_readRule_programmedSample,
    configure_programmedSample, ?_⟩
  obtain ⟨p, second, first, hplace, hstop, hread⟩ := readRule_of_stopped_configure rfl rfl
    reachable_programmedSample result_readRule_programmedSample configure_programmedSample
  have hpoison : stoppedSample.poisoned = false := by
    decide +kernel
  exact ⟨p, second, first, hplace, hstop, (hread _ hpoison ready_stoppedSample rfl).1⟩

/-- What is read after this failure is neither rule: the frames of the old one,
sent where the new one sends its own. -/
theorem configure_mixesRules :
    ingressSample.table.geometry.hasWindowPage = true ∧
      ingressSample.Reachable programmedSample ∧
      (ingressSample.readRule 3#16).result programmedSample = .ok (some datagramSample) ∧
      ingressSample.configure 3#16 4#16 segmentSample
          (adjust (fun d => d.failNthAccess 20) programmedSample) =
        .error (.transport (.access ⟨0x1f#8⟩ (dataRegister 6) .injected)) stoppedSample ∧
      stoppedSample.content.bus.Ready ingressSample.table.pollLimit ∧
      ∃ mixed, (ingressSample.readRule 3#16).result stoppedSample = .ok (some mixed) ∧
        mixed ≠ datagramSample ∧ mixed ≠ segmentSample := by
  refine ⟨rfl, reachable_programmedSample, result_readRule_programmedSample,
    configure_programmedSample, ready_stoppedSample,
    { datagramSample with action := segmentSample.action }, ?_, ?_, ?_⟩
  · decide +kernel
  · decide
  · decide

end Classifier

end Tcam
