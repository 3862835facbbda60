import Tcam.Proofs.Classifier.Footprint
import Tcam.Proofs.Classifier.Interruption
import Tcam.Proofs.Classifier.Refusal

/-!
# Configuring a rule from any contents

Rules are checked where they are placed, and entries are checked where they are loaded.
With window pages the second check accepts everything that the first one does, without
them it accepts no rule at all (`loads_every_rule_or_none`).  So with window pages, and
while the hardware works, the arguments alone decide whether a rule is configured.  If it
is, it can be read back whatever its slots held before, and rules in other slots are
unchanged (`configure_from_any_contents`).
-/

namespace Tcam

/-- The entries of the rule. -/
def Placement.entries (p : Placement) : List Entry :=
  p.primary :: (p.continuation.map Prod.snd).toList

/-- Put at `slot1`, the rule takes the slot. -/
def Rule.Takes (rule : Rule) (slot1 slot2 slot : SlotIndex) : Prop :=
  slot = slot1 ∨ slot = slot2 ∧ rule.CascadesInto slot2

namespace Rule

variable {rule : Rule} {slot1 slot2 : SlotIndex} {p : Placement} {g : Geometry}

/-- With a window page slots hold all entries of every accepted rule. -/
theorem check_entries (h : rule.place slot2 = .ok p) (hpage : g.hasWindowPage = true) :
    ∀ entry ∈ p.entries, entry.check g = .ok () := by
  rw [Placement.entries, List.forall_mem_cons]
  refine ⟨check_primary h hpage, fun entry hentry => ?_⟩
  rw [Option.mem_toList, Option.map_eq_some_iff] at hentry
  obtain ⟨⟨slot, second⟩, hp, rfl⟩ := hentry
  exact check_continuation h hpage hp

theorem cascadesInto_iff (h : rule.place slot2 = .ok p) :
    rule.CascadesInto slot2 ↔ p.isCascaded = true := by
  constructor
  · rintro ⟨q, hq, hcascaded⟩
    obtain rfl := Except.ok.inj (h.symm.trans hq)
    exact hcascaded
  · exact fun hcascaded => ⟨p, h, hcascaded⟩

theorem cascadesInto_of_continuation (h : rule.place slot2 = .ok p) {slot : SlotIndex}
    {entry : Entry} (hp : p.continuation = some (slot, entry)) :
    slot = slot2 ∧ rule.CascadesInto slot2 := by
  refine ⟨(next?_continuation h hp).1, p, h, ?_⟩
  rw [Placement.isCascaded, hp]
  rfl

end Rule

/-! ## What the table refuses -/

namespace Table

variable {t : Table}

/-- An entry that a slot would keep is not refused, in whatever state the device is. -/
theorem not_isRefusal_of_loadEntry (hvalid : t.geometry.Valid) {slot : SlotIndex} {entry : Entry}
    (hslot : t.geometry.checkSlot slot = .ok ()) (hentry : entry.check t.geometry = .ok ())
    {s s' : Table.State (Device t.geometry)} {e : Error}
    (h : t.loadEntry slot entry s = .error e s') : ¬e.IsRefusal := by
  rcases (loadEntry_ends hvalid slot entry).of_error h with ⟨hno, -⟩ | ⟨-, hno, -⟩ | ⟨-, -, he, -⟩
  · exact nomatch hslot.symm.trans hno
  · exact nomatch hentry.symm.trans hno
  · exact fun hrefusal => nomatch he.symm.trans hrefusal.not_retryable

/-- An entry that a slot would not keep is not loaded, whatever the bus does. -/
theorem loadEntry_ne_ok {σ : Type} [RegisterBus σ] {entry : Entry} {e : Error}
    (hentry : entry.check t.geometry = .error e) (slot : SlotIndex) (s s' : Table.State σ) :
    t.loadEntry slot entry s ≠ .ok () s' := by
  rw [loadEntry_eq, hentry]
  cases t.geometry.checkSlot slot with
  | ok u => exact nofun
  | error e' => exact nofun

end Table

namespace Classifier

variable {c : Classifier} {slot1 slot2 : SlotIndex} {rule : Rule} {p : Placement} {e : Error}

section AnyBus

variable {σ : Type} [RegisterBus σ]

theorem load_ne_ok {t : Table} (hprimary : p.primary.check t.geometry = .error e)
    (slot : SlotIndex) (s s' : Table.State σ) : load t slot p s ≠ .ok () s' := by
  rw [load_eq]
  intro h
  obtain ⟨_, s₁, -, hfirst⟩ := of_bind_eq_ok h
  exact Table.loadEntry_ne_ok hprimary slot s₁ s' hfirst

/-- Without window pages no rule is configured, whatever the bus does. -/
theorem configure_ne_ok (hpage : c.table.geometry.hasWindowPage = false)
    (slot1 slot2 : SlotIndex) (rule : Rule) (l : Lock (Table.State σ)) (b : Bool)
    (l' : Lock (Table.State σ)) : c.configure slot1 slot2 rule l ≠ .ok b l' := by
  unfold configure
  cases hp : c.plan slot1 slot2 rule with
  | error e => exact nofun
  | ok p =>
      have hprimary := Rule.check_primary_eq_error (plan_eq_ok hp).2.1 hpage
      change EStateM.bind (load c.table slot1 p).locked (fun _ => pure p.isCascaded) l ≠ _
      unfold EStateM.bind Session.locked Lock.hold
      cases l.poisoned with
      | true => exact nofun
      | false =>
          cases hload : load c.table slot1 p l.content with
          | ok u s => exact absurd hload (load_ne_ok hprimary slot1 _ _)
          | error e s =>
              simp only [hload]
              exact nofun

/-- A refused argument is answered without a register access. -/
theorem configure_of_plan_eq_error (h : c.plan slot1 slot2 rule = .error e)
    (l : Lock (Table.State σ)) : c.configure slot1 slot2 rule l = .error e l := by
  unfold configure
  rw [h]
  rfl

end AnyBus

/-- With window pages every accepted rule can be loaded, slot by slot, and its entries are
never refused.  Without window pages its first entry always is, because of the protocol
number that it compares, so no rule is ever configured. -/
theorem loads_every_rule_or_none (hgeometry : c.table.geometry.validate = .ok ()) :
    (c.table.geometry.windowPages = 2#8 → ∀ rule slot2 p, Rule.place rule slot2 = .ok p →
      ∀ entry ∈ p.entries, entry.check c.table.geometry = .ok () ∧
        ∀ slot, c.table.geometry.checkSlot slot = .ok () →
          ∀ (s : Table.State (Device c.table.geometry)) e s',
            c.table.loadEntry slot entry s = .error e s' → ¬e.IsRefusal) ∧
    (c.table.geometry.windowPages = 1#8 →
      (∀ rule slot2 p, Rule.place rule slot2 = .ok p →
        keyPageOctets ≤ Frame.protocolOctet rule.headers.network.kind ∧
        p.primary.window.maskOctet (Frame.protocolOctet rule.headers.network.kind) =
          BitVec.allOnes 8 ∧
        p.primary.check c.table.geometry =
          .error (.invalidArgument (.windowTooLong keyPageOctets))) ∧
      ∀ (σ : Type) [RegisterBus σ] slot1 slot2 rule (l : Lock (Table.State σ)) b l',
        c.configure slot1 slot2 rule l ≠ .ok b l') := by
  have hvalid := Geometry.validate_eq_ok_iff.mp hgeometry
  refine ⟨fun hpages rule slot2 p hplace entry hentry => ?_,
    fun hpages => ⟨fun rule slot2 p hplace => ?_, fun σ _ => ?_⟩⟩
  · have hpage := Geometry.hasWindowPage_eq_true hpages
    have hcheck := Rule.check_entries hplace hpage entry hentry
    exact ⟨hcheck, fun slot hslot s e s' =>
      Table.not_isRefusal_of_loadEntry hvalid hslot hcheck⟩
  · have hpage := Geometry.hasWindowPage_eq_false hpages
    exact ⟨rule.protocol_behind_keyPage.1, Rule.maskOctet_primary hplace,
      Rule.check_primary_eq_error hplace hpage⟩
  · exact configure_ne_ok (Geometry.hasWindowPage_eq_false hpages)

theorem place_urgentSample :
    urgentSample.place 4#16 = .ok (urgentSample.linkedPlacement 4#16) :=
  (plan_eq_ok plan_urgentSample).2.1

/-- The ingress table has window pages, the egress table has none. -/
theorem loads_every_rule_or_none_urgentSample :
    ingressSample.table.geometry.validate = .ok () ∧
      egressSample.table.geometry.validate = .ok () ∧
      ingressSample.table.geometry.windowPages = 2#8 ∧
      egressSample.table.geometry.windowPages = 1#8 ∧
      ∃ p, urgentSample.place 4#16 = .ok p ∧ p.entries.length = 2 ∧
        (∀ entry ∈ p.entries, entry.check ingressSample.table.geometry = .ok ()) ∧
        p.primary.check egressSample.table.geometry =
          .error (.invalidArgument (.windowTooLong 22)) ∧
        ∀ (l : Lock (Table.State (Device egressSample.table.geometry))) b l',
          egressSample.configure 3#16 4#16 urgentSample l ≠ .ok b l' := by
  obtain ⟨htwo, -⟩ := loads_every_rule_or_none (c := ingressSample) rfl
  obtain ⟨-, hone⟩ := loads_every_rule_or_none (c := egressSample) rfl
  obtain ⟨hrefused, hnever⟩ := hone rfl
  exact ⟨rfl, rfl, rfl, rfl, _, place_urgentSample, rfl,
    fun entry hentry => (htwo rfl _ _ _ place_urgentSample entry hentry).1,
    (hrefused _ _ _ place_urgentSample).2.2, hnever _ _ _ _⟩

/-! ## Which arguments are accepted -/

/-- The arguments with which a rule can be configured. -/
structure Admits (c : Classifier) (slot1 slot2 : SlotIndex) (rule : Rule) : Prop where
  first : c.table.geometry.checkSlot slot1 = .ok ()
  accepted : ∃ p, rule.place slot2 = .ok p
  second : rule.CascadesInto slot2 →
    c.table.geometry.checkSlot slot2 = .ok () ∧ slot2 ≠ slot1

theorem admits_of_plan (h : c.plan slot1 slot2 rule = .ok p) : c.Admits slot1 slot2 rule := by
  obtain ⟨hslot1, hplace, -⟩ := plan_eq_ok h
  refine ⟨hslot1, ⟨p, hplace⟩, fun hcascades => ?_⟩
  rw [Rule.cascadesInto_iff hplace, Placement.isCascaded, Option.isSome_iff_exists] at hcascades
  obtain ⟨⟨next, entry⟩, hp⟩ := hcascades
  obtain ⟨hne, hnext⟩ := separate_of_plan h next entry hp
  obtain ⟨rfl, -⟩ := Rule.cascadesInto_of_continuation hplace hp
  exact ⟨hnext, hne⟩

theorem plan_of_admits (h : c.Admits slot1 slot2 rule) (hplace : rule.place slot2 = .ok p) :
    c.plan slot1 slot2 rule = .ok p := by
  have hcontinuation : c.checkContinuation slot1 p = .ok () := by
    unfold checkContinuation
    cases hp : p.continuation with
    | none => rfl
    | some q =>
        obtain ⟨hq, hcascades⟩ := Rule.cascadesInto_of_continuation hplace hp
        obtain ⟨hslot2, hne⟩ := h.second hcascades
        simp only [hq, hslot2, if_neg hne]
        rfl
  unfold plan
  rw [h.first, hplace]
  simp only [bind, Except.bind, hcontinuation]
  rfl

/-- Arguments with which a rule cannot be configured are refused. -/
theorem exists_plan_eq_error (h : ¬c.Admits slot1 slot2 rule) :
    ∃ cause, c.plan slot1 slot2 rule = .error (.invalidArgument cause) := by
  cases hplan : c.plan slot1 slot2 rule with
  | ok p => exact absurd (admits_of_plan hplan) h
  | error e =>
      obtain ⟨cause, rfl⟩ := isRefusal_of_plan hplan
      exact ⟨cause, rfl⟩

/-! ## What is read afterwards -/

variable {l l' : Lock (Table.State (Device c.table.geometry))}

/-- While the hardware works, accepted arguments lead to a complete load. -/
theorem exists_configure_of_plan (hvalid : c.table.geometry.Valid) (hl : l.poisoned = false)
    (hready : l.content.bus.Ready c.table.pollLimit)
    (hpage : c.table.geometry.hasWindowPage = true) (hp : c.plan slot1 slot2 rule = .ok p) :
    ∃ l', c.configure slot1 slot2 rule l = .ok p.isCascaded l' ∧ l'.poisoned = false ∧
      l'.content.bus.Ready c.table.pollLimit ∧ Placed p slot1 l.content l'.content := by
  obtain ⟨-, hplace, -⟩ := plan_eq_ok hp
  rcases (configure_ends hvalid hl slot1 slot2 rule).cases with
    ⟨b, l', hok, hl', hready', q, hq, rfl, hplaced⟩ | ⟨e, l', -, -, hnot, hfails⟩
  · obtain rfl := Except.ok.inj (hp.symm.trans hq)
    exact ⟨l', hok, hl', hready' hready, hplaced⟩
  · rcases hfails with ⟨hno, -⟩ | ⟨q, hq, hfails⟩
    · exact nomatch hp.symm.trans hno
    obtain rfl := Except.ok.inj (hp.symm.trans hq)
    rcases hfails with ⟨hno, -⟩ | ⟨-, ⟨hno, -⟩ | ⟨he, -⟩⟩
    · exact nomatch (Rule.checkSecond_of_place hplace hpage).symm.trans hno
    · exact nomatch (Rule.check_primary hplace hpage).symm.trans hno
    · exact nomatch he.symm.trans (hnot hready).2

/-- From `l` to `l'` the rule has been configured.  Of the other slots only those are read
differently whose entry continues in a slot that the rule took. -/
structure Configured (c : Classifier) (slot1 slot2 : SlotIndex) (rule : Rule)
    (l : Lock (Table.State (Device c.table.geometry))) (cascaded : Bool)
    (l' : Lock (Table.State (Device c.table.geometry))) : Prop where
  cascades : cascaded = true ↔ rule.CascadesInto slot2
  own : (c.readRule slot1).result l' = .ok (some rule)
  others : ∀ slot, ¬rule.Takes slot1 slot2 slot →
    (∀ next, l.content.bus.isValid slot = true → l.content.bus.next? slot = some next →
      ¬rule.Takes slot1 slot2 next) →
    (c.readRule slot).result l' = (c.readRule slot).result l

/-- Slots that the placement does not take are as they were. -/
theorem slot?_of_not_takes (hplace : rule.place slot2 = .ok p)
    (hplaced : Placed p slot1 l.content l'.content) {slot : SlotIndex}
    (h : ¬rule.Takes slot1 slot2 slot) : l'.content.bus.slot? slot = l.content.bus.slot? slot :=
  hplaced.stopped.slot?_of_ne (fun heq => h (Or.inl heq)) fun _ hentry =>
    h (Or.inr (Rule.cascadesInto_of_continuation hplace hentry))

theorem configured_of_placed (hvalid : c.table.geometry.Valid) (hl : l.poisoned = false)
    (hready : l.content.bus.Ready c.table.pollLimit) (hmarked : l.content.bus.Marked)
    (hpage : c.table.geometry.hasWindowPage = true) (hp : c.plan slot1 slot2 rule = .ok p)
    (hl' : l'.poisoned = false) (hready' : l'.content.bus.Ready c.table.pollLimit)
    (hmarked' : l'.content.bus.Marked) (hplaced : Placed p slot1 l.content l'.content) :
    c.Configured slot1 slot2 rule l p.isCascaded l' := by
  obtain ⟨hslot1, hplace, -⟩ := plan_eq_ok hp
  refine ⟨(Rule.cascadesInto_iff hplace).symm, ?own, ?others⟩
  case own =>
    rw [result_readRule hvalid hl' hready' hmarked']
    exact ruleAt_of_inPlace hp hpage (hplaced.stopped.inPlace (separate_of_plan hp) hpage hslot1
      c.table.geometry.key_mem_loadOrder)
  case others =>
    intro slot hslot hnext
    rw [result_readRule hvalid hl' hready' hmarked', result_readRule hvalid hl hready hmarked]
    exact Device.ruleAt_congr_of_valid (slot?_of_not_takes hplace hplaced hslot)
      fun hloaded next hcontinues =>
        slot?_of_not_takes hplace hplaced (hnext next hloaded hcontinues)

theorem exists_configured_of_admits (hvalid : c.table.geometry.Valid)
    (hpage : c.table.geometry.hasWindowPage = true) (hl : c.Reachable l)
    (hready : l.content.bus.Ready c.table.pollLimit) (h : c.Admits slot1 slot2 rule) :
    ∃ cascaded l', c.configure slot1 slot2 rule l = .ok cascaded l' ∧
      c.Configured slot1 slot2 rule l cascaded l' := by
  obtain ⟨p, hplace⟩ := h.accepted
  have hp := plan_of_admits h hplace
  have hpoison := (hl.evolves hvalid).1
  obtain ⟨l', hrun, hl', hready', hplaced⟩ :=
    exists_configure_of_plan hvalid hpoison hready hpage hp
  have hmarked' := (hl.of_configure hrun).marked hvalid
  exact ⟨_, l', hrun, configured_of_placed hvalid hpoison hready (hl.marked hvalid) hpage hp
    hl' hready' hmarked' hplaced⟩

/-- On a table with window pages, whatever its slots hold and while the hardware works, a
rule is configured if and only if its arguments are accepted, and otherwise refused
without any register access.  Then it is read back, and other slots are read as before. -/
theorem configure_from_any_contents (hgeometry : c.table.geometry.validate = .ok ())
    (hpages : c.table.geometry.windowPages = 2#8) (hl : c.Reachable l)
    (hready : l.content.bus.Ready c.table.pollLimit) (slot1 slot2 : SlotIndex) (rule : Rule) :
    ((∃ cascaded l', c.configure slot1 slot2 rule l = .ok cascaded l') ↔
      c.Admits slot1 slot2 rule) ∧
    (¬c.Admits slot1 slot2 rule →
      ∃ cause, c.configure slot1 slot2 rule l = .error (.invalidArgument cause) l) ∧
    ∀ cascaded l', c.configure slot1 slot2 rule l = .ok cascaded l' →
      c.Configured slot1 slot2 rule l cascaded l' := by
  have hvalid := Geometry.validate_eq_ok_iff.mp hgeometry
  have hpage := Geometry.hasWindowPage_eq_true hpages
  by_cases h : c.Admits slot1 slot2 rule
  · obtain ⟨cascaded, l', hrun, hconfigured⟩ :=
      exists_configured_of_admits hvalid hpage hl hready h
    refine ⟨⟨fun _ => h, fun _ => ⟨cascaded, l', hrun⟩⟩, absurd h, fun cascaded' l₁ hrun' => ?_⟩
    obtain ⟨rfl, rfl⟩ := EStateM.Result.ok.inj (hrun.symm.trans hrun')
    exact hconfigured
  · obtain ⟨cause, hplan⟩ := exists_plan_eq_error h
    have hrefused := configure_of_plan_eq_error hplan l
    refine ⟨⟨?_, fun hadmits => absurd hadmits h⟩, fun _ => ⟨cause, hrefused⟩, ?_⟩
    · rintro ⟨cascaded, l', hrun⟩
      exact nomatch hrefused.symm.trans hrun
    · exact fun cascaded l' hrun => nomatch hrefused.symm.trans hrun

theorem ready_programmedSample :
    programmedSample.content.bus.Ready ingressSample.table.pollLimit :=
  ⟨by decide +kernel, by decide +kernel, by decide +kernel, by decide +kernel⟩

/-- A rule of two slots takes the place of a rule of one slot. -/
theorem configure_from_any_contents_programmedSample :
    ingressSample.table.geometry.validate = .ok () ∧
      ingressSample.table.geometry.windowPages = 2#8 ∧
      ingressSample.Reachable programmedSample ∧
      programmedSample.content.bus.Ready ingressSample.table.pollLimit ∧
      (ingressSample.readRule 3#16).result programmedSample = .ok (some datagramSample) ∧
      ∃ l', ingressSample.configure 3#16 4#16 urgentSample programmedSample = .ok true l' ∧
        (ingressSample.readRule 3#16).result l' = .ok (some urgentSample) ∧
        (ingressSample.readRule 5#16).result l' =
          (ingressSample.readRule 5#16).result programmedSample := by
  obtain ⟨haccepts, -, hconfigured⟩ := configure_from_any_contents rfl rfl
    reachable_programmedSample ready_programmedSample 3#16 4#16 urgentSample
  have hadmits : ingressSample.Admits 3#16 4#16 urgentSample :=
    ⟨rfl, ⟨_, place_urgentSample⟩, fun _ => ⟨rfl, by decide⟩⟩
  obtain ⟨cascaded, l', hrun⟩ := haccepts.mpr hadmits
  obtain ⟨hcascades, hown, hothers⟩ := hconfigured cascaded l' hrun
  obtain rfl : cascaded = true := hcascades.mpr ⟨_, place_urgentSample, rfl⟩
  refine ⟨rfl, rfl, reachable_programmedSample, ready_programmedSample,
    result_readRule_programmedSample, l', hrun, hown, hothers 5#16 ?_ ?_⟩
  · rintro (h | ⟨h, -⟩)
    · exact absurd h (by decide)
    · exact absurd h (by decide)
  · have hfree : programmedSample.content.bus.isValid 5#16 = false := by
      decide +kernel
    exact fun _ hloaded => nomatch hfree.symm.trans hloaded

end Classifier

end Tcam
