import Tcam.Proofs.Classifier.Interruption
import Tcam.Proofs.Classifier.Refusal
import Tcam.Proofs.RuleMap

/-!
# A classifier behaves like a rule map

As long as requests treat rules as units, a classifier on a ready device cannot
be told from a rule map: it gives the replies of the map, its valid slots are the
slots of the rules, and each rule is read as it was configured, up to its ports
(`showsRules_of_fresh`).  One step is shown for each kind of request, the run follows
by induction.
-/

namespace Tcam

/-- The state after a run of requests. -/
def afterAll {ε σ ρ α : Type} (serve : ρ → EStateM ε σ α) : List ρ → σ → σ
  | [], s => s
  | r :: rest, s =>
    match serve r s with
    | .ok _ s => afterAll serve rest s
    | .error _ s => afterAll serve rest s

/-- Every request of the run respects the rules that are there when its turn comes. -/
def RuleMap.RespectsAll (c : Classifier) : List RuleRequest → RuleMap → Prop
  | [], _ => True
  | r :: rest, m => m.Respects c r ∧ RespectsAll c rest (afterAll (serve c) [r] m)

namespace Classifier

variable {c : Classifier} {l l' : Lock (Table.State (Device c.table.geometry))} {m : RuleMap}

/-- The table is in working order and holds the rules of the map and nothing else. -/
def Holds (c : Classifier) (l : Lock (Table.State (Device c.table.geometry))) (m : RuleMap) :
    Prop :=
  ∃ sm, Table.Simulates l sm ∧ m.Stored sm

/-- Classifier and map give the same reply and stay related; a refused request
changes neither. -/
def Agree (c : Classifier) (l : Lock (Table.State (Device c.table.geometry))) (m : RuleMap) :
    EStateM.Result Error (Lock (Table.State (Device c.table.geometry))) RuleReply →
      EStateM.Result Error RuleMap RuleReply → Prop
  | .ok a l', .ok b m' => a = b ∧ c.Holds l' m'
  | .error e l', .error e' m' =>
    e = e' ∧ m' = m ∧ l'.content.bus.slots = l.content.bus.slots ∧ c.Holds l' m'
  | _, _ => False

/-- A request is compared with its counterpart by its results and by the errors
that are not the fault of the hardware. -/
theorem agree_of_ends {r : RuleRequest} {sm : SlotMap} (hsim : Table.Simulates l sm)
    (hstored : m.Stored sm) {Q : RuleReply → Table.State (Device c.table.geometry) → Prop}
    {E : Error → Table.State (Device c.table.geometry) → Prop}
    (hends : Transaction.Ends c.table.pollLimit (c.serve r) l Q E)
    (hok : ∀ a s', Q a s' → ∃ m' sm', RuleMap.serve c r m = .ok a m' ∧ sm'.Represents s'.bus ∧
      m'.Stored sm')
    (herror : ∀ e s', E e s' → e.isRetryable = false →
      RuleMap.serve c r m = .error e m ∧ s'.bus.slots = l.content.bus.slots) :
    c.Agree l m (c.serve r l) (RuleMap.serve c r m) := by
  rcases hends.cases with ⟨a, l', hrun, hl, hready, hq⟩ | ⟨e, l', hrun, hl, hready, he⟩
  · obtain ⟨m', sm', hserve, hrep, hstored'⟩ := hok a l'.content hq
    rw [hrun, hserve]
    exact ⟨rfl, sm', ⟨hl, hready hsim.ready, hrep⟩, hstored'⟩
  · obtain ⟨hready', hcause⟩ := hready hsim.ready
    obtain ⟨hserve, hkept⟩ := herror e l'.content he hcause
    rw [hrun, hserve]
    exact ⟨rfl, rfl, hkept, sm, ⟨hl, hready', hsim.represents.of_slots hkept⟩, hstored⟩

/-- A placement loaded into slots of the table. -/
theorem represents_load {g : Geometry} {d d' : Device g} {sm : SlotMap} {p : Placement}
    {slot : SlotIndex} (hrep : sm.Represents d) (hslot : g.checkSlot slot = .ok ())
    (hseparate : p.Separate g slot) (hprimary : p.primary.check g = .ok ())
    (hsecond : ∀ next entry, p.continuation = some (next, entry) → entry.check g = .ok ())
    (h : d'.slots = (p.prepared d).loaded slot (.ofEntry p.primary) g.loadOrder) :
    (RuleMap.load sm slot p).Represents d' := by
  unfold RuleMap.load
  refine SlotMap.Represents.loaded ?_ hslot hprimary h
  unfold Placement.prepared
  cases hp : p.continuation with
  | none => exact hrep
  | some q => exact hrep.loaded (hseparate q.1 q.2 hp).2 (hsecond q.1 q.2 hp) rfl

section Lookups

variable {sm : SlotMap} (hsim : Table.Simulates l sm) (hstored : m.Stored sm)

include hsim hstored

/-- A slot that may be removed or changed is valid exactly if a rule is there. -/
theorem present_iff_of_respects {slot : SlotIndex}
    (hrespects : m.Occupied slot → (m slot).isSome = true) :
    l.content.bus.Present slot ↔ ∃ live, m slot = some live := by
  rw [hsim.represents.present_iff, hstored.isSome_iff, ← Option.isSome_iff_exists]
  refine ⟨hrespects, fun h => ?_⟩
  obtain ⟨live, hlive⟩ := Option.isSome_iff_exists.mp h
  exact ⟨slot, live, hlive, Or.inl rfl⟩

/-- The first slot of a rule is read as its first entry. -/
theorem content_of_live {slot : SlotIndex} {live : LiveRule}
    (hlive : m slot = some live) :
    c.table.geometry.checkSlot slot = .ok () ∧
      l.content.bus.content slot = ⟨slot, true, live.placement.primary⟩ := by
  have hentry := hstored.holds slot live slot _ hlive LiveRule.entryAt_self
  have hslot := (hsim.represents.fits slot _ hentry).1
  refine ⟨hslot, ?_⟩
  rw [hsim.represents.content_eq (Geometry.checkSlot_eq_ok_iff.mp hslot).2, hentry]
  rfl

theorem content_of_second {slot next : SlotIndex} {live : LiveRule}
    (hlive : m slot = some live) (hnext : live.second = some next) :
    c.table.geometry.checkSlot next = .ok () ∧
      l.content.bus.content next = ⟨next, true, live.secondEntry next⟩ := by
  have hne : next ≠ slot := fun h => hstored.linked slot live hlive (h ▸ hnext)
  have hentry := hstored.holds slot live next _ hlive (LiveRule.entryAt_second hne hnext)
  have hslot := (hsim.represents.fits next _ hentry).1
  refine ⟨hslot, ?_⟩
  rw [hsim.represents.content_eq (Geometry.checkSlot_eq_ok_iff.mp hslot).2, hentry]
  rfl

/-- A rule continues in its second slot. -/
theorem next?_of_live {slot : SlotIndex} {live : LiveRule} (hlive : m slot = some live) :
    l.content.bus.next? slot = live.second := by
  obtain ⟨slot2, hplace⟩ := hstored.accepted slot live hlive
  rw [Device.next?, (content_of_live hsim hstored hlive).2,
    Rule.next?_primary hplace, LiveRule.continuation_eq, Option.map_map]
  exact Option.map_id'

end Lookups

/-! ## Requests -/

section Requests

variable {sm : SlotMap} (hvalid : c.table.geometry.Valid)
  (hpage : c.table.geometry.hasWindowPage = true)
  (hsim : Table.Simulates l sm) (hstored : m.Stored sm)

include hvalid hpage hsim hstored

theorem agree_configure {slot1 slot2 : SlotIndex} {rule : Rule}
    (hrespects : m.Respects c (.configure slot1 slot2 rule)) :
    c.Agree l m (c.serve (.configure slot1 slot2 rule) l)
      (RuleMap.serve c (.configure slot1 slot2 rule) m) := by
  have hends := (configure_ends hvalid hsim.unpoisoned slot1 slot2 rule).map
    (h := RuleReply.configured)
  refine agree_of_ends hsim hstored hends ?_ ?_
  · rintro _ s' ⟨_, rfl, p, hp, rfl, -, hprimary, hslots⟩
    obtain ⟨hslot1, hplace, -⟩ := plan_eq_ok hp
    have hseparate := separate_of_plan hp
    have hrep : (RuleMap.load sm slot1 p).Represents s'.bus :=
      represents_load hsim.represents hslot1 hseparate hprimary
        (fun _ _ hnext => Rule.check_continuation hplace hpage hnext) hslots
    obtain ⟨hfree1, hfree2⟩ := hrespects p hp
    let live : LiveRule := ⟨rule, p.continuation.map Prod.fst⟩
    have hplacement : live.placement = p := LiveRule.placement_of_place hplace
    have hsecond (next : SlotIndex) (hnext : live.second = some next) :
        next ≠ slot1 ∧ ¬m.Occupied next := by
      obtain ⟨⟨slot, entry⟩, hentry, rfl⟩ := Option.map_eq_some_iff.mp hnext
      obtain ⟨rfl, -⟩ := Rule.next?_continuation hplace hentry
      exact ⟨(hseparate slot entry hentry).1, hfree2 (Option.isSome_of_mem hentry)⟩
    have haccepted : live.Accepted := ⟨slot2, hplacement ▸ hplace⟩
    have hput := hstored.configured hfree1 hsecond haccepted
    rw [hplacement] at hput
    refine ⟨m.put slot1 (some live), _, ?_, hrep, hput⟩
    simp only [RuleMap.serve, hp]
    rfl
  · rintro e s' (⟨hplan, rfl⟩ | ⟨p, hp, hfails⟩) hcause
    · refine ⟨?_, rfl⟩
      simp only [RuleMap.serve, hplan]
      rfl
    -- With window pages both entries fit, so only the hardware could fail.
    obtain ⟨-, hplace, -⟩ := plan_eq_ok hp
    rcases hfails with ⟨hcheck, -⟩ | ⟨-, ⟨hcheck, -⟩ | ⟨he, -⟩⟩
    · exact nomatch (Rule.checkSecond_of_place hplace hpage).symm.trans hcheck
    · exact nomatch (Rule.check_primary hplace hpage).symm.trans hcheck
    · exact nomatch he.symm.trans hcause

omit hpage in
theorem agree_removeRule {slot : SlotIndex} (hrespects : m.Respects c (.removeRule slot)) :
    c.Agree l m (c.serve (.removeRule slot) l) (RuleMap.serve c (.removeRule slot) m) := by
  have hpresent := present_iff_of_respects hsim hstored hrespects
  have hends := (removeRule_ends hvalid hsim.unpoisoned slot).map (h := fun _ => RuleReply.done)
  refine agree_of_ends hsim hstored hends ?_ ?_
  · rintro _ s' ⟨-, rfl, hslot, hthere, hremoved⟩
    obtain ⟨live, hlive⟩ := hpresent.mp hthere
    have hnext := next?_of_live hsim hstored hlive
    refine ⟨m.put slot none, RuleMap.unload sm slot live, ?_, ?_, hstored.removed hlive⟩
    · rw [RuleMap.serve_removeRule_of_accepted hslot, hlive]
    · unfold RuleMap.unload
      rw [← hnext]
      rcases hremoved with ⟨hnone, h⟩ | ⟨next, hsome, -, h⟩
      · rw [hnone]
        exact hsim.represents.flushed h
      · rw [hsome]
        exact (hsim.represents.flushed rfl).flushed h
  · rintro e s' (⟨hslot, h⟩ | ⟨hslot, ⟨rfl, habsent, h⟩ | ⟨hthere, next, hsome, hcheck, -⟩ |
      ⟨he, -⟩⟩) hcause
    · refine ⟨?_, h⟩
      simp only [RuleMap.serve, hslot]
      rfl
    · refine ⟨?_, h⟩
      rw [RuleMap.serve_removeRule_of_accepted hslot]
      cases hlive : m slot with
      | none => rfl
      | some live => exact absurd (hpresent.mpr ⟨live, hlive⟩) habsent
    · -- The second slot of a rule is in the table.
      obtain ⟨live, hlive⟩ := hpresent.mp hthere
      have hnext := (next?_of_live hsim hstored hlive).symm.trans hsome
      have hinside := (content_of_second hsim hstored hlive hnext).1
      cases hinside.symm.trans hcheck
    · cases he.symm.trans hcause

theorem agree_changePorts (hports : c.config.portCount.toNat ≤ PortVector.width) {r : RuleRequest}
    {slot : SlotIndex} {port : Octet} {update : PortUpdate}
    (hupdate : port.toNat < PortVector.width → Table.KeepsWidth update)
    (hserve : (c.serve r : Transaction (Device c.table.geometry) RuleReply) = do
      c.changePorts slot port update
      return .done)
    (hmap : RuleMap.serve c r = RuleMap.changePorts c slot port update)
    (hrespects : m.Occupied slot → (m slot).isSome = true) :
    c.Agree l m (c.serve r l) (RuleMap.serve c r m) := by
  have hpresent := present_iff_of_respects hsim hstored hrespects
  have hends := (changePorts_ends hvalid hsim.unpoisoned slot port hupdate).map
    (h := fun _ => RuleReply.done)
  refine agree_of_ends hsim hstored (hserve ▸ hends) ?_ ?_
  · rintro _ s' ⟨-, rfl, hport, hlt, hslot, hthere, h⟩
    obtain ⟨live, hlive⟩ := hpresent.mp hthere
    have haccepted := (hstored.accepted slot live hlive).withPorts hpage (hupdate hlt)
    refine ⟨m.put slot (some (live.withPorts update)), _, ?_, ?_,
      hstored.withPorts hlive haccepted⟩
    · rw [hmap, RuleMap.changePorts_of_accepted hport hslot, hlive]
    · obtain ⟨-, hcontent⟩ := content_of_live hsim hstored hlive
      obtain ⟨slot2, hplace⟩ := hstored.accepted slot live hlive
      have hfits := Table.check_withPorts (Rule.check_primary hplace hpage) (hupdate hlt)
      rw [withPortsAt, hcontent] at h
      exact hsim.represents.loaded hslot hfits h
  · rintro e s' (⟨hport, h⟩ | ⟨hport, ⟨hwide, -⟩ | ⟨-, ⟨hslot, h⟩ | ⟨hslot, ⟨rfl, habsent, h⟩ |
      ⟨he, -⟩⟩⟩⟩) hcause
    · refine ⟨?_, h⟩
      rw [hmap, RuleMap.changePorts, hport]
      rfl
    · -- No device has more ports than a port vector.
      have hlt := BitVec.lt_def.mp (checkPort_eq_ok_iff.mp hport)
      omega
    · refine ⟨?_, h⟩
      rw [hmap, RuleMap.changePorts, hport, hslot]
      rfl
    · refine ⟨?_, h⟩
      rw [hmap, RuleMap.changePorts_of_accepted hport hslot]
      cases hlive : m slot with
      | none => rfl
      | some live => exact absurd (hpresent.mpr ⟨live, hlive⟩) habsent
    · cases he.symm.trans hcause

omit hpage in
theorem agree_flushAll :
    c.Agree l m (c.serve .flushAll l) (RuleMap.serve c .flushAll m) := by
  have hends : Transaction.Ends c.table.pollLimit
      (c.table.flushAll.locked : Transaction (Device c.table.geometry) Unit) l
      (fun _ s' => s'.bus.slots = Vector.replicate _ .empty) (fun e _ => e.isRetryable = true) :=
    .locked hsim.unpoisoned
      ((Table.flushAll_ends hvalid).mono (fun _ _ h => h) (fun _ _ h => h.1))
  refine agree_of_ends hsim hstored (hends.map (h := fun _ => RuleReply.done)) ?_ ?_
  · rintro _ s' ⟨-, rfl, h⟩
    exact ⟨_, _, rfl, SlotMap.represents_empty h, RuleMap.stored_empty⟩
  · exact fun e s' he hcause => nomatch he.symm.trans hcause

/-- Every request that respects the rules is answered as the map answers it. -/
theorem agree_serve (hports : c.config.portCount.toNat ≤ PortVector.width) {r : RuleRequest}
    (hrespects : m.Respects c r) : c.Agree l m (c.serve r l) (RuleMap.serve c r m) := by
  cases r with
  | configure slot1 slot2 rule => exact agree_configure hvalid hpage hsim hstored hrespects
  | removeRule slot => exact agree_removeRule hvalid hsim hstored hrespects
  | addPort slot port =>
      exact agree_changePorts hvalid hpage hsim hstored hports
        (fun _ => Table.keepsWidth_admit port.toNat) (serve_addPort slot port) rfl hrespects
  | removePort slot port =>
      exact agree_changePorts hvalid hpage hsim hstored hports Table.keepsWidth_block
        (serve_removePort slot port) rfl hrespects
  | flushAll => exact agree_flushAll hvalid hsim hstored

end Requests

/-! ## Runs -/

/-- A run of requests that respect the rules cannot tell the classifier from the
map, and leaves them related. -/
theorem agree_run (hvalid : c.table.geometry.Valid)
    (hpage : c.table.geometry.hasWindowPage = true)
    (hports : c.config.portCount.toNat ≤ PortVector.width) (requests : List RuleRequest)
    (hrespects : RuleMap.RespectsAll c requests m) (hholds : c.Holds l m) :
    replies c.serve requests l = replies (RuleMap.serve c) requests m ∧
      c.Holds (afterAll c.serve requests l) (afterAll (RuleMap.serve c) requests m) := by
  induction requests generalizing l m with
  | nil => exact ⟨rfl, hholds⟩
  | cons r rest ih =>
      obtain ⟨hr, hrest⟩ := hrespects
      obtain ⟨sm, hsim, hstored⟩ := hholds
      have hstep := agree_serve hvalid hpage hsim hstored hports hr
      unfold replies afterAll
      unfold afterAll at hrest
      cases hrun : c.serve r l with
      | ok a l' =>
          cases hmap : RuleMap.serve c r m with
          | ok b m' =>
              rw [hrun, hmap] at hstep
              rw [hmap] at hrest
              obtain ⟨rfl, hholds'⟩ := hstep
              obtain ⟨hreplies, hafter⟩ := ih hrest hholds'
              exact ⟨congrArg _ hreplies, hafter⟩
          | error e m' =>
              rw [hrun, hmap] at hstep
              exact hstep.elim
      | error e l' =>
          cases hmap : RuleMap.serve c r m with
          | ok b m' =>
              rw [hrun, hmap] at hstep
              exact hstep.elim
          | error e' m' =>
              rw [hrun, hmap] at hstep
              rw [hmap] at hrest
              obtain ⟨rfl, -, -, hholds'⟩ := hstep
              obtain ⟨hreplies, hafter⟩ := ih hrest hholds'
              exact ⟨congrArg _ hreplies, hafter⟩

theorem ofConfig_eq_ok {config : Config} {direction : Direction}
    (h : Classifier.ofConfig config direction = .ok c) :
    c.table.geometry.Valid ∧ c.config.portCount.toNat ≤ PortVector.width := by
  unfold Classifier.ofConfig at h
  simp only [Checks.bind_eq_ok_iff, Checks.pure_eq_ok, Except.ok.injEq] at h
  obtain ⟨_, hconfig, t, ht, rfl⟩ := h
  refine ⟨?_, ?_⟩
  · obtain ⟨hvalid, -, rfl⟩ := Table.ofGeometry_eq_ok_iff.mp ht
    exact hvalid
  · unfold Config.validate at hconfig
    simp only [Checks.throw_bind] at hconfig
    simp only [Checks.bind_eq_ok_iff, Checks.throw_eq_error, Checks.pure_eq_ok,
      Checks.refuse_eq_ok_iff] at hconfig
    obtain ⟨_, -, _, -, -, -, hports, -⟩ := hconfig
    exact Nat.le_of_not_lt fun hlt => hports (Or.inr hlt)

/-- What the rules of the map are to those who use the classifier. -/
structure ShowsRules (c : Classifier) (l : Lock (Table.State (Device c.table.geometry)))
    (m : RuleMap) : Prop where
  valid_iff : ∀ slot, l.content.bus.isValid slot = true ↔ m.Occupied slot
  live : ∀ slot live, m slot = some live → (c.readRule slot).result l = .ok (some live.rule)
  free : ∀ slot, c.table.geometry.checkSlot slot = .ok () → ¬m.Occupied slot →
    (c.readRule slot).result l = .ok none
  second : ∀ slot live next, m slot = some live → live.second = some next →
    (l.content.bus.content next).entry.key = Entry.cascadeKey next ∧
      (l.content.bus.content next).entry.fields = .terminal live.rule.action
  refused : ∀ r e l', m.Respects c r → c.serve r l = .error e l' →
    l'.content.bus.slots = l.content.bus.slots

theorem Holds.showsRules (hvalid : c.table.geometry.Valid)
    (hpage : c.table.geometry.hasWindowPage = true)
    (hports : c.config.portCount.toNat ≤ PortVector.width) (h : c.Holds l m) :
    c.ShowsRules l m := by
  obtain ⟨sm, hsim, hstored⟩ := h
  have hread (slot : SlotIndex) : (c.readRule slot).result l = l.content.bus.ruleAt slot :=
    result_readRule hvalid hsim.unpoisoned hsim.ready hsim.represents.marked slot
  have hoccupied (slot : SlotIndex) : l.content.bus.isValid slot = true ↔ m.Occupied slot :=
    hsim.represents.isValid_iff.trans hstored.isSome_iff
  constructor
  case valid_iff => exact hoccupied
  case live =>
    intro slot live hlive
    obtain ⟨hslot, hcontent⟩ := content_of_live hsim hstored hlive
    obtain ⟨slot2, hplace⟩ := hstored.accepted slot live hlive
    rw [hread]
    refine Device.ruleAt_of_place hslot hplace hcontent fun next second hnext => ?_
    rw [LiveRule.continuation_eq, Option.map_eq_some_iff] at hnext
    obtain ⟨i, hi, hpair⟩ := hnext
    obtain ⟨rfl, rfl⟩ := Prod.mk.inj hpair
    exact content_of_second hsim hstored hlive hi
  case free =>
    intro slot hslot hfree
    rw [hread]
    refine Device.ruleAt_of_not_valid hslot ?_
    rw [Bool.eq_false_iff]
    exact fun hloaded => hfree ((hoccupied slot).mp hloaded)
  case second =>
    intro slot live next hlive hnext
    rw [(content_of_second hsim hstored hlive hnext).2]
    exact ⟨rfl, rfl⟩
  case refused =>
    intro r e l' hrespects hrun
    have hstep := agree_serve hvalid hpage hsim hstored hports hrespects
    rw [hrun] at hstep
    cases hmap : RuleMap.serve c r m with
    | ok a m' =>
        rw [hmap] at hstep
        exact hstep.elim
    | error e' m' =>
        rw [hmap] at hstep
        exact hstep.2.2.1

/-- A classifier of a table with window pages over a fresh device behaves like a rule
map in every run of requests that respect the rules. -/
theorem showsRules_of_fresh {config : Config} {direction : Direction}
    (hc : Classifier.ofConfig config direction = .ok c)
    (hpage : c.table.geometry.hasWindowPage = true) {delay : Nat}
    (hdelay : delay < c.table.pollLimit) (requests : List RuleRequest)
    (hrespects : RuleMap.RespectsAll c requests .empty) :
    let l := Lock.ofContent (Table.State.ofBus
      ((Device.fresh c.table.geometry).setBusyDelay delay))
    replies c.serve requests l = replies (RuleMap.serve c) requests .empty ∧
      c.ShowsRules (afterAll c.serve requests l)
        (afterAll (RuleMap.serve c) requests .empty) := by
  obtain ⟨hvalid, hports⟩ := ofConfig_eq_ok hc
  have hfresh : c.Holds (Lock.ofContent (Table.State.ofBus
      ((Device.fresh c.table.geometry).setBusyDelay delay))) .empty :=
    ⟨_, Table.simulates_fresh hdelay, RuleMap.stored_empty⟩
  obtain ⟨hreplies, hholds⟩ := agree_run hvalid hpage hports requests hrespects hfresh
  exact ⟨hreplies, hholds.showsRules hvalid hpage hports⟩

/-- A rule of two slots is configured and loses a port, and a port that the device
does not have is refused. -/
def runSample : List RuleRequest :=
  [.configure 10#16 12#16 urgentSample, .removePort 10#16 3#8, .addPort 10#16 11#8]

theorem respectsAll_runSample : RuleMap.RespectsAll ingressSample runSample .empty := by
  refine ⟨fun p _ => ⟨?_, fun _ => ?_⟩, fun _ => ?_, fun _ => ?_, trivial⟩
  · rintro ⟨slot, live, hlive, -⟩
    exact nomatch hlive
  · rintro ⟨slot, live, hlive, -⟩
    exact nomatch hlive
  · decide +kernel
  · decide +kernel

theorem showsRules_of_fresh_runSample :
    Classifier.ofConfig default .ingress = .ok ingressSample ∧
      ingressSample.table.geometry.hasWindowPage = true ∧ 5 < ingressSample.table.pollLimit ∧
      RuleMap.RespectsAll ingressSample runSample .empty ∧
      (ingressSample.readRule 10#16).result (afterAll ingressSample.serve runSample
          (.ofContent (.ofBus ((Device.fresh ingressSample.table.geometry).setBusyDelay 5)))) =
        .ok (some (urgentSample.withPorts (blocking 3#8))) := by
  have hconfig : Classifier.ofConfig default .ingress = .ok ingressSample := rfl
  have hdelay : 5 < ingressSample.table.pollLimit := by
    decide
  obtain ⟨-, hshows⟩ :=
    showsRules_of_fresh hconfig rfl hdelay runSample respectsAll_runSample
  refine ⟨hconfig, rfl, hdelay, respectsAll_runSample, ?_⟩
  exact hshows.live 10#16 ⟨urgentSample.withPorts (blocking 3#8), some 12#16⟩ (by decide +kernel)

end Classifier

end Tcam
