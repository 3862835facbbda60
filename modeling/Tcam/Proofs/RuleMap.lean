import Tcam.Proofs.Classifier.Request
import Tcam.Proofs.Classifier.Lookup

/-!
# Tables as maps from slots to rules

Seen through the operations on rules, a table is a partial map from first slots
to rules, each of which may take a second slot.  A rule map answers requests
without entries.  A slot map stores it if the slots of the rules hold their
entries, no two rules share a slot, and nothing else is there.
-/

namespace Tcam

/-- The rule with its source ports changed. -/
def Rule.withPorts (r : Rule) (update : Classifier.PortUpdate) : Rule :=
  let ports := update ⟨r.key.value.sourcePorts, r.key.mask.sourcePorts⟩
  { r with
    key := ⟨{ r.key.value with sourcePorts := ports.value },
      { r.key.mask with sourcePorts := ports.mask }⟩ }

/-- A rule of a table with its second slot, if it takes one. -/
structure LiveRule where
  rule : Rule
  second : Option SlotIndex
  deriving DecidableEq, Repr

namespace LiveRule

/-- With its first slot at `slot`, the rule takes slot `i`. -/
def Takes (live : LiveRule) (slot i : SlotIndex) : Prop :=
  i = slot ∨ live.second = some i

/-- The entries of the rule. -/
def placement (live : LiveRule) : Placement :=
  match live.second with
  | some slot2 => live.rule.linkedPlacement slot2
  | none => live.rule.singlePlacement

/-- The entry in a second slot of the rule. -/
def secondEntry (live : LiveRule) (slot2 : SlotIndex) : Entry :=
  ⟨Entry.cascadeKey slot2, live.rule.written.secondWindow, .terminal live.rule.action⟩

/-- What the rule puts into slot `i` if its first slot is `slot`. -/
def entryAt (live : LiveRule) (slot i : SlotIndex) : Option Entry :=
  if i = slot then some live.placement.primary
  else if live.second = some i then some (live.secondEntry i) else none

/-- The entries are those that the rule was accepted with. -/
def Accepted (live : LiveRule) : Prop :=
  ∃ slot2, live.rule.place slot2 = .ok live.placement

variable {live : LiveRule} {slot i : SlotIndex}

theorem isSome_entryAt_iff : (live.entryAt slot i).isSome = true ↔ live.Takes slot i := by
  unfold entryAt Takes
  by_cases hfirst : i = slot
  · simp [hfirst]
  · by_cases hsecond : live.second = some i
    · simp [hfirst, hsecond]
    · simp [hfirst, hsecond]

theorem takes_of_entryAt {e : Entry} (h : live.entryAt slot i = some e) : live.Takes slot i :=
  isSome_entryAt_iff.mp (h ▸ rfl)

theorem entryAt_self : live.entryAt slot slot = some live.placement.primary :=
  if_pos rfl

theorem entryAt_second (hne : i ≠ slot) (h : live.second = some i) :
    live.entryAt slot i = some (live.secondEntry i) := by
  rw [entryAt, if_neg hne, if_pos h]

theorem continuation_eq (live : LiveRule) :
    live.placement.continuation = live.second.map fun i => (i, live.secondEntry i) := by
  unfold placement
  cases live.second with
  | none => rfl
  | some slot2 => rfl

/-- A rule that was accepted, with the slots it was placed in. -/
theorem placement_of_place {r : Rule} {slot2 : SlotIndex} {p : Placement}
    (h : r.place slot2 = .ok p) : (⟨r, p.continuation.map Prod.fst⟩ : LiveRule).placement = p := by
  obtain ⟨-, -, -, ⟨-, -, rfl⟩ | ⟨-, rfl⟩⟩ := Rule.place_eq_ok_iff.mp h
  · rfl
  · rfl

/-- The rule with its source ports changed, where it is. -/
def withPorts (live : LiveRule) (update : Classifier.PortUpdate) : LiveRule :=
  { live with rule := live.rule.withPorts update }

/-- Ports are kept in the first slot only. -/
theorem primary_withPorts (live : LiveRule) (update : Classifier.PortUpdate) :
    (live.withPorts update).placement.primary = live.placement.primary.withPorts update := by
  unfold placement LiveRule.withPorts
  cases live.second with
  | none => rfl
  | some slot2 => rfl

theorem key_primary (live : LiveRule) : live.placement.primary.key = live.rule.key := by
  unfold placement
  cases live.second with
  | none => rfl
  | some slot2 => rfl

theorem Accepted.withPorts {g : Geometry} (h : live.Accepted) (hpage : g.hasWindowPage = true)
    {update : Classifier.PortUpdate} (hupdate : Table.KeepsWidth update) :
    (live.withPorts update).Accepted := by
  obtain ⟨slot2, hplace⟩ := h
  have hfits := Table.check_withPorts (t := ⟨g, 0⟩) (Rule.check_primary hplace hpage) hupdate
  rw [← primary_withPorts, Entry.check_eq_ok_iff, key_primary] at hfits
  -- Neither the headers nor the action depend on the ports.
  obtain ⟨-, haction, hheaders, hplaced⟩ := Rule.place_eq_ok_iff.mp hplace
  refine ⟨slot2, Rule.place_eq_ok_iff.mpr ⟨hfits.1, haction, hheaders, ?_⟩⟩
  unfold placement LiveRule.withPorts at *
  cases hsecond : live.second with
  | none =>
      rw [hsecond] at hplaced
      rcases hplaced with ⟨-, -, hlinked⟩ | ⟨hzero, -⟩
      · exact nomatch congrArg Placement.continuation hlinked
      · exact Or.inr ⟨hzero, rfl⟩
  | some i =>
      rw [hsecond] at hplaced
      rcases hplaced with ⟨hmask, hslot, hlinked⟩ | ⟨-, hsingle⟩
      · obtain rfl : i = slot2 :=
          congrArg Prod.fst (Option.some.inj (congrArg Placement.continuation hlinked))
        exact Or.inl ⟨hmask, hslot, rfl⟩
      · exact nomatch congrArg Placement.continuation hsingle

end LiveRule

/-- The first slots of the rules in a table. -/
abbrev RuleMap := SlotIndex → Option LiveRule

namespace RuleMap

/-- The map without a rule. -/
def empty : RuleMap :=
  fun _ => none

/-- The map with the rule at one slot replaced. -/
def put (m : RuleMap) (slot : SlotIndex) (content : Option LiveRule) : RuleMap :=
  fun i => if i = slot then content else m i

/-- The slot is the first or the second slot of a rule. -/
def Occupied (m : RuleMap) (i : SlotIndex) : Prop :=
  ∃ slot live, m slot = some live ∧ live.Takes slot i

/-- Changes the ports of a rule that is there. -/
def changePorts (c : Classifier) (slot : SlotIndex) (port : Octet)
    (update : Classifier.PortUpdate) : EStateM Error RuleMap RuleReply := do
  ofExcept (c.config.checkPort port)
  ofExcept (c.table.geometry.checkSlot slot)
  match (← get) slot with
  | some live =>
    modify fun m => m.put slot (some (live.withPorts update))
    return .done
  | none => throw (.notFound slot)

/-- Answers a request from the map. -/
def serve (c : Classifier) : RuleRequest → EStateM Error RuleMap RuleReply
  | .configure slot1 slot2 rule => do
    let p ← ofExcept (c.plan slot1 slot2 rule)
    modify fun m => m.put slot1 (some ⟨rule, p.continuation.map Prod.fst⟩)
    return .configured p.isCascaded
  | .removeRule slot => do
    ofExcept (c.table.geometry.checkSlot slot)
    match (← get) slot with
    | some _ =>
      modify fun m => m.put slot none
      return .done
    | none => throw (.notFound slot)
  | .addPort slot port => changePorts c slot port (Classifier.admitting port)
  | .removePort slot port => changePorts c slot port (Classifier.blocking port)
  | .flushAll => do
    set empty
    return .done

/-- The request treats the rules of the map as units: what it configures goes to
free slots, and what it removes or changes is not the second slot of a rule. -/
def Respects (c : Classifier) (m : RuleMap) : RuleRequest → Prop
  | .configure slot1 slot2 rule => ∀ p, c.plan slot1 slot2 rule = .ok p →
    ¬m.Occupied slot1 ∧ (p.isCascaded = true → ¬m.Occupied slot2)
  | .removeRule slot | .addPort slot _ | .removePort slot _ =>
    m.Occupied slot → (m slot).isSome = true
  | .flushAll => True

theorem changePorts_of_accepted {c : Classifier} {m : RuleMap} {slot : SlotIndex} {port : Octet}
    {update : Classifier.PortUpdate} (hport : c.config.checkPort port = .ok ())
    (hslot : c.table.geometry.checkSlot slot = .ok ()) :
    changePorts c slot port update m = match m slot with
      | some live => .ok .done (m.put slot (some (live.withPorts update)))
      | none => .error (.notFound slot) m := by
  refine (check_bind_apply hport _ m).trans ?_
  refine (check_bind_apply hslot _ m).trans ((get_bind_apply _ m).trans ?_)
  cases m slot with
  | none => rfl
  | some live => rfl

theorem serve_removeRule_of_accepted {c : Classifier} {m : RuleMap} {slot : SlotIndex}
    (hslot : c.table.geometry.checkSlot slot = .ok ()) :
    serve c (.removeRule slot) m = match m slot with
      | some _ => .ok .done (m.put slot none)
      | none => .error (.notFound slot) m := by
  refine (check_bind_apply hslot _ m).trans ((get_bind_apply _ m).trans ?_)
  cases m slot with
  | none => rfl
  | some live => rfl

/-! ## Storing rules in slots -/

/-- What the rule at `slot`, if there is one, puts into slot `i`. -/
def entryFrom (content : Option LiveRule) (slot i : SlotIndex) : Option Entry :=
  content.bind fun live => live.entryAt slot i

/-- The slots of the rules hold their entries and no other slot holds anything.  No
two rules share a slot. -/
structure Stored (m : RuleMap) (sm : SlotMap) : Prop where
  holds : ∀ slot live i e, m slot = some live → live.entryAt slot i = some e → sm i = some e
  only : ∀ i, (sm i).isSome = true → m.Occupied i
  apart : ∀ slot slot' live live' i, m slot = some live → m slot' = some live' →
    live.Takes slot i → live'.Takes slot' i → slot = slot'
  linked : ∀ slot live, m slot = some live → live.second ≠ some slot
  accepted : ∀ slot live, m slot = some live → live.Accepted

variable {m : RuleMap} {sm sm' : SlotMap} {slot i : SlotIndex} {live : LiveRule}

theorem stored_empty : empty.Stored SlotMap.empty where
  holds _ _ _ _ h := nomatch h
  only _ h := nomatch h
  apart _ _ _ _ _ h := nomatch h
  linked _ _ h := nomatch h
  accepted _ _ h := nomatch h

theorem Stored.isSome_iff (h : m.Stored sm) : (sm i).isSome = true ↔ m.Occupied i := by
  refine ⟨h.only i, ?_⟩
  rintro ⟨slot, live, hlive, htakes⟩
  obtain ⟨e, he⟩ := Option.isSome_iff_exists.mp (LiveRule.isSome_entryAt_iff.mpr htakes)
  rw [h.holds slot live i e hlive he]
  rfl

/-- Replacing what is at one slot of the map and, with it, the entries there. -/
theorem Stored.put (h : m.Stored sm) {content : Option LiveRule}
    (hfree : ∀ live i slot' live', content = some live → live.Takes slot i →
      m slot' = some live' → live'.Takes slot' i → slot' = slot)
    (hcontent : ∀ live, content = some live → live.second ≠ some slot ∧ live.Accepted)
    (hnew : ∀ i e, entryFrom content slot i = some e → sm' i = some e)
    (hgone : ∀ i, entryFrom content slot i = none → (entryFrom (m slot) slot i).isSome = true →
      sm' i = none)
    (hkept : ∀ i, entryFrom content slot i = none → entryFrom (m slot) slot i = none →
      sm' i = sm i) : (m.put slot content).Stored sm' := by
  have hput {s : SlotIndex} {r : LiveRule} (hr : m.put slot content s = some r) :
      s = slot ∧ content = some r ∨ s ≠ slot ∧ m s = some r := by
    unfold RuleMap.put at hr
    by_cases hs : s = slot
    · rw [if_pos hs] at hr
      exact Or.inl ⟨hs, hr⟩
    · rw [if_neg hs] at hr
      exact Or.inr ⟨hs, hr⟩
  -- A rule elsewhere keeps its slots to itself.
  have hother {s : SlotIndex} {r : LiveRule} {i : SlotIndex} (hs : s ≠ slot) (hr : m s = some r)
      (htakes : r.Takes s i) :
      entryFrom content slot i = none ∧ entryFrom (m slot) slot i = none := by
    constructor
    · rw [Option.eq_none_iff_forall_ne_some]
      intro e he
      obtain ⟨live, hlive, he⟩ := Option.bind_eq_some_iff.mp he
      exact hs (hfree live i s r hlive (LiveRule.takes_of_entryAt he) hr htakes)
    · rw [Option.eq_none_iff_forall_ne_some]
      intro e he
      obtain ⟨live, hlive, he⟩ := Option.bind_eq_some_iff.mp he
      exact hs (h.apart s slot r live i hr hlive htakes (LiveRule.takes_of_entryAt he))
  constructor
  case holds =>
    intro s r i e hr he
    rcases hput hr with ⟨rfl, hthis⟩ | ⟨hs, hthat⟩
    · exact hnew i e (Option.bind_eq_some_iff.mpr ⟨r, hthis, he⟩)
    · obtain ⟨hcontent, hold⟩ := hother hs hthat (LiveRule.takes_of_entryAt he)
      rw [hkept i hcontent hold]
      exact h.holds s r i e hthat he
  case only =>
    intro i hi
    cases hentry : entryFrom content slot i with
    | some e =>
        obtain ⟨live, hlive, he⟩ := Option.bind_eq_some_iff.mp hentry
        exact ⟨slot, live, (if_pos rfl).trans hlive, LiveRule.takes_of_entryAt he⟩
    | none =>
        cases hold : entryFrom (m slot) slot i with
        | some e =>
            rw [hgone i hentry (hold ▸ rfl)] at hi
            exact nomatch hi
        | none =>
            rw [hkept i hentry hold] at hi
            obtain ⟨s, r, hr, htakes⟩ := h.only i hi
            have hs : s ≠ slot := by
              rintro rfl
              obtain ⟨e, he⟩ := Option.isSome_iff_exists.mp (LiveRule.isSome_entryAt_iff.mpr htakes)
              exact nomatch hold.symm.trans (Option.bind_eq_some_iff.mpr ⟨r, hr, he⟩)
            exact ⟨s, r, (if_neg hs).trans hr, htakes⟩
  case apart =>
    intro s s' r r' i hr hr' htakes htakes'
    rcases hput hr with ⟨rfl, hthis⟩ | ⟨-, hthat⟩
    · rcases hput hr' with ⟨rfl, -⟩ | ⟨-, hthat'⟩
      · rfl
      · exact (hfree r i s' r' hthis htakes hthat' htakes').symm
    · rcases hput hr' with ⟨rfl, hthis'⟩ | ⟨-, hthat'⟩
      · exact hfree r' i s r hthis' htakes' hthat htakes
      · exact h.apart s s' r r' i hthat hthat' htakes htakes'
  case linked =>
    intro s r hr
    rcases hput hr with ⟨rfl, hthis⟩ | ⟨-, hthat⟩
    · exact (hcontent r hthis).1
    · exact h.linked s r hthat
  case accepted =>
    intro s r hr
    rcases hput hr with ⟨rfl, hthis⟩ | ⟨-, hthat⟩
    · exact (hcontent r hthis).2
    · exact h.accepted s r hthat

/-- The entries of a rule put into a slot map. -/
def load (sm : SlotMap) (slot : SlotIndex) (p : Placement) : SlotMap :=
  (match p.continuation with
    | some (next, entry) => sm.put next (some entry)
    | none => sm).put slot (some p.primary)

/-- The entries of a rule taken out of a slot map. -/
def unload (sm : SlotMap) (slot : SlotIndex) (live : LiveRule) : SlotMap :=
  match live.second with
  | some next => (sm.put slot none).put next none
  | none => sm.put slot none

theorem load_apply (sm : SlotMap) (slot : SlotIndex) (live : LiveRule) (i : SlotIndex) :
    load sm slot live.placement i = (live.entryAt slot i).or (sm i) := by
  unfold load SlotMap.put LiveRule.entryAt
  rw [LiveRule.continuation_eq]
  by_cases hi : i = slot
  · rw [if_pos hi, if_pos hi]
    rfl
  · rw [if_neg hi, if_neg hi]
    cases hsecond : live.second with
    | none => rfl
    | some next =>
        by_cases hnext : i = next
        · subst hnext
          simp
        · simp [hnext, Ne.symm hnext]

theorem unload_apply (sm : SlotMap) (slot : SlotIndex) (live : LiveRule) (i : SlotIndex) :
    unload sm slot live i = if (live.entryAt slot i).isSome then none else sm i := by
  unfold unload SlotMap.put LiveRule.entryAt
  by_cases hi : i = slot
  · cases hsecond : live.second with
    | none => simp [hi]
    | some next => simp [hi]
  · cases hsecond : live.second with
    | none => simp [hi]
    | some next =>
        by_cases hnext : i = next
        · subst hnext
          simp [hi]
        · simp [hi, hnext, Ne.symm hnext]

/-- A rule is put into free slots. -/
theorem Stored.configured (h : m.Stored sm) (hslot : ¬m.Occupied slot)
    (hsecond : ∀ next, live.second = some next → next ≠ slot ∧ ¬m.Occupied next)
    (haccepted : live.Accepted) :
    (m.put slot (some live)).Stored (load sm slot live.placement) := by
  have hfree (i : SlotIndex) : entryFrom (m slot) slot i = none := by
    cases hm : m slot with
    | none => rfl
    | some old => exact absurd ⟨slot, old, hm, Or.inl rfl⟩ hslot
  refine h.put ?_ ?_ (fun i e he => ?_) (fun i _ hold => ?_) (fun i hi _ => ?_)
  · rintro _ i slot' live' ⟨⟩ (rfl | hi) hlive' htakes'
    · exact absurd ⟨slot', live', hlive', htakes'⟩ hslot
    · exact absurd ⟨slot', live', hlive', htakes'⟩ (hsecond i hi).2
  · rintro _ ⟨⟩
    exact ⟨fun hself => (hsecond slot hself).1 rfl, haccepted⟩
  · rw [load_apply, show live.entryAt slot i = some e from he]
    rfl
  · rw [hfree i] at hold
    exact nomatch hold
  · rw [load_apply, show live.entryAt slot i = none from hi]
    rfl

/-- A rule is taken out. -/
theorem Stored.removed (h : m.Stored sm) (hlive : m slot = some live) :
    (m.put slot none).Stored (unload sm slot live) := by
  refine h.put (fun _ _ _ _ h => nomatch h) (fun _ h => nomatch h) (fun _ _ h => nomatch h)
    (fun i _ hold => ?_) (fun i _ hold => ?_)
  · rw [hlive] at hold
    rw [unload_apply, if_pos (show (live.entryAt slot i).isSome = true from hold)]
  · rw [hlive] at hold
    rw [unload_apply, show live.entryAt slot i = none from hold]
    rfl

/-- The ports of a rule change in its first slot. -/
theorem Stored.withPorts (h : m.Stored sm) (hlive : m slot = some live)
    {update : Classifier.PortUpdate} (haccepted : (live.withPorts update).Accepted) :
    (m.put slot (some (live.withPorts update))).Stored
      (sm.put slot (some (live.placement.primary.withPorts update))) := by
  have htakes (i : SlotIndex) : (live.withPorts update).Takes slot i ↔ live.Takes slot i := Iff.rfl
  have hentry {i : SlotIndex} (hi : i ≠ slot) :
      (live.withPorts update).entryAt slot i = live.entryAt slot i := by
    rw [LiveRule.entryAt, LiveRule.entryAt, if_neg hi, if_neg hi]
    rfl
  refine h.put ?_ ?_ (fun i e he => ?_) (fun i hi hold => ?_) (fun i hi _ => ?_)
  · rintro _ i slot' live' ⟨⟩ hi hlive' htakes'
    exact h.apart slot' slot live' live i hlive' hlive htakes' hi
  · rintro _ ⟨⟩
    exact ⟨h.linked slot live hlive, haccepted⟩
  · change (live.withPorts update).entryAt slot i = some e at he
    unfold SlotMap.put
    by_cases hi : i = slot
    · subst hi
      rw [if_pos rfl, ← LiveRule.primary_withPorts, ← he, LiveRule.entryAt_self]
    · rw [hentry hi] at he
      rw [if_neg hi]
      exact h.holds slot live i e hlive he
  · rw [hlive] at hold
    have htaken := (htakes i).mpr (LiveRule.isSome_entryAt_iff.mp hold)
    rw [← LiveRule.isSome_entryAt_iff,
      show (live.withPorts update).entryAt slot i = none from hi] at htaken
    exact nomatch htaken
  · unfold SlotMap.put
    refine if_neg fun heq => ?_
    subst heq
    exact nomatch LiveRule.entryAt_self.symm.trans hi

end RuleMap

end Tcam
