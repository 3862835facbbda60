import Tcam.Proofs.Classifier.FailFast
import Tcam.Proofs.Classifier.Polling
import Tcam.Proofs.Table.Retry

/-!
# Repeating an operation that the hardware has broken off

Flushing, loading, changing ports and configuring a rule can be run again when a
fault has stopped them, and then give and leave what one run without the fault would
have given and left (`retry_converges`).  Each operation has its own reason; for a
rule of two slots it is that the repeated load replaces every page that the first one
has loaded.
-/

namespace Tcam

/-- The operation can be run again after a failure of the hardware. -/
def Operation.isRepeatable : Operation → Bool
  | .table r =>
    match r with
    | .flushAll | .flushEntry _ | .loadEntry _ _ | .addPort _ _ | .removePort _ _ => true
    | .readEntry _ | .getNextEntry _ | .findEntry _ => false
  | .rule r =>
    match r with
    | .configure _ _ _ | .addPort _ _ | .removePort _ _ | .flushAll => true
    | .removeRule _ => false
  | .transaction _ | .readRule _ => false

/-- Loading a placement over an interrupted load of the same placement. -/
theorem Placement.Stopped.again {g : Geometry} {p : Placement} {slot : SlotIndex}
    {d d' d₁ d₂ : Device g} {second first : List Page} (hstop : p.Stopped slot d d₁ second first)
    (hseparate : p.Separate g slot) (hdone : p.Stopped slot d d' g.loadOrder g.loadOrder)
    (hagain : p.Stopped slot d₁ d₂ g.loadOrder g.loadOrder) : d₂.slots = d'.slots := by
  have hover (old : Option SlotImage) (image : SlotImage) {done : List Page}
      (hinitial : done <+: g.loadOrder) :
      (old.map fun old => old.withPages image done).map
          (fun old => old.withPages image g.loadOrder) =
        old.map fun old => old.withPages image g.loadOrder := by
    cases old with
    | none => rfl
    | some old =>
        exact congrArg some (old.withPages_withPages image fun _ h => hinitial.subset h)
  apply Device.slots_eq_of_slot?
  intro i
  by_cases hi : i = slot
  · rw [hi, hagain.slot?_first hseparate, hstop.slot?_first hseparate, hdone.slot?_first hseparate,
      hover _ _ hstop.first_initial]
  by_cases hp : ∃ entry, p.continuation = some (i, entry)
  · obtain ⟨entry, hp⟩ := hp
    rw [hagain.slot?_second hseparate hp, hstop.slot?_second hseparate hp,
      hdone.slot?_second hseparate hp, hover _ _ hstop.second_initial]
  · have hp' : ∀ entry, p.continuation ≠ some (i, entry) := fun entry h => hp ⟨entry, h⟩
    rw [hagain.slot?_of_ne hi hp', hstop.slot?_of_ne hi hp', hdone.slot?_of_ne hi hp']

namespace Classifier

section Loads

variable {t : Table} {slot : SlotIndex} {p : Placement}

theorem continuesInTable_of_separate (h : p.Separate t.geometry slot) :
    ContinuesInTable t.geometry p :=
  fun next entry hp => (h next entry hp).2

theorem repeatable_load (hvalid : t.geometry.Valid) (hslot : t.geometry.checkSlot slot = .ok ())
    (hseparate : p.Separate t.geometry slot) : t.Repeatable (load t slot p) where
  waits := Table.waits_of_timesOut fun _ _ _ hfault hrun => by
    have hcontinuation := continuesInTable_of_separate hseparate
    obtain ⟨hsecond, hprimary, -⟩ := (load_ends hvalid hslot hcontinuation).of_ok hrun
    exact timesOut_load hvalid hfault hslot hcontinuation
      (Placement.firstFits_of_checks hsecond hprimary)
  resumes := by
    have hcontinuation := continuesInTable_of_separate hseparate
    refine .of_ends
      (fun _ => p.checkSecond t.geometry = .ok () ∧ p.primary.check t.geometry = .ok ())
      (fun s s' => ∃ second first, p.Stopped slot s.bus s'.bus second first)
      (fun s => (load_ends hvalid hslot hcontinuation).mono
        (fun _ _ h => ⟨⟨h.1, h.2.1⟩, h⟩) ?_) (fun _ _ _ h => h) ?_
    · intro e s' h
      obtain ⟨second, first, hstop, -⟩ := h.stopped
      rcases h with ⟨hsecond, -⟩ | ⟨-, ⟨hprimary, -⟩ | ⟨he, -⟩⟩
      · exact Or.inl fun haccepts => nomatch haccepts.1.symm.trans hsecond
      · exact Or.inl fun haccepts => nomatch haccepts.2.symm.trans hprimary
      · exact Or.inr ⟨he, second, first, hstop⟩
    · rintro s s' f f' r a haccepts hs' hf ⟨second, first, hstop⟩ hr
      refine ⟨haccepts, fun b r' hr' => ⟨rfl, ?_⟩⟩
      exact (hstop.congr hf).again hseparate hs'.stopped (hr'.stopped.congr hr)

end Loads

variable {c : Classifier} {l : Lock (Table.State (Device c.table.geometry))}

theorem repeatable_addPort (hvalid : c.table.geometry.Valid) (slot : SlotIndex) (port : Octet) :
    c.table.Repeatable (c.table.addPort slot port) :=
  Table.repeatable_updatePorts hvalid slot port (fun _ => Table.keepsWidth_admit port.toNat)
    (admitting_admitting port)

theorem repeatable_removePort (hvalid : c.table.geometry.Valid) (slot : SlotIndex)
    (port : Octet) : c.table.Repeatable (c.table.removePort slot port) :=
  Table.repeatable_updatePorts hvalid slot port Table.keepsWidth_block (blocking_blocking port)

/-- The operation refuses an argument, or runs a session that can be repeated. -/
def Repeats (c : Classifier) (op : Operation) : Prop :=
  (∃ e, ∀ l : Lock (Table.State (Device c.table.geometry)), c.carryOut op l = .error e l) ∨
    ∃ m : Session (Device c.table.geometry) Answer,
      c.carryOut op = m.locked ∧ c.table.Repeatable m

/-- The session of an operation that can be run again can be repeated. -/
theorem repeatable_script (hvalid : c.table.geometry.Valid) {op : Operation}
    (hop : op.isRepeatable = true) {m : Script Answer} (h : c.script op = .ok m) :
    c.table.Repeatable (m (Device c.table.geometry)) := by
  cases op with
  | table r =>
      obtain rfl := Except.ok.inj h
      refine Table.Repeatable.map ?_ Answer.table
      cases r with
      | flushAll => exact (Table.repeatable_flushAll hvalid).map _
      | flushEntry slot => exact (Table.repeatable_flushEntry hvalid slot).map _
      | loadEntry slot entry => exact (Table.repeatable_loadEntry hvalid slot entry).map _
      | addPort slot port => exact (repeatable_addPort hvalid slot port).map _
      | removePort slot port => exact (repeatable_removePort hvalid slot port).map _
      | readEntry slot => exact nomatch hop
      | getNextEntry slot => exact nomatch hop
      | findEntry slot => exact nomatch hop
  | rule r =>
      cases r with
      | configure slot1 slot2 rule =>
          obtain ⟨p, hp, rfl⟩ := Checks.map_eq_ok_iff.mp h
          exact (repeatable_load hvalid (plan_eq_ok hp).1 (separate_of_plan hp)).map _
      | addPort slot port =>
          obtain ⟨_, -, rfl⟩ := Checks.map_eq_ok_iff.mp h
          exact (repeatable_addPort hvalid slot port).map _
      | removePort slot port =>
          obtain ⟨_, -, rfl⟩ := Checks.map_eq_ok_iff.mp h
          exact (repeatable_removePort hvalid slot port).map _
      | flushAll =>
          obtain rfl := Except.ok.inj h
          exact (Table.repeatable_flushAll hvalid).map _
      | removeRule slot => exact nomatch hop
  | transaction requests => exact nomatch hop
  | readRule slot => exact nomatch hop

theorem repeats_of_isRepeatable (hvalid : c.table.geometry.Valid) {op : Operation}
    (hop : op.isRepeatable = true) : c.Repeats op := by
  cases h : c.script op with
  | ok m =>
      refine Or.inr ⟨m _, ?_, repeatable_script hvalid hop h⟩
      rw [carryOut_eq, h]
  | error e =>
      refine Or.inl ⟨e, fun l => ?_⟩
      rw [carryOut_eq, h]
      rfl

theorem result_mapState {σ σ' α : Type} {m : Transaction σ α} {l : Lock (Table.State σ)}
    {f : σ' → Lock (Table.State σ)} {r : EStateM.Result Error σ' α} (h : m l = mapState f r) :
    (∀ a, m.result l = .ok a → ∃ s, r = .ok a s) ∧
      ∀ e, m.result l = .error e → ∃ s, r = .error e s := by
  unfold Transaction.result
  rw [h]
  cases r with
  | ok a s =>
      refine ⟨fun a' h => ⟨s, ?_⟩, nofun⟩
      rw [Except.ok.inj h]
  | error e s =>
      refine ⟨nofun, fun e' h => ⟨s, ?_⟩⟩
      rw [Except.error.inj h]

/-- An operation that gives a result has run its session. -/
theorem repeatable_of_result (hvalid : c.table.geometry.Valid) {op : Operation}
    (hop : op.isRepeatable = true) {poisoned : Bool} {m : Script Answer}
    (hrun : ∀ {σ : Type} [RegisterBus σ] (s : Table.State σ),
      c.carryOut op ⟨s, poisoned⟩ = mapState (fun s' => ⟨s', poisoned⟩) (m σ s))
    {s : Table.State (Device c.table.geometry)} {a : Answer}
    (h : (c.carryOut op).result ⟨s, poisoned⟩ = .ok a) :
    c.table.Repeatable (m (Device c.table.geometry)) := by
  rcases repeats_of_isRepeatable hvalid hop with ⟨e, hrefused⟩ | ⟨m', hlocked, hrep⟩
  · exact nomatch h.symm.trans (result_of_eq_error (hrefused _))
  cases poisoned with
  | true =>
      rw [hlocked] at h
      exact nomatch h
  | false =>
      have hsame : m (Device c.table.geometry) = m'.settled := by
        funext s
        have hlock := hrun s
        rw [hlocked, locked_eq m' rfl] at hlock
        refine mapState_injective (fun s s' h => ?_) hlock.symm
        exact congrArg Lock.content h
      rw [hsame]
      exact hrep.settled

/-- If an operation succeeds without a fault and fails with one, running it once more
succeeds with the same result and leaves the same slots. -/
theorem retry_converges (hvalid : c.table.geometry.validate = .ok ()) {op : Operation}
    (hop : op.isRepeatable = true) {n : Nat} {a : Answer} {cause : RegError}
    (hcalm : (c.carryOut op).result (adjust (Device.failing none) l) = .ok a)
    (hfailed : (c.carryOut op).result (adjust (fun d => d.failNthAccess n) l) =
      .error (.transport cause)) :
    let again := (c.carryOut op).after (adjust (fun d => d.failNthAccess n) l)
    again.content.bus.failAt = none ∧ (c.carryOut op).result again = .ok a ∧
      ((c.carryOut op).after again).content.bus.slots =
        ((c.carryOut op).after (adjust (Device.failing none) l)).content.bus.slots := by
  intro again
  let lock (s : Table.State (Device c.table.geometry)) : Lock _ := ⟨s, l.poisoned⟩
  obtain ⟨m, hm, hrun⟩ := exists_session c op l.poisoned
  have hrep := repeatable_of_result (Geometry.validate_eq_ok_iff.mp hvalid) hop hrun hcalm
  have hcalmRun := hrun (l.content.failing none)
  have hfailedRun := hrun (l.content.failing (some (l.content.bus.accesses + n)))
  obtain ⟨s', hok⟩ := (result_mapState hcalmRun).1 a hcalm
  obtain ⟨f', herror⟩ := (result_mapState hfailedRun).2 _ hfailed
  obtain ⟨hfault, r', hretry, hslots⟩ := hrep.retry (Table.composed_of_basic hm) hok herror rfl
  have hagain : again = lock f' :=
    (after_of_eq_mapState hfailedRun).trans (congrArg (fun r => lock (endState r)) herror)
  have hretryRun : c.carryOut op again = .ok a (lock r') := by
    rw [hagain]
    exact (hrun f').trans (congrArg (mapState lock) hretry)
  have hcalmAfter : (c.carryOut op).after (adjust (Device.failing none) l) = lock s' :=
    (after_of_eq_mapState hcalmRun).trans (congrArg (fun r => lock (endState r)) hok)
  rw [hcalmAfter]
  unfold Transaction.result Transaction.after
  rw [hretryRun, hagain]
  exact ⟨hfault, rfl, hslots⟩

/-- A port is taken from a rule, and the load of the key page breaks off. -/
theorem retry_converges_removePort :
    let op : Operation := .rule (.removePort 3#16 2#8)
    let failing := adjust (fun d => d.failNthAccess 120) programmedSample
    ingressSample.table.geometry.validate = .ok () ∧ op.isRepeatable = true ∧
      (ingressSample.carryOut op).result (adjust (Device.failing none) programmedSample) =
        .ok (.rule .done) ∧
      (ingressSample.carryOut op).result failing =
        .error (.transport (.access ⟨0x1f#8⟩ (dataRegister 1) .injected)) ∧
      (ingressSample.carryOut op).result ((ingressSample.carryOut op).after failing) =
        .ok (.rule .done) := by
  intro op failing
  have hcalm : (ingressSample.carryOut op).result
      (adjust (Device.failing none) programmedSample) = .ok (.rule .done) := by
    decide +kernel
  have hfailed : (ingressSample.carryOut op).result failing =
      .error (.transport (.access ⟨0x1f#8⟩ (dataRegister 1) .injected)) := by
    decide +kernel
  exact ⟨rfl, rfl, hcalm, hfailed, (retry_converges rfl rfl hcalm hfailed).2.1⟩

end Classifier

end Tcam
