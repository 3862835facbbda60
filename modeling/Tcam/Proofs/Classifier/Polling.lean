import Tcam.Proofs.Classifier.Refusal
import Tcam.Proofs.Table.Polling

/-!
# How long an operation waits

Without faults, and once its arguments have passed the checks before its first
command, an operation polls exactly as often as it may (`polls_exactly`).  If the block
is busy for too long it gives up before the first command, if commands take too long it
gives up after the first, and otherwise it never gives up.
-/

namespace Tcam

/-- The arguments pass the checks before the first command of the request. -/
def Request.Admitted (g : Geometry) : Request → Prop
  | .flushAll => True
  | .flushEntry slot | .readEntry slot | .findEntry slot => g.checkSlot slot = .ok ()
  | .loadEntry slot entry => g.checkSlot slot = .ok () ∧ entry.check g = .ok ()
  | .getNextEntry slot => slot ≤ g.maxIndex
  | .addPort slot port | .removePort slot port =>
    port.toNat < PortVector.width ∧ g.checkSlot slot = .ok ()

/-- The entry of a placement that is loaded first fits. -/
def Placement.FirstFits (p : Placement) (g : Geometry) : Prop :=
  match p.continuation with
  | some (_, second) => second.check g = .ok ()
  | none => p.primary.check g = .ok ()

theorem Placement.firstFits_of_checks {p : Placement} {g : Geometry}
    (hsecond : p.checkSecond g = .ok ()) (hprimary : p.primary.check g = .ok ()) :
    p.FirstFits g := by
  unfold checkSecond at hsecond
  unfold FirstFits
  cases hp : p.continuation with
  | none => exact hprimary
  | some q =>
      rw [hp] at hsecond
      exact hsecond

/-- The arguments pass the checks before the first command of the operation, and there
is such a command. -/
def Operation.Admitted (c : Classifier) : Operation → Prop
  | .table r => r.Admitted c.table.geometry
  | .transaction [] => False
  | .transaction (r :: _) => r.Admitted c.table.geometry
  | .rule (.configure slot1 slot2 r) =>
    ∃ p, c.plan slot1 slot2 r = .ok p ∧ p.FirstFits c.table.geometry
  | .rule (.removeRule slot) => c.table.geometry.checkSlot slot = .ok ()
  | .rule (.addPort slot port) =>
    c.config.checkPort port = .ok () ∧ (Request.addPort slot port).Admitted c.table.geometry
  | .rule (.removePort slot port) =>
    c.config.checkPort port = .ok () ∧ (Request.removePort slot port).Admitted c.table.geometry
  | .rule .flushAll => True
  | .readRule slot => c.table.geometry.checkSlot slot = .ok ()

namespace Classifier

open Table (TimesOut)

section Sessions

variable {t : Table} {s : Table.State (Device t.geometry)} {slot : SlotIndex}
  (hvalid : t.geometry.Valid) (hfault : s.bus.failAt = none)

include hvalid hfault

theorem timesOut_request {r : Request} (hr : r.Admitted t.geometry) :
    t.TimesOut (r.session t) s := by
  cases r with
  | flushAll => exact (Table.timesOut_flushAll hvalid hfault).bind
  | flushEntry slot => exact (Table.timesOut_flushEntry hvalid hfault hr).bind
  | loadEntry slot entry => exact (Table.timesOut_loadEntry hvalid hfault hr.1 hr.2).bind
  | readEntry slot => exact (Table.timesOut_readEntry hvalid hfault hr).bind
  | getNextEntry slot => exact (Table.timesOut_getNextEntry hvalid hfault hr).bind
  | findEntry slot => exact (Table.timesOut_findEntry hvalid hfault hr).bind
  | addPort slot port => exact (Table.timesOut_updatePorts hvalid hfault hr.1 hr.2 _).bind
  | removePort slot port => exact (Table.timesOut_updatePorts hvalid hfault hr.1 hr.2 _).bind

/-- The second slot, if there is one, is loaded first. -/
theorem timesOut_load {p : Placement} (hslot : t.geometry.checkSlot slot = .ok ())
    (hcontinuation : ContinuesInTable t.geometry p) (hfits : p.FirstFits t.geometry) :
    t.TimesOut (load t slot p) s := by
  unfold Placement.FirstFits at hfits
  rw [load_eq, loadSecond]
  cases hp : p.continuation with
  | none =>
      rw [hp] at hfits
      exact Table.timesOut_loadEntry hvalid hfault hslot hfits
  | some q =>
      rw [hp] at hfits
      exact (Table.timesOut_loadEntry hvalid hfault (hcontinuation q.1 q.2 hp) hfits).bind

theorem timesOut_fetchRule (hslot : t.geometry.checkSlot slot = .ok ()) :
    t.TimesOut (fetchRule t slot) s :=
  .bind (.catchMiss (.bind (Table.timesOut_findEntry hvalid hfault hslot)))

end Sessions

variable {c : Classifier} {l : Lock (Table.State (Device c.table.geometry))} {op : Operation}

/-- An admitted operation runs a session that the busy bit ends at its first command. -/
theorem timesOut_script (hvalid : c.table.geometry.Valid) (hop : op.Admitted c)
    {s : Table.State (Device c.table.geometry)} (hfault : s.bus.failAt = none) :
    ∃ m : Script Answer, c.script op = .ok m ∧ c.table.TimesOut (m _) s := by
  cases op with
  | table r => exact ⟨_, rfl, (timesOut_request hvalid hfault hop).bind⟩
  | transaction requests =>
      cases requests with
      | nil => exact hop.elim
      | cons r rest =>
          refine ⟨_, rfl, TimesOut.bind ?_⟩
          rw [List.mapM_cons]
          exact (timesOut_request hvalid hfault hop).bind
  | rule r =>
      cases r with
      | configure slot1 slot2 rule =>
          obtain ⟨p, hp, hfits⟩ := hop
          refine ⟨_, congrArg (Except.map _) hp, TimesOut.bind ?_⟩
          exact timesOut_load hvalid hfault (plan_eq_ok hp).1 (continuesInTable_of_plan hp) hfits
      | removeRule slot =>
          exact ⟨_, rfl, .bind (.bind (Table.timesOut_findEntry hvalid hfault hop))⟩
      | addPort slot port =>
          obtain ⟨hport, hwidth, hslot⟩ := hop
          refine ⟨_, congrArg (Except.map _) hport, TimesOut.bind ?_⟩
          exact Table.timesOut_updatePorts hvalid hfault hwidth hslot _
      | removePort slot port =>
          obtain ⟨hport, hwidth, hslot⟩ := hop
          refine ⟨_, congrArg (Except.map _) hport, TimesOut.bind ?_⟩
          exact Table.timesOut_updatePorts hvalid hfault hwidth hslot _
      | flushAll => exact ⟨_, rfl, (Table.timesOut_flushAll hvalid hfault).bind⟩
  | readRule slot => exact ⟨_, rfl, (timesOut_fetchRule hvalid hfault hop).bind⟩

/-- Without a fault, an admitted operation waits exactly as long as it may.  If the block
is stuck or too busy, it gives up before its first command, after `L` polls.  If the
block is free in time but then too busy for too long after a command, it gives up after
its first command, with `L` polls more than it took the block to be free.  Otherwise it
does not give up. -/
theorem polls_exactly (hgeometry : c.table.geometry.validate = .ok ()) (hop : op.Admitted c)
    (hl : l.poisoned = false) (hfault : l.content.bus.failAt = none) :
    let d := l.content.bus
    let d' := ((c.carryOut op).after l).content.bus
    let result := (c.carryOut op).result l
    let timeout := Error.busyTimeout c.table.block c.table.pollLimit
    let L := c.table.pollLimit
    (d.stuckBusy = true ∨ L ≤ d.busyRemaining →
      result = .error timeout ∧ d'.polls = d.polls + L ∧ d'.history = d.history ∧
        d'.slots = d.slots) ∧
    (d.stuckBusy = false → d.busyRemaining < L → L ≤ d.busyDelay →
      result = .error timeout ∧ d'.polls = d.polls + (d.busyRemaining + 1 + L) ∧
        ∃ command, d'.history = command :: d.history) ∧
    (d.stuckBusy = false → d.busyRemaining < L → d.busyDelay < L →
      ∀ block attempts, result ≠ .error (.busyTimeout block attempts)) := by
  intro d d' result timeout L
  have hvalid := Geometry.validate_eq_ok_iff.mp hgeometry
  obtain ⟨m, hm, htimesOut⟩ := timesOut_script hvalid hop hfault
  have hgiveUp {polls : Nat} {executed : List Command}
      (h : c.table.GivesUp (m _) l.content polls executed) :
      result = .error timeout ∧ Device.Spent polls executed d d' := by
    obtain ⟨s', hrun, hspent⟩ := h
    have hlock : c.carryOut op l =
        .error timeout { l with content := { s' with phase := .idle } } := by
      rw [carryOut_eq, hm]
      change (m _).locked l = _
      rw [locked_eq _ hl, Session.settled_eq, hrun]
      rfl
    refine ⟨result_of_eq_error hlock, ?_⟩
    change Device.Spent polls executed d ((c.carryOut op).after l).content.bus
    rw [Transaction.after, hlock]
    exact hspent
  refine ⟨fun hblocked => ?_, fun hstuck hremaining hdelay => ?_,
    fun hstuck hremaining hdelay => ?_⟩
  · obtain ⟨hresult, hspent⟩ := hgiveUp (htimesOut.blocked hblocked)
    exact ⟨hresult, hspent.polls, hspent.history, hspent.slots rfl⟩
  · obtain ⟨command, h⟩ := htimesOut.slow ⟨hstuck, hremaining, hdelay⟩
    obtain ⟨hresult, hspent⟩ := hgiveUp h
    exact ⟨hresult, hspent.polls, command, hspent.history⟩
  · intro block attempts hresult
    have hends := evolving_carryOut hvalid op l hl
    rw [Transaction.Ends, Transaction.eq_of_result_eq_error hresult] at hends
    exact nomatch (hends.2.1 ⟨hfault, hstuck, hdelay, hremaining⟩).2

/-- Commands take just one poll too long: the first page of a rule of two slots is
loaded, and nothing else. -/
theorem polls_exactly_slowSample :
    let op : Operation := .rule (.configure 3#16 4#16 urgentSample)
    let l := adjust (fun d => d.setBusyDelay 1000)
      (Lock.ofContent (.ofBus (.fresh egressSample.table.geometry)))
    egressSample.table.geometry.validate = .ok () ∧ op.Admitted egressSample ∧
      l.poisoned = false ∧ l.content.bus.failAt = none ∧
      (egressSample.carryOut op).result l = .error (.busyTimeout ⟨0x1e#8⟩ 1000) ∧
      ((egressSample.carryOut op).after l).content.bus.polls = 1001 ∧
      ∃ command, ((egressSample.carryOut op).after l).content.bus.history = [command] := by
  intro op l
  have hop : op.Admitted egressSample := ⟨_, plan_urgentSample, check_urgentSample⟩
  obtain ⟨hresult, hpolls, command, hhistory⟩ := (polls_exactly rfl hop (l := l) rfl rfl).2.1
    rfl (by decide) (by decide)
  have hcount : l.content.bus.polls + (l.content.bus.busyRemaining + 1 +
      egressSample.table.pollLimit) = 1001 := by
    decide +kernel
  exact ⟨rfl, hop, rfl, rfl, hresult, hpolls.trans hcount, command, hhistory⟩

end Classifier

end Tcam
