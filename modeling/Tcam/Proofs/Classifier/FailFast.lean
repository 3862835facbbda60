import Tcam.Proofs.Classifier.Composition
import Tcam.Proofs.Classifier.Interruption
import Tcam.Proofs.Table.Trace

/-!
# Operations stop at the first fault

An operation that meets an injected fault ends with the error of that access and
makes no further one, so it leaves the slots as they were before the access.  A
fault that comes after its last access makes no difference to it.
-/

namespace Tcam.Classifier

variable {c : Classifier} {l : Lock (Table.State (Device c.table.geometry))}

/-- The table with a recorder in front of its device. -/
def recording {g : Geometry} (l : Lock (Table.State (Device g))) :
    Lock (Table.State (Recorder (Device g))) :=
  { content := l.content.recorded [], poisoned := l.poisoned }

/-- The accesses that the operation makes, in order. -/
def accessesOf (c : Classifier) (op : Operation)
    (l : Lock (Table.State (Device c.table.geometry))) : List (Access (Device c.table.geometry)) :=
  ((c.carryOut op).after (recording l)).content.bus.log

/-- The accesses of an operation without a fault are those of its session. -/
theorem exists_traced (c : Classifier) (op : Operation)
    (l : Lock (Table.State (Device c.table.geometry))) :
    ∃ m : Script Answer, (∀ {σ : Type} [RegisterBus σ] (s : Table.State σ),
        c.carryOut op ⟨s, l.poisoned⟩ = mapState (fun s' => ⟨s', l.poisoned⟩) (m σ s)) ∧
      Table.Traced m (l.content.failing none)
        (c.accessesOf op (adjust (Device.failing none) l)) := by
  obtain ⟨m, hm, hop⟩ := exists_session c op l.poisoned
  obtain ⟨made, h⟩ := Table.hasTrace_of_steps (Table.composed_of_basic hm)
    (l.content.failing none) rfl
  have hrecording := (hop ((l.content.failing none).recorded [])).trans (congrArg _ (h.recorded []))
  rw [mapState_mapState] at hrecording
  have hmade : c.accessesOf op (adjust (Device.failing none) l) = made :=
    congrArg (fun l => l.content.bus.log) (after_of_eq_mapState hrecording)
  exact ⟨m, hop, hmade ▸ h⟩

/-- What the slots are before an access, a fault at this access leaves. -/
theorem exists_slots_before (c : Classifier) (op : Operation)
    (l : Lock (Table.State (Device c.table.geometry)))
    {access : Access (Device c.table.geometry)}
    (h : access ∈ c.accessesOf op (adjust (Device.failing none) l)) :
    ∃ n, ((c.carryOut op).after (adjust (fun d => d.failNthAccess n) l)).content.bus.slots =
      access.before.slots := by
  obtain ⟨m, hop, htrace⟩ := exists_traced c op l
  obtain ⟨k, hk⟩ := List.mem_iff_getElem?.mp h
  obtain ⟨s', hrun, hbus, -⟩ := htrace.failed k access hk
  have hfailed := (hop _).trans (congrArg _ hrun)
  have hend := congrArg (fun l => l.content.bus.slots) (after_of_eq_mapState hfailed)
  have hbefore := congrArg Device.slots hbus
  exact ⟨k + 1, hend.trans hbefore⟩

/-- With a fault injected at the `n`-th access from now, an operation that makes
fewer accesses does what it does without the fault.  Any other ends at that access:
it answers the error of the access, has made `n` accesses and counted one transport
error, and the slots are as they were after the first `n - 1` accesses of the run
without the fault. -/
theorem stops_at_fault (c : Classifier) (op : Operation)
    (l : Lock (Table.State (Device c.table.geometry))) {n : Nat} (hn : 1 ≤ n) :
    let calm := adjust (Device.failing none) l
    let faulty := adjust (fun d => d.failNthAccess n) l
    let made := c.accessesOf op calm
    ((c.carryOut op).after calm).content.bus.accesses = l.content.bus.accesses + made.length ∧
    (made.length < n → (c.carryOut op).result faulty = (c.carryOut op).result calm ∧
      ((c.carryOut op).after faulty).content.bus.slots =
        ((c.carryOut op).after calm).content.bus.slots) ∧
    (n ≤ made.length → ∃ access, made[n - 1]? = some access ∧
      access.before.accesses = l.content.bus.accesses + (n - 1) ∧
      (c.carryOut op).result faulty =
        .error (.transport (.access access.block access.offset .injected)) ∧
      ((c.carryOut op).after faulty).content.bus.accesses = l.content.bus.accesses + n ∧
      ((c.carryOut op).after faulty).content.stats.transportErrors =
        l.content.stats.transportErrors + 1 ∧
      ((c.carryOut op).after faulty).content.bus.slots = access.before.slots) := by
  intro calm faulty made
  obtain ⟨m, hm, hop⟩ := exists_session c op l.poisoned
  have htrace := Table.hasTrace_of_steps (Table.composed_of_basic hm)
  let s := l.content.failing none
  let lock (s' : Table.State (Device c.table.geometry)) : Lock _ := ⟨s', l.poisoned⟩
  obtain ⟨listed, h⟩ := htrace s rfl
  have hcalm : c.carryOut op calm = mapState lock (m _ s) := hop s
  have hfaulty : c.carryOut op faulty =
      mapState lock (m _ (s.failing (some (l.content.bus.accesses + n)))) := hop _
  have hmade : made = listed := by
    have hrecording := (hop (s.recorded [])).trans (congrArg _ (h.recorded []))
    rw [mapState_mapState] at hrecording
    exact congrArg (fun l => l.content.bus.log) (after_of_eq_mapState hrecording)
  have hend := after_of_eq_mapState hcalm
  rw [hmade]
  refine ⟨?_, fun hlt => ?_, fun hle => ?_⟩
  · exact (congrArg (fun l => l.content.bus.accesses) hend).trans h.accesses
  · have hlater := hfaulty.trans (congrArg _ (h.later _ (Or.inr (Nat.add_lt_add_left hlt _))))
    rw [mapState_mapState] at hlater
    have hslots := congrArg (fun l => l.content.bus.slots) (after_of_eq_mapState hlater)
    exact ⟨result_of_eq_mapState hlater hcalm,
      hslots.trans (congrArg (fun l => l.content.bus.slots) hend).symm⟩
  · have hlt : n - 1 < listed.length := by
      omega
    obtain ⟨access, haccess⟩ : ∃ access, listed[n - 1]? = some access :=
      ⟨_, List.getElem?_eq_getElem hlt⟩
    have hbefore := h.before _ access haccess
    obtain ⟨s', hrun, hbus, hcount⟩ := h.failed _ access haccess
    have hposition : s.bus.accesses + (n - 1) + 1 = l.content.bus.accesses + n := by
      change l.content.bus.accesses + (n - 1) + 1 = _
      omega
    rw [hposition] at hrun
    have hfailed := hfaulty.trans (congrArg (mapState lock) hrun)
    have hbus' : ((c.carryOut op).after faulty).content.bus = access.before.faulted :=
      (congrArg (fun l => l.content.bus) (after_of_eq_mapState hfailed)).trans hbus
    have hstats : ((c.carryOut op).after faulty).content.stats = s'.stats :=
      congrArg (fun l => l.content.stats) (after_of_eq_mapState hfailed)
    refine ⟨access, haccess, hbefore, result_of_eq_error hfailed, ?_, ?_, ?_⟩
    · have hcounted : access.before.accesses + 1 = l.content.bus.accesses + n := by
        rw [hbefore, ← hposition]
      exact (congrArg Device.accesses hbus').trans hcounted
    · exact (congrArg Stats.transportErrors hstats).trans hcount
    · have hslots := congrArg Device.slots hbus'
      exact hslots

/-- The twentieth access of the load of a rule fails, a write of a data register. -/
theorem stops_at_fault_twentiethAccess :
    let op : Operation := .rule (.configure 3#16 4#16 datagramSample)
    let l := Lock.ofContent (Table.State.ofBus (Device.fresh ingressSample.table.geometry))
    let faulty := adjust (fun d => d.failNthAccess 20) l
    1 ≤ 20 ∧ 20 ≤ (ingressSample.accessesOf op (adjust (Device.failing none) l)).length ∧
      (ingressSample.carryOut op).result faulty =
        .error (.transport (.access ⟨0x1f#8⟩ (dataRegister 6) .injected)) ∧
      ((ingressSample.carryOut op).after faulty).content.bus.accesses = 20 ∧
      ((ingressSample.carryOut op).after faulty).content.stats.transportErrors = 1 := by
  intro op l faulty
  have hlength : 20 ≤ (ingressSample.accessesOf op (adjust (Device.failing none) l)).length := by
    decide +kernel
  obtain ⟨access, haccess, -, hresult, hcount, herrors, -⟩ :=
    (stops_at_fault ingressSample op l (by decide : 1 ≤ 20)).2.2 hlength
  have hplace : ((ingressSample.accessesOf op (adjust (Device.failing none) l))[20 - 1]?).map
      (fun access => (access.block, access.offset)) = some (⟨0x1f#8⟩, dataRegister 6) := by
    decide +kernel
  rw [haccess] at hplace
  obtain ⟨hblock, hoffset⟩ := Prod.mk.inj (Option.some.inj hplace)
  have haccesses : l.content.bus.accesses + 20 = 20 := rfl
  have herrors' : l.content.stats.transportErrors + 1 = 1 := rfl
  refine ⟨by decide, hlength, ?_, ?_, ?_⟩
  · rw [hresult, hblock, hoffset]
  · rw [hcount, haccesses]
  · rw [herrors, herrors']

end Tcam.Classifier
