import Tcam.Proofs.Classifier.Composition
import Tcam.Proofs.Classifier.Interruption
import Tcam.Proofs.Table.History

/-!
# Histories of runs

A run of calls, with faults, delays and a stuck busy bit at any point of it, leaves
a history from which the valid slots can be read off, and which has the pages of
every loaded slot in order (`history_of_run`).
-/

namespace Tcam.Classifier

variable {c : Classifier} {l : Lock (Table.State (Device c.table.geometry))}

/-- The state after a run of calls. -/
def afterRun (c : Classifier) (calls : List Call)
    (l : Lock (Table.State (Device c.table.geometry))) :
    Lock (Table.State (Device c.table.geometry)) :=
  calls.foldl (fun l call => c.after call l) l

theorem Reachable.afterRun (h : c.Reachable l) (calls : List Call) :
    c.Reachable (c.afterRun calls l) := by
  induction calls generalizing l with
  | nil => exact h
  | cons call calls ih => exact ih (.call l call h)

/-- A call keeps the history in agreement with the slots, unless it clears it. -/
theorem after_chronicled (hvalid : c.table.geometry.Valid) (hl : l.poisoned = false) {call : Call}
    (hcall : call ≠ .clearHistory) (hd : l.content.bus.Chronicled) :
    (c.after call l).content.bus.Chronicled := by
  rcases after_cases c call l with ⟨op, -, hop⟩ | ⟨-, f, hf, hkept⟩
  · have hends := carryOut_within (R := Table.Chronicles) (fun _ => id)
      (fun _ => Table.within_chronicles hvalid) hl op
    rw [hop]
    exact hends.after.2 hd
  · obtain ⟨hslots, hhistory⟩ := hkept l.content.bus
    rw [hf]
    exact hd.congr hslots (hhistory.resolve_left hcall)

theorem afterRun_chronicled (hvalid : c.table.geometry.Valid) (hl : l.poisoned = false)
    {calls : List Call} (hcalls : .clearHistory ∉ calls) (hd : l.content.bus.Chronicled) :
    (c.afterRun calls l).content.bus.Chronicled := by
  induction calls generalizing l with
  | nil => exact hd
  | cons call calls ih =>
      have hcall : call ≠ .clearHistory := fun h => hcalls (h ▸ List.mem_cons_self)
      have hrest : .clearHistory ∉ calls := fun h => hcalls (List.mem_cons_of_mem call h)
      exact ih (after_evolves hvalid hl call).1 hrest (after_chronicled hvalid hl hcall hd)

/-- In every state that a run of calls from a fresh device leads to, a slot is valid
exactly if the latest command that decides about it is the load of its key page, and
its sentinel says the same.  The history, latest first, has every load of a key page
right after the loads of the other pages.  A table with one window page never touches
the window page, and no slot below the table is ever valid. -/
theorem history_of_run (hvalid : c.table.geometry.validate = .ok ()) {calls : List Call}
    (hcalls : .clearHistory ∉ calls) :
    let d := (c.afterRun calls (.ofContent (.ofBus (.fresh c.table.geometry)))).content.bus
    (∀ slot, d.isValid slot = true ↔
      d.history.find? (Command.decides slot) = some ⟨.load, .key, slot⟩) ∧
    (∀ slot image, d.slot? slot = some image →
      (SlotImage.sentinel.get image.key : Octet) = if d.isValid slot then 0x01#8 else 0xff#8) ∧
    (∀ slot earlier, ⟨.load, .key, slot⟩ :: earlier <:+ d.history →
      c.table.geometry.leadIn slot <+: earlier) ∧
    (c.table.geometry.hasWindowPage = false → ∀ command ∈ d.history, command.page ≠ .window) ∧
    ∀ slot, slot < c.table.geometry.minIndex → d.isValid slot = false := by
  intro d
  have hgeometry := Geometry.validate_eq_ok_iff.mp hvalid
  have hchronicled : d.Chronicled :=
    afterRun_chronicled hgeometry rfl hcalls (Device.chronicled_fresh _)
  have hreachable : c.Reachable (c.afterRun calls (.ofContent (.ofBus (.fresh _)))) :=
    Reachable.fresh.afterRun calls
  refine ⟨hchronicled.isValid_iff, fun slot image himage => ?_, hchronicled.ordered,
    hchronicled.noWindow, fun slot hslot => ?_⟩
  · -- One of two sentinels, and only one of them is the sentinel of a valid slot.
    have hvalid : d.isValid slot = image.isValid := by
      rw [Device.isValid, himage, Option.any_some]
    rw [hvalid, SlotImage.isValid]
    rcases hreachable.marked hgeometry slot image himage with h | h
    · rw [h]
      rfl
    · rw [h]
      rfl
  · by_contra hloaded
    have hslots := (hreachable.evolves hgeometry).2
    have hcheck := hslots.checkSlot (Bool.not_eq_false _ ▸ hloaded)
    exact BitVec.not_lt.mpr (Geometry.checkSlot_eq_ok_iff.mp hcheck).1 hslot

/-- A rule is configured, and a second one in its place breaks off. -/
def interruptedSample : List Call :=
  [.configure 3#16 4#16 datagramSample, .failNthAccess 20, .configure 3#16 4#16 segmentSample]

theorem history_of_run_interruptedSample :
    ingressSample.table.geometry.validate = .ok () ∧ .clearHistory ∉ interruptedSample ∧
      let d := (ingressSample.afterRun interruptedSample
        (.ofContent (.ofBus (.fresh ingressSample.table.geometry)))).content.bus
      d.isValid 3#16 = true ∧
      d.history.find? (Command.decides 3#16) = some ⟨.load, .key, 3#16⟩ ∧
      ⟨.load, .key, 3#16⟩ :: d.history.drop 2 <:+ d.history ∧
      ingressSample.table.geometry.leadIn 3#16 <+: d.history.drop 2 := by
  have hcalls : .clearHistory ∉ interruptedSample := by
    simp [interruptedSample]
  obtain ⟨hvalid, -, hordered, -⟩ := history_of_run (c := ingressSample) rfl hcalls
  have hloaded : (⟨.load, .key, 3#16⟩ :: (ingressSample.afterRun interruptedSample
        (.ofContent (.ofBus (.fresh ingressSample.table.geometry)))).content.bus.history.drop 2) <:+
      (ingressSample.afterRun interruptedSample
        (.ofContent (.ofBus (.fresh ingressSample.table.geometry)))).content.bus.history := by
    decide +kernel
  refine ⟨rfl, hcalls, by decide +kernel, ?_, hloaded, hordered _ _ hloaded⟩
  exact (hvalid _).mp (by decide +kernel)

end Tcam.Classifier
