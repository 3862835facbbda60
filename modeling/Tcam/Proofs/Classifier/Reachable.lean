import Tcam.Proofs.Classifier.Composition
import Tcam.Proofs.Table.Evolution

/-!
# States that operations lead to

The states of a classifier over a device that started out flushed, after any
calls of its own operations and of the operations of its table, whether they
succeeded or failed, with any faults and delays of the device in between.  In
all of them the lock can be taken and the slots have evolved from flushed ones
(`Reachable.evolves`).
-/

namespace Tcam.Classifier

variable {c : Classifier} {l : Lock (Table.State (Device c.table.geometry))}

/-- A call of an operation, or a change of how the device behaves. -/
inductive Call where
  | table (r : Request)
  | transaction (requests : List Request)
  | configure (slot1 slot2 : SlotIndex) (rule : Rule)
  | readRule (slot : SlotIndex)
  | removeRule (slot : SlotIndex)
  | addPort (slot : SlotIndex) (port : Octet)
  | removePort (slot : SlotIndex) (port : Octet)
  | setBusyDelay (polls : Nat)
  | setStuckBusy (stuck : Bool)
  | failNthAccess (n : Nat)
  | clearHistory

/-- The operation that a call carries out, if it is not a change of the device. -/
def Call.operation? : Call → Option Operation
  | .table r => some (.table r)
  | .transaction requests => some (.transaction requests)
  | .configure slot1 slot2 rule => some (.rule (.configure slot1 slot2 rule))
  | .readRule slot => some (.readRule slot)
  | .removeRule slot => some (.rule (.removeRule slot))
  | .addPort slot port => some (.rule (.addPort slot port))
  | .removePort slot port => some (.rule (.removePort slot port))
  | .setBusyDelay _ | .setStuckBusy _ | .failNthAccess _ | .clearHistory => none

/-- Changes the device behind the lock. -/
def adjust {g : Geometry} (f : Device g → Device g) (l : Lock (Table.State (Device g))) :
    Lock (Table.State (Device g)) :=
  { l with content := { l.content with bus := f l.content.bus } }

/-- The state after a call. -/
def after (c : Classifier) : Call → Lock (Table.State (Device c.table.geometry)) →
    Lock (Table.State (Device c.table.geometry))
  | .table r => (c.table.serve r).after
  | .transaction requests => (requests.mapM (Request.session c.table)).locked.after
  | .configure slot1 slot2 rule => (c.configure slot1 slot2 rule).after
  | .readRule slot => (c.readRule slot).after
  | .removeRule slot => (c.removeRule slot).after
  | .addPort slot port => (c.addPort slot port).after
  | .removePort slot port => (c.removePort slot port).after
  | .setBusyDelay polls => adjust fun d => d.setBusyDelay polls
  | .setStuckBusy stuck => adjust fun d => d.setStuckBusy stuck
  | .failNthAccess n => adjust fun d => d.failNthAccess n
  | .clearHistory => adjust Device.clearHistory

/-- The states that calls lead to. -/
inductive Reachable (c : Classifier) : Lock (Table.State (Device c.table.geometry)) → Prop
  | fresh : Reachable c (Lock.ofContent (.ofBus (.fresh c.table.geometry)))
  | call (l : Lock (Table.State (Device c.table.geometry))) (call : Call) (h : Reachable c l) :
      Reachable c (c.after call l)

theorem after_carryOut_rule (r : RuleRequest) :
    (c.carryOut (.rule r)).after l = (c.serve r).after l :=
  Transaction.after_map (c.serve r) Answer.rule l

/-- A call carries out an operation, or it changes how the device behaves. -/
theorem after_cases (c : Classifier) (call : Call)
    (l : Lock (Table.State (Device c.table.geometry))) :
    (∃ op, call.operation? = some op ∧ c.after call l = (c.carryOut op).after l) ∨
      call.operation? = none ∧ ∃ f : Device c.table.geometry → Device c.table.geometry,
        c.after call l = adjust f l ∧
          ∀ d, (f d).slots = d.slots ∧ (call = .clearHistory ∨ (f d).history = d.history) := by
  have htable {α : Type} (m : Transaction (Device c.table.geometry) α) (f : α → Answer) :
      (do return f (← m) : Transaction (Device c.table.geometry) Answer).after l = m.after l :=
    Transaction.after_map m f l
  have hrule {r : RuleRequest} {α : Type} {m : Transaction (Device c.table.geometry) α}
      {f : α → RuleReply} (h : c.serve r = (do return f (← m))) :
      m.after l = (c.carryOut (.rule r)).after l := by
    rw [after_carryOut_rule, h]
    exact (Transaction.after_map m f l).symm
  cases call with
  | table r => exact Or.inl ⟨.table r, rfl, (htable _ _).symm⟩
  | transaction requests => exact Or.inl ⟨.transaction requests, rfl, (htable _ _).symm⟩
  | configure slot1 slot2 rule => exact Or.inl ⟨_, rfl, hrule rfl⟩
  | readRule slot => exact Or.inl ⟨.readRule slot, rfl, (htable _ _).symm⟩
  | removeRule slot => exact Or.inl ⟨_, rfl, hrule rfl⟩
  | addPort slot port => exact Or.inl ⟨_, rfl, hrule rfl⟩
  | removePort slot port => exact Or.inl ⟨_, rfl, hrule rfl⟩
  | setBusyDelay polls =>
      exact Or.inr ⟨rfl, fun d => d.setBusyDelay polls, rfl, fun d => ⟨rfl, Or.inr rfl⟩⟩
  | setStuckBusy stuck =>
      exact Or.inr ⟨rfl, fun d => d.setStuckBusy stuck, rfl, fun d => ⟨rfl, Or.inr rfl⟩⟩
  | failNthAccess n =>
      exact Or.inr ⟨rfl, fun d => d.failNthAccess n, rfl, fun d => ⟨rfl, Or.inr rfl⟩⟩
  | clearHistory => exact Or.inr ⟨rfl, Device.clearHistory, rfl, fun d => ⟨rfl, Or.inl rfl⟩⟩

/-- However the configuration of a rule ends, calls lead to the state that it leaves. -/
theorem Reachable.of_configure (hl : c.Reachable l) {slot1 slot2 : SlotIndex} {rule : Rule}
    {outcome : EStateM.Result Error (Lock (Table.State (Device c.table.geometry))) Bool}
    (h : c.configure slot1 slot2 rule l = outcome) : c.Reachable (endState outcome) := by
  have hcall := Reachable.call l (.configure slot1 slot2 rule) hl
  change c.Reachable ((c.configure slot1 slot2 rule).after l) at hcall
  unfold Transaction.after at hcall
  rw [h] at hcall
  cases outcome with
  | ok cascaded l' => exact hcall
  | error e l' => exact hcall

/-! ## What calls do to slots -/

/-- However the transaction ends, it has changed slots in the known ways only. -/
def Evolving (c : Classifier) {α : Type} (m : Transaction (Device c.table.geometry) α) : Prop :=
  ∀ l, l.poisoned = false → Transaction.Ends c.table.pollLimit m l
    (fun _ s' => l.content.bus.Evolves s'.bus) (fun _ s' => l.content.bus.Evolves s'.bus)

section Calls

variable (hvalid : c.table.geometry.Valid)

include hvalid

theorem evolving_carryOut (op : Operation) : c.Evolving (c.carryOut op) :=
  fun _ hl => carryOut_within (fun _ => .same rfl)
    (fun _ => Table.evolving_of_basic hvalid) hl op

theorem serve_evolves (hl : l.poisoned = false) (r : RuleRequest) :
    ((c.serve r).after l).poisoned = false ∧
      l.content.bus.Evolves ((c.serve r).after l).content.bus := by
  rw [← after_carryOut_rule]
  exact (evolving_carryOut hvalid (.rule r) l hl).after

/-- Every call leaves the lock usable and changes slots in the known ways only. -/
theorem after_evolves (hl : l.poisoned = false) (call : Call) :
    (c.after call l).poisoned = false ∧
      l.content.bus.Evolves (c.after call l).content.bus := by
  rcases after_cases c call l with ⟨op, -, hop⟩ | ⟨-, f, hf, hkept⟩
  · rw [hop]
    exact (evolving_carryOut hvalid op l hl).after
  · rw [hf]
    exact ⟨hl, .same (hkept l.content.bus).1⟩

theorem Reachable.evolves (h : c.Reachable l) :
    l.poisoned = false ∧ (Device.fresh c.table.geometry).Evolves l.content.bus := by
  induction h with
  | fresh => exact ⟨rfl, .same rfl⟩
  | call l call _ ih =>
      obtain ⟨hl, hpast⟩ := ih
      obtain ⟨hl', hcall⟩ := after_evolves hvalid hl call
      exact ⟨hl', hpast.trans hcall⟩

theorem Reachable.marked (h : c.Reachable l) : l.content.bus.Marked :=
  (Device.marked_flushed rfl : (Device.fresh c.table.geometry).Marked).evolves (h.evolves hvalid).2

end Calls

end Tcam.Classifier
