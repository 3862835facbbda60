import Tcam.Proofs.Classifier.Operations

/-!
# Calls that change rules

The operations that change the rules of a table, as data, so that runs of them
can be described.  A change of the ports of a rule reloads its first slot with other
ports (`changePorts_ends`).
-/

namespace Tcam

/-- A call of one of the operations that change rules. -/
inductive RuleRequest where
  | configure (slot1 slot2 : SlotIndex) (rule : Rule)
  | removeRule (slot : SlotIndex)
  | addPort (slot : SlotIndex) (port : Octet)
  | removePort (slot : SlotIndex) (port : Octet)
  | flushAll
  deriving DecidableEq, Repr

/-- What such a call returns. -/
inductive RuleReply where
  | done
  | configured (cascaded : Bool)
  deriving DecidableEq, Repr

namespace Classifier

/-- Carries out a call. -/
def serve {σ : Type} [RegisterBus σ] (c : Classifier) : RuleRequest → Transaction σ RuleReply
  | .configure slot1 slot2 rule => do return .configured (← c.configure slot1 slot2 rule)
  | .removeRule slot => do
    c.removeRule slot
    return .done
  | .addPort slot port => do
    c.addPort slot port
    return .done
  | .removePort slot port => do
    c.removePort slot port
    return .done
  | .flushAll => do
    c.table.flushAll.locked
    return .done

variable {c : Classifier} {l : Lock (Table.State (Device c.table.geometry))}

/-! ## Ports -/

theorem checkPort_eq_ok_iff {config : Config} {port : Octet} :
    config.checkPort port = .ok () ↔ port < config.portCount := by
  unfold Config.checkPort
  by_cases h : port < config.portCount
  · simp [h]
  · simp [h]

theorem isRefusal_of_checkPort {config : Config} {port : Octet} {e : Error}
    (h : config.checkPort port = .error e) : e.IsRefusal := by
  unfold Config.checkPort at h
  by_cases hport : port < config.portCount
  · rw [if_pos hport] at h
    exact nomatch h
  · rw [if_neg hport] at h
    exact ⟨_, (Except.error.inj h).symm⟩

/-- A change of the source ports of a rule. -/
abbrev PortUpdate :=
  Masked PortVector → Masked PortVector

/-- The ports with one of them admitted. -/
def admitting (port : Octet) : PortUpdate := fun ports =>
  ⟨ports.value.erase port.toNat, ports.mask.erase port.toNat⟩

/-- The ports with one of them no longer admitted. -/
def blocking (port : Octet) : PortUpdate := fun ports =>
  ⟨ports.value.erase port.toNat, ports.mask.insert port.toNat⟩

theorem admitting_admitting (port : Octet) (ports : Masked PortVector) :
    admitting port (admitting port ports) = admitting port ports := by
  simp only [admitting, PortVector.erase_erase]

theorem blocking_blocking (port : Octet) (ports : Masked PortVector) :
    blocking port (blocking port ports) = blocking port ports := by
  simp only [blocking, PortVector.erase_erase, PortVector.insert_insert]

/-- Changes the ports of the rule at a slot. -/
def changePorts {σ : Type} [RegisterBus σ] (c : Classifier) (slot : SlotIndex) (port : Octet)
    (update : PortUpdate) : Transaction σ Unit := do
  ofExcept (c.config.checkPort port)
  (c.table.updatePorts slot port update).locked

theorem serve_addPort {σ : Type} [RegisterBus σ] (slot : SlotIndex) (port : Octet) :
    (c.serve (.addPort slot port) : Transaction σ RuleReply) = do
      c.changePorts slot port (admitting port)
      return .done :=
  rfl

theorem serve_removePort {σ : Type} [RegisterBus σ] (slot : SlotIndex) (port : Octet) :
    (c.serve (.removePort slot port) : Transaction σ RuleReply) = do
      c.changePorts slot port (blocking port)
      return .done :=
  rfl

/-- Where another port vector is loaded. -/
abbrev withPortsAt {g : Geometry} (d : Device g) (slot : SlotIndex) (update : PortUpdate) : Entry :=
  (d.content slot).entry.withPorts update

/-- The ports of a rule are changed, with its first slot loaded anew.  The arguments
are checked before that. -/
theorem changePorts_ends (hvalid : c.table.geometry.Valid) (hl : l.poisoned = false)
    (slot : SlotIndex) (port : Octet) {update : PortUpdate}
    (hupdate : port.toNat < PortVector.width → Table.KeepsWidth update) :
    Transaction.Ends c.table.pollLimit (c.changePorts slot port update) l
      (fun _ s' => c.config.checkPort port = .ok () ∧ port.toNat < PortVector.width ∧
        c.table.geometry.checkSlot slot = .ok () ∧ l.content.bus.Present slot ∧
        s'.bus.slots = l.content.bus.loaded slot
          (.ofEntry (withPortsAt l.content.bus slot update)) c.table.geometry.loadOrder)
      (fun e s' =>
        c.config.checkPort port = .error e ∧ s'.bus.slots = l.content.bus.slots ∨
        c.config.checkPort port = .ok () ∧
          (¬port.toNat < PortVector.width ∧ s'.bus.slots = l.content.bus.slots ∨
          port.toNat < PortVector.width ∧
            (c.table.geometry.checkSlot slot = .error e ∧ s'.bus.slots = l.content.bus.slots ∨
            c.table.geometry.checkSlot slot = .ok () ∧
              (e = .notFound slot ∧ ¬l.content.bus.Present slot ∧
                  s'.bus.slots = l.content.bus.slots ∨
                e.isRetryable = true ∧ (s'.bus.slots = l.content.bus.slots ∨
                  l.content.bus.Present slot ∧ Table.PartlyLoaded l.content slot
                    (withPortsAt l.content.bus slot update) s'))))) := by
  unfold changePorts
  refine Transaction.Ends.check hl (fun e h => ?_) fun _ hport => ?_
  · exact ⟨(isRefusal_of_checkPort h).not_retryable, Or.inl ⟨h, rfl⟩⟩
  refine .locked hl ((Table.updatePorts_ends hvalid slot port hupdate).mono ?_ ?_)
  · exact fun _ s' h => ⟨hport, h⟩
  · rintro e s' (⟨hwide, -, rfl⟩ | ⟨hlt, ⟨hslot, rfl⟩ | ⟨hslot, h⟩⟩)
    · exact Or.inr ⟨hport, Or.inl ⟨hwide, rfl⟩⟩
    · exact Or.inr ⟨hport, Or.inr ⟨hlt, Or.inl ⟨hslot, rfl⟩⟩⟩
    · exact Or.inr ⟨hport, Or.inr ⟨hlt, Or.inr ⟨hslot, h⟩⟩⟩

end Classifier

end Tcam
