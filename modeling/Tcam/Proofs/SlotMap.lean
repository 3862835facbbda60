import Mathlib.Algebra.Group.Nat.Defs
import Tcam.Proofs.Table.Operations

/-!
# Tables as maps from slots to entries

A table that is seen through its replies only is a partial map.  The requests
below are the operations of a table; a slot map answers them without pages,
registers and commands.
-/

namespace Tcam

/-- A call of one of the operations of a table. -/
inductive Request where
  | flushAll
  | flushEntry (slot : SlotIndex)
  | loadEntry (slot : SlotIndex) (entry : Entry)
  | readEntry (slot : SlotIndex)
  | getNextEntry (slot : SlotIndex)
  | findEntry (slot : SlotIndex)
  | addPort (slot : SlotIndex) (port : Octet)
  | removePort (slot : SlotIndex) (port : Octet)
  deriving DecidableEq, Repr

/-- What a call returns. -/
inductive Reply where
  | done
  | found (slot : Slot)
  deriving DecidableEq, Repr

/-- The replies to a run of requests. -/
def replies {ε σ ρ α : Type} (serve : ρ → EStateM ε σ α) : List ρ → σ → List (Except ε α)
  | [], _ => []
  | r :: rest, s =>
    match serve r s with
    | .ok a s => .ok a :: replies serve rest s
    | .error e s => .error e :: replies serve rest s

/-- The slots that hold an entry. -/
abbrev SlotMap := SlotIndex → Option Entry

theorem get_bind_apply {ε σ α : Type} (f : σ → EStateM ε σ α) (s : σ) :
    (get >>= f) s = f s s :=
  rfl

theorem check_bind_apply {ε σ α β : Type} {x : Except ε α} {a : α} (h : x = .ok a)
    (f : α → EStateM ε σ β) (s : σ) : (ofExcept x >>= f) s = f a s := by
  rw [h]
  rfl

namespace SlotMap

/-- The map with no entry. -/
def empty : SlotMap :=
  fun _ => none

/-- The map with the content of one slot replaced. -/
def put (m : SlotMap) (slot : SlotIndex) (content : Option Entry) : SlotMap :=
  fun i => if i = slot then content else m i

/-- Slot `i` comes after `slot`.  After the largest index the slots start over. -/
def Follows (g : Geometry) (slot i : SlotIndex) : Prop :=
  slot = g.maxIndex ∨ slot < i

instance (g : Geometry) (slot i : SlotIndex) : Decidable (Follows g slot i) :=
  inferInstanceAs (Decidable (_ ∨ _))

/-- The least slot with an entry among those that come after `slot`. -/
def next? (g : Geometry) (m : SlotMap) (slot : SlotIndex) : Option SlotIndex :=
  ((List.range (2 ^ 16)).find? fun i =>
    (m (BitVec.ofNat 16 i)).isSome && decide (Follows g slot (BitVec.ofNat 16 i))).map
      (BitVec.ofNat 16)

theorem next?_eq_some_iff {g : Geometry} {m : SlotMap} {slot i : SlotIndex} :
    next? g m slot = some i ↔ (m i).isSome = true ∧ Follows g slot i ∧
      ∀ j, (m j).isSome = true → Follows g slot j → i ≤ j := by
  have hindex (i : SlotIndex) : BitVec.ofNat 16 i.toNat = i :=
    BitVec.eq_of_toNat_eq (by rw [BitVec.toNat_ofNat, Nat.mod_eq_of_lt i.isLt])
  -- Slots are looked at in ascending order, as numbers below `2 ^ 16`.
  unfold next?
  rw [Option.map_eq_some_iff]
  simp only [List.find?_range_eq_some, List.mem_range, Bool.and_eq_true, decide_eq_true_eq,
    Bool.not_eq_true', Bool.and_eq_false_iff, decide_eq_false_iff_not]
  constructor
  · rintro ⟨k, ⟨⟨hentry, hfollows⟩, hk, hfirst⟩, rfl⟩
    refine ⟨hentry, hfollows, fun j hj hj' => BitVec.not_lt.mp fun hlt => ?_⟩
    have hjk : j.toNat < k := by
      have hlt' := BitVec.lt_def.mp hlt
      rwa [BitVec.toNat_ofNat, Nat.mod_eq_of_lt hk] at hlt'
    rcases hfirst j.toNat hjk with h | h
    · rw [hindex j, hj] at h
      exact nomatch h
    · rw [hindex j] at h
      exact h hj'
  · rintro ⟨hentry, hfollows, hleast⟩
    refine ⟨i.toNat, ⟨?_, i.isLt, fun k hk => ?_⟩, hindex i⟩
    · rw [hindex i]
      exact ⟨hentry, hfollows⟩
    · by_cases hk' : (m (BitVec.ofNat 16 k)).isSome = true
      · refine Or.inr fun hfollows' => ?_
        have hle := BitVec.le_def.mp (hleast _ hk' hfollows')
        have hlt := i.isLt
        rw [BitVec.toNat_ofNat, Nat.mod_eq_of_lt (by omega)] at hle
        omega
      · exact Or.inl (Bool.eq_false_iff.mpr hk')

/-- Changes the ports of an entry that is there. -/
def changePorts (g : Geometry) (slot : SlotIndex) (port : Octet)
    (update : Masked PortVector → Masked PortVector) : EStateM Error SlotMap Reply := do
  if PortVector.width ≤ port.toNat then
    throw (.invalidArgument (.portBeyondVector port))
  ofExcept (g.checkSlot slot)
  match (← get) slot with
  | some entry =>
    modify fun m => m.put slot (some (entry.withPorts update))
    return .done
  | none => throw (.notFound slot)

/-- Answers a request from the map. -/
def serve (g : Geometry) : Request → EStateM Error SlotMap Reply
  | .flushAll => do
    set empty
    return .done
  | .flushEntry slot => do
    ofExcept (g.checkSlot slot)
    modify fun m => m.put slot none
    return .done
  | .loadEntry slot entry => do
    ofExcept (g.checkSlot slot)
    ofExcept (entry.check g)
    modify fun m => m.put slot (some entry)
    return .done
  | .readEntry slot => do
    ofExcept (g.checkSlot slot)
    let content := (← get) slot
    return .found ⟨slot, content.isSome, content.getD default⟩
  | .getNextEntry slot => do
    if g.maxIndex < slot then
      throw (.invalidArgument (.slotBeyondMaximum slot g.maxIndex))
    let m ← get
    match m.next? g slot with
    | some i => return .found ⟨i, true, (m i).getD default⟩
    | none => throw (.notFound slot)
  | .findEntry slot => do
    ofExcept (g.checkSlot slot)
    match (← get) slot with
    | some entry => return .found ⟨slot, true, entry⟩
    | none => throw (.notFound slot)
  | .addPort slot port => changePorts g slot port fun ports =>
    ⟨ports.value.erase port.toNat, ports.mask.erase port.toNat⟩
  | .removePort slot port => changePorts g slot port fun ports =>
    ⟨ports.value.erase port.toNat, ports.mask.insert port.toNat⟩

variable {g : Geometry} {m m' : SlotMap} {e : Error}

/-! ## Accepted arguments -/

theorem changePorts_of_accepted {slot : SlotIndex} {port : Octet}
    {update : Masked PortVector → Masked PortVector} (hport : port.toNat < PortVector.width)
    (hslot : g.checkSlot slot = .ok ()) :
    changePorts g slot port update m = match m slot with
      | some entry => .ok .done (m.put slot (some (entry.withPorts update)))
      | none => .error (.notFound slot) m := by
  unfold changePorts
  rw [if_neg (Nat.not_le.mpr hport)]
  refine (check_bind_apply hslot _ m).trans ((get_bind_apply _ m).trans ?_)
  cases m slot with
  | none => rfl
  | some entry => rfl

theorem serve_getNextEntry_of_accepted {slot : SlotIndex} (hslot : slot ≤ g.maxIndex) :
    serve g (.getNextEntry slot) m = match m.next? g slot with
      | some i => .ok (.found ⟨i, true, (m i).getD default⟩) m
      | none => .error (.notFound slot) m := by
  simp only [serve]
  rw [if_neg (BitVec.not_lt.mpr hslot)]
  refine (get_bind_apply _ m).trans ?_
  cases m.next? g slot with
  | none => rfl
  | some i => rfl

theorem serve_findEntry_of_accepted {slot : SlotIndex} (hslot : g.checkSlot slot = .ok ()) :
    serve g (.findEntry slot) m = match m slot with
      | some entry => .ok (.found ⟨slot, true, entry⟩) m
      | none => .error (.notFound slot) m := by
  refine (check_bind_apply hslot _ m).trans ((get_bind_apply _ m).trans ?_)
  cases m slot with
  | none => rfl
  | some entry => rfl

/-! ## Refusals -/

theorem check_eq_error {α β : Type} {x : Except Error α} {f : α → EStateM Error SlotMap β}
    (h : (ofExcept x >>= f) m = .error e m') :
    x = .error e ∧ m' = m ∨ ∃ a, x = .ok a ∧ f a m = .error e m' := by
  cases x with
  | ok a => exact Or.inr ⟨a, rfl, h⟩
  | error e' =>
      obtain ⟨rfl, rfl⟩ := EStateM.Result.error.inj h
      exact Or.inl ⟨rfl, rfl⟩

theorem changePorts_eq_error {slot : SlotIndex} {port : Octet}
    {update : Masked PortVector → Masked PortVector}
    (h : changePorts g slot port update m = .error e m') :
    m' = m ∧ (e.IsRefusal ∨ ∃ slot, e = .notFound slot) := by
  unfold changePorts at h
  by_cases hport : PortVector.width ≤ port.toNat
  · rw [if_pos hport] at h
    obtain ⟨rfl, rfl⟩ := EStateM.Result.error.inj h
    exact ⟨rfl, Or.inl ⟨_, rfl⟩⟩
  · rw [if_neg hport] at h
    rcases check_eq_error h with ⟨hslot, rfl⟩ | ⟨_, -, h⟩
    · exact ⟨rfl, Or.inl (Geometry.isRefusal_of_checkSlot hslot)⟩
    · change (match m slot with
        | some entry => do
          modify fun m => m.put slot (some (entry.withPorts update))
          return .done
        | none => throw (.notFound slot) : EStateM Error SlotMap Reply) m = .error e m' at h
      cases hentry : m slot with
      | none =>
          rw [hentry] at h
          obtain ⟨rfl, rfl⟩ := EStateM.Result.error.inj h
          exact ⟨rfl, Or.inr ⟨slot, rfl⟩⟩
      | some entry =>
          rw [hentry] at h
          exact nomatch h

/-- A request that fails leaves the map alone, and the reason is the argument or
a slot without an entry. -/
theorem serve_eq_error {r : Request} (h : serve g r m = .error e m') :
    m' = m ∧ (e.IsRefusal ∨ ∃ slot, e = .notFound slot) := by
  cases r with
  | flushAll => exact nomatch h
  | flushEntry slot =>
      rcases check_eq_error h with ⟨hslot, rfl⟩ | ⟨_, -, h⟩
      · exact ⟨rfl, Or.inl (Geometry.isRefusal_of_checkSlot hslot)⟩
      · exact nomatch h
  | loadEntry slot entry =>
      rcases check_eq_error h with ⟨hslot, rfl⟩ | ⟨_, -, h⟩
      · exact ⟨rfl, Or.inl (Geometry.isRefusal_of_checkSlot hslot)⟩
      rcases check_eq_error h with ⟨hentry, rfl⟩ | ⟨_, -, h⟩
      · exact ⟨rfl, Or.inl (Entry.isRefusal_of_check hentry)⟩
      · exact nomatch h
  | readEntry slot =>
      rcases check_eq_error h with ⟨hslot, rfl⟩ | ⟨_, -, h⟩
      · exact ⟨rfl, Or.inl (Geometry.isRefusal_of_checkSlot hslot)⟩
      · exact nomatch h
  | getNextEntry slot =>
      simp only [serve] at h
      by_cases hslot : g.maxIndex < slot
      · rw [if_pos hslot] at h
        obtain ⟨rfl, rfl⟩ := EStateM.Result.error.inj h
        exact ⟨rfl, Or.inl ⟨_, rfl⟩⟩
      · rw [if_neg hslot, get_bind_apply] at h
        cases hnext : next? g m slot with
        | none =>
            rw [hnext] at h
            obtain ⟨rfl, rfl⟩ := EStateM.Result.error.inj h
            exact ⟨rfl, Or.inr ⟨slot, rfl⟩⟩
        | some i =>
            rw [hnext] at h
            exact nomatch h
  | findEntry slot =>
      rcases check_eq_error h with ⟨hslot, rfl⟩ | ⟨_, -, h⟩
      · exact ⟨rfl, Or.inl (Geometry.isRefusal_of_checkSlot hslot)⟩
      rw [get_bind_apply] at h
      cases hentry : m slot with
      | none =>
          rw [hentry] at h
          obtain ⟨rfl, rfl⟩ := EStateM.Result.error.inj h
          exact ⟨rfl, Or.inr ⟨slot, rfl⟩⟩
      | some entry =>
          rw [hentry] at h
          exact nomatch h
  | addPort slot port => exact changePorts_eq_error h
  | removePort slot port => exact changePorts_eq_error h

theorem mem_replies_eq_error {requests : List Request}
    (h : .error e ∈ replies (serve g) requests m) : e.IsRefusal ∨ ∃ slot, e = .notFound slot := by
  induction requests generalizing m with
  | nil => exact nomatch h
  | cons r rest ih =>
      unfold replies at h
      cases hserve : serve g r m with
      | ok a m' =>
          rw [hserve] at h
          rcases List.mem_cons.mp h with h | h
          · exact nomatch h
          · exact ih h
      | error e' m' =>
          rw [hserve] at h
          rcases List.mem_cons.mp h with h | h
          · obtain rfl := Except.error.inj h
            exact (serve_eq_error hserve).2
          · exact ih h

end SlotMap

end Tcam
