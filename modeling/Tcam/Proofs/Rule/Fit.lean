import Tcam.Proofs.Rule.Matching
import Tcam.Proofs.Slot.Image

/-!
# Placed rules and the windows of a table

A table with window pages holds the entries of every accepted rule.  A table
without them holds no rule at all: each rule compares its protocol number, which
lies behind the octets of the key page, so its first entry is refused.
-/

namespace Tcam

namespace Entry

theorem check_cascadeKey {slot : SlotIndex} (hslot : slot ≤ maxSlotIndex) :
    (cascadeKey slot).check = .ok () := by
  rw [KeyMatch.check, Layout.check_eq_ok_iff]
  -- The VLAN id is the only number that depends on the slot.
  have hid : (Registers.field 4 0 12).fits slot = true := by
    rw [BitField.fits_iff]
    intro i hi
    rw [BitVec.getLsbD]
    apply Nat.testBit_lt_two_pow
    have hlt := BitVec.le_def.mp hslot
    have hpow : 2 ^ 12 ≤ 2 ^ i := Nat.pow_le_pow_right (by decide) hi
    simp only [maxSlotIndex, BitVec.toNat_ofNat] at hlt
    omega
  have hzero : ∀ c ∈ KeyMatch.layout, c.fits (cascadeKey 0#16) = true := by
    decide
  simp only [KeyMatch.layout, List.forall_mem_cons, List.not_mem_nil, false_imp_iff, implies_true,
    and_true] at hzero ⊢
  obtain ⟨htype, htypeMask, htime, htimeMask, hports, hportsMask, hpriority, hpriorityMask, -,
    hidMask⟩ := hzero
  exact ⟨htype, htypeMask, htime, htimeMask, hports, hportsMask, hpriority, hpriorityMask, hid,
    hidMask⟩

theorem check_action_default : (default : Action).check = .ok () := by
  rw [Action.check, Layout.check_eq_ok_iff]
  decide

/-- The window is checked last. -/
theorem check_of_comparesBeyond {e : Entry} {g : Geometry} (hkey : e.key.check = .ok ())
    (haction : e.fields.action.check = .ok ()) (hlong : e.window.comparesBeyond g.octets = true) :
    e.check g = .error (.invalidArgument (.windowTooLong g.octets)) := by
  unfold check
  rw [hkey, haction, hlong]
  rfl

end Entry

namespace Rule

open FrameStream (span)

variable {r : Rule} {slot2 : SlotIndex} {p : Placement} {g : Geometry}

/-- The first window compares the protocol number in full. -/
theorem maskOctet_protocol (hfit : r.headers.Fits) :
    r.written.firstWindow.maskOctet (Frame.protocolOctet r.headers.network.kind) =
      BitVec.allOnes 8 := by
  have hshow : r.written.ShowsAll r.ethernet r.headers :=
    FrameStream.withHeaders_showsAll hfit r.ethernet .any
  have hfield (n : Network) : n.protocolField = span (8 * Frame.protocolOctet n) 8 ∧
      Frame.protocolOctet n < windowOctets := by
    cases n <;> decide
  obtain ⟨hplace, hlt⟩ := hfield r.headers.network.kind
  have hread := hshow.protocol
  rw [hplace, ← FrameStream.octets_firstWindow r.written hlt] at hread
  exact congrArg Masked.mask hread

/-- The protocol number lies behind the key page. -/
theorem protocol_behind_keyPage (r : Rule) :
    keyPageOctets ≤ Frame.protocolOctet r.headers.network.kind ∧
      Frame.protocolOctet r.headers.network.kind < windowOctets := by
  cases r.headers.network.kind with
  | ipv4 => decide
  | ipv6 => decide

/-- The first entry of an accepted rule compares the protocol number in full. -/
theorem maskOctet_primary (h : r.place slot2 = .ok p) :
    p.primary.window.maskOctet (Frame.protocolOctet r.headers.network.kind) =
      BitVec.allOnes 8 := by
  obtain ⟨-, -, hfit, hplaced⟩ := place_eq_ok_iff.mp h
  rcases hplaced with ⟨-, -, rfl⟩ | ⟨-, rfl⟩
  · exact maskOctet_protocol hfit
  · exact maskOctet_protocol hfit

theorem checks_primary (h : r.place slot2 = .ok p) :
    p.primary.key.check = .ok () ∧ p.primary.fields.action.check = .ok () := by
  obtain ⟨hkey, haction, -, hplaced⟩ := place_eq_ok_iff.mp h
  rcases hplaced with ⟨-, -, rfl⟩ | ⟨-, rfl⟩
  · exact ⟨hkey, Entry.check_action_default⟩
  · exact ⟨hkey, haction⟩

/-- Without a window page the first entry of every rule is refused for its window. -/
theorem check_primary_eq_error (h : r.place slot2 = .ok p) (hpage : g.hasWindowPage = false) :
    p.primary.check g = .error (.invalidArgument (.windowTooLong keyPageOctets)) := by
  obtain ⟨hkey, haction⟩ := checks_primary h
  have hoctets := g.octets_eq_keyPageOctets hpage
  have hlong : p.primary.window.comparesBeyond g.octets = true := by
    rw [← Bool.not_eq_false, FrameWindow.comparesBeyond_eq_false_iff, hoctets]
    intro hzero
    obtain ⟨hlow, hlt⟩ := r.protocol_behind_keyPage
    have hmask := (hzero _ hlow hlt).symm.trans (maskOctet_primary h)
    exact absurd hmask (by decide)
  rw [Entry.check_of_comparesBeyond hkey haction hlong, hoctets]

/-- Without a window page no slot holds the first entry of a rule. -/
theorem check_primary_ne_ok (h : r.place slot2 = .ok p) (hpage : g.hasWindowPage = false) :
    p.primary.check g ≠ .ok () :=
  fun hcheck => nomatch hcheck.symm.trans (check_primary_eq_error h hpage)

/-- With a window page a slot holds the first entry of every accepted rule. -/
theorem check_primary (h : r.place slot2 = .ok p) (hpage : g.hasWindowPage = true) :
    p.primary.check g = .ok () := by
  obtain ⟨hkey, haction⟩ := checks_primary h
  rw [Entry.check_eq_ok_iff]
  exact ⟨hkey, haction, p.primary.window.beyond_eq_false_of_hasWindowPage hpage⟩

/-- With a window page a slot holds the second entry of every accepted rule. -/
theorem check_continuation (h : r.place slot2 = .ok p) (hpage : g.hasWindowPage = true)
    {slot : SlotIndex} {second : Entry} (hcontinuation : p.continuation = some (slot, second)) :
    second.check g = .ok () := by
  obtain ⟨-, haction, -, ⟨-, hslot, rfl⟩ | ⟨-, rfl⟩⟩ := place_eq_ok_iff.mp h
  · obtain ⟨-, rfl⟩ := Prod.mk.inj (Option.some.inj hcontinuation)
    rw [Entry.check_eq_ok_iff, and_iff_left (FrameWindow.beyond_eq_false_of_hasWindowPage _ hpage)]
    exact ⟨Entry.check_cascadeKey hslot, haction⟩
  · exact nomatch hcontinuation

/-! ## Refusals -/

theorem isRefusal_of_stream {e : Error} (h : r.stream = .error e) : e.IsRefusal := by
  unfold stream at h
  cases hput : FrameStream.putHeaders r.headers (.putEthernet .any r.ethernet r.shape) with
  | ok u s =>
      simp only [hput] at h
      exact nomatch h
  | error e' s =>
      simp only [hput] at h
      exact Except.error.inj h ▸ (FrameStream.putHeaders_eq_error hput).1

theorem isRefusal_of_link {first second : Entry} {slot : SlotIndex} {action : Action} {e : Error}
    (h : first.link second slot action = .error e) : e.IsRefusal := by
  rw [Entry.link, Checks.refuse_eq_error_iff] at h
  rcases h with ⟨-, rfl⟩ | ⟨-, h⟩
  · exact ⟨_, rfl⟩
  · cases h

/-- A rule that is not accepted is refused as an argument. -/
theorem isRefusal_of_place {e : Error} (h : r.place slot2 = .error e) : e.IsRefusal := by
  unfold place at h
  simp only [Checks.throw_bind] at h
  rcases Checks.bind_eq_error_iff.mp h with hkey | ⟨_, -, h⟩
  · exact Layout.isRefusal_of_check hkey
  rcases Checks.bind_eq_error_iff.mp h with haction | ⟨_, -, h⟩
  · exact Layout.isRefusal_of_check haction
  rcases Checks.bind_eq_error_iff.mp h with hstream | ⟨s, -, h⟩
  · exact isRefusal_of_stream hstream
  split at h
  · rcases Checks.bind_eq_error_iff.mp h with hlink | ⟨_, -, h⟩
    · exact isRefusal_of_link hlink
    · exact nomatch h
  · rcases Checks.refuse_eq_error_iff.mp h with ⟨-, rfl⟩ | ⟨-, h⟩
    · exact ⟨_, rfl⟩
    · exact nomatch h

theorem isRefusal_of_shape {s : FrameStream} {e : Error} (h : s.shape = .error e) :
    e.IsRefusal := by
  unfold FrameStream.shape at h
  cases hshape : Shape.ofNumbers? (etherTypeField.get s.value) s.protocolNumber with
  | some shape =>
      simp only [hshape] at h
      exact nomatch h
  | none =>
      simp only [hshape] at h
      exact ⟨_, (Except.error.inj h).symm⟩

theorem isRefusal_of_ofStream {key : KeyMatch} {s : FrameStream} {action : Action} {e : Error}
    (h : ofStream key s action = .error e) : e.IsRefusal := by
  unfold ofStream at h
  rcases Checks.bind_eq_error_iff.mp h with hshape | ⟨_, -, h⟩
  · exact isRefusal_of_shape hshape
  · exact nomatch h

theorem isRefusal_of_ofEntries {first : Entry} {second : Option Entry} {e : Error}
    (h : ofEntries first second = .error e) : e.IsRefusal := by
  unfold ofEntries at h
  split at h
  · split at h
    · exact isRefusal_of_ofStream h
    · exact ⟨_, (Except.error.inj h).symm⟩
  · exact isRefusal_of_ofStream h

end Rule

end Tcam
