import Tcam.Proofs.Checks
import Tcam.Proofs.Frame.Headers
import Tcam.Rule.Placement

/-!
# Placing a rule and reading it back

`place_eq_ok_iff` says when a rule is accepted and which entries it gets.  In
either case the windows that are kept hold the whole stream of the rule, and the
stream shows every header, so the entries give the rule back bit for bit
(`ofEntries_place`).
-/

namespace Tcam

namespace Rule

open Checks

/-- The stream that a rule describes, if its headers fit. -/
def written (r : Rule) : FrameStream :=
  (FrameStream.putEthernet .any r.ethernet r.shape).withHeaders r.headers

/-- The placement of a rule in one slot. -/
def singlePlacement (r : Rule) : Placement where
  primary := ⟨r.key, r.written.firstWindow, .terminal r.action⟩
  continuation := none

/-- The placement of a rule that continues in `slot2`. -/
def linkedPlacement (r : Rule) (slot2 : SlotIndex) : Placement where
  primary := ⟨r.key, r.written.firstWindow, ⟨true, slot2.setWidth 8, default⟩⟩
  continuation :=
    some (slot2, ⟨Entry.cascadeKey slot2, r.written.secondWindow, .terminal r.action⟩)

theorem stream_eq_ok_iff {r : Rule} {s : FrameStream} :
    r.stream = .ok s ↔ r.headers.Fits ∧ s = r.written := by
  unfold stream
  cases hput : FrameStream.putHeaders r.headers (.putEthernet .any r.ethernet r.shape) with
  | ok u t =>
      obtain ⟨hfit, rfl⟩ := FrameStream.putHeaders_eq_ok_iff.mp hput
      simp [hput, hfit, written, eq_comm]
  | error e t =>
      have hfit : ¬r.headers.Fits := by
        intro hfit
        rw [FrameStream.putHeaders_eq_ok_iff.mpr ⟨hfit, rfl⟩] at hput
        exact absurd hput (by simp)
      simp [hput, hfit]

/-- A shape that ends in the first window has nothing in the second. -/
theorem secondWindow_written_of_not_reaches {r : Rule}
    (h : r.shape.reachesSecondWindow = false) : r.written.secondWindow = .any := by
  have hend : ∀ s : Shape, s.reachesSecondWindow = false →
      FrameStream.StartsFrom ⟨0, 8 * windowOctets⟩ (8 * s.headerEnd) := by
    rintro ⟨network, transport⟩
    cases network <;> cases transport <;> decide
  rw [FrameStream.secondWindow_eq_read, written, shape,
    FrameStream.read_withHeaders_of_startsFrom (hend _ h), FrameStream.read_any]

/-- A rule is accepted exactly when its key, action and headers fit and its
second window is either compared in a slot of its own or all zero. -/
theorem place_eq_ok_iff {r : Rule} {slot2 : SlotIndex} {p : Placement} :
    r.place slot2 = .ok p ↔
      r.key.check = .ok () ∧ r.action.check = .ok () ∧ r.headers.Fits ∧
        ((r.written.secondWindow.mask ≠ 0#_ ∧ slot2 ≤ maxSlotIndex ∧
            p = r.linkedPlacement slot2) ∨
          (r.written.secondWindow = .any ∧ p = r.singlePlacement)) := by
  -- Whether a second slot is used depends on the second mask alone.
  have hused (slot : Entry) : (r.shape.reachesSecondWindow &&
      Entry.isUsedAsSecond { slot with window := r.written.secondWindow }) = true ↔
        r.written.secondWindow.mask ≠ 0#_ := by
    cases hreach : r.shape.reachesSecondWindow with
    | false => simp [secondWindow_written_of_not_reaches hreach]
    | true => simp [Entry.isUsedAsSecond, Masked.isWildcard_eq]
  unfold place
  simp only [bind_eq_ok_iff, stream_eq_ok_iff, throw_bind]
  constructor
  · rintro ⟨⟨⟩, hkey, ⟨⟩, haction, s, ⟨hfit, rfl⟩, hrest⟩
    refine ⟨hkey, haction, hfit, ?_⟩
    by_cases hmask : r.written.secondWindow.mask = 0#_
    · rw [if_neg (by simpa only [hused] using not_not_intro hmask), refuse_eq_ok_iff] at hrest
      obtain ⟨hvalue, hp⟩ := hrest
      have hzero := Masked.eq_any_iff.mpr ⟨Decidable.not_not.mp hvalue, hmask⟩
      exact Or.inr ⟨hzero, (Except.ok.inj hp).symm⟩
    · rw [if_pos ((hused _).mpr hmask), bind_eq_ok_iff] at hrest
      obtain ⟨⟨first, second⟩, hlink, hp⟩ := hrest
      rw [Entry.link, refuse_eq_ok_iff] at hlink
      obtain ⟨hslot, hentries⟩ := hlink
      cases hentries
      exact Or.inl ⟨hmask, BitVec.not_lt.mp hslot, (Except.ok.inj hp).symm⟩
  · rintro ⟨hkey, haction, hfit, hrest⟩
    refine ⟨(), hkey, (), haction, r.written, ⟨hfit, rfl⟩, ?_⟩
    rcases hrest with ⟨hmask, hslot, rfl⟩ | ⟨hzero, rfl⟩
    · rw [if_pos ((hused _).mpr hmask), Entry.link, if_neg (BitVec.not_lt.mpr hslot)]
      rfl
    · obtain ⟨hvalue, hmask⟩ := Masked.eq_any_iff.mp hzero
      rw [if_neg (by simpa only [hused] using not_not_intro hmask),
        if_neg (not_not_intro hvalue)]
      rfl

/-- A rule continues in the slot it was placed with, if in any. -/
theorem next?_primary {r : Rule} {slot2 : SlotIndex} {p : Placement}
    (h : r.place slot2 = .ok p) : p.primary.next? = p.continuation.map Prod.fst := by
  obtain ⟨-, -, -, ⟨-, hslot, rfl⟩ | ⟨-, rfl⟩⟩ := place_eq_ok_iff.mp h
  · have hle := BitVec.le_def.mp hslot
    have hwidth : (slot2.setWidth 8).setWidth 16 = slot2 := by
      apply BitVec.eq_of_toNat_eq
      simp only [maxSlotIndex, BitVec.toNat_ofNat] at hle
      rw [BitVec.toNat_setWidth, BitVec.toNat_setWidth]
      omega
    change some ((slot2.setWidth 8).setWidth 16) = some slot2
    rw [hwidth]
  · rfl

theorem next?_continuation {r : Rule} {slot2 slot : SlotIndex} {p : Placement}
    {second : Entry} (h : r.place slot2 = .ok p) (hp : p.continuation = some (slot, second)) :
    slot = slot2 ∧ second.next? = none := by
  obtain ⟨-, -, -, ⟨-, -, rfl⟩ | ⟨-, rfl⟩⟩ := place_eq_ok_iff.mp h
  · obtain ⟨rfl, rfl⟩ := Prod.mk.inj (Option.some.inj hp)
    exact ⟨rfl, rfl⟩
  · exact nomatch hp

/-- The stream of a rule whose headers fit, with its key and action, is the rule. -/
theorem ofStream_written {r : Rule} (hfit : r.headers.Fits) :
    ofStream r.key r.written r.action = .ok r := by
  have hshow : r.written.ShowsAll r.ethernet r.headers :=
    FrameStream.withHeaders_showsAll hfit r.ethernet .any
  unfold ofStream
  rw [hshow.shape_eq]
  simp only [bind, Except.bind, hshow.readEthernet_eq, hshow.readHeaders_eq]
  rfl

/-- The entries of an accepted rule give the rule back, whether it takes one slot
or two. -/
theorem ofEntries_place {r : Rule} {slot2 : SlotIndex} {p : Placement}
    (h : r.place slot2 = .ok p) :
    ofEntries p.primary (p.continuation.map Prod.snd) = .ok r := by
  obtain ⟨-, -, hfit, ⟨-, -, rfl⟩ | ⟨hzero, rfl⟩⟩ := place_eq_ok_iff.mp h
  · show ofStream r.key (.ofWindows r.written.firstWindow (some r.written.secondWindow))
      r.action = .ok r
    rw [FrameStream.ofWindows_windows, ofStream_written hfit]
  · show ofStream r.key (.ofWindows r.written.firstWindow none) r.action = .ok r
    rw [FrameStream.ofWindows_firstWindow hzero, ofStream_written hfit]

/-- A rule that needs both windows and sets value bits under zero mask bits. -/
def twoSlotSample : Rule where
  key := ⟨⟨2#8, 1#8, ⟨0x400#16⟩, 5#8, 0xabc#16⟩, ⟨3#8, 1#8, ⟨0x7ff#16⟩, 7#8, 0xff0#16⟩⟩
  ethernet := ⟨⟨0x0123456789ab#48, 0xfedcba987654#48, 0x81006005#32⟩,
    ⟨0xffffffffffff#48, 0#48, 0xffff0fff#32⟩⟩
  headers := {
    network := .ipv6
      ⟨⟨6#8, 0x5a#8, 0xabcde#32, 0x1234#16, 64#8, 1#128, 2#128⟩,
        ⟨15#8, 0xf0#8, 0xfffff#32, 0#16, 255#8, 0#128, BitVec.allOnes 128⟩⟩
    transport := .tcp
      ⟨⟨443#16, 8080#16, 1#32, 0xfffffffe#32, 5#8, 0xabc#16, 3#16, 4#16, 5#16⟩,
        ⟨0xffff#16, 0#16, 0#32, 0x10001#32, 15#8, 0x12#16, 0#16, 0#16, 0xffff#16⟩⟩ }
  action := .redirect (.single 5)

theorem place_twoSlotSample :
    twoSlotSample.place 17#16 = .ok (twoSlotSample.linkedPlacement 17#16) := by
  rw [place_eq_ok_iff, KeyMatch.check, Action.check, Layout.check_eq_ok_iff,
    Layout.check_eq_ok_iff]
  decide +kernel

theorem ofEntries_place_twoSlotSample :
    twoSlotSample.place 17#16 = .ok (twoSlotSample.linkedPlacement 17#16) ∧
      ofEntries (twoSlotSample.linkedPlacement 17#16).primary
        ((twoSlotSample.linkedPlacement 17#16).continuation.map Prod.snd) = .ok twoSlotSample :=
  ⟨place_twoSlotSample, ofEntries_place place_twoSlotSample⟩

end Rule

end Tcam
