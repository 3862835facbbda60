import Tcam.Proofs.Classifier.Noninterference
import Tcam.Proofs.Rule.Acceptance

/-!
# Second slots that are read as rules

Reading takes every valid slot for the first slot of a rule, and its window for a first
one.  In the second window of a rule the octets where a first window has the EtherType
and the protocol number lie in or behind the transport header.  TCP over IPv4 ends in
front of the EtherType and UDP over IPv6 in front of the protocol number, so only TCP
over IPv6 can show the numbers of a shape (`exists_shape_second_iff`).  If it does, the
second slot is read as a rule of its own (`readRule_second_iff`).
-/

namespace Tcam

/-- The headers show the numbers of a shape in the second window: the EtherType in the
sequence number, the protocol number in the checksum or in the window size. -/
def Headers.Imitates : Headers → Prop
  | ⟨.ipv6 _, .tcp h⟩ =>
    h.value.sequence.setWidth 16 = 0x0800#16 ∧ h.value.checksum.setWidth 8 ∈ [6#8, 17#8] ∨
      h.value.sequence.setWidth 16 = 0x86dd#16 ∧ h.value.window.extractLsb' 8 8 ∈ [6#8, 17#8]
  | _ => False

instance (h : Headers) : Decidable h.Imitates :=
  match h with
  | ⟨.ipv6 _, .tcp _⟩ => inferInstanceAs (Decidable (_ ∨ _))
  | ⟨.ipv6 _, .udp _⟩ => isFalse id
  | ⟨.ipv4 _, .tcp _⟩ => isFalse id
  | ⟨.ipv4 _, .udp _⟩ => isFalse id

theorem Network.ofEtherType?_eq_some_iff {t : Word} {n : Network} :
    Network.ofEtherType? t = some n ↔ t = n.etherType := by
  unfold Network.ofEtherType?
  split
  · rename_i h
    subst h
    cases n <;> decide
  · rename_i h
    split
    · rename_i h'
      subst h'
      cases n <;> decide
    · rename_i h'
      cases n
      · simp [h]
      · simp [h']

theorem Transport.exists_ofProtocol?_iff {p : Octet} :
    (∃ k, Transport.ofProtocol? p = some k) ↔ p ∈ [6#8, 17#8] := by
  unfold Transport.ofProtocol?
  split
  · rename_i h
    simp [h, Transport.protocol]
  · rename_i h
    split
    · rename_i h'
      simp [h', Transport.protocol]
    · rename_i h'
      simp only [Transport.protocol] at h h'
      simp [h, h']

namespace FrameStream

variable {s : FrameStream} {h : Headers} {ethernet : Masked EthernetHeader}

/-- A stream has a shape if its EtherType names a network layer and the octet where this
layer has its protocol number names a transport layer. -/
theorem exists_shape_iff :
    (∃ shape, s.shape = .ok shape) ↔
      ∃ n : Network, (etherTypeField.get s.value : Word) = n.etherType ∧
        (n.protocolField.get s.value : Octet) ∈ [6#8, 17#8] := by
  have hnumbers : (∃ shape, s.shape = .ok shape) ↔
      ∃ shape, Shape.ofNumbers? (etherTypeField.get s.value) s.protocolNumber = some shape := by
    unfold shape
    cases h : Shape.ofNumbers? (etherTypeField.get s.value) s.protocolNumber with
    | none => simp [h]
    | some shape => simp [h]
  have hnumber (n : Network)
      (hn : Network.ofEtherType? (etherTypeField.get s.value) = some n) :
      s.protocolNumber = n.protocolField.get s.value := by
    rw [protocolNumber, hn]
  rw [hnumbers]
  constructor
  · rintro ⟨shape, hshape⟩
    obtain ⟨n, hn, hrest⟩ := Option.bind_eq_some_iff.mp hshape
    obtain ⟨k, hk, -⟩ := Option.bind_eq_some_iff.mp hrest
    rw [hnumber n hn] at hk
    exact ⟨n, Network.ofEtherType?_eq_some_iff.mp hn, Transport.exists_ofProtocol?_iff.mp ⟨k, hk⟩⟩
  · rintro ⟨n, htype, hprotocol⟩
    have hn := Network.ofEtherType?_eq_some_iff.mpr htype
    obtain ⟨k, hk⟩ := Transport.exists_ofProtocol?_iff.mpr hprotocol
    rw [← hnumber n hn] at hk
    exact ⟨⟨n, k⟩, by simp [Shape.ofNumbers?, hn, hk]⟩

/-- What the second window shows, taken for a first one. -/
theorem get_ofWindows_secondWindow {n start width : Nat} (s : FrameStream)
    (h : start + width ≤ 8 * windowOctets) :
    ((span start width).get (ofWindows s.secondWindow none).value : BitVec n) =
      (span (8 * windowOctets + start) width).get s.value := by
  apply BitVec.eq_of_getLsbD_eq
  intro i hi
  simp only [ofWindows, secondWindow, BitField.getLsbD_get, span, BitVec.getLsbD_append,
    BitVec.getLsbD_extractLsb', Option.getD_none]
  by_cases hw : i < width
  · have hhigh : ¬8 * streamOctets - start - width + i < 8 * windowOctets := by
      simp only [windowOctets, streamOctets] at h ⊢
      omega
    have hin : 8 * streamOctets - start - width + i - 8 * windowOctets < 8 * windowOctets := by
      simp only [windowOctets, streamOctets] at h ⊢
      omega
    have hindex : 0 + (8 * streamOctets - start - width + i - 8 * windowOctets) =
        8 * streamOctets - (8 * windowOctets + start) - width + i := by
      simp only [windowOctets, streamOctets] at h ⊢
      omega
    simp only [hhigh, hin, hindex, if_false, decide_true, Bool.true_and]
  · simp [hw]

/-- The parts of a TCP header over IPv6 that lie where the second window is looked at. -/
theorem get_of_showsTcp {t : Masked TcpHeader}
    (h : s.ShowsTransport Network.ipv6.transportStart (.tcp t)) :
    ((⟨240, 16⟩ : BitField).get s.value : Word) = t.value.sequence.setWidth 16 ∧
      ((⟨160, 8⟩ : BitField).get s.value : Octet) = t.value.checksum.setWidth 8 ∧
      ((⟨184, 8⟩ : BitField).get s.value : Octet) = t.value.window.extractLsb' 8 8 := by
  simp only [ShowsTransport, Shows, TcpHeader.layout, List.forall_mem_cons] at h
  obtain ⟨-, -, hsequence, -, -, -, hwindow, hchecksum, -⟩ := h
  have hsequence : ((⟨240, 32⟩ : BitField).get s.value : BitVec 32) = t.value.sequence :=
    congrArg Masked.value hsequence
  have hwindow : ((⟨176, 16⟩ : BitField).get s.value : Word) = t.value.window :=
    congrArg Masked.value hwindow
  have hchecksum : ((⟨160, 16⟩ : BitField).get s.value : Word) = t.value.checksum :=
    congrArg Masked.value hchecksum
  rw [← hsequence, ← hwindow, ← hchecksum, BitVec.setWidth_eq_extractLsb' (by decide),
    BitVec.setWidth_eq_extractLsb' (by decide)]
  exact ⟨BitField.get_part (show 0 + 16 ≤ 32 by decide) (Nat.le_refl 32) s.value,
    BitField.get_part (show 0 + 8 ≤ 16 by decide) (Nat.le_refl 16) s.value,
    BitField.get_part (show 8 + 8 ≤ 16 by decide) (Nat.le_refl 16) s.value⟩

/-- A second window shows the numbers of a shape exactly if its rule imitates one. -/
theorem exists_shape_second_iff (hs : s.ShowsAll ethernet h) (hempty : s.EmptyBehind h.shape) :
    (∃ shape, (ofWindows s.secondWindow none).shape = .ok shape) ↔ h.Imitates := by
  -- The octets that are looked at, as places of the whole stream.
  have htype : (etherTypeField.get (ofWindows s.secondWindow none).value : Word) =
      (⟨240, 16⟩ : BitField).get s.value :=
    get_ofWindows_secondWindow s (by decide)
  have hipv4 : (Network.ipv4.protocolField.get (ofWindows s.secondWindow none).value : Octet) =
      (⟨160, 8⟩ : BitField).get s.value :=
    get_ofWindows_secondWindow s (by decide)
  have hipv6 : (Network.ipv6.protocolField.get (ofWindows s.secondWindow none).value : Octet) =
      (⟨184, 8⟩ : BitField).get s.value :=
    get_ofWindows_secondWindow s (by decide)
  have hzero {n : Nat} (f : BitField) (hf : f.offset + f.width ≤ h.shape.lowestBit)
      (hn : f.width ≤ n) : (f.get s.value : BitVec n) = 0#n :=
    congrArg Masked.value (hempty.read_eq_any hf hn)
  rw [exists_shape_iff]
  obtain ⟨network, transport⟩ := h
  cases network with
  | ipv4 header =>
      have hlow : (⟨240, 16⟩ : BitField).offset + 16 ≤ (⟨.ipv4, transport.kind⟩ : Shape).lowestBit := by
        cases transport.kind <;> decide
      refine iff_of_false ?_ ?_
      · rintro ⟨n, hn, -⟩
        rw [htype, hzero _ hlow (Nat.le_refl 16)] at hn
        cases n <;> exact absurd hn (by decide)
      · cases transport <;> exact id
  | ipv6 header =>
      cases transport with
      | udp _ =>
          have hlow : 192 ≤ (⟨.ipv6, .udp⟩ : Shape).lowestBit := by decide
          refine iff_of_false ?_ id
          rintro ⟨n, -, hn⟩
          cases n with
          | ipv4 =>
              rw [hipv4, hzero ⟨160, 8⟩ (Nat.le_trans (by decide) hlow) (Nat.le_refl 8)] at hn
              exact absurd hn (by decide)
          | ipv6 =>
              rw [hipv6, hzero ⟨184, 8⟩ hlow (Nat.le_refl 8)] at hn
              exact absurd hn (by decide)
      | tcp t =>
          obtain ⟨hlow16, hlow8, hhigh8⟩ := get_of_showsTcp hs.transport
          rw [htype, hlow16]
          constructor
          · rintro ⟨n, hn, hprotocol⟩
            cases n with
            | ipv4 => exact .inl ⟨hn, by rwa [hipv4, hlow8] at hprotocol⟩
            | ipv6 => exact .inr ⟨hn, by rwa [hipv6, hhigh8] at hprotocol⟩
          · rintro (⟨hn, hprotocol⟩ | ⟨hn, hprotocol⟩)
            · exact ⟨.ipv4, hn, by rwa [hipv4, hlow8]⟩
            · exact ⟨.ipv6, hn, by rwa [hipv6, hhigh8]⟩

end FrameStream

namespace Classifier

variable {c : Classifier} {l : Lock (Table.State (Device c.table.geometry))}

/-- The lock is free, the device in order, and its sentinels are those of loads. -/
structure Working (c : Classifier) (l : Lock (Table.State (Device c.table.geometry))) : Prop where
  unpoisoned : l.poisoned = false
  ready : l.content.bus.Ready c.table.pollLimit
  marked : l.content.bus.Marked

theorem working_fresh {delay : Nat} (hdelay : delay < c.table.pollLimit) :
    c.Working (.ofContent (.ofBus ((Device.fresh c.table.geometry).setBusyDelay delay))) where
  unpoisoned := rfl
  ready := ⟨rfl, rfl, hdelay, Nat.zero_lt_of_lt hdelay⟩
  marked := Device.marked_flushed rfl

section Runs

variable (hvalid : c.table.geometry.Valid)

include hvalid

theorem Working.serve (h : c.Working l) (r : RuleRequest) : c.Working ((c.serve r).after l) := by
  obtain ⟨hl, hevolves⟩ := serve_evolves hvalid h.unpoisoned r
  refine ⟨hl, ?_, h.marked.evolves hevolves⟩
  rw [← after_carryOut_rule]
  unfold Transaction.after
  rcases (evolving_carryOut hvalid (.rule r) l h.unpoisoned).cases with
    ⟨a, l', hrun, -, hready, -⟩ | ⟨e, l', hrun, -, hready, -⟩
  · rw [hrun]
    exact hready h.ready
  · rw [hrun]
    exact (hready h.ready).1

theorem Working.afterAll (h : c.Working l) (requests : List RuleRequest) :
    c.Working (afterAll c.serve requests l) := by
  induction requests generalizing l with
  | nil => exact h
  | cons r rest ih =>
      rw [afterAll_cons]
      exact ih (h.serve hvalid r)

/-- What is read at a slot that holds the second entry of a rule. -/
theorem Working.readRule_second (h : c.Working l) {rule : Rule} {slot slot2 : SlotIndex}
    {p : Placement} {second : Entry} (hplace : rule.place slot2 = .ok p)
    (hsecond : p.continuation = some (slot, second))
    (hslot : c.table.geometry.checkSlot slot = .ok ())
    (hheld : l.content.bus.content slot = ⟨slot, true, second⟩) :
    ((∃ found, (c.readRule slot).result l = .ok (some found)) ↔ rule.headers.Imitates) ∧
      (¬rule.headers.Imitates →
        ∃ cause, (c.readRule slot).result l = .error (.invalidArgument cause)) := by
  have hloaded : l.content.bus.isValid slot = true := by
    rw [← Device.valid_content, hheld]
  rw [result_readRule hvalid h.unpoisoned h.ready h.marked slot,
    Device.ruleAt_of_valid hslot hloaded, hheld]
  obtain ⟨-, -, hfit, ⟨-, -, rfl⟩ | ⟨-, rfl⟩⟩ := Rule.place_eq_ok_iff.mp hplace
  · obtain ⟨rfl, rfl⟩ := Prod.mk.inj (Option.some.inj hsecond)
    -- The second entry does not continue, so its window is all that is read.
    have hread : l.content.bus.ruleFrom ⟨Entry.cascadeKey slot2, rule.written.secondWindow,
        .terminal rule.action⟩ = Rule.ofStream (Entry.cascadeKey slot2)
          (.ofWindows rule.written.secondWindow none) rule.action := rfl
    have himitates := FrameStream.exists_shape_second_iff
      (FrameStream.withHeaders_showsAll hfit rule.ethernet .any)
      (FrameStream.emptyBehind_withHeaders rule.ethernet (FrameStream.emptyBehind_any _))
    change (∃ shape, (FrameStream.ofWindows rule.written.secondWindow none).shape = .ok shape) ↔ _
      at himitates
    simp only [hread, ← himitates, Rule.ofStream]
    cases hshape : (FrameStream.ofWindows rule.written.secondWindow none).shape with
    | ok shape => exact ⟨iff_of_true ⟨_, rfl⟩ ⟨shape, rfl⟩, fun hnot => absurd ⟨shape, rfl⟩ hnot⟩
    | error e =>
        obtain ⟨cause, rfl⟩ := Rule.isRefusal_of_shape hshape
        exact ⟨iff_of_false (fun ⟨_, h⟩ => nomatch h) (fun ⟨_, h⟩ => nomatch h), fun _ => ⟨cause, rfl⟩⟩
  · exact nomatch hsecond

end Runs

/-- After any run of requests on a fresh device, a slot that holds the second entry of a
rule is read as a rule if the rule imitates one, and refused otherwise. -/
theorem readRule_second_iff {config : Config} {direction : Direction}
    (hc : Classifier.ofConfig config direction = .ok c) {delay : Nat}
    (hdelay : delay < c.table.pollLimit) (requests : List RuleRequest) {rule : Rule}
    {slot slot2 : SlotIndex} {p : Placement} {second : Entry} (hplace : rule.place slot2 = .ok p)
    (hsecond : p.continuation = some (slot, second))
    (hslot : c.table.geometry.checkSlot slot = .ok ())
    (hheld : (Tcam.afterAll c.serve requests (.ofContent (.ofBus ((Device.fresh
      c.table.geometry).setBusyDelay delay)))).content.bus.content slot = ⟨slot, true, second⟩) :
    let l := Tcam.afterAll c.serve requests
      (.ofContent (.ofBus ((Device.fresh c.table.geometry).setBusyDelay delay)))
    ((∃ found, (c.readRule slot).result l = .ok (some found)) ↔ rule.headers.Imitates) ∧
      (¬rule.headers.Imitates →
        ∃ cause, (c.readRule slot).result l = .error (.invalidArgument cause)) := by
  obtain ⟨hvalid, -⟩ := ofConfig_eq_ok hc
  have hworking := (working_fresh hdelay).afterAll hvalid requests
  exact hworking.readRule_second hvalid hplace hsecond hslot hheld

/-- A rule whose second window shows the numbers of TCP over IPv4. -/
def imitatingSample : Rule :=
  { Rule.wildcard ⟨.ipv6, .tcp⟩ with
    headers := {
      network := .ipv6 .any
      transport := .tcp
        ⟨{ (default : TcpHeader) with sequence := 0x0800#32, checksum := 6#16 },
          { (default : TcpHeader) with sequence := 0xffff#32, checksum := 0xff#16 }⟩ } }

/-- The state after the rule was configured in two free slots. -/
def imitatedSample : Lock (Table.State (Device ingressSample.table.geometry)) :=
  Tcam.afterAll ingressSample.serve [.configure 10#16 12#16 imitatingSample]
    (.ofContent (.ofBus ((Device.fresh ingressSample.table.geometry).setBusyDelay 0)))

theorem place_imitatingSample :
    imitatingSample.place 12#16 = .ok (imitatingSample.linkedPlacement 12#16) := by
  rw [Rule.place_eq_ok_iff, KeyMatch.check, Action.check, Layout.check_eq_ok_iff,
    Layout.check_eq_ok_iff]
  decide +kernel

theorem respectsAll_imitatingSample :
    RuleMap.RespectsAll ingressSample [.configure 10#16 12#16 imitatingSample] .empty := by
  refine ⟨fun p _ => ⟨?_, fun _ => ?_⟩, trivial⟩
  · rintro ⟨slot, live, hlive, -⟩
    exact nomatch hlive
  · rintro ⟨slot, live, hlive, -⟩
    exact nomatch hlive

theorem live_imitatingSample :
    Tcam.afterAll (RuleMap.serve ingressSample) [.configure 10#16 12#16 imitatingSample] .empty
      10#16 = some ⟨imitatingSample, some 12#16⟩ := by
  decide +kernel

theorem content_imitatedSample :
    imitatedSample.content.bus.content 12#16 =
      ⟨12#16, true, (⟨imitatingSample, some 12#16⟩ : LiveRule).secondEntry 12#16⟩ := by
  have hconfig : Classifier.ofConfig default .ingress = .ok ingressSample := rfl
  obtain ⟨hvalid, hports⟩ := ofConfig_eq_ok hconfig
  have hfresh : ingressSample.Holds (Lock.ofContent (Table.State.ofBus
      ((Device.fresh ingressSample.table.geometry).setBusyDelay 0))) .empty :=
    ⟨_, Table.simulates_fresh (by decide), RuleMap.stored_empty⟩
  obtain ⟨-, hholds⟩ := agree_run hvalid rfl hports _ respectsAll_imitatingSample hfresh
  obtain ⟨sm, hsim, hstored⟩ := hholds
  obtain ⟨-, hcontent⟩ := content_of_second hsim hstored live_imitatingSample rfl
  unfold imitatedSample
  exact hcontent

theorem readRule_second_iff_imitatedSample :
    Classifier.ofConfig default .ingress = .ok ingressSample ∧
      0 < ingressSample.table.pollLimit ∧
      imitatingSample.place 12#16 = .ok (imitatingSample.linkedPlacement 12#16) ∧
      ingressSample.table.geometry.checkSlot 12#16 = .ok () ∧
      imitatedSample.content.bus.content 12#16 =
        ⟨12#16, true, (⟨imitatingSample, some 12#16⟩ : LiveRule).secondEntry 12#16⟩ ∧
      ∃ found, (ingressSample.readRule 12#16).result imitatedSample = .ok (some found) := by
  have hconfig : Classifier.ofConfig default .ingress = .ok ingressSample := rfl
  have hsecond : (imitatingSample.linkedPlacement 12#16).continuation =
      some (12#16, (⟨imitatingSample, some 12#16⟩ : LiveRule).secondEntry 12#16) := rfl
  have hslot : ingressSample.table.geometry.checkSlot 12#16 = .ok () := rfl
  have hheld := content_imitatedSample
  have hread : ∃ found, (ingressSample.readRule 12#16).result imitatedSample = .ok (some found) := by
    unfold imitatedSample at hheld ⊢
    exact (readRule_second_iff hconfig (by decide) _ place_imitatingSample hsecond hslot
      hheld).1.mpr (by decide)
  exact ⟨hconfig, by decide, place_imitatingSample, hslot, hheld, hread⟩

/-- A run that leaves every rule its slots, after which the second slot of a rule is read
as a rule. -/
theorem second_slot_read_as_rule :
    RuleMap.RespectsAll ingressSample [.configure 10#16 12#16 imitatingSample] .empty ∧
      Tcam.afterAll (RuleMap.serve ingressSample) [.configure 10#16 12#16 imitatingSample] .empty
        10#16 = some ⟨imitatingSample, some 12#16⟩ ∧
      ∃ found, (ingressSample.readRule 12#16).result imitatedSample = .ok (some found) := by
  obtain ⟨hvalid, -⟩ :=
    ofConfig_eq_ok (rfl : Classifier.ofConfig default .ingress = .ok ingressSample)
  have hsecond : (imitatingSample.linkedPlacement 12#16).continuation =
      some (12#16, (⟨imitatingSample, some 12#16⟩ : LiveRule).secondEntry 12#16) := rfl
  have hworking : ingressSample.Working imitatedSample :=
    (working_fresh (by decide)).afterAll hvalid _
  have hheld := content_imitatedSample
  -- What the state is does not matter any more, and nothing should evaluate it.
  generalize imitatedSample = l at hworking hheld ⊢
  obtain ⟨hread, -⟩ := hworking.readRule_second hvalid place_imitatingSample hsecond rfl hheld
  exact ⟨respectsAll_imitatingSample, live_imitatingSample, hread.mpr (by decide)⟩

end Classifier

end Tcam
