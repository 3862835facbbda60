import Tcam.Command
import Tcam.Entry
import Tcam.Slot.Registers

/-!
# The pages of a slot

Where the numbers of an entry lie in the registers of the three pages.

```
key page     0  frame type mask [15:14]  time key mask [13]  sentinel [7:0]
             1  frame type [15:14]       time key [13]       source port mask [10:0]
             2  priority mask [14:12]    VLAN id mask [11:0]
             3                                               source ports [10:0]
             4  priority [14:12]         VLAN id [11:0]
             5..26  window octets 0..21    mask [15:8] value [7:0]
window page  0..25  window octets 22..47   mask [15:8] value [7:0]
action page  0..7   action fields and the continuation reference
```

Bits without a meaning are reserved.  The layouts list the numbers in the order
in which they are checked; the order of packing makes no difference, because no
two places overlap.
-/

namespace Tcam

open Registers (field)

def KeyMatch.layout : Layout KeyMatch :=
  [⟨"frame type", field 1 14 2, 8, fun k => k.value.frameType,
      fun v k => { k with value := { k.value with frameType := v } }⟩,
   ⟨"frame type mask", field 0 14 2, 8, fun k => k.mask.frameType,
      fun v k => { k with mask := { k.mask with frameType := v } }⟩,
   ⟨"time key", field 1 13 1, 8, fun k => k.value.timeKey,
      fun v k => { k with value := { k.value with timeKey := v } }⟩,
   ⟨"time key mask", field 0 13 1, 8, fun k => k.mask.timeKey,
      fun v k => { k with mask := { k.mask with timeKey := v } }⟩,
   ⟨"source port vector", field 3 0 11, 16, fun k => k.value.sourcePorts.bits,
      fun v k => { k with value := { k.value with sourcePorts := ⟨v⟩ } }⟩,
   ⟨"source port vector mask", field 1 0 11, 16, fun k => k.mask.sourcePorts.bits,
      fun v k => { k with mask := { k.mask with sourcePorts := ⟨v⟩ } }⟩,
   ⟨"VLAN priority", field 4 12 3, 8, fun k => k.value.priority,
      fun v k => { k with value := { k.value with priority := v } }⟩,
   ⟨"VLAN priority mask", field 2 12 3, 8, fun k => k.mask.priority,
      fun v k => { k with mask := { k.mask with priority := v } }⟩,
   ⟨"VLAN id", field 4 0 12, 16, fun k => k.value.vlanId,
      fun v k => { k with value := { k.value with vlanId := v } }⟩,
   ⟨"VLAN id mask", field 2 0 12, 16, fun k => k.mask.vlanId,
      fun v k => { k with mask := { k.mask with vlanId := v } }⟩]

def Action.layout : Layout Action :=
  [.flag "interrupt" (field 0 15 1) (fun a => a.interrupt)
      fun v a => { a with interrupt := v },
   .flag "counter increment" (field 0 14 1) (fun a => a.incrementCounter)
      fun v a => { a with incrementCounter := v },
   .flag "VID override" (field 0 12 1) (fun a => a.vidOverride)
      fun v a => { a with vidOverride := v },
   ⟨"VID", field 0 0 12, 16, fun a => a.vid, fun v a => { a with vid := v }⟩,
   .flag "queue priority override" (field 1 7 1) (fun a => a.queuePriorityOverride)
      fun v a => { a with queuePriorityOverride := v },
   ⟨"queue priority", field 1 4 3, 8, fun a => a.queuePriority,
      fun v a => { a with queuePriority := v }⟩,
   .flag "frame priority override" (field 1 3 1) (fun a => a.framePriorityOverride)
      fun v a => { a with framePriorityOverride := v },
   ⟨"frame priority", field 1 0 3, 8, fun a => a.framePriority,
      fun v a => { a with framePriority := v }⟩,
   ⟨"forward mode", field 2 14 2, 2, fun a => a.forwardMode.bits,
      fun v a => { a with forwardMode := .ofBits v }⟩,
   ⟨"destination port vector", field 2 0 11, 16, fun a => a.destinationPorts.bits,
      fun v a => { a with destinationPorts := ⟨v⟩ }⟩,
   ⟨"color mode", field 3 12 2, 8, fun a => a.colorMode, fun v a => { a with colorMode := v }⟩,
   .flag "VTU page override" (field 3 11 1) (fun a => a.vtuPageOverride)
      fun v a => { a with vtuPageOverride := v },
   .flag "VTU page" (field 3 10 1) (fun a => a.vtuPage)
      fun v a => { a with vtuPage := v },
   ⟨"unknown filter", field 3 8 2, 8, fun a => a.unknownFilter,
      fun v a => { a with unknownFilter := v }⟩,
   ⟨"egress action pointer", field 3 0 6, 8, fun a => a.egressActionPointer,
      fun v a => { a with egressActionPointer := v }⟩,
   .flag "load balance override" (field 4 15 1) (fun a => a.loadBalanceOverride)
      fun v a => { a with loadBalanceOverride := v },
   ⟨"load balance", field 4 12 3, 8, fun a => a.loadBalance,
      fun v a => { a with loadBalance := v }⟩,
   .flag "DSCP override" (field 4 6 1) (fun a => a.dscpOverride)
      fun v a => { a with dscpOverride := v },
   ⟨"DSCP", field 4 0 6, 8, fun a => a.dscp, fun v a => { a with dscp := v }⟩,
   .flag "frame action override" (field 5 15 1) (fun a => a.frameActionOverride)
      fun v a => { a with frameActionOverride := v },
   ⟨"frame action", field 5 0 15, 16, fun a => a.frameAction,
      fun v a => { a with frameAction := v }⟩,
   ⟨"TCAM counter", field 6 0 2, 8, fun a => a.counterBank,
      fun v a => { a with counterBank := v }⟩,
   .flag "flow meter enable" (field 6 15 1) (fun a => a.flowMeterEnable)
      fun v a => { a with flowMeterEnable := v },
   ⟨"flow meter id", field 6 8 6, 8, fun a => a.flowMeterId,
      fun v a => { a with flowMeterId := v }⟩,
   .flag "stream filter enable" (field 7 15 1) (fun a => a.streamFilterEnable)
      fun v a => { a with streamFilterEnable := v },
   ⟨"stream filter id", field 7 0 8, 8, fun a => a.streamFilterId,
      fun v a => { a with streamFilterId := v }⟩]

/-- The places of the continuation reference among the action fields. -/
def ActionFields.referenceLayout : Layout ActionFields :=
  [.flag "continue" (field 0 13 1) (fun f => f.continueNext)
      fun v f => { f with continueNext := v },
   ⟨"next slot", field 1 8 8, 8, fun f => f.nextId, fun v f => { f with nextId := v }⟩]

/-- The places of `count` window octets from octet `start` on, one register
each from register `base` on. -/
def FrameWindow.octetLayout (start count base : Nat) : Layout FrameWindow :=
  (List.range count).flatMap fun i =>
    [⟨"window value", field (base + i) 0 8, 8, fun w => w.valueOctet (start + i),
        fun v w => { w with value := (octetField (start + i)).set w.value v }⟩,
     ⟨"window mask", field (base + i) 8 8, 8, fun w => w.maskOctet (start + i),
        fun v w => { w with mask := (octetField (start + i)).set w.mask v }⟩]

/-- The window octets in the key page. -/
def FrameWindow.keyPageLayout : Layout FrameWindow :=
  octetLayout 0 keyPageOctets 5

/-- The window octets in the window page. -/
def FrameWindow.windowPageLayout : Layout FrameWindow :=
  octetLayout keyPageOctets (windowOctets - keyPageOctets) 0

end Tcam
