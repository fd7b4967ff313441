import Gonnect.Foundation.Checked
import Gonnect.Net.Addr

/-!
# The packet headers of split routing

`parseIPPacket` takes the header fields that a program can test, and notes whether the
packet is complete enough to name a flow. `flowTupleFromOutgoingIPPacket` of package
`sockowner` builds the flow that a rule matcher is asked about.
-/

namespace Gonnect.Routing

open Checked Netip

structure ParsedIPPacket where
  src : Addr
  dst : Addr
  src4 : BitVec 32
  dst4 : BitVec 32
  proto : UInt8
  total : ℕ
  srcPort : ℕ
  dstPort : ℕ
  hasPorts : Bool
  flowOK : Bool
  transportStart : ℕ
deriving DecidableEq

namespace ParsedIPPacket

/-- The last lines of `parsePorts`: whether the transport header is complete. -/
def parseFlow (pkt : List UInt8) (proto : UInt8) (start : ℕ) : Checked Bool :=
  if proto = 6 then
    if start + 20 > pkt.length then
      pure false
    else do
      let headerLen := 4 * ((← index pkt (start + 12)) >>> 4).toNat
      pure (decide (20 ≤ headerLen ∧ start + headerLen ≤ pkt.length))
  else
    pure (decide (start + 8 ≤ pkt.length))

def parsePorts (packet : ParsedIPPacket) (pkt : List UInt8) : Checked ParsedIPPacket :=
  if packet.proto ≠ 6 ∧ packet.proto ≠ 17 then
    pure packet
  else if packet.transportStart + 4 > pkt.length then
    pure packet
  else do
    let srcPort ← windowFrom pkt packet.transportStart >>= beUint16
    let dstPort ← windowFrom pkt (packet.transportStart + 2) >>= beUint16
    let flowOK ← parseFlow pkt packet.proto packet.transportStart
    pure { packet with srcPort, dstPort, hasPorts := true, flowOK }

end ParsedIPPacket

variable (pkt packet : List UInt8)

def parseIPv4Packet : Checked (Option ParsedIPPacket) :=
  if pkt.length < 20 then
    pure none
  else do
    let ihl := 4 * ((← index pkt 0) &&& 0x0f).toNat
    let total ← window pkt 2 4 >>= beUint16
    if ihl < 20 ∨ total < ihl ∨ total > pkt.length then
      pure none
    else do
      let src4 ← window pkt 12 16 >>= beUint32
      let dst4 ← window pkt 16 20 >>= beUint32
      let src ← window pkt 12 16
      let dst ← window pkt 16 20
      let proto ← index pkt 9
      let out : ParsedIPPacket :=
        { src := addrFrom4 src
          dst := addrFrom4 dst
          src4 := BitVec.ofNat 32 src4
          dst4 := BitVec.ofNat 32 dst4
          proto := proto
          total := total
          srcPort := 0
          dstPort := 0
          hasPorts := false
          flowOK := false
          transportStart := ihl }
      let flagsFrag ← window pkt 6 8 >>= beUint16
      if flagsFrag &&& 0x1fff = 0 then do
        let complete ← window pkt 0 total
        let parsed ← out.parsePorts complete
        pure (some parsed)
      else
        pure (some out)

/-- `skipIPv6ExtHeaders`: the transport protocol, where its header starts, and whether
the packet may name a flow. -/
def skipIPv6ExtHeaders (pkt : List UInt8) (proto : UInt8) (start : ℕ) :
    Checked (Option (UInt8 × ℕ × Bool)) :=
  if proto = 0 ∨ proto = 43 ∨ proto = 60 then
    if start + 2 > pkt.length then
      pure none
    else do
      let next ← index pkt start
      let hdrLen := 8 * ((← index pkt (start + 1)).toNat + 1)
      if start + hdrLen > pkt.length then
        pure none
      else
        skipIPv6ExtHeaders pkt next (start + hdrLen)
  else if proto = 44 then
    if start + 8 > pkt.length then
      pure none
    else do
      let next ← index pkt start
      let frag ← window pkt (start + 2) (start + 4) >>= beUint16
      if frag &&& 0xfff8 ≠ 0 then
        pure (some (next, start + 8, false))
      else
        skipIPv6ExtHeaders pkt next (start + 8)
  else if proto = 51 then
    if start + 2 > pkt.length then
      pure none
    else do
      let next ← index pkt start
      let hdrLen := 4 * ((← index pkt (start + 1)).toNat + 2)
      if start + hdrLen > pkt.length then
        pure none
      else
        skipIPv6ExtHeaders pkt next (start + hdrLen)
  else
    pure (some (proto, start, true))
termination_by pkt.length - start

def parseIPv6Packet : Checked (Option ParsedIPPacket) :=
  if pkt.length < 40 then
    pure none
  else do
    let payloadLen ← window pkt 4 6 >>= beUint16
    let total := 40 + payloadLen
    if total > pkt.length then
      pure none
    else do
      let src ← window pkt 8 24
      let dst ← window pkt 24 40
      let nextHeader ← index pkt 6
      let complete ← window pkt 0 total
      match ← skipIPv6ExtHeaders complete nextHeader 40 with
      | none => pure none
      | some (proto, start, flowCandidate) => do
          let out : ParsedIPPacket :=
            { src := addrFrom16 src
              dst := addrFrom16 dst
              src4 := 0
              dst4 := 0
              proto := proto
              total := total
              srcPort := 0
              dstPort := 0
              hasPorts := false
              flowOK := false
              transportStart := start }
          let parsed ← out.parsePorts complete
          pure (some (if flowCandidate then parsed else { parsed with flowOK := false }))

/-- `parseIPPacket`; a negative offset is one of the refused ones. -/
def parseIPPacket (buf : List UInt8) (offset : ℤ) : Checked (Option ParsedIPPacket) :=
  if offset < 0 ∨ offset ≥ buf.length then
    pure none
  else do
    let pkt ← windowFrom buf offset.toNat
    let version := (← index pkt 0) >>> 4
    if version = 4 then
      parseIPv4Packet pkt
    else if version = 6 then
      parseIPv6Packet pkt
    else
      pure none

inductive FlowError where
  | shortPacket
  | malformedPacket
  | nonFirstFragment
  | protocol
  | notIPPacket
deriving DecidableEq, Repr

inductive FlowProto where
  | tcp
  | udp
deriving DecidableEq, Repr

/-- `sockowner.FlowTuple`, seen from the local socket. -/
structure FlowTuple where
  proto : FlowProto
  localIP : List UInt8
  localPort : ℕ
  remoteIP : List UInt8
  remotePort : ℕ
deriving DecidableEq

inductive PacketDirection where
  | outgoing
  | incoming
deriving DecidableEq, Repr

def parseTransportPorts (payload : List UInt8) (proto : UInt8) :
    Checked (Except FlowError (ℕ × ℕ × FlowProto)) :=
  if proto = 6 then
    if payload.length < 20 then
      pure (.error .shortPacket)
    else do
      let headerLen := 4 * ((← index payload 12) >>> 4).toNat
      if headerLen < 20 then
        pure (.error .malformedPacket)
      else if payload.length < headerLen then
        pure (.error .shortPacket)
      else do
        let srcPort ← window payload 0 2 >>= beUint16
        let dstPort ← window payload 2 4 >>= beUint16
        pure (.ok (srcPort, dstPort, .tcp))
  else if proto = 17 then
    if payload.length < 8 then
      pure (.error .shortPacket)
    else do
      let srcPort ← window payload 0 2 >>= beUint16
      let dstPort ← window payload 2 4 >>= beUint16
      pure (.ok (srcPort, dstPort, .udp))
  else
    pure (.error .protocol)

def makeFlowTuple (srcIP : List UInt8) (srcPort : ℕ) (dstIP : List UInt8) (dstPort : ℕ)
    (proto : FlowProto) : PacketDirection → FlowTuple
  | .outgoing => ⟨proto, srcIP, srcPort, dstIP, dstPort⟩
  | .incoming => ⟨proto, dstIP, dstPort, srcIP, srcPort⟩

def transportFlow (srcIP dstIP payload : List UInt8) (proto : UInt8) (direction : PacketDirection) :
    Checked (Except FlowError FlowTuple) := do
  match ← parseTransportPorts payload proto with
  | .error error => pure (.error error)
  | .ok (srcPort, dstPort, protoName) =>
    pure (.ok (makeFlowTuple srcIP srcPort dstIP dstPort protoName direction))

variable (direction : PacketDirection)

def flowTupleFromIPv4Packet : Checked (Except FlowError FlowTuple) :=
  if packet.length < 20 then
    pure (.error .shortPacket)
  else do
    let ihl := 4 * ((← index packet 0) &&& 0x0f).toNat
    if ihl < 20 then
      pure (.error .malformedPacket)
    else if packet.length < ihl then
      pure (.error .shortPacket)
    else do
      let totalLen ← window packet 2 4 >>= beUint16
      if totalLen < ihl then
        pure (.error .malformedPacket)
      else if packet.length < totalLen then
        pure (.error .shortPacket)
      else do
        let packet ← window packet 0 totalLen
        let flagsFrag ← window packet 6 8 >>= beUint16
        if flagsFrag &&& 0x1fff ≠ 0 then
          pure (.error .nonFirstFragment)
        else do
          let proto ← index packet 9
          let srcIP ← window packet 12 16
          let dstIP ← window packet 16 20
          let payload ← windowFrom packet ihl
          transportFlow srcIP dstIP payload proto direction

def flowTupleLoop (packet srcIP dstIP : List UInt8) (direction : PacketDirection)
    (nextHeader : UInt8) (offset : ℕ) : Checked (Except FlowError FlowTuple) :=
  if nextHeader = 6 ∨ nextHeader = 17 then do
    let payload ← windowFrom packet offset
    transportFlow srcIP dstIP payload nextHeader direction
  else if nextHeader = 0 ∨ nextHeader = 43 ∨ nextHeader = 60 ∨ nextHeader = 135 ∨
      nextHeader = 139 ∨ nextHeader = 140 then
    if packet.length < offset + 2 then
      pure (.error .shortPacket)
    else do
      let next ← index packet offset
      let headerLen := 8 * ((← index packet (offset + 1)).toNat + 1)
      if headerLen < 8 then
        pure (.error .malformedPacket)
      else if packet.length < offset + headerLen then
        pure (.error .shortPacket)
      else
        flowTupleLoop packet srcIP dstIP direction next (offset + headerLen)
  else if nextHeader = 44 then
    if packet.length < offset + 8 then
      pure (.error .shortPacket)
    else do
      let next ← index packet offset
      let frag ← window packet (offset + 2) (offset + 4) >>= beUint16
      if frag >>> 3 ≠ 0 then
        pure (.error .nonFirstFragment)
      else
        flowTupleLoop packet srcIP dstIP direction next (offset + 8)
  else if nextHeader = 51 then
    if packet.length < offset + 2 then
      pure (.error .shortPacket)
    else do
      let next ← index packet offset
      let headerLen := 4 * ((← index packet (offset + 1)).toNat + 2)
      if headerLen < 8 then
        pure (.error .malformedPacket)
      else if packet.length < offset + headerLen then
        pure (.error .shortPacket)
      else
        flowTupleLoop packet srcIP dstIP direction next (offset + headerLen)
  else
    pure (.error .protocol)
termination_by packet.length - offset

def flowTupleFromIPv6Packet : Checked (Except FlowError FlowTuple) :=
  if packet.length < 40 then
    pure (.error .shortPacket)
  else do
    let payloadLen ← window packet 4 6 >>= beUint16
    if payloadLen = 0 then
      pure (.error .malformedPacket)
    else if packet.length < 40 + payloadLen then
      pure (.error .shortPacket)
    else do
      let packet ← window packet 0 (40 + payloadLen)
      let nextHeader ← index packet 6
      let srcIP ← window packet 8 24
      let dstIP ← window packet 24 40
      flowTupleLoop packet srcIP dstIP direction nextHeader 40

def flowTupleFromIPPacket : Checked (Except FlowError FlowTuple) :=
  if packet.length < 1 then
    pure (.error .shortPacket)
  else do
    let version := (← index packet 0) >>> 4
    if version = 4 then
      flowTupleFromIPv4Packet packet direction
    else if version = 6 then
      flowTupleFromIPv6Packet packet direction
    else
      pure (.error .notIPPacket)

def flowTupleFromOutgoingIPPacket : Checked (Except FlowError FlowTuple) :=
  flowTupleFromIPPacket packet .outgoing

end Gonnect.Routing
