import Gonnect.Foundation.Checked
import Gonnect.Foundation.BigEndian

/-!
# Packets as the joiner reads them

The joiner takes the addresses, the fragment and the transport header out of a packet.
From these it makes the key of the flow that an incoming packet belongs to and, for an
outgoing packet, the key of the flow that its replies will belong to.
-/

namespace Gonnect.Tun

open Checked List

def joinerProtocolICMPv4 : UInt8 := 1

def joinerProtocolTCP : UInt8 := 6

def joinerProtocolUDP : UInt8 := 17

def joinerProtocolICMPv6 : UInt8 := 58

structure FlowKey where
  source : List UInt8 := replicate 16 0
  destination : List UInt8 := replicate 16 0
  sourcePort : ℕ := 0
  destPort : ℕ := 0
  identifier : ℕ := 0
  version : UInt8 := 0
  protocol : UInt8 := 0
  subtype : UInt8 := 0
deriving DecidableEq

instance : Inhabited FlowKey := ⟨{}⟩

structure FragmentKey where
  source : List UInt8
  destination : List UInt8
  id : ℕ
  version : UInt8
  protocol : UInt8
deriving DecidableEq

/-- `joinerPacket`; its `transportOffset` is never negative. -/
structure JoinerPacket where
  data : List UInt8 := []
  source : List UInt8 := replicate 16 0
  destination : List UInt8 := replicate 16 0
  fragmentID : ℕ := 0
  transportOffset : ℕ := 0
  version : UInt8 := 0
  protocol : UInt8 := 0
  fragmentProtocol : UInt8 := 0
  fragmentOffset : ℕ := 0
  moreFragments : Bool := false
  fragmented : Bool := false
deriving DecidableEq

variable (data : List UInt8) (packet : JoinerPacket)

def bytesAt (low high : ℕ) : List UInt8 :=
  (data.drop low).take (high - low)

def parseJoinerIPv4Packet : Option JoinerPacket :=
  if data.length < 20 then
    none
  else
    let headerLength := (byteAt data 0 &&& 0x0f).toNat * 4
    if headerLength < 20 ∨ headerLength > data.length then
      none
    else
      let totalLength := wordAt data 2
      if totalLength ≠ 0 ∧ totalLength < headerLength then
        none
      else
        let data :=
          if totalLength ≥ headerLength ∧ totalLength < data.length then data.take totalLength
          else data
        let fragment := wordAt data 6
        let fragmentOffset := fragment % 0x2000
        let moreFragments := fragment / 0x2000 % 2 ≠ 0
        some {
          data := data
          fragmentID := wordAt data 4
          transportOffset := headerLength
          version := 4
          protocol := byteAt data 9
          fragmentProtocol := byteAt data 9
          source := bytesAt data 12 16 ++ replicate 12 0
          destination := bytesAt data 16 20 ++ replicate 12 0
          fragmentOffset := fragmentOffset
          moreFragments := moreFragments
          fragmented := fragmentOffset ≠ 0 ∨ moreFragments }

/-- The loop of `parseJoinerIPv6Packet` over the extension headers, for a number of turns. -/
def parseJoinerIPv6Headers (data : List UInt8) :
    ℕ → UInt8 → JoinerPacket → Option JoinerPacket
  | 0, _, _ => none
  | turns + 1, nextHeader, packet =>
    let start := packet.transportOffset
    if nextHeader = 0 ∨ nextHeader = 43 ∨ nextHeader = 60 then
      if start + 2 > data.length then
        none
      else
        let headerLength := ((byteAt data (start + 1)).toNat + 1) * 8
        if start + headerLength > data.length then
          none
        else
          parseJoinerIPv6Headers data turns (byteAt data start)
            { packet with transportOffset := start + headerLength }
    else if nextHeader = 44 then
      if start + 8 > data.length then
        none
      else
        let fragmentNext := byteAt data start
        let fragment := wordAt data (start + 2)
        let packet := { packet with
          fragmented := true
          fragmentProtocol := fragmentNext
          fragmentOffset := fragment / 8
          moreFragments := fragment % 2 ≠ 0
          fragmentID := 65536 * wordAt data (start + 4) + wordAt data (start + 6)
          transportOffset := start + 8 }
        if packet.fragmentOffset ≠ 0 then
          some { packet with protocol := fragmentNext }
        else
          parseJoinerIPv6Headers data turns fragmentNext packet
    else if nextHeader = 51 then
      if start + 2 > data.length then
        none
      else
        let headerLength := ((byteAt data (start + 1)).toNat + 2) * 4
        if start + headerLength > data.length then
          none
        else
          parseJoinerIPv6Headers data turns (byteAt data start)
            { packet with transportOffset := start + headerLength }
    else
      some { packet with
        protocol := nextHeader
        fragmentProtocol := if packet.fragmented then packet.fragmentProtocol else nextHeader }

def parseJoinerIPv6Packet : Option JoinerPacket :=
  if data.length < 40 then
    none
  else
    let payloadLength := wordAt data 4
    let data :=
      if payloadLength ≠ 0 ∧ 40 + payloadLength < data.length then data.take (40 + payloadLength)
      else data
    parseJoinerIPv6Headers data 16 (byteAt data 6) {
      data := data
      transportOffset := 40
      version := 6
      source := bytesAt data 8 24
      destination := bytesAt data 24 40 }

def parseJoinerPacket (buf : List UInt8) (offset : ℕ) : Option JoinerPacket :=
  if offset ≥ buf.length then
    none
  else
    let data := buf.drop offset
    if byteAt data 0 >>> 4 = 4 then
      parseJoinerIPv4Packet data
    else if byteAt data 0 >>> 4 = 6 then
      parseJoinerIPv6Packet data
    else
      none

def joinerICMPEchoPeerType (protocol typeValue : UInt8) : Option UInt8 :=
  if protocol = joinerProtocolICMPv4 ∧ typeValue = 8 then some 0
  else if protocol = joinerProtocolICMPv4 ∧ typeValue = 0 then some 8
  else if protocol = joinerProtocolICMPv6 ∧ typeValue = 128 then some 129
  else if protocol = joinerProtocolICMPv6 ∧ typeValue = 129 then some 128
  else none

def joinerICMPErrorType (protocol typeValue : UInt8) : Bool :=
  if protocol = joinerProtocolICMPv6 then
    typeValue < 128
  else if protocol ≠ joinerProtocolICMPv4 then
    false
  else
    typeValue ∈ [3, 4, 5, 11, 12]

namespace JoinerPacket

def joinerFragmentKey (packet : JoinerPacket) : FragmentKey where
  source := packet.source
  destination := packet.destination
  id := packet.fragmentID
  version := packet.version
  protocol := packet.fragmentProtocol

end JoinerPacket

def joinerDirectFlowKey : Option FlowKey :=
  let start := packet.transportOffset
  let key : FlowKey := {
    source := packet.source
    destination := packet.destination
    version := packet.version
    protocol := packet.protocol }
  if packet.fragmentOffset ≠ 0 then
    none
  else if packet.protocol = joinerProtocolTCP ∨ packet.protocol = joinerProtocolUDP then
    if start + 4 > packet.data.length then
      none
    else
      some { key with
        sourcePort := wordAt packet.data start
        destPort := wordAt packet.data (start + 2) }
  else if packet.protocol = joinerProtocolICMPv4 ∨ packet.protocol = joinerProtocolICMPv6 then
    if start + 8 > packet.data.length then
      none
    else
      let typeValue := byteAt packet.data start
      if (joinerICMPEchoPeerType packet.protocol typeValue).isNone then
        none
      else
        some { key with
          subtype := typeValue
          identifier := wordAt packet.data (start + 4) }
  else
    none

namespace FlowKey

/-- The key of the packets in the other direction, as `joinerReverseFlowKey` makes it. -/
def reverse (key : FlowKey) : FlowKey :=
  { key with
    source := key.destination
    destination := key.source
    sourcePort := key.destPort
    destPort := key.sourcePort
    subtype := (joinerICMPEchoPeerType key.protocol key.subtype).getD key.subtype }

end FlowKey

def joinerReverseFlowKey : Option FlowKey :=
  (joinerDirectFlowKey packet).map FlowKey.reverse

def joinerInboundFlowKey : Option FlowKey :=
  match joinerDirectFlowKey packet with
  | some key => some key
  | none =>
    let start := packet.transportOffset
    if packet.protocol ≠ joinerProtocolICMPv4 ∧ packet.protocol ≠ joinerProtocolICMPv6 then
      none
    else if start + 8 > packet.data.length then
      none
    else if ¬joinerICMPErrorType packet.protocol (byteAt packet.data start) then
      none
    else
      match parseJoinerPacket (packet.data.drop (start + 8)) 0 with
      | none => none
      | some quoted => joinerReverseFlowKey quoted

end Gonnect.Tun
