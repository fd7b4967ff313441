import Gonnect.Routing.SplitRouting

/-!
# The backend loop of the splitter

A splitter reads batches of packets from its backend into buffers that it uses again for every
read. It checks the reported sizes against the buffers, asks the router for a frontend of each
packet, and hands the packets over.

The router is given the whole buffer, and takes the end of a packet from the IP header. So a
packet whose header promises more bytes than were read is routed by bytes that an earlier
packet has left in the buffer.
-/

namespace Gonnect.Routing

open Checked List

/-- The length field of the IP header promises no more bytes than there are. -/
structure WholeIPPacket (data : List UInt8) : Prop where
  nonempty : 0 < data.length
  ipv4 : byteAt data 0 >>> 4 = 4 → 20 ≤ data.length ∧ wordAt data 2 ≤ data.length
  ipv6 : byteAt data 0 >>> 4 = 6 → 40 ≤ data.length ∧ 40 + wordAt data 4 ≤ data.length

section Prefixes

variable {pkt : List UInt8} {size : ℕ}

theorem parseIPv4Packet_take (present : size ≤ pkt.length) (header : 20 ≤ size)
    (promised : wordAt pkt 2 ≤ size) : parseIPv4Packet (pkt.take size) = parseIPv4Packet pkt := by
  have length : (pkt.take size).length = size := by simp [present]
  have total : (window pkt 2 4 >>= beUint16) = .ok (wordAt pkt 2) :=
    window_uint16 rfl (by omega)
  have beyond : ¬wordAt pkt 2 > size ∧ ¬wordAt pkt 2 > pkt.length := by omega
  simp (disch := omega) only [parseIPv4Packet, length, if_neg, index_take, window_take, total,
    ok_bind, beyond]

theorem parseIPv6Packet_take (present : size ≤ pkt.length) (header : 40 ≤ size)
    (promised : 40 + wordAt pkt 4 ≤ size) :
    parseIPv6Packet (pkt.take size) = parseIPv6Packet pkt := by
  have length : (pkt.take size).length = size := by simp [present]
  have payload : (window pkt 4 6 >>= beUint16) = .ok (wordAt pkt 4) :=
    window_uint16 rfl (by omega)
  simp (disch := omega) only [parseIPv6Packet, length, if_neg, index_take, window_take, payload,
    ok_bind]

end Prefixes

def ownBytes (buf : List UInt8) (offset size : ℕ) : List UInt8 :=
  (buf.drop offset).take size

variable {buf : List UInt8} {offset size : ℕ}

theorem length_ownBytes (inside : offset + size ≤ buf.length) :
    (ownBytes buf offset size).length = size := by
  simp only [ownBytes, length_take, length_drop]
  omega

theorem parseIPPacket_ownBytes (inside : offset + size ≤ buf.length)
    (whole : WholeIPPacket (ownBytes buf offset size)) :
    parseIPPacket buf offset = parseIPPacket (ownBytes buf offset size) 0 := by
  have length := length_ownBytes inside
  have nonempty : 0 < size := length ▸ whole.nonempty
  have present : size ≤ (buf.drop offset).length := by
    rw [length_drop]
    omega
  have version : byteAt (ownBytes buf offset size) 0 = byteAt (buf.drop offset) 0 :=
    byteAt_take nonempty
  have refused : ¬((offset : ℤ) < 0 ∨ (offset : ℤ) ≥ buf.length) := by omega
  have refusedOwn : ¬((0 : ℤ) < 0 ∨ (0 : ℤ) ≥ (ownBytes buf offset size).length) := by omega
  simp (disch := omega) only [parseIPPacket, if_neg refused, if_neg refusedOwn, Int.toNat_natCast,
    Int.toNat_zero, windowFrom_eq_ok, drop_zero, ok_bind, index_eq_byteAt,
    index_eq_byteAt whole.nonempty, version]
  split_ifs with four six
  · rcases whole.ipv4 (version ▸ four) with ⟨header, promised⟩
    have total : wordAt (ownBytes buf offset size) 2 = wordAt (buf.drop offset) 2 :=
      wordAt_take (by omega)
    exact (parseIPv4Packet_take present (by omega) (by omega)).symm
  · rcases whole.ipv6 (version ▸ six) with ⟨header, promised⟩
    have payload : wordAt (ownBytes buf offset size) 4 = wordAt (buf.drop offset) 4 :=
      wordAt_take (by omega)
    exact (parseIPv6Packet_take present (by omega) (by omega)).symm
  · rfl

theorem SplitRouter.route_ownBytes (router : SplitRouter) (world : SplitWorld)
    (inside : offset + size ≤ buf.length) (whole : WholeIPPacket (ownBytes buf offset size))
    (native : Bool) (names : Option (Netip.Addr → List Text)) :
    router.route world ⟨buf, offset, native, names⟩ =
      router.route world ⟨ownBytes buf offset size, 0, native, names⟩ := by
  have parsedAlike := parseIPPacket_ownBytes inside whole
  rcases parseIPPacket_spec (ownBytes buf offset size) 0 with ⟨result, parsed, wellParsed⟩
  cases result with
  | none => simp only [route, parsedAlike, parsed, Stateful.lift_ok_bind]
  | some packet =>
    have fits : packet.total ≤ size := by
      have bounded := (wellParsed packet rfl).inside
      rw [length_ownBytes inside] at bounded
      omega
    have windowed : window buf offset (offset + packet.total) =
        window (ownBytes buf offset size) 0 packet.total := by
      rw [window_eq_ok (Nat.le_add_right _ _) (by omega),
        window_eq_ok (Nat.zero_le _) (by rwa [length_ownBytes inside])]
      simp [ownBytes, take_take, min_eq_left fits, drop_take]
    simp [route, parsedAlike, parsed, Stateful.lift_ok_bind, windowed]

end Gonnect.Routing

namespace Gonnect.Tun

open Checked Routing Netip

def splitterFrontendCount : ℕ := 16

def splitterMaxPacket : ℕ := 64 <<< 10

inductive ReadSizeError where
  | invalidReadCount
  | invalidOffset
  | invalidPacketSize
  | shortBuffer
deriving DecidableEq, Repr

def validatePacketSize (offset : ℤ) (buf : List UInt8) (size : ℤ) : Except ReadSizeError Unit :=
  if size < 0 then
    .error .invalidPacketSize
  else if offset > buf.length ∨ size > buf.length - offset then
    .error .shortBuffer
  else
    .ok ()

def validateReadPacketSizes (bufs : List (List UInt8)) (sizes : List ℤ) (offset count : ℤ) :
    Except ReadSizeError Unit :=
  if count < 0 ∨ count > bufs.length ∨ count > sizes.length then
    .error .invalidReadCount
  else if offset < 0 then
    .error .invalidOffset
  else
    (List.range count.toNat).forM fun i =>
      validatePacketSize offset (bufs.getD i []) (sizes.getD i 0)

/-- What a read of the backend leaves in the buffers, and what the rest of the splitter
looks like while the batch is handled. -/
structure BackendBatch where
  bufs : List (List UInt8)
  sizes : List ℤ
  count : ℤ
  native : Bool
  /-- The names that a DNS cache has when a packet is routed. -/
  names : ℕ → Option (Addr → List Text)
  /-- Whether the backend is the active one, for the router and for the delivery. -/
  activeForRoute : Bool
  activeForDelivery : Bool
  acceptsReads : ℕ → Bool

inductive BackendRead where
  | batch (batch : BackendBatch)
  /-- `ErrDetachedTunDown`, or an error that does not end the loop. -/
  | failed
  | terminal

def readLen (offset : ℕ) : ℕ :=
  offset + splitterMaxPacket

def routeBatch (router : Option SplitRouter) (world : SplitWorld) (offset : ℤ)
    (batch : BackendBatch) : Stateful SplitState (List ℕ) :=
  if !batch.activeForRoute then
    pure []
  else
    match router with
    | none => pure (List.replicate batch.count.toNat 1)
    | some router =>
      (List.range batch.count.toNat).mapM fun i => do
        let buf ← StateT.lift (index batch.bufs i)
        router.route world ⟨buf, offset, batch.native, batch.names i⟩

/-- `frontendForRoute`: the number of the frontend, or nothing for a dropped packet. -/
def frontendForRoute (acceptsReads : ℕ → Bool) (target : ℕ) : Option ℕ :=
  if target < 1 ∨ target > splitterFrontendCount then
    none
  else if acceptsReads target then
    some target
  else
    none

/-- `deliverBatch`: the frontend that each packet is delivered to. -/
def deliverBatch (batch : BackendBatch) (targets : List ℕ) : List (Option ℕ) :=
  if !batch.activeForDelivery then
    targets.map fun _ => none
  else
    match targets with
    | [] => []
    | first :: rest =>
      -- One delivery for the whole batch if all packets have the same target.
      if rest.all (· == first) then
        List.replicate targets.length (frontendForRoute batch.acceptsReads first)
      else
        targets.map (frontendForRoute batch.acceptsReads)

/-- `readBackend`: the frontends that are chosen for the packets of each batch. -/
def readBackend (router : Option SplitRouter) (world : SplitWorld) (offset : ℤ) :
    List BackendRead → Stateful SplitState (List (List (Option ℕ)))
  | [] => pure []
  | .terminal :: _ => pure []
  | .failed :: reads => readBackend router world offset reads
  | .batch batch :: reads =>
    match validateReadPacketSizes batch.bufs batch.sizes offset batch.count with
    | .error _ => readBackend router world offset reads
    | .ok () => do
        let targets ← routeBatch router world offset batch
        if targets.isEmpty then
          readBackend router world offset reads
        else do
          let later ← readBackend router world offset reads
          pure (deliverBatch batch targets :: later)

theorem forM_range_ok {test : ℕ → Except ReadSizeError Unit} {count : ℕ}
    (passed : (List.range count).forM test = .ok ()) : ∀ i < count, test i = .ok () := by
  have walked : ∀ indices : List ℕ, indices.forM test = .ok () →
      ∀ i ∈ indices, test i = .ok () := by
    intro indices passed
    induction indices with
    | nil => simp
    | cons first rest ih =>
      rcases of_bind passed with ⟨_, head, tail⟩
      exact List.forall_mem_cons.mpr ⟨head, ih tail⟩
  intro i small
  exact walked _ passed i (List.mem_range.mpr small)

/-- What the check establishes: the packets lie in their buffers. -/
structure BackendBatch.Checked (batch : BackendBatch) (offset : ℤ) : Prop where
  forward : 0 ≤ offset
  buffers : batch.count.toNat ≤ batch.bufs.length
  inside : ∀ i < batch.count.toNat,
    offset.toNat + (batch.sizes.getD i 0).toNat ≤ (batch.bufs.getD i []).length

theorem BackendBatch.checked_of_validate {batch : BackendBatch} {offset : ℤ}
    (valid : validateReadPacketSizes batch.bufs batch.sizes offset batch.count = .ok ()) :
    batch.Checked offset := by
  unfold validateReadPacketSizes at valid
  by_cases counted : batch.count < 0 ∨ batch.count > batch.bufs.length ∨
      batch.count > batch.sizes.length
  · rw [if_pos counted] at valid
    cases valid
  rw [if_neg counted] at valid
  by_cases negative : offset < 0
  · rw [if_pos negative] at valid
    cases valid
  rw [if_neg negative] at valid
  refine ⟨by omega, by omega, ?_⟩
  intro i small
  have passed := forM_range_ok valid i small
  unfold validatePacketSize at passed
  split_ifs at passed with negativeSize short
  omega

namespace BackendBatch

def packet (batch : BackendBatch) (offset : ℤ) (i : ℕ) : List UInt8 :=
  ownBytes (batch.bufs.getD i []) offset.toNat (batch.sizes.getD i 0).toNat

def Whole (batch : BackendBatch) (offset : ℤ) : Prop :=
  ∀ i < batch.count.toNat, WholeIPPacket (batch.packet offset i)

/-- The same packets, in buffers of the same lengths that may differ elsewhere. -/
structure SamePackets (offset : ℤ) (batch other : BackendBatch) : Prop where
  packets : ∀ i < batch.count.toNat, batch.packet offset i = other.packet offset i
  lengths : batch.bufs.map List.length = other.bufs.map List.length
  elsewhere : other = { batch with bufs := other.bufs }

variable {batch other : BackendBatch} {offset : ℤ}

section

variable (checked : batch.Checked offset) {i : ℕ} (small : i < batch.count.toNat)

include checked small

theorem index_bufs : index batch.bufs i = .ok (batch.bufs.getD i []) := by
  have inside := lt_of_lt_of_le small checked.buffers
  simp [index_eq_ok inside, inside]

theorem parse_packet (whole : batch.Whole offset) :
    parseIPPacket (batch.bufs.getD i []) offset = parseIPPacket (batch.packet offset i) 0 := by
  have parsed := parseIPPacket_ownBytes (checked.inside i small) (whole i small)
  rwa [Int.toNat_of_nonneg checked.forward] at parsed

theorem route_packet (whole : batch.Whole offset) (router : SplitRouter) (world : SplitWorld) :
    router.route world ⟨batch.bufs.getD i [], offset, batch.native, batch.names i⟩ =
      router.route world ⟨batch.packet offset i, 0, batch.native, batch.names i⟩ := by
  have routed := router.route_ownBytes world (checked.inside i small) (whole i small)
    batch.native (batch.names i)
  rwa [Int.toNat_of_nonneg checked.forward] at routed

end

theorem SamePackets.validate (same : SamePackets offset batch other) :
    validateReadPacketSizes other.bufs batch.sizes offset batch.count =
      validateReadPacketSizes batch.bufs batch.sizes offset batch.count := by
  have length : other.bufs.length = batch.bufs.length := by
    simpa using (congrArg List.length same.lengths).symm
  have lengths : ∀ i, (other.bufs.getD i []).length = (batch.bufs.getD i []).length := by
    intro i
    have mapped := congrArg (List.getD · i (List.length ([] : List UInt8))) same.lengths
    simpa only [List.getD_map] using mapped.symm
  simp only [validateReadPacketSizes, validatePacketSize, length, lengths]

theorem SamePackets.routeBatch_eq (same : SamePackets offset batch other)
    (checked : batch.Checked offset) (otherChecked : other.Checked offset)
    (whole : batch.Whole offset) (router : Option SplitRouter) (world : SplitWorld) :
    routeBatch router world offset other = routeBatch router world offset batch := by
  rcases batch with ⟨bufs, sizes, count, native, names, activeForRoute, activeForDelivery, accepts⟩
  rcases other with ⟨otherBufs, _, _, _, _, _, _, _⟩
  cases same.elsewhere
  have otherWhole : BackendBatch.Whole
      ⟨otherBufs, sizes, count, native, names, activeForRoute, activeForDelivery, accepts⟩
      offset := fun i small => same.packets i small ▸ whole i small
  unfold routeBatch
  split
  · rfl
  split
  · rfl
  apply Stateful.mapM_congr
  intro i member
  have small := List.mem_range.mp member
  have buffer := index_bufs checked small
  have otherBuffer := index_bufs otherChecked small
  have routed := route_packet checked small whole
  have otherRouted := route_packet otherChecked small otherWhole
  dsimp only at buffer otherBuffer routed otherRouted small
  rw [buffer, otherBuffer, Stateful.lift_ok_bind, Stateful.lift_ok_bind, routed,
    otherRouted, same.packets i small]

end BackendBatch

/-- Two reads with the same result, up to what the buffers hold besides the packets. -/
inductive BackendRead.SamePackets (offset : ℤ) : BackendRead → BackendRead → Prop
  | batch {batch other : BackendBatch} (same : BackendBatch.SamePackets offset batch other) :
      SamePackets offset (.batch batch) (.batch other)
  | failed : SamePackets offset .failed .failed
  | terminal : SamePackets offset .terminal .terminal

open BackendBatch

/-- In a run whose packets all carry the bytes that their headers promise, the parser
sees the own bytes of each packet, and the chosen frontends do not depend on what else
is in the buffers. -/
theorem readBackend_eq_of_samePackets (router : Option SplitRouter) (world : SplitWorld)
    (offset : ℤ) {reads others : List BackendRead}
    (whole : ∀ batch, .batch batch ∈ reads → batch.Whole offset) :
    (∀ batch, .batch batch ∈ reads →
      validateReadPacketSizes batch.bufs batch.sizes offset batch.count = .ok () →
        ∀ i < batch.count.toNat, parseIPPacket (batch.bufs.getD i []) offset =
          parseIPPacket (batch.packet offset i) 0) ∧
    (List.Forall₂ (BackendRead.SamePackets offset) reads others →
      readBackend router world offset others = readBackend router world offset reads) := by
  constructor
  · intro batch member valid i small
    exact parse_packet (checked_of_validate valid) small (whole batch member)
  · intro same
    induction same with
    | nil => rfl
    | cons first rest ih =>
      have later := ih fun batch member => whole batch (List.mem_cons_of_mem _ member)
      cases first with
      | failed => exact later
      | terminal => rfl
      | @batch batch other sameBatch =>
        have wholeBatch := whole batch List.mem_cons_self
        have sizes : other.sizes = batch.sizes := by rw [sameBatch.elsewhere]
        have count : other.count = batch.count := by rw [sameBatch.elsewhere]
        have validated := sameBatch.validate
        rw [readBackend, readBackend, sizes, count, validated, later]
        split
        · rfl
        · rename_i valid
          have checked := checked_of_validate valid
          have otherChecked : other.Checked offset := by
            apply checked_of_validate
            rw [sizes, count, validated, valid]
          have delivered : deliverBatch other = deliverBatch batch := by
            funext targets
            rw [sameBatch.elsewhere]
            rfl
          rw [sameBatch.routeBatch_eq checked otherChecked wholeBatch router world, delivered]

def portRules : SplitBytecodeRules Unit where
  system := some fun _ => .ok none
  rules := []
  ruleCacheTTL := 0
  ruleCacheMaxEntries := 0
  routeCacheTTL := 0
  routeCacheMaxEntries := 0
  tables := ⟨[], [], [], [], [], []⟩
  route := [Op.port.toByte, 53, 0, Op.slot.toByte, 2, Op.pushTrue.toByte, Op.slot.toByte, 1]

theorem portRules_built :
    ∃ router state, newBytecodeSplitRouter portRules = .ok (.ok (router, state)) := by
  have accepted : (newBytecodeSplitRouter portRules).toOption.any fun built =>
      built.toOption.any fun _ => true := by decide +kernel
  rcases exists_built accepted with ⟨router, state, built, _⟩
  exact ⟨router, state, built⟩

def portWorld : SplitWorld where
  clock reading := reading
  ruleOrder _ := default
  routeOrder _ := default
  addrString _ := []

variable (port : UInt8)

def portPacket : List UInt8 :=
  [0x45, 0, 0, 28, 0, 0, 0, 0, 64, 17, 0, 0, 10, 0, 0, 1, 10, 0, 0, 2,
    0x12, 0x34, 0, port, 0, 8, 0, 0]

/-- A buffer that starts with the packet, of which the backend reports some bytes. -/
def portBatch (rest : List UInt8) (size : ℤ) : BackendBatch where
  bufs := [portPacket port ++ rest]
  sizes := [size]
  count := 1
  native := false
  names _ := none
  activeForRoute := true
  activeForDelivery := true
  acceptsReads _ := true

theorem length_portPacket : (portPacket port).length = 28 :=
  rfl

theorem wholeIPPacket_portPacket : WholeIPPacket (portPacket port) where
  nonempty := by simp [portPacket]
  ipv4 _ := ⟨by simp [portPacket], by simp [wordAt, byteAt, portPacket]⟩
  ipv6 six := absurd six (by simp only [byteAt, portPacket, List.getD_cons_zero]; decide)

theorem ownBytes_portPacket (rest : List UInt8) {size : ℕ} (small : size ≤ 28) :
    ownBytes (portPacket port ++ rest) 0 size = (portPacket port).take size := by
  rw [ownBytes, List.drop_zero, List.take_append_of_le_length (by rwa [length_portPacket])]

theorem readBackend_portBatch (router : SplitRouter) (world : SplitWorld) (port : UInt8)
    (rest : List UInt8) {size : ℤ} (nonneg : 0 ≤ size) (small : size ≤ 28)
    (reads : List BackendRead) :
    readBackend (some router) world 0 (.batch (portBatch port rest size) :: reads) = (do
      let target ← router.route world ⟨portPacket port, 0, false, none⟩
      let later ← readBackend (some router) world 0 reads
      pure ([frontendForRoute (fun _ => true) target] :: later)) := by
  have length : (portPacket port ++ rest).length = 28 + rest.length := by
    rw [List.length_append, length_portPacket]
  have valid : validateReadPacketSizes (portBatch port rest size).bufs
      (portBatch port rest size).sizes 0 (portBatch port rest size).count = .ok () := by
    have passes : validatePacketSize 0 (portPacket port ++ rest) size = .ok () := by
      unfold validatePacketSize
      rw [if_neg (by omega), if_neg (by omega)]
    have counted : ¬((portBatch port rest size).count < 0 ∨
        (portBatch port rest size).count > (portBatch port rest size).bufs.length ∨
          (portBatch port rest size).count > (portBatch port rest size).sizes.length) := by
      simp [portBatch]
    unfold validateReadPacketSizes
    rw [if_neg counted, if_neg (by decide)]
    exact bind_eq_ok_iff.mpr ⟨(), passes, rfl⟩
  have own : ownBytes (portPacket port ++ rest) 0 28 = portPacket port :=
    ownBytes_portPacket port rest (le_refl _)
  have routed := router.route_ownBytes world (by omega : 0 + 28 ≤ (portPacket port ++ rest).length)
    (own ▸ wholeIPPacket_portPacket port) false none
  rw [own] at routed
  have batched : routeBatch (some router) world 0 (portBatch port rest size) = (do
      let target ← router.route world ⟨portPacket port, 0, false, none⟩
      pure [target]) := by
    rw [← routed]
    simp [routeBatch, portBatch, index]
  rw [readBackend, valid]
  simp only [batched, bind_assoc, pure_bind]
  rfl

theorem exists_fill (byte : UInt8) :
    ∃ rest : List UInt8, (portPacket 0 ++ rest).length = readLen 0 ∧ rest.head? = some byte := by
  refine ⟨byte :: List.replicate (readLen 0 - 29) byte, ?_, rfl⟩
  rw [List.length_append, length_portPacket, List.length_cons, List.length_replicate]
  rfl

theorem readBackend_eq_of_samePackets_sample :
    ∃ router state, newBytecodeSplitRouter portRules = .ok (.ok (router, state)) ∧
      ∃ rest otherRest : List UInt8, rest ≠ otherRest ∧ (portBatch 53 rest 28).Whole 0 ∧
        SamePackets 0 (portBatch 53 rest 28) (portBatch 53 otherRest 28) ∧
        readBackend (some router) portWorld 0 [.batch (portBatch 53 otherRest 28)] =
          readBackend (some router) portWorld 0 [.batch (portBatch 53 rest 28)] := by
  rcases portRules_built with ⟨router, state, built⟩
  rcases exists_fill 0 with ⟨rest, length, first⟩
  rcases exists_fill 1 with ⟨otherRest, otherLength, otherFirst⟩
  have different : rest ≠ otherRest := by
    rintro rfl
    cases first.symm.trans otherFirst
  have own : ∀ fill, (portBatch 53 fill 28).packet 0 0 = portPacket 53 :=
    fun fill => ownBytes_portPacket 53 fill (le_refl _)
  have only : ∀ i < (portBatch 53 rest 28).count.toNat, i = 0 := by
    intro i small
    simpa [portBatch] using small
  have whole : (portBatch 53 rest 28).Whole 0 := by
    intro i small
    obtain rfl := only i small
    exact own rest ▸ wholeIPPacket_portPacket 53
  have lengths : (portBatch 53 rest 28).bufs.map List.length =
      (portBatch 53 otherRest 28).bufs.map List.length := by
    rw [List.length_append] at length otherLength
    simp only [portBatch, List.map_cons, List.length_append]
    congr 2
    omega
  have same : SamePackets 0 (portBatch 53 rest 28) (portBatch 53 otherRest 28) := by
    refine ⟨?_, lengths, rfl⟩
    intro i small
    obtain rfl := only i small
    rw [own, own]
  refine ⟨router, state, built, rest, otherRest, different, whole, same, ?_⟩
  have wholeRun : ∀ batch, .batch batch ∈ [BackendRead.batch (portBatch 53 rest 28)] →
      batch.Whole 0 := by
    intro batch member
    cases List.mem_singleton.mp member
    exact whole
  exact (readBackend_eq_of_samePackets (some router) portWorld 0 wholeRun).2
    (.cons (.batch same) .nil)

/-- Two packets with the same 20 bytes go to different frontends, because of what an
earlier packet has left in the buffer behind them. -/
theorem readBackend_leftover_bytes :
    ∃ router state rest, newBytecodeSplitRouter portRules = .ok (.ok (router, state)) ∧
      (portPacket 0 ++ rest).length = readLen 0 ∧
      SamePackets 0 (portBatch 53 rest 20) (portBatch 80 rest 20) ∧
      (portBatch 53 rest 20).packet 0 0 = (portPacket 53).take 20 ∧
      (∃ after, (readBackend (some router) portWorld 0
        [.batch (portBatch 53 rest 28), .batch (portBatch 53 rest 20)]).run state =
          .ok ([[some 2], [some 2]], after)) ∧
      ∃ after, (readBackend (some router) portWorld 0
        [.batch (portBatch 80 rest 28), .batch (portBatch 80 rest 20)]).run state =
          .ok ([[some 1], [some 1]], after) := by
  have chosen : (newBytecodeSplitRouter portRules).toOption.any fun built =>
      built.toOption.any fun pair =>
        let frontends (port : UInt8) : Stateful SplitState (List (List (Option ℕ))) := do
          let first ← pair.1.route portWorld ⟨portPacket port, 0, false, none⟩
          let second ← pair.1.route portWorld ⟨portPacket port, 0, false, none⟩
          pure [[frontendForRoute (fun _ => true) first], [frontendForRoute (fun _ => true) second]]
        (((frontends 53).run pair.2).toOption.any fun dns => dns.1 == [[some 2], [some 2]]) &&
          ((frontends 80).run pair.2).toOption.any fun web => web.1 == [[some 1], [some 1]] := by
    decide +kernel
  rcases exists_fill 0 with ⟨rest, length, _⟩
  have own : ∀ port, (portBatch port rest 20).packet 0 0 = (portPacket port).take 20 :=
    fun port => ownBytes_portPacket port rest (by decide : 20 ≤ 28)
  have lengths : (portBatch 53 rest 20).bufs.map List.length =
      (portBatch 80 rest 20).bufs.map List.length := by
    simp [portBatch, length_portPacket]
  rcases exists_built chosen with ⟨router, state, built, chosen⟩
  refine ⟨router, state, rest, built, length, ⟨?_, lengths, rfl⟩, own 53, ?_⟩
  · intro i small
    obtain rfl : i = 0 := by simpa [portBatch] using small
    rw [own, own]
    rfl
  · simp only [readBackend_portBatch router portWorld _ rest (by decide : (0 : ℤ) ≤ 28) (by decide),
      readBackend_portBatch router portWorld _ rest (by decide : (0 : ℤ) ≤ 20) (by decide)]
    rcases Bool.and_eq_true_iff.mp chosen with ⟨toDNS, toWeb⟩
    rcases exists_of_any toDNS with ⟨⟨dns, afterDns⟩, dnsRun, toDNS⟩
    rcases exists_of_any toWeb with ⟨⟨web, afterWeb⟩, webRun, toWeb⟩
    rw [beq_iff_eq] at toDNS toWeb
    subst toDNS toWeb
    simp only [readBackend, bind_assoc, pure_bind]
    exact ⟨⟨afterDns, dnsRun⟩, ⟨afterWeb, webRun⟩⟩

end Gonnect.Tun
