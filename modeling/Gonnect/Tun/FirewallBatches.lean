import Gonnect.Tun.Firewall

/-!
# Batches of packets through the firewall of a tun

`Read` moves the packets that it keeps to the front of the buffers while later ones are still
to be read. `Write` hands a part of its batch to the inner tun and translates its count into a
position in the batch of the caller. No packet is lost or changed on the way, and none is
handed on twice.
-/

namespace Gonnect.Tun

open Checked List ReadBuffers ExpiringCache

section Reads

variable (world : FirewallWorld) {Err : Type}

def keptPackets (config : FirewallPolicy) (packets : List (List UInt8)) : List (List UInt8) :=
  packets.filter fun packet => (keptFlow world config packet).isSome

/-- Whether a flow is answered behind packets with these flows, the first of them sent at a
reading of the clock: as its last deadline says, and as before if no packet has renewed it. -/
def answersBehind (ttl : ℤ) (flow : FirewallFlow) (now : ℤ) : List FirewallFlow → ℕ → Bool → Bool
  | [], _, before => before
  | sent :: later, reading, before =>
    answersBehind ttl flow now later (reading + 1)
      (if sent.reverse = flow then decide (now ≤ wrap64 (world.clock reading + ttl)) else before)

/-- Later than all readings of the clock for the packets, the flows are answered accordingly. -/
def Records (packets : List (List UInt8)) (state after : FirewallState) : Prop :=
  let flows := packets.filterMap (keptFlow world state.config)
  ∀ flow now, (∀ i < flows.length, world.clock (state.ticks + i) ≤ now) →
    (after.responses.look flow now).1 = answersBehind world state.config.ttl flow now flows
      state.ticks (state.responses.look flow now).1

namespace ReadBuffers

variable (buffers : ReadBuffers)

def Holds (offset i : ℕ) (packet : List UInt8) : Prop :=
  ∃ buf, buffers.bufs[i]? = some buf ∧ buffers.sizes[i]? = some (packet.length : ℤ) ∧
    offset + packet.length ≤ buf.length ∧ (buf.drop offset).take packet.length = packet

def HoldsAll (offset i : ℕ) (packets : List (List UInt8)) : Prop :=
  ∀ j packet, packets[j]? = some packet → buffers.Holds offset (i + j) packet

def Large (offset count : ℕ) (packets : List (List UInt8)) : Prop :=
  ∀ packet ∈ packets, ∀ j < count, ∀ length ∈ (buffers.bufs.map List.length)[j]?,
    offset + packet.length ≤ length

end ReadBuffers

variable {world} {buffers : ReadBuffers} {offset i kept : ℕ} {packet target : List UInt8}

theorem ReadBuffers.holdsAll_cons {packets : List (List UInt8)} :
    buffers.HoldsAll offset i (packet :: packets) ↔
      buffers.Holds offset i packet ∧ buffers.HoldsAll offset (i + 1) packets := by
  constructor
  · intro held
    refine ⟨held 0 packet rfl, fun j other isOther => ?_⟩
    simpa [add_comm, add_left_comm] using held (j + 1) other isOther
  · rintro ⟨first, others⟩ (_ | j) other isOther
    · cases isOther
      exact first
    · simpa [add_comm, add_left_comm] using others j other isOther

theorem ReadBuffers.Holds.moved (held : buffers.Holds offset i packet) (behind : kept ≤ i)
    (found : buffers.bufs[kept]? = some target) (fits : offset + packet.length ≤ target.length)
    (after : ReadBuffers) (bufs : after.bufs = if kept ≠ i then
      buffers.bufs.set kept (copyAt target offset packet) else buffers.bufs)
    (sizes : after.sizes = buffers.sizes.set kept packet.length) :
    after.Holds offset kept packet ∧
      (∀ j other, j ≠ kept → buffers.Holds offset j other → after.Holds offset j other) ∧
      after.bufs.map List.length = buffers.bufs.map List.length := by
  rcases held with ⟨buf, isBuf, size, inside, content⟩
  have inSizes : kept < buffers.sizes.length :=
    behind.trans_lt (List.getElem?_eq_some_iff.mp size).1
  have start : (target.take offset).length = offset := length_take_of_le (by omega)
  have copied : (copyAt target offset packet).length = target.length := by
    simp [copyAt]
    omega
  split_ifs at bufs with moved
  · refine ⟨⟨copyAt target offset packet, ?_, by simp [sizes, inSizes], copied ▸ fits, ?_⟩, ?_, ?_⟩
    · simp [bufs, (List.getElem?_eq_some_iff.mp found).1]
    · simp [copyAt, start]
    · rintro j other apart ⟨old, isOld, oldSize, rest⟩
      exact ⟨old, by simpa [bufs, getElem?_set_ne apart.symm] using isOld,
        by simpa [sizes, getElem?_set_ne apart.symm] using oldSize, rest⟩
    · rcases List.getElem?_eq_some_iff.mp found with ⟨inBufs, rfl⟩
      rw [bufs, map_set, copied, ← map_set, set_getElem_self]
  · cases not_not.mp moved
    refine ⟨⟨buf, bufs ▸ isBuf, by simp [sizes, inSizes], inside, content⟩, ?_, by rw [bufs]⟩
    rintro j other apart ⟨old, isOld, oldSize, rest⟩
    exact ⟨old, bufs ▸ isOld, by simpa [sizes, getElem?_set_ne apart.symm] using oldSize, rest⟩

theorem recordResponse_look (world : FirewallWorld) (state : FirewallState) (flow : FirewallFlow) :
    Reaches state (recordResponse world flow) fun _ after =>
      after.config = state.config ∧ after.ticks = state.ticks + 1 ∧
        ∀ other now, world.clock state.ticks ≤ now → (after.responses.look other now).1 =
          if flow = other then decide (now ≤ wrap64 (world.clock state.ticks + state.config.ttl))
          else (state.responses.look other now).1 := by
  simp only [recordResponse, timeNow, Reaches.bind_iff, Reaches.modifyGet_iff, Reaches.modify_iff,
    true_and]
  exact fun other now past => ExpiringSet.look_record _ _ flow other _ past

theorem filterOutgoingRead_loop (later : List (List UInt8)) (state : FirewallState)
    (behind : kept ≤ i) (held : buffers.HoldsAll offset i later)
    (large : buffers.Large offset (i + later.length) later) :
    Reaches state (filterOutgoingRead world offset later.length i kept buffers :
      Stateful FirewallState (ReadBuffers × ℕ × Option (FirewallError Err))) fun result after =>
        (∀ j packet, j < kept → buffers.Holds offset j packet → result.1.Holds offset j packet) ∧
        result.1.HoldsAll offset kept (keptPackets world state.config later) ∧
        result.2 = (kept + (keptPackets world state.config later).length, none) ∧
        Records world later state after := by
  induction later generalizing i kept buffers state with
  | nil => simp [filterOutgoingRead, keptPackets, Records, answersBehind, HoldsAll]
  | cons packet later ih =>
    rcases holdsAll_cons.mp held with ⟨heldNow, heldLater⟩
    have largeLater : buffers.Large offset (i + 1 + later.length) later :=
      fun other member j below => large other (mem_cons_of_mem _ member) j (by simp; omega)
    rcases id heldNow with ⟨buf, isBuf, size, inside, content⟩
    have whole : ¬((packet.length : ℤ) < 0 ∨ (offset : ℤ) < 0 ∨ (offset : ℤ) > buf.length ∨
        (packet.length : ℤ) > buf.length - offset) := by omega
    simp only [length_cons, filterOutgoingRead, index, isBuf, size, Stateful.lift_ok_bind,
      firewallTunPacket, if_neg whole, Int.toNat_natCast, content, Reaches.bind_iff,
      passesOutgoing_iff]
    cases isKept : keptFlow world state.config packet with
    | none =>
      simpa [keptPackets, Records, isKept] using
        ih state (behind.trans (Nat.le_succ i)) heldLater largeLater
    | some flow =>
      have inBufs := behind.trans_lt (List.getElem?_eq_some_iff.mp isBuf).1
      have found := getElem?_eq_getElem inBufs
      have fits := large packet mem_cons_self kept (by simp; omega)
        buffers.bufs[kept].length (by simp [found])
      rcases recordResponse_look world state flow.reverse with
        ⟨_, middle, recorded, config, ticks, looks⟩
      rcases heldNow.moved behind found fits ⟨_, _⟩ rfl rfl with ⟨here, others, lengths⟩
      have next := ih middle (Nat.succ_le_succ behind)
        (fun j other isLater => others _ _ (by omega) (heldLater j other isLater))
        (by simpa only [Large, lengths] using largeLater)
      have short : ¬(kept ≠ i ∧ (offset > buffers.bufs[kept].length ∨
        packet.length > buffers.bufs[kept].length - offset)) := by omega
      rw [config] at next
      refine ⟨_, middle, recorded, ?_⟩
      simp only [Bool.not_true, Bool.false_eq_true, if_false, found, Stateful.lift_ok_bind,
        if_neg short]
      refine next.mono ?_
      rintro result after ⟨before, all, counted, records⟩
      simp only [keptPackets, filter_cons, isKept, Option.isSome_some, if_true]
      refine ⟨?_, ?_, ?_, ?_⟩
      · intro j other less isHeld
        exact before j other (by omega) (others j other less.ne isHeld)
      · exact holdsAll_cons.mpr ⟨before kept packet (Nat.lt_succ_self kept) here, all⟩
      · rw [counted, Nat.succ_add]
        rfl
      · intro other now past
        simp only [filterMap_cons, isKept, length_cons, Order.lt_add_one_iff] at past ⊢
        have here : world.clock state.ticks ≤ now := past 0 (Nat.zero_le _)
        rw [records other now, config, ticks, looks other now here, answersBehind]
        intro j below
        rw [config] at below
        rw [ticks, Nat.add_assoc, Nat.add_comm 1]
        exact past (j + 1) below

/-- The packets that have a flow which the rules do not exclude are at the front afterwards, in
their order. Their reversed flows are answered until the deadline, all others as before. -/
theorem filterOutgoingRead_keeps (state : FirewallState) {packets : List (List UInt8)}
    (read : buffers.HoldsAll offset 0 packets)
    (large : buffers.Large offset packets.length packets) :
    Reaches state (filterOutgoingRead world offset packets.length 0 0 buffers :
      Stateful FirewallState (ReadBuffers × ℕ × Option (FirewallError Err))) fun result after =>
        result.1.HoldsAll offset 0 (keptPackets world state.config packets) ∧
        result.2 = ((keptPackets world state.config packets).length, none) ∧
        Records world packets state after := by
  refine (filterOutgoingRead_loop packets state le_rfl read (by simpa using large)).mono ?_
  rintro result after ⟨_, all, counted, records⟩
  exact ⟨all, by simpa using counted, records⟩

end Reads

def queryBehindEmpty : ReadBuffers where
  bufs := [replicate 28 0, queryPacket]
  sizes := [0, 28]

/-- The buffer of a packet that is dropped takes the next one. -/
theorem filterOutgoingRead_keeps_query :
    queryBehindEmpty.HoldsAll 0 0 [[], queryPacket] ∧
      Reaches (newFirewall stillWorld noRules)
        (filterOutgoingRead stillWorld 0 2 0 0 queryBehindEmpty :
          Stateful FirewallState (ReadBuffers × ℕ × Option (FirewallError Unit)))
            fun result after => result.1.HoldsAll 0 0 [queryPacket] ∧ result.2 = (1, none) ∧
              (after.responses.look ⟨4, 17, .v4 0xc0000201, .v4 0x0a000001, 53, 1000⟩ 5).1 =
                true := by
  have read : queryBehindEmpty.HoldsAll 0 0 [[], queryPacket] := by
    simp only [holdsAll_cons]
    exact ⟨⟨_, rfl, rfl, by decide, rfl⟩, ⟨_, rfl, rfl, by decide, rfl⟩, nofun⟩
  have large : queryBehindEmpty.Large 0 2 [[], queryPacket] := by
    simp [Large, queryBehindEmpty, queryPacket]
    decide
  have kept : keptPackets stillWorld (newFirewall stillWorld noRules).config [[], queryPacket] =
      [queryPacket] := rfl
  refine ⟨read, (filterOutgoingRead_keeps (newFirewall stillWorld noRules) read large).mono ?_⟩
  rintro result after ⟨all, counted, records⟩
  rw [kept] at all counted
  have past : (0 : ℤ) ≤ 5 := by decide
  exact ⟨all, counted, records _ 5 fun _ _ => past⟩

end Gonnect.Tun
