import Gonnect.Tun.Joiner

/-!
# The two modes of the joiner

With shared addresses the joiner takes the addresses of a packet from the parser, and without them
from the bytes of the header. They are the same, so in both modes it learns the same addresses and
a packet without a dynamic route goes to the same tun.
-/

namespace Gonnect.Tun

open Checked List Tun.Frame

variable {data buf : List UInt8} {offset turns : ℕ} {packet parsed : JoinerPacket}

theorem parseJoinerIPv6Headers_addresses {next : UInt8}
    (walked : parseJoinerIPv6Headers data turns next packet = some parsed) :
    parsed.version = packet.version ∧ parsed.source = packet.source ∧
      parsed.destination = packet.destination := by
  induction turns generalizing next packet with
  | zero => cases walked
  | succ turns ih =>
    simp only [parseJoinerIPv6Headers] at walked
    split_ifs at walked
    all_goals first
      | have kept := ih walked
        exact kept
      | cases walked
        exact ⟨rfl, rfl, rfl⟩

theorem bytesAt_take {low high count : ℕ} (inside : high ≤ count) :
    bytesAt (data.take count) low high = bytesAt data low high := by
  rw [bytesAt, bytesAt, drop_take, take_take, min_eq_left (by omega)]

theorem take_padded {low : ℕ} (inside : low + 4 ≤ data.length) (count : ℕ) :
    (bytesAt data low (low + 4) ++ replicate count 0).take 4 = bytesAt data low (low + 4) :=
  take_left' (by simp only [bytesAt, length_take, length_drop]; omega)

theorem parseJoinerPacket_addresses (isParsed : parseJoinerPacket buf offset = some packet) :
    let data := buf.drop offset
    offset < buf.length ∧
      (byteAt data 0 >>> 4 = 4 ∧ 20 ≤ data.length ∧ packet.version = 4 ∧
        packet.source.take 4 = bytesAt data 12 16 ∧ packet.destination.take 4 = bytesAt data 16 20 ∨
      byteAt data 0 >>> 4 = 6 ∧ 40 ≤ data.length ∧ packet.version = 6 ∧
        packet.source = bytesAt data 8 24 ∧ packet.destination = bytesAt data 24 40) := by
  intro data
  simp only [parseJoinerPacket] at isParsed
  split_ifs at isParsed with outside four six
  · refine ⟨by omega, .inl ⟨four, ?_⟩⟩
    simp only [parseJoinerIPv4Packet] at isParsed
    split_ifs at isParsed with short bad total cut <;> cases isParsed
    · refine ⟨Nat.le_of_not_lt short, rfl, ?_, ?_⟩
      · exact (take_padded (by rw [length_take]; omega) 12).trans (bytesAt_take (by omega))
      · exact (take_padded (by rw [length_take]; omega) 12).trans (bytesAt_take (by omega))
    · exact ⟨Nat.le_of_not_lt short, rfl, take_padded (by omega) 12, take_padded (by omega) 12⟩
  · refine ⟨by omega, .inr ⟨six, ?_⟩⟩
    simp only [parseJoinerIPv6Packet] at isParsed
    split_ifs at isParsed with short cut
    all_goals
      rcases parseJoinerIPv6Headers_addresses isParsed with ⟨version, source, destination⟩
      refine ⟨Nat.le_of_not_lt short, version, source.trans ?_, destination.trans ?_⟩
    · exact bytesAt_take (by omega)
    · exact bytesAt_take (by omega)
    · rfl
    · rfl

variable {Tun : Type} [DecidableEq Tun]

namespace Frame

variable (frame : Frame Tun) (shared : Bool)

omit [DecidableEq Tun] in
theorem addressRoute_eq : frame.addressRoute (parseJoinerPacket buf offset) buf offset =
    frame.packetDestinationRoute buf offset := by
  cases isParsed : parseJoinerPacket buf offset with
  | none => rfl
  | some packet =>
    rcases parseJoinerPacket_addresses isParsed with ⟨inside, four | six⟩
    all_goals simp_all [-length_drop, addressRoute, parsedDestinationRoute, packetDestinationRoute]

omit [DecidableEq Tun] in
theorem rememberParsedSourceRoute_eq (isParsed : parseJoinerPacket buf 0 = some packet)
    (owner : Nested Tun) :
    frame.rememberParsedSourceRoute packet owner = frame.rememberPacketSourceRoute buf owner := by
  rcases parseJoinerPacket_addresses isParsed with ⟨inside, four | six⟩
  all_goals simp_all [rememberParsedSourceRoute, rememberPacketSourceRoute, length_pos_iff]

abbrev inMode (frame : Frame Tun) : Frame Tun :=
  { frame with flowRouting := shared }

omit [DecidableEq Tun] in
theorem rememberPacketSourceRoute_inMode (packet : List UInt8) (owner : Nested Tun) :
    (frame.inMode shared).rememberPacketSourceRoute packet owner =
      (frame.rememberPacketSourceRoute packet owner).inMode shared := by
  simp only [rememberPacketSourceRoute]
  split_ifs <;> rfl

theorem dismiss_inMode (n : Option (Nested Tun)) :
    (frame.inMode shared).dismiss n = (frame.dismiss n).map (inMode shared) id := by
  cases n <;> rfl

end Frame

namespace Joiner

variable {joiner other : Joiner Tun} {shared : Bool} {now : ℕ}

omit [DecidableEq Tun] in
theorem expire_frame : (joiner.expire now).frame = joiner.frame := by
  rw [expire]
  split_ifs <;> rfl

theorem rememberRoute_frame (owner : Nested Tun) (packet : List UInt8) :
    (rememberRoute owner now joiner packet).frame =
      joiner.frame.rememberPacketSourceRoute packet owner := by
  rw [rememberRoute]
  split_ifs
  · cases isParsed : parseJoinerPacket packet 0 with
    | none => rfl
    | some parsed =>
      rw [← joiner.frame.rememberParsedSourceRoute_eq isParsed]
      dsimp only
      cases joinerReverseFlowKey parsed <;> rfl
  · rfl

variable (joiner) in
omit [DecidableEq Tun] in
theorem route_target (buf : List UInt8) (offset now : ℕ) :
    joiner.frame.flowRouting ∧
      ((joiner.table.fragmentRoute (parseJoinerPacket buf offset)).isSome ∨
        (joiner.table.flowRoute (parseJoinerPacket buf offset)).isSome) ∨
    (joiner.route buf offset now).1 =
      (joiner.frame.packetDestinationRoute buf offset).or joiner.frame.defaultTun := by
  rw [route]
  split_ifs with shared
  · rw [routeSharedAddress, joiner.frame.addressRoute_eq]
    cases joiner.table.fragmentRoute (parseJoinerPacket buf offset) with
    | some ref => exact .inl ⟨shared, .inl rfl⟩
    | none =>
      cases joiner.table.flowRoute (parseJoinerPacket buf offset) with
      | some ref => exact .inl ⟨shared, .inr rfl⟩
      | none =>
        right
        cases joiner.frame.packetDestinationRoute buf offset with
        | some owner => rfl
        | none => cases joiner.frame.defaultTun <;> rfl
  · right
    cases joiner.frame.packetDestinationRoute buf offset <;> rfl

omit [DecidableEq Tun] in
theorem route_frame : (joiner.route buf offset now).2.frame = joiner.frame := by
  simp only [route, routeSharedAddress]
  split_ifs <;> repeat' split
  all_goals rfl

omit [DecidableEq Tun] in
theorem routeAll_frame (bufs : List (List UInt8)) :
    (routeAll offset now bufs joiner).2.frame = joiner.frame := by
  induction bufs generalizing joiner with
  | nil => rfl
  | cons buf bufs ih => exact ih.trans route_frame

theorem write_frame (bufs : List (List UInt8)) (offset : ℤ) :
    (joiner.step (.write bufs offset now)).2.frame = joiner.frame := by
  simp only [step]
  split
  · rfl
  · split_ifs
    · rfl
    · exact (routeAll_frame bufs).trans expire_frame

theorem flowRouting_rememberRoute (owner : Nested Tun) (packet : List UInt8) :
    (rememberRoute owner now joiner packet).frame.flowRouting = joiner.frame.flowRouting := by
  rw [rememberRoute_frame]
  exact (congrArg flowRouting (joiner.frame.rememberPacketSourceRoute_inMode _ packet owner) :)

theorem step_inMode (same : other.frame = joiner.frame.inMode shared) (event : JoinerEvent Tun) :
    (other.step event).2.frame = (joiner.step event).2.frame.inMode shared := by
  cases event with
  | learn packets owner now =>
    simp only [step, rememberRoutes, same]
    split_ifs
    · exact same
    · refine foldl_rel (r := fun other joiner : Joiner Tun =>
        other.frame = joiner.frame.inMode shared) (by simp only [expire_frame, same]) ?_
      intro packet _ other joiner same
      rw [rememberRoute_frame, rememberRoute_frame, same, rememberPacketSourceRoute_inMode]
  | write bufs offset now => simp only [write_frame, same]
  | attachDefault t | attachSecondary t =>
    cases t with
    | none => exact same
    | some t =>
      simp only [step, same, attachDefault, attachSecondary, dismiss_inMode]
      split_ifs
      all_goals first
        | exact same
        | rfl
  | detach t | detachDefault =>
    simp only [step, same, detach, detachDefault, dismiss_inMode]
    split_ifs
    · exact same
    · rfl
  | detachNested n =>
    simp only [step, same, detachNested]
    split_ifs <;> rfl
  | close =>
    simp only [step, same]
    rfl
  | routingStats now =>
    simp only [step, apply_ite frame, expire_frame, ite_self]
    exact same

theorem flowRouting_step (event : JoinerEvent Tun) :
    (joiner.step event).2.frame.flowRouting = joiner.frame.flowRouting :=
  (congrArg flowRouting (@step_inMode _ _ joiner joiner _ rfl event) :)

theorem run_inMode (same : other.frame = joiner.frame.inMode shared)
    (events : List (JoinerEvent Tun)) :
    (other.run events).2.frame = (joiner.run events).2.frame.inMode shared := by
  induction events generalizing joiner other with
  | nil => exact same
  | cons event events ih => exact ih (step_inMode same event)

/-- Both modes learn the same addresses and have the same default tun. At any point of a batch, a
packet for which the shared mode has no dynamic route goes to the same tun. -/
theorem modes_agree (options : JoinerOptions) (spawned : Bool) (events : List (JoinerEvent Tun)) :
    let after (shared : Bool) : Joiner Tun :=
      ((new { options with sharedAddressRouting := shared } spawned).run events).2
    (after true).frame.routes4 = (after false).frame.routes4 ∧
    (after true).frame.routes6 = (after false).frame.routes6 ∧
    (after true).frame.defaultTun = (after false).frame.defaultTun ∧
    ∀ (earlier : List (List UInt8)) (buf : List UInt8) (offset now : ℕ),
      let before (shared : Bool) := (routeAll offset now earlier ((after shared).expire now)).2
      let parsed := parseJoinerPacket buf offset
      ((before true).table.fragmentRoute parsed).isSome ∨
      ((before true).table.flowRoute parsed).isSome ∨
      ((before true).route buf offset now).1 = ((before false).route buf offset now).1 := by
  intro after
  have same (shared : Bool) : (after shared).frame = (after false).frame.inMode shared :=
    run_inMode (by rfl) events
  refine ⟨by rw [same true], by rw [same true], by rw [same true], ?_⟩
  intro earlier buf offset now before parsed
  have sameNow (shared : Bool) : (before shared).frame = (after false).frame.inMode shared :=
    (routeAll_frame earlier).trans (expire_frame.trans (same shared))
  have legacy := (before false).route_target buf offset now
  have target := (before true).route_target buf offset now
  simp only [sameNow] at legacy target
  rcases target with ⟨_, fragment | flow⟩ | target
  · exact .inl fragment
  · exact .inr (.inl flow)
  · exact .inr (.inr (target.trans (legacy.resolve_left (by simp)).symm))

end Joiner

end Gonnect.Tun
