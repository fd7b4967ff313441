import Gonnect.Tun.JoinerShared

/-!
# Readers that look at the clock before they lock

`rememberRoutes` reads the clock and takes the mutex afterwards; `Write` and `RoutingStats`
read it inside. A schedule is an interleaving of these steps. As long as no reader comes late,
the joiner answers as under immediate expiration.
-/

namespace Gonnect.Tun

open List Function Joiner JoinerEvent

section Schedules

variable {Tun : Type} [DecidableEq Tun]

inductive Action (Tun : Type) where
  | wait (time : ℕ)
  | readClock (reader : Nested Tun)
  | enter (event : JoinerEvent Tun)

def entered (actions : List (Action Tun)) : List (JoinerEvent Tun) :=
  actions.filterMap fun
    | .enter event => some event
    | _ => none

/-- A reader comes with what it has read, all others read the clock now. -/
def Permitted (clock : ℕ) (readings : Nested Tun → Option ℕ) : JoinerEvent Tun → Prop
  | .learn _ owner now => readings owner = some now
  | event => event.time?.getD clock = clock

/-- The readings of the readers that wait for the mutex, behind a critical section. -/
def settle (readings : Nested Tun → Option ℕ) : JoinerEvent Tun → Nested Tun → Option ℕ
  | .learn _ owner _ => update readings owner none
  | _ => readings

/-- The steps can happen in this order, from this time on. -/
def Scheduled : ℕ → (Nested Tun → Option ℕ) → List (Action Tun) → Prop
  | _, _, [] => True
  | clock, readings, .wait time :: actions => Scheduled (clock + time) readings actions
  | clock, readings, .readClock reader :: actions =>
    Scheduled clock (update readings reader (some clock)) actions
  | clock, readings, .enter event :: actions =>
    Permitted clock readings event ∧ Scheduled clock (settle readings event) actions

/-- No reader learns with a reading from before the latest time that the joiner has seen. -/
def Punctual : ℕ → List (Action Tun) → Prop
  | _, [] => True
  | latest, .enter (.learn _ _ now) :: actions => latest ≤ now ∧ Punctual now actions
  | latest, .enter event :: actions => Punctual (event.time?.getD latest) actions
  | latest, _ :: actions => Punctual latest actions

variable {clock : ℕ} {readings : Nested Tun → Option ℕ} {event : JoinerEvent Tun}

omit [DecidableEq Tun] in
theorem Permitted.time_le {time : ℕ} (permitted : Permitted clock readings event)
    (past : ∀ reader time, readings reader = some time → time ≤ clock)
    (isTime : event.time? = some time) : time ≤ clock := by
  cases event with
  | learn packets owner now =>
    obtain rfl := Option.some.inj isTime
    exact past owner _ permitted
  | write bufs offset now | routingStats now =>
    obtain rfl := Option.some.inj isTime
    exact le_of_eq permitted
  | _ => cases isTime

omit [DecidableEq Tun] in
theorem Punctual.enter {latest : ℕ} {actions : List (Action Tun)}
    (punctual : Punctual latest (.enter event :: actions))
    (permitted : Permitted clock readings event) (seen : latest ≤ clock) :
    latest ≤ event.time?.getD latest ∧ Punctual (event.time?.getD latest) actions := by
  cases event with
  | learn packets owner now => exact punctual
  | write bufs offset now | routingStats now =>
    exact ⟨seen.trans (le_of_eq permitted.symm), punctual⟩
  | _ => exact ⟨le_rfl, punctual⟩

theorem settle_past (event : JoinerEvent Tun)
    (past : ∀ reader time, readings reader = some time → time ≤ clock) :
    ∀ reader time, settle readings event reader = some time → time ≤ clock := by
  intro reader time isReading
  cases event with
  | learn packets owner now =>
    by_cases same : reader = owner
    · simp [settle, same] at isReading
    · exact past reader time (by simpa [settle, same] using isReading)
  | _ => exact past reader time isReading

/-- The clock goes on while the readers wait, so only they could bring a time back. -/
theorem Scheduled.clocked (actions : List (Action Tun)) :
    ∀ {clock latest : ℕ} {readings : Nested Tun → Option ℕ}, Scheduled clock readings actions →
      (∀ reader time, readings reader = some time → time ≤ clock) → latest ≤ clock →
      Punctual latest actions →
      (∀ time ∈ (entered actions).filterMap time?, latest ≤ time) ∧
        Clocked (entered actions) := by
  induction actions with
  | nil => exact fun _ _ _ _ => ⟨nofun, .nil⟩
  | cons action actions ih =>
    intro clock latest readings scheduled past seen punctual
    cases action with
    | wait time =>
      refine ih scheduled ?_ (seen.trans (Nat.le_add_right clock time)) punctual
      exact fun reader reading isReading =>
        (past reader reading isReading).trans (Nat.le_add_right clock time)
    | readClock reader =>
      refine ih scheduled ?_ seen punctual
      intro other time isReading
      by_cases same : other = reader
      · simp only [same, update_self, Option.some.injEq] at isReading
        exact isReading.ge
      · exact past other time (by simpa [same] using isReading)
    | enter event =>
      rcases scheduled with ⟨permitted, scheduled⟩
      rcases punctual.enter permitted seen with ⟨inOrder, rest⟩
      have seenNext : event.time?.getD latest ≤ clock := by
        cases isTime : event.time? with
        | none => exact seen
        | some time => exact permitted.time_le past isTime
      rcases ih scheduled (settle_past event past) seenNext rest with ⟨later, clocked⟩
      simp only [entered, Clocked, filterMap_cons] at later clocked ⊢
      cases isTime : event.time? with
      | none =>
        rw [isTime] at later
        exact ⟨later, clocked⟩
      | some time =>
        rw [isTime] at later inOrder
        refine ⟨?_, pairwise_cons.mpr ⟨later, clocked⟩⟩
        simp only [forall_mem_cons]
        exact ⟨inOrder, fun other listed => le_trans inOrder (later other listed)⟩

/-- Unless a reader comes late, every answer is that of immediate expiration, and a write
finds no route whose time has passed. -/
theorem punctual_readers_expire_at_once (options : JoinerOptions)
    (shared : options.sharedAddressRouting = true) (spawned : Bool)
    (actions : List (Action Tun)) (scheduled : Scheduled 0 (fun _ => none) actions)
    (punctual : Punctual 0 actions) :
    ((new options spawned).run (entered actions)).1 =
      ((JoinerSpec.new options spawned).run (entered actions)).1 ∧
    ∀ front bufs offset now back, entered actions = front ++ .write bufs offset now :: back →
      let table := (((new options spawned).run front).2.expire now).table
      ∀ key ref, table.lookup key = some ref → now < (table.heap ref).content.expires := by
  have clocked := (scheduled.clocked actions nofun le_rfl punctual).2
  have start := @simulates_new Tun _ options shared spawned
  refine ⟨(Simulates.run _ start (fun _ _ => Nat.zero_le _) clocked).1, ?_⟩
  intro front bufs offset now back split table key ref lookedUp
  rw [split, Clocked, filterMap_append, pairwise_append] at clocked
  rcases clocked with ⟨frontClocked, -, across⟩
  have before := (Simulates.run front start (fun _ _ => Nat.zero_le _) frontClocked).2
  have passed : lastTime 0 front ≤ now := by
    rcases eq_nil_or_concat (front.filterMap time?) with none | ⟨_, last, some⟩
    · simp [lastTime, none]
    · simpa [lastTime, some] using across last (by simp [some]) now (by simp [time?])
  have expired := (before.later passed).expire
  rcases expired.refines.found lookedUp with ⟨lease, found, -, content⟩
  rw [content]
  exact LeaseTable.allLive_expire _ now lease (mem_of_find?_eq_some found)

end Schedules

/-- Tun 0 reads the clock at 0 and learns at 3, behind tun 1. Both use the address 10.0.0.1,
and routes live for 5. -/
def lateReader : List (Action ℕ) :=
  [.enter (.attachSecondary (some 0)), .enter (.attachSecondary (some 1)), .readClock ⟨0, 0⟩,
    .wait 3, .readClock ⟨1, 1⟩, .enter (.learn [udpPacket 3 4 30 40 0] ⟨1, 1⟩ 3),
    .enter (.learn [udpPacket 1 2 10 20 0] ⟨0, 0⟩ 0),
    .readClock ⟨1, 1⟩, .enter (.learn [udpPacket 1 5 30 40 0] ⟨1, 1⟩ 3), .wait 4,
    .enter (.write [replicate 256 0 ++ udpPacket 2 1 20 10 0] 256 7)]

/-- The joiner has no flow at 2, one flow at 3 that was learned at `reading`, and asks again
at 6. -/
def earlyExpiry (reading : ℕ) : List (JoinerEvent ℕ) :=
  [.attachSecondary (some 0), .routingStats 2, .learn [udpPacket 1 2 10 20 0] ⟨0, 0⟩ reading,
    .routingStats 3, .routingStats 6]

/-- A reader learns without delay, and a packet is written at 4. -/
def punctualReader : List (Action ℕ) :=
  [.readClock ⟨0, 0⟩, .enter (.attachSecondary (some 0)),
    .enter (.learn [udpPacket 1 2 10 20 0] ⟨0, 0⟩ 0), .wait 4,
    .enter (.write [replicate 256 0 ++ udpPacket 2 1 20 10 0] 256 4)]

theorem punctual_readers_expire_once :
    ((new ⟨true, 5, 0⟩ true).run (entered punctualReader)).1 =
      ((JoinerSpec.new ⟨true, 5, 0⟩ true).run (entered punctualReader)).1 ∧
    let table := (((new ⟨true, 5, 0⟩ true).run (entered (punctualReader.take 4))).2.expire 4).table
    ∀ key ref, table.lookup key = some ref → 4 < (table.heap ref).content.expires := by
  have scheduled : Scheduled 0 (fun _ => none) punctualReader := ⟨rfl, rfl, rfl, trivial⟩
  have punctual : Punctual 0 punctualReader := ⟨le_rfl, trivial⟩
  have atOnce := punctual_readers_expire_at_once ⟨true, 5, 0⟩ rfl true _ scheduled punctual
  exact ⟨atOnce.1, atOnce.2 _ _ _ _ [] rfl⟩

/-- The route of the late reader is used at 7 although it has expired at 5: the packet goes to
tun 0, and with immediate expiration it goes to tun 1. A route can also be lost too early: a
reading from 0 that is entered between 2 and 3 is gone at 6, whereas every sequential learning
between 2 and 3 keeps it until 7. -/
theorem late_readers_misroute :
    Scheduled 0 (fun _ => none) lateReader ∧
    ((new ⟨true, 5, 0⟩ true).run (entered lateReader)).1.getLast? =
      some (.routed [some ⟨0, 0⟩]) ∧
    ((JoinerSpec.new ⟨true, 5, 0⟩ true).run (entered lateReader)).1.getLast? =
      some (.routed [some ⟨1, 1⟩]) ∧
    Scheduled 0 (fun _ => none) (.readClock ⟨0, 0⟩ :: .wait 2 ::
      ((earlyExpiry 0).take 3).map .enter ++ .wait 1 :: [.enter (.routingStats 3), .wait 3,
        .enter (.routingStats 6)]) ∧
    ∀ reading, Clocked (earlyExpiry reading) →
      ((JoinerSpec.new ⟨true, 5, 0⟩ true).run (earlyExpiry reading)).1 ≠
        ((new ⟨true, 5, 0⟩ true).run (earlyExpiry 0)).1 := by
  refine ⟨?_, by decide +kernel, by decide +kernel, ?_, ?_⟩
  · exact ⟨rfl, rfl, rfl, rfl, rfl, rfl, trivial⟩
  · exact ⟨rfl, rfl, rfl, rfl, rfl, trivial⟩
  · intro reading clocked
    obtain rfl | rfl : reading = 2 ∨ reading = 3 := by
      simp only [Clocked, earlyExpiry, time?, filterMap_cons,
        filterMap_nil, pairwise_cons, forall_mem_cons] at clocked
      omega
    all_goals decide +kernel

end Gonnect.Tun
