import Mathlib.Data.List.Basic

/-!
# Shutting a loopback network down

`Down` and `Close` empty the table `closers` of a `LoopbackNetwork` and close what was in it. An
object can escape them in two ways. A connection that `Accept` returns is not in the table, since
`ListenTCP` sets a callback for `AcceptTCP` only. And an operation finds the network up in one
critical section and enters its object in a later one.
-/

namespace Gonnect.Loopback

open List

/-- What the network tracks; an object in `closers` is known by its id. -/
structure LoopbackNetwork where
  up : Bool
  closed : Bool
  nextID : ℕ
  closers : List ℕ
  down_of_closed : closed = true → up = false
  fresh : ∀ id ∈ closers, id < nextID

namespace LoopbackNetwork

def new : LoopbackNetwork where
  up := true
  closed := false
  nextID := 0
  closers := []
  down_of_closed := nofun
  fresh := nofun

variable (net : LoopbackNetwork)

def checkUp : Bool :=
  net.up && !net.closed

/-- `getID` and `register`, which every caller runs under one lock. -/
def register : LoopbackNetwork :=
  { net with
    nextID := net.nextID + 1
    closers := net.nextID :: net.closers
    fresh := by
      intro id member
      rcases mem_cons.mp member with rfl | old
      · exact Nat.lt_succ_self _
      · exact Nat.lt_succ_of_lt (net.fresh id old) }

def unregister (id : ℕ) : LoopbackNetwork :=
  { net with
    closers := net.closers.filter (· ≠ id)
    fresh := fun other member => net.fresh other (mem_of_mem_filter member) }

def drained (closed : Bool) : LoopbackNetwork × List ℕ :=
  ({ net with
      up := false, closed := closed, closers := [], down_of_closed := fun _ => rfl,
      fresh := nofun },
    net.closers)

def downPrep : LoopbackNetwork × List ℕ :=
  if !net.up || net.closed then (net, []) else net.drained net.closed

def closePrep : LoopbackNetwork × List ℕ :=
  if net.closed then (net, []) else net.drained true

theorem checkUp_eq : net.checkUp = net.up := by
  cases closed : net.closed with
  | false => simp [checkUp, closed]
  | true => simp [checkUp, net.down_of_closed closed]

end LoopbackNetwork

attribute [local grind] LoopbackNetwork.register LoopbackNetwork.unregister
  LoopbackNetwork.downPrep LoopbackNetwork.closePrep LoopbackNetwork.drained

inductive Opening where
  | listen
  | listenTCP
  | listenPacket
  | listenUDP
  | dial
  | dialTCP
  | dialUDP

namespace Opening

/-- How often `checkUp` runs: `Listen`, `ListenPacket` and `Dial` call an operation that checks
again. -/
def checks : Opening → ℕ
  | .listen | .listenPacket | .dial => 2
  | .listenTCP | .listenUDP | .dialTCP | .dialUDP => 1

def listens : Opening → Bool
  | .listen | .listenTCP => true
  | _ => false

end Opening

structure Usage where
  net : LoopbackNetwork
  tracked : List (ℕ × Bool)
  accepted : ℕ

inductive UserCall where
  /-- An operation; `worked` says whether its work on addresses and ports succeeds. -/
  | opening (opening : Opening) (worked : Bool)
  | accept (listener : ℕ)
  | acceptTCP (listener : ℕ)
  | closeTracked (id : ℕ)
  | closeAccepted
  | up
  | down
  | close

namespace Usage

def new : Usage where
  net := .new
  tracked := []
  accepted := 0

variable (usage : Usage)

def track (listens : Bool) : Usage :=
  { usage with
    net := usage.net.register
    tracked := (usage.net.nextID, listens) :: usage.tracked }

def closeAll (prepared : LoopbackNetwork × List ℕ) : Usage :=
  { usage with
    net := prepared.1
    tracked := usage.tracked.filter fun object => object.1 ∉ prepared.2 }

def down : Usage :=
  if usage.net.closed then usage else usage.closeAll usage.net.downPrep

def close : Usage :=
  usage.closeAll usage.net.closePrep

def call : UserCall → Usage
  | .opening opening worked =>
    if usage.net.checkUp && worked then usage.track opening.listens else usage
  -- A listener that was closed has stopped its callbacks and returns no connection.
  | .accept listener =>
    if (listener, true) ∈ usage.tracked then { usage with accepted := usage.accepted + 1 }
    else usage
  | .acceptTCP listener =>
    if (listener, true) ∈ usage.tracked ∧ usage.net.up then usage.track false else usage
  | .closeTracked id =>
    { usage with
      net := usage.net.unregister id
      tracked := usage.tracked.filter (·.1 ≠ id) }
  | .closeAccepted => { usage with accepted := usage.accepted - 1 }
  | .up =>
    if closed : usage.net.closed then usage
    else
      { usage with
        net := { usage.net with
          up := true, down_of_closed := fun isClosed => absurd isClosed closed } }
  | .down => usage.down
  | .close => usage.close

def AllClosed : Prop :=
  usage.tracked = [] ∧ usage.accepted = 0

structure Tracks (usage : Usage) : Prop where
  tracked : ∀ object ∈ usage.tracked, object.1 ∈ usage.net.closers
  down : usage.net.up = false → usage.net.closers = []

variable {usage}

open LoopbackNetwork

attribute [local grind] Usage.call Usage.down close closeAll track

theorem Tracks.call (tracks : usage.Tracks) (made : UserCall) : (usage.call made).Tracks := by
  have down_of_closed := usage.net.down_of_closed
  rcases tracks with ⟨tracked, down⟩
  cases made with
  | down | close => grind [Tracks]
  | _ => grind [Tracks, checkUp_eq]

theorem tracks_run (calls : List UserCall) : (calls.foldl call new).Tracks :=
  foldlRecOn calls call ⟨nofun, nofun⟩ fun _ tracks made _ => tracks.call made

theorem Tracks.down_tracked (tracks : usage.Tracks) : usage.down.tracked = [] := by
  refine eq_nil_iff_forall_not_mem.mpr fun object member => ?_
  have down_of_closed := usage.net.down_of_closed
  have entered := tracks.tracked object
  grind [tracks.down]

theorem Tracks.close_tracked (tracks : usage.Tracks) : usage.close.tracked = [] := by
  refine eq_nil_iff_forall_not_mem.mpr fun object member => ?_
  have down_of_closed := usage.net.down_of_closed
  have entered := tracks.tracked object
  grind [tracks.down]

/-- After every sequential run, a shutdown closes all there is exactly if no connection that
`Accept` returned is open. -/
theorem shutdown_closes_all_iff (calls : List UserCall) :
    ((calls.foldl call new).down.AllClosed ↔ (calls.foldl call new).accepted = 0) ∧
      ((calls.foldl call new).close.AllClosed ↔ (calls.foldl call new).accepted = 0) := by
  have tracks := tracks_run calls
  refine ⟨?_, and_iff_right tracks.close_tracked⟩
  rw [AllClosed, and_iff_right tracks.down_tracked, down]
  split_ifs
  · rfl
  · rfl

/-- A listener, a dialed connection, and its other end from `Accept`. -/
theorem accepted_survives_shutdown :
    let usage :=
      [UserCall.opening .listenTCP true, .opening .dialTCP true, .accept 0].foldl call new
    usage.down.tracked = [] ∧ usage.down.accepted = 1 ∧ usage.close.accepted = 1 := by
  decide

end Usage

inductive OpenPhase where
  | checking (left : ℕ)
  | working
  | registering
  | returned (id : ℕ)
  | failed

inductive ShutdownPhase where
  | down
  | downPrep
  | closePrep
  | closing (ids : List ℕ)
  | finished

/-- An operation and a call of `Down` or `Close`, whose critical sections take turns. -/
structure Race where
  net : LoopbackNetwork
  opening : OpenPhase
  shutdown : ShutdownPhase
  closed : List ℕ

inductive Turn where
  | opening (worked : Bool)
  | shutdown

namespace Race

def start (net : LoopbackNetwork) (opening : Opening) (close : Bool) : Race where
  net := net
  opening := .checking opening.checks
  shutdown := if close then .closePrep else .down
  closed := []

variable (race : Race)

def stepOpening (worked : Bool) : Race :=
  { race with
    net := match race.opening with
      | .registering => race.net.register
      | _ => race.net
    opening := match race.opening with
      | .checking left =>
        if race.net.checkUp then if left ≤ 1 then .working else .checking (left - 1) else .failed
      | .working => if worked then .registering else .failed
      | .registering => .returned race.net.nextID
      | ended => ended }

def closeNext (prepared : LoopbackNetwork × List ℕ) : Race :=
  { race with net := prepared.1, shutdown := .closing prepared.2 }

def stepShutdown : Race :=
  match race.shutdown with
  | .down => { race with shutdown := if race.net.closed then .finished else .downPrep }
  | .downPrep => race.closeNext race.net.downPrep
  | .closePrep => race.closeNext race.net.closePrep
  | .closing [] => { race with shutdown := .finished }
  | .closing (id :: rest) =>
    { race.closeNext (race.net.unregister id, rest) with closed := id :: race.closed }
  | .finished => race

def turn : Turn → Race
  | .opening worked => race.stepOpening worked
  | .shutdown => race.stepShutdown

def run (turns : List Turn) : Race :=
  turns.foldl turn race

def Settled : Prop :=
  race.opening = .failed ∨ ∃ id ∈ race.closed, race.opening = .returned id

/-- The ids that the shutdown has taken out of `closers`, closed or not. -/
def taken : Option (List ℕ) :=
  match race.shutdown with
  | .closing ids => some (ids ++ race.closed)
  | .finished => some race.closed
  | _ => none

/-- Before the shutdown takes the objects, what was found up is up. Then the network is down,
and the ids that were taken are older than the next one. -/
def Consistent : Prop :=
  match race.taken with
  | none => race.closed = [] ∧
    (race.opening = .working ∨ race.opening = .registering → race.net.up = true)
  | some ids => race.net.up = false ∧ ∀ id ∈ ids, id < race.net.nextID

/-- The object of the operation is `caught` or not, and the shutdown takes it or not. -/
def Decided (id : ℕ) (caught : Prop) (race : Race) : Prop :=
  race.opening = .returned id ∧
    match race.taken with
    | none => caught ∧ race.net.up = true ∧ id ∈ race.net.closers
    | some ids => id ∈ ids ↔ caught

variable {race} {id : ℕ} {caught : Prop}

attribute [local grind] turn stepOpening stepShutdown closeNext

theorem Consistent.turn (consistent : race.Consistent) (next : Turn) :
    (race.turn next).Consistent := by
  have fresh := race.net.fresh
  have down_of_closed := race.net.down_of_closed
  unfold Consistent taken at consistent ⊢
  cases next with
  | opening worked =>
    cases opening : race.opening <;> grind [LoopbackNetwork.checkUp_eq]
  | shutdown =>
    cases shutdown : race.shutdown with
    | closing ids => cases ids <;> grind
    | _ => grind

theorem Decided.turn (decided : race.Decided id caught) (next : Turn) :
    (race.turn next).Decided id caught := by
  have down_of_closed := race.net.down_of_closed
  unfold Decided taken at decided ⊢
  cases next with
  | opening worked => grind
  | shutdown =>
    cases shutdown : race.shutdown with
    | closing ids => cases ids <;> grind
    | _ => grind

theorem Consistent.register (consistent : race.Consistent)
    (registering : race.opening = .registering)
    (worked : Bool) :
    (race.turn (.opening worked)).Decided race.net.nextID (race.net.checkUp = true) := by
  unfold Consistent at consistent
  rw [race.net.checkUp_eq]
  refine ⟨by simp [Race.turn, Race.stepOpening, registering], ?_⟩
  rw [show (race.turn (.opening worked)).taken = race.taken from rfl]
  cases taken : race.taken with
  | none =>
    rw [taken] at consistent
    have isUp := consistent.2 (.inr registering)
    simp [Race.turn, Race.stepOpening, registering, LoopbackNetwork.register, isUp]
  | some ids =>
    rw [taken] at consistent
    exact iff_of_false (fun member => Nat.lt_irrefl _ (consistent.2 _ member))
      (by simp [consistent.1])

theorem Decided.settled_iff (decided : race.Decided id caught)
    (finished : race.shutdown = .finished) : race.Settled ↔ caught := by
  rcases decided with ⟨returned, stands⟩
  simp only [taken, finished] at stands
  simpa [Settled, returned] using stands

theorem consistent_start (net : LoopbackNetwork) (opening : Opening) (close : Bool) :
    (start net opening close).Consistent := by
  cases close <;> exact ⟨rfl, by simp [start]⟩

/-- In every interleaving, once both calls have returned, the object is closed exactly if the
network was still up when the operation entered it. -/
theorem settled_iff_registered_up (net : LoopbackNetwork) (opening : Opening) (close : Bool)
    (before after : List Turn) (worked : Bool)
    (registering : ((start net opening close).run before).opening = .registering) (finished :
      ((((start net opening close).run before).turn (.opening worked)).run after).shutdown =
        .finished) :
    ((((start net opening close).run before).turn (.opening worked)).run after).Settled ↔
      ((start net opening close).run before).net.checkUp = true := by
  have consistent : ((start net opening close).run before).Consistent :=
    foldlRecOn before turn (consistent_start net opening close)
      fun _ consistent next _ => consistent.turn next
  have decided := foldlRecOn after turn (consistent.register registering worked)
    fun _ decided next _ => decided.turn next
  exact decided.settled_iff finished

/-- The shutdown comes after the work of `ListenTCP`. -/
theorem settled_listenTCP :
    ((((start .new .listenTCP false).run [.opening true, .opening true]).turn
      (.opening true)).run [.shutdown, .shutdown, .shutdown, .shutdown]).Settled :=
  (settled_iff_registered_up .new .listenTCP false _ _ true rfl rfl).mpr rfl

/-- The whole of `Down` runs while `ListenTCP` works on the address. -/
theorem late_listener_survives :
    let ended := (start .new .listenTCP false).run
      [.opening true, .opening true, .shutdown, .shutdown, .shutdown, .opening true]
    ended.opening = .returned 0 ∧ ended.shutdown = .finished ∧ ended.closed = [] :=
  ⟨rfl, rfl, rfl⟩

end Race

end Gonnect.Loopback
