import Mathlib.Data.List.Count
import Mathlib.Data.Nat.Notation
import Mathlib.Logic.Function.Basic

/-!
# The up state of a router

`Attach`, `Detach`, the events of the backends, `Up`, `Down` and `Close` are critical sections
that run in any order. A call that ends an up period takes the channel of the period with it, and
closes it after it has left the section.
-/

namespace Gonnect.Network

structure Router where
  wantUp : Bool
  autoUp : Bool
  up : Bool
  closed : Bool
  gen : ℕ
  /-- The channels are numbered in the order in which they are made. -/
  done : ℕ
  attached : Fin 16 → Bool
  slotUp : Fin 16 → Bool
  slotGen : Fin 16 → ℕ
  /-- The channels that calls have taken and not closed yet. -/
  taken : List ℕ
  closedDone : List ℕ

/-- The critical sections, and a call that closes a channel. -/
inductive RouterCall where
  | replaceSlot (slot : Fin 16) (attached up : Bool)
  | setSlotUp (slot : Fin 16) (gen : ℕ) (up : Bool)
  | up
  | down
  | close
  | closeDone (done : ℕ)

namespace Router

def new : Router :=
  ⟨true, false, false, false, 1, 0, fun _ => false, fun _ => false, fun _ => 0, [], []⟩

variable (router : Router)

def applyEffectiveState : Router :=
  let up := router.wantUp && router.autoUp && !router.closed
  if router.up = up then
    router
  else if up then
    { router with up := up, gen := router.gen + 1, done := router.done + 1 }
  else
    { router with up := up, gen := router.gen + 1, taken := router.done :: router.taken }

def anySlotUp : Bool :=
  (List.finRange 16).any fun slot => router.attached slot && router.slotUp slot

def applyAutoState : Router :=
  { router with autoUp := router.anySlotUp }.applyEffectiveState

def call : RouterCall → Router
  | .replaceSlot slot attached up =>
    if router.closed then
      router
    else
      { router with
        slotGen := Function.update router.slotGen slot (router.slotGen slot + 1)
        attached := Function.update router.attached slot attached
        slotUp := Function.update router.slotUp slot up }.applyAutoState
  | .setSlotUp slot gen up =>
    if router.closed || router.slotGen slot != gen then
      router
    else
      { router with slotUp := Function.update router.slotUp slot up }.applyAutoState
  | .up => if router.closed then router else { router with wantUp := true }.applyEffectiveState
  | .down => if router.closed then router else { router with wantUp := false }.applyEffectiveState
  | .close =>
    if router.closed then
      router
    else
      { router with
        closed := true, wantUp := false, autoUp := false, up := false, gen := router.gen + 1
        taken := if router.up then router.done :: router.taken else router.taken }
  | .closeDone done =>
    if done ∈ router.taken then
      { router with
        taken := router.taken.erase done, closedDone := done :: router.closedDone }
    else
      router

/-- How often a channel was taken by a call: once, if its up period has ended. -/
structure Sound : Prop where
  auto : router.closed = false → router.autoUp = router.anySlotUp
  effective : router.up = (router.wantUp && router.autoUp && !router.closed)
  made : router.up = true → 0 < router.done
  ended : ∀ done, (router.taken ++ router.closedDone).count done =
    if 0 < done ∧ (done < router.done ∨ done = router.done ∧ router.up = false) then 1 else 0

variable {router}

theorem sound_new : new.Sound where
  auto _ := rfl
  effective := rfl
  made := nofun
  ended done := by simp [new]; omega

theorem sound_applyEffectiveState (auto : router.closed = false → router.autoUp = router.anySlotUp)
    (made : router.up = true → 0 < router.done)
    (ended : ∀ done, (router.taken ++ router.closedDone).count done =
      if 0 < done ∧ (done < router.done ∨ done = router.done ∧ router.up = false) then 1 else 0) :
    router.applyEffectiveState.Sound := by
  simp only [applyEffectiveState]
  split_ifs with same
  · exact ⟨auto, same, made, ended⟩
  · refine ⟨auto, rfl, fun _ => Nat.succ_pos _, fun done => ?_⟩
    grind
  · refine ⟨auto, rfl, by simp_all, fun done => ?_⟩
    grind

theorem Sound.call (sound : router.Sound) (next : RouterCall) : (router.call next).Sound := by
  have unchanged := sound
  rcases sound with ⟨auto, effective, made, ended⟩
  cases next with
  | replaceSlot | setSlotUp =>
    simp only [Router.call]
    split_ifs
    · exact unchanged
    · exact sound_applyEffectiveState (fun _ => rfl) made ended
  | up | down =>
    simp only [Router.call]
    split_ifs
    · exact unchanged
    · exact sound_applyEffectiveState auto made ended
  | close =>
    simp only [Router.call]
    split_ifs
    · exact unchanged
    · refine ⟨nofun, rfl, nofun, fun done => ?_⟩
      grind
    · refine ⟨nofun, rfl, nofun, fun done => ?_⟩
      grind
  | closeDone closing =>
    simp only [Router.call]
    split_ifs with held
    · refine ⟨auto, effective, made, fun done => ?_⟩
      grind
    · exact unchanged

theorem sound_of_run (calls : List RouterCall) : (calls.foldl call new).Sound :=
  List.foldlRecOn calls call sound_new fun _ sound next _ => sound.call next

end Router

end Gonnect.Network
