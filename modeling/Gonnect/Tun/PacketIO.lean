import Gonnect.Tun.Firewall
import Gonnect.Tun.Splitter

/-!
# Reading a tun packet by packet

`IO.Read` returns one packet for each call and keeps the rest of a batch for the calls that
follow. A packet that does not fit the buffer of the caller stays with them if it was kept from
an earlier batch. If it is the first one of a new batch, the whole batch is gone.
-/

namespace Gonnect.Tun.PacketIO

open List

variable {Err : Type}

inductive Failure (Err : Type) where
  | inner (err : Err)
  | eof
  | sizes (err : ReadSizeError)
  | shortBuffer

def packets (ro : ℤ) (inner : InnerRead Err) : List (List UInt8) :=
  (List.range inner.count.toNat).map fun i =>
    ((inner.buffers.bufs.getD i []).drop ro.toNat).take (inner.buffers.sizes.getD i 0).toNat

def fetch (ro : ℤ) (inner : InnerRead Err) : Except (Failure Err) (List (List UInt8)) := do
  if let some err := inner.err then
    throw (.inner err)
  if inner.count = 0 then
    throw .eof
  match validateReadPacketSizes inner.buffers.bufs inner.buffers.sizes ro inner.count with
  | .error err => throw (.sizes err)
  | .ok () => return packets ro inner

structure History where
  pending : List (List UInt8)
  taken : List (List UInt8)
  returned : List (List UInt8)

structure Call (Err : Type) where
  len : ℕ
  inner : InnerRead Err

variable (ro : ℤ) (history : History) (call : Call Err)

/-- A packet that fits is copied and the later ones are kept. Otherwise nothing is changed. -/
def deliver (len : ℕ) (packet : List UInt8) (later : List (List UInt8)) :
    Except (Failure Err) (Option (List UInt8)) × History :=
  if packet.length > len then
    (.error .shortBuffer, history)
  else
    (.ok (some packet), { history with pending := later, returned := history.returned ++ [packet] })

/-- `Read`, with the packet that it copies, if any. -/
def read : Except (Failure Err) (Option (List UInt8)) × History :=
  if call.len = 0 then
    (.ok none, history)
  else
    match history.pending with
    | packet :: later => deliver history call.len packet later
    | [] =>
      match fetch ro call.inner with
      | .error err => (.error err, history)
      | .ok batch =>
        let history := { history with taken := history.taken ++ batch }
        match batch with
        | [] => (.ok none, history)
        | packet :: later => deliver history call.len packet later

def Loses : Prop :=
  call.len ≠ 0 ∧ history.pending = [] ∧ ∃ packet later,
    fetch ro call.inner = .ok (packet :: later) ∧ call.len < packet.length

def Lossless : History → List (Call Err) → Prop
  | _, [] => True
  | history, call :: calls => ¬Loses ro history call ∧ Lossless (read ro history call).2 calls

def run (calls : List (Call Err)) : History :=
  calls.foldl (fun history call => (read ro history call).2) history

def History.held : List (List UInt8) :=
  history.returned ++ history.pending

variable {ro history call}

theorem read_balance :
    ∃ batch, (read ro history call).2.taken = history.taken ++ batch ∧
      (¬Loses ro history call ∧ (read ro history call).2.held = history.held ++ batch ∨
        Loses ro history call ∧ batch ≠ [] ∧ (read ro history call).2.held = history.held) := by
  rcases history with ⟨pending, taken, returned⟩
  by_cases empty : call.len = 0
  · exact ⟨[], by simp [read, Loses, empty]⟩
  cases pending with
  | cons packet later =>
    refine ⟨[], ?_⟩
    simp only [read, Loses, if_neg empty, deliver]
    split_ifs <;> simp [History.held]
  | nil =>
    cases fetched : fetch ro call.inner with
    | error err => exact ⟨[], by simp [read, Loses, empty, fetched]⟩
    | ok batch =>
      refine ⟨batch, ?_⟩
      rcases batch with _ | ⟨packet, later⟩
      · simp [read, Loses, empty, fetched, History.held]
      · by_cases fits : packet.length > call.len <;>
          simp [read, deliver, Loses, empty, fetched, fits, History.held]

theorem run_complete_iff (calls : List (Call Err))
    (bounded : history.held.length ≤ history.taken.length) :
    (run ro history calls).held = (run ro history calls).taken ↔
      history.held = history.taken ∧ Lossless ro history calls := by
  induction calls generalizing history with
  | nil => simp [run, Lossless]
  | cons call calls ih =>
    rcases @read_balance _ ro history call with
      ⟨batch, taken, ⟨keeps, held⟩ | ⟨loses, nonempty, held⟩⟩
    · rw [run, foldl_cons, ← run, ih (by simpa [taken, held] using bounded), taken, held,
        append_left_inj, Lossless, and_iff_right keeps]
    · have shorter : (read ro history call).2.held.length <
          (read ro history call).2.taken.length := by
        have positive := length_pos_iff.mpr nonempty
        rw [taken, held, length_append]
        omega
      rw [run, foldl_cons, ← run, ih shorter.le]
      refine iff_of_false ?_ fun both => both.2.1 loses
      intro both
      rw [both.1] at shorter
      exact lt_irrefl _ shorter

/-- The packets that were taken are the ones that were returned and those that are pending, in
order, exactly if no call takes a batch whose first packet is too long for its buffer. -/
theorem complete_iff_lossless (ro : ℤ) (calls : List (Call Err)) :
    (run ro ⟨[], [], []⟩ calls).held = (run ro ⟨[], [], []⟩ calls).taken ↔
      Lossless ro ⟨[], [], []⟩ calls := by
  rw [run_complete_iff calls le_rfl]
  exact and_iff_right rfl

def twoPackets : InnerRead Unit :=
  ⟨⟨[[1, 2], [3]], [2, 1]⟩, 2, none⟩

/-- A batch of two packets is gone after a read with a buffer of one byte. -/
theorem short_read_drops_batch :
    read 0 ⟨[], [], []⟩ (⟨1, twoPackets⟩ : Call Unit) =
      (.error .shortBuffer, ⟨[], [[1, 2], [3]], []⟩) :=
  rfl

end Gonnect.Tun.PacketIO
