import Gonnect.Foundation.Run
import Mathlib.Data.List.Basic
import Mathlib.Order.MinMax

/-!
# Connections that take bytes back

A `conn` wraps an underlying connection. Bytes that were put back are read first, then an
error that arrived together with bytes, and then the underlying connection.

The underlying connection is given by what its calls of `Read` return: bytes, an error, or
both, and never nothing at all. A call with a small buffer takes the front of what has
arrived. When everything has been taken every call returns the error that ended the stream.
-/

namespace Gonnect.Putback

open List

variable {Error : Type}

/-- What a call of `Read` on the underlying connection returns, given room for it. -/
structure Arrival (Error : Type) where
  bytes : List UInt8
  error : Option Error
  progress : bytes ≠ [] ∨ error ≠ none

/-- The underlying connection: what arrives, and the error that every later call returns. -/
structure Source (Error : Type) where
  arrivals : List (Arrival Error)
  ending : Error

variable (source : Source Error) (bytes : List UInt8) (size : ℕ)

def Source.read (size : ℕ) : (List UInt8 × Option Error) × Source Error :=
  match source.arrivals with
  | [] => (([], some source.ending), source)
  | arrival :: arrivals =>
    if long : size < arrival.bytes.length then
      ((arrival.bytes.take size, none), { source with
        arrivals := ⟨arrival.bytes.drop size, arrival.error,
          .inl (by simp only [ne_eq, drop_eq_nil_iff]; omega)⟩ :: arrivals })
    else
      ((arrival.bytes, arrival.error), { source with arrivals := arrivals })

structure Conn (Error : Type) where
  extra : List UInt8
  deferredErr : Option Error
  source : Source Error

namespace Conn

def new (source : Source Error) : Conn Error where
  extra := []
  deferredErr := none
  source := source

variable (conn : Conn Error)

def putBack (bytes : List UInt8) : Conn Error :=
  if bytes.length = 0 then
    conn
  else if conn.extra.length = 0 then
    { conn with extra := bytes }
  else
    { conn with extra := bytes ++ conn.extra }

def read (size : ℕ) : (List UInt8 × Option Error) × Conn Error :=
  if size = 0 then
    (([], none), conn)
  else if conn.extra.length ≠ 0 then
    ((conn.extra.take size, none), { conn with extra := conn.extra.drop size })
  else
    match conn.deferredErr with
    | some error => (([], some error), { conn with deferredErr := none })
    | none =>
      match conn.source.read size with
      | ((bytes, error), source) =>
        if 0 < bytes.length ∧ error ≠ none then
          ((bytes, none), { conn with source := source, deferredErr := error })
        else
          ((bytes, error), { conn with source := source })

end Conn

def Source.pending : List UInt8 :=
  (source.arrivals.map Arrival.bytes).flatten

def visibleIn : List (Arrival Error) → List UInt8
  | [] => []
  | arrival :: arrivals =>
    arrival.bytes ++ if arrival.error = none then visibleIn arrivals else []

variable (conn : Conn Error)

def Conn.pending : List UInt8 :=
  conn.extra ++ conn.source.pending

def Conn.visible : List UInt8 :=
  conn.extra ++ if conn.deferredErr = none then visibleIn conn.source.arrivals else []

theorem visibleIn_prefix (arrivals : List (Arrival Error)) :
    visibleIn arrivals <+: (arrivals.map Arrival.bytes).flatten := by
  induction arrivals with
  | nil => exact prefix_refl _
  | cons arrival arrivals ih =>
    simp only [visibleIn, map_cons, flatten_cons]
    split_ifs with quiet
    · exact (prefix_append_right_inj _).mpr ih
    · rw [append_nil]
      exact prefix_append _ _

variable (sizes : List ℕ)

theorem Conn.visible_prefix : conn.visible <+: conn.pending := by
  apply (prefix_append_right_inj _).mpr
  split_ifs with quiet
  · exact visibleIn_prefix _
  · exact nil_prefix

@[simp] theorem Conn.pending_putBack : (conn.putBack bytes).pending = bytes ++ conn.pending := by
  unfold putBack
  split_ifs with nothing empty
  · rw [eq_nil_of_length_eq_zero nothing, nil_append]
  · simp [pending, eq_nil_of_length_eq_zero empty]
  · simp [pending]

@[simp] theorem Conn.visible_putBack : (conn.putBack bytes).visible = bytes ++ conn.visible := by
  unfold putBack
  split_ifs with nothing empty
  · rw [eq_nil_of_length_eq_zero nothing, nil_append]
  · simp [visible, eq_nil_of_length_eq_zero empty]
  · simp [visible]

/-- A bound on the reads with room that it takes to get all pending bytes. -/
def Conn.work : ℕ :=
  conn.pending.length + conn.source.arrivals.length + if conn.deferredErr = none then 0 else 1

inductive ReadMeaning (conn : Conn Error) (size : ℕ) :
    (List UInt8 × Option Error) × Conn Error → Prop where
  | bytes (bytes : List UInt8) (next : Conn Error) (nonempty : bytes ≠ [])
      (fits : bytes.length ≤ size) (taken : conn.pending = bytes ++ next.pending)
      (seen : conn.visible = bytes ++ next.visible) (less : next.work < conn.work) :
      ReadMeaning conn size ((bytes, none), next)
  | error (error : Error) (next : Conn Error) (kept : next.pending = conn.pending)
      (nothing : conn.visible = []) (less : next.work < conn.work ∨ conn.pending = []) :
      ReadMeaning conn size (([], some error), next)

open ReadMeaning

theorem Conn.read_meaning {size : ℕ} (room : 0 < size) :
    ReadMeaning conn size (conn.read size) := by
  rcases conn with ⟨extra, deferredErr, arrivals, ending⟩
  unfold read
  rw [if_neg (Nat.ne_of_gt room)]
  by_cases buffered : extra.length ≠ 0
  · rw [if_pos buffered]
    apply ReadMeaning.bytes
    · simp only [ne_eq, take_eq_nil_iff]
      rintro (empty | empty)
      · omega
      · exact buffered (by rw [empty, length_nil])
    · exact length_take_le _ _
    · simp [pending, ← append_assoc, take_append_drop]
    · simp [visible, ← append_assoc, take_append_drop]
    · simp only [work, pending, length_append, length_drop]
      omega
  have drained : extra = [] := eq_nil_of_length_eq_zero (not_not.mp buffered)
  subst drained
  rw [if_neg (by simp)]
  rcases deferredErr with _ | error
  swap
  · exact ReadMeaning.error error _ rfl (by simp [visible]) (.inl (by simp [work, pending]))
  rcases arrivals with _ | ⟨arrival, arrivals⟩
  · simp only [Source.read, length_nil, Nat.lt_irrefl, false_and, if_false]
    exact error ending _ rfl (by simp [visible, visibleIn])
      (.inr (by simp [pending, Source.pending]))
  simp only [Source.read]
  by_cases long : size < arrival.bytes.length
  · simp only [dif_pos long, ne_eq, not_true_eq_false, and_false, if_false]
    apply ReadMeaning.bytes
    · simp only [ne_eq, take_eq_nil_iff]
      rintro (empty | empty)
      · omega
      · simp [empty] at long
    · exact length_take_le _ _
    · simp [pending, Source.pending, ← append_assoc]
    · simp [visible, visibleIn, ← append_assoc]
    · simp only [work, pending, Source.pending, map_cons, flatten_cons,
        length_append, length_drop, length_cons]
      omega
  · simp only [dif_neg long]
    by_cases both : 0 < arrival.bytes.length ∧ arrival.error ≠ none
    · rw [if_pos both]
      apply ReadMeaning.bytes
      · exact ne_nil_of_length_pos both.1
      · omega
      · simp [pending, Source.pending]
      · simp [visible, visibleIn, both.2]
      · simp only [work, pending, Source.pending, map_cons, flatten_cons,
          length_append, length_cons, both.2, if_false, if_true]
        omega
    · rw [if_neg both]
      rcases failed : arrival.error with _ | error
      · have nonempty : arrival.bytes ≠ [] :=
          arrival.progress.resolve_right (not_not.mpr failed)
        apply ReadMeaning.bytes _ _ nonempty
        · omega
        · simp [pending, Source.pending]
        · simp [visible, visibleIn, failed]
        · simp only [work, pending, Source.pending, map_cons, flatten_cons,
            length_append, length_cons]
          omega
      · have empty : arrival.bytes = [] := by
          by_contra nonempty
          exact both ⟨length_pos_of_ne_nil nonempty, by simp [failed]⟩
        rw [empty]
        exact ReadMeaning.error error _ (by simp [pending, Source.pending, empty])
          (by simp [visible, visibleIn, empty, failed])
          (.inl (by simp [work, pending, Source.pending, empty]))

/-- The bytes of successive reads with the given buffer sizes, whatever errors lie between. -/
def Conn.drain : Conn Error → List ℕ → List UInt8 × Conn Error
  | conn, [] => ([], conn)
  | conn, size :: sizes =>
    let ((bytes, _), next) := conn.read size
    let (more, last) := drain next sizes
    (bytes ++ more, last)

/--
A reader of the connection receives the stream: never anything else, and all of it
when it keeps reading.
-/
def Conn.Delivers (stream : List UInt8) : Prop :=
  (∀ sizes, (conn.drain sizes).1 <+: stream) ∧
    ∃ count, ∀ sizes, count ≤ sizes.length → (∀ size ∈ sizes, 0 < size) →
      (conn.drain sizes).1 = stream

theorem Conn.drain_cons (sizes : List ℕ) :
    conn.drain (size :: sizes) =
      ((conn.read size).1.1 ++ ((conn.read size).2.drain sizes).1,
        ((conn.read size).2.drain sizes).2) :=
  rfl

theorem Conn.read_pending : (conn.read size).1.1 ++ (conn.read size).2.pending = conn.pending := by
  rcases Nat.eq_zero_or_pos size with rfl | room
  · simp [read]
  · have meaning := conn.read_meaning room
    generalize conn.read size = outcome at meaning
    cases meaning with
    | bytes bytes next nonempty fits taken seen less => exact taken.symm
    | error error next kept nothing less => exact kept

theorem Conn.drain_pending :
    ∀ conn : Conn Error, (conn.drain sizes).1 ++ (conn.drain sizes).2.pending = conn.pending := by
  induction sizes with
  | nil => exact fun conn => rfl
  | cons size sizes ih =>
    intro conn
    rw [drain_cons, append_assoc, ih, read_pending]

theorem Conn.drain_all :
    ∀ conn : Conn Error, conn.work ≤ sizes.length → (∀ size ∈ sizes, 0 < size) →
      (conn.drain sizes).2.pending = [] := by
  induction sizes with
  | nil =>
    intro conn enough _
    apply eq_nil_of_length_eq_zero
    simp only [work, length_nil] at enough
    simp only [drain]
    omega
  | cons size sizes ih =>
    intro conn enough rooms
    rw [drain_cons]
    have nothing (next : Conn Error) (empty : next.pending = []) :
        (next.drain sizes).2.pending = [] := by
      have whole := drain_pending sizes next
      rw [empty] at whole
      exact (append_eq_nil_iff.mp whole).2
    have laterRooms : ∀ other ∈ sizes, 0 < other :=
      fun other isLater => rooms other (mem_cons_of_mem _ isLater)
    simp only [length_cons] at enough
    have meaning := conn.read_meaning (rooms size mem_cons_self)
    generalize conn.read size = outcome at meaning
    cases meaning with
    | bytes bytes next nonempty fits taken seen less =>
      exact ih next (by omega) laterRooms
    | error error next kept _ less =>
      rcases less with less | empty
      · exact ih next (by omega) laterRooms
      · exact nothing next (by rw [kept, empty])

theorem Conn.delivers_pending : conn.Delivers conn.pending := by
  constructor
  · intro sizes
    exact ⟨_, conn.drain_pending sizes⟩
  · refine ⟨conn.work, ?_⟩
    intro sizes enough rooms
    have whole := conn.drain_pending sizes
    rwa [conn.drain_all sizes enough rooms, append_nil] at whole

theorem Conn.delivers_iff {conn : Conn Error} {stream : List UInt8} :
    conn.Delivers stream ↔ stream = conn.pending := by
  constructor
  · rintro ⟨_, count, all⟩
    rcases conn.delivers_pending with ⟨_, otherCount, otherAll⟩
    have rooms : ∀ size ∈ replicate (max count otherCount) 1, 0 < size := by simp
    rw [← all (replicate (max count otherCount) 1)
      (by rw [length_replicate]; omega) rooms]
    exact otherAll _ (by rw [length_replicate]; omega) rooms
  · rintro rfl
    exact conn.delivers_pending

/-- The bytes and errors that are still to come, in their order. -/
def Conn.items : List (UInt8 ⊕ Error) :=
  conn.extra.map .inl ++ conn.deferredErr.toList.map .inr ++
    conn.source.arrivals.flatMap fun arrival =>
      arrival.bytes.map .inl ++ arrival.error.toList.map .inr

/-- The calls of the read side, each with what it returns. -/
inductive Use (Error : Type) where
  | putBack (data : List UInt8)
  | read (size : ℕ) (data : List UInt8) (failure : Option Error)

def Conn.Serves (before : Conn Error) : Use Error → Conn Error → Prop
  | .putBack data, after => before.putBack data = after
  | .read size data failure, after => before.read size = ((data, failure), after)

/-- A plain stream of bytes and errors, which is read off its front; at its end every read
fails with the same error. -/
def Streams (ending : Error) (before : List (UInt8 ⊕ Error)) :
    Use Error → List (UInt8 ⊕ Error) → Prop
  | .putBack data, after => data.map .inl ++ before = after
  | .read size data none, after =>
    data.length ≤ size ∧ (data = [] → size = 0) ∧ data.map .inl ++ after = before
  | .read _ data (some failure), after =>
    data = [] ∧ (.inr failure :: after = before ∨ before = [] ∧ after = [] ∧ failure = ending)

theorem Conn.Serves.streams {before after : Conn Error} {use : Use Error}
    (served : before.Serves use after) :
    after.source.ending = before.source.ending ∧
      Streams before.source.ending before.items use after.items := by
  cases use with
  | putBack data =>
    cases served
    unfold putBack
    split_ifs with nothing empty
    · simp_all [Streams]
    · simp_all [Streams, items]
    · simp [Streams, items]
  | read size data failure =>
    rcases before with ⟨extra, deferredErr, arrivals, ending⟩
    rcases size with _ | size
    · cases served
      simp [Streams]
    rcases extra with _ | ⟨first, extra⟩
    swap
    · cases served
      simp [Streams, items, ← append_assoc]
    rcases deferredErr with _ | deferred
    swap
    · cases served
      simp [Streams, items]
    rcases arrivals with _ | ⟨⟨front, failed, progress⟩, arrivals⟩
    · cases served
      simp [Streams, items]
    by_cases long : size + 1 < front.length
    · simp [Serves, read, Source.read, long] at served
      rcases served with ⟨⟨rfl, rfl⟩, rfl⟩
      simp [Streams, items, ← append_assoc]
      grind
    · simp [Serves, read, Source.read, long] at served
      cases failed <;> cases front <;> simp_all [Streams, items] <;> grind

/-- Whatever is read and put back, and in whatever order, a connection behaves like the stream
of all that arrives: an error comes after the bytes before it and after those put back there. -/
theorem serves_stream {source : Source Error} {uses : List (Use Error)} {conn : Conn Error}
    (run : Run Conn.Serves (.new source) uses conn) :
    Run (Streams source.ending) (Conn.new source).items uses conn.items := by
  have followed : conn.source.ending = source.ending ∧
      Run (Streams source.ending) (Conn.new source).items uses conn.items := by
    induction run with
    | nil => exact ⟨rfl, .nil⟩
    | snoc _ taken ih =>
      rcases taken.streams with ⟨same, streams⟩
      rw [ih.1] at same streams
      exact ⟨same, ih.2.snoc streams⟩
  exact followed.2

theorem serves_stream_put_back :
    Run (Streams ()) [.inl 1, .inr ()] [.read 2 [1] none, .putBack [0]] [.inl 0, .inr ()] := by
  let source : Source Unit := ⟨[⟨[1], some (), .inr nofun⟩], ()⟩
  have run : Run Conn.Serves (.new source) [.read 2 [1] none, .putBack [0]]
      ⟨[0], some (), [], ()⟩ :=
    .snoc (Run.single (by rfl : Conn.Serves _ _ ⟨[], some (), [], ()⟩)) rfl
  exact serves_stream run

end Gonnect.Putback
