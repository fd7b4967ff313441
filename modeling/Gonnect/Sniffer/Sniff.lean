import Gonnect.Putback.Conn
import Gonnect.Sniffer.ChunkFree

/-!
# Choosing a classifier by the first bytes of a connection

`Sniff` asks every classifier for its state, first on nothing and then on one byte after the
other, and returns the lowest index among the classifiers that match first. Bytes are read
in batches and put back on every way out.

Under the contract of `feed` (`Obeys`) the choice depends on the bytes before the next error
and on the length of the buffer only (`Selects`).
-/

namespace Gonnect.Sniffer

open Putback List Option Protocol Classifier Forall₂

section Model

variable {Object Error : Type} (feed : Object → List UInt8 → Object × State)

/-- The first loop of `Sniff`: an index, or the classifiers with their states and `active`. -/
def sniffStart : ℕ → List Object → Except ℕ (List (Object × State) × ℕ)
  | _, [] => .ok ([], 0)
  | index, object :: objects => do
      let (object, state) := feed object []
      if state = .matched then
        .error index
      let (slots, active) ← sniffStart (index + 1) objects
      return ((object, state) :: slots, if state = .needMore then active + 1 else active)

/-- The loop over the classifiers for one byte: their states, `matchingIndex` and `active`. -/
def sniffRound (byte : UInt8) :
    ℕ → List (Object × State) → Option ℕ → ℕ → List (Object × State) × Option ℕ × ℕ
  | _, [], matchingIndex, active => ([], matchingIndex, active)
  | index, (object, state) :: slots, matchingIndex, active =>
    if state ≠ .needMore then
      let (slots, matchingIndex, active) :=
        sniffRound byte (index + 1) slots matchingIndex active
      ((object, state) :: slots, matchingIndex, active)
    else
      let (object, state) := feed object [byte]
      let (matchingIndex, active) :=
        match state with
        | .needMore => (matchingIndex, active)
        | .matched => (if matchingIndex = none then some index else matchingIndex, active - 1)
        | .mismatch => (matchingIndex, active - 1)
      let (slots, matchingIndex, active) :=
        sniffRound byte (index + 1) slots matchingIndex active
      ((object, state) :: slots, matchingIndex, active)

/-- The loop over the bytes of one read: the index to return, or the states after the bytes. -/
def sniffChunk : List UInt8 → List (Object × State) → ℕ →
    Except (Option ℕ) (List (Object × State) × ℕ)
  | [], slots, active => .ok (slots, active)
  | byte :: bytes, slots, active =>
    match sniffRound feed byte 0 slots none active with
    | (slots, matchingIndex, active) =>
      if matchingIndex ≠ none then
        .error matchingIndex
      else if active = 0 then
        .error none
      else
        sniffChunk bytes slots active

structure Sniffed (Error : Type) where
  index : Option ℕ
  error : Option Error
  conn : Conn Error

/-- The read loop. Every way out puts the bytes in `used` back. -/
def sniffLoop (limit : ℕ) (conn : Conn Error) (used : List UInt8)
    (slots : List (Object × State)) (active : ℕ) : Sniffed Error :=
  if used.length < limit then
    match conn.read (limit - used.length) with
    | ((bytes, readErr), conn) =>
      match sniffChunk feed bytes slots active with
      | .error index => ⟨index, none, conn.putBack (used ++ bytes)⟩
      | .ok (slots, active) =>
        match readErr with
        | some error => ⟨none, some error, conn.putBack (used ++ bytes)⟩
        | none =>
          if bytes.length = 0 then
            ⟨none, none, conn.putBack (used ++ bytes)⟩
          else
            sniffLoop limit conn (used ++ bytes) slots active
  else
    ⟨none, none, conn.putBack used⟩
termination_by limit - used.length
decreasing_by
  simp only [length_append]
  omega

/-- `Sniff` with a buffer of `limit` bytes. -/
def sniff (limit : ℕ) (conn : Conn Error) (objects : List Object) : Sniffed Error :=
  match sniffStart feed 0 objects with
  | .error index => ⟨some index, none, conn⟩
  | .ok (slots, active) =>
    if active = 0 ∨ limit = 0 then
      ⟨none, none, conn⟩
    else
      sniffLoop feed limit conn [] slots active

end Model

abbrev Verdict := List UInt8 → State

def Verdict.Final (verdict : Verdict) : Prop :=
  ∀ seen more, verdict seen ≠ .needMore → verdict (seen ++ more) = verdict seen

variable (verdicts : List Verdict)

def NoneMatch (bytes : List UInt8) : Prop :=
  ∀ verdict ∈ verdicts, verdict bytes ≠ .matched

def lowestMatch (bytes : List UInt8) : Option ℕ :=
  verdicts.findIdx? fun verdict => verdict bytes = .matched

/-- The lowest index at the shortest front of the window on which a classifier matches. -/
def Selects (window : List UInt8) : Option ℕ → Prop
  | some index => ∃ count ≤ window.length,
      lowestMatch verdicts (window.take count) = some index ∧
        ∀ earlier < count, NoneMatch verdicts (window.take earlier)
  | none => ∀ count ≤ window.length, NoneMatch verdicts (window.take count)

def firstMatch : List UInt8 → List UInt8 → Option ℕ
  | _, [] => none
  | past, byte :: rest =>
    (lowestMatch verdicts (past ++ [byte])).or (firstMatch (past ++ [byte]) rest)

variable {verdicts} {classifier : Classifier}

theorem lowestMatch_eq_none_iff {bytes : List UInt8} :
    lowestMatch verdicts bytes = none ↔ NoneMatch verdicts bytes := by
  simp [lowestMatch, NoneMatch]

theorem lowestMatch_cons (verdict : Verdict) (verdicts : List Verdict) (bytes : List UInt8)
    (index : ℕ) : (lowestMatch (verdict :: verdicts) bytes).map (· + index) =
      if verdict bytes = .matched then some index
      else (lowestMatch verdicts bytes).map (· + (index + 1)) := by
  by_cases isMatch : verdict bytes = .matched
  · simp [lowestMatch, findIdx?_cons, isMatch]
  · simp [lowestMatch, findIdx?_cons, isMatch, Function.comp_def, add_assoc, add_comm 1]

theorem firstMatch_append (verdicts : List Verdict) (front back : List UInt8) :
    ∀ past, firstMatch verdicts past (front ++ back) =
      (firstMatch verdicts past front).or (firstMatch verdicts (past ++ front) back) := by
  induction front with
  | nil => simp [firstMatch]
  | cons byte front ih =>
    intro past
    simp [cons_append, firstMatch, ih, Option.or_assoc, append_assoc, nil_append]

theorem firstMatch_rejected (final : ∀ verdict ∈ verdicts, verdict.Final) (rest : List UInt8) :
    ∀ past, (∀ verdict ∈ verdicts, verdict past = .mismatch) →
      firstMatch verdicts past rest = none := by
  induction rest with
  | nil => exact fun _ _ => rfl
  | cons byte rest ih =>
    intro past rejected
    have still : ∀ verdict ∈ verdicts, verdict (past ++ [byte]) = .mismatch := by
      intro verdict isMember
      have settled := rejected verdict isMember
      rw [final verdict isMember past [byte] (by simp [settled]), settled]
    have quiet : lowestMatch verdicts (past ++ [byte]) = none := by
      rw [lowestMatch_eq_none_iff]
      intro verdict isMember
      simp [still verdict isMember]
    rw [firstMatch, quiet, none_or, ih _ still]

theorem selects_firstMatch (rest : List UInt8) :
    ∀ past, (∀ count ≤ past.length, NoneMatch verdicts (past.take count)) →
      Selects verdicts (past ++ rest) (firstMatch verdicts past rest) := by
  induction rest with
  | nil =>
    intro past quiet
    simpa [firstMatch, Selects] using quiet
  | cons byte rest ih =>
    intro past quiet
    have fronts (count : ℕ) (short : count ≤ past.length) :
        (past ++ byte :: rest).take count = past.take count :=
      take_append_of_le_length short
    have whole : past ++ byte :: rest = past ++ [byte] ++ rest := by simp
    rw [firstMatch]
    rcases found : lowestMatch verdicts (past ++ [byte]) with _ | index
    · rw [none_or, whole]
      apply ih
      intro count short
      rcases lt_or_ge past.length count with last | inside
      · have all : (past ++ [byte]).take count = past ++ [byte] :=
          take_of_length_le (by simp only [length_append, length_singleton]; omega)
        rwa [all, ← lowestMatch_eq_none_iff]
      · rw [take_append_of_le_length inside]
        exact quiet count inside
    · rw [some_or]
      refine ⟨past.length + 1, by simp, ?_, ?_⟩
      · rw [whole, take_append_of_le_length (by simp), take_of_length_le (by simp)]
        exact found
      · intro earlier less
        rw [fronts earlier (by omega)]
        exact quiet earlier (by omega)

def choice (verdicts : List Verdict) (window : List UInt8) : Option ℕ :=
  (lowestMatch verdicts []).or (firstMatch verdicts [] window)

theorem selects_choice (verdicts : List Verdict) (window : List UInt8) :
    Selects verdicts window (choice verdicts window) := by
  unfold choice
  rcases found : lowestMatch verdicts [] with _ | index
  · rw [none_or]
    apply selects_firstMatch window []
    intro count short
    rw [take_nil]
    exact lowestMatch_eq_none_iff.mp found
  · rw [some_or]
    exact ⟨0, Nat.zero_le _, found, by simp⟩

section Contract

variable {Object Error : Type} (feed : Object → List UInt8 → Object × State)

/--
The contract of `Feed` for an object that has been fed `past`: whatever it is fed, in
whatever pieces, it returns the verdict on all bytes so far, and verdicts are final.
-/
structure Obeys (verdict : Verdict) (past : List UInt8) (object : Object) : Prop where
  answers : ∀ (chunks : List (List UInt8)) (chunk : List UInt8),
    (feed (chunks.foldl (fun current piece => (feed current piece).1) object) chunk).2 =
      verdict (past ++ (chunks.flatten ++ chunk))
  final : verdict.Final

variable {feed} {past : List UInt8} {slots : List (Object × State)} {verdict : Verdict}
    {object : Object} {objects : List Object}

variable (chunk : List UInt8)

theorem Obeys.state (obeys : Obeys feed verdict past object) :
    (feed object chunk).2 = verdict (past ++ chunk) :=
  obeys.answers [] chunk

theorem Obeys.fed (obeys : Obeys feed verdict past object) :
    Obeys feed verdict (past ++ chunk) (feed object chunk).1 where
  answers chunks last := by
    have answered := obeys.answers (chunk :: chunks) last
    simpa only [foldl_cons, flatten_cons, append_assoc] using answered
  final := obeys.final

structure Tracks (feed : Object → List UInt8 → Object × State) (past : List UInt8)
    (verdict : Verdict) (slot : Object × State) : Prop where
  state : slot.2 = verdict past
  final : verdict.Final
  obeys : slot.2 = .needMore → Obeys feed verdict past slot.1

def openSlots (slots : List (Object × State)) : ℕ :=
  slots.countP fun slot => slot.2 = .needMore

theorem openSlots_cons (slot : Object × State) (slots : List (Object × State)) :
    openSlots (slot :: slots) = openSlots slots + if slot.2 = .needMore then 1 else 0 := by
  simp [openSlots, countP_cons, decide_eq_true_eq]

theorem sniffRound_spec (byte : UInt8) (tracks : Forall₂ (Tracks feed past) verdicts slots) :
    ∀ (index : ℕ) (matchingIndex : Option ℕ) (active : ℕ), NoneMatch verdicts past →
      openSlots slots ≤ active →
      ∃ nextSlots nextActive,
        sniffRound feed byte index slots matchingIndex active =
          (nextSlots, matchingIndex.or ((lowestMatch verdicts (past ++ [byte])).map (· + index)),
            nextActive) ∧
        Forall₂ (Tracks feed (past ++ [byte])) verdicts nextSlots ∧
        nextActive + openSlots slots = active + openSlots nextSlots := by
  induction tracks with
  | nil =>
    intro index matchingIndex active quiet enough
    exact ⟨[], active, by simp [sniffRound, lowestMatch], nil, rfl⟩
  | cons track tracks ih =>
    rename_i verdict slot verdicts slots
    rcases slot with ⟨object, state⟩
    intro index matchingIndex active quiet enough
    have quietRest : NoneMatch verdicts past :=
      fun other isMember => quiet other (mem_cons_of_mem _ isMember)
    by_cases settled : state ≠ .needMore
    · -- a classifier that has rejected is not fed
      have same : verdict (past ++ [byte]) = verdict past :=
        track.final past [byte] (track.state ▸ settled)
      have noMatch : verdict (past ++ [byte]) ≠ .matched :=
        same ▸ quiet verdict mem_cons_self
      rw [openSlots_cons, if_neg settled] at enough ⊢
      rcases ih (index + 1) matchingIndex active quietRest enough with
        ⟨nextSlots, nextActive, round, nextTracks, counted⟩
      refine ⟨(object, state) :: nextSlots, nextActive, ?_, ?_, ?_⟩
      · simp only [sniffRound, if_pos settled, round, lowestMatch_cons, if_neg noMatch]
      · exact cons ⟨track.state.trans same.symm, track.final,
          fun more => absurd more settled⟩ nextTracks
      · rw [openSlots_cons, if_neg settled]
        exact counted
    · have isOpen : state = .needMore := not_not.mp settled
      subst isOpen
      have obeys := track.obeys rfl
      have answered := obeys.state [byte]
      have later := obeys.fed [byte]
      rw [openSlots_cons, if_pos rfl] at enough ⊢
      simp only [sniffRound, ne_eq, not_true_eq_false, if_false]
      generalize feed object [byte] = outcome at answered later
      rcases outcome with ⟨next, state⟩
      simp only at answered later
      have trackNext : Tracks feed (past ++ [byte]) verdict (next, state) :=
        ⟨answered, track.final, fun _ => later⟩
      have first : (if matchingIndex = none then some index else matchingIndex) =
          matchingIndex.or (some index) := by
        cases matchingIndex <;> rfl
      rcases ih (index + 1)
        (if state = .matched then matchingIndex.or (some index) else matchingIndex)
        (if state = .needMore then active else active - 1) quietRest (by split_ifs <;> omega) with
        ⟨nextSlots, nextActive, round, nextTracks, counted⟩
      refine ⟨(next, state) :: nextSlots, nextActive, ?_, .cons trackNext nextTracks, ?_⟩
      · rw [lowestMatch_cons, ← answered]
        cases state <;> simp only [reduceCtorEq, if_true, if_false] at round <;>
          simp only [first, round, reduceCtorEq, if_true, if_false, Option.or_assoc, some_or]
      · rw [openSlots_cons]
        cases state <;> simp at counted ⊢ <;> omega

theorem all_rejected (tracks : Forall₂ (Tracks feed past) verdicts slots)
    (quiet : NoneMatch verdicts past) (closed : openSlots slots = 0) :
    ∀ verdict ∈ verdicts, verdict past = .mismatch := by
  induction tracks with
  | nil => simp
  | cons track tracks ih =>
    rename_i verdict slot verdicts slots
    rw [openSlots_cons, Nat.add_eq_zero_iff] at closed
    have settled : slot.2 ≠ .needMore := by
      intro isOpen
      simp [isOpen] at closed
    intro other isMember
    rcases mem_cons.mp isMember with rfl | isLater
    · have noMatch := quiet other mem_cons_self
      rw [track.state] at settled
      cases found : other past <;> simp_all
    · exact ih (fun one isOne => quiet one (mem_cons_of_mem _ isOne))
        closed.1 other isLater

theorem finals_of_tracks (tracks : Forall₂ (Tracks feed past) verdicts slots) :
    ∀ verdict ∈ verdicts, verdict.Final := by
  induction tracks with
  | nil => simp
  | cons track tracks ih =>
    intro other isMember
    rcases mem_cons.mp isMember with rfl | isLater
    · exact track.final
    · exact ih other isLater

theorem sniffChunk_spec (bytes : List UInt8) :
    ∀ {past : List UInt8} {slots : List (Object × State)},
      Forall₂ (Tracks feed past) verdicts slots → NoneMatch verdicts past →
      match sniffChunk feed bytes slots (openSlots slots) with
      | .error index => ∀ rest, firstMatch verdicts past (bytes ++ rest) = index
      | .ok (nextSlots, active) => active = openSlots nextSlots ∧
          Forall₂ (Tracks feed (past ++ bytes)) verdicts nextSlots ∧
          NoneMatch verdicts (past ++ bytes) ∧ firstMatch verdicts past bytes = none := by
  induction bytes with
  | nil =>
    intro past slots tracks quiet
    exact ⟨rfl, by rwa [append_nil], by rwa [append_nil], rfl⟩
  | cons byte bytes ih =>
    intro past slots tracks quiet
    rcases sniffRound_spec byte tracks 0 none (openSlots slots) quiet (le_refl _) with
      ⟨nextSlots, active, round, nextTracks, counted⟩
    have isCount : active = openSlots nextSlots := by omega
    subst isCount
    simp only [Option.none_or, add_zero, Option.map_id'] at round
    simp only [sniffChunk, round]
    rcases found : lowestMatch verdicts (past ++ [byte]) with _ | index
    · simp only [ne_eq, not_true_eq_false, if_false]
      have stillQuiet := lowestMatch_eq_none_iff.mp found
      by_cases closed : openSlots nextSlots = 0
      · rw [if_pos closed]
        intro rest
        rw [cons_append, firstMatch, found, none_or]
        exact firstMatch_rejected (finals_of_tracks tracks) _ _
          (all_rejected nextTracks stillQuiet closed)
      · rw [if_neg closed]
        have continued := ih nextTracks stillQuiet
        generalize sniffChunk feed bytes nextSlots (openSlots nextSlots) = outcome at continued ⊢
        rcases outcome with index | ⟨last, count⟩
        · intro rest
          rw [cons_append, firstMatch, found, none_or]
          exact continued rest
        · rcases continued with ⟨isCount, lastTracks, lastQuiet, nothing⟩
          rw [append_assoc] at lastTracks lastQuiet
          refine ⟨isCount, lastTracks, lastQuiet, ?_⟩
          rw [firstMatch, found, none_or]
          exact nothing
    · simp only [ne_eq, reduceCtorEq, not_false_eq_true, if_true]
      intro rest
      rw [cons_append, firstMatch, found, Option.some_or]

structure LoopResult (verdicts : List Verdict) (limit : ℕ) (conn : Conn Error)
    (used : List UInt8) (outcome : Sniffed Error) : Prop where
  index : outcome.index =
    firstMatch verdicts used (conn.visible.take (limit - used.length))
  pending : outcome.conn.pending = used ++ conn.pending
  visible : used ++ conn.visible <+: outcome.conn.visible
  undisturbed : outcome.error = none → outcome.conn.visible = used ++ conn.visible

theorem LoopResult.of_putBack {verdicts : List Verdict} {limit : ℕ} {conn next : Conn Error}
    {used bytes : List UInt8} {index : Option ℕ}
    (isIndex : index = firstMatch verdicts used (conn.visible.take (limit - used.length)))
    (taken : conn.pending = bytes ++ next.pending) (seen : conn.visible = bytes ++ next.visible) :
    LoopResult verdicts limit conn used ⟨index, none, next.putBack (used ++ bytes)⟩ where
  index := isIndex
  pending := by simp [taken]
  visible := by simp [seen]
  undisturbed _ := by simp [seen]

theorem sniffLoop_result (limit : ℕ) :
    ∀ (conn : Conn Error) (used : List UInt8) (slots : List (Object × State)),
      Forall₂ (Tracks feed used) verdicts slots → NoneMatch verdicts used →
      LoopResult verdicts limit conn used
        (sniffLoop feed limit conn used slots (openSlots slots)) := by
  intro conn used slots tracks quiet
  induction remaining : limit - used.length using Nat.strong_induction_on
    generalizing conn used slots with
  | _ remaining ih =>
    rw [sniffLoop]
    by_cases full : used.length < limit
    swap
    · rw [if_neg full]
      have nothing : limit - used.length = 0 := by omega
      simpa using @LoopResult.of_putBack _ verdicts limit conn conn used [] none
        (by simp [nothing, firstMatch]) rfl rfl
    rw [if_pos full]
    have meaning := conn.read_meaning (Nat.sub_pos_of_lt full)
    generalize conn.read (limit - used.length) = outcome at meaning
    cases meaning with
    | error error next kept nothing less =>
      simp only [sniffChunk, append_nil]
      exact ⟨by simp [nothing, firstMatch], by simp [kept], by simp [nothing], by simp⟩
    | bytes bytes next nonempty fits taken seen less =>
      have window : conn.visible.take (limit - used.length) =
          bytes ++ next.visible.take (limit - used.length - bytes.length) := by
        rw [seen, take_append, take_of_length_le fits]
      have chunk := sniffChunk_spec bytes tracks quiet
      dsimp only
      generalize sniffChunk feed bytes slots (openSlots slots) = fed at chunk ⊢
      rcases fed with index | ⟨nextSlots, active⟩
      · exact LoopResult.of_putBack (by rw [window, chunk]) taken seen
      · rcases chunk with ⟨rfl, nextTracks, nextQuiet, nothing⟩
        have positive := length_pos_of_ne_nil nonempty
        simp only [if_neg (ne_of_gt positive)]
        have later := ih _ (by simp only [length_append]; omega) next
          (used ++ bytes) nextSlots nextTracks nextQuiet rfl
        have remainder : limit - (used ++ bytes).length =
            limit - used.length - bytes.length := by
          simp only [length_append]
          omega
        refine ⟨?_, ?_, ?_, ?_⟩
        · rw [later.index, window, firstMatch_append, nothing, none_or, remainder]
        · rw [later.pending, taken, append_assoc]
        · simpa only [seen, append_assoc] using later.visible
        · intro noError
          rw [later.undisturbed noError, seen, append_assoc]

section

variable (obey : Forall₂ (fun verdict object => Obeys feed verdict [] object) verdicts objects)

include obey

theorem sniffStart_spec :
    ∀ index, match sniffStart feed index objects with
      | .error found => (lowestMatch verdicts []).map (· + index) = some found
      | .ok (slots, active) => lowestMatch verdicts [] = none ∧
          Forall₂ (Tracks feed []) verdicts slots ∧ active = openSlots slots := by
  induction obey with
  | nil => exact fun index => ⟨rfl, nil, rfl⟩
  | cons obeys obey ih =>
    rename_i verdict object verdicts objects
    intro index
    have answered := obeys.state []
    have later := obeys.fed []
    simp only [sniffStart]
    generalize feed object [] = outcome at answered later
    rcases outcome with ⟨next, state⟩
    simp only [append_nil] at answered later
    by_cases isMatch : state = .matched
    · rw [if_pos isMatch]
      change (lowestMatch (verdict :: verdicts) []).map (· + index) = some index
      rw [lowestMatch_cons, ← answered, if_pos isMatch]
    · rw [if_neg isMatch]
      have noMatch : verdict [] ≠ .matched := answered ▸ isMatch
      have continued := ih (index + 1)
      generalize sniffStart feed (index + 1) objects = rest at continued ⊢
      rcases rest with found | ⟨slots, active⟩
      · exact (lowestMatch_cons _ _ _ index).trans ((if_neg noMatch).trans continued)
      · rcases continued with ⟨nothing, tracks, rfl⟩
        refine ⟨?_, cons ⟨answered, obeys.final, fun _ => later⟩ tracks, ?_⟩
        · simp only [lowestMatch] at nothing
          simp [lowestMatch, findIdx?_cons, noMatch, nothing]
        · rw [openSlots_cons]
          split_ifs <;> rfl

/-- The call as a whole, in terms of the choice on the bytes within the buffer. -/
theorem sniff_choice (limit : ℕ) (conn : Conn Error) :
    (sniff feed limit conn objects).index = choice verdicts (conn.visible.take limit) ∧
    (sniff feed limit conn objects).conn.pending = conn.pending ∧
    conn.visible <+: (sniff feed limit conn objects).conn.visible ∧
    ((sniff feed limit conn objects).error = none →
      (sniff feed limit conn objects).conn.visible = conn.visible) := by
  have start := sniffStart_spec obey 0
  unfold sniff choice
  generalize sniffStart feed 0 objects = outcome at start ⊢
  rcases outcome with found | ⟨slots, active⟩
  · simp only [add_zero, Option.map_id'] at start
    rw [start]
    exact ⟨rfl, rfl, prefix_refl _, fun _ => rfl⟩
  rcases start with ⟨nothing, tracks, rfl⟩
  have quiet := lowestMatch_eq_none_iff.mp nothing
  rw [nothing, none_or]
  dsimp only
  by_cases idle : openSlots slots = 0 ∨ limit = 0
  · rw [if_pos idle]
    refine ⟨?_, rfl, prefix_refl _, fun _ => rfl⟩
    rcases idle with closed | rfl
    · rw [firstMatch_rejected (finals_of_tracks tracks) _ _ (all_rejected tracks quiet closed)]
    · rfl
  · rw [if_neg idle]
    have result := sniffLoop_result limit conn [] slots tracks quiet
    refine ⟨by simpa using result.index, by simpa using result.pending,
      by simpa using result.visible, by simpa using result.undisturbed⟩

end

end Contract

def Classifier.answer (library : Library) (classifier : Classifier) (chunk : List UInt8) :
    Classifier × State :=
  match classifier.feed library chunk with
  | .ok result => result
  | .error _ => (classifier, .mismatch)

theorem Classifier.answer_eq {library : Library} {next : Classifier} {chunk : List UInt8}
    {state : State} (fed : classifier.feed library chunk = .ok (next, state)) :
    classifier.answer library chunk = (next, state) := by
  rw [answer, fed]

variable (library : Library)

theorem Classifier.answer_split (ready : ∀ stream, classifier.Ready stream) (front : List UInt8) :
    (∀ stream, (classifier.answer library front).1.Ready stream) ∧
    ∀ back, (classifier.answer library (front ++ back)).2 =
        ((classifier.answer library front).1.answer library back).2 ∧
      ((classifier.answer library front).2 ≠ .needMore →
        (classifier.answer library (front ++ back)).2 = (classifier.answer library front).2) := by
  rcases feed_ready library classifier (ready (front ++ [])) with ⟨next, state, fed, _⟩
  have nextReady : ∀ stream, next.Ready stream := by
    intro stream
    rcases feed_ready library classifier (ready (front ++ stream)) with ⟨_, _, fedAgain, kept⟩
    rw [fed] at fedAgain
    cases fedAgain
    exact kept
  rw [answer_eq fed]
  refine ⟨nextReady, fun back => ?_⟩
  rcases feed_ready library classifier (ready ((front ++ back) ++ [])) with
    ⟨wholeNext, wholeState, wholeFed, _⟩
  rcases feed_ready library next (nextReady (back ++ [])) with ⟨last, lastState, lastFed, _⟩
  have same := feed_resume library classifier (ready []) fed wholeFed
  rw [lastFed, reported_ok] at same
  rw [answer_eq wholeFed, answer_eq lastFed]
  by_cases more : state = .needMore
  · rw [more, resume_needMore, Except.ok.injEq] at same
    exact ⟨same.symm, fun final => absurd more final⟩
  · rw [resume_final more, Except.ok.injEq] at same
    have settled := feed_final library fed more lastFed
    exact ⟨same.symm.trans settled.symm, fun _ => same.symm⟩

theorem Classifier.obeys (ready : ∀ stream, classifier.Ready stream) :
    Obeys (answer library) (fun bytes => (classifier.answer library bytes).2) []
      classifier := by
  constructor
  · intro chunks
    induction chunks generalizing classifier with
    | nil =>
      intro chunk
      rfl
    | cons first chunks ih =>
      intro chunk
      rcases answer_split library ready first with ⟨nextReady, same⟩
      have later := ih nextReady chunk
      simp only [foldl_cons, flatten_cons, nil_append, append_assoc] at later ⊢
      rw [later, (same _).1]
  · intro seen more final
    exact ((answer_split library ready seen).2 more).2 final

/-- A classifier made of protocol classifiers other than the TLS one obeys the contract. -/
theorem Assembled.obeys
    (assembled : Assembled (fun protocol => ∀ config, protocol ≠ .tls config) classifier) :
    Obeys (Classifier.answer library) (fun bytes => (classifier.answer library bytes).2) []
      classifier := by
  refine Classifier.obeys library ?_
  intro stream
  apply Assembled.ready
  refine assembled.mono ?_
  intro protocol notTls truncated
  cases protocol with
  | tls config => exact notTls config rfl
  | _ => exact truncated

/--
`Sniff` returns the lowest index at the shortest front of the stream, within the buffer,
on which one of its classifiers matches. The index depends on the bytes before the next
error only and not on the way in which they arrive. Afterwards a reader receives the
stream that it would have received before, and another call sees the same bytes: all
that this call could see, and nothing else unless this call has returned an error with
bytes behind it.
-/
theorem sniff_selects {Object Error : Type} {feed : Object → List UInt8 → Object × State}
    {verdicts : List Verdict} {objects : List Object}
    (obey : Forall₂ (fun verdict object => Obeys feed verdict [] object) verdicts objects)
    (limit : ℕ) (conn : Conn Error) :
    Selects verdicts (conn.visible.take limit) (sniff feed limit conn objects).index ∧
    (∀ other : Conn Error, other.visible = conn.visible →
      (sniff feed limit other objects).index = (sniff feed limit conn objects).index) ∧
    (∀ stream, conn.Delivers stream ↔ (sniff feed limit conn objects).conn.Delivers stream) ∧
    conn.visible <+: (sniff feed limit conn objects).conn.visible ∧
    ((sniff feed limit conn objects).error = none ∨ conn.visible = conn.pending →
      (sniff feed limit conn objects).conn.visible = conn.visible) := by
  rcases sniff_choice obey limit conn with ⟨isChoice, samePending, kept, undisturbed⟩
  refine ⟨?_, ?_, ?_, kept, ?_⟩
  · rw [isChoice]
    exact selects_choice verdicts _
  · intro other sameBytes
    rw [(sniff_choice obey limit other).1, sameBytes, isChoice]
  · intro stream
    rw [Conn.delivers_iff, Conn.delivers_iff, samePending]
  · rintro (noError | ended)
    · exact undisturbed noError
    · have inside := (sniff feed limit conn objects).conn.visible_prefix
      rw [samePending, ← ended] at inside
      exact inside.eq_of_length_le kept.length_le

/-- A connection on which an SSH client opens in two pieces and then ends. -/
def sshOpening : Conn Unit :=
  Conn.new ⟨[⟨bytes "SS", none, .inl (by decide)⟩, ⟨bytes "H-2.0", some (), .inl (by decide)⟩], ()⟩

/-- The SSH classifier in second place is found, and the opening can be read again. -/
theorem sniff_selects_ssh :
    Selects [fun seen => (socks4.classifier.answer plainLibrary seen).2,
        fun seen => (ssh.classifier.answer plainLibrary seen).2] (bytes "SSH-")
      (sniff (answer plainLibrary) 4 sshOpening
        [socks4.classifier, ssh.classifier]).index ∧
    (sniff (answer plainLibrary) 4 sshOpening
      [socks4.classifier, ssh.classifier]).conn.Delivers (bytes "SSH-2.0") := by
  have obey : Forall₂ (fun verdict object =>
      Obeys (answer plainLibrary) verdict [] object)
      [fun seen => (socks4.classifier.answer plainLibrary seen).2,
        fun seen => (ssh.classifier.answer plainLibrary seen).2]
      [socks4.classifier, ssh.classifier] :=
    .cons (Assembled.obeys plainLibrary (.protocol .socks4 (by simp)))
      (.cons (Assembled.obeys plainLibrary (.protocol .ssh (by simp))) .nil)
  have result := sniff_selects obey 4 sshOpening
  exact ⟨result.1, (result.2.2.1 _).mp (Conn.delivers_iff.mpr rfl)⟩

end Gonnect.Sniffer
