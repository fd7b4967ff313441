import Gonnect.Sniffer.BufferSafety

/-!
# The cuts of a stream make no difference

The state that a classifier reports after the last chunk is a function of the stream, not of
its cuts, and a settled state is reported from then on. `And` and `Or` report a function of
the states of their children, and a child that is not called any more keeps its state.

A truncated ClientHello makes a TLS classifier fault, and in a combination the cuts then
decide whether a sibling has settled the result before the fault.
-/

namespace Gonnect.Sniffer

open Checked List Classifier Protocol Except

variable {Memory Other : Type} {state : State}

theorem reported_wrap (outcome : Checked (Memory × State)) (wrap : Memory → State → Other) :
    reported (do let (memory, state) ← outcome; return (wrap memory state, state)) =
      reported outcome := by
  cases outcome <;> rfl

variable {wrap : Memory → Other}

theorem wrap_eq_ok {outcome : Checked (Memory × State)} {next : Other}
    (fed : (do let (memory, state) ← outcome; return (wrap memory, state)) = .ok (next, state)) :
    ∃ memory, outcome = .ok (memory, state) ∧ next = wrap memory := by
  rcases of_bind fed with ⟨⟨memory, reached⟩, taken, wrapped⟩
  rcases wrapped with ⟨rfl, rfl⟩
  exact ⟨memory, taken, rfl⟩

theorem protocolPrefixStep_agrees (maxBytes : ℕ) (matchPrefix : List UInt8 → Checked State)
    (buf : List UInt8) (byte : UInt8) (final : boundedFinish maxBytes buf ≠ .needMore) :
    ∃ next, protocolPrefixStep maxBytes matchPrefix buf byte =
      .ok (next, boundedFinish maxBytes buf) := by
  rcases boundedFinish_final final with ⟨full, rejects⟩
  exact ⟨buf, by rw [protocolPrefixStep, if_pos full, rejects]⟩

theorem crlfLineStep_agrees (maxBytes : ℕ) (valid : List UInt8 → Checked Bool)
    (line : List UInt8) (byte : UInt8) (final : boundedFinish maxBytes line ≠ .needMore) :
    ∃ next, crlfLineStep maxBytes valid line byte = .ok (next, boundedFinish maxBytes line) := by
  rcases boundedFinish_final final with ⟨full, rejects⟩
  exact ⟨line, by rw [crlfLineStep, if_pos full, rejects]; rfl⟩

theorem wrapped_resume {feed : Memory → List UInt8 → Checked (Memory × State)} {memory : Memory}
    {front back : List UInt8} {next : Other}
    (law : ∀ after, feed memory front = .ok (after, state) →
      reported (feed memory (front ++ back)) = resume state (reported (feed after back)))
    (fed : (do let (memory, state) ← feed memory front
               return (wrap memory, state)) = .ok (next, state)) :
    ∃ after, feed memory front = .ok (after, state) ∧ next = wrap after ∧
      reported (do let (memory, state) ← feed memory (front ++ back)
                   return (wrap memory, state)) =
        resume state (reported (do let (memory, state) ← feed after back
                                   return (wrap memory, state))) := by
  rcases wrap_eq_ok fed with ⟨after, taken, rfl⟩
  refine ⟨after, taken, rfl, ?_⟩
  rw [reported_wrap _ fun memory _ => wrap memory, reported_wrap _ fun memory _ => wrap memory]
  exact law after taken

theorem Leaf.feed_resume (library : Library) {leaf next : Leaf} {front stream : List UInt8}
    (ready : leaf.Ready stream) (fed : leaf.feed library front = .ok (next, state))
    (back : List UInt8) :
    reported (leaf.feed library (front ++ back)) =
      resume state (reported (next.feed library back)) := by
  cases leaf with
  | literal want offset =>
    by_cases empty : want.length = 0
    · simp only [Leaf.feed, empty, if_true, pure_eq_ok, ok.injEq, Prod.mk.injEq] at fed
      rcases fed with ⟨rfl, rfl⟩
      simp [Leaf.feed, empty, resume]
    · simp only [Leaf.feed, empty, if_false] at fed
      rcases wrapped_resume (feedLoop_resume (by simp) back front _ · _) fed with
        ⟨after, _, rfl, same⟩
      simpa only [Leaf.feed, empty, if_false] using same
  | protocolPrefix kind buf =>
    rcases wrapped_resume
      (feedLoop_resume (protocolPrefixStep_agrees _ _) back front _ · _) fed with
      ⟨after, _, rfl, same⟩
    exact same
  | header kind buf | socks5 memory | http config memory =>
    rcases wrapped_resume (feedLoop_resume (by simp) back front _ · _) fed with
      ⟨after, _, rfl, same⟩
    exact same
  | line kind buf =>
    rcases wrapped_resume (feedLoop_resume (crlfLineStep_agrees _ _) back front _ · _) fed with
      ⟨after, _, rfl, same⟩
    exact same
  | dnsOverTCP maxMessageBytes buf =>
    rcases wrapped_resume (fun _ looked => (dnsOverTCPFeed_resume ready looked back).1) fed with
      ⟨after, _, rfl, same⟩
    exact same
  | tls config memory =>
    rcases wrapped_resume
      (fun _ looked => (tlsFeed_resume library ready.1.toShort looked back).1) fed with
      ⟨after, _, rfl, same⟩
    exact same

namespace Leaf

/-- The bytes that the classifier has, with the chunk behind them, are a truncated ClientHello. -/
def Truncated (chunk : List UInt8) : Leaf → Prop
  | .tls config memory =>
    TruncatedHello (handshakeOf ((memory.buf ++ chunk).take config.maxClientHelloBytes))
  | _ => False

variable (library : Library) {leaf next : Leaf} {chunk : List UInt8}

theorem ready_of_whole (ready : leaf.Ready []) (whole : ¬leaf.Truncated chunk) :
    leaf.Ready (chunk ++ []) := by
  rw [append_nil]
  cases leaf with
  | tls config memory => exact ⟨ready.1, whole⟩
  | _ => exact ready

theorem feed_safe_iff (ready : leaf.Ready []) :
    Safe (leaf.feed library chunk) ↔ ¬leaf.Truncated chunk := by
  constructor
  · rintro ⟨_, fed⟩ truncated
    cases leaf with
    | tls config memory =>
      rcases of_bind fed with ⟨parts, taken, _⟩
      exact (tlsFeed_safe_iff library ready.1 chunk).mp ⟨parts, taken⟩ truncated
    | _ => exact truncated
  · intro whole
    rcases feed_ready library (ready_of_whole ready whole) with ⟨next, state, fed, _⟩
    exact ⟨_, fed⟩

theorem feed_keeps (ready : leaf.Ready []) (fed : leaf.feed library chunk = .ok (next, state)) :
    state = .needMore → next.Ready [] := by
  have whole := (feed_safe_iff library ready).mp ⟨_, fed⟩
  rcases feed_ready library (ready_of_whole ready whole) with ⟨_, _, fedAgain, kept⟩
  rw [fed] at fedAgain
  cases fedAgain
  exact kept

end Leaf

namespace Classifier

def current : Classifier → State
  | .leaf _ state => state
  | .limit _ _ _ state => state
  | .and _ _ state => state
  | .or _ _ state => state
  | .not _ state => state
  | .sized child => current child

variable (library : Library) {bound seen : ℕ} {front back chunk : List UInt8}

theorem feed_current {state : State} :
    ∀ {classifier next : Classifier}, classifier.feed library chunk = .ok (next, state) →
      next.current = state
  | .leaf probe before, next, fed
  | .and children states before, next, fed | .or children states before, next, fed => by
      simp only [feed] at fed
      split_ifs at fed
      · cases fed
        rfl
      · rcases of_bind fed with ⟨_, _, wrapped⟩
        cases wrapped
        rfl
  | .limit bound seen child before, next, fed => by
      simp only [feed] at fed
      split_ifs at fed
      · cases fed
        rfl
      · rcases of_bind fed with ⟨_, _, continued⟩
        rcases of_bind continued with ⟨_, _, wrapped⟩
        split_ifs at wrapped <;> cases wrapped <;> rfl
  | .not child before, next, fed => by
      simp only [feed] at fed
      split_ifs at fed
      · cases fed
        rfl
      · rcases of_bind fed with ⟨⟨_, _ | _ | _⟩, _, wrapped⟩ <;> cases wrapped <;> rfl
  | .sized child, next, fed => by
      simp only [feed] at fed
      rcases of_bind fed with ⟨⟨after, reached⟩, taken, wrapped⟩
      cases wrapped
      exact (feed_current taken : after.current = reached)

theorem feed_settled (chunk : List UInt8) :
    ∀ classifier : Classifier, classifier.current ≠ .needMore →
      classifier.feed library chunk = .ok (classifier, classifier.current)
  | .leaf _ _, final | .limit _ _ _ _, final | .and _ _ _, final | .or _ _ _, final
  | .not _ _, final => by simp_all [feed, current]
  | .sized child, final => by simp [feed, current, feed_settled chunk child final]

def limitVerdict (full : Bool) : State → State
  | .needMore => if full then .mismatch else .needMore
  | state => state

def inverted : State → State
  | .needMore => .needMore
  | .matched => .mismatch
  | .mismatch => .matched

theorem limit_reported (inside : seen ≤ bound) (child : Classifier) (chunk : List UInt8) :
    reported ((limit bound seen child .needMore).feed library chunk) =
      (reported (child.feed library (chunk.take (bound - seen)))).map
        (limitVerdict (seen + (chunk.take (bound - seen)).length = bound)) := by
  simp only [feed, limitChunk_eq inside, ok_bind, ne_eq, not_true_eq_false, if_false]
  rcases child.feed library (chunk.take (bound - seen)) with fault | ⟨next, _ | _ | _⟩
  · rfl
  · by_cases full : seen + (chunk.take (bound - seen)).length = bound
    · simp only [full, ok_bind, reported_ok, Except.map, limitVerdict]
      rfl
    · simp only [full, ok_bind, reported_ok, Except.map, limitVerdict]
      rfl
  · rfl
  · rfl

variable (child : Classifier) (children : List Classifier)

theorem not_reported (chunk : List UInt8) :
    reported ((not child .needMore).feed library chunk) =
      (reported (child.feed library chunk)).map inverted := by
  simp only [feed, ne_eq, not_true_eq_false, if_false]
  rcases child.feed library chunk with fault | ⟨next, _ | _ | _⟩
  · rfl
  · rfl
  · rfl
  · rfl

def callOpen (child : Classifier) (state : State) (chunk : List UInt8) :
    Checked (Classifier × State) :=
  if state = .needMore then feed library child chunk else .ok (child, state)

def result (outcome : Checked (List Classifier × List State × State)) : Checked State :=
  outcome.map fun parts => parts.2.2

def joint (stop neutral childState : State) (siblings : Checked State) : Checked State :=
  if childState = stop then
    .ok stop
  else
    siblings.map fun state => if state = stop ∨ childState = neutral then state else .needMore

theorem feedChildren_cons_result (stop neutral : State) (child : Classifier)
    (children : List Classifier) (childState : State) (states : List State) (chunk : List UInt8) :
    result (feedChildren library stop neutral (child :: children) (childState :: states) chunk) =
      reported (callOpen library child childState chunk) >>= fun after =>
        joint stop neutral after
          (result (feedChildren library stop neutral children states chunk)) := by
  simp only [feedChildren, callOpen]
  rcases (if childState = .needMore then feed library child chunk else .ok (child, childState))
    with fault | ⟨next, after⟩
  · rfl
  simp only [ok_bind, reported_ok, joint]
  by_cases stopped : after = stop
  · simp only [if_pos stopped]
    rfl
  rw [if_neg stopped, if_neg stopped]
  rcases feedChildren library stop neutral children states chunk with
    fault | ⟨nextChildren, nextStates, state⟩
  · rfl
  simp only [ok_bind, result, Except.map]
  split_ifs <;> rfl

theorem callOpen_settled (final : state ≠ .needMore) (chunk : List UInt8) :
    callOpen library child state chunk = .ok (child, state) :=
  if_neg final

theorem feedChildren_neutral {stop neutral : State} (different : neutral ≠ stop)
    (final : neutral ≠ .needMore) (later : List UInt8) :
    ∀ {children : List Classifier} {states : List State} {nextChildren : List Classifier}
      {nextStates : List State},
      feedChildren library stop neutral children states chunk =
        .ok (nextChildren, nextStates, neutral) →
      feedChildren library stop neutral nextChildren nextStates later =
        .ok (nextChildren, nextStates, neutral)
  | [], states, nextChildren, nextStates, fed => by
      rcases fed with ⟨rfl, rfl, _⟩
      simp [feedChildren]
  | child :: children, [], nextChildren, nextStates, fed => by
      cases fed
  | child :: children, childState :: states, nextChildren, nextStates, fed => by
      simp only [feedChildren] at fed
      rcases of_bind fed with ⟨⟨next, after⟩, called, continued⟩
      by_cases stopped : after = stop
      · simp only [if_pos stopped, pure_eq_ok, ok.injEq, Prod.mk.injEq] at continued
        exact absurd continued.2.2.symm different
      rw [if_neg stopped] at continued
      rcases of_bind continued with ⟨⟨restChildren, restStates, state⟩, restFed, joined⟩
      split_ifs at joined with agree
      · simp only [pure_eq_ok, ok.injEq, Prod.mk.injEq] at joined
        rcases joined with ⟨rfl, rfl, rfl⟩
        have isNeutral : after = state := agree.resolve_left different
        subst isNeutral
        simp [feedChildren, final, different, feedChildren_neutral different final later restFed]
      · simp only [pure_eq_ok, ok.injEq, Prod.mk.injEq] at joined
        exact absurd joined.2.2.symm final

theorem leaf_reported (probe : Leaf) (chunk : List UInt8) :
    reported ((leaf probe .needMore).feed library chunk) =
      reported (probe.feed library chunk) := by
  simp only [feed, ne_eq, not_true_eq_false, if_false]
  exact reported_wrap _ leaf

theorem logic_reported (states : List State) (chunk : List UInt8) :
    reported ((and children states .needMore).feed library chunk) =
      result (feedChildren library .mismatch .matched children states chunk) ∧
    reported ((or children states .needMore).feed library chunk) =
      result (feedChildren library .matched .mismatch children states chunk) := by
  simp only [feed, ne_eq, not_true_eq_false, if_false]
  constructor
  · cases feedChildren library .mismatch .matched children states chunk <;> rfl
  · cases feedChildren library .matched .mismatch children states chunk <;> rfl

theorem result_resume {stop neutral : State} (stops : stop ≠ .needMore)
    (final : neutral ≠ .needMore) (different : neutral ≠ stop)
    {children nextChildren : List Classifier} {states nextStates : List State}
    (fed : feedChildren library stop neutral children states front =
      .ok (nextChildren, nextStates, state)) {whole : Checked State}
    (same : whole = if state = stop then .ok stop
      else result (feedChildren library stop neutral nextChildren nextStates back)) :
    whole = resume state
      (result (feedChildren library stop neutral nextChildren nextStates back)) := by
  rw [same]
  by_cases more : state = .needMore
  · rw [more, if_neg stops.symm, resume_needMore]
  rw [resume_final more]
  by_cases isStop : state = stop
  · rw [if_pos isStop, isStop]
  · have isNeutral : state = neutral := by
      cases state <;> cases stop <;> cases neutral <;> simp_all
    subst isNeutral
    rw [if_neg isStop, feedChildren_neutral library different final back fed]
    rfl

theorem settled_resume {classifier next whole : Classifier} {last : State}
    (fed : classifier.feed library front = .ok (next, state))
    (total : classifier.feed library (front ++ back) = .ok (whole, last))
    (final : classifier.current ≠ .needMore) :
    resume state (reported (next.feed library back)) = .ok last := by
  rw [feed_settled library _ classifier final] at fed total
  cases fed
  cases total
  rw [resume_final final]

theorem limit_shape {total : ℕ} {after next : Classifier} {reached state : State}
    (wrapped : (if ¬reached = .needMore then
        pure (limit bound total after reached, reached)
      else if total = bound then
        pure (limit bound total after .mismatch, .mismatch)
      else
        pure (limit bound total after .needMore, .needMore)) =
      (.ok (next, state) : Checked (Classifier × State))) :
    next = .limit bound total after state ∧ state = limitVerdict (total = bound) reached := by
  by_cases more : reached = .needMore
  · subst more
    simp only [not_true_eq_false, if_false] at wrapped
    split_ifs at wrapped with full <;> cases wrapped <;>
      exact ⟨rfl, by simp [limitVerdict, full]⟩
  · rw [if_pos more] at wrapped
    cases wrapped
    exact ⟨rfl, by cases reached <;> simp_all [limitVerdict]⟩

theorem limit_resume (inside : seen ≤ bound) {child after : Classifier}
    (fed : child.feed library (front.take (bound - seen)) = .ok (after, state))
    (same : reported (child.feed library ((front ++ back).take (bound - seen))) =
      resume state (reported (after.feed library (back.take (bound - seen - front.length))))) :
    reported ((limit bound seen child .needMore).feed library (front ++ back)) =
      resume (limitVerdict (seen + (front.take (bound - seen)).length = bound) state)
        (reported ((limit bound (seen + (front.take (bound - seen)).length) after
          .needMore).feed library back)) := by
  by_cases more : state = .needMore
  swap
  · have final (full : Bool) : limitVerdict full state = state := by
      cases state <;> simp_all [limitVerdict]
    rw [limit_reported library inside, same, final, resume_final more, resume_final more]
    simp [Except.map, final]
  subst more
  by_cases full : seen + (front.take (bound - seen)).length = bound
  · have cut : (front ++ back).take (bound - seen) = front.take (bound - seen) := by
      apply take_append_of_le_length
      simp only [length_take] at full
      omega
    have verdict : limitVerdict (decide (seen + (front.take (bound - seen)).length = bound))
        .needMore = .mismatch := by
      simp only [limitVerdict, full, decide_true, if_true]
    rw [limit_reported library inside, cut, fed, verdict, resume_final (by simp)]
    simp only [reported_ok, Except.map, verdict]
  · have whole : front.take (bound - seen) = front := by
      apply take_of_length_le
      simp only [length_take] at full
      omega
    rw [whole] at full ⊢
    have room : seen + front.length ≤ bound := by
      have kept := congrArg List.length whole
      simp only [length_take] at kept
      omega
    have verdict : limitVerdict (decide (seen + front.length = bound)) .needMore = .needMore := by
      simp [limitVerdict, full]
    have remaining : bound - (seen + front.length) = bound - seen - front.length := by omega
    have counted : ((front ++ back).take (bound - seen)).length =
        front.length + (back.take (bound - seen - front.length)).length := by
      rw [take_append, whole, length_append]
    rw [limit_reported library inside, same, counted, verdict, resume_needMore, resume_needMore,
      limit_reported library room, remaining, add_assoc]

mutual

/--
A call on a chunk that does not fault reports what a call on its front and a call on its back
report together.
-/
theorem feed_resume {front back : List UInt8} :
    ∀ (classifier : Classifier) {next whole : Classifier} {state last : State},
      classifier.Ready [] → classifier.feed library front = .ok (next, state) →
      classifier.feed library (front ++ back) = .ok (whole, last) →
      resume state (reported (next.feed library back)) = .ok last
  | .leaf probe before, next, whole, state, last, ready, fed, total => by
      by_cases isOpen : before = .needMore
      swap
      · exact settled_resume library fed total isOpen
      subst isOpen
      have answered := congrArg reported total
      simp only [feed, ne_eq, not_true_eq_false, if_false] at fed
      rcases of_bind fed with ⟨⟨after, reached⟩, taken, wrapped⟩
      cases wrapped
      rw [leaf_reported, Leaf.feed_resume library (ready rfl) taken back] at answered
      by_cases more : reached = .needMore
      · simpa [more, resume_needMore, leaf_reported] using answered
      · simpa [resume_final more] using answered
  | .limit bound seen child before, next, whole, state, last, ready, fed, total => by
      by_cases isOpen : before = .needMore
      swap
      · exact settled_resume library fed total isOpen
      subst isOpen
      have answered := congrArg reported total
      rcases ready rfl with ⟨inside, childReady⟩
      simp only [feed, limitChunk_eq inside, ne_eq, not_true_eq_false, if_false, ok_bind]
        at fed total
      rcases of_bind fed with ⟨⟨after, reached⟩, taken, wrapped⟩
      rcases of_bind total with ⟨⟨wholeChild, _⟩, wholeTaken, _⟩
      rw [take_append] at wholeTaken
      have same := feed_resume child childReady taken wholeTaken
      rw [limit_resume library inside taken
        (by rw [take_append, wholeTaken, reported_ok, same])] at answered
      rcases limit_shape wrapped with ⟨rfl, verdict⟩
      rw [← verdict] at answered
      by_cases more : state = .needMore
      · rwa [more] at answered ⊢
      · rwa [resume_final more] at answered ⊢
  | .and children states before, next, whole, state, last, ready, fed, total
  | .or children states before, next, whole, state, last, ready, fed, total => by
      by_cases isOpen : before = .needMore
      swap
      · exact settled_resume library fed total isOpen
      subst isOpen
      have answered := congrArg reported total
      simp only [feed, ne_eq, not_true_eq_false, if_false] at fed
      rcases of_bind fed with ⟨⟨nextChildren, nextStates, reached⟩, taken, wrapped⟩
      cases wrapped
      simp only [logic_reported, reported_ok] at answered
      have same := feedChildren_resume (by simp) children states (ready rfl) taken answered
      have law := result_resume library (by simp) (by simp) (by simp) taken same
      rw [law]
      by_cases more : reached = .needMore
      · simp [more, resume_needMore, logic_reported]
      · simp [resume_final more]
  | .not child before, next, whole, state, last, ready, fed, total => by
      by_cases isOpen : before = .needMore
      swap
      · exact settled_resume library fed total isOpen
      subst isOpen
      have answered := congrArg reported total
      rcases of_bind fed with ⟨⟨after, reached⟩, taken, wrapped⟩
      rcases of_bind total with ⟨⟨wholeChild, wholeState⟩, wholeTaken, _⟩
      have same := feed_resume child (ready rfl) taken wholeTaken
      rw [not_reported, wholeTaken, reported_ok, ← same] at answered
      rw [reported_ok] at answered
      rw [← answered]
      cases reached with
      | needMore =>
        cases wrapped
        rw [resume_needMore, resume_needMore, not_reported]
      | matched | mismatch =>
        cases wrapped
        rfl
  | .sized child, next, whole, state, last, ready, fed, total => by
      rcases wrap_eq_ok fed with ⟨after, taken, rfl⟩
      rcases wrap_eq_ok total with ⟨_, wholeTaken, _⟩
      rw [feed, reported_wrap _ fun child _ => sized child]
      exact feed_resume child ready taken wholeTaken

theorem feedChildren_resume {stop neutral : State} (stops : stop ≠ .needMore)
    {front back : List UInt8} :
    ∀ (children : List Classifier) (states : List State) {nextChildren : List Classifier}
      {nextStates : List State} {state last : State}, ReadyAll [] children states →
      feedChildren library stop neutral children states front =
        .ok (nextChildren, nextStates, state) →
      result (feedChildren library stop neutral children states (front ++ back)) = .ok last →
      .ok last = if state = stop then .ok stop
        else result (feedChildren library stop neutral nextChildren nextStates back)
  | [], [], nextChildren, nextStates, state, last, ready, fed, total => by
      rcases fed with ⟨rfl, rfl, rfl⟩
      rw [← total]
      split_ifs with isStop
      · simp [feedChildren, isStop, result, Except.map]
      · rfl
  | child :: children, childState :: states, nextChildren, nextStates, state, last, ready, fed,
      total => by
      simp only [feedChildren] at fed
      rcases of_bind fed with ⟨⟨next, after⟩, called, continued⟩
      rw [feedChildren_cons_result] at total
      rcases of_bind total with ⟨later, answered, joined⟩
      -- the child reports on the back, after the front, what it reports on the whole chunk
      have same : reported (callOpen library next after back) = .ok later := by
        by_cases isOpen : childState = .needMore
        · rw [callOpen, if_pos isOpen] at answered
          rw [if_pos isOpen] at called
          cases whole : feed library child (front ++ back) with
          | error fault =>
            rw [whole] at answered
            cases answered
          | ok parts =>
            rw [whole] at answered
            cases answered
            have law := feed_resume child (ready.1 isOpen) called whole
            rw [callOpen]
            split_ifs with more
            · rwa [more, resume_needMore] at law
            · rwa [resume_final more] at law
        · rw [if_neg isOpen] at called
          cases called
          rwa [callOpen_settled library child isOpen] at answered ⊢
      by_cases stopped : after = stop
      · simp only [if_pos stopped, pure_eq_ok, ok.injEq, Prod.mk.injEq] at continued
        rcases continued with ⟨rfl, rfl, rfl⟩
        subst stopped
        rw [callOpen_settled library next stops, reported_ok] at same
        cases same
        rw [if_pos rfl, ← joined, joint, if_pos rfl]
      rw [if_neg stopped] at continued
      rcases of_bind continued with ⟨⟨restChildren, restStates, reached⟩, restFed, wrapped⟩
      have shape : nextChildren = next :: restChildren ∧ nextStates = after :: restStates ∧
          state = if reached = stop ∨ after = neutral then reached else .needMore := by
        split_ifs at wrapped ⊢ <;> cases wrapped <;> exact ⟨rfl, rfl, rfl⟩
      rcases shape with ⟨rfl, rfl, shaped⟩
      rw [feedChildren_cons_result, same, ok_bind]
      by_cases late : later = stop
      · rw [joint, if_pos late] at joined ⊢
        rw [← joined, ite_self]
      cases siblings : result
        (feedChildren library stop neutral children states (front ++ back)) with
      | error fault =>
        rw [siblings, joint, if_neg late] at joined
        cases joined
      | ok sibling =>
        have law := feedChildren_resume stops children states ready.2 restFed siblings
        by_cases restStopped : reached = stop
        · rw [if_pos restStopped] at law
          cases law
          rw [siblings, joint, if_neg late] at joined
          simp [shaped, restStopped, ← joined, Except.map]
        · have notStop : state ≠ stop := by
            rw [shaped]
            split_ifs
            · exact restStopped
            · exact stops.symm
          rw [if_neg restStopped] at law
          rw [if_neg notStop, ← law, ← joined, siblings]

end

theorem safe_map_iff {outcome : Checked Memory} {f : Memory → Other} :
    Safe (outcome.map f) ↔ Safe outcome := by
  cases outcome <;> simp [Except.map]

mutual

/--
The call on the chunk reaches a TLS classifier to which the chunk completes a truncated
ClientHello. `And` and `Or` reach a child when no child before it reports the state that
settles them.
-/
def Meets : Classifier → List UInt8 → Prop
  | .leaf probe state, chunk => state = .needMore ∧ probe.Truncated chunk
  | .limit bound seen child state, chunk =>
      state = .needMore ∧ Meets child (chunk.take (bound - seen))
  | .and children states state, chunk =>
      state = .needMore ∧ MeetsAmong .mismatch children states chunk
  | .or children states state, chunk =>
      state = .needMore ∧ MeetsAmong .matched children states chunk
  | .not child state, chunk => state = .needMore ∧ Meets child chunk
  | .sized child, chunk => Meets child chunk

def MeetsAmong (stop : State) :
    List Classifier → List State → List UInt8 → Prop
  | child :: children, state :: states, chunk =>
      (state = .needMore ∧ Meets child chunk) ∨
      (reported (callOpen library child state chunk) ≠ .ok stop ∧
        MeetsAmong stop children states chunk)
  | _, _, _ => False

end

mutual

/-- A call faults exactly when it reaches a truncated ClientHello. -/
theorem feed_safe_iff :
    ∀ (classifier : Classifier) {chunk : List UInt8}, classifier.Ready [] →
      (Safe (classifier.feed library chunk) ↔ ¬classifier.Meets library chunk)
  | .leaf probe state, chunk, ready => by
      by_cases isOpen : state = .needMore
      swap
      · simp [feed, Meets, isOpen]
      subst isOpen
      rw [← safe_reported, leaf_reported, safe_reported, Leaf.feed_safe_iff library (ready rfl)]
      simp [Meets]
  | .limit bound seen child state, chunk, ready => by
      by_cases isOpen : state = .needMore
      swap
      · simp [feed, Meets, isOpen]
      subst isOpen
      rcases ready rfl with ⟨inside, childReady⟩
      rw [← safe_reported, limit_reported library inside, safe_map_iff, safe_reported,
        feed_safe_iff child childReady]
      simp [Meets]
  | .and children states state, chunk, ready | .or children states state, chunk, ready => by
      by_cases isOpen : state = .needMore
      swap
      · simp [feed, Meets, isOpen]
      subst isOpen
      rw [← safe_reported]
      simp only [logic_reported, result, safe_map_iff]
      rw [feedChildren_safe_iff children states (ready rfl)]
      simp [Meets]
  | .not child state, chunk, ready => by
      by_cases isOpen : state = .needMore
      swap
      · simp [feed, Meets, isOpen]
      subst isOpen
      rw [← safe_reported, not_reported, safe_map_iff, safe_reported,
        feed_safe_iff child (ready rfl)]
      simp [Meets]
  | .sized child, chunk, ready => by
      rw [← safe_reported, feed, reported_wrap _ fun child _ => sized child, safe_reported]
      exact feed_safe_iff child ready

theorem feedChildren_safe_iff {stop neutral : State} :
    ∀ (children : List Classifier) (states : List State) {chunk : List UInt8},
      ReadyAll [] children states →
      (Safe (feedChildren library stop neutral children states chunk) ↔
        ¬MeetsAmong library stop children states chunk)
  | [], [], chunk, ready => by simp [feedChildren, MeetsAmong]
  | child :: children, childState :: states, chunk, ready => by
      have called : Safe (callOpen library child childState chunk) ↔
          ¬(childState = .needMore ∧ Meets library child chunk) := by
        by_cases isOpen : childState = .needMore
        · simp [callOpen, isOpen, feed_safe_iff child (ready.1 isOpen)]
        · simp [callOpen, isOpen]
      rw [← safe_map_iff, ← result, feedChildren_cons_result, MeetsAmong, not_or, ← called]
      rcases callOpen library child childState chunk with fault | ⟨next, after⟩
      · simp
      · by_cases stopped : after = stop
        · simp [joint, stopped]
        · simp [joint, stopped, safe_map_iff, result,
            feedChildren_safe_iff children states ready.2]

end

theorem feed_final {classifier next last : Classifier} {final : State}
    (fed : classifier.feed library chunk = .ok (next, final)) (settled : final ≠ .needMore)
    (later : next.feed library back = .ok (last, state)) : state = final := by
  have kept := feed_current library fed
  rw [← kept] at settled
  rw [feed_settled library back next settled, kept] at later
  cases later
  rfl

theorem settled_keeps {classifier next : Classifier} (ready : classifier.Ready [])
    (fed : classifier.feed library chunk = .ok (next, state))
    (final : classifier.current ≠ .needMore) : next.Ready [] := by
  rw [feed_settled library chunk classifier final] at fed
  cases fed
  exact ready

mutual

theorem feed_keeps {chunk : List UInt8} :
    ∀ {classifier next : Classifier} {state : State}, classifier.Ready [] →
      classifier.feed library chunk = .ok (next, state) → next.Ready []
  | .leaf probe before, next, state, ready, fed => by
      by_cases isOpen : before = .needMore
      swap
      · exact settled_keeps library ready fed isOpen
      subst isOpen
      rcases of_bind fed with ⟨⟨after, reached⟩, taken, wrapped⟩
      cases wrapped
      exact Leaf.feed_keeps library (ready rfl) taken
  | .limit bound seen child before, next, state, ready, fed => by
      by_cases isOpen : before = .needMore
      swap
      · exact settled_keeps library ready fed isOpen
      subst isOpen
      rcases ready rfl with ⟨inside, childReady⟩
      simp only [feed, limitChunk_eq inside, ne_eq, not_true_eq_false, if_false, ok_bind] at fed
      rcases of_bind fed with ⟨⟨after, reached⟩, taken, wrapped⟩
      rcases limit_shape wrapped with ⟨rfl, _⟩
      refine fun _ => ⟨?_, feed_keeps childReady taken⟩
      rw [length_take]
      omega
  | .and children states before, next, state, ready, fed
  | .or children states before, next, state, ready, fed => by
      by_cases isOpen : before = .needMore
      swap
      · exact settled_keeps library ready fed isOpen
      subst isOpen
      rcases of_bind fed with ⟨⟨nextChildren, nextStates, reached⟩, taken, wrapped⟩
      cases wrapped
      exact fun more => feedChildren_keeps (ready rfl) taken (by simp [more])
  | .not child before, next, state, ready, fed => by
      by_cases isOpen : before = .needMore
      swap
      · exact settled_keeps library ready fed isOpen
      subst isOpen
      rcases of_bind fed with ⟨⟨after, reached⟩, taken, wrapped⟩
      have kept := feed_keeps (ready rfl) taken
      cases reached <;> cases wrapped <;> exact fun _ => kept
  | .sized child, next, state, ready, fed => by
      rcases wrap_eq_ok fed with ⟨after, taken, rfl⟩
      simp only [Ready] at ready ⊢
      exact feed_keeps ready taken

theorem feedChildren_keeps {stop neutral : State} {chunk : List UInt8} :
    ∀ {children nextChildren : List Classifier} {states nextStates : List State} {state : State},
      ReadyAll [] children states →
      feedChildren library stop neutral children states chunk =
        .ok (nextChildren, nextStates, state) →
      state ≠ stop → ReadyAll [] nextChildren nextStates
  | [], nextChildren, [], nextStates, state, ready, fed, going => by
      rcases fed with ⟨rfl, rfl, rfl⟩
      exact ready
  | child :: children, nextChildren, childState :: states, nextStates, state, ready, fed, going => by
      simp only [feedChildren] at fed
      rcases of_bind fed with ⟨⟨next, after⟩, called, continued⟩
      have kept : after = .needMore → next.Ready [] := by
        by_cases isOpen : childState = .needMore
        · rw [if_pos isOpen] at called
          exact fun _ => feed_keeps (ready.1 isOpen) called
        · rw [if_neg isOpen] at called
          cases called
          exact ready.1
      split_ifs at continued with stopped
      · cases continued
        exact absurd rfl going
      rcases of_bind continued with ⟨⟨restChildren, restStates, reached⟩, restFed, wrapped⟩
      split_ifs at wrapped with decided
      · cases wrapped
        exact ⟨kept, feedChildren_keeps ready.2 restFed going⟩
      · cases wrapped
        exact ⟨kept, feedChildren_keeps ready.2 restFed fun equal => decided (.inl equal)⟩

end

def stateAfter :
    Classifier → List UInt8 → List (List UInt8) → Checked State
  | classifier, chunk, [] => reported (classifier.feed library chunk)
  | classifier, chunk, nextChunk :: chunks => do
      let (next, _) ← classifier.feed library chunk
      stateAfter next nextChunk chunks

variable {chunks : List (List UInt8)}

theorem stateAfter_eq :
    ∀ {classifier : Classifier} {chunk : List UInt8}, classifier.Ready [] →
      (∀ front, front <+: chunk ++ chunks.flatten → Safe (classifier.feed library front)) →
      classifier.stateAfter library chunk chunks =
        reported (classifier.feed library (chunk ++ chunks.flatten)) := by
  induction chunks with
  | nil =>
    intro classifier chunk ready safe
    rw [flatten_nil, append_nil, stateAfter]
  | cons nextChunk chunks ih =>
    intro classifier chunk ready safe
    rw [flatten_cons] at safe ⊢
    rcases safe chunk (prefix_append _ _) with ⟨⟨next, state⟩, fed⟩
    -- what is left of the stream is read by the next classifier as safely as by this one
    have resumed : ∀ back, back <+: nextChunk ++ chunks.flatten →
        ∃ last, resume state (reported (next.feed library back)) = .ok last ∧
          reported (classifier.feed library (chunk ++ back)) = .ok last := by
      intro back isFront
      rcases safe (chunk ++ back) ((prefix_append_right_inj chunk).mpr isFront) with
        ⟨⟨whole, last⟩, total⟩
      exact ⟨last, feed_resume library classifier ready fed total, by rw [total, reported_ok]⟩
    have nextSafe : ∀ back, back <+: nextChunk ++ chunks.flatten → Safe (next.feed library back) := by
      intro back isFront
      by_cases more : state = .needMore
      · rcases resumed back isFront with ⟨last, answered, _⟩
        rw [more, resume_needMore] at answered
        exact safe_reported.mp ⟨last, answered⟩
      · have kept := feed_current library fed
        exact ⟨_, feed_settled library back next (by rwa [kept])⟩
    rcases resumed _ (prefix_refl _) with ⟨last, answered, whole⟩
    have continued : classifier.stateAfter library chunk (nextChunk :: chunks) =
        next.stateAfter library nextChunk chunks := by
      rw [stateAfter, fed]
      rfl
    rw [whole, continued, ih (feed_keeps library ready fed) nextSafe, ← answered]
    by_cases more : state = .needMore
    · rw [more, resume_needMore]
    · have kept := feed_current library fed
      rw [resume_final more, ← kept]
      rw [← kept] at more
      rw [feed_settled library _ next more, reported_ok]

end Classifier

/-- Every way of cutting the stream into chunks reports one and the same state at its end. -/
def Uncuttable (library : Library) (classifier : Classifier) (stream : List UInt8) : Prop :=
  ∃ state, ∀ chunk chunks, chunk ++ chunks.flatten = stream →
    classifier.stateAfter library chunk chunks = .ok state

theorem uncuttable_iff (library : Library) {classifier : Classifier} {stream : List UInt8}
    (ready : classifier.Ready []) :
    Uncuttable library classifier stream ↔
      ∀ count, ¬classifier.Meets library (stream.take count) := by
  constructor
  · rintro ⟨state, same⟩ count
    have answered := same (stream.take count) [stream.drop count] (by simp)
    rw [← feed_safe_iff library classifier ready]
    rcases of_bind answered with ⟨parts, fed, _⟩
    exact ⟨parts, fed⟩
  · intro calm
    have safe : ∀ front, front <+: stream → Safe (classifier.feed library front) := by
      intro front isFront
      rw [feed_safe_iff library classifier ready, prefix_iff_eq_take.mp isFront]
      exact calm front.length
    rcases safe stream (prefix_refl stream) with ⟨⟨next, state⟩, fed⟩
    refine ⟨state, ?_⟩
    rintro chunk chunks rfl
    rw [stateAfter_eq library ready safe, fed, reported_ok]

/--
A classifier made with `And`, `Or`, `Not` and `Limit` reports the same state at the end of a
stream, however the stream is cut, exactly when no call on a beginning of the stream reaches
a TLS classifier with a truncated ClientHello. The state that settles the result is
returned by every later call.
-/
theorem last_state_of_stream_iff (library : Library) (stream : List UInt8) :
    (∀ classifier, Assembled (fun _ => True) classifier →
      (Uncuttable library classifier stream ↔
        ∀ count, ¬classifier.Meets library (stream.take count))) ∧
    ∀ (classifier next : Classifier) (chunk : List UInt8) (state : State),
      classifier.feed library chunk = .ok (next, state) → state ≠ .needMore →
        ∀ later, next.feed library later = .ok (next, state) := by
  refine ⟨fun classifier assembled => uncuttable_iff library assembled.ready_nil, ?_⟩
  intro classifier next chunk state fed final later
  have kept := feed_current library fed
  rw [← kept] at final ⊢
  exact feed_settled library later next final

/-- `And` with the SSH classifier before the TLS classifier: `shortHello` may be cut anywhere. -/
theorem ssh_and_tls_may_be_cut :
    Uncuttable plainLibrary (newAnd
      [ssh.classifier, (tls (normalizeTLSConfig plainLibrary {})).classifier]) shortHello := by
  refine ((last_state_of_stream_iff plainLibrary shortHello).1 _ ?_).mpr ?_
  · apply Assembled.and
    simp only [mem_cons, not_mem_nil, or_false, forall_eq_or_imp, forall_eq]
    exact ⟨.protocol _ trivial, .protocol _ trivial⟩
  · rintro count ⟨_, ⟨_, _, truncated⟩ | ⟨reached, ⟨_, _, truncated⟩ | ⟨_, ended⟩⟩⟩
    · exact truncated
    · cases count with
      | zero =>
        exact (TlsMemory.waiting_initial (normalizeTLSConfig plainLibrary {})).quiet truncated
      | succ count => exact reached rfl
    · exact ended

/--
`And` of the default TLS classifier and the SSH classifier on the record `shortHello`: one
call faults, while a first call on one byte lets the second child settle the result.
-/
theorem and_tls_ssh_depends_on_cuts :
    (newAnd [(tls (normalizeTLSConfig plainLibrary {})).classifier,
      ssh.classifier]).stateAfter plainLibrary shortHello [] = .error .outOfRange ∧
    (newAnd [(tls (normalizeTLSConfig plainLibrary {})).classifier,
      ssh.classifier]).stateAfter plainLibrary (shortHello.take 1)
        [shortHello.drop 1] = .ok .mismatch := by
  decide +kernel

end Gonnect.Sniffer
