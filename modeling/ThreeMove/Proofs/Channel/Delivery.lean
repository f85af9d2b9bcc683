import Mathlib.Data.List.Induction
import ThreeMove.Channel.Loopback

/-!
# Delivery on the loopback channel

The two ends of a loopback channel make their requests in any order.  The log of the requests
and replies so far determines every next reply: a read gives the oldest accepted message that
has not been read, and whether a request fails depends only on which ends were closed and
dropped before.  A read that has to wait is answered `wouldBlock`, and it may be asked again.
-/

namespace ThreeMove

@[simp] theorem Side.other_other (side : Side) : side.other.other = side := by
  cases side <;> rfl

@[simp] theorem Side.ne_other (side : Side) : side ≠ side.other := by
  cases side <;> simp [Side.other]

@[simp] theorem Side.other_ne (side : Side) : side.other ≠ side :=
  side.ne_other.symm

theorem Side.eq_or_eq_other (side other : Side) : other = side ∨ other = side.other := by
  cases side <;> cases other <;> simp [Side.other]

namespace Loopback

structure Entry where
  side : Side
  request : Request
  reply : Reply

def answerAll : List (Side × Request) → Loopback → List Entry × Loopback
  | [], channel => ([], channel)
  | (side, request) :: requests, channel =>
      let (reply, channel) := channel.step side request
      let (log, channel) := answerAll requests channel
      (⟨side, request, reply⟩ :: log, channel)

def log (requests : List (Side × Request)) : List Entry :=
  (answerAll requests {}).1

/-- The messages that the end has sent with success. -/
def accepted (side : Side) (log : List Entry) : List Bytes :=
  log.filterMap fun entry =>
    match entry with
    | ⟨writer, .write message, .done⟩ => if writer = side then some message else none
    | _ => none

/-- The messages that the end has read. -/
def delivered (side : Side) (log : List Entry) : List Bytes :=
  log.filterMap fun entry =>
    match entry with
    | ⟨reader, .read, .message message⟩ => if reader = side then some message else none
    | _ => none

def Closed (side : Side) (log : List Entry) : Prop :=
  ⟨side, .close, .done⟩ ∈ log

def Dropped (side : Side) (log : List Entry) : Prop :=
  ⟨side, .drop, .done⟩ ∈ log

/-- How the log so far determines the reply to an end that has not been dropped. -/
def Answers (log : List Entry) (side : Side) : Request → Reply → Prop
  | .write _, reply =>
      (reply = .disconnected ↔ Closed side log ∨ Dropped side.other log) ∧
      (reply = .done ↔ ¬ (Closed side log ∨ Dropped side.other log))
  | .read, reply =>
      (∀ message, reply = .message message ↔
        ∃ rest, accepted side.other log = delivered side log ++ message :: rest) ∧
      (reply = .disconnected ↔ accepted side.other log = delivered side log ∧
        (Closed side.other log ∨ Dropped side.other log)) ∧
      (reply = .wouldBlock ↔ accepted side.other log = delivered side log ∧
        ¬ (Closed side.other log ∨ Dropped side.other log))
  | .close, reply => reply = .done
  | .drop, reply => reply = .done

def Entry.towards (side : Side) (entry : Entry) : Bool :=
  match entry.request with
  | .read => entry.side = side
  | .write _ => entry.side = side.other
  | .close | .drop => false

inductive Course (channel : Loopback) (side : Side) : Request → Reply × Loopback → Prop where
  | gone {request : Request} (hdropped : (channel.get side).dropped = true) :
      Course channel side request (.gone, channel)
  | refused {message : Bytes} (hlive : (channel.get side).dropped = false)
      (hcut : (channel.get side).closed = true ∨ (channel.get side.other).dropped = true) :
      Course channel side (.write message) (.disconnected, channel)
  | sent {message : Bytes} (hlive : (channel.get side).dropped = false)
      (hopen : (channel.get side).closed = false)
      (hpeer : (channel.get side.other).dropped = false) :
      Course channel side (.write message) (.done, channel.set side.other
        { channel.get side.other with inbox := (channel.get side.other).inbox ++ [message] })
  | received {message : Bytes} {rest : List Bytes} (hlive : (channel.get side).dropped = false)
      (hinbox : (channel.get side).inbox = message :: rest) :
      Course channel side .read (.message message,
        channel.set side { channel.get side with inbox := rest })
  | ended (hlive : (channel.get side).dropped = false) (hinbox : (channel.get side).inbox = [])
      (hcut : (channel.get side.other).closed = true ∨ (channel.get side.other).dropped = true) :
      Course channel side .read (.disconnected, channel)
  | waiting (hlive : (channel.get side).dropped = false) (hinbox : (channel.get side).inbox = [])
      (hopen : (channel.get side.other).closed = false)
      (hpeer : (channel.get side.other).dropped = false) :
      Course channel side .read (.wouldBlock, channel)
  | closes (hlive : (channel.get side).dropped = false) :
      Course channel side .close (.done, channel.set side { channel.get side with closed := true })
  | drops (hlive : (channel.get side).dropped = false) :
      Course channel side .drop (.done, channel.set side { channel.get side with dropped := true })

theorem course_step (channel : Loopback) (side : Side) (request : Request) :
    Course channel side request (channel.step side request) := by
  unfold step
  split
  · next hdropped => exact .gone hdropped
  · next hlive =>
    rw [Bool.not_eq_true] at hlive
    cases request with
    | write message =>
        dsimp only [write]
        split
        · next hcut => exact .refused hlive (by simpa using hcut)
        · next hopen =>
          rw [Bool.or_eq_true, not_or, Bool.not_eq_true, Bool.not_eq_true] at hopen
          exact .sent hlive hopen.1 hopen.2
    | read =>
        dsimp only [read]
        split
        · next message rest hinbox => exact .received hlive hinbox
        · next hinbox =>
          split
          · next hcut => exact .ended hlive hinbox (by simpa using hcut)
          · next hopen =>
            rw [Bool.or_eq_true, not_or, Bool.not_eq_true, Bool.not_eq_true] at hopen
            exact .waiting hlive hinbox hopen.1 hopen.2
    | close => exact .closes hlive
    | drop => exact .drops hlive

/-- The state of an end is what the log tells: what was sent to it and not yet read is pending. -/
structure Tracks (log : List Entry) (side : Side) (state : End) : Prop where
  closed_iff : state.closed = true ↔ Closed side log
  dropped_iff : state.dropped = true ↔ Dropped side log
  pending : accepted side.other log = delivered side log ++ state.inbox

variable {earlier : List Entry} {channel next : Loopback} {side : Side} {request : Request}
  {reply : Reply}

theorem accepted_append (side : Side) (front back : List Entry) :
    accepted side (front ++ back) = accepted side front ++ accepted side back :=
  List.filterMap_append

theorem delivered_append (side : Side) (front back : List Entry) :
    delivered side (front ++ back) = delivered side front ++ delivered side back :=
  List.filterMap_append

theorem closed_append {front back : List Entry} :
    Closed side (front ++ back) ↔ Closed side front ∨ Closed side back :=
  List.mem_append

theorem dropped_append {front back : List Entry} :
    Dropped side (front ++ back) ↔ Dropped side front ∨ Dropped side back :=
  List.mem_append

theorem Course.answers (hcourse : Course channel side request (reply, next))
    (htracks : ∀ side, Tracks earlier side (channel.get side)) (hlive : ¬ Dropped side earlier) :
    Answers earlier side request reply := by
  have hpending := (htracks side).pending
  cases hcourse with
  | gone hdropped => exact absurd ((htracks side).dropped_iff.mp hdropped) hlive
  | refused _ hcut =>
      rw [(htracks side).closed_iff, (htracks side.other).dropped_iff] at hcut
      simp [Answers, hcut]
  | sent _ hopen hpeer =>
      rw [← Bool.not_eq_true, (htracks side).closed_iff] at hopen
      rw [← Bool.not_eq_true, (htracks side.other).dropped_iff] at hpeer
      simp [Answers, hopen, hpeer]
  | received _ hinbox =>
      rw [hinbox] at hpending
      simp [Answers, hpending]
  | ended _ hinbox hcut =>
      rw [(htracks side.other).closed_iff, (htracks side.other).dropped_iff] at hcut
      rw [hinbox, List.append_nil] at hpending
      simp [Answers, hpending, hcut]
  | waiting _ hinbox hopen hpeer =>
      rw [← Bool.not_eq_true, (htracks side.other).closed_iff] at hopen
      rw [← Bool.not_eq_true, (htracks side.other).dropped_iff] at hpeer
      rw [hinbox, List.append_nil] at hpending
      simp [Answers, hpending, hopen, hpeer]
  | closes => rfl
  | drops => rfl

theorem Course.gone_iff (hcourse : Course channel side request (reply, next))
    (htracks : ∀ side, Tracks earlier side (channel.get side)) :
    reply = .gone ↔ Dropped side earlier := by
  rw [← (htracks side).dropped_iff]
  cases hcourse <;> simp_all

theorem Tracks.spared {state : End} {entry : Entry} (htracks : Tracks earlier side state)
    (haccepted : accepted side.other [entry] = []) (hdelivered : delivered side [entry] = [])
    (hclosed : ¬ Closed side [entry]) (hdropped : ¬ Dropped side [entry]) :
    Tracks (earlier ++ [entry]) side state where
  closed_iff := by rw [htracks.closed_iff, closed_append, or_iff_left hclosed]
  dropped_iff := by rw [htracks.dropped_iff, dropped_append, or_iff_left hdropped]
  pending := by
    rw [accepted_append, delivered_append, haccepted, hdelivered, List.append_nil,
      List.append_nil, htracks.pending]

@[simp] theorem get_set (channel : Loopback) (side : Side) (state : End) :
    (channel.set side state).get side = state := by
  cases side <;> rfl

@[simp] theorem get_other_set (channel : Loopback) (side : Side) (state : End) :
    (channel.set side state).get side.other = channel.get side.other := by
  cases side <;> rfl

@[simp] theorem get_set_other (channel : Loopback) (side : Side) (state : End) :
    (channel.set side.other state).get side = channel.get side := by
  cases side <;> rfl

theorem Tracks.set {state : End} (hchanged : Tracks earlier side state)
    (hother : Tracks earlier side.other (channel.get side.other)) :
    ∀ side', Tracks earlier side' ((channel.set side state).get side') := by
  intro side'
  cases side <;> cases side' <;> assumption

theorem Course.tracks (hcourse : Course channel side request (reply, next))
    (htracks : ∀ side, Tracks earlier side (channel.get side)) :
    ∀ side', Tracks (earlier ++ [⟨side, request, reply⟩]) side' (next.get side') := by
  have hown := htracks side
  have hpeer := htracks side.other
  cases hcourse with
  | gone | refused | ended | waiting =>
      intro side'
      apply (htracks side').spared <;> simp [accepted, delivered, Closed, Dropped]
  | sent =>
      apply Tracks.set
      · constructor
        · simp [hpeer.closed_iff, Closed]
        · simp [hpeer.dropped_iff, Dropped]
        · rw [accepted_append, delivered_append, hpeer.pending]
          simp [accepted, delivered]
      · rw [Side.other_other]
        apply hown.spared <;> simp [accepted, delivered, Closed, Dropped]
  | received _ hinbox =>
      apply Tracks.set
      · constructor
        · simp [hown.closed_iff, Closed]
        · simp [hown.dropped_iff, Dropped]
        · rw [accepted_append, delivered_append, hown.pending, hinbox]
          simp [accepted, delivered]
      · apply hpeer.spared <;> simp [accepted, delivered, Closed, Dropped]
  | closes =>
      apply Tracks.set
      · constructor
        · simp [Closed]
        · simp [hown.dropped_iff, Dropped]
        · rw [accepted_append, delivered_append, hown.pending]
          simp [accepted, delivered]
      · apply hpeer.spared <;> simp [accepted, delivered, Closed, Dropped]
  | drops =>
      apply Tracks.set
      · constructor
        · simp [hown.closed_iff, Closed]
        · simp [Dropped]
        · rw [accepted_append, delivered_append, hown.pending]
          simp [accepted, delivered]
      · apply hpeer.spared <;> simp [accepted, delivered, Closed, Dropped]

theorem answerAll_append (front back : List (Side × Request)) (channel : Loopback) :
    answerAll (front ++ back) channel =
      ((answerAll front channel).1 ++ (answerAll back (answerAll front channel).2).1,
        (answerAll back (answerAll front channel).2).2) := by
  induction front generalizing channel with
  | nil => rfl
  | cons call front ih => simp [answerAll, ih]

theorem log_append (front back : List (Side × Request)) :
    log (front ++ back) = log front ++ (answerAll back (answerAll front {}).2).1 := by
  rw [log, answerAll_append, log]

/-- The channel that the requests leave behind is what their log tells. -/
theorem tracks_log (requests : List (Side × Request)) :
    ∀ side, Tracks (log requests) side ((answerAll requests {}).2.get side) := by
  induction requests using List.reverseRecOn with
  | nil =>
      intro side
      constructor <;> cases side <;>
        simp [log, answerAll, get, Closed, Dropped, accepted, delivered]
  | append_singleton requests call ih =>
      rw [log_append, answerAll_append]
      exact (course_step _ call.1 call.2).tracks ih

/-- The entries before one of the log are the log of the requests before, and its reply is the one
of the channel that they leave behind. -/
theorem log_eq_append {requests : List (Side × Request)} {entry : Entry} {later : List Entry}
    (hlog : log requests = earlier ++ entry :: later) :
    ∃ front, earlier = log front ∧
      entry.reply = ((answerAll front {}).2.step entry.side entry.request).1 := by
  induction requests using List.reverseRecOn generalizing later with
  | nil => simp [log, answerAll] at hlog
  | append_singleton requests call ih =>
      rw [log_append] at hlog
      rcases List.eq_nil_or_concat later with rfl | ⟨front, last, rfl⟩
      · obtain ⟨rfl, hlast⟩ := List.append_inj' hlog rfl
        cases hlast
        exact ⟨requests, rfl, rfl⟩
      · rw [List.concat_eq_append, ← List.cons_append, ← List.append_assoc] at hlog
        exact ih (List.append_inj' hlog rfl).1

theorem delivered_replicate_read (hlive : (channel.get side).dropped = false) (count : Nat) :
    delivered side (answerAll (List.replicate count (side, .read)) channel).1 =
      (channel.get side).inbox.take count := by
  induction count generalizing channel with
  | zero => simp [answerAll, delivered]
  | succ count ih =>
      have hcourse := course_step channel side .read
      rw [List.replicate_succ, answerAll]
      generalize channel.step side .read = result at hcourse
      cases hcourse with
      | gone hdropped => simp [hdropped] at hlive
      | @received message rest _ hinbox =>
          have hrest := @ih (channel.set side { channel.get side with inbox := rest }) (by simpa)
          simp_all [delivered]
      | ended _ hinbox | waiting _ hinbox =>
          have hrest := ih hlive
          simp_all [delivered]

/-- One direction of the channel: the messages on their way to an end, and who is still there. -/
structure Lane where
  pending : List Bytes
  readerGone : Bool
  writerClosed : Bool
  writerGone : Bool

def lane (channel : Loopback) (side : Side) : Lane where
  pending := (channel.get side).inbox
  readerGone := (channel.get side).dropped
  writerClosed := (channel.get side.other).closed
  writerGone := (channel.get side.other).dropped

namespace Lane

def afterReader : Request → Lane → Lane
  | .read, lane => if lane.readerGone then lane else { lane with pending := lane.pending.tail }
  | .drop, lane => { lane with readerGone := true }
  | .write _, lane => lane
  | .close, lane => lane

def afterWriter : Request → Lane → Lane
  | .write message, lane =>
      if lane.writerGone || lane.writerClosed || lane.readerGone then lane
      else { lane with pending := lane.pending ++ [message] }
  | .close, lane => if lane.writerGone then lane else { lane with writerClosed := true }
  | .drop, lane => { lane with writerGone := true }
  | .read, lane => lane

def readReply (lane : Lane) : Reply :=
  if lane.readerGone then .gone
  else
    match lane.pending with
    | message :: _ => .message message
    | [] => if lane.writerClosed || lane.writerGone then .disconnected else .wouldBlock

def writeReply (lane : Lane) : Reply :=
  if lane.writerGone then .gone
  else if lane.writerClosed || lane.readerGone then .disconnected
  else .done

end Lane

theorem Course.lane_reader (hcourse : Course channel side request (reply, next)) :
    next.lane side = Lane.afterReader request (channel.lane side) := by
  cases hcourse with
  | gone hdropped => cases request <;> simp [lane, Lane.afterReader, hdropped]
  | _ => simp_all [lane, Lane.afterReader]

theorem Course.lane_writer (hcourse : Course channel side.other request (reply, next)) :
    next.lane side = Lane.afterWriter request (channel.lane side) := by
  cases hcourse with
  | gone hdropped => cases request <;> simp [lane, Lane.afterWriter, hdropped]
  | _ => simp_all [lane, Lane.afterWriter]

theorem Course.read_reply (hcourse : Course channel side .read (reply, next)) :
    reply = (channel.lane side).readReply := by
  cases hcourse <;> simp_all [lane, Lane.readReply]

theorem Course.write_reply {message : Bytes}
    (hcourse : Course channel side.other (.write message) (reply, next)) :
    reply = (channel.lane side).writeReply := by
  cases hcourse <;> simp_all [lane, Lane.writeReply]

theorem towards_of_lane {other : Loopback} (hlane : channel.lane side = other.lane side)
    (requests : List (Side × Request)) :
    (answerAll requests channel).1.filter (Entry.towards side) =
      (answerAll requests other).1.filter (Entry.towards side) := by
  induction requests generalizing channel other with
  | nil => rfl
  | cons call requests ih =>
      obtain ⟨caller, request⟩ := call
      have hcourse := course_step channel caller request
      have hcourse' := course_step other caller request
      rw [answerAll, answerAll]
      generalize channel.step caller request = result at *
      generalize other.step caller request = result' at *
      rcases Side.eq_or_eq_other side caller with rfl | rfl
      · have hnext : result.2.lane caller = result'.2.lane caller := by
          rw [hcourse.lane_reader, hcourse'.lane_reader, hlane]
        have hrest := ih hnext
        cases request with
        | read => simp [List.filter_cons, hrest, hcourse.read_reply, hcourse'.read_reply, hlane]
        | write | close | drop => simp [Entry.towards, hrest]
      · have hnext : result.2.lane side = result'.2.lane side := by
          rw [hcourse.lane_writer, hcourse'.lane_writer, hlane]
        have hrest := ih hnext
        cases request with
        | write => simp [List.filter_cons, hrest, hcourse.write_reply, hcourse'.write_reply, hlane]
        | read | close | drop => simp [Entry.towards, hrest]

/-- Closing an end makes no difference to what it reads and to what is sent to it. -/
theorem towards_close (channel : Loopback) (side : Side) (later : List (Side × Request)) :
    (answerAll ((side, .close) :: later) channel).1.filter (Entry.towards side) =
      (answerAll later channel).1.filter (Entry.towards side) := by
  have hcourse := course_step channel side .close
  rw [answerAll]
  generalize channel.step side .close = result at hcourse
  have hrest := towards_of_lane hcourse.lane_reader later
  simp [Entry.towards, hrest]

/-- Whatever the two ends of a new channel ask in which order: each end reads a beginning of what
the other has sent, in order, and reads on to its end if it asks often enough; the log so far
determines the reply to each request; and closing an end anywhere on the way makes no difference
to what it reads and to what is sent to it. -/
theorem delivers_in_order (requests : List (Side × Request)) :
    (∀ side, delivered side (log requests) <+: accepted side.other (log requests)) ∧
    (∀ side, ¬ Dropped side (log requests) → ∀ count,
      (accepted side.other (log requests)).length ≤
        (delivered side (log requests)).length + count →
      delivered side (log (requests ++ List.replicate count (side, .read))) =
        accepted side.other (log requests)) ∧
    (∀ earlier entry later, log requests = earlier ++ entry :: later →
      (entry.reply = .gone ↔ Dropped entry.side earlier) ∧
      (¬ Dropped entry.side earlier → Answers earlier entry.side entry.request entry.reply)) ∧
    ∀ side later, (log (requests ++ (side, .close) :: later)).filter (Entry.towards side) =
      (log (requests ++ later)).filter (Entry.towards side) := by
  have htracks := tracks_log requests
  refine ⟨fun side => ?_, fun side hlive count hcount => ?_, fun earlier entry later hlog => ?_,
    fun side later => ?_⟩
  · exact ⟨_, (htracks side).pending.symm⟩
  · have hpending := (htracks side).pending
    rw [← (htracks side).dropped_iff, Bool.not_eq_true] at hlive
    rw [hpending, List.length_append] at hcount
    rw [log_append, delivered_append, delivered_replicate_read hlive, hpending,
      List.take_of_length_le (by omega)]
  · obtain ⟨front, rfl, hreply⟩ := log_eq_append hlog
    have hcourse := course_step (answerAll front {}).2 entry.side entry.request
    rw [hreply]
    exact ⟨hcourse.gone_iff (tracks_log front), hcourse.answers (tracks_log front)⟩
  · rw [log_append, log_append, List.filter_append, List.filter_append, towards_close]

/-- What is pending at a close is still read, and a dropped end receives nothing. -/
example : (log [(.left, .write [7]), (.left, .close), (.left, .write [8]), (.right, .read),
      (.right, .read), (.left, .drop), (.right, .write [9])]).map Entry.reply =
    [.done, .done, .disconnected, .message [7], .disconnected, .done, .disconnected] := by
  decide

end Loopback

end ThreeMove
