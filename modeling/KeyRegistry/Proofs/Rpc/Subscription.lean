import KeyRegistry.Proofs.ValueTexts
import KeyRegistry.Rpc.Subscription
import Mathlib.Data.List.Permutation

/-!
# What a consumer receives of a subscription

Between the frames of a connection and the consumer stand the reader, the event
that it holds, and the queue.  No move loses, repeats or reorders an event on this
way unless the consumer has cancelled, and the moves that stop the reader decide
whether the node is told.
-/

namespace KeyRegistry
namespace Rpc

/-! ## Frames and notifications -/

namespace Frame

def text? : Frame -> Option String
  | .text content => some content
  | _ => none

def continues : Frame -> Bool
  | .text _ => true
  | .other => true
  | .close => false
  | .failure _ => false

/-- The texts that arrive before a close frame, a failure or the end. -/
def texts (frames : List Frame) : List String :=
  (frames.takeWhile continues).filterMap text?

/-- The connection has ended, or ends with the next frame. -/
def Ending : List Frame -> Prop
  | [] => True
  | frame :: _ => frame.continues = false

end Frame

theorem announced_eq (name : String) (feed : Feed) (frames : List Frame) :
    announced name feed frames = (Frame.texts frames).filterMap (notification? name feed) := by
  induction frames with
  | nil => rfl
  | cons frame frames ih =>
      cases frame with
      | close => rfl
      | failure detail => rfl
      | other => exact ih
      | text content =>
          have htexts : Frame.texts (.text content :: frames) = content :: Frame.texts frames := rfl
          rw [htexts, List.filterMap_cons, announced, ih]
          cases notification? name feed content <;> rfl

theorem announced_of_ending {name : String} {feed : Feed} {frames : List Frame}
    (h : Frame.Ending frames) : announced name feed frames = [] := by
  match frames, h with
  | [], _ => rfl
  | .close :: _, _ => rfl
  | .failure _ :: _, _ => rfl

/-- A message is a notification for the subscription `name`, with this result. -/
structure Notifies (name : String) (message result : Json) : Prop where
  method : message.member? "method" = some (.text "eth_subscription")
  params : ∃ params, message.member? "params" = some params ∧
    params.member? "subscription" = some (.text name) ∧ params.member? "result" = some result

/-- The block number in a notification, where it has one that can be read. -/
def blockNumber? (result : Json) : Option UInt64 := do
  let digits <- (result.member? "number").bind Json.text?
  (Quantity.parse64 digits).toOption

/-- The event that the result of a notification announces on a feed. -/
inductive Announces : Feed -> Json -> ChainEvent -> Prop where
  | block {result : Json} {text : String} {hash : Hash}
      (hmember : result.member? "hash" = some (.text text)) (hhash : Hash.parse text = .ok hash) :
      Announces .latest result (.newBlock hash (blockNumber? result))
  | transaction {text : String} {hash : Hash} (hhash : Hash.parse text = .ok hash) :
      Announces .pending (.text text) (.pendingTransaction hash)
  | transactionRecord {result : Json} {text : String} {hash : Hash}
      (hmember : result.member? "hash" = some (.text text)) (hhash : Hash.parse text = .ok hash) :
      Announces .pending result (.pendingTransaction hash)

theorem some_text_iff {value : Option Json} {text : String} :
    (∃ json, value = some json ∧ json.text? = some text) ↔ value = some (.text text) := by
  constructor
  · rintro ⟨json, rfl, htext⟩
    cases json with
    | text s => exact congrArg (some ∘ Json.text) (Option.some.inj htext)
    | _ => cases htext
  · rintro rfl
    exact ⟨_, rfl, rfl⟩

theorem some_text_named_iff {value : Option Json} {name : String} {rest : Prop} :
    (∃ text, value = some (.text text) ∧ text = name ∧ rest) ↔
      value = some (.text name) ∧ rest := by
  constructor
  · rintro ⟨text, hvalue, rfl, hrest⟩
    exact ⟨hvalue, hrest⟩
  · rintro ⟨hvalue, hrest⟩
    exact ⟨name, hvalue, rfl, hrest⟩

theorem toOption_eq_some {ε α : Type} {result : Except ε α} {a : α} :
    result.toOption = some a ↔ result = .ok a := by
  cases result <;> simp [Except.toOption]

theorem announces_latest_iff {result : Json} {event : ChainEvent} :
    Announces .latest result event ↔
      ∃ text, result.member? "hash" = some (.text text) ∧
        ∃ hash, Hash.parse text = .ok hash ∧ .newBlock hash (blockNumber? result) = event := by
  constructor
  · rintro (⟨hmember, hhash⟩ | _ | _)
    exact ⟨_, hmember, _, hhash, rfl⟩
  · rintro ⟨text, hmember, hash, hhash, rfl⟩
    exact .block hmember hhash

theorem announces_pending_iff {result : Json} {event : ChainEvent} :
    Announces .pending result event ↔
      ∃ text, (result = .text text ∨ result.member? "hash" = some (.text text)) ∧
        ∃ hash, Hash.parse text = .ok hash ∧ .pendingTransaction hash = event := by
  constructor
  · rintro (_ | hhash | ⟨hmember, hhash⟩)
    · exact ⟨_, .inl rfl, _, hhash, rfl⟩
    · exact ⟨_, .inr hmember, _, hhash, rfl⟩
  · rintro ⟨text, rfl | hmember, hash, hhash, rfl⟩
    · exact .transaction hhash
    · exact .transactionRecord hmember hhash

theorem transaction_text_iff {result : Json} {next : String -> Option ChainEvent}
    {event : ChainEvent} :
    (match result with
      | .text s => (some s).bind next
      | other => ((other.member? "hash").bind Json.text?).bind next) = some event ↔
    ∃ text, (result = .text text ∨ result.member? "hash" = some (.text text)) ∧
      next text = some event := by
  cases result with
  | text s => simp [Json.member?]
  | record members =>
      simp only [Option.bind_eq_some_iff, some_text_iff, reduceCtorEq, false_or]
  | _ => simp [Json.member?]

/-- A message announces an event exactly where it is a notification of this subscription whose
result has a readable hash. -/
theorem notification_eq_some_iff {name : String} {feed : Feed} {text : String}
    {event : ChainEvent} :
    notification? name feed text = some event ↔
      ∃ message result, Json.parse text = .ok message ∧ Notifies name message result ∧
        Announces feed result event := by
  have hnotification : notification? name feed text = some event ↔
      ∃ message, Json.parse text = .ok message ∧
        message.member? "method" = some (.text "eth_subscription") ∧
        ∃ params, message.member? "params" = some params ∧
          params.member? "subscription" = some (.text name) ∧
          ∃ result, params.member? "result" = some result ∧ Announces feed result event := by
    cases feed with
    | latest =>
        simp only [notification?, announces_latest_iff, blockNumber?, Option.bind_eq_bind,
          some_text_iff, some_text_named_iff, Option.bind_eq_some_iff, toOption_eq_some,
          Option.pure_def, ne_eq, Option.bind_none, ite_not, Option.ite_none_right_eq_some,
          Option.some.injEq]
    | pending =>
        simp only [notification?, announces_pending_iff, Option.bind_eq_bind, some_text_iff,
          some_text_named_iff, Option.bind_eq_some_iff, toOption_eq_some, Option.pure_def, ne_eq,
          Option.bind_none, ite_not, Option.ite_none_right_eq_some]
        refine exists_congr fun message => and_congr_right fun _ => and_congr_right fun _ =>
          exists_congr fun params => and_congr_right fun _ => and_congr_right fun _ =>
          exists_congr fun result => and_congr_right fun _ => transaction_text_iff.trans ?_
        simp only [Option.bind_eq_some_iff, toOption_eq_some, Option.some.injEq]
  constructor
  · intro h
    rcases hnotification.mp h with
      ⟨message, hparse, hmethod, params, hparams, hname, result, hresult, hannounces⟩
    exact ⟨message, result, hparse, ⟨hmethod, params, hparams, hname, hresult⟩, hannounces⟩
  · rintro ⟨message, result, hparse, ⟨hmethod, params, hparams, hname, hresult⟩, hannounces⟩
    exact hnotification.mpr
      ⟨message, hparse, hmethod, params, hparams, hname, result, hresult, hannounces⟩

/-! ## The way of an event -/

def ReaderState.held : ReaderState -> List ChainEvent
  | .holding event => [event]
  | .reading => []
  | .stopped => []

@[simp] theorem ReaderState.held_holding (event : ChainEvent) :
    (ReaderState.holding event).held = [event] := rfl
@[simp] theorem ReaderState.held_reading : ReaderState.reading.held = [] := rfl
@[simp] theorem ReaderState.held_stopped : ReaderState.stopped.held = [] := rfl

theorem ReaderState.length_held_le (reader : ReaderState) : reader.held.length ≤ 1 := by
  cases reader <;> simp

namespace Feeding

variable {s : Feeding} {name : String} {feed : Feed} {capacity : Nat} {frames : List Frame}

/-- The events that are on their way to the consumer, the next one first. -/
def due (s : Feeding) : List ChainEvent :=
  s.queue ++ s.reader.held ++ announced s.name s.feed s.incoming

inductive Advance (s : Feeding) : Move -> Feeding -> Prop where
  | idle {m : Move} : s.Advance m s
  | ended (hreading : s.reader = .reading) (hending : Frame.Ending s.incoming) :
      s.Advance .read s.stop
  | taken {frame : Frame} {incoming : List Frame} {reader : ReaderState}
      (hreading : s.reader = .reading) (hframes : s.incoming = frame :: incoming)
      (hrunning : reader ≠ .stopped)
      (hannounced : announced s.name s.feed s.incoming =
        reader.held ++ announced s.name s.feed incoming) :
      s.Advance .read { s with incoming, reader }
  | forwarded {event : ChainEvent} (hholding : s.reader = .holding event)
      (hopen : s.cancelled = false) (hroom : s.queue.length < s.capacity) :
      s.Advance .forward { s with queue := s.queue ++ [event], reader := .reading }
  | released (hcancelled : s.cancelled = true) (hrunning : s.reader ≠ .stopped) :
      s.Advance .notice s.leave
  | delivered {event : ChainEvent} {queue : List ChainEvent} (hqueue : s.queue = event :: queue)
      (hopen : s.cancelled = false) :
      s.Advance .take { s with queue, delivered := s.delivered ++ [event] }
  | cancelled : s.Advance .cancel { s with cancelled := true }

theorem step_read_other {rest : List Frame} (h : s.reader = .reading)
    (hframes : s.incoming = .other :: rest) : s.step .read = { s with incoming := rest } := by
  simp only [step, h, hframes]

theorem step_read_foreign {text : String} {rest : List Frame} (h : s.reader = .reading)
    (hframes : s.incoming = .text text :: rest)
    (htext : notification? s.name s.feed text = none) :
    s.step .read = { s with incoming := rest } := by
  simp only [step, h, hframes, htext]

theorem step_read_own {text : String} {event : ChainEvent} {rest : List Frame}
    (h : s.reader = .reading) (hframes : s.incoming = .text text :: rest)
    (htext : notification? s.name s.feed text = some event) :
    s.step .read = { s with incoming := rest, reader := .holding event } := by
  simp only [step, h, hframes, htext]

theorem step_read (h : s.reader = .reading) :
    Frame.Ending s.incoming ∧ s.step .read = s.stop ∨
      ∃ frame incoming reader, s.incoming = frame :: incoming ∧ reader ≠ .stopped ∧
        announced s.name s.feed s.incoming =
          reader.held ++ announced s.name s.feed incoming ∧
        s.step .read = { s with incoming, reader } := by
  have hsame : forall incoming : List Frame,
      { s with incoming } = { s with incoming, reader := .reading } := fun incoming => by rw [← h]
  cases hframes : s.incoming with
  | nil => exact .inl ⟨trivial, by simp only [step, h, hframes]⟩
  | cons frame incoming =>
      cases frame with
      | close => exact .inl ⟨rfl, by simp only [step, h, hframes]⟩
      | failure detail => exact .inl ⟨rfl, by simp only [step, h, hframes]⟩
      | other =>
          exact .inr ⟨_, incoming, .reading, rfl, nofun, rfl,
            (step_read_other h hframes).trans (hsame incoming)⟩
      | text content =>
          cases hevent : notification? s.name s.feed content with
          | none =>
              refine .inr ⟨_, incoming, .reading, rfl, nofun, ?_,
                (step_read_foreign h hframes hevent).trans (hsame incoming)⟩
              simp only [announced, hevent, ReaderState.held_reading, List.nil_append]
          | some event =>
              refine .inr ⟨_, incoming, .holding event, rfl, nofun, ?_,
                step_read_own h hframes hevent⟩
              simp only [announced, hevent, ReaderState.held_holding, List.cons_append,
                List.nil_append]

theorem advance_step (s : Feeding) (m : Move) : s.Advance m (s.step m) := by
  cases m with
  | read =>
      cases hreader : s.reader with
      | reading =>
          rcases step_read hreader with ⟨hending, hstep⟩ |
            ⟨frame, incoming, reader, hframes, hrunning, hannounced, hstep⟩
          · rw [hstep]
            exact .ended hreader hending
          · rw [hstep]
            exact .taken hreader hframes hrunning hannounced
      | holding event => simpa only [step, hreader] using Advance.idle
      | stopped => simpa only [step, hreader] using Advance.idle
  | forward =>
      cases hreader : s.reader with
      | holding event =>
          simp only [step, hreader]
          split
          next h => exact .forwarded hreader (by simpa using h.1) h.2
          next => exact .idle
      | reading => simpa only [step, hreader] using Advance.idle
      | stopped => simpa only [step, hreader] using Advance.idle
  | notice =>
      simp only [step]
      split
      next h => exact .released h.1 h.2
      next => exact .idle
  | take =>
      cases hqueue : s.queue with
      | nil => simpa only [step, hqueue] using Advance.idle
      | cons event queue =>
          simp only [step, hqueue]
          split
          next => exact .idle
          next h => exact .delivered hqueue (by simpa using h)
  | cancel => exact .cancelled

/-- What a reader that has stopped has told the node: nothing where the connection has ended, and
else that the subscription is given up. -/
inductive TookLeave (s : Feeding) : Prop where
  | ended (hending : Frame.Ending s.incoming) (hsent : s.sent = [])
  | released (hcancelled : s.cancelled = true) (hsent : s.sent = [.unsubscribe s.name, .close])

structure Conserves (name : String) (feed : Feed) (capacity : Nat) (frames : List Frame)
    (s : Feeding) : Prop where
  name_eq : s.name = name
  feed_eq : s.feed = feed
  capacity_eq : s.capacity = capacity
  inOrder : s.delivered <+: announced name feed frames
  kept : s.cancelled = false -> s.delivered ++ s.due = announced name feed frames
  silent : s.reader ≠ .stopped -> s.sent = []
  left : s.reader = .stopped -> s.TookLeave

theorem conserves_new : (new name feed capacity frames).Conserves name feed capacity frames where
  name_eq := rfl
  feed_eq := rfl
  capacity_eq := rfl
  inOrder := List.nil_prefix
  kept := fun _ => rfl
  silent := fun _ => rfl
  left := fun h => by cases h

theorem conserves_advance {m : Move} {s' : Feeding} (hadvance : s.Advance m s')
    (h : s.Conserves name feed capacity frames) : s'.Conserves name feed capacity frames := by
  cases hadvance with
  | idle => exact h
  | ended hreading hending =>
      have hsent : s.sent = [] := h.silent (by simp [hreading])
      exact { h with
        kept := fun hopen => by simpa [due, stop, hreading] using h.kept hopen
        silent := fun hrunning => absurd rfl hrunning
        left := fun _ => .ended hending hsent }
  | taken hreading hframes hrunning hannounced =>
      have hsent : s.sent = [] := h.silent (by simp [hreading])
      exact { h with
        kept := fun hopen => by
          simpa [due, hreading, hannounced] using h.kept hopen
        silent := fun _ => hsent
        left := fun hstopped => absurd hstopped hrunning }
  | forwarded hholding hopen hroom =>
      exact { h with
        kept := fun _ => by simpa [due, hholding] using h.kept hopen
        silent := fun _ => h.silent (by simp [hholding])
        left := nofun }
  | released hcancelled hrunning =>
      have hsent : s.sent = [] := h.silent hrunning
      exact { h with
        kept := fun hopen => by simp [leave, hcancelled] at hopen
        silent := fun hrunning => absurd rfl hrunning
        left := fun _ => .released hcancelled (by simp [leave, hsent]) }
  | @delivered event queue hqueue hopen =>
      have hkept : (s.delivered ++ [event]) ++
          (queue ++ s.reader.held ++ announced s.name s.feed s.incoming) =
          announced name feed frames := by
        simpa [due, hqueue] using h.kept hopen
      exact { h with
        inOrder := ⟨_, hkept⟩
        kept := fun _ => hkept
        left := fun hstopped =>
          match h.left hstopped with
          | .ended hending hsent => .ended hending hsent
          | .released hcancelled hsent => .released hcancelled hsent }
  | cancelled =>
      exact { h with
        kept := nofun
        left := fun hstopped =>
          match h.left hstopped with
          | .ended hending hsent => .ended hending hsent
          | .released _ hsent => .released rfl hsent }

theorem conserves_run (h : s.Conserves name feed capacity frames) (moves : List Move) :
    (s.run moves).Conserves name feed capacity frames := by
  induction moves generalizing s with
  | nil => exact h
  | cons m moves ih => exact ih (conserves_advance (advance_step s m) h)

theorem run_concat (s : Feeding) (moves : List Move) (m : Move) :
    s.run (moves ++ [m]) = (s.run moves).step m := by
  rw [run, List.foldl_append]
  rfl

/-! ## The end of the reader -/

theorem stopped_advance {m : Move} {s' : Feeding} (hadvance : s.Advance m s')
    (hstopped : s.reader = .stopped) : s'.reader = .stopped ∧ s'.sent = s.sent := by
  cases hadvance with
  | idle => exact ⟨hstopped, rfl⟩
  | ended hreading _ => exact absurd (hreading.symm.trans hstopped) nofun
  | taken hreading _ _ _ => exact absurd (hreading.symm.trans hstopped) nofun
  | forwarded hholding _ _ => exact absurd (hholding.symm.trans hstopped) nofun
  | released _ hrunning => exact absurd hstopped hrunning
  | delivered _ _ => exact ⟨hstopped, rfl⟩
  | cancelled => exact ⟨hstopped, rfl⟩

theorem sent_run_of_stopped (hstopped : s.reader = .stopped) (moves : List Move) :
    (s.run moves).sent = s.sent := by
  induction moves generalizing s with
  | nil => rfl
  | cons m moves ih =>
      rcases stopped_advance (advance_step s m) hstopped with ⟨hstill, hsent⟩
      exact (ih hstill).trans hsent

/-- A reader stops at the end of the connection, or where it notices that the consumer is gone. -/
theorem advance_to_stopped {m : Move} {s' : Feeding} (hadvance : s.Advance m s')
    (hrunning : s.reader ≠ .stopped) (hstopped : s'.reader = .stopped) :
    m = .read ∧ Frame.Ending s.incoming ∧ s' = s.stop ∨
      m = .notice ∧ s.cancelled = true ∧ s' = s.leave := by
  cases hadvance with
  | idle => exact absurd hstopped hrunning
  | ended _ hending => exact .inl ⟨rfl, hending, rfl⟩
  | taken _ _ hstill _ => exact absurd hstopped hstill
  | forwarded _ _ _ => cases hstopped
  | released hcancelled _ => exact .inr ⟨rfl, hcancelled, rfl⟩
  | delivered _ _ => exact absurd hstopped hrunning
  | cancelled => exact absurd hstopped hrunning

/-! ## The end of the events -/

def remaining (s : Feeding) : Nat :=
  3 * s.incoming.length + 2 * s.reader.held.length + s.queue.length +
    if s.reader = .stopped then 0 else 1

theorem advance_open {m : Move} {s' : Feeding} (hadvance : s.Advance m s') (hm : m ≠ .cancel) :
    s'.cancelled = s.cancelled ∧ s'.capacity = s.capacity := by
  cases hadvance with
  | cancelled => exact absurd rfl hm
  | _ => exact ⟨rfl, rfl⟩

/-- While events can still come, a move of the reader or of the consumer brings them nearer. -/
theorem exists_nearer (hcapacity : 0 < s.capacity) (hopen : s.cancelled = false)
    (hleft : s.isEnded = false) :
    ∃ m, m ≠ .cancel ∧ (s.step m).remaining < s.remaining := by
  cases hqueue : s.queue with
  | cons event queue =>
      refine ⟨.take, nofun, ?_⟩
      simp [step, hqueue, hopen, remaining]
  | nil =>
      cases hreader : s.reader with
      | stopped => simp [isEnded, hqueue, hreader] at hleft
      | holding event =>
          refine ⟨.forward, nofun, ?_⟩
          simp [step, hreader, hqueue, hopen, hcapacity, remaining]
      | reading =>
          refine ⟨.read, nofun, ?_⟩
          rcases step_read hreader with ⟨_, hstep⟩ |
            ⟨frame, incoming, reader, hframes, hrunning, _, hstep⟩
          · simp [hstep, stop, remaining, hreader]
          · have hheld := reader.length_held_le
            simp only [hstep, remaining, hframes, hreader, ReaderState.held_reading,
              List.length_cons, List.length_nil, hrunning, if_false, reduceCtorEq]
            omega

theorem exists_run_isEnded (hcapacity : 0 < s.capacity) (hopen : s.cancelled = false) :
    ∃ moves, Move.cancel ∉ moves ∧ (s.run moves).isEnded = true := by
  induction hremaining : s.remaining using Nat.strongRecOn generalizing s with
  | _ n ih =>
      cases hended : s.isEnded with
      | true => exact ⟨[], List.not_mem_nil, hended⟩
      | false =>
          rcases exists_nearer hcapacity hopen hended with ⟨m, hm, hless⟩
          rcases advance_open (advance_step s m) hm with ⟨hstill, hsame⟩
          rcases ih _ (hremaining ▸ hless) (hsame ▸ hcapacity) (hstill.trans hopen) rfl with
            ⟨moves, hmoves, hend⟩
          exact ⟨m :: moves, by simp [hm.symm, hmoves], hend⟩

/-! ## The whole course -/

/-- What a subscription has given to its consumer and sent to the node, where `frames` arrive after
its acknowledgement. -/
structure Delivers (name : String) (feed : Feed) (frames : List Frame) (s : Feeding) : Prop where
  inOrder : s.delivered <+: (Frame.texts frames).filterMap (notification? name feed)
  complete : s.cancelled = false -> s.isEnded = true ->
    s.delivered = (Frame.texts frames).filterMap (notification? name feed)
  /-- The end comes for a consumer that goes on reading. -/
  reachesEnd : s.cancelled = false ->
    ∃ later, Move.cancel ∉ later ∧ (s.run later).isEnded = true
  silent : s.reader ≠ .stopped -> s.sent = []
  /-- The move that stops the reader decides all that the node is sent. -/
  stops : forall m, s.reader ≠ .stopped -> (s.step m).reader = .stopped ->
    m = .notice ∧ s.cancelled = true ∧
        (forall later, ((s.step m).run later).sent = [.unsubscribe name, .close]) ∨
      m = .read ∧ Frame.Ending s.incoming ∧
        forall later, ((s.step m).run later).sent = []
  /-- A reader notices that the consumer is gone also where it waits for room in the queue. -/
  released : s.cancelled = true -> s.reader ≠ .stopped -> (s.step .notice).reader = .stopped

theorem delivers_of_conserves (hcapacity : 0 < capacity)
    (h : s.Conserves name feed capacity frames) : s.Delivers name feed frames where
  inOrder := announced_eq name feed frames ▸ h.inOrder
  complete := by
    intro hopen hended
    rw [isEnded, Bool.and_eq_true, decide_eq_true_iff, List.isEmpty_iff] at hended
    rcases hended with ⟨hstopped, hqueue⟩
    have hnone : announced s.name s.feed s.incoming = [] := by
      cases h.left hstopped with
      | ended hending _ => exact announced_of_ending hending
      | released hcancelled _ => exact absurd (hopen.symm.trans hcancelled) nofun
    have hkept := h.kept hopen
    rw [due, hqueue, hstopped, hnone] at hkept
    rw [← announced_eq, ← hkept]
    simp
  reachesEnd := exists_run_isEnded (h.capacity_eq ▸ hcapacity)
  silent := h.silent
  stops := by
    intro m hrunning hstopped
    have hsent : s.sent = [] := h.silent hrunning
    rcases advance_to_stopped (advance_step s m) hrunning hstopped with
      ⟨hm, hending, hstep⟩ | ⟨hm, hcancelled, hstep⟩
    · refine .inr ⟨hm, hending, fun later => ?_⟩
      rw [sent_run_of_stopped hstopped, hstep]
      exact hsent
    · refine .inl ⟨hm, hcancelled, fun later => ?_⟩
      rw [sent_run_of_stopped hstopped, hstep, leave, hsent, h.name_eq]
      rfl
  released := by
    intro hcancelled hrunning
    simp [step, hcancelled, hrunning, leave]

/-- After any schedule of the reader and the consumer, the consumer has the announced events in
order, all of them where it has read to the end, and the node has been told that the
subscription is given up exactly where the reader has stopped because the consumer was gone. -/
theorem delivers_run (name : String) (feed : Feed) (capacity : Nat) (frames : List Frame)
    (moves : List Move) (hcapacity : 0 < capacity) :
    ((new name feed capacity frames).run moves).Delivers name feed frames ∧
      forall text event, notification? name feed text = some event ↔
        ∃ message result, Json.parse text = .ok message ∧ Notifies name message result ∧
          Announces feed result event :=
  ⟨delivers_of_conserves hcapacity (conserves_run conserves_new moves),
    fun _ _ => notification_eq_some_iff⟩

/-! A consumer with room for one event goes away while the reader waits with the next one. -/

def foreignNotice : String :=
  "\x7b\"method\":\"eth_subscription\",\"params\":\x7b\"subscription\":\"0xce\"\x7d\x7d"

def zeroHash : String :=
  "0x0000000000000000000000000000000000000000000000000000000000000000"

def ownNotice : String :=
  "\x7b\"method\":\"eth_subscription\",\"params\":\x7b\"subscription\":\"0xcd\",\"result\":\"" ++
    zeroHash ++ "\"\x7d\x7d"

def crowded : List Frame :=
  [.text foreignNotice, .other, .text ownNotice, .text ownNotice, .close]

/-- The schedule that fills the queue, lets the reader hold a second event, and cancels. -/
def stalling : List Move :=
  [.read, .read, .read, .forward, .read, .cancel]

theorem notification_ownNotice :
    notification? "0xcd" .pending ownNotice = some (.pendingTransaction .zero) := by
  have hhash : Hash.parse zeroHash = .ok .zero := by
    have hzero : zeroHash = Hash.zero.toString := String.toList_inj.mp (by decide +kernel)
    rw [hzero]
    exact Hash.parse_toString .zero
  exact notification_eq_some_iff.mpr
    ⟨.record [("method", .text "eth_subscription"),
        ("params", .record [("subscription", .text "0xcd"), ("result", .text zeroHash)])],
      .text zeroHash, by cbv, ⟨rfl, _, rfl, rfl, rfl⟩, .transaction hhash⟩

theorem notification_foreignNotice : notification? "0xcd" .pending foreignNotice = none := by
  cbv

def reading (queue : List ChainEvent) (frames : List Frame) : Feeding :=
  { new "0xcd" .pending 1 frames with queue }

def holding (queue : List ChainEvent) (frames : List Frame) : Feeding :=
  { reading queue frames with reader := .holding (.pendingTransaction .zero) }

/-- The reader passes over what is not for it, and then holds an event for which there is no room. -/
theorem run_stalling :
    (new "0xcd" .pending 1 crowded).run stalling =
      { holding [.pendingTransaction .zero] [.close] with cancelled := true } := by
  have hforeign : (reading [] crowded).step .read = reading [] crowded.tail :=
    step_read_foreign rfl rfl notification_foreignNotice
  have hother : (reading [] crowded.tail).step .read = reading [] crowded.tail.tail :=
    step_read_other rfl rfl
  have hown : forall queue frames,
      (reading queue (.text ownNotice :: frames)).step .read = holding queue frames :=
    fun queue frames => step_read_own rfl rfl notification_ownNotice
  calc (new "0xcd" .pending 1 crowded).run stalling
      = ((((((reading [] crowded).step .read).step .read).step .read).step .forward).step
          .read).step .cancel := rfl
    _ = ((((reading [] crowded.tail.tail).step .read).step .forward).step .read).step .cancel := by
        rw [hforeign, hother]
    _ = (((holding [] [.text ownNotice, .close]).step .forward).step .read).step .cancel :=
        congrArg (fun s => ((s.step .forward).step .read).step .cancel) (hown [] _)
    _ = ((reading [.pendingTransaction .zero] [.text ownNotice, .close]).step .read).step
          .cancel := rfl
    _ = (holding [.pendingTransaction .zero] [.close]).step .cancel := by rw [hown]
    _ = _ := rfl

theorem delivers_run_stalled :
    0 < 1 ∧
      ((new "0xcd" .pending 1 crowded).run (stalling ++ [.notice])).Delivers "0xcd" .pending
        crowded ∧
      ((new "0xcd" .pending 1 crowded).run stalling).queue.length = 1 ∧
      ((new "0xcd" .pending 1 crowded).run stalling).reader =
        .holding (.pendingTransaction .zero) ∧
      ((new "0xcd" .pending 1 crowded).run (stalling ++ [.notice])).sent =
        [.unsubscribe "0xcd", .close] := by
  have hdelivers := (delivers_run "0xcd" .pending 1 crowded (stalling ++ [.notice]) Nat.one_pos).1
  refine ⟨Nat.one_pos, hdelivers, ?_, ?_, ?_⟩
  · rw [run_stalling]
    rfl
  · rw [run_stalling]
    rfl
  · rw [run_concat, run_stalling]
    rfl

end Feeding

end Rpc
end KeyRegistry
