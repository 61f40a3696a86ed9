import SpannerClient.Machine.Run
import SpannerClient.ResultStream.Reassembly
import SpannerClient.ServiceError

/-!
# The resuming stream

`partialResultStream` sends the request of a query, and sends it again with the
last resume token when its stream fails.  The sets of all its streams go through
one requests stream into a checkpoint stream, which holds them back until one of
them carries a token, and from there into the stream of the user.

Chunks wait in three places: written to the requests stream and not yet seen by
the checkpoint stream, held back by the checkpoint stream, and forwarded to the
user's stream and not yet transformed.

The server is the list of its sets, of which a request is sent those after the token.
`step` is one event: a set moves on by one place, the reader answers, the stream of
the request fails or ends, and what follows of that.  `Steps` says what each event
does (`steps_of_step`).
-/

namespace SpannerClient
namespace ResultStream

open Machine

/-- What the server sends for a request: everything, or what comes after the set
that carries the token. -/
def requestFn
    (server : List PartialResultSet) :
    Option ResumeToken → List PartialResultSet
  | none => server
  | some token =>
      if token.isEmpty then
        server
      else
        (server.dropWhile fun chunk =>
          decide (chunk.resumeToken ≠ some token)).tail

/-- Where the last request is. -/
inductive Source where
  /-- The user's stream has not been read yet. -/
  | unread
  /-- The sets the server has still to send. -/
  | requested (rest : List PartialResultSet)
  /-- The stream has failed; `retry` is scheduled. -/
  | failed (err : ServiceError)
  /-- The reset of the checkpoint stream and the next request are scheduled. -/
  | retrying
  /-- The stream has ended; the flush is scheduled. -/
  | ended
  /-- The requests stream has been ended. -/
  | flushed
  /-- It will not be tried again; passing the error on is scheduled. -/
  | destroying (err : ServiceError)
  | destroyed (err : ServiceError)

/-- The state of `partialResultStream`. -/
structure Pipeline (ρ : Type) where
  source : Source := .unread
  /-- Written to the requests stream and not yet seen by the checkpoint stream. -/
  requestsStream : List PartialResultSet := []
  /-- Held back by the checkpoint stream. -/
  queued : List PartialResultSet := []
  withoutCheckpointCount : Nat := 0
  /-- Sets have been forwarded since the last checkpoint; only the specification
  reads it. -/
  overran : Bool := false
  lastResumeToken : Option ResumeToken := none
  /-- Forwarded to the user's stream and not yet transformed. -/
  forwarded : List PartialResultSet := []
  userStream : PartialResultStream ρ := {}

def maxQueued : Nat := 10

/-- The codes of `retryableCodes`, and the retryable internal errors. -/
def retryable
    (err : ServiceError) : Bool :=
  err.code == some .UNAVAILABLE || isRetryableInternalError err

/-- The set that `endListener` flushes the checkpoint stream with. -/
def flushChunk : PartialResultSet where
  resumeToken := some [95]

variable {δ ρ : Type}

namespace Pipeline

/-- A token is at hand. -/
def hasToken
    (s : Pipeline ρ) : Bool :=
  match s.lastResumeToken with
  | none => false
  | some token => !token.isEmpty

/-- `makeRequest`. -/
def makeRequest
    (server : List PartialResultSet) (s : Pipeline ρ) : Pipeline ρ :=
  { s with
    source := .requested (requestFn server s.lastResumeToken)
    userStream :=
      if s.hasToken then s.userStream.resetPendingValues
      else s.userStream }

/-- The scheduled part of `retry`. -/
def restart
    (server : List PartialResultSet) (s : Pipeline ρ) : Pipeline ρ :=
  makeRequest server { s with queued := [] }

/-- The checkpoint stream sees a set.  It forwards what it holds when the set
carries a token, and `overflow` of it when it holds more than `maxQueued`. -/
def checkpoint
    (overflow : Nat → Nat) (s : Pipeline ρ) (chunk : PartialResultSet) :
    Pipeline ρ :=
  let queued := s.queued ++ [chunk]
  if chunk.hasResumeToken then
    { s with
      withoutCheckpointCount := 0
      overran := false
      lastResumeToken := chunk.resumeToken
      forwarded := s.forwarded ++ queued
      queued := [] }
  else if maxQueued < queued.length then
    { s with
      withoutCheckpointCount := s.withoutCheckpointCount + 1
      overran := true
      forwarded := s.forwarded ++ queued.take (overflow queued.length)
      queued := queued.drop (overflow queued.length) }
  else
    { s with
      withoutCheckpointCount := s.withoutCheckpointCount + 1
      queued := queued }

/-- `retry`, up to what it schedules. -/
def retry
    (s : Pipeline ρ) (err : ServiceError) (timedOut : Bool) : Pipeline ρ :=
  if timedOut then
    { s with source := .destroying deadlineError }
  else if !retryable err ||
      decide (maxQueued < s.withoutCheckpointCount) then
    { s with source := .destroying err }
  else
    { s with source := .retrying }

/-- The error destroys the checkpoint stream, which forwards what it holds, and the
user's stream. -/
def destroy
    (s : Pipeline ρ) (err : ServiceError) : Pipeline ρ :=
  { s with
    source := .destroyed err
    overran := true
    forwarded := s.forwarded ++ s.queued
    queued := []
    userStream := { s.userStream with destroyed := true } }

/-- The user's stream takes sets. -/
def idle
    (s : Pipeline ρ) : Bool :=
  !s.userStream.waiting && !s.userStream.ended && !s.userStream.thrown

end Pipeline

/-- What happens to the streams. -/
inductive StreamEvent where
  /-- The user's stream is read for the first time. -/
  | reading
  /-- A set arrives from the server and is written to the requests stream. -/
  | receive
  /-- The checkpoint stream sees the next set. -/
  | checkpoint
  /-- The user's stream transforms the next set. -/
  | transform
  /-- The reader is going to answer so. -/
  | answer (answers : List Bool)
  /-- The user's stream tries to resume. -/
  | tryResume
  /-- The stream of the request fails. -/
  | fail (err : ServiceError)
  /-- `retry` is called. -/
  | retry (timedOut : Bool)
  /-- The checkpoint stream is reset and the request sent again. -/
  | restart
  /-- The error is passed on. -/
  | destroy
  /-- The stream of the request ends. -/
  | sourceEnd
  /-- The scheduled part of `endListener`. -/
  | flush
  /-- The end has gone through to the user's stream. -/
  | finish

/-- One event. -/
def step
    (options : RowOptions δ ρ) (server : List PartialResultSet)
    (overflow : Nat → Nat) (s : Pipeline ρ) :
    StreamEvent → Option (Pipeline ρ)
  | .reading =>
      match s.source with
      | .unread => some (s.makeRequest server)
      | _ => none
  | .receive =>
      match s.source with
      | .requested (chunk :: rest) =>
          some
            { s with
              source := .requested rest
              requestsStream := s.requestsStream ++ [chunk] }
      | _ => none
  | .checkpoint =>
      match s.source, s.requestsStream with
      | .destroyed _, _ => none
      | _, [] => none
      | _, chunk :: requestsStream =>
          some
            (Pipeline.checkpoint overflow
              { s with requestsStream := requestsStream } chunk)
  | .transform =>
      match s.forwarded with
      | [] => none
      | chunk :: forwarded =>
          if s.idle then
            some
              { s with
                forwarded := forwarded
                userStream := s.userStream.transform options chunk }
          else
            none
  | .answer answers =>
      some { s with userStream := { s.userStream with answers := answers } }
  | .tryResume =>
      if s.userStream.waiting && !s.userStream.gaveUp then
        some { s with userStream := s.userStream.tryResume options }
      else
        none
  | .fail err =>
      match s.source with
      | .requested _ => some { s with source := .failed err }
      | _ => none
  | .retry timedOut =>
      match s.source with
      | .failed err => some (s.retry err timedOut)
      | _ => none
  | .restart =>
      match s.source with
      | .retrying => some (s.restart server)
      | _ => none
  | .destroy =>
      match s.source with
      | .destroying err => some (s.destroy err)
      | _ => none
  | .sourceEnd =>
      match s.source with
      | .requested [] => some { s with source := .ended }
      | _ => none
  | .flush =>
      match s.source with
      | .ended =>
          some
            { s with
              source := .flushed
              requestsStream := s.requestsStream ++ [flushChunk] }
      | _ => none
  | .finish =>
      match s.source, s.requestsStream, s.forwarded with
      | .flushed, [], [] =>
          if s.idle then
            some
              { s with
                userStream := { s.userStream with ended := true } }
          else
            none
      | _, _, _ => none

/-- What each event does. -/
inductive Steps
    (options : RowOptions δ ρ) (server : List PartialResultSet)
    (overflow : Nat → Nat) (s : Pipeline ρ) :
    StreamEvent → Pipeline ρ → Prop where
  | reading
      (hsource : s.source = .unread) :
      Steps options server overflow s .reading (s.makeRequest server)
  | receive
      (chunk : PartialResultSet) (rest : List PartialResultSet)
      (hsource : s.source = .requested (chunk :: rest)) :
      Steps options server overflow s .receive
        { s with
          source := .requested rest
          requestsStream := s.requestsStream ++ [chunk] }
  | checkpoint
      (chunk : PartialResultSet) (rest : List PartialResultSet)
      (hrequests : s.requestsStream = chunk :: rest) :
      Steps options server overflow s .checkpoint
        (Pipeline.checkpoint overflow { s with requestsStream := rest } chunk)
  | transform
      (chunk : PartialResultSet) (rest : List PartialResultSet)
      (hforwarded : s.forwarded = chunk :: rest)
      (hidle : s.idle = true) :
      Steps options server overflow s .transform
        { s with
          forwarded := rest
          userStream := s.userStream.transform options chunk }
  | answer
      (answers : List Bool) :
      Steps options server overflow s (.answer answers)
        { s with userStream := { s.userStream with answers := answers } }
  | tryResume :
      Steps options server overflow s .tryResume
        { s with userStream := s.userStream.tryResume options }
  | fail
      (err : ServiceError) (rest : List PartialResultSet)
      (hsource : s.source = .requested rest) :
      Steps options server overflow s (.fail err)
        { s with source := .failed err }
  | retry
      (timedOut : Bool) (err : ServiceError)
      (hsource : s.source = .failed err) :
      Steps options server overflow s (.retry timedOut) (s.retry err timedOut)
  | restart
      (hsource : s.source = .retrying) :
      Steps options server overflow s .restart (s.restart server)
  | destroy
      (err : ServiceError)
      (hsource : s.source = .destroying err) :
      Steps options server overflow s .destroy (s.destroy err)
  | sourceEnd
      (hsource : s.source = .requested []) :
      Steps options server overflow s .sourceEnd { s with source := .ended }
  | flush
      (hsource : s.source = .ended) :
      Steps options server overflow s .flush
        { s with
          source := .flushed
          requestsStream := s.requestsStream ++ [flushChunk] }
  | finish
      (hsource : s.source = .flushed)
      (hrequests : s.requestsStream = [])
      (hforwarded : s.forwarded = []) :
      Steps options server overflow s .finish
        { s with userStream := { s.userStream with ended := true } }

theorem steps_of_step
    {options : RowOptions δ ρ} {server : List PartialResultSet}
    {overflow : Nat → Nat} {s t : Pipeline ρ} {e : StreamEvent}
    (hstep : step options server overflow s e = some t) :
    Steps options server overflow s e t := by
  cases e with
  | reading =>
      simp only [step] at hstep
      split at hstep
      · rename_i hsource
        obtain rfl := Option.some.inj hstep
        exact .reading hsource
      · cases hstep
  | receive =>
      simp only [step] at hstep
      split at hstep
      · rename_i chunk rest hsource
        obtain rfl := Option.some.inj hstep
        exact .receive chunk rest hsource
      · cases hstep
  | checkpoint =>
      simp only [step] at hstep
      split at hstep
      · cases hstep
      · cases hstep
      · rename_i chunk rest hrequests _
        obtain rfl := Option.some.inj hstep
        exact .checkpoint chunk rest hrequests
  | transform =>
      simp only [step] at hstep
      split at hstep
      · cases hstep
      · rename_i chunk rest hforwarded
        split at hstep
        · rename_i hidle
          obtain rfl := Option.some.inj hstep
          exact .transform chunk rest hforwarded hidle
        · cases hstep
  | answer answers =>
      obtain rfl := Option.some.inj hstep
      exact .answer answers
  | tryResume =>
      simp only [step] at hstep
      split at hstep
      · obtain rfl := Option.some.inj hstep
        exact .tryResume
      · cases hstep
  | fail err =>
      simp only [step] at hstep
      split at hstep
      · rename_i rest hsource
        obtain rfl := Option.some.inj hstep
        exact .fail err rest hsource
      · cases hstep
  | retry timedOut =>
      simp only [step] at hstep
      split at hstep
      · rename_i err hsource
        obtain rfl := Option.some.inj hstep
        exact .retry timedOut err hsource
      · cases hstep
  | restart =>
      simp only [step] at hstep
      split at hstep
      · rename_i hsource
        obtain rfl := Option.some.inj hstep
        exact .restart hsource
      · cases hstep
  | destroy =>
      simp only [step] at hstep
      split at hstep
      · rename_i err hsource
        obtain rfl := Option.some.inj hstep
        exact .destroy err hsource
      · cases hstep
  | sourceEnd =>
      simp only [step] at hstep
      split at hstep
      · rename_i hsource
        obtain rfl := Option.some.inj hstep
        exact .sourceEnd hsource
      · cases hstep
  | flush =>
      simp only [step] at hstep
      split at hstep
      · rename_i hsource
        obtain rfl := Option.some.inj hstep
        exact .flush hsource
      · cases hstep
  | finish =>
      simp only [step] at hstep
      split at hstep
      · rename_i hsource hrequests hforwarded
        split at hstep
        · obtain rfl := Option.some.inj hstep
          exact .finish hsource hrequests hforwarded
        · cases hstep
      · cases hstep

end ResultStream
end SpannerClient
