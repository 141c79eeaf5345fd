import Cdcf.Gossip.Sending
import Cdcf.Library.Simulation
import Cdcf.Membership.Member

/-!
The connections of a transport, from the request to the answer (`gossip.cc`, `gossip/connection.h`,
`gossip/pull_session.h`).

A push or a pull connects to the peer and writes one frame.  The peer reads what arrives in chunks,
calls `push_handler_` or `pull_handler_`, and answers a pull with a frame, which the session reads
in chunks of its own.  All connections take turns.

* `Calls`: what this is for: each request is a call of the peer's handler, which happens once or not
  at all, and whose caller then learns what the handler has returned, or of a failure.
* `Link.connect`, `Link.read`: the senders and the sessions.
* `Service.start`: the loop of a `Connection`, with the handlers it calls.
* `Transport.step`: all of them, in turns.
-/

namespace Cdcf

namespace Gossip

open Message

/-- How something is sent: by `Push`, by `Pull` with a callback, or by `Pull` without one. -/
inductive Mode where
  | push
  | pullAsync
  | pullSync
  deriving DecidableEq, Repr

namespace Mode

/-- The caller waits for a response. -/
def isPull : Mode → Bool
  | push => false
  | pullAsync | pullSync => true

/-- `Message::Type`. -/
def type : Mode → UInt8
  | push => kPush
  | pullAsync | pullSync => kPull

end Mode

/-- What a peer is asked. -/
structure Request where
  mode : Mode
  data : List UInt8
  length_lt : data.length < 2 ^ 31

/-- The frame of a request. -/
def Request.frame (r : Request) : Frame := ⟨r.mode.type, r.data, r.length_lt⟩

/-- `push_handler_` and `pull_handler_`, over what they share. -/
structure Handlers (σ : Type*) where
  push : σ → Address → List UInt8 → σ
  pull : σ → Address → List UInt8 → σ × List UInt8
  length_lt : ∀ s address data, (pull s address data).2.length < 2 ^ 31

variable {σ : Type*}

/-! ### Calls of a peer -/

/-- The call that a request stands for; a push returns nothing. -/
def Handlers.serve (h : Handlers σ) (s : σ) (address : Address) (r : Request) : σ × List UInt8 :=
  if r.mode.isPull then h.pull s address r.data else (h.push s address r.data, [])

/-- A call: what the handler has returned, once it was called, and what the caller was told. -/
structure Call where
  address : Address
  request : Request
  answer : Option (List UInt8) := none
  results : List PullResult := []

/-- The peer and the calls that were made of it. -/
structure Calls (σ : Type*) where
  peer : σ
  calls : List Call := []

/-- What can happen to a call. -/
inductive CallTurn where
  | call (address : Address) (request : Request)
  | serve (i : ℕ)
  | complete (i : ℕ)
  | fail (i : ℕ) (code : ErrorCode)

namespace Calls

/-- A call is served once, and its caller is told once. -/
def step (h : Handlers σ) (s : Calls σ) : CallTurn → Calls σ
  | .call address request => { s with calls := s.calls ++ [{ address, request }] }
  | .serve i =>
      match s.calls[i]? with
      | some c =>
          if c.answer = none then
            let (peer, answer) := h.serve s.peer c.address c.request
            { peer, calls := s.calls.set i { c with answer := some answer } }
          else s
      | none => s
  | .complete i =>
      match s.calls[i]? with
      | some c =>
          match c.answer with
          | some answer =>
              if c.results = [] ∧ c.request.mode.isPull then
                { s with calls := s.calls.set i { c with results := [(.kOK, answer)] } }
              else s
          | none => s
      | none => s
  | .fail i code =>
      match s.calls[i]? with
      | some c =>
          if c.results = [] ∧ c.request.mode.isPull ∧ code ≠ .kOK then
            { s with calls := s.calls.set i { c with results := [(code, [])] } }
          else s
      | none => s

end Calls

/-! ### The transport -/

/-- A connection with both its ends. -/
structure Link where
  address : Address
  request : Request
  /-- The bytes on the way to the peer. -/
  toServer : List UInt8
  /-- `Connection::message_`. -/
  message : Message := ⟨[]⟩
  /-- The peer waits for more of the connection. -/
  receiving : Bool := true
  /-- What the handlers have returned when they were called for the connection. -/
  answers : List (List UInt8) := []
  /-- The bytes on the way back. -/
  toClient : List UInt8 := []
  /-- `PullSession::message_`. -/
  reply : Message := ⟨[]⟩
  /-- The reads that the session has started, or the one it waits in. -/
  reads : ℕ := 0
  /-- The calls of `did_pull_`, or what `Request` has returned. -/
  results : List PullResult := []

/-- `buffer_.size()`, of a `Connection` and of a `PullSession`. -/
def kMaxBufferSize : ℕ := 1024

namespace Link

/-- `Push` and `Pull`, up to the first read of a session. -/
def connect (address : Address) (request : Request) (socket : Socket) : Link :=
  match request.mode with
  | .push => { address, request, toServer := (push socket request.data).wire }
  | .pullAsync =>
      let sent := requestAsync socket request.data
      match sent.reported with
      | some code => { address, request, toServer := sent.wire, results := [(code, [])] }
      | none => { address, request, toServer := sent.wire, reads := 1 }
  | .pullSync =>
      let out := (Message.init kPull request.data).encode
      match socket.writeSome out with
      | some sent =>
          if sent = out.length then { address, request, toServer := out.take sent, reads := 1 }
          else { address, request, toServer := out.take sent, results := [(.kUnknown, [])] }
      -- the exception of the write is caught in `Pull`
      | none => { address, request, toServer := [], results := [(.kUnknown, [])] }

/-- `ExtractError`, for the value of the code of an exception: `host_not_found` is 1 and
`host_not_found_try_again` is 2, in their category.  The category is not looked at. -/
def extractError (value : ℤ) : ErrorCode :=
  if value = 1 ∨ value = 2 then .kHostNotFound else .kUnknown

/-- A request for which there is no connection: the exception is caught in `Push` or in `Pull`. -/
def refused (address : Address) (request : Request) (value : ℤ) : Link :=
  { address, request, toServer := [], receiving := false,
    results := if request.mode.isPull then [(extractError value, [])] else [] }

/-- The session reads a chunk.  After an exception in the handler, or if its loop does not end,
there are no more reads. -/
def read (link : Link) (chunk : List UInt8) : Link :=
  match link.request.mode with
  | .push => link
  | .pullAsync =>
      match PullSession.decodeChunkAsync chunk.length link.reply 0 chunk with
      | some (.ok (reply, more, results)) =>
          { link with reply, reads := link.reads - 1 + more, results := link.results ++ results }
      | _ => { link with reads := 0 }
  | .pullSync =>
      match PullSession.decodeChunk chunk.length link.reply 0 chunk with
      | some (.ok (reply, true)) =>
          { link with
            reply, reads := 0, results := link.results ++ [PullSession.pullResult (some reply)] }
      | some (.ok (reply, false)) => { link with reply }
      | _ => { link with reads := 0 }

/-- What a session makes of a read that fails.  The handler of `ReadMessageAsync` sees that there
are no bytes; the exception of `read_some` is caught in `Pull`. -/
def failure (mode : Mode) (value : ℤ) : ErrorCode :=
  match mode with
  | .pullSync => extractError value
  | .push | .pullAsync => .kUnknown

/-- The session reads no bytes: the stream has ended, for which `eof` has the value 2, the
connection is broken, or `Cancel` has closed the socket. -/
def readNothing (link : Link) (value : ℤ) : Link :=
  { link with
    reads := link.reads - 1, results := link.results ++ [(failure link.request.mode value, [])] }

end Link

/-- The peer while it serves a connection, and whether its thread runs on. -/
structure Service (σ : Type*) where
  peer : σ
  link : Link
  running : Bool

namespace Service

/-- `on_receive` of `StartAccept`, with `OnPull`. -/
def onReceive (h : Handlers σ) (socket : Socket) (peer : σ) (link : Link) (message : Message) :
    Service σ :=
  let buffer := message.data
  if message.type = kPush then
    { peer := h.push peer link.address buffer
      link := { link with answers := link.answers ++ [[]] }
      running := true }
  else if message.type = kPull then
    let (peer, response) := h.pull peer link.address buffer
    let sent := onPull socket response
    { peer
      link := { link with
        answers := link.answers ++ [response], toClient := link.toClient ++ sent.wire }
      running := !sent.thrown }
  else { peer, link, running := true }

/-- The loop of the handler in `Connection::Start` from the place `decoded` on, of at most `n`
rounds.  An exception ends the thread.  `connected` tells, for the bytes of the chunk that are left,
whether `remote_endpoint` still has a result. -/
def start (h : Handlers σ) (connected : ℕ → Bool) (socket : Socket) :
    ℕ → σ → Link → ℕ → List UInt8 → Option (Service σ)
  | 0, peer, link, decoded, chunk =>
      if decoded < chunk.length then none else some { peer, link, running := true }
  | n + 1, peer, link, decoded, chunk =>
      if decoded < chunk.length then
        match link.message.tryDecode (chunk.drop decoded) with
        | .error _ => some { peer, link, running := false }
        | .ok (consumed, message) =>
            let link := { link with message }
            if message.isSatisfied then
              if connected (chunk.length - (decoded + consumed)) then
                let s := onReceive h socket peer link message
                if s.running then
                  start h connected socket n s.peer { s.link with message := message.reset }
                    (decoded + consumed) chunk
                else some s
              else some { peer, link, running := false }
            else start h connected socket n peer link (decoded + consumed) chunk
      else some { peer, link, running := true }

end Service

/-- The peer, whether its `io_thread_` runs, and the connections to it. -/
structure Transport (σ : Type*) where
  peer : σ
  running : Bool := true
  links : List Link := []

/-- What can happen next. -/
inductive TransportTurn where
  /-- A request is made, over a socket that writes as it does. -/
  | connect (address : Address) (request : Request) (socket : Socket)
  /-- A request is made, and there is no connection, for an error of this value. -/
  | refuse (address : Address) (request : Request) (value : ℤ)
  /-- Some of the bytes on their way reach the peer. -/
  | receive (i n : ℕ) (connected : ℕ → Bool) (socket : Socket)
  /-- The peer gets an error or the end of the stream instead of bytes, and gives the connection
  up. -/
  | giveUp (i : ℕ)
  /-- Some of the bytes on their way back reach the session. -/
  | read (i n : ℕ)
  /-- The session gets none, but an error of this value. -/
  | readNothing (i : ℕ) (value : ℤ)

namespace Transport

/-- `async_receive` completes with so many bytes, if the peer waits for them. -/
def receive (h : Handlers σ) (s : Transport σ) (i n : ℕ) (connected : ℕ → Bool)
    (socket : Socket) : Transport σ :=
  match s.links[i]? with
  | some link =>
      if s.running ∧ link.receiving then
        let chunk := link.toServer.take (min n kMaxBufferSize)
        let link := { link with toServer := link.toServer.drop chunk.length }
        match Service.start h connected socket chunk.length s.peer link 0 chunk with
        | some t => { peer := t.peer, running := t.running, links := s.links.set i t.link }
        | none => { s with running := false }
      else s
  | none => s

/-- A read of a session completes with so many bytes, if there is one. -/
def read (s : Transport σ) (i n : ℕ) : Transport σ :=
  match s.links[i]? with
  | some link =>
      let chunk := link.toClient.take (min n kMaxBufferSize)
      if link.reads ≠ 0 ∧ chunk ≠ [] then
        let link := { link with toClient := link.toClient.drop chunk.length }
        { s with links := s.links.set i (link.read chunk) }
      else s
  | none => s

/-- A read of a session completes without bytes. -/
def readNothing (s : Transport σ) (i : ℕ) (value : ℤ) : Transport σ :=
  match s.links[i]? with
  | some link =>
      if link.reads ≠ 0 then { s with links := s.links.set i (link.readNothing value) } else s
  | none => s

/-- `async_receive` completes with an error: the handler returns, and no other is started. -/
def giveUp (s : Transport σ) (i : ℕ) : Transport σ :=
  match s.links[i]? with
  | some link => { s with links := s.links.set i { link with receiving := false } }
  | none => s

/-- One turn. -/
def step (h : Handlers σ) (s : Transport σ) : TransportTurn → Transport σ
  | .connect address request socket =>
      { s with links := s.links ++ [Link.connect address request socket] }
  | .refuse address request value =>
      { s with links := s.links ++ [Link.refused address request value] }
  | .receive i n connected socket => s.receive h i n connected socket
  | .giveUp i => s.giveUp i
  | .read i n => s.read i n
  | .readNothing i value => s.readNothing i value

end Transport

/-- A write on the socket accepts all it is offered. -/
def Socket.TakesAll (socket : Socket) : Prop :=
  ∀ bytes, socket.writeSome bytes = some bytes.length

/-- In the turn no connection breaks for the session, and no write accepts less than it is offered.
The peer may give a connection up, as it does at the end of the stream; what it has not read then
stays on its way. -/
def TransportTurn.Reliable : TransportTurn → Prop
  | .connect _ _ socket => socket.TakesAll
  | .receive _ _ connected socket => (∀ n, connected n = true) ∧ socket.TakesAll
  | .read _ _ | .giveUp _ => True
  | .refuse _ _ _ | .readNothing _ _ => False

end Gossip

end Cdcf
