import Cdcf.Gossip.Transport

/-!
One connection of a transport, from the request to the answer.

* `Underway`: a frame of which a part has arrived and a part is on its way.
* `Link.Sound`: the invariant: the peer holds a part of the request, or has served it; the session
  holds a part of the answer, or is done.
* `Link.Sound.start`: a chunk that reaches the peer keeps it, and is served if it is the last one.
* `Link.Sound.read`: a chunk that reaches the session keeps it.
-/

namespace Cdcf

namespace Gossip

open Message

variable {σ : Type*}

/-! ### Parts of a frame -/

/-- Of some bytes, `held` has arrived and `coming` is on its way; they have not all arrived, and
if the connection is `reliable`, nothing is missing. -/
def Underway (reliable : Prop) (bytes held coming : List UInt8) : Prop :=
  ∃ missing, held ++ coming ++ missing = bytes ∧ coming ++ missing ≠ [] ∧ (reliable → missing = [])

variable {reliable : Prop} {bytes held coming chunk rest : List UInt8}

/-- Some of it arrives: not all of it, or what was left. -/
lemma Underway.arrive (h : Underway reliable bytes held (chunk ++ rest)) :
    Underway reliable bytes (held ++ chunk) rest
        ∧ (∃ behind, held ++ chunk ++ behind = bytes ∧ behind ≠ [])
      ∨ held ++ chunk = bytes ∧ chunk ≠ [] ∧ rest = [] := by
  obtain ⟨missing, hbytes, hne, hreliable⟩ := h
  have hbehind : held ++ chunk ++ (rest ++ missing) = bytes := by
    rw [← hbytes]
    simp only [List.append_assoc]
  by_cases hend : rest ++ missing = []
  · right
    obtain ⟨rfl, rfl⟩ := List.append_eq_nil_iff.mp hend
    simp only [List.append_nil] at hbehind hne
    exact ⟨hbehind, hne, rfl⟩
  · left
    exact ⟨⟨missing, by rwa [List.append_assoc], hend, hreliable⟩, rest ++ missing, hbehind, hend⟩

/-- What a write can do: on a socket that takes all, it does. -/
lemma Socket.writeSome_cases (socket : Socket) (hreliable : reliable → socket.TakesAll)
    (bytes : List UInt8) :
    (∃ n, socket.writeSome bytes = some n ∧ (reliable → n = bytes.length))
      ∨ socket.writeSome bytes = none ∧ ¬reliable := by
  cases hwrite : socket.writeSome bytes with
  | none => exact Or.inr ⟨rfl, fun hr => absurd (hreliable hr bytes) (by simp [hwrite])⟩
  | some n =>
      exact Or.inl ⟨n, rfl, fun hr => Option.some_inj.mp (hwrite.symm.trans (hreliable hr bytes))⟩

/-- Nothing has arrived of what a write has accepted. -/
lemma Underway.start (hne : bytes ≠ []) {n : ℕ} (hall : reliable → n = bytes.length) :
    Underway reliable bytes [] (bytes.take n) := by
  refine ⟨bytes.drop n, by simp, by simpa using hne, fun hr => ?_⟩
  rw [hall hr, List.drop_length]

/-- A call on a part of a frame takes what there is of it. -/
lemma tryDecode_frame {f : Frame} {p a b : List UInt8} (h : p ++ a ++ b = f.encode) (ha : a ≠ []) :
    tryDecode ⟨p⟩ a = .ok (a.length, ⟨p ++ a⟩) := by
  have hlt := f.length_lt
  have hpos := List.length_pos_of_ne_nil ha
  have hlen := Frame.length_of_append h
  have happend : (p ++ a).length = p.length + a.length := List.length_append
  have hannounced : ∀ {q r : List UInt8}, q ++ r = f.encode → 5 ≤ q.length →
      announced q = f.payload.length := by
    intro q r hq h5
    obtain ⟨q, rfl, -⟩ := Frame.eq_header_append hq h5
    rw [announced_append (by simp), announced_header]
  have hpending : Pending p := by
    by_cases h5 : 5 ≤ p.length
    · have := hannounced (by rw [← h, List.append_assoc]) h5
      exact Or.inr (Or.inl ⟨by omega, by omega⟩)
    · exact Or.inl (by omega)
  rcases tryDecode_cases hpending ha with
    ⟨-, -, h5, hhigh, -⟩ | ⟨hcall, -⟩ | ⟨-, hwhole, hpart, hcall⟩
  · have := hannounced h h5
    omega
  · exact hcall
  · have := hannounced h (by omega)
    rw [hcall, List.take_of_length_le (by omega)]
    exact congrArg (fun n => Except.ok (n, Message.mk (p ++ a))) (by omega)

/-! ### One chunk -/

namespace Service

variable {h : Handlers σ} {connected : ℕ → Bool} {socket : Socket} {peer : σ} {link : Link}
  {message : Message} {n : ℕ}

/-- Behind the chunk the loop ends. -/
lemma start_end (n : ℕ) (peer : σ) (link : Link) (chunk : List UInt8) :
    start h connected socket n peer link chunk.length chunk
      = some { peer, link, running := true } := by
  cases n <;> simp [start]

/-- A chunk that does not complete the message. -/
lemma start_part (link : Link) (hchunk : chunk ≠ []) (hn : chunk.length ≤ n)
    (hcall : link.message.tryDecode chunk = .ok (chunk.length, message))
    (hopen : message.isSatisfied = false) :
    start h connected socket n peer link 0 chunk
      = some { peer, link := { link with message }, running := true } := by
  have hpos := List.length_pos_of_ne_nil hchunk
  obtain ⟨n, rfl⟩ : ∃ m, n = m + 1 := ⟨n - 1, by omega⟩
  rw [start, if_pos hpos, List.drop_zero, hcall]
  simp only [hopen, Bool.false_eq_true, if_false, Nat.zero_add, start_end]

/-- What the peer writes back: the answer to a pull. -/
def answered (socket : Socket) (r : Request) (answer : List UInt8) : List UInt8 :=
  if r.mode.isPull then (onPull socket answer).wire else []

/-- The connection after its request was served. -/
def served (h : Handlers σ) (socket : Socket) (peer : σ) (link : Link) : Link :=
  let answer := (h.serve peer link.address link.request).2
  { link with
    answers := link.answers ++ [answer]
    toClient := link.toClient ++ answered socket link.request answer }

/-- A request that has arrived as a whole is served. -/
lemma onReceive_frame (h : Handlers σ) (socket : Socket) (peer : σ) (link : Link) :
    ∃ running, onReceive h socket peer link ⟨link.request.frame.encode⟩
        = ⟨(h.serve peer link.address link.request).1, served h socket peer link, running⟩
      ∧ ((∀ response, (onPull socket response).thrown = false) → running = true) := by
  rw [onReceive, type_encode, data_encode]
  cases hmode : link.request.mode with
  | push =>
      refine ⟨true, ?_, fun _ => rfl⟩
      simp [Request.frame, hmode, Mode.type, Handlers.serve, Mode.isPull, served, answered]
  | pullAsync | pullSync =>
      refine ⟨!(onPull socket (h.pull peer link.address link.request.data).2).thrown, ?_, ?_⟩
      · simp [Request.frame, hmode, Mode.type, Handlers.serve, Mode.isPull, served, answered, kPull,
          kPush]
      · exact fun hwrites => by simp [hwrites]

/-- A chunk that completes the request and ends with it, unless the peer is gone. -/
lemma start_request (link : Link) (hchunk : chunk ≠ []) (hn : chunk.length ≤ n)
    (hcall : link.message.tryDecode chunk = .ok (chunk.length, ⟨link.request.frame.encode⟩))
    (hc : connected 0 = true) :
    ∃ message running, start h connected socket n peer link 0 chunk
        = some ⟨(h.serve peer link.address link.request).1,
            { served h socket peer link with message }, running⟩
      ∧ ((∀ response, (onPull socket response).thrown = false) → running = true) := by
  have hpos := List.length_pos_of_ne_nil hchunk
  obtain ⟨n, rfl⟩ : ∃ m, n = m + 1 := ⟨n - 1, by omega⟩
  have hdone : isSatisfied ⟨link.request.frame.encode⟩ = true :=
    isSatisfied_part (List.append_nil _)
  obtain ⟨running, hserved, hrunning⟩ : ∃ running,
      onReceive h socket peer { link with message := ⟨link.request.frame.encode⟩ }
          ⟨link.request.frame.encode⟩
        = ⟨(h.serve peer link.address link.request).1,
            { served h socket peer link with message := ⟨link.request.frame.encode⟩ }, running⟩
      ∧ _ := onReceive_frame h socket peer { link with message := ⟨link.request.frame.encode⟩ }
  rw [start, if_pos hpos, List.drop_zero, hcall]
  simp only [hdone, if_true, Nat.zero_add, Nat.sub_self, hc, hserved, start_end]
  cases running with
  | false => exact ⟨_, false, rfl, hrunning⟩
  | true => exact ⟨_, true, rfl, hrunning⟩

/-- If the peer is gone, the thread ends. -/
lemma start_disconnected (link : Link) (hchunk : chunk ≠ []) (hn : chunk.length ≤ n)
    (hcall : link.message.tryDecode chunk = .ok (chunk.length, message))
    (hdone : message.isSatisfied = true) (hc : ¬connected 0 = true) :
    start h connected socket n peer link 0 chunk = some ⟨peer, { link with message }, false⟩ := by
  have hpos := List.length_pos_of_ne_nil hchunk
  obtain ⟨n, rfl⟩ : ∃ m, n = m + 1 := ⟨n - 1, by omega⟩
  rw [start, if_pos hpos, List.drop_zero, hcall]
  simp only [hdone, if_true, Nat.zero_add, Nat.sub_self, hc, if_false, Bool.false_eq_true]

end Service

namespace PullSession

variable {reply : Message} {n : ℕ} {p : List UInt8}

/-- A chunk that does not complete the answer: one more read, in both modes. -/
lemma decodeChunk_part (hchunk : chunk ≠ []) (hn : chunk.length ≤ n)
    (hcall : reply.tryDecode chunk = .ok (chunk.length, ⟨p⟩))
    (hopen : isSatisfied ⟨p⟩ = false) :
    decodeChunk n reply 0 chunk = some (.ok (⟨p⟩, false))
      ∧ decodeChunkAsync n reply 0 chunk = some (.ok (⟨p⟩, 1, [])) := by
  have hpos := List.length_pos_of_ne_nil hchunk
  obtain ⟨n, rfl⟩ : ∃ m, n = m + 1 := ⟨n - 1, by omega⟩
  constructor
  · rw [decodeChunk, if_pos hpos, List.drop_zero, hcall]
    cases n <;> simp [hopen, decodeChunk]
  · rw [decodeChunkAsync, if_pos hpos, List.drop_zero, hcall]
    cases n <;> simp [hopen, decodeChunkAsync, Except.map]

/-- A chunk that completes the answer and ends with it: no more reads, in both modes. -/
lemma decodeChunk_whole (hchunk : chunk ≠ []) (hn : chunk.length ≤ n)
    (hcall : reply.tryDecode chunk = .ok (chunk.length, ⟨p⟩))
    (hdone : isSatisfied ⟨p⟩ = true) :
    decodeChunk n reply 0 chunk = some (.ok (⟨p⟩, true))
      ∧ decodeChunkAsync n reply 0 chunk = some (.ok (⟨p⟩, 0, [(.kOK, data ⟨p⟩)])) := by
  have hpos := List.length_pos_of_ne_nil hchunk
  obtain ⟨n, rfl⟩ : ∃ m, n = m + 1 := ⟨n - 1, by omega⟩
  constructor
  · rw [decodeChunk, if_pos hpos, List.drop_zero, hcall]
    simp [hdone]
  · rw [decodeChunkAsync, if_pos hpos, List.drop_zero, hcall]
    cases n <;> simp [hdone, decodeChunkAsync, Except.map]

end PullSession

/-! ### One connection -/

namespace Link

/-- The call that a connection stands for. -/
def view (link : Link) : Call where
  address := link.address
  request := link.request
  answer := link.answers.head?
  results := link.results

/-- What is known of a connection while the thread of the peer runs, or has ended. -/
structure Sound (reliable : Prop) (running : Bool) (link : Link) : Prop where
  once : link.answers = [] ∨ ∃ answer, link.answers = [answer] ∧ answer.length < 2 ^ 31
  incoming : running = true → link.answers = [] →
    Underway reliable link.request.frame.encode link.message.buffer_ link.toServer
  arrived : running = true → link.answers ≠ [] → link.toServer = []
  reads_le : link.reads ≤ 1
  waiting : link.reads = 1 → link.results = [] ∧ link.request.mode.isPull = true
  unanswered : link.answers = [] → link.toClient = [] ∧ link.reply = ⟨[]⟩
  outgoing : ∀ answer, link.reads = 1 → link.answers = [answer] →
    Underway reliable (Message.init kPullResponse answer).encode link.reply.buffer_ link.toClient
  waits : reliable → link.request.mode.isPull = true → link.results = [] → link.reads = 1
  told : reliable → ∀ result ∈ link.results, ∃ answer,
    link.answers = [answer] ∧ link.results = [(.kOK, answer)]

variable {link : Link} {running : Bool}

/-- When the thread ends, nothing need be known any more of what it has read. -/
lemma Sound.stop (h : link.Sound reliable running) (message : Message) (toServer : List UInt8) :
    Sound reliable false { link with message, toServer } where
  once := h.once
  incoming := fun hfalse => absurd hfalse (by simp)
  arrived := fun hfalse => absurd hfalse (by simp)
  reads_le := h.reads_le
  waiting := h.waiting
  unanswered := h.unanswered
  outgoing := h.outgoing
  waits := h.waits
  told := h.told

/-- A new connection on which `wire` has been written, and a read is started or not. -/
lemma sound_of_wire {address : Address} {request : Request} {wire : List UInt8} {reads : ℕ}
    {results : List PullResult} {receiving : Bool}
    (hwire : Underway reliable request.frame.encode [] wire) (hreads : reads ≤ 1)
    (hwaiting : reads = 1 → results = [] ∧ request.mode.isPull = true)
    (hreliable : reliable → results = [] ∧ (request.mode.isPull = true → reads = 1)) :
    Sound reliable running
      { address, request, toServer := wire, reads, results, receiving } where
  once := Or.inl rfl
  incoming := fun _ _ => hwire
  arrived := fun _ hne => absurd rfl hne
  reads_le := hreads
  waiting := hwaiting
  unanswered := fun _ => ⟨rfl, rfl⟩
  outgoing := fun _ _ hanswers => absurd hanswers (by simp)
  waits := fun hr hpull _ => (hreliable hr).2 hpull
  told := fun hr result hmem => by
    rw [show results = [] from (hreliable hr).1] at hmem
    exact absurd hmem List.not_mem_nil

/-- What a write has put on the wire is on its way. -/
lemma underway_take (request : Request) {n : ℕ}
    (hall : reliable → n = request.frame.encode.length) :
    Underway reliable request.frame.encode [] (request.frame.encode.take n) :=
  Underway.start (encode_init_ne_nil request.mode.type request.data) hall

/-- Nothing is on its way if nothing was written. -/
lemma underway_nil (request : Request) (hfails : ¬reliable) :
    Underway reliable request.frame.encode [] [] :=
  underway_take request (n := 0) fun hr => absurd hr hfails

lemma sound_connect (address : Address) (request : Request) {socket : Socket}
    (hreliable : reliable → socket.TakesAll) :
    (connect address request socket).Sound reliable running := by
  have hframe : ∀ {mode : Mode}, request.mode = mode →
      (Message.init mode.type request.data).encode = request.frame.encode := by
    rintro _ rfl
    rfl
  have hwrite := socket.writeSome_cases hreliable request.frame.encode
  rw [connect]
  split
  · next hmode =>
      have hnot : ¬request.mode.isPull = true := by simp [hmode, Mode.isPull]
      rw [push, show Message.init kPush _ = Message.init Mode.push.type _ from rfl, hframe hmode]
      rcases hwrite with ⟨n, hwrite, hall⟩ | ⟨hwrite, hfails⟩
      · rw [hwrite]
        exact sound_of_wire (underway_take request hall) (Nat.zero_le _) (by simp)
          fun _ => ⟨rfl, fun hpull => absurd hpull hnot⟩
      · rw [hwrite]
        exact sound_of_wire (underway_nil request hfails) (Nat.zero_le _) (by simp)
          fun hr => absurd hr hfails
  · next hmode =>
      have hpull : request.mode.isPull = true := by simp [hmode, Mode.isPull]
      rw [requestAsync, show Message.init kPull _ = Message.init Mode.pullAsync.type _ from rfl,
        hframe hmode]
      rcases hwrite with ⟨n, hwrite, hall⟩ | ⟨hwrite, hfails⟩
      · rw [hwrite]
        exact sound_of_wire (underway_take request hall) le_rfl (fun _ => ⟨rfl, hpull⟩)
          fun _ => ⟨rfl, fun _ => rfl⟩
      · rw [hwrite]
        exact sound_of_wire (underway_nil request hfails) (Nat.zero_le _) (by simp)
          fun hr => absurd hr hfails
  · next hmode =>
      have hpull : request.mode.isPull = true := by simp [hmode, Mode.isPull]
      simp only [show Message.init kPull request.data = Message.init Mode.pullSync.type _ from rfl,
        hframe hmode]
      rcases hwrite with ⟨n, hwrite, hall⟩ | ⟨hwrite, hfails⟩
      · rw [hwrite]
        dsimp only
        split
        · exact sound_of_wire (underway_take request hall) le_rfl (fun _ => ⟨rfl, hpull⟩)
            fun _ => ⟨rfl, fun _ => rfl⟩
        · next hshort =>
            exact sound_of_wire (underway_take request hall) (Nat.zero_le _) (by simp)
              fun hr => absurd (hall hr) hshort
      · rw [hwrite]
        exact sound_of_wire (underway_nil request hfails) (Nat.zero_le _) (by simp)
          fun hr => absurd hr hfails

/-- What is known of a call by a new connection: nothing, or a failure of a pull. -/
def Fresh (address : Address) (request : Request) (link : Link) : Prop :=
  link.view = { address, request }
    ∨ request.mode.isPull = true
      ∧ ∃ code, code ≠ .kOK ∧ link.view = { address, request, results := [(code, [])] }

lemma fresh_connect (address : Address) (request : Request) (socket : Socket) :
    (connect address request socket).Fresh address request := by
  rw [connect]
  split
  · exact Or.inl rfl
  · next hmode =>
      rw [requestAsync]
      split
      · exact Or.inl rfl
      · exact Or.inr ⟨by simp [hmode, Mode.isPull], .kUnknown, by decide, rfl⟩
  · next hmode =>
      have hpull : request.mode.isPull = true := by simp [hmode, Mode.isPull]
      dsimp only
      split
      · split
        · exact Or.inl rfl
        · exact Or.inr ⟨hpull, .kUnknown, by decide, rfl⟩
      · exact Or.inr ⟨hpull, .kUnknown, by decide, rfl⟩

lemma extractError_ne_kOK (value : ℤ) : extractError value ≠ .kOK := by
  rw [extractError]
  split <;> decide

lemma fresh_refused (address : Address) (request : Request) (value : ℤ) :
    (refused address request value).Fresh address request := by
  rw [refused]
  cases hpull : request.mode.isPull with
  | false => exact Or.inl rfl
  | true => exact Or.inr ⟨hpull, extractError value, extractError_ne_kOK value, rfl⟩

lemma sound_refused (address : Address) (request : Request) (value : ℤ)
    (hreliable : ¬reliable) : (refused address request value).Sound reliable running :=
  sound_of_wire (underway_nil request hreliable) (Nat.zero_le _) (by simp)
    fun hr => absurd hr hreliable

/-- The answer is underway once the request was served. -/
lemma underway_answered {socket : Socket} {request : Request} {answer : List UInt8}
    (hpull : request.mode.isPull = true)
    (hreliable : reliable → socket.TakesAll) :
    Underway reliable (Message.init kPullResponse answer).encode []
      (Service.answered socket request answer) := by
  have hne := encode_init_ne_nil kPullResponse answer
  rw [Service.answered, if_pos hpull, onPull]
  rcases socket.writeSome_cases hreliable (Message.init kPullResponse answer).encode with
    ⟨n, hwrite, hall⟩ | ⟨hwrite, hfails⟩
  · rw [hwrite]
    exact Underway.start hne hall
  · rw [hwrite]
    exact Underway.start (n := 0) hne fun hr => absurd hr hfails

/-- A part of a request arrives. -/
lemma Sound.arrive (h : link.Sound reliable true) (hanswers : link.answers = [])
    {held coming : List UInt8}
    (hunderway : Underway reliable link.request.frame.encode held coming) :
    Sound reliable true { link with message := ⟨held⟩, toServer := coming } where
  once := h.once
  incoming := fun _ _ => hunderway
  arrived := fun _ hne => absurd hanswers hne
  reads_le := h.reads_le
  waiting := h.waiting
  unanswered := h.unanswered
  outgoing := h.outgoing
  waits := h.waits
  told := h.told

/-- A request has arrived, and was served. -/
lemma Sound.answer (h : link.Sound reliable true) (hanswers : link.answers = [])
    {answer : List UInt8} (hlength : answer.length < 2 ^ 31) {socket : Socket}
    (hreliable : reliable → socket.TakesAll)
    (message : Message) :
    Sound reliable running
      { link with
        message, toServer := [], answers := link.answers ++ [answer]
        toClient := link.toClient ++ Service.answered socket link.request answer } where
  once := Or.inr ⟨answer, by simp [hanswers], hlength⟩
  incoming := fun _ hnil => absurd hnil (by simp)
  arrived := fun _ _ => rfl
  reads_le := h.reads_le
  waiting := h.waiting
  unanswered := fun hnil => absurd hnil (by simp)
  outgoing := fun answer' hreads hanswers' => by
    obtain rfl : answer = answer' := by simpa [hanswers] using hanswers'
    obtain ⟨hclient, hreply⟩ := h.unanswered hanswers
    simp only [hclient, hreply, List.nil_append]
    exact underway_answered (h.waiting hreads).2 hreliable
  waits := h.waits
  told := fun hr result hmem => by
    obtain ⟨answer', hanswers', -⟩ := h.told hr result hmem
    exact absurd hanswers' (by simp [hanswers])

/-- The loop over a chunk: it ends, and the request is served if it is all there. -/
lemma Sound.start (hsound : link.Sound reliable true) (h : Handlers σ) {connected : ℕ → Bool}
    {socket : Socket} (hconnected : reliable → ∀ n, connected n = true)
    (hsocket : reliable → socket.TakesAll)
    (hcut : link.toServer = chunk ++ rest) (peer : σ) :
    ∃ t, Service.start h connected socket chunk.length peer { link with toServer := rest } 0 chunk
        = some t
      ∧ t.link.Sound reliable t.running ∧ (reliable → t.running = true)
      ∧ (t.peer = peer ∧ t.link.view = link.view
        ∨ link.answers = [] ∧ t.peer = (h.serve peer link.address link.request).1
          ∧ t.link.view
            = { link.view with answer := some (h.serve peer link.address link.request).2 }) := by
  by_cases hchunk : chunk = []
  · subst hchunk
    obtain rfl : link.toServer = rest := hcut
    exact ⟨⟨peer, link, true⟩, Service.start_end 0 peer link [], hsound, fun _ => rfl,
      Or.inl ⟨rfl, rfl⟩⟩
  have hanswers : link.answers = [] := by
    by_contra hne
    have hnil := hsound.arrived rfl hne
    rw [hcut] at hnil
    exact hchunk (List.append_eq_nil_iff.mp hnil).1
  have hunderway := hsound.incoming rfl hanswers
  rw [hcut] at hunderway
  have hcall : ∀ {behind : List UInt8},
      link.message.buffer_ ++ chunk ++ behind = link.request.frame.encode →
      link.message.tryDecode chunk = .ok (chunk.length, ⟨link.message.buffer_ ++ chunk⟩) :=
    fun hbytes => tryDecode_frame hbytes hchunk
  rcases hunderway.arrive with ⟨hpart, behind, hbytes, hne⟩ | ⟨hwhole, -, rfl⟩
  · have hopen : isSatisfied ⟨link.message.buffer_ ++ chunk⟩ = false := by
      simpa [isSatisfied_part hbytes] using hne
    exact ⟨⟨peer, _, true⟩,
      Service.start_part { link with toServer := rest } hchunk le_rfl (hcall hbytes) hopen,
      hsound.arrive hanswers hpart, fun _ => rfl, Or.inl ⟨rfl, rfl⟩⟩
  · have hbytes : link.message.buffer_ ++ chunk ++ [] = link.request.frame.encode := by
      rw [List.append_nil, hwhole]
    have hlength : (h.serve peer link.address link.request).2.length < 2 ^ 31 := by
      rw [Handlers.serve]
      split
      · exact h.length_lt _ _ _
      · simp
    have hall := hcall hbytes
    rw [hwhole] at hall
    by_cases hc : connected 0 = true
    · obtain ⟨message, running, hstart, hrunning⟩ := Service.start_request
        (h := h) { link with toServer := [] } hchunk le_rfl hall hc
      refine ⟨_, hstart, hsound.answer hanswers hlength hsocket message, fun hr => ?_, Or.inr ?_⟩
      · exact hrunning fun response => by simp [onPull, hsocket hr _]
      · refine ⟨hanswers, rfl, ?_⟩
        simp [view, Service.served, hanswers]
    · exact ⟨_, Service.start_disconnected { link with toServer := [] } hchunk le_rfl hall
        (isSatisfied_part (List.append_nil _)) hc, hsound.stop _ _,
        fun hr => absurd (hconnected hr 0) hc, Or.inl ⟨rfl, rfl⟩⟩

/-- A part of the answer arrives. -/
lemma Sound.readPart (h : link.Sound reliable running)
    {answer held coming : List UInt8} (hanswers : link.answers = [answer])
    (hunderway : Underway reliable (Message.init kPullResponse answer).encode held coming) :
    Sound reliable running { link with reply := ⟨held⟩, toClient := coming } where
  once := h.once
  incoming := h.incoming
  arrived := h.arrived
  reads_le := h.reads_le
  waiting := h.waiting
  unanswered := fun hnil => absurd hnil (by simp [hanswers])
  outgoing := fun answer' _ hanswers' => by
    obtain rfl : answer = answer' := by simpa [hanswers] using hanswers'
    exact hunderway
  waits := h.waits
  told := h.told

/-- The session is done. -/
lemma Sound.done (h : link.Sound reliable running) {results : List PullResult}
    (hresults : results ≠ [])
    (htold : reliable → ∀ result ∈ results, ∃ answer,
      link.answers = [answer] ∧ results = [(.kOK, answer)])
    {reply : Message} {toClient : List UInt8}
    (hunanswered : link.answers = [] → toClient = [] ∧ reply = ⟨[]⟩) :
    Sound reliable running { link with reads := 0, results, reply, toClient } where
  once := h.once
  incoming := h.incoming
  arrived := h.arrived
  reads_le := Nat.zero_le _
  waiting := fun hreads => absurd hreads Nat.zero_ne_one
  unanswered := hunanswered
  outgoing := fun _ hreads => absurd hreads Nat.zero_ne_one
  waits := fun _ _ hnil => absurd hnil hresults
  told := htold

/-- A session whose answer is not complete waits for more, in both modes. -/
lemma read_part (link : Link) (hreads : link.reads = 1) (hpull : link.request.mode.isPull = true)
    {p : List UInt8} (hchunk : chunk ≠ [])
    (hcall : link.reply.tryDecode chunk = .ok (chunk.length, ⟨p⟩))
    (hopen : isSatisfied ⟨p⟩ = false) : link.read chunk = { link with reply := ⟨p⟩ } := by
  obtain ⟨hsync, hasync⟩ := PullSession.decodeChunk_part hchunk le_rfl hcall hopen
  rw [read]
  split
  · next hmode => simp [hmode, Mode.isPull] at hpull
  · rw [hasync]
    simp [hreads]
  · rw [hsync]

/-- A session whose answer is complete is done, in both modes. -/
lemma read_whole (link : Link) (hreads : link.reads = 1) (hpull : link.request.mode.isPull = true)
    {p : List UInt8} (hchunk : chunk ≠ [])
    (hcall : link.reply.tryDecode chunk = .ok (chunk.length, ⟨p⟩))
    (hdone : isSatisfied ⟨p⟩ = true) :
    link.read chunk
      = { link with
          reply := ⟨p⟩, reads := 0, results := link.results ++ [(.kOK, Message.data ⟨p⟩)] } := by
  obtain ⟨hsync, hasync⟩ := PullSession.decodeChunk_whole hchunk le_rfl hcall hdone
  rw [read]
  split
  · next hmode => simp [hmode, Mode.isPull] at hpull
  · rw [hasync]
    simp [hreads]
  · rw [hsync]
    rfl

/-- A session reads a chunk: it waits for more, or is done with the answer. -/
lemma Sound.read (h : link.Sound reliable running) (hreads : link.reads = 1)
    (hcut : link.toClient = chunk ++ rest) (hchunk : chunk ≠ []) :
    (Link.read { link with toClient := rest } chunk).Sound reliable running
      ∧ ((Link.read { link with toClient := rest } chunk).view = link.view
        ∨ ∃ answer, link.answers = [answer]
          ∧ (Link.read { link with toClient := rest } chunk).view
            = { link.view with results := [(.kOK, answer)] }) := by
  obtain ⟨hresults, hpull⟩ := h.waiting hreads
  obtain ⟨answer, hanswers, hlength⟩ : ∃ answer, link.answers = [answer]
      ∧ answer.length < 2 ^ 31 := by
    refine h.once.resolve_left fun hnil => hchunk ?_
    exact (List.append_eq_nil_iff.mp (hcut ▸ (h.unanswered hnil).1)).1
  let f : Frame := ⟨kPullResponse, answer, hlength⟩
  have hunderway : Underway reliable f.encode link.reply.buffer_ link.toClient :=
    h.outgoing answer hreads hanswers
  rw [hcut] at hunderway
  rcases hunderway.arrive with ⟨hpart, behind, hbytes, hne⟩ | ⟨hwhole, -, rfl⟩
  · have hopen : isSatisfied ⟨link.reply.buffer_ ++ chunk⟩ = false := by
      simpa [isSatisfied_part hbytes] using hne
    rw [read_part { link with toClient := rest } hreads hpull hchunk
      (tryDecode_frame hbytes hchunk) hopen]
    exact ⟨h.readPart hanswers hpart, Or.inl rfl⟩
  · have hbytes : link.reply.buffer_ ++ chunk ++ [] = f.encode := by
      rw [List.append_nil, hwhole]
    have hdone : isSatisfied ⟨link.reply.buffer_ ++ chunk⟩ = true := isSatisfied_part hbytes
    rw [read_whole { link with toClient := [] } hreads hpull hchunk
      (tryDecode_frame hbytes hchunk) hdone, hwhole, data_encode]
    have hnil : link.results ++ [(ErrorCode.kOK, answer)] = [(.kOK, answer)] := by
      rw [hresults, List.nil_append]
    dsimp only [f]
    rw [hnil]
    refine ⟨h.done (by simp) (fun _ _ _ => ⟨answer, hanswers, rfl⟩) ?_, Or.inr ?_⟩
    · exact fun hnone => absurd hnone (by simp [hanswers])
    · exact ⟨answer, hanswers, rfl⟩

lemma failure_ne_kOK (mode : Mode) (value : ℤ) : failure mode value ≠ .kOK := by
  cases mode with
  | push => simp [failure]
  | pullAsync => simp [failure]
  | pullSync => exact extractError_ne_kOK value

/-- A session that gets nothing is done with an error. -/
lemma Sound.readNothing (h : link.Sound reliable running) (hreads : link.reads = 1)
    (hreliable : ¬reliable) (value : ℤ) :
    (link.readNothing value).Sound reliable running
      ∧ (link.readNothing value).view
        = { link.view with results := [(failure link.request.mode value, [])] } := by
  have hresults := (h.waiting hreads).1
  have heq : link.readNothing value
      = { link with reads := 0, results := [(failure link.request.mode value, [])] } := by
    simp [Link.readNothing, hreads, hresults]
  rw [heq]
  exact ⟨h.done (by simp) (fun hr => absurd hr hreliable) h.unanswered, rfl⟩

lemma Sound.giveUp (h : link.Sound reliable running) :
    Sound reliable running { link with receiving := false } where
  once := h.once
  incoming := h.incoming
  arrived := h.arrived
  reads_le := h.reads_le
  waiting := h.waiting
  unanswered := h.unanswered
  outgoing := h.outgoing
  waits := h.waits
  told := h.told

end Link

end Gossip

end Cdcf
