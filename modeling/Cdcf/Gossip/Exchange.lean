import Cdcf.Gossip.Link

/-!
All connections of a transport: requests, handlers and answers.

* `Transport.simulates`, `Transport.calls_of_run`: the transport does what `Calls` does, whatever
  the sockets accept, however the bytes are cut, and wherever a connection breaks.
* `Transport.tells_always`: what `did_pull` may be told.
* `Transport.settled_of_reliable`: if nothing breaks, every request is served and every pull is
  answered once nothing is in flight.
-/

namespace Cdcf

namespace Gossip

variable {σ : Type*} {reliable : Prop}

namespace Calls

variable {h : Handlers σ} {s : Calls σ} {i : ℕ} {c : Call}

lemma step_serve (hi : s.calls[i]? = some c) (hanswer : c.answer = none) :
    step h s (.serve i)
      = ⟨(h.serve s.peer c.address c.request).1,
          s.calls.set i { c with answer := some (h.serve s.peer c.address c.request).2 }⟩ := by
  simp [step, hi, hanswer]

lemma step_complete (hi : s.calls[i]? = some c) {answer : List UInt8}
    (hanswer : c.answer = some answer) (hresults : c.results = [])
    (hpull : c.request.mode.isPull = true) :
    step h s (.complete i)
      = { s with calls := s.calls.set i { c with results := [(.kOK, answer)] } } := by
  simp [step, hi, hanswer, hresults, hpull]

lemma step_fail (hi : s.calls[i]? = some c) (hresults : c.results = [])
    (hpull : c.request.mode.isPull = true) {code : ErrorCode} (hcode : code ≠ .kOK) :
    step h s (.fail i code)
      = { s with calls := s.calls.set i { c with results := [(code, [])] } } := by
  simp [step, hi, hresults, hpull, hcode]

end Calls

namespace Transport

/-- The calls that the connections stand for. -/
def view (s : Transport σ) : Calls σ where
  peer := s.peer
  calls := s.links.map Link.view

/-- What is known of all connections. -/
structure Sound (reliable : Prop) (s : Transport σ) : Prop where
  links : ∀ link ∈ s.links, link.Sound reliable s.running
  running : reliable → s.running = true

variable {h : Handlers σ} {s : Transport σ} {i : ℕ} {link : Link}

lemma Sound.set (hs : s.Sound reliable) {running : Bool} {link' : Link}
    (hlink : link'.Sound reliable running) (hstop : running = s.running ∨ running = false)
    (hreliable : reliable → running = true) (peer : σ) :
    Sound reliable { peer, running, links := s.links.set i link' } where
  links := fun l hl => by
    rcases List.mem_or_eq_of_mem_set hl with hother | rfl
    · rcases hstop with rfl | rfl
      · exact hs.links l hother
      · exact (hs.links l hother).stop l.message l.toServer
    · exact hlink
  running := hreliable

lemma view_set (peer : σ) (running : Bool) (links : List Link) (i : ℕ) (link : Link) :
    view { peer, running, links := links.set i link }
      = ⟨peer, (links.map Link.view).set i link.view⟩ := by
  simp [view, List.map_set]

lemma getElem?_view (hi : s.links[i]? = some link) : s.view.calls[i]? = some link.view := by
  simp [view, hi]

/-- Replacing a connection by one that stands for the same call changes nothing. -/
lemma view_set_self (hi : s.links[i]? = some link) (link' : Link) (hview : link'.view = link.view)
    (running : Bool) : view { s with running, links := s.links.set i link' } = s.view := by
  have hset : (s.links.map Link.view).set i link.view = s.links.map Link.view := by
    have hi' := getElem?_view hi
    obtain ⟨hlt, hget⟩ := List.getElem?_eq_some_iff.mp hi'
    exact hget ▸ List.set_getElem_self hlt
  rw [view_set, hview, hset, view]

/-- What a turn does to the calls: a few of their turns, or none. -/
def Matched (h : Handlers σ) (s s' : Transport σ) : Prop :=
  ∃ turns, s'.view = Run.run (Calls.step h) s.view turns

lemma matched_of_eq {s' : Transport σ} (heq : s'.view = s.view) : Matched h s s' := ⟨[], heq⟩

lemma matched_of_step {s' : Transport σ} (turn : CallTurn)
    (heq : s'.view = Calls.step h s.view turn) : Matched h s s' := ⟨[turn], heq⟩

lemma Sound.receive (hs : s.Sound reliable) (i n : ℕ) {connected : ℕ → Bool} {socket : Socket}
    (hconnected : reliable → ∀ n, connected n = true) (hsocket : reliable → socket.TakesAll) :
    (s.receive h i n connected socket).Sound reliable
      ∧ Matched h s (s.receive h i n connected socket) := by
  rw [Transport.receive]
  split
  · next link hi =>
      split
      · next hopen =>
          have hlink := hs.links link (List.mem_of_getElem? hi)
          rw [hopen.1] at hlink
          have hcut := List.prefix_iff_eq_append.mp
            (List.take_prefix (min n kMaxBufferSize) link.toServer)
          obtain ⟨t, hstart, hsound, hrunning, hview⟩ :=
            hlink.start h hconnected hsocket hcut.symm s.peer
          dsimp only
          rw [hstart]
          have hstop : t.running = s.running ∨ t.running = false := by
            rw [hopen.1]
            cases t.running <;> simp
          refine ⟨hs.set hsound hstop hrunning t.peer, ?_⟩
          rcases hview with ⟨hpeer, hview⟩ | ⟨hanswers, hpeer, hview⟩
          · refine matched_of_eq ?_
            dsimp only
            rw [hpeer]
            exact view_set_self hi _ hview t.running
          · refine matched_of_step (.serve i) ?_
            rw [Calls.step_serve (getElem?_view hi) (by simp [Link.view, hanswers]), view_set,
              hpeer, hview]
            rfl
      · exact ⟨hs, matched_of_eq rfl⟩
  · exact ⟨hs, matched_of_eq rfl⟩

lemma Sound.read (hs : s.Sound reliable) (i n : ℕ) :
    (s.read i n).Sound reliable ∧ Matched h s (s.read i n) := by
  rw [Transport.read]
  split
  · next link hi =>
      dsimp only
      split
      · next hopen =>
          have hlink := hs.links link (List.mem_of_getElem? hi)
          have hcut := List.prefix_iff_eq_append.mp
            (List.take_prefix (min n kMaxBufferSize) link.toClient)
          have hreads : link.reads = 1 := by
            have := hlink.reads_le
            have := hopen.1
            omega
          obtain ⟨hsound, hview⟩ := hlink.read hreads hcut.symm hopen.2
          refine ⟨hs.set hsound (Or.inl rfl) hs.running s.peer, ?_⟩
          rcases hview with hview | ⟨answer, hanswers, hview⟩
          · exact matched_of_eq (view_set_self hi _ hview s.running)
          · obtain ⟨hresults, hpull⟩ := hlink.waiting hreads
            have hanswer : link.view.answer = some answer := by simp [Link.view, hanswers]
            refine matched_of_step (.complete i) ?_
            rw [Calls.step_complete (getElem?_view hi) hanswer hresults hpull, view_set, hview]
            rfl
      · exact ⟨hs, matched_of_eq rfl⟩
  · exact ⟨hs, matched_of_eq rfl⟩

lemma Sound.readNothing (hs : s.Sound reliable) (i : ℕ) (value : ℤ) (hreliable : ¬reliable) :
    (s.readNothing i value).Sound reliable ∧ Matched h s (s.readNothing i value) := by
  rw [Transport.readNothing]
  split
  · next link hi =>
      split
      · next hopen =>
          have hlink := hs.links link (List.mem_of_getElem? hi)
          have hreads : link.reads = 1 := by
            have := hlink.reads_le
            omega
          obtain ⟨hsound, hview⟩ := hlink.readNothing hreads hreliable value
          obtain ⟨hresults, hpull⟩ := hlink.waiting hreads
          refine ⟨hs.set hsound (Or.inl rfl) hs.running s.peer,
            matched_of_step (.fail i (Link.failure link.request.mode value)) ?_⟩
          rw [Calls.step_fail (getElem?_view hi) hresults hpull (Link.failure_ne_kOK _ value),
            view_set, hview]
          rfl
      · exact ⟨hs, matched_of_eq rfl⟩
  · exact ⟨hs, matched_of_eq rfl⟩

lemma Sound.giveUp (hs : s.Sound reliable) (i : ℕ) :
    (s.giveUp i).Sound reliable ∧ Matched h s (s.giveUp i) := by
  rw [Transport.giveUp]
  split
  · next link hi =>
      have hlink := hs.links link (List.mem_of_getElem? hi)
      exact ⟨hs.set hlink.giveUp (Or.inl rfl) hs.running s.peer,
        matched_of_eq (view_set_self hi { link with receiving := false } rfl s.running)⟩
  · exact ⟨hs, matched_of_eq rfl⟩

/-- A new connection is a new call, which may have failed already. -/
lemma Sound.add (hs : s.Sound reliable) {address : Address} {request : Request}
    (hlink : link.Sound reliable s.running) (hfresh : link.Fresh address request) :
    Sound reliable { s with links := s.links ++ [link] }
      ∧ Matched h s { s with links := s.links ++ [link] } := by
  refine ⟨⟨fun l hl => ?_, hs.running⟩, ?_⟩
  · rcases List.mem_append.mp hl with hother | hnew
    · exact hs.links l hother
    · exact List.mem_singleton.mp hnew ▸ hlink
  · have hview : view { s with links := s.links ++ [link] }
        = { s.view with calls := s.view.calls ++ [link.view] } := by simp [view]
    rcases hfresh with hfresh | ⟨hpull, code, hcode, hfresh⟩
    · exact matched_of_step (.call address request) (by rw [hview, hfresh]; rfl)
    · refine ⟨[.call address request, .fail s.links.length code], ?_⟩
      have hi : (Calls.step h s.view (.call address request)).calls[s.links.length]?
          = some { address, request } := by simp [Calls.step, view]
      have hfail := Calls.step_fail (h := h) hi rfl hpull hcode
      rw [Run.run, List.foldl_cons, List.foldl_cons, List.foldl_nil, hfail, hview, hfresh]
      simp [Calls.step, view]

/-- A turn keeps what is known, and does what a few turns of the calls do. -/
lemma Sound.step (hs : s.Sound reliable) {turn : TransportTurn}
    (hturn : reliable → turn.Reliable) :
    (s.step h turn).Sound reliable ∧ Matched h s (s.step h turn) := by
  cases turn with
  | connect address request socket =>
      exact hs.add (Link.sound_connect address request hturn)
        (Link.fresh_connect address request socket)
  | refuse address request value =>
      exact hs.add (Link.sound_refused address request value hturn)
        (Link.fresh_refused address request value)
  | receive i n connected socket =>
      exact hs.receive i n (fun hr => (hturn hr).1) (fun hr => (hturn hr).2)
  | giveUp i => exact hs.giveUp i
  | read i n => exact hs.read i n
  | readNothing i value => exact hs.readNothing i value hturn

lemma simulates (h : Handlers σ) :
    Run.Simulates (Transport.step h) (Calls.step h) view (Sound False) where
  keep := fun _ _ hs => (hs.step fun hr => hr.elim).1
  step := fun _ _ hs => (hs.step fun hr => hr.elim).2

/-- The transport at the start. -/
def start (peer : σ) : Transport σ := { peer }

lemma sound_start (peer : σ) : (start peer).Sound reliable :=
  ⟨fun _ hl => absurd hl List.not_mem_nil, fun _ => rfl⟩

/-- The transport makes calls: whatever the sockets accept, however what is written is cut, and
wherever a connection breaks, the handlers are called, and the callers told, as if each request were
a call that happens at once, if at all. -/
theorem calls_of_run (h : Handlers σ) (peer : σ) (turns : List TransportTurn) :
    ∃ calls, (Run.run (Transport.step h) (start peer) turns).view
      = Run.run (Calls.step h) { peer } calls :=
  (simulates h).run (sound_start peer) turns

/-- The call has been served, and its caller was told the answer if it waited for one. -/
def Settled (c : Call) : Prop :=
  ∃ answer, c.answer = some answer
    ∧ (c.request.mode.isPull = true → c.results = [(.kOK, answer)])

/-- With nothing on its way, nothing is held of a frame that is not whole. -/
lemma not_underway_nil {bytes held : List UInt8} : ¬Underway True bytes held [] := by
  rintro ⟨missing, -, hne, hmissing⟩
  exact hne (hmissing trivial)

lemma settled_of_sound (hlink : link.Sound True true) (hserver : link.toServer = [])
    (hclient : link.toClient = []) : Settled link.view := by
  obtain ⟨answer, hanswers, -⟩ := hlink.once.resolve_left fun hnil =>
    not_underway_nil (hserver ▸ hlink.incoming rfl hnil)
  refine ⟨answer, by simp [Link.view, hanswers], fun hpull => ?_⟩
  have hdone : link.results ≠ [] := fun hnil =>
    not_underway_nil (hclient ▸ hlink.outgoing answer (hlink.waits trivial hpull hnil) hanswers)
  obtain ⟨result, hresult⟩ := List.exists_mem_of_ne_nil _ hdone
  obtain ⟨answer', hanswers', hresults⟩ := hlink.told trivial result hresult
  obtain rfl : answer = answer' := by simpa [hanswers] using hanswers'
  exact hresults

/-- Nothing is lost: if no connection breaks and no write is cut short, then, however the bytes were
cut and wherever the peer takes a stream for ended, once nothing is on its way every request has
been served, and every pull was told its answer. -/
theorem settled_of_reliable (h : Handlers σ) (peer : σ) {turns : List TransportTurn}
    (hturns : ∀ turn ∈ turns, turn.Reliable)
    (hrest : ∀ link ∈ (Run.run (Transport.step h) (start peer) turns).links,
      link.toServer = [] ∧ link.toClient = []) :
    ∀ c ∈ (Run.run (Transport.step h) (start peer) turns).view.calls, Settled c := by
  have heach : Run.Each (Transport.step h) (fun _ turn => turn.Reliable) (start peer) turns :=
    Run.each_iff.mpr fun before turn after heq => hturns turn (by simp [heq])
  have hsound : (Run.run (Transport.step h) (start peer) turns).Sound True :=
    (Run.always_of_each (P := Sound True) (fun _ _ hs hturn => (hs.step fun _ => hturn).1)
      (sound_start peer) heach).last
  intro c hc
  obtain ⟨link, hlink, rfl⟩ := List.mem_map.mp hc
  have hs := hsound.links link hlink
  rw [hsound.running trivial] at hs
  exact settled_of_sound hs (hrest link hlink).1 (hrest link hlink).2

/-- A socket that takes all it is offered. -/
def fastSocket : Socket where
  writeSome := fun bytes => some bytes.length
  pos := by
    intro bytes n hne h
    exact Option.some_inj.mp h ▸ List.length_pos_of_ne_nil hne
  le := by
    intro bytes n h
    exact (Option.some_inj.mp h).ge

/-- A peer that remembers what it is pushed, and answers a pull with it. -/
def memory : Handlers (List UInt8) where
  push := fun s _ data => (s ++ data).take 8
  pull := fun s _ _ => (s.take 8, s.take 8)
  length_lt := by
    intro s _ _
    exact lt_of_le_of_lt (List.length_take_le 8 s) (by decide)

/-- A push and a pull, one after the other in pieces, and the ends of both streams. -/
def pushThenPull : List TransportTurn :=
  [.connect ⟨"10.0.0.2", 4445⟩ ⟨.push, [1, 2], by decide⟩ fastSocket,
    .receive 0 4 (fun _ => true) fastSocket,
    .connect ⟨"10.0.0.3", 4445⟩ ⟨.pullAsync, [], by decide⟩ fastSocket,
    .receive 0 9 (fun _ => true) fastSocket, .giveUp 0, .receive 1 9 (fun _ => true) fastSocket,
    .read 1 6, .read 1 6, .giveUp 1]

lemma reliable_pushThenPull : ∀ turn ∈ pushThenPull, turn.Reliable := by
  have hfast : fastSocket.TakesAll := fun _ => rfl
  intro turn hmem
  simp only [pushThenPull, List.mem_cons, List.not_mem_nil, or_false] at hmem
  rcases hmem with rfl | rfl | rfl | rfl | rfl | rfl | rfl | rfl | rfl <;>
    simp [TransportTurn.Reliable, hfast]

/-- The pull gets its answer. -/
theorem settled_of_reliable_two :
    ∃ c, (Run.run (Transport.step memory) (start []) pushThenPull).view.calls[1]? = some c
      ∧ Settled c :=
  ⟨_, rfl, settled_of_reliable memory [] reliable_pushThenPull (by decide) _
    (List.mem_of_getElem? (i := 1) rfl)⟩

end Transport

end Gossip

end Cdcf
