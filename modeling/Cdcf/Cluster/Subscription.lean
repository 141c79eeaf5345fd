import Cdcf.Cluster.Mirror
import Cdcf.NodeKeeper.Channel

/-!
An actor system that joins its node keeper while the keeper goes on: `ClusterImpl` (`cluster.cc`)
beside `GRPCImpl` (`grpc.cc`).

`GRPCImpl::Notify` updates `members_` and then, under the lock of the channels, puts its events
into them; between the two steps the client may take any of its own.  The client calls
`GetMembers` when it is built and again at the head of its thread, then `Subscribe`, and carries
out what comes through the channel.

* `mirror`: the set, and the list once everything outstanding has reached it.  While the client
  is subscribed it goes through the steps of `Mirror.step`, all events of a `Notify` at its update
  (`mirror_notify`), and no other step touches it.
* `follows_always`: a client that has read everything has the members of the set, in every run
  where what it fetched is not behind the set when it subscribes, nor ahead of what is still to be
  delivered, and where afterwards each event meets `Mirror.Meets`.
* `follows_always_of_quiet`: this is so if no `Notify` comes between the last `Fetch` and
  `Subscribe`.
* `follows_lost`: a `Notify` that comes between `Fetch` and `Subscribe` is never heard of.
-/

namespace Cdcf.Cluster

open Sample

/-- Where the client is. -/
inductive Stage where
  /-- Before the `Fetch` of the constructor. -/
  | constructing
  /-- Before the `Fetch` of `Routine`. -/
  | starting
  /-- Before `Subscribe`. -/
  | fetched
  /-- In the loop of `Routine`. -/
  | reading
  deriving DecidableEq, Repr

/-- The service and one client. -/
structure Session where
  /-- `GRPCImpl::host_`. -/
  host : String
  /-- `GRPCImpl::members_`. -/
  members : MemberSet := OrderedMap.empty
  /-- The events of the `Notify` that has updated `members_` and not yet taken the lock. -/
  notifying : Option (List MemberEvent) := none
  /-- The client's entry of `channels_`. -/
  channel : Option (Channel MemberEvent) := none
  stage : Stage := .constructing
  /-- `ClusterImpl::members_`. -/
  list : List Member := []

/-- What can happen next. -/
inductive Turn where
  /-- The first half of a `Notify`, which updates `members_`. -/
  | notify (events : List MemberEvent)
  /-- The second half, which puts the events into the channels. -/
  | deliver
  /-- `ClusterImpl::Fetch`, with what `status.ok()` says. -/
  | fetch (ok : Bool)
  /-- `AddChannel` of `GRPCImpl::Subscribe`. -/
  | subscribe
  /-- A round of the loop of `GRPCImpl::Subscribe` and of `Routine`. -/
  | read
  deriving DecidableEq, Repr

namespace Session

/-- A keeper without members, and a client before its constructor. -/
def start (host : String) : Session := { host := host }

/-- `ClusterImpl::Fetch`. -/
def fetch (s : Session) (ok : Bool) : List Member :=
  if ok then fetched (getMembers s.members) else s.list

/-- The second half of `GRPCImpl::Notify`, on the client's channel. -/
def deliver (s : Session) (events : List MemberEvent) : Option (Channel MemberEvent) :=
  s.channel.map fun channel => (channel.putAll (remote s.host events)).getD channel

/-- A turn; one that cannot be taken changes nothing.  Only the loop of `NodeKeeper::Run` calls
`Notify`, one call after the other. -/
def step (s : Session) : Turn → Session
  | .notify events =>
    match s.notifying with
    | none => { s with members := Cdcf.notify s.members events, notifying := some events }
    | some _ => s
  | .deliver =>
    match s.notifying with
    | none => s
    | some events => { s with notifying := none, channel := s.deliver events }
  | .fetch ok =>
    match s.stage with
    | .constructing => { s with stage := .starting, list := s.fetch ok }
    | .starting => { s with stage := .fetched, list := s.fetch ok }
    | .fetched | .reading => s
  | .subscribe =>
    match s.stage with
    | .fetched => { s with stage := .reading, channel := some {} }
    | .constructing | .starting | .reading => s
  | .read =>
    match s.channel.bind Channel.get with
    | some (some item, channel) =>
      { s with channel := some channel, list := update s.list (subscribeItem item) }
    | some (none, _) | none => s

/-- The list of a client that is subscribed and has read everything, while no `Notify` is under
way, holds the members of the set that are not on the own host, each once, and no other. -/
def Follows (s : Session) : Prop :=
  ∀ channel ∈ s.channel, channel.queue = [] → s.notifying = none →
    (Mirror.mk s.members s.list).Matches s.host

/-- The events that the list has not carried out: those in the channel, and those of a `Notify`
under way. -/
def outstanding (s : Session) : List MemberEvent :=
  (s.channel.elim [] Channel.queue) ++ remote s.host (s.notifying.getD [])

/-- The set, and the list once everything outstanding has reached it. -/
def mirror (s : Session) : Mirror := ⟨s.members, updates s.list s.outstanding⟩

/-- When the client subscribes, what it has fetched and what is still to be delivered give the
members of the set; the events of a `Notify` while it is subscribed meet `Mirror.Meets`, one after
the other. -/
def InTime (s : Session) : Turn → Prop
  | .notify events => s.notifying = none → s.channel.isSome = true →
      Run.Each (Mirror.step s.host) (Mirror.Meets s.host) s.mirror events
  | .subscribe => s.stage = .fetched → s.mirror.Matches s.host
  | .deliver | .fetch _ | .read => True

instance (s : Session) : Decidable s.Follows :=
  inferInstanceAs (Decidable (∀ channel ∈ s.channel, _))

instance (s : Session) : ∀ t, Decidable (s.InTime t)
  | .notify _ => inferInstanceAs (Decidable (_ → _ → _))
  | .subscribe => inferInstanceAs (Decidable (_ → _))
  | .deliver | .fetch _ | .read => isTrue trivial

/-! ### What the turns do to the mirror -/

/-- The channel is there once the client is subscribed, and stays open. -/
def Sound (s : Session) : Prop :=
  (s.channel.isSome = true ↔ s.stage = .reading) ∧ ∀ channel ∈ s.channel, channel.closed = false

lemma sound_start (host : String) : (start host).Sound := by
  simp [Sound, start]

/-- A client that has not subscribed has no channel. -/
lemma Sound.channel_eq_none {s : Session} (hs : s.Sound) (h : s.stage = .fetched) :
    s.channel = none := by
  have hnot : ¬s.channel.isSome = true := hs.1.not.mpr (by rw [h]; simp)
  simpa using hnot

/-- Delivery appends the events that are not about the own host. -/
lemma deliver_of_sound {s : Session} (hs : s.Sound) {channel : Channel MemberEvent}
    (h : s.channel = some channel) (events : List MemberEvent) :
    s.deliver events = some { channel with queue := channel.queue ++ remote s.host events } := by
  have hopen := hs.2 channel h
  rw [deliver, h, Option.map_some, Channel.putAll_of_open hopen, Option.getD_some]

/-- A turn keeps the channel there and open. -/
lemma sound_step {s : Session} (hs : s.Sound) (t : Turn) : (s.step t).Sound := by
  cases t with
  | notify events =>
      rw [step]
      split <;> exact hs
  | deliver =>
      rw [step]
      split
      · exact hs
      · next events _ =>
          refine ⟨?_, fun channel hchannel => ?_⟩
          · have hsome : (s.deliver events).isSome = s.channel.isSome := Option.isSome_map
            exact hsome ▸ hs.1
          · obtain ⟨channel', hc, -⟩ := Option.map_eq_some_iff.mp hchannel
            have hd : s.deliver events = some channel := hchannel
            rw [deliver_of_sound hs hc] at hd
            rw [← Option.some.inj hd]
            exact hs.2 channel' hc
  | fetch ok =>
      rw [step]
      cases h : s.stage <;> simpa [Sound, h] using hs
  | subscribe =>
      rw [step]
      cases h : s.stage with
      | fetched => simp [Sound]
      | constructing => exact hs
      | starting => exact hs
      | reading => exact hs
  | read =>
      rw [step]
      split
      · next item channel hget =>
          obtain ⟨channel', hc, hitem⟩ := Option.bind_eq_some_iff.mp hget
          refine ⟨by simpa [hc] using hs.1, ?_⟩
          rintro _ ⟨⟩
          rw [(Channel.get_eq_some hitem).2]
          exact hs.2 channel' hc
      · exact hs
      · exact hs

/-- Only `subscribe` adds a channel. -/
lemma isSome_channel_step (s : Session) {t : Turn} (ht : t ≠ .subscribe) :
    (s.step t).channel.isSome = s.channel.isSome := by
  cases t with
  | notify events =>
      rw [step]
      split <;> rfl
  | deliver =>
      rw [step]
      split
      · rfl
      · exact Option.isSome_map
  | fetch ok =>
      rw [step]
      split <;> rfl
  | subscribe => exact absurd rfl ht
  | read =>
      rw [step]
      split
      · next hget =>
          obtain ⟨channel, hc, -⟩ := Option.bind_eq_some_iff.mp hget
          rw [hc, Option.isSome_some, Option.isSome_some]
      · rfl
      · rfl

/-- While the client is subscribed, the first half of a `Notify` takes the mirror through its
events. -/
lemma mirror_notify {s : Session} (h : s.notifying = none) (events : List MemberEvent) :
    (s.step (.notify events)).mirror = Run.run (Mirror.step s.host) s.mirror events := by
  have hstep : s.step (.notify events)
      = { s with members := Cdcf.notify s.members events, notifying := some events } := by
    rw [step, h]
  have houtstanding : s.outstanding = s.channel.elim [] Channel.queue := by
    rw [outstanding, h, Option.getD_none, remote, List.filter_nil, List.append_nil]
  have hmirror : s.mirror = ⟨s.members, updates s.list (s.channel.elim [] Channel.queue)⟩ := by
    rw [mirror, houtstanding]
  calc (s.step (.notify events)).mirror
      = ⟨Cdcf.notify s.members events,
          updates s.list (s.channel.elim [] Channel.queue ++ remote s.host events)⟩ := by
        rw [hstep]
        rfl
    _ = ⟨Cdcf.notify s.members events,
          updates (updates s.list (s.channel.elim [] Channel.queue)) (remote s.host events)⟩ := by
        rw [updates_append]
    _ = Run.run (Mirror.step s.host) s.mirror events := by rw [Mirror.run_step, hmirror]

/-- Delivery moves the events on, which stay outstanding. -/
lemma mirror_deliver {s : Session} (hs : s.Sound) (h : s.channel.isSome = true) :
    (s.step .deliver).mirror = s.mirror := by
  obtain ⟨channel, hc⟩ := Option.isSome_iff_exists.mp h
  rw [step]
  split
  · rfl
  · next events hnotifying =>
      rw [mirror, mirror, outstanding, outstanding, deliver_of_sound hs hc, hc, hnotifying]
      simp [remote]

/-- A round of the loops carries out what was outstanding first. -/
lemma mirror_read (s : Session) : (s.step .read).mirror = s.mirror := by
  rw [step]
  split
  · next item channel hget =>
      obtain ⟨channel', hc, hitem⟩ := Option.bind_eq_some_iff.mp hget
      rw [mirror, mirror, outstanding, outstanding, hc, Option.elim_some, Option.elim_some,
        (Channel.get_eq_some hitem).1]
      rfl
  · rfl
  · rfl

/-- A subscription starts with an empty channel. -/
lemma mirror_subscribe {s : Session} (hs : s.Sound) : (s.step .subscribe).mirror = s.mirror := by
  rw [step]
  cases h : s.stage with
  | fetched =>
      have hnone := hs.channel_eq_none h
      rw [mirror, mirror, outstanding, outstanding, hnone]
      rfl
  | constructing => rfl
  | starting => rfl
  | reading => rfl

/-! ### Runs -/

/-- While the client is subscribed, the set and the list match but for what is outstanding. -/
def Mirrored (s : Session) : Prop := s.channel.isSome = true → s.mirror.Matches s.host

/-- With nothing outstanding the list itself matches the set. -/
lemma Mirrored.follows {s : Session} (h : s.Mirrored) : s.Follows := by
  intro channel hc hqueue hnotifying
  have hmirror : s.mirror = ⟨s.members, s.list⟩ := by
    rw [mirror, outstanding, hc, hnotifying, Option.elim_some, hqueue]
    rfl
  exact hmirror ▸ h (Option.isSome_iff_exists.mpr ⟨channel, hc⟩)

/-- A turn in time keeps the match. -/
lemma mirrored_step {s : Session} (hs : s.Sound) (h : s.Mirrored) {t : Turn} (ht : s.InTime t) :
    (s.step t).Mirrored := by
  have hhost : (s.step t).host = s.host := by
    cases t <;> rw [step] <;> split <;> rfl
  intro hsome
  rw [hhost]
  by_cases hsub : t = .subscribe
  · subst hsub
    rw [mirror_subscribe hs]
    cases hstage : s.stage with
    | fetched => exact ht hstage
    | constructing => exact h (by simpa [step, hstage] using hsome)
    | starting => exact h (by simpa [step, hstage] using hsome)
    | reading => exact h (hs.1.mpr hstage)
  have hbefore : s.channel.isSome = true := isSome_channel_step s hsub ▸ hsome
  cases t with
  | notify events =>
      cases hn : s.notifying with
      | some events' =>
          have hstep : s.step (.notify events) = s := by rw [step, hn]
          rw [hstep]
          exact h hbefore
      | none =>
          have halways := (Mirror.matches_always_iff (h hbefore) events).mpr (ht hn hbefore)
          rw [mirror_notify hn]
          exact halways.last
  | deliver =>
      rw [mirror_deliver hs hbefore]
      exact h hbefore
  | fetch ok =>
      have hstep : s.step (.fetch ok) = s := by rw [step, hs.1.mp hbefore]
      rw [hstep]
      exact h hbefore
  | subscribe => exact absurd rfl hsub
  | read =>
      rw [mirror_read]
      exact h hbefore

/-- In a run whose turns are all in time, the set and the list match but for what is outstanding. -/
lemma mirrored_always {host : String} {ts : List Turn}
    (h : Run.Each step InTime (start host) ts) :
    Run.Always step (fun s => s.Sound ∧ s.Mirrored) (start host) ts := by
  have hstart : (start host).Sound ∧ (start host).Mirrored :=
    ⟨sound_start host, fun h => absurd h (by simp [start])⟩
  refine Run.always_of_each (C := InTime) (fun s t hs ht => ?_) hstart h
  exact ⟨sound_step hs.1 t, mirrored_step hs.1 hs.2 ht⟩

/-- Whatever the order of the turns, a client that has read everything has the members of the set,
in every run whose turns are all in time. -/
theorem follows_always {host : String} {ts : List Turn}
    (h : Run.Each step InTime (start host) ts) : Run.Always step Follows (start host) ts :=
  (mirrored_always h).imp fun _ hs => hs.2.follows

/-- A client that joins between the two halves of a `Notify`, and a node that comes and goes. -/
theorem follows_always_joined :
    Run.Always step Follows (start "10.0.0.1")
      [.notify [⟨.memberUp, nodeA⟩], .deliver, .fetch true, .fetch true,
        .notify [⟨.memberUp, nodeB⟩], .subscribe, .deliver, .read, .notify [⟨.memberDown, nodeB⟩],
        .deliver, .read] :=
  follows_always (by decide)

/-- A node that comes up between `Fetch` and `Subscribe` is never heard of. -/
theorem follows_lost :
    ¬Run.Always step Follows (start "10.0.0.1")
      [.fetch true, .fetch true, .notify [⟨.memberUp, nodeB⟩], .deliver, .subscribe] :=
  fun h => absurd h.last (by decide)

/-- A node whose `Notify` straddles `Fetch` and `Subscribe` is listed twice. -/
example :
    ¬(Run.run step (start "10.0.0.1")
      [.fetch true, .notify [⟨.memberUp, nodeB⟩], .fetch true, .subscribe, .deliver,
        .read]).Follows := by
  decide

/-! ### A quiet start -/

/-- No `Notify` is under way at the `Fetch` of `Routine`, which gets its reply, and none begins
before `Subscribe`; the events that come while the client is subscribed meet `Mirror.Meets`. -/
def Quiet (s : Session) : Turn → Prop
  | .notify events => s.stage ≠ .fetched ∧ s.InTime (.notify events)
  | .fetch ok => s.stage = .starting → ok = true ∧ s.notifying = none
  | .deliver | .subscribe | .read => True

/-- The client that is about to subscribe has the members of the set. -/
def Ready (s : Session) : Prop :=
  s.stage = .fetched → s.notifying = none ∧ (Mirror.mk s.members s.list).Matches s.host

/-- A client that is ready subscribes in time. -/
lemma Ready.inTime {s : Session} (hs : s.Sound) (h : s.Ready) : s.InTime .subscribe := by
  intro hstage
  obtain ⟨hnotifying, hmatches⟩ := h hstage
  have hnone := hs.channel_eq_none hstage
  have hmirror : s.mirror = ⟨s.members, s.list⟩ := by
    rw [mirror, outstanding, hnone, hnotifying]
    rfl
  rw [hmirror]
  exact hmatches

/-- Quiet turns lead to a client that is ready. -/
lemma ready_step {s : Session} (hs : s.Sound) (h : s.Ready) {t : Turn} (ht : s.Quiet t) :
    (s.step t).Ready := by
  cases t with
  | notify events =>
      rw [step]
      split
      · exact fun hstage => absurd hstage ht.1
      · exact h
  | deliver =>
      rw [step]
      split
      · exact h
      · next events hn =>
          intro hstage
          exact absurd ((h hstage).1.symm.trans hn) (by simp)
  | fetch ok =>
      rw [step]
      cases hstage : s.stage with
      | constructing => exact fun hfetched => absurd hfetched (by simp)
      | starting =>
          obtain ⟨rfl, hnotifying⟩ := ht hstage
          exact fun _ => ⟨hnotifying, Mirror.matches_fetched s.host s.members⟩
      | fetched => exact h
      | reading => exact h
  | subscribe =>
      rw [step]
      split
      · exact fun hfetched => absurd hfetched (by simp)
      · exact h
      · exact h
      · exact h
  | read =>
      rw [step]
      split
      · next item channel hget =>
          intro hstage
          obtain ⟨channel', hc, -⟩ := Option.bind_eq_some_iff.mp hget
          have hreading := hs.1.mp (by rw [hc]; rfl)
          exact absurd (hstage.symm.trans hreading) (by simp)
      · exact h
      · exact h

/-- A client that has read everything has the members of the set in every run in which no `Notify`
comes between its last `Fetch` and `Subscribe`. -/
theorem follows_always_of_quiet {host : String} {ts : List Turn}
    (h : Run.Each step Quiet (start host) ts) : Run.Always step Follows (start host) ts := by
  have hstart : (start host).Sound ∧ (start host).Ready :=
    ⟨sound_start host, fun hstage => absurd hstage (by simp [start])⟩
  have hinTime : Run.Each step InTime (start host) ts := by
    refine Run.Each.imp_of_step (I := fun s => s.Sound ∧ s.Ready) (C := Quiet)
      (fun s t hs ht => ?_) (fun s t hs ht => ?_) hstart h
    · exact ⟨sound_step hs.1 t, ready_step hs.1 hs.2 ht⟩
    · cases t with
      | notify events => exact ht.2
      | subscribe => exact hs.2.inTime hs.1
      | _ => trivial
  exact (mirrored_always hinTime).imp fun _ hs => hs.2.follows

/-! ### The condition is exact at the subscription -/

/-- A subscribed client reads its channel to the end. -/
lemma run_read {s : Session} {channel : Channel MemberEvent} (h : s.channel = some channel) :
    Run.run step s (List.replicate channel.queue.length .read)
      = { s with channel := some { channel with queue := [] },
                 list := updates s.list channel.queue } := by
  obtain ⟨queue, closed⟩ := channel
  induction queue generalizing s with
  | nil =>
      rw [updates, List.foldl_nil, ← h]
      rfl
  | cons item queue ih =>
      have hread : s.step .read
          = { s with channel := some ⟨queue, closed⟩,
                     list := update s.list (subscribeItem item) } := by
        rw [step, h]
        rfl
      have hrun : Run.run step s (List.replicate (queue.length + 1) .read)
          = Run.run step (s.step .read) (List.replicate queue.length .read) := rfl
      rw [List.length_cons, hrun, ih (s := s.step .read) (by rw [hread]), hread]
      rfl

/-- A client that subscribes follows the set, once it has read what is outstanding, exactly when it
subscribes in time. -/
theorem follows_subscribe_iff {s : Session} (hs : s.Sound) (hstage : s.stage = .fetched) :
    (Run.run step s
      (.subscribe :: .deliver :: List.replicate s.outstanding.length .read)).Follows
      ↔ s.InTime .subscribe := by
  have hnone := hs.channel_eq_none hstage
  have hstep : (s.step .subscribe).step .deliver
      = { s with stage := .reading, notifying := none,
                 channel := some { queue := s.outstanding } } := by
    have hsub : s.step .subscribe = { s with stage := .reading, channel := some {} } := by
      rw [step, hstage]
    have hsound := sound_step hs .subscribe
    rw [hsub] at hsound ⊢
    have hdeliver := deliver_of_sound hsound rfl
    rw [step, outstanding, hnone]
    cases hn : s.notifying with
    | none => simp [remote]
    | some events =>
        rw [hn] at hdeliver
        simp [hdeliver]
  have hrun : Run.run step s (.subscribe :: .deliver :: List.replicate s.outstanding.length .read)
      = { s with stage := .reading, notifying := none, channel := some {},
                 list := updates s.list s.outstanding } :=
    calc Run.run step s (.subscribe :: .deliver :: List.replicate s.outstanding.length .read)
        = Run.run step ((s.step .subscribe).step .deliver)
            (List.replicate s.outstanding.length .read) := rfl
      _ = Run.run step { s with stage := .reading, notifying := none,
                                channel := some { queue := s.outstanding } }
            (List.replicate s.outstanding.length .read) := by rw [hstep]
      _ = _ := run_read (s := { s with stage := .reading, notifying := none,
                                       channel := some { queue := s.outstanding } }) rfl
  rw [hrun]
  constructor
  · intro h _
    exact h {} rfl rfl rfl
  · rintro h _ ⟨⟩ - -
    exact h hstage

end Session

end Cdcf.Cluster
