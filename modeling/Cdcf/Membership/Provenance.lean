import Cdcf.Membership.Network
import Cdcf.Membership.Step

/-!
Where the incarnations and the actor system flags in a network come from.

Only a node itself takes its counter further, and only `SetSelfActorSystemUp` makes it announce
its actor system.  All other nodes copy what they have heard, also where they originate a
message about another node.  So nothing about a node is invented (`nothingInvented_always`).

* `Record.Within`: the invariant of one address at one node, relative to what may be known of
  it; the operations on records keep it.
* `Node.Queued`: the invariant of a gossip queue.
* `Network.Sound`: the invariant of all tables, queues and messages.
-/

namespace Cdcf

open Sample

/-! ### One address -/

namespace Record

variable {κ : Type*} {uid : κ → String} {known : UInt32 → Prop} {up : Prop}

/-- The incarnations of the record are known, and its actor system is marked up only if it is
known to have been. -/
structure Within (known : UInt32 → Prop) (up : Prop) (r : Record κ) : Prop where
  member : ∀ p ∈ r.member, known p.2.toUInt32
  suspect : ∀ p ∈ r.suspect, known p.2.toUInt32
  actorSystem : ∀ p ∈ r.actorSystem, p.2 = true → up

lemma known_put {k : κ} {i : UInt32} {o : Option (κ × Int32)} (hi : known i) :
    ∀ p ∈ put k i.toInt32 o, known p.2.toUInt32 := by
  intro p hp
  rw [snd_of_mem_put hp, UInt32.toUInt32_toInt32]
  exact hi

lemma up_put {k : κ} {flag : Bool} {o : Option (κ × Bool)} (h : flag = true → up) :
    ∀ p ∈ put k flag o, p.2 = true → up := by
  intro p hp
  rw [snd_of_mem_put hp]
  exact h

lemma up_put_false {k : κ} {o : Option (κ × Bool)} : ∀ p ∈ put k false o, p.2 = true → up :=
  up_put fun h => absurd h (by decide)

lemma Within.eraseExpired {r : Record κ} (h : r.Within known up) (k : κ) :
    (r.eraseExpired uid k).Within known up where
  member := by
    rw [Record.eraseExpired]
    cases expired uid k r.member with
    | true => simp
    | false => exact h.member
  suspect := by
    rw [Record.eraseExpired]
    cases expired uid k r.suspect with
    | true => simp
    | false => exact h.suspect
  actorSystem := by
    rw [Record.eraseExpired]
    cases expired uid k r.member || expired uid k r.suspect with
    | true => exact up_put_false
    | false => exact h.actorSystem

lemma Within.suspectAt {r : Record κ} (h : r.Within known up) {i : UInt32} (hi : known i)
    (k : κ) : (r.suspectAt k i).Within known up := by
  rw [Record.suspectAt]
  split
  · exact ⟨by simp, known_put hi, up_put_false⟩
  · exact h

/-- A recovery copies the suspected incarnation, or zero. -/
lemma Within.recover {r : Record κ} (h : r.Within known up) (hzero : known 0) (k : κ) :
    (r.recover k).Within known up := by
  refine ⟨fun p hp => ?_, by simp [Record.recover], h.actorSystem⟩
  rw [snd_of_mem_put hp]
  cases hs : r.suspect with
  | none => exact hzero
  | some q => exact h.suspect q hs

lemma Within.mergeActorSystem {r : Record κ} (h : r.Within known up) {flag : Bool} {i : UInt32}
    (hi : known i) (hflag : flag = true → up) (k : κ) :
    (r.mergeActorSystem flag k i).Within known up := by
  rw [Record.mergeActorSystem]
  split
  · exact ⟨known_put hi, h.suspect, up_put hflag⟩
  · exact h

/-- Gossip brings into a record what the update says and nothing else. -/
lemma Within.gossip {r : Record κ} (h : r.Within known up) (hzero : known 0) (isSelf : Bool)
    {kind : MemberStatus} {i : UInt32} (hi : known i) (hup : kind = .actorSystemUp → up) (k : κ) :
    (r.gossip uid isSelf kind k i).Within known up := by
  cases kind with
  | up =>
      rw [Record.gossip]
      split
      · exact h
      · have he : (r.eraseExpired uid k).Within known up := h.eraseExpired k
        rw [Record.up]
        split
        · exact he
        · exact ⟨known_put hi, he.suspect, he.actorSystem⟩
  | down =>
      rw [Record.gossip]
      split
      · exact h
      · rw [Record.down]
        split
        · exact ⟨by simp, by simp, up_put_false⟩
        · exact h
  | suspect =>
      rw [Record.gossip]
      split_ifs
      · exact h
      · exact ⟨h.member, known_put hi, h.actorSystem⟩
      · exact h.suspectAt hi k
      · exact h
  | recovery =>
      rw [Record.gossip]
      split
      · exact h.recover hzero k
      · exact h
  | actorSystemDown => exact h.mergeActorSystem hi (fun hf => absurd hf (by decide)) k
  | actorSystemUp => exact h.mergeActorSystem hi (fun _ => hup rfl) k

/-- A ping list brings its entry. -/
lemma Within.mergeMember {r : Record κ} (h : r.Within known up) {i : Int32} {flag? : Option Bool}
    (hi : known i.toUInt32) (hup : ∀ flag ∈ flag?, flag = true → up) (k : κ) :
    (r.mergeMember k i flag?).Within known up := by
  have htake : (r.take k i flag?).Within known up := by
    refine ⟨fun p hp => ?_, h.suspect, ?_⟩
    · rw [snd_of_mem_put hp]
      exact hi
    · cases flag? with
      | none => exact h.actorSystem
      | some flag => exact up_put (hup flag rfl)
  rw [Record.mergeMember.eq_def]
  split
  · split
    · exact htake
    · exact h
  · exact htake

/-- A full state brings its flags, and zero as an incarnation. -/
lemma Within.updateStatuses {r : Record Member} (h : r.Within known up) (hzero : known 0)
    {l : List MemberWithStatus} (hup : ∀ m ∈ l, m.status = .actorSystemUp → up) :
    (l.foldl (fun r m => r.updateStatus m.member (m.status == .actorSystemUp)) r).Within
      known up := by
  induction l generalizing r with
  | nil => exact h
  | cons m l ih =>
      refine ih ⟨fun p hp => ?_, h.suspect, ?_⟩ fun m' hm' => hup m' (List.mem_cons_of_mem m hm')
      · simp only [updateStatus] at hp
        split at hp
        · exact h.member p hp
        · rw [← Option.some.inj hp]
          exact hzero
      · exact up_put fun hflag => hup m List.mem_cons_self (eq_of_beq hflag)

lemma Within.localIncarnation {r : Record Member} (h : r.Within known up) (hzero : known 0) :
    known r.localIncarnation := by
  rw [Record.localIncarnation]
  cases hm : r.member with
  | none => exact hzero
  | some p => exact h.member p hm

lemma Within.judge {r : Record Member} (h : r.Within known up) (hzero : known 0)
    (v : Option (Member × Bool)) (a : Address) : (r.judge v a).Within known up := by
  cases v with
  | none => exact h
  | some v =>
      rw [Record.judge]
      split_ifs
      · exact h.recover hzero v.1
      · exact h.suspectAt (h.localIncarnation hzero) v.1
      · exact h

end Record

namespace Node

/-- An event brings into the record of an address what its message says of it. -/
lemma within_effect {s : Node} {e : Event} {a : Address} {known : UInt32 → Prop} {up : Prop}
    (h : (s.record a).Within known up) (hzero : known 0)
    (he : match e with
      | .gossip u => u.getMember.address = a →
          known u.getIncarnation ∧ (u.kind? = some .actorSystemUp → up)
      | .pull request => ∀ u ∈ request.states, u.getMember.address = a →
          known (UpdateMessage.getIncarnation u) ∧ (u.actorSystemUp.getD false = true → up)
      | .fullState message => ∀ m ∈ message.getMembersWithStatus, m.member.address = a →
          m.status = .actorSystemUp → up
      | .setSelfActorSystemUp => a = s.self.address → up
      | _ => True) :
    (s.effect e a (s.record a)).Within known up := by
  cases e with
  | gossip u =>
      rw [effect]
      split_ifs with hu
      · cases hk : u.kind? with
        | none => exact h
        | some kind =>
            obtain ⟨hi, hup⟩ := he hu
            exact h.gossip hzero _ hi (fun heq => hup (by rw [hk, heq])) u.getMember
      · exact h
  | pull request =>
      rw [effect]
      split
      · cases hf : request.getMembersWithIncarnation.find? a with
        | none => exact h
        | some p =>
            obtain ⟨q, hq, hkey, hval⟩ := OrderedMap.mem_of_find?_ofList hf
            obtain ⟨u, hu, rfl⟩ := List.mem_map.mp hq
            refine h.mergeMember ?_ (fun flag hflag htrue => ?_) p.1
            · rw [← hval]
              exact (he u (List.mem_of_mem_filter hu) hkey).1
            · obtain ⟨p', hp', rfl⟩ := Option.mem_map.mp hflag
              obtain ⟨q', hq', hkey', hval'⟩ := OrderedMap.mem_of_find?_ofList hp'
              obtain ⟨u', hu', rfl⟩ := List.mem_map.mp hq'
              exact (he u' (List.mem_of_mem_filter hu') hkey').2 (hval'.trans htrue)
      · exact h
  | push message => exact h.judge hzero _ a
  | fullState message =>
      rw [effect]
      split
      · refine h.updateStatuses hzero fun m hm => ?_
        obtain ⟨hm, ha⟩ := List.mem_filter.mp hm
        exact he m hm (of_decide_eq_true ha)
      · exact h
  | pullResult index ok => exact h.judge hzero _ a
  | setSelfActorSystemUp =>
      rw [effect]
      split
      · next ha => exact ⟨h.member, h.suspect, Record.up_put fun _ => he ha⟩
      · exact h
  | notifyActorSystemDown =>
      rw [effect]
      split
      · exact ⟨h.member, h.suspect, by simp⟩
      · exact h
  | ping _ | sendSelfActorSystemUpGossip | notifyLeave => exact h

/-! ### The gossip queue -/

/-- All payloads in the gossip queue have the property. -/
def Queued (S : UpdateMessage → Prop) (s : Node) : Prop := ∀ entry ∈ s.gossipQueue, S entry.payload

variable {S : UpdateMessage → Prop}

lemma Queued.sendGossip {s : Node} (h : s.Queued S) {u : UpdateMessage} (hu : S u) :
    (s.sendGossip u).Queued S := by
  rw [Node.sendGossip, pushGossip]
  split
  · exact h
  · intro entry hentry
    rcases List.mem_append.mp hentry with hentry | hentry
    · exact h entry hentry
    · rw [List.mem_singleton.mp hentry]
      exact hu

lemma Queued.suspect {s : Node} (h : s.Queued S) {m : Member} {i : UInt32}
    (hs : S (UpdateMessage.initAsSuspectMessage m i)) : (s.suspect m i).Queued S := by
  rw [Node.suspect]
  split
  · dsimp only
    refine Queued.sendGossip ?_ hs
    exact h
  · exact h

lemma Queued.recoverySuspect {s : Node} (h : s.Queued S) {m : Member}
    (hs : S (UpdateMessage.initAsRecoveryMessage m
      ((s.suspects.get? m.address).getD 0).toUInt32)) : (s.recoverySuspect m).Queued S := by
  rw [Node.recoverySuspect]
  refine Queued.sendGossip ?_ hs
  exact h

/-- What a node writes anew when it suspects or recovers a member: the member, with the
incarnation recorded for it. -/
def Judgements (S : UpdateMessage → Prop) (s : Node) : Prop :=
  ∀ m, S (UpdateMessage.initAsSuspectMessage m (s.getMemberLocalIncarnation m))
    ∧ S (UpdateMessage.initAsRecoveryMessage m ((s.suspects.get? m.address).getD 0).toUInt32)

lemma Queued.handleActorSystem {s : Node} (h : s.Queued S) {u : UpdateMessage} (hu : S u)
    (up : Bool) : (handleActorSystem up s u).Queued S := by
  rw [Node.handleActorSystem]
  split_ifs
  · exact h
  · exact h
  · rw [mergeActorSystem]
    split <;> exact h.sendGossip hu

/-- `HandleGossip` queues the update, or a judgement about its member. -/
lemma Queued.handleGossip {s : Node} (h : s.Queued S) {u : UpdateMessage} (hu : S u)
    (hs : u.kind? = some .suspect →
      S (UpdateMessage.initAsSuspectMessage u.getMember u.getIncarnation))
    (hr : S (UpdateMessage.initAsRecoveryMessage u.getMember
      ((s.suspects.get? u.getMember.address).getD 0).toUInt32)) : (s.handleGossip u).Queued S := by
  rw [handleGossip_eq]
  split
  · have herase : (s.eraseExpiredMember u.getMember).Queued S := h
    rw [handleUp]
    dsimp only
    split_ifs
    · exact h
    · exact h
    · exact h
    · rw [mergeUpUpdate]
      split <;> exact herase.sendGossip hu
  · rw [handleDown]
    split
    · exact h
    · rw [mergeDownUpdate]
      split <;> exact h.sendGossip hu
  · next hk =>
      rw [handleSuspect]
      split_ifs
      · exact h
      · exact h
      · exact h.suspect (hs hk)
      · exact h
  · rw [handleRecovery]
    split_ifs
    · exact h
    · exact h
    · exact h.recoverySuspect hr
  · exact h.handleActorSystem hu false
  · exact h.handleActorSystem hu true
  · exact h

/-- What a node queues with a verdict of the failure detector. -/
def judgement (s : Node) (v : Member × Bool) : UpdateMessage :=
  if v.2 then
    UpdateMessage.initAsRecoveryMessage v.1 ((s.suspects.get? v.1.address).getD 0).toUInt32
  else UpdateMessage.initAsSuspectMessage v.1 (s.getMemberLocalIncarnation v.1)

lemma Judgements.judgement {s : Node} (h : s.Judgements S) (v : Member × Bool) :
    S (s.judgement v) := by
  rw [Node.judgement]
  split
  · exact (h v.1).2
  · exact (h v.1).1

lemma Queued.relayPing {s : Node} (h : s.Queued S) (t : Member) (ex : MemberMap Unit)
    (hv : ∀ v, s.relayVerdict t ex = some v → S (s.judgement v)) : (s.relayPing t ex).Queued S := by
  rw [Node.relayPing]
  rw [relayVerdict] at hv
  split
  · exact h
  · next hnone =>
      rw [hnone] at hv
      exact h.suspect (hv (t, false) rfl)

lemma Queued.didPing {s : Node} (h : s.Queued S) (t : Member) (ok : Bool)
    (hv : ∀ v, s.pingVerdict t ok = some v → S (s.judgement v)) : (s.didPing t ok).Queued S := by
  rw [pingVerdict] at hv
  rw [Node.didPing]
  split_ifs with hrecovers hfailed hrelay
  · rw [if_pos hrecovers] at hv
    exact h.recoverySuspect (hv (t, true) rfl)
  · rw [if_neg hrecovers, if_pos hfailed, if_pos hrelay] at hv
    exact h.relayPing t _ hv
  · rw [if_neg hrecovers, if_pos hfailed, if_neg hrelay] at hv
    exact h.suspect (hv (t, false) rfl)
  · exact h

/-- The end of a pull queues the verdict it leads to. -/
lemma Queued.didPull {s : Node} (h : s.Queued S) (index : ℕ) (ok : Bool)
    (hv : ∀ v, s.verdict index ok = some v → S (s.judgement v)) :
    (s.didPull index ok).Queued S := by
  rw [Node.didPull]
  rw [verdict] at hv
  cases hc : s.pulls[index]? with
  | none => exact h
  | some c =>
      rw [hc] at hv
      have h' : ({ s with pulls := s.pulls.eraseIdx index } : Node).Queued S := h
      cases c with
      | ping t => exact h'.didPing t ok hv
      | relayPing t r ex =>
          cases ok with
          | true => exact h'
          | false => exact h'.relayPing t _ hv
      | relayedPing t d => exact h'

lemma gossipQueue_mergeMembers (s : Node) (members : MemberMap Int32) (flags : MemberMap Bool) :
    (s.mergeMembers members flags).gossipQueue = s.gossipQueue := by
  have hround : ∀ t p, (mergeOneMember flags t p).gossipQueue = t.gossipQueue := by
    intro t p
    rw [mergeOneMember]
    split
    · split <;> rfl
    · rfl
  exact Run.view_run gossipQueue hround s members.entries

lemma gossipQueue_updateActorSystemStatus (s : Node) (l : List MemberWithStatus) :
    (s.updateActorSystemStatus l).gossipQueue = s.gossipQueue := by
  have hround : ∀ t m, (updateOneStatus t m).gossipQueue = t.gossipQueue := fun _ _ => rfl
  exact Run.view_run gossipQueue hround s l

lemma Queued.sendSelfActorSystemUpGossip {s : Node} (h : s.Queued S)
    (hs : S (UpdateMessage.initAsActorSystemUpMessage s.self (s.incarnation + 1))) :
    s.sendSelfActorSystemUpGossip.Queued S := by
  rw [Node.sendSelfActorSystemUpGossip]
  refine Queued.sendGossip ?_ hs
  exact h

/-- After a full-state response a node announces itself, and its actor system if that runs. -/
lemma Queued.handleDidPull {s : Node} (h : s.Queued S) (message : FullStateMessage)
    (he : message.isSuccess = true →
      S (UpdateMessage.initAsUpMessage s.self (s.incarnation + 1))
        ∧ (s.isSelfActorSystemUp = true →
          S (UpdateMessage.initAsActorSystemUpMessage s.self (s.incarnation + 1 + 1)))) :
    (s.handleDidPull message).Queued S := by
  rw [Node.handleDidPull]
  split
  · next hsuccess =>
    obtain ⟨hup, hsystem⟩ := he hsuccess
    have hown := own_updateActorSystemStatus s message.getMembersWithStatus
    have hqueue : (s.updateActorSystemStatus message.getMembersWithStatus).Queued S := by
      intro entry hentry
      rw [gossipQueue_updateActorSystemStatus] at hentry
      exact h entry hentry
    generalize s.updateActorSystemStatus message.getMembersWithStatus = t at hown hqueue
    obtain ⟨hself, hflag, hinc, -⟩ := Own.mk.inj hown
    have hcounter : t.increaseIncarnation.Queued S := hqueue
    have hannounce : (t.increaseIncarnation.sendGossip
        (UpdateMessage.initAsUpMessage t.self (t.incarnation + 1))).Queued S :=
      hcounter.sendGossip (by rw [hself, hinc]; exact hup)
    obtain ⟨hself', hflag', hinc', -⟩ := Own.mk.inj (own_sendGossip t.increaseIncarnation
      (UpdateMessage.initAsUpMessage t.self (t.incarnation + 1)))
    dsimp only
    split
    · next hrunning =>
        refine hannounce.sendSelfActorSystemUpGossip ?_
        rw [hself', hinc', increaseIncarnation, hself, hinc]
        exact hsystem (hflag ▸ hflag' ▸ hrunning)
    · exact hannounce
  · exact h

/-- What a node queues on an event: what it has received, a judgement it passes, or an announcement
of its own with a counter it has just taken further. -/
theorem Queued.step_of {s : Node} (h : s.Queued S) (e : Event)
    (he : match e with
      | .gossip u => S u
          ∧ (u.kind? = some .suspect →
            S (UpdateMessage.initAsSuspectMessage u.getMember u.getIncarnation))
          ∧ S (s.judgement (u.getMember, true))
      | .push message => message.isPingFailure = true → S (s.judgement (message.getMember, false))
      | .fullState message => message.isSuccess = true →
          S (UpdateMessage.initAsUpMessage s.self (s.incarnation + 1))
            ∧ (s.isSelfActorSystemUp = true →
              S (UpdateMessage.initAsActorSystemUpMessage s.self (s.incarnation + 1 + 1)))
      | .pullResult index ok => ∀ v, s.verdict index ok = some v → S (s.judgement v)
      | .sendSelfActorSystemUpGossip =>
          S (UpdateMessage.initAsActorSystemUpMessage s.self (s.incarnation + 1))
      | .notifyActorSystemDown =>
          S (UpdateMessage.initAsActorSystemDownMessage s.self (s.incarnation + 1))
      | _ => True) :
    (s.step e).Queued S := by
  cases e with
  | gossip u => exact h.handleGossip he.1 he.2.1 he.2.2
  | pull request =>
      rw [Node.step, handlePull]
      split
      · exact h
      · intro entry hentry
        rw [gossipQueue_mergeMembers] at hentry
        exact h entry hentry
      · exact h
  | push message =>
      rw [Node.step, handlePush]
      split
      · next hfailure => exact h.suspect (he hfailure)
      · exact h
  | fullState message => exact h.handleDidPull message he
  | ping choice =>
      rw [Node.step, ping]
      split
      · split <;> exact h
      · exact h
  | pullResult index ok => exact h.didPull index ok he
  | setSelfActorSystemUp => exact h
  | sendSelfActorSystemUpGossip => exact h.sendSelfActorSystemUpGossip he
  | notifyActorSystemDown =>
      rw [Node.step, notifyActorSystemDown]
      refine Queued.sendGossip ?_ he
      exact h
  | notifyLeave =>
      rw [Node.step, notifyLeave]
      split <;> exact h

/-- What a node queues on an event, if every judgement has the property. -/
theorem Queued.step {s : Node} (h : s.Queued S) (hj : s.Judgements S) (e : Event)
    (he : match e with
      | .gossip u => S u ∧ S (UpdateMessage.initAsSuspectMessage u.getMember u.getIncarnation)
      | .fullState message => message.isSuccess = true →
          S (UpdateMessage.initAsUpMessage s.self (s.incarnation + 1))
            ∧ (s.isSelfActorSystemUp = true →
              S (UpdateMessage.initAsActorSystemUpMessage s.self (s.incarnation + 1 + 1)))
      | .sendSelfActorSystemUpGossip =>
          S (UpdateMessage.initAsActorSystemUpMessage s.self (s.incarnation + 1))
      | .notifyActorSystemDown =>
          S (UpdateMessage.initAsActorSystemDownMessage s.self (s.incarnation + 1))
      | _ => True) :
    (s.step e).Queued S := by
  refine h.step_of e ?_
  cases e with
  | gossip u => exact ⟨he.1, fun _ => he.2, hj.judgement _⟩
  | push message => exact fun _ => hj.judgement _
  | pullResult index ok => exact fun v _ => hj.judgement v
  | _ => exact he

/-- The requests a node sends list its tables or nothing. -/
lemma of_mem_sentRequests {s : Node} {e : Event} {request : PullRequestMessage}
    (h : request ∈ s.sentRequests e) : request = s.pingRequest ∨ request.states = [] := by
  have hrelay : ∀ {t : Member} {ex : MemberMap Unit}, request ∈ s.relayRequest t ex →
      request.states = [] := by
    intro t ex hr
    rw [relayRequest] at hr
    split at hr
    · rw [List.mem_singleton.mp hr]
      rfl
    · exact absurd hr List.not_mem_nil
  cases e with
  | ping choice =>
      rw [sentRequests] at h
      split at h
      · exact Or.inl (List.mem_singleton.mp h)
      · exact absurd h List.not_mem_nil
  | pull request' =>
      rw [sentRequests] at h
      split at h
      · exact Or.inr (List.mem_singleton.mp h ▸ rfl)
      · exact absurd h List.not_mem_nil
  | pullResult index ok =>
      rw [sentRequests] at h
      split at h
      · split at h
        · exact Or.inr (hrelay h)
        · exact absurd h List.not_mem_nil
      · split at h
        · exact absurd h List.not_mem_nil
        · exact Or.inr (hrelay h)
      · exact absurd h List.not_mem_nil
  | _ => exact absurd h List.not_mem_nil

end Node

/-! ### The network -/

namespace Network

variable {ι : Type*}

/-- An update message says nothing of a node beyond its counter, and tells of its actor system
coming up only if it has. -/
def MessageSound (net : Network ι) (u : UpdateMessage) : Prop :=
  ∀ m, u.getMember.address = net.address m → u.getIncarnation ≤ net.counter m
    ∧ (u.kind? = some .actorSystemUp → m ∈ net.calledUp)

/-- The same of an entry of a ping list. -/
def EntrySound (net : Network ι) (u : MemberUpdate) : Prop :=
  ∀ m, u.getMember.address = net.address m → UpdateMessage.getIncarnation u ≤ net.counter m
    ∧ (u.actorSystemUp.getD false = true → m ∈ net.calledUp)

/-- The same of a full state, which has no incarnations. -/
def StatusSound (net : Network ι) (message : FullStateMessage) : Prop :=
  ∀ x ∈ message.getMembersWithStatus, ∀ m, x.member.address = net.address m →
    x.status = .actorSystemUp → m ∈ net.calledUp

/-- What the tables, the queues and the messages say of a node has come from the node. -/
structure Sound (net : Network ι) : Prop where
  address : Function.Injective net.address
  tables : ∀ n m, ((net.nodes n).record (net.address m)).Within (· ≤ net.counter m)
    (m ∈ net.calledUp)
  queues : ∀ n, (net.nodes n).Queued net.MessageSound
  datagrams : ∀ u ∈ net.datagrams, net.MessageSound u
  pullRequests : ∀ request ∈ net.pullRequests, ∀ u ∈ request.states, net.EntrySound u
  fullStates : ∀ message ∈ net.fullStates, net.StatusSound message
  up : ∀ m, (net.nodes m).isSelfActorSystemUp = true → m ∈ net.calledUp

/-- What a later network knows of the nodes: no less. -/
structure Grows (net net' : Network ι) : Prop where
  address : ∀ m, net'.address m = net.address m
  counter : ∀ m, net.counter m ≤ net'.counter m
  calledUp : ∀ m ∈ net.calledUp, m ∈ net'.calledUp

section

variable {net net' : Network ι}

lemma MessageSound.mono (hg : net.Grows net') {u : UpdateMessage} (h : net.MessageSound u) :
    net'.MessageSound u := by
  intro m hm
  obtain ⟨hi, hup⟩ := h m (hm.trans (hg.address m))
  exact ⟨UInt32.le_trans hi (hg.counter m), fun hk => hg.calledUp m (hup hk)⟩

lemma EntrySound.mono (hg : net.Grows net') {u : MemberUpdate} (h : net.EntrySound u) :
    net'.EntrySound u := by
  intro m hm
  obtain ⟨hi, hup⟩ := h m (hm.trans (hg.address m))
  exact ⟨UInt32.le_trans hi (hg.counter m), fun hk => hg.calledUp m (hup hk)⟩

lemma StatusSound.mono (hg : net.Grows net') {message : FullStateMessage}
    (h : net.StatusSound message) : net'.StatusSound message :=
  fun x hx m hm hup => hg.calledUp m (h x hx m (hm.trans (hg.address m)) hup)

/-- What is known of a record stays known. -/
lemma Grows.within (hg : net.Grows net') {m : ι} {r : Record Member}
    (h : r.Within (· ≤ net.counter m) (m ∈ net.calledUp)) :
    r.Within (· ≤ net'.counter m) (m ∈ net'.calledUp) :=
  ⟨fun p hp => UInt32.le_trans (h.member p hp) (hg.counter m),
    fun p hp => UInt32.le_trans (h.suspect p hp) (hg.counter m),
    fun p hp hup => hg.calledUp m (h.actorSystem p hp hup)⟩

/-- The tables of a node list every node with an incarnation its counter has reached. -/
lemma Sound.entrySound (h : net.Sound) (i : ι) :
    ∀ u ∈ (net.nodes i).pingRequest.states, net.EntrySound u := by
  intro u hu m hm
  obtain ⟨p, hp, rfl⟩ := List.mem_map.mp hu
  have haddr : p.1.address = net.address m := by
    simpa [MemberUpdate.getMember, Member.address] using hm
  have hr := h.tables i m
  constructor
  · exact hr.member p (haddr ▸ OrderedMap.find?_of_mem_entries hp)
  · intro hup
    rw [Option.getD_some, haddr, OrderedMap.get?] at hup
    cases hf : (net.nodes i).memberActorSystem.find? (net.address m) with
    | none => simp [hf] at hup
    | some q => exact hr.actorSystem q hf (by simpa [hf] using hup)

/-- A full-state response flags a node only if its actor system has come up. -/
lemma Sound.statusSound (h : net.Sound) (i : ι) :
    net.StatusSound (net.nodes i).fullStateResponse := by
  intro x hx m hm hup
  obtain ⟨u, hu, rfl⟩ := List.mem_map.mp hx
  obtain ⟨y, hy, rfl⟩ := List.mem_map.mp hu
  obtain ⟨k, -, rfl⟩ := List.mem_map.mp hy
  have haddr : k.address = net.address m := by
    simpa [MemberUpdate.getMember, Member.address] using hm
  simp only [MemberUpdate.getStatus, Option.getD_some, haddr, OrderedMap.get?] at hup
  cases hf : (net.nodes i).memberActorSystem.find? (net.address m) with
  | none => simp [hf] at hup
  | some q => exact (h.tables i m).actorSystem q hf (by by_contra hq; simp [hf, hq] at hup)

/-- A node judges a member with an incarnation it has in its tables. -/
lemma Sound.judgements (h : net.Sound) (i : ι) : (net.nodes i).Judgements net.MessageSound := by
  intro t
  constructor
  · intro m hm
    rw [UpdateMessage.initAsSuspectMessage, UpdateMessage.getMember_setUpdate] at hm
    rw [UpdateMessage.initAsSuspectMessage, UpdateMessage.getIncarnation_setUpdate,
      Node.getMemberLocalIncarnation_eq, hm]
    exact ⟨(h.tables i m).localIncarnation UInt32.zero_le, by simp⟩
  · intro m hm
    rw [UpdateMessage.initAsRecoveryMessage, UpdateMessage.getMember_setUpdate] at hm
    rw [UpdateMessage.initAsRecoveryMessage, UpdateMessage.getIncarnation_setUpdate,
      OrderedMap.get?, hm]
    refine ⟨?_, by simp⟩
    cases hs : (net.nodes i).suspects.find? (net.address m) with
    | none => exact UInt32.zero_le
    | some p => exact (h.tables i m).suspect p hs

/-- At the start each node knows itself only, with the incarnation zero. -/
lemma Started.sound (h : net.Started) : net.Sound where
  address := h.address
  tables := by
    intro n m
    rw [(h.nodes n).record]
    refine ⟨fun p hp => ?_, by simp, by simp⟩
    dsimp only at hp
    split at hp
    · rw [← Option.some.inj hp]
      exact UInt32.zero_le
    · exact absurd hp (by simp)
  queues := by
    intro n entry hentry
    rw [(h.nodes n).fresh.gossipQueue] at hentry
    exact absurd hentry List.not_mem_nil
  datagrams := by simp [h.datagrams]
  pullRequests := by simp [h.pullRequests]
  fullStates := by simp [h.fullStates]
  up := fun m hm => absurd hm (by simp [(h.nodes m).fresh.isSelfActorSystemUp])

/-- No node and no message knows more of a node than the node itself has said: no incarnation
beyond its counter, and no running actor system if `SetSelfActorSystemUp` was never called. -/
structure NothingInvented (net : Network ι) : Prop where
  members : ∀ n m, ∀ i ∈ (net.nodes n).members.get? (net.address m), i.toUInt32 ≤ net.counter m
  suspects : ∀ n m, ∀ i ∈ (net.nodes n).suspects.get? (net.address m),
    i.toUInt32 ≤ net.counter m
  queues : ∀ n m, ∀ entry ∈ (net.nodes n).gossipQueue,
    entry.payload.getMember.address = net.address m →
      UpdateMessage.getIncarnation entry.payload ≤ net.counter m
  datagrams : ∀ m, ∀ u ∈ net.datagrams, u.getMember.address = net.address m →
    u.getIncarnation ≤ net.counter m
  pings : ∀ m, ∀ request ∈ net.pullRequests, ∀ u ∈ request.states,
    u.getMember.address = net.address m → UpdateMessage.getIncarnation u ≤ net.counter m
  actorSystems : ∀ n m, (net.nodes n).memberActorSystem.get? (net.address m) = some true →
    m ∈ net.calledUp

lemma Sound.nothingInvented (h : net.Sound) : net.NothingInvented where
  members := by
    intro n m i hi
    obtain ⟨p, hp, rfl⟩ := Option.map_eq_some_iff.mp hi
    exact (h.tables n m).member p hp
  suspects := by
    intro n m i hi
    obtain ⟨p, hp, rfl⟩ := Option.map_eq_some_iff.mp hi
    exact (h.tables n m).suspect p hp
  queues := fun n m entry hentry hm => (h.queues n entry hentry m hm).1
  datagrams := fun m u hu hm => (h.datagrams u hu m hm).1
  pings := fun m request hrequest u hu hm => (h.pullRequests request hrequest u hu m hm).1
  actorSystems := by
    intro n m hm
    obtain ⟨p, hp, hup⟩ := Option.map_eq_some_iff.mp hm
    exact (h.tables n m).actorSystem p hp hup

end

/-! ### One event -/

variable [DecidableEq ι]

lemma nodes_handle (net : Network ι) (i : ι) (e : Event) (n : ι) :
    (net.handle i e).nodes n = if n = i then (net.nodes i).step e else net.nodes n :=
  Function.update_apply net.nodes i _ n

lemma address_handle (net : Network ι) (i : ι) (e : Event) (m : ι) :
    (net.handle i e).address m = net.address m := by
  rw [address, nodes_handle]
  split
  · next h => rw [Node.self_step, h, address]
  · rfl

lemma counter_handle (net : Network ι) (i : ι) (e : Event) :
    (net.handle i e).counter i = ((net.nodes i).step e).own.incarnation := by
  rw [counter, nodes_handle, if_pos rfl]
  rfl

lemma calledUp_handle {net : Network ι} {m : ι} (i : ι) (e : Event) (hm : m ∈ net.calledUp) :
    m ∈ (net.handle i e).calledUp := by
  cases e with
  | setSelfActorSystemUp => exact List.mem_cons_of_mem i hm
  | _ => exact hm

lemma le_add_one {i : UInt32} (h : i.toNat < 2 ^ 31) : i ≤ i + 1 ∧ i + 1 ≤ i + 1 + 1 := by
  simp only [UInt32.le_iff_toNat_le, UInt32.toNat_add, UInt32.toNat_one]
  omega

/-- Below `2 ^ 31` a counter is never taken back. -/
lemma grows_handle {net : Network ι} (i : ι) (e : Event)
    (hcounter : (net.counter i).toNat < 2 ^ 31) : net.Grows (net.handle i e) where
  address := address_handle net i e
  counter := by
    intro m
    by_cases h : m = i
    · subst h
      obtain ⟨hone, htwo⟩ := le_add_one hcounter
      rw [counter_handle]
      rcases (Node.own_step (net.nodes m) e).incarnation with hinc | hinc | hinc
      · exact UInt32.le_of_eq hinc.symm
      · calc net.counter m ≤ net.counter m + 1 := hone
          _ = ((net.nodes m).step e).own.incarnation := hinc.symm
      · calc net.counter m ≤ net.counter m + 1 := hone
          _ ≤ net.counter m + 1 + 1 := htwo
          _ = ((net.nodes m).step e).own.incarnation := hinc.symm
    · rw [counter, counter, nodes_handle, if_neg h]
      exact UInt32.le_refl _
  calledUp := fun _ => calledUp_handle i e

/-- What the message of an event says of the nodes has come from them, and a node only announces
its actor system after `SetSelfActorSystemUp`. -/
def EventSound (net : Network ι) (i : ι) : Event → Prop
  | .gossip u => net.MessageSound u
  | .pull request => ∀ u ∈ request.states, net.EntrySound u
  | .fullState message => net.StatusSound message
  | .sendSelfActorSystemUpGossip => i ∈ net.calledUp
  | _ => True

/-- A node announces itself with a counter it has reached. -/
lemma Sound.announcement {net : Network ι} (h : net.Sound) {i : ι} {e : Event}
    {status : MemberStatus} {k : UInt32} (hk : k ≤ ((net.nodes i).step e).own.incarnation)
    (hup : status = .actorSystemUp → i ∈ net.calledUp) :
    (net.handle i e).MessageSound (UpdateMessage.setUpdate status (net.nodes i).self k) := by
  intro m hm
  rw [UpdateMessage.getMember_setUpdate, address_handle] at hm
  obtain rfl : i = m := h.address hm
  rw [UpdateMessage.getIncarnation_setUpdate, UpdateMessage.kind?_setUpdate, Option.some.injEq,
    counter_handle]
  exact ⟨hk, fun hstatus => calledUp_handle i e (hup hstatus)⟩

lemma Sound.tables_handle {net : Network ι} (h : net.Sound) {i : ι} {e : Event}
    (he : net.EventSound i e) (hcounter : (net.counter i).toNat < 2 ^ 31) (n m : ι) :
    (((net.handle i e).nodes n).record ((net.handle i e).address m)).Within
      (· ≤ (net.handle i e).counter m) (m ∈ (net.handle i e).calledUp) := by
  have hg := grows_handle i e hcounter
  have hold := hg.within (h.tables n m)
  rw [nodes_handle, address_handle]
  split
  · next hn =>
    subst hn
    rw [Node.record_step]
    refine Node.within_effect hold UInt32.zero_le ?_
    cases e with
    | gossip u => exact fun hu => MessageSound.mono hg he m (hu.trans (hg.address m).symm)
    | pull request => exact fun u hu ha => (he u hu).mono hg m (ha.trans (hg.address m).symm)
    | fullState message =>
        exact fun x hx ha => StatusSound.mono hg he x hx m (ha.trans (hg.address m).symm)
    | setSelfActorSystemUp =>
        intro hm
        rw [h.address hm]
        exact List.mem_cons_self
    | _ => trivial
  · exact hold

lemma Sound.queues_handle {net : Network ι} (h : net.Sound) {i : ι} {e : Event}
    (he : net.EventSound i e) (hcounter : (net.counter i).toNat < 2 ^ 31) (n : ι) :
    ((net.handle i e).nodes n).Queued (net.handle i e).MessageSound := by
  have hg := grows_handle i e hcounter
  have hold : (net.nodes n).Queued (net.handle i e).MessageSound :=
    fun entry hentry => (h.queues n entry hentry).mono hg
  rw [nodes_handle]
  split
  · next hn =>
    subst hn
    refine hold.step (fun t => ?_) e ?_
    · exact ⟨(h.judgements n t).1.mono hg, (h.judgements n t).2.mono hg⟩
    · cases e with
      | gossip u =>
          refine ⟨MessageSound.mono hg he, fun m hm => ?_⟩
          rw [UpdateMessage.initAsSuspectMessage, UpdateMessage.getMember_setUpdate] at hm
          rw [UpdateMessage.initAsSuspectMessage, UpdateMessage.getIncarnation_setUpdate]
          exact ⟨(MessageSound.mono hg he m hm).1, by simp⟩
      | fullState message =>
          intro hsuccess
          have hown := Node.own_handleDidPull (net.nodes n) message
          rw [if_pos hsuccess] at hown
          constructor
          · refine h.announcement ?_ fun hk => absurd hk (by decide)
            rw [Node.step, hown]
            split
            · exact (le_add_one hcounter).2
            · exact UInt32.le_refl _
          · intro hrunning
            refine h.announcement ?_ fun _ => h.up n hrunning
            rw [Node.step, hown, if_pos hrunning]
            exact UInt32.le_refl _
      | sendSelfActorSystemUpGossip =>
          refine h.announcement ?_ fun _ => he
          rw [Node.step, Node.own_sendSelfActorSystemUpGossip]
          exact UInt32.le_refl _
      | notifyActorSystemDown =>
          refine h.announcement ?_ fun hk => absurd hk (by decide)
          rw [Node.step, Node.notifyActorSystemDown, Node.own_sendGossip]
          exact UInt32.le_refl _
      | _ => trivial
  · exact hold

lemma Sound.datagrams_handle {net : Network ι} (h : net.Sound) {i : ι} {e : Event}
    (hcounter : (net.counter i).toNat < 2 ^ 31) :
    ∀ u ∈ (net.handle i e).datagrams, (net.handle i e).MessageSound u := by
  intro u hu
  rcases List.mem_append.mp hu with hu | hu
  · exact (h.datagrams u hu).mono (grows_handle i e hcounter)
  · cases e with
    | notifyLeave =>
        rw [Node.sentDatagrams, Node.leaveMessage] at hu
        split_ifs at hu with hlimit hsize
        · obtain rfl := List.mem_singleton.mp hu
          refine h.announcement ?_ fun hk => absurd hk (by decide)
          rw [Node.step, Node.notifyLeave, if_pos hsize]
          exact UInt32.le_refl _
        · exact absurd hu List.not_mem_nil
        · exact absurd hu List.not_mem_nil
    | _ => exact absurd hu List.not_mem_nil

lemma Sound.pullRequests_handle {net : Network ι} (h : net.Sound) {i : ι} {e : Event}
    (hcounter : (net.counter i).toNat < 2 ^ 31) :
    ∀ request ∈ (net.handle i e).pullRequests, ∀ u ∈ request.states,
      (net.handle i e).EntrySound u := by
  intro request hrequest u hu
  have hg := grows_handle i e hcounter
  rcases List.mem_append.mp hrequest with hrequest | hrequest
  · exact (h.pullRequests request hrequest u hu).mono hg
  · rcases Node.of_mem_sentRequests hrequest with rfl | hnone
    · exact (h.entrySound i u hu).mono hg
    · rw [hnone] at hu
      exact absurd hu List.not_mem_nil

lemma Sound.fullStates_handle {net : Network ι} (h : net.Sound) {i : ι} {e : Event}
    (hcounter : (net.counter i).toNat < 2 ^ 31) :
    ∀ message ∈ (net.handle i e).fullStates, (net.handle i e).StatusSound message := by
  intro message hmessage
  have hg := grows_handle i e hcounter
  rcases List.mem_append.mp hmessage with hmessage | hmessage
  · exact (h.fullStates message hmessage).mono hg
  · cases e with
    | pull request =>
        rw [Node.sentFullStates] at hmessage
        split at hmessage
        · rw [List.mem_singleton.mp hmessage]
          exact (h.statusSound i).mono hg
        · exact absurd hmessage List.not_mem_nil
    | _ => exact absurd hmessage List.not_mem_nil

lemma Sound.up_handle {net : Network ι} (h : net.Sound) {i : ι} {e : Event} (m : ι)
    (hm : ((net.handle i e).nodes m).isSelfActorSystemUp = true) :
    m ∈ (net.handle i e).calledUp := by
  rw [nodes_handle] at hm
  split at hm
  · next hmi =>
    subst hmi
    rw [Node.isSelfActorSystemUp_step] at hm
    cases e with
    | setSelfActorSystemUp => exact List.mem_cons_self
    | notifyActorSystemDown => exact absurd hm (by simp [Node.nextUp])
    | _ => exact h.up m hm
  · exact calledUp_handle i e (h.up m hm)

/-- An event keeps the network sound. -/
lemma Sound.handle {net : Network ι} (h : net.Sound) {i : ι} {e : Event}
    (he : net.EventSound i e) (hcounter : (net.counter i).toNat < 2 ^ 31) :
    (net.handle i e).Sound where
  address := by
    rw [show (net.handle i e).address = net.address from funext (address_handle net i e)]
    exact h.address
  tables := h.tables_handle he hcounter
  queues := h.queues_handle he hcounter
  datagrams := h.datagrams_handle hcounter
  pullRequests := h.pullRequests_handle hcounter
  fullStates := h.fullStates_handle hcounter
  up := h.up_handle

/-! ### Runs -/

lemma Sound.deliver {M : Type*} {net : Network ι} (h : net.Sound) {i : ι} {l : List M}
    {index : ℕ} {e : M → Event} (he : ∀ message ∈ l, net.EventSound i (e message))
    (hcounter : (net.counter i).toNat < 2 ^ 31) : (net.deliver i l[index]? e).Sound := by
  cases hl : l[index]? with
  | none => exact h
  | some message => exact h.handle (he message (List.mem_of_getElem? hl)) hcounter

/-- An action keeps the network sound: what is delivered has been sent. -/
theorem Sound.act {net : Network ι} (h : net.Sound) (hcounter : ∀ i, (net.counter i).toNat < 2 ^ 31)
    (a : Action ι) : (net.act a).Sound := by
  cases a with
  | disseminate i index =>
      rw [Network.act]
      cases hentry : (net.nodes i).gossipQueue[index]? with
      | none => exact h
      | some entry =>
          have hsent := h.queues i entry (List.mem_of_getElem? hentry)
          refine { h with datagrams := fun u hu => ?_ }
          rcases List.mem_append.mp hu with hu | hu
          · exact h.datagrams u hu
          · rw [List.mem_singleton.mp hu]
            exact hsent
  | gossip i index => exact h.deliver h.datagrams (hcounter i)
  | pull i index => exact h.deliver h.pullRequests (hcounter i)
  | fullState i index => exact h.deliver h.fullStates (hcounter i)
  | push i index => exact h.deliver (fun _ _ => trivial) (hcounter i)
  | pullFromSeed i =>
      rw [Network.act]
      split
      · exact h
      · refine { h with pullRequests := fun request hrequest u hu => ?_ }
        rcases List.mem_append.mp hrequest with hrequest | hrequest
        · exact h.pullRequests request hrequest u hu
        · rw [List.mem_singleton.mp hrequest] at hu
          exact absurd hu List.not_mem_nil
  | sendSelfActorSystemUpGossip i =>
      rw [Network.act]
      split
      · next hi => exact h.handle hi (hcounter i)
      · exact h
  | ping i choice => exact h.handle trivial (hcounter i)
  | pullResult i index ok => exact h.handle trivial (hcounter i)
  | setSelfActorSystemUp i => exact h.handle trivial (hcounter i)
  | notifyActorSystemDown i => exact h.handle trivial (hcounter i)
  | notifyLeave i => exact h.handle trivial (hcounter i)

/-- Throughout a run in which the counters stay below `2 ^ 31`, nothing about a node is
invented. -/
theorem nothingInvented_always {net₀ : Network ι} (h : net₀.Started) (actions : List (Action ι))
    (hcounter : Run.Always act (fun net => ∀ i, (net.counter i).toNat < 2 ^ 31) net₀ actions) :
    Run.Always act NothingInvented net₀ actions := by
  have hsound : Run.Always act Sound net₀ actions :=
    Run.always_of_step (P := Sound) (fun _ a hc hs => hs.act hc a) h.sound hcounter
  exact hsound.imp fun _ => Sound.nothingInvented

/-- The configurations of two nodes, of which the second has the first as its seed. -/
def twoConfigs : Bool → Config
  | false => { host := nodeA }
  | true => { host := nodeB, seedMembers := [nodeA] }

/-- The two nodes right after `Init`. -/
def twoNodes : Network Bool where
  nodes := fun b => (Node.init true (twoConfigs b)).2

/-- The second node joins through the first, the Up message it gossips arrives twice, and the
first node announces its actor system. -/
theorem nothingInvented_always_twoNodes :
    Run.Always act NothingInvented twoNodes
      [.pullFromSeed true, .pull false 0, .fullState true 0, .disseminate true 0,
        .gossip false 0, .gossip false 0, .setSelfActorSystemUp false,
        .sendSelfActorSystemUpGossip false, .disseminate false 0, .gossip true 1] :=
  nothingInvented_always
    { nodes := fun b => ⟨twoConfigs b, by cases b <;> rfl⟩
      address := show ∀ a b, twoNodes.address a = twoNodes.address b → a = b by decide
      datagrams := rfl
      pullRequests := rfl
      fullStates := rfl
      pushes := rfl
      calledUp := rfl } _ (by decide)

end Network

end Cdcf
