import Cdcf.Membership.Dissemination
import Cdcf.Membership.PingRepair
import Cdcf.Membership.Provenance
import Cdcf.Membership.Redelivery

/-!
Byte arrays that protobuf does not decode.

`DeserializeFromArray` drops the result of `ParseFromArray`, so a handler acts on whatever the
parser leaves in the message, be the array well formed or not.  The parsers are a parameter here.

* `Protobuf`, `Arrival`: the parsers, and a byte array that one of the four handlers is given.
* `Record.passesOver`: the gossip that changes nothing at an address (`Record.gossip_eq_self_iff`).
* `Untouched`: nothing is changed or queued; `untouched_handleGossip`, `untouched_handlePull`,
  `untouched_handlePush`, `untouched_handleDidPull` say when each handler leaves it at that, and
  `untouched_iff` puts them together.
-/

namespace Cdcf

open Sample

/-! ### Decoding -/

/-- What `ParseFromArray` returns, and the message it leaves. -/
structure Parsed (M : Type*) where
  ok : Bool
  message : M

/-- The parsers protobuf generates for the messages. -/
structure Protobuf where
  memberUpdate : List UInt8 → Parsed UpdateMessage
  memberFullState : List UInt8 → Parsed FullStateMessage
  pullRequest : List UInt8 → Parsed PullRequestMessage
  pullResponse : List UInt8 → Parsed PullResponseMessage

/-- Every message has a required field, so an empty array is refused, and leaves a message without
any field. -/
structure Protobuf.RefusesEmpty (protobuf : Protobuf) : Prop where
  memberUpdate : protobuf.memberUpdate [] = ⟨false, {}⟩
  memberFullState : protobuf.memberFullState [] = ⟨false, {}⟩
  pullRequest : protobuf.pullRequest [] = ⟨false, {}⟩
  pullResponse : protobuf.pullResponse [] = ⟨false, {}⟩

/-- `Message::DeserializeFromArray`. -/
def deserializeFromArray {M : Type*} (parseFromArray : List UInt8 → Parsed M) (data : List UInt8) :
    M := (parseFromArray data).message

/-- A byte array, by the handler that gets it. -/
inductive Arrival where
  /-- `HandleGossip`. -/
  | gossip (data : List UInt8)
  /-- `HandlePull`. -/
  | pull (data : List UInt8)
  /-- `HandlePush`. -/
  | push (data : List UInt8)
  /-- `HandleDidPull`, of a pull that has got an answer. -/
  | didPull (data : List UInt8)

namespace Arrival

/-- Whether the array is decoded. -/
def isDecoded (protobuf : Protobuf) : Arrival → Bool
  | .gossip data => (protobuf.memberUpdate data).ok
  | .pull data => (protobuf.pullRequest data).ok
  | .push data => (protobuf.pullResponse data).ok
  | .didPull data => (protobuf.memberFullState data).ok

/-- What the handler works on. -/
def event (protobuf : Protobuf) : Arrival → Event
  | .gossip data => .gossip (deserializeFromArray protobuf.memberUpdate data)
  | .pull data => .pull (deserializeFromArray protobuf.pullRequest data)
  | .push data => .push (deserializeFromArray protobuf.pullResponse data)
  | .didPull data => .fullState (deserializeFromArray protobuf.memberFullState data)

end Arrival

/-! ### One address -/

namespace Record

variable {κ : Type*} (uid : κ → String)

/-- The gossip that a record has nothing to learn from. -/
def passesOver (isSelf : Bool) (kind : MemberStatus) (k : κ) (i : UInt32) (r : Record κ) : Bool :=
  match kind with
  | .up =>
      isSelf || (!expired uid k r.member && !expired uid k r.suspect
        && (covers r.suspect i || covers r.member i))
  | .down => !r.isKnown
  | .suspect => if r.suspect.isSome then covers r.suspect i else !within r.member i
  | .recovery => !within r.suspect i
  | .actorSystemDown | .actorSystemUp => !(r.member.isSome && !covers r.member i)

variable {uid}

/-- A slot that a message is written to without effect has reached the incarnation. -/
lemma covers_of_put_eq {k : κ} {i : UInt32} {o : Option (κ × Int32)} (h : put k i.toInt32 o = o) :
    covers o i = true := by
  rw [← h, covers_put, decide_eq_true_eq]
  exact UInt32.le_refl i

/-- What is passed over is no news. -/
lemma not_isNews_of_passesOver {isSelf : Bool} {kind : MemberStatus} {k : κ} {i : UInt32}
    {r : Record κ} (h : r.passesOver uid isSelf kind k i = true) :
    r.isNews uid isSelf kind k i = false := by
  cases kind with
  | up =>
      rw [passesOver, Bool.or_eq_true, Bool.and_eq_true, Bool.and_eq_true, Bool.not_eq_true',
        Bool.not_eq_true'] at h
      rcases h with rfl | ⟨⟨hm, hs⟩, hcovers⟩
      · rfl
      · rw [isNews, eraseExpired_of_not_expired hm hs, hcovers]
        simp
  | down => simpa [passesOver, isNews] using h
  | suspect =>
      rw [passesOver] at h
      split_ifs at h with hs
      · simp [isNews, hs]
      · simp [isNews, (Bool.not_eq_true' _).mp h]
  | recovery => simpa [passesOver, isNews] using h
  | actorSystemDown | actorSystemUp => simpa only [passesOver, isNews, Bool.not_eq_true'] using h

/-- An Up about another member changes nothing exactly when it is passed over. -/
lemma up_eq_self_iff {k : κ} {i : UInt32} {r : Record κ} :
    (r.eraseExpired uid k).up k i = r ↔ r.passesOver uid false .up k i = true := by
  rw [passesOver, Bool.false_or, Bool.and_eq_true, Bool.and_eq_true, Bool.not_eq_true',
    Bool.not_eq_true']
  constructor
  · intro h
    obtain ⟨hsuspect, -, hmember⟩ := up_cases k i (r.eraseExpired uid k)
    rw [h] at hsuspect hmember
    -- whatever is left in a slot is not of an earlier life, and nothing has been lost
    have hs : expired uid k r.suspect = false := by
      rw [hsuspect]
      exact expired_clear k r.suspect
    have hclear : expired uid k (r.eraseExpired uid k).member = false := expired_clear k r.member
    have hm : expired uid k r.member = false := by
      rcases hmember with h' | h'
      · rw [h']
        exact hclear
      · rw [h']
        exact expired_put hclear i.toInt32
    refine ⟨⟨hm, hs⟩, ?_⟩
    rw [eraseExpired_of_not_expired hm hs, up] at h
    split_ifs at h with hcovers
    · exact hcovers
    · rw [covers_of_put_eq (congrArg member h), Bool.or_true]
  · rintro ⟨⟨hm, hs⟩, hcovers⟩
    rw [eraseExpired_of_not_expired hm hs, up, if_pos hcovers]

/-- Gossip changes nothing at its address exactly when it is passed over, or is a Down about the
node itself. -/
theorem gossip_eq_self_iff {isSelf : Bool} {kind : MemberStatus} {k : κ} {i : UInt32}
    {r : Record κ} :
    r.gossip uid isSelf kind k i = r
      ↔ r.passesOver uid isSelf kind k i = true ∨ (kind = .down ∧ isSelf = true) := by
  have hactor : ∀ up, r.mergeActorSystem up k i = r
      ↔ (!(r.member.isSome && !covers r.member i)) = true := by
    intro up
    rw [mergeActorSystem, Bool.not_eq_true']
    split_ifs with h
    · refine iff_of_false (fun heq => ?_) (by simp [h])
      rw [Bool.and_eq_true, covers_of_put_eq (congrArg member heq)] at h
      exact absurd h.2 Bool.false_ne_true
    · exact iff_of_true rfl (Bool.eq_false_iff.mpr h)
  cases kind with
  | up =>
      cases isSelf with
      | true => exact iff_of_true rfl (Or.inl rfl)
      | false => simpa [gossip] using up_eq_self_iff
  | down =>
      cases isSelf with
      | true => exact iff_of_true rfl (Or.inr ⟨rfl, rfl⟩)
      | false =>
          simp only [gossip, passesOver, down, Bool.false_eq_true, if_false, Bool.not_eq_true',
            and_false, or_false]
          split_ifs with h
          · refine iff_of_false (fun heq => ?_) (by simp [h])
            rw [← heq] at h
            exact absurd h (by simp [isKnown])
          · exact iff_of_true rfl (Bool.eq_false_iff.mpr h)
  | suspect =>
      simp only [gossip, passesOver, reduceCtorEq, false_and, or_false]
      split_ifs with hs hc hw
      · exact iff_of_true rfl hc
      · exact iff_of_false (fun heq => hc (covers_of_put_eq (congrArg suspect heq))) hc
      · refine iff_of_false (fun heq => ?_) (by simp [hw])
        rw [suspectAt] at heq
        split_ifs at heq with hm
        · rw [← congrArg member heq] at hm
          exact absurd hm (by simp)
        · have hnone : r.member = none := by simpa using hm
          rw [hnone] at hw
          exact absurd hw (by simp)
      · exact iff_of_true rfl (by simpa using hw)
  | recovery =>
      simp only [gossip, passesOver, reduceCtorEq, false_and, or_false]
      split_ifs with hw
      · refine iff_of_false (fun heq => ?_) (by simp [hw])
        rw [← congrArg suspect heq] at hw
        exact absurd hw (by simp [recover])
      · exact iff_of_true rfl (by simpa using hw)
  | actorSystemDown => simpa [gossip, passesOver] using hactor false
  | actorSystemUp => simpa [gossip, passesOver] using hactor true

end Record

/-! ### The handlers -/

namespace Node

/-- The tables, the counter and the gossip queue are what they were. -/
structure Untouched (s t : Node) : Prop where
  members : t.members = s.members
  suspects : t.suspects = s.suspects
  memberActorSystem : t.memberActorSystem = s.memberActorSystem
  incarnation : t.incarnation = s.incarnation
  gossipQueue : t.gossipQueue = s.gossipQueue

lemma Untouched.refl (s : Node) : s.Untouched s := ⟨rfl, rfl, rfl, rfl, rfl⟩

lemma Untouched.record {s t : Node} (h : s.Untouched t) (a : Address) :
    t.record a = s.record a := by
  rw [Node.record, Node.record, h.members, h.suspects, h.memberActorSystem]

/-- A handler that changes no record, the counter and the queue touches nothing. -/
lemma untouched_of_record {s t : Node} (h : ∀ a, t.record a = s.record a)
    (hincarnation : t.incarnation = s.incarnation) (hqueue : t.gossipQueue = s.gossipQueue) :
    s.Untouched t := by
  obtain ⟨hmembers, hsuspects, hflags⟩ := by
    simpa only [tables, Prod.mk.injEq] using tables_ext h
  exact ⟨hmembers, hsuspects, hflags, hincarnation, hqueue⟩

/-- Gossip that a node has nothing to learn from: a required field is missing, or the record of the
member passes it over, or it is a Down about the node itself and nothing is retransmitted. -/
def DisregardsGossip (s : Node) (u : UpdateMessage) : Prop :=
  ∀ kind ∈ u.kind?,
    (s.record u.getMember.address).passesOver Member.uid
        (decide (u.getMember.address = s.self.address)) kind u.getMember u.getIncarnation = true
      ∨ (kind = .down ∧ u.getMember.address = s.self.address ∧ s.getRetransmitLimit < 1)

/-- A request that is no ping, or lists no member that is new or has a higher incarnation. -/
def DisregardsPull (s : Node) (request : PullRequestMessage) : Prop :=
  request.getType = .ping → ∀ a, ∀ p ∈ request.getMembersWithIncarnation.find? a,
    (s.record a).takes p.2 = false

/-- A result that is no ping failure of a member. -/
def DisregardsPush (s : Node) (message : PullResponseMessage) : Prop :=
  ¬(message.isPingFailure = true ∧ s.ifBelongsToMembers message.getMember = true)

/-- A Down about the node itself is sent on, if the node has an entry for itself. -/
lemma handleDown_self {s : Node} {u : UpdateMessage}
    (hself : u.getMember.address = s.self.address) :
    s.handleDown u = if (s.record u.getMember.address).isKnown then s.sendGossip u else s := by
  rw [handleDown, ifBelongsToMembers_eq, ifBelongsToSuspects_eq, ← Bool.not_or, Record.isKnown]
  cases ((s.record u.getMember.address).member.isSome
      || (s.record u.getMember.address).suspect.isSome) with
  | false => rfl
  | true =>
      have heq : u.getMember.eq (s.sendGossip u).self = true := by
        rw [sendGossip_self]
        exact Member.eq_iff.mpr hself
      rw [Bool.not_true, if_neg Bool.false_ne_true, mergeDownUpdate, if_pos heq, if_pos rfl]

/-- Where something is retransmitted, what is sent is queued. -/
lemma gossipQueue_sendGossip_eq_iff (s : Node) (u : UpdateMessage) :
    (s.sendGossip u).gossipQueue = s.gossipQueue ↔ s.getRetransmitLimit < 1 := by
  rw [sendGossip, pushGossip]
  split_ifs with h
  · exact iff_of_true rfl h
  · exact iff_of_false (by simp) h

/-- What is passed over changes nothing and is not queued. -/
lemma untouched_of_passesOver {s : Node} {u : UpdateMessage} {kind : MemberStatus}
    (hk : u.kind? = some kind)
    (h : (s.record u.getMember.address).passesOver Member.uid
      (decide (u.getMember.address = s.self.address)) kind u.getMember u.getIncarnation = true) :
    s.Untouched (s.handleGossip u) := by
  have hnews := Record.not_isNews_of_passesOver h
  refine untouched_of_record (fun a => ?_) (congrArg Own.incarnation (own_handleGossip s u))
    (not_not.mp (not_queues_of_not_isNews hk hnews))
  by_cases ha : u.getMember.address = a
  · subst ha
    rw [record_handleGossip_self, hk]
    exact Record.gossip_eq_self_iff.mpr (Or.inl h)
  · exact record_handleGossip_of_ne s ha

/-- A Down about the node itself touches nothing exactly when it is not sent on. -/
lemma untouched_down_self_iff {s : Node} {u : UpdateMessage} (hk : u.kind? = some .down)
    (hself : u.getMember.address = s.self.address) :
    s.Untouched (s.handleGossip u)
      ↔ (s.record u.getMember.address).isKnown = false ∨ s.getRetransmitLimit < 1 := by
  rw [handleGossip_eq, hk]
  dsimp only
  rw [handleDown_self hself]
  cases (s.record u.getMember.address).isKnown with
  | false => exact iff_of_true (Untouched.refl s) (Or.inl rfl)
  | true =>
      simp only [if_true, Bool.true_eq_false, false_or]
      refine ⟨fun h => (gossipQueue_sendGossip_eq_iff s u).mp h.gossipQueue, fun hlimit => ?_⟩
      have hsend : s.sendGossip u = s := by rw [sendGossip, pushGossip, if_pos hlimit]
      rw [hsend]
      exact Untouched.refl s

/-- `HandleGossip` touches nothing exactly when there is nothing to learn. -/
theorem untouched_handleGossip (s : Node) (u : UpdateMessage) :
    s.Untouched (s.handleGossip u) ↔ s.DisregardsGossip u := by
  rw [DisregardsGossip]
  cases hk : u.kind? with
  | none =>
      have hsame : s.handleGossip u = s := by rw [handleGossip_eq, hk]
      rw [hsame]
      exact iff_of_true (Untouched.refl s) (by simp)
  | some kind =>
      simp only [Option.mem_def, Option.some.injEq, forall_eq']
      constructor
      · intro h
        have hrecord := h.record u.getMember.address
        rw [record_handleGossip_self, hk] at hrecord
        rcases Record.gossip_eq_self_iff.mp hrecord with hpass | ⟨rfl, hself⟩
        · exact Or.inl hpass
        · have hself : u.getMember.address = s.self.address := of_decide_eq_true hself
          rcases (untouched_down_self_iff hk hself).mp h with hunknown | hlimit
          · exact Or.inl (by rw [Record.passesOver, hunknown, Bool.not_false])
          · exact Or.inr ⟨rfl, hself, hlimit⟩
      · rintro (hpass | ⟨rfl, hself, hlimit⟩)
        · exact untouched_of_passesOver hk hpass
        · exact (untouched_down_self_iff hk hself).mpr (Or.inr hlimit)

/-- `HandlePull` touches nothing exactly when the request lists no news. -/
theorem untouched_handlePull (s : Node) (request : PullRequestMessage) :
    s.Untouched (s.handlePull request) ↔ s.DisregardsPull request := by
  rw [DisregardsPull, handlePull]
  cases request.getType with
  | fullState => exact iff_of_true (Untouched.refl s) (by simp)
  | pingRelay => exact iff_of_true ⟨rfl, rfl, rfl, rfl, rfl⟩ (by simp)
  | ping =>
      dsimp only
      constructor
      · rintro h - a p hp
        have hrecord := h.record a
        rw [record_mergeMembers, Option.mem_def.mp hp] at hrecord
        dsimp only at hrecord
        rw [Record.mergeMember_eq] at hrecord
        split_ifs at hrecord with htakes
        · have htaken := Record.takes_take p.1 p.2 p.2 (request.getMembersWithActorSystem.get? a)
            (s.record a)
          rw [hrecord] at htaken
          simpa using htaken
        · exact Bool.eq_false_iff.mpr htakes
      · intro h
        refine untouched_of_record (fun a => ?_)
          (congrArg Own.incarnation (own_mergeMembers s _ _)) (gossipQueue_mergeMembers s _ _)
        rw [record_mergeMembers]
        cases hp : request.getMembersWithIncarnation.find? a with
        | none => rfl
        | some p =>
            dsimp only
            rw [Record.mergeMember_eq, h rfl a p hp, if_neg Bool.false_ne_true]

/-- `HandlePush` touches nothing exactly when no member is reported as failed. -/
theorem untouched_handlePush (s : Node) (message : PullResponseMessage) :
    s.Untouched (s.handlePush message) ↔ s.DisregardsPush message := by
  rw [DisregardsPush, handlePush]
  split_ifs with hfailure
  · rw [suspect]
    split_ifs with hmember
    · refine iff_of_false (fun h => ?_) (by simp [hfailure, hmember])
      have hrecord := congrArg Record.member (h.record message.getMember.address)
      rw [record_sendGossip] at hrecord
      rw [ifBelongsToMembers_eq, ← hrecord] at hmember
      exact absurd hmember (by simp [record, OrderedMap.find?_erase])
    · exact iff_of_true (Untouched.refl s) (by simp [hmember])
  · exact iff_of_true (Untouched.refl s) (by simp [hfailure])

/-- `HandleDidPull` touches nothing exactly when the response reports an error. -/
theorem untouched_handleDidPull (s : Node) (message : FullStateMessage) :
    s.Untouched (s.handleDidPull message) ↔ message.isSuccess = false := by
  cases hsuccess : message.isSuccess with
  | false =>
      rw [handleDidPull, if_neg (by simp [hsuccess])]
      exact iff_of_true (Untouched.refl s) rfl
  | true =>
      refine iff_of_false (fun h => ?_) (by simp)
      have hown : s.incarnation = (s.handleDidPull message).own.incarnation := h.incarnation.symm
      rw [own_handleDidPull, if_pos hsuccess] at hown
      have hnat := congrArg UInt32.toNat hown
      have hlt := s.incarnation.toNat_lt
      split at hnat <;> simp [Own.increase, own, UInt32.toNat_add] at hnat <;> omega

/-- What the handler of a byte array finds nothing to do about. -/
def Disregards (protobuf : Protobuf) (s : Node) : Arrival → Prop
  | .gossip data => s.DisregardsGossip (deserializeFromArray protobuf.memberUpdate data)
  | .pull data => s.DisregardsPull (deserializeFromArray protobuf.pullRequest data)
  | .push data => s.DisregardsPush (deserializeFromArray protobuf.pullResponse data)
  | .didPull data => (deserializeFromArray protobuf.memberFullState data).isSuccess = false

/-- A byte array, decoded or not, changes nothing and has nothing queued exactly when what the
parser leaves in the message gives the handler nothing to do. -/
theorem untouched_iff (protobuf : Protobuf) (s : Node) (arrival : Arrival) :
    s.Untouched (s.step (arrival.event protobuf)) ↔ s.Disregards protobuf arrival := by
  cases arrival with
  | gossip data => exact untouched_handleGossip s _
  | pull data => exact untouched_handlePull s _
  | push data => exact untouched_handlePush s _
  | didPull data => exact untouched_handleDidPull s _

/-- An empty answer of a seed is not decoded, and is taken for a successful join. -/
theorem joins_on_empty {protobuf : Protobuf} (h : protobuf.RefusesEmpty) (s : Node) :
    (Arrival.didPull []).isDecoded protobuf = false
      ∧ ¬s.Untouched (s.step ((Arrival.didPull []).event protobuf)) := by
  have hempty := h.memberFullState
  refine ⟨by rw [Arrival.isDecoded, hempty], fun huntouched => ?_⟩
  have herror := (untouched_handleDidPull s _).mp huntouched
  rw [deserializeFromArray, hempty] at herror
  exact absurd herror (by decide)

/-- Parsers that are given nothing but empty arrays. -/
def refusesAll : Protobuf :=
  ⟨fun _ => ⟨false, {}⟩, fun _ => ⟨false, {}⟩, fun _ => ⟨false, {}⟩, fun _ => ⟨false, {}⟩⟩

/-- An undecodable byte array that counts as a join: the node announces itself. -/
theorem not_untouched_empty :
    ∃ protobuf : Protobuf, protobuf.RefusesEmpty ∧ ∃ (s : Node) (arrival : Arrival), Reachable s
      ∧ arrival.isDecoded protobuf = false
      ∧ ¬s.Untouched (s.step (arrival.event protobuf)) := by
  have hrefuses : refusesAll.RefusesEmpty := ⟨rfl, rfl, rfl, rfl⟩
  have hreachable : Reachable (start nodeA) := ⟨start nodeA, [], started_start nodeA rfl, rfl⟩
  exact ⟨refusesAll, hrefuses, start nodeA, .didPull [], hreachable,
    joins_on_empty hrefuses (start nodeA)⟩

end Node

end Cdcf
