import Cdcf.Membership.Step

/-!
How often a received update is disseminated.

`HandleGossip` queues an update when it is news, and handling it makes it no news: the tables
then say what the update says (`Record.settled`).  Other events may undo this, since a member
that is removed is forgotten together with its incarnation, and a suspect that recovers can be
suspected again at the same incarnation.  So an update can be queued again, but only after it
has been undone (`queuings_le`).

A Down update about the node itself is left out: it is queued before `MergeDownUpdate` refuses
it.
-/

namespace Cdcf

open Sample

/-! ### One address -/

namespace Record

variable {κ : Type*} (uid : κ → String)

/-- The guards behind which `HandleGossip` queues an update. -/
def isNews (isSelf : Bool) (kind : MemberStatus) (k : κ) (i : UInt32) (r : Record κ) : Bool :=
  match kind with
  | .up =>
      !isSelf
        && !(covers (r.eraseExpired uid k).suspect i || covers (r.eraseExpired uid k).member i)
  | .down => r.isKnown
  | .suspect => !r.suspect.isSome && within r.member i
  | .recovery => within r.suspect i
  | .actorSystemDown | .actorSystemUp => r.member.isSome && !covers r.member i

/-- The tables say what the update says: of an Up, that the member is alive under its uid and at
its incarnation or a later one, of a Down that it is unknown, of a Suspect that it is suspected,
of a Recovery that it is not, and of the news of an actor system that the member is alive at its
incarnation or a later one. -/
def settled (kind : MemberStatus) (k : κ) (i : UInt32) (r : Record κ) : Bool :=
  match kind with
  | .up => covers r.member i && !expired uid k r.member
  | .down => !r.isKnown
  | .suspect => r.suspect.isSome
  | .recovery => !r.suspect.isSome
  | .actorSystemDown | .actorSystemUp => covers r.member i

variable {uid}

/-- What the tables say is no news. -/
lemma not_isNews_of_settled {kind : MemberStatus} {k : κ} {i : UInt32} {r : Record κ}
    (h : r.settled uid kind k i = true) (isSelf : Bool) :
    r.isNews uid isSelf kind k i = false := by
  cases kind with
  | up =>
      rw [settled, Bool.and_eq_true, Bool.not_eq_true'] at h
      simp [isNews, eraseExpired, h.1, h.2]
  | down => simpa [isNews, settled] using h
  | suspect =>
      rw [settled] at h
      simp [isNews, h]
  | recovery =>
      rw [settled, Bool.not_eq_true', Option.isSome_eq_false_iff, Option.isNone_iff_eq_none] at h
      simp [isNews, h]
  | actorSystemDown | actorSystemUp =>
      rw [settled] at h
      simp [isNews, h]

/-- Once an update has been handled as news, the tables say what it says. -/
lemma settled_gossip {isSelf : Bool} {kind : MemberStatus} {k : κ} {i : UInt32} {r : Record κ}
    (h : r.isNews uid isSelf kind k i = true) (hdown : kind = .down → isSelf = false) :
    (r.gossip uid isSelf kind k i).settled uid kind k i = true := by
  cases kind with
  | up =>
      rw [isNews, Bool.and_eq_true, Bool.not_eq_true', Bool.not_eq_true'] at h
      have hexp : expired uid k (r.eraseExpired uid k).member = false := expired_clear k r.member
      simp [gossip, h.1, up, h.2, settled, covers_put, expired_put hexp i.toInt32]
  | down =>
      rw [isNews] at h
      simp only [gossip, hdown rfl, Bool.false_eq_true, if_false, down, h, if_true]
      rfl
  | suspect =>
      rw [isNews, Bool.and_eq_true, Bool.not_eq_true'] at h
      have hm : r.member.isSome = true := by
        cases hr : r.member <;> simp_all
      simp [gossip, h.1, h.2, suspectAt, hm, settled]
  | recovery =>
      rw [isNews] at h
      simp [gossip, h, recover, settled]
  | actorSystemDown | actorSystemUp =>
      rw [isNews] at h
      simp [gossip, mergeActorSystem, h, settled, covers_put]

end Record

/-! ### The queue of a node -/

namespace Node

/-- Whether `HandleGossip` queues a message when it receives the update: the update itself, or
the update as `Suspect` and `RecoverySuspect` write it anew. -/
def Queues (s : Node) (u : UpdateMessage) : Prop := (s.handleGossip u).gossipQueue ≠ s.gossipQueue

/-- Whether the tables say what the update says. -/
def settled (s : Node) (u : UpdateMessage) : Bool :=
  match u.kind? with
  | some kind =>
      (s.record u.getMember.address).settled Member.uid kind u.getMember u.getIncarnation
  | none => true

instance (s : Node) (u : UpdateMessage) : Decidable (s.Queues u) :=
  inferInstanceAs (Decidable (¬_))

/-- The step is a delivery of the update in which it is queued. -/
def Queuing (u : UpdateMessage) (s : Node) : Event → Prop
  | .gossip v => v = u ∧ s.Queues u
  | _ => False

/-- The step takes the tables from what the update says to something else: for an Up update, it
removes the member from `members_`, replaces its uid or lowers its incarnation, for a Down it
adds the member, for a Suspect it removes the member from `suspects_`, for a Recovery it adds it
there, and for the news of an actor system it removes the member from `members_` or lowers its
incarnation. -/
def Undoing (u : UpdateMessage) (s : Node) (e : Event) : Prop :=
  s.settled u = true ∧ ¬(s.step e).settled u = true

instance (u : UpdateMessage) (s : Node) : DecidablePred (Queuing u s)
  | .gossip _ => inferInstanceAs (Decidable (_ ∧ _))
  | .pull _ | .push _ | .fullState _ | .ping _ | .pullResult _ _ | .setSelfActorSystemUp
  | .sendSelfActorSystemUpGossip | .notifyActorSystemDown | .notifyLeave =>
      inferInstanceAs (Decidable False)

instance (u : UpdateMessage) (s : Node) (e : Event) : Decidable (Undoing u s e) :=
  inferInstanceAs (Decidable (_ ∧ _))

/-- How often the update is queued in a run. -/
def queuings (u : UpdateMessage) (s : Node) (es : List Event) : ℕ :=
  Run.count step (Queuing u) s es

/-- How often the update is undone in a run. -/
def undoings (u : UpdateMessage) (s : Node) (es : List Event) : ℕ :=
  Run.count step (Undoing u) s es

lemma handleActorSystem_of_not_isNews {s : Node} {u : UpdateMessage} (up : Bool)
    (h : ((s.record u.getMember.address).member.isSome
      && !covers (s.record u.getMember.address).member u.getIncarnation) = false) :
    handleActorSystem up s u = s := by
  rw [← memberCovers_eq, ← ifBelongsToMembers_eq] at h
  rw [handleActorSystem]
  split_ifs with hm hi
  · rfl
  · rfl
  · simp_all

/-- An update that is no news is not queued. -/
lemma not_queues_of_not_isNews {s : Node} {u : UpdateMessage} {kind : MemberStatus}
    (hk : u.kind? = some kind)
    (h : (s.record u.getMember.address).isNews Member.uid
      (decide (u.getMember.address = s.self.address)) kind u.getMember u.getIncarnation = false) :
    ¬s.Queues u := by
  rw [Queues, not_not, handleGossip_eq, hk]
  cases kind with
  | up =>
      dsimp only
      rw [handleUp]
      by_cases hself : u.getMember.address = s.self.address
      · rw [if_pos (Member.eq_iff.mpr hself)]
      · have hrec := record_eraseExpiredMember s u.getMember u.getMember.address
        rw [if_pos rfl] at hrec
        rw [if_neg (by simpa using hself)]
        rw [Record.isNews, decide_eq_false hself, ← hrec, Bool.not_false, Bool.true_and,
          Bool.not_eq_false', Bool.or_eq_true] at h
        simp only [suspectCovers_eq, memberCovers_eq]
        split_ifs with hs hm
        · rfl
        · rfl
        · exact absurd h (by simp [hs, hm])
  | down =>
      dsimp only
      rw [Record.isNews, Record.isKnown, Bool.or_eq_false_iff] at h
      rw [handleDown, ifBelongsToMembers_eq, ifBelongsToSuspects_eq, h.1, h.2]
      rfl
  | suspect =>
      dsimp only
      rw [Record.isNews] at h
      simp only [handleSuspect, memberWithin_eq, ifBelongsToSuspects_eq]
      split_ifs with hs hi hw
      · rfl
      · rfl
      · simp [hs, hw] at h
      · rfl
  | recovery =>
      dsimp only
      rw [Record.isNews] at h
      rw [handleRecovery, ifBelongsToSuspects_eq]
      cases hs : (s.record u.getMember.address).suspect.isSome with
      | false => rfl
      | true =>
          simp only [(suspectLt_iff hs _).2, h]
          rfl
  | actorSystemDown =>
      dsimp only
      rw [handleActorSystemDown, handleActorSystem_of_not_isNews false h]
  | actorSystemUp =>
      dsimp only
      rw [handleActorSystemUp, handleActorSystem_of_not_isNews true h]

/-- An update that is queued was not what the tables said, and is what they say afterwards. -/
lemma settles {s : Node} {u : UpdateMessage}
    (hdown : u.isDownMessage → u.getMember.address ≠ s.self.address) (h : s.Queues u) :
    ¬s.settled u = true ∧ (s.handleGossip u).settled u = true := by
  cases hk : u.kind? with
  | none => exact absurd (by rw [handleGossip_eq, hk]) h
  | some kind =>
      have hnews : (s.record u.getMember.address).isNews Member.uid
          (decide (u.getMember.address = s.self.address)) kind u.getMember u.getIncarnation
            = true := by
        by_contra hno
        exact not_queues_of_not_isNews hk (Bool.not_eq_true _ ▸ hno) h
      rw [settled, settled, hk, record_handleGossip, hk]
      dsimp only
      rw [if_pos rfl]
      refine ⟨fun hset => ?_, Record.settled_gossip hnews fun hkind => ?_⟩
      · rw [Record.not_isNews_of_settled hset] at hnews
        exact absurd hnews (by simp)
      · rw [UpdateMessage.isDownMessage, UpdateMessage.hasStatus_iff, hk, hkind] at hdown
        exact decide_eq_false (hdown rfl)

/-- In every run an update that is not a Down about the node itself is queued at most once more
than it is undone. -/
theorem queuings_le (u : UpdateMessage) (s : Node) (es : List Event)
    (h : u.isDownMessage → u.getMember.address ≠ s.self.address) :
    queuings u s es ≤ undoings u s es + 1 := by
  refine Run.count_le_count_add_one
    (I := fun t => u.isDownMessage → u.getMember.address ≠ t.self.address)
    (fun t e ht => by rwa [self_step]) (fun t e ht hC => ?_) h es
  cases e with
  | gossip v =>
      obtain ⟨rfl, hq⟩ := hC
      exact settles ht hq
  | _ => exact hC.elim

/-- An Up update that arrives three times is queued once. -/
theorem queuings_nodeB :
    queuings (UpdateMessage.initAsUpMessage nodeB 1) (start nodeA)
        [.gossip (UpdateMessage.initAsUpMessage nodeC 1),
          .gossip (UpdateMessage.initAsUpMessage nodeB 1),
          .gossip (UpdateMessage.initAsUpMessage nodeB 1),
          .gossip (UpdateMessage.initAsUpMessage nodeB 1)]
      ≤ 0 + 1 :=
  queuings_le (UpdateMessage.initAsUpMessage nodeB 1) (start nodeA) _ (by decide)

/-- An Up update that arrives again after the member has been taken down is queued again. -/
theorem queuings_twice :
    Started (start nodeA)
      ∧ queuings (UpdateMessage.initAsUpMessage nodeB 1) (start nodeA)
          [.gossip (UpdateMessage.initAsUpMessage nodeC 1),
            .gossip (UpdateMessage.initAsUpMessage nodeB 1),
            .gossip (UpdateMessage.initAsDownMessage nodeB 2),
            .gossip (UpdateMessage.initAsUpMessage nodeB 1)] = 2 :=
  ⟨started_start nodeA rfl, by decide⟩

end Node

end Cdcf
