import Cdcf.Membership.Step

/-!
The entry a node keeps about itself.

`HandleGossip` ignores Up messages about `self_` and `MergeDownUpdate` refuses to remove it,
but the Suspect branch and `HandlePush` do not look at `self_`.  So the node stays in its own
`members_` exactly as long as no accepted suspicion names it
(`selfRecorded_always_iff`).
-/

namespace Cdcf

open Sample

/-! ### The record of the node itself -/

namespace Record

variable {κ : Type*} {uid : κ → String}

/-- The address is in `members_` and not in `suspects_`. -/
def IsAlive (r : Record κ) : Prop := r.member.isSome ∧ r.suspect = none

/-- Of the six kinds of gossip about the node itself, only an accepted suspicion takes it out
of `members_`. -/
lemma isAlive_gossip_self {r : Record κ} (h : r.IsAlive) (kind : MemberStatus) (k : κ)
    (i : UInt32) :
    (r.gossip uid true kind k i).IsAlive ↔ ¬(kind = .suspect ∧ within r.member i) := by
  obtain ⟨hm, hs⟩ := h
  have halive : r.IsAlive := ⟨hm, hs⟩
  have hsystem : ∀ up, (r.mergeActorSystem up k i).IsAlive := by
    intro up
    rw [mergeActorSystem]
    split
    · exact ⟨isSome_put _ _ _, hs⟩
    · exact halive
  cases kind with
  | up => simpa [gossip] using halive
  | down => simpa [gossip] using halive
  | suspect =>
      simp only [gossip, hs, Option.isSome_none, Bool.false_eq_true, if_false, true_and]
      split
      · next hw => simp [suspectAt, hm, IsAlive, hw]
      · next hw => simpa [hw] using halive
  | recovery => simpa [gossip, hs] using halive
  | actorSystemDown => simpa [gossip] using hsystem false
  | actorSystemUp => simpa [gossip] using hsystem true

lemma IsAlive.mergeMember {r : Record κ} (h : r.IsAlive) (k : κ) (i : Int32)
    (up? : Option Bool) : (r.mergeMember k i up?).IsAlive := by
  have htake : (r.take k i up?).IsAlive :=
    ⟨isSome_put _ _ _, h.2⟩
  rw [Record.mergeMember.eq_def]
  split
  · split
    · exact htake
    · exact h
  · exact htake

lemma IsAlive.updateStatuses {r : Record Member} (h : r.IsAlive) (l : List MemberWithStatus) :
    (l.foldl (fun r m => r.updateStatus m.member (m.status == .actorSystemUp)) r).IsAlive := by
  induction l generalizing r with
  | nil => exact h
  | cons m l ih => exact ih ⟨by simp [updateStatus, h.1], h.2⟩

/-- A judgement takes an address out of `members_` exactly when it is a suspicion of it. -/
lemma isAlive_judge {r : Record Member} (h : r.IsAlive) (v : Option (Member × Bool))
    (a : Address) :
    (r.judge v a).IsAlive ↔ ¬∃ t : Member, v = some (t, false) ∧ t.address = a := by
  cases v with
  | none => simpa [judge] using h
  | some v =>
      obtain ⟨t, recovers⟩ := v
      by_cases ht : t.address = a
      · cases recovers with
        | true => simp [judge, ht, recover, IsAlive]
        | false => simp [judge, ht, suspectAt, h.1, IsAlive]
      · simpa [judge, ht] using h

end Record

namespace Node

/-! ### Staying in one's own view -/

/-- `self_` is a key of `members_` and not of `suspects_`. -/
def SelfRecorded (s : Node) : Prop :=
  s.members.contains s.self.address = true ∧ s.suspects.contains s.self.address = false

/-- The event is no suspicion that the node accepts about itself: neither a Suspect update
about `self_` at its recorded incarnation or above, nor a pushed ping failure that names
it. -/
def SparesSelf (s : Node) : Event → Prop
  | .gossip u =>
      ¬(u.isSuspectMessage ∧ u.getMember.address = s.self.address
        ∧ s.getMemberLocalIncarnation s.self ≤ u.getIncarnation)
  | .push message => ¬(message.isPingFailure ∧ message.getMember.address = s.self.address)
  | _ => True

instance : DecidablePred SelfRecorded := fun _ => inferInstanceAs (Decidable (_ ∧ _))

instance (s : Node) : DecidablePred s.SparesSelf
  | .gossip _ | .push _ => inferInstanceAs (Decidable (¬_))
  | .pull _ | .fullState _ | .ping _ | .pullResult _ _ | .setSelfActorSystemUp
  | .sendSelfActorSystemUpGossip | .notifyActorSystemDown | .notifyLeave =>
      inferInstanceAs (Decidable True)

/-- The failure detector has asked for other nodes only. -/
def AsksOthers (s : Node) : Prop :=
  ∀ c ∈ s.pulls, ∀ t, c.target? = some t → t.address ≠ s.self.address

lemma selfRecorded_iff {s : Node} : s.SelfRecorded ↔ (s.record s.self.address).IsAlive := by
  rw [SelfRecorded, OrderedMap.contains_eq_false]
  rfl

/-- The failure detector draws the node itself only once it is suspected. -/
lemma AsksOthers.step {s : Node} (h : s.AsksOthers)
    (hs : (s.record s.self.address).suspect = none) (e : Event) : (s.step e).AsksOthers := by
  intro c hc t ht
  rw [self_step]
  rcases (own_step s e).pulls c hc with ⟨c', hc', heq⟩ | hnone | ⟨choice, -, hdraw⟩
  · exact h c' hc' t (heq.trans ht)
  · exact absurd (hnone.symm.trans ht) (by simp)
  · rcases of_getRandomPingTarget (hdraw.symm.trans ht) with ⟨hne, -⟩ | hsus
    · exact hne
    · intro heq
      rw [heq, hs] at hsus
      simp at hsus

lemma Started.selfRecorded {s : Node} (h : Started s) : s.SelfRecorded ∧ s.AsksOthers := by
  refine ⟨selfRecorded_iff.mpr ?_, fun c hc => ?_⟩
  · rw [h.record, if_pos rfl]
    exact ⟨rfl, rfl⟩
  · rw [h.fresh.pulls] at hc
    exact absurd hc List.not_mem_nil

/-- One event leaves the node in its own view exactly when it is no suspicion that the node
accepts about itself. -/
lemma selfRecorded_step {s : Node} (ha : s.AsksOthers) (hs : s.SelfRecorded) (e : Event) :
    (s.step e).SelfRecorded ↔ s.SparesSelf e := by
  have halive := selfRecorded_iff.mp hs
  obtain ⟨p, hp⟩ := Option.isSome_iff_exists.mp halive.1
  rw [selfRecorded_iff, self_step, record_step]
  cases e with
  | gossip u =>
      rw [effect, SparesSelf, UpdateMessage.isSuspectMessage, UpdateMessage.hasStatus_iff]
      by_cases hu : u.getMember.address = s.self.address
      · rw [if_pos hu]
        cases u.kind? with
        | none => simpa using halive
        | some kind =>
            have hw : within (s.record s.self.address).member u.getIncarnation
                = decide (s.getMemberLocalIncarnation s.self ≤ u.getIncarnation) := by
              rw [getMemberLocalIncarnation_eq, Record.localIncarnation, hp]
              rfl
            simp only [decide_true, Record.isAlive_gossip_self halive, hw, hu]
            simp
      · simpa [hu] using halive
  | pull request =>
      simp only [effect, SparesSelf, iff_true]
      split
      · split
        · exact halive.mergeMember _ _ _
        · exact halive
      · exact halive
  | push message =>
      rw [effect, Record.isAlive_judge halive, SparesSelf]
      cases message.isPingFailure <;> simp
  | fullState message =>
      simp only [effect, SparesSelf, iff_true]
      split
      · exact halive.updateStatuses _
      · exact halive
  | pullResult index ok =>
      simp only [effect, Record.isAlive_judge halive, SparesSelf, iff_true]
      rintro ⟨t, hv, ht⟩
      obtain ⟨c, hc, htarget⟩ := target_of_verdict hv
      exact ha c hc t htarget ht
  | setSelfActorSystemUp => simpa [effect, SparesSelf, Record.IsAlive] using halive
  | notifyActorSystemDown => simpa [effect, SparesSelf, Record.IsAlive] using halive
  | ping choice => simpa [effect, SparesSelf] using halive
  | sendSelfActorSystemUpGossip => simpa [effect, SparesSelf] using halive
  | notifyLeave => simpa [effect, SparesSelf] using halive

/-- A node is in its own `members_`, and not in its own `suspects_`, throughout a run exactly
when none of the events is a suspicion that it accepts about itself. -/
theorem selfRecorded_always_iff {s₀ : Node} (h : Started s₀) (es : List Event) :
    Run.Always step SelfRecorded s₀ es ↔ Run.Each step SparesSelf s₀ es := by
  obtain ⟨hs, ha⟩ := h.selfRecorded
  exact Run.always_iff_each (I := AsksOthers) (fun s e ha hs => selfRecorded_step ha hs e)
    (fun s e ha hs _ => ha.step (selfRecorded_iff.mp hs).2 e) ha hs es

/-- A node that learns of a second one, suspects it and hears an old suspicion of itself stays
in its own view. -/
theorem selfRecorded_always_nodeA :
    Run.Always step SelfRecorded (start nodeA)
      [.gossip (UpdateMessage.initAsUpMessage nodeB 1),
        .gossip (UpdateMessage.initAsSuspectMessage nodeB 2),
        .pull (start nodeB).pingRequest] :=
  (selfRecorded_always_iff (started_start nodeA rfl) _).mpr (by decide)

/-- One Suspect update about `self_`, at the incarnation every node records for itself at the
start, takes the node out of its own `members_`. -/
theorem selfRecorded_lost :
    Started (start nodeA)
      ∧ ¬Run.Always step SelfRecorded (start nodeA)
          [.gossip (UpdateMessage.initAsSuspectMessage nodeA 0)] :=
  ⟨started_start nodeA rfl, by decide⟩

end Node

end Cdcf
