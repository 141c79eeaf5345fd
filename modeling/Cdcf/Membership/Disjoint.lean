import Cdcf.Membership.Step

/-!
Whether a known member is either alive or suspected.

`Suspect` and `RecoverySuspect` move a member between `members_` and `suspects_`, but
`MergeUpUpdate`, `MergeMembers` and `UpdateActorSystemStatus` add to `members_` without
looking at the other table.  So the two tables stay disjoint exactly as long as a suspected
member is not announced by one of these three (`tablesDisjoint_always_iff`).
-/

namespace Cdcf

open Sample

/-! ### One address -/

namespace Record

variable {κ : Type*} {uid : κ → String}

/-- The address is not in both tables. -/
def IsDisjoint (r : Record κ) : Prop := ¬(r.member.isSome ∧ r.suspect.isSome)

lemma isDisjoint_of_member {r : Record κ} (h : r.member = none) : r.IsDisjoint := by
  simp [IsDisjoint, h]

lemma isDisjoint_of_suspect {r : Record κ} (h : r.suspect = none) : r.IsDisjoint := by
  simp [IsDisjoint, h]

lemma isDisjoint_suspectAt {r : Record κ} (h : r.IsDisjoint) (k : κ) (i : UInt32) :
    (r.suspectAt k i).IsDisjoint := by
  rw [suspectAt]
  split
  · exact isDisjoint_of_member rfl
  · exact h

lemma isDisjoint_judge {r : Record Member} (h : r.IsDisjoint) (v : Option (Member × Bool))
    (a : Address) : (r.judge v a).IsDisjoint := by
  cases v with
  | none => exact h
  | some v =>
      rw [judge]
      split_ifs
      · exact isDisjoint_of_suspect rfl
      · exact isDisjoint_suspectAt h _ _
      · exact h

lemma isDisjoint_mergeActorSystem {r : Record κ} (h : r.IsDisjoint) (up : Bool) (k : κ)
    (i : UInt32) : (r.mergeActorSystem up k i).IsDisjoint := by
  rw [mergeActorSystem]
  split
  · next hm =>
      rw [Bool.and_eq_true] at hm
      exact fun hboth => h ⟨hm.1, hboth.2⟩
  · exact h

/-- `MergeUpUpdate` adds an address to `members_` behind the back of `suspects_` when it is
suspected below the incarnation of the message. -/
lemma isDisjoint_up {r : Record κ} (h : r.IsDisjoint) (k : κ) (i : UInt32) :
    (r.up k i).IsDisjoint ↔ ¬(r.suspect.isSome ∧ covers r.suspect i = false) := by
  rw [up]
  cases hs : r.suspect with
  | none =>
      refine iff_of_true ?_ (by simp)
      rw [← hs]
      split
      · exact h
      · exact isDisjoint_of_suspect hs
  | some p =>
      have hm : r.member = none := by
        by_contra hne
        exact h ⟨Option.isSome_iff_ne_none.mpr hne, by rw [hs]; rfl⟩
      cases hc : covers (some p) i with
      | true => simpa [hm] using h
      | false => simp [hm, IsDisjoint]

lemma isDisjoint_eraseExpired {r : Record κ} (h : r.IsDisjoint) (k : κ) :
    (r.eraseExpired uid k).IsDisjoint := by
  rintro ⟨hm, hs⟩
  refine h ⟨?_, ?_⟩
  · cases hexp : expired uid k r.member <;> simp_all [eraseExpired]
  · cases hexp : expired uid k r.suspect <;> simp_all [eraseExpired]

/-- Of the six kinds of gossip, only an accepted Up about an address suspected under the same
uid puts it in both tables. -/
lemma isDisjoint_gossip {r : Record κ} (h : r.IsDisjoint) (isSelf : Bool) (kind : MemberStatus)
    (k : κ) (i : UInt32) :
    (r.gossip uid isSelf kind k i).IsDisjoint
      ↔ ¬(kind = .up ∧ isSelf = false ∧ expired uid k r.suspect = false
          ∧ r.suspect.isSome ∧ covers r.suspect i = false) := by
  cases kind with
  | up =>
      cases isSelf with
      | true => simpa [gossip] using h
      | false =>
          simp only [gossip, Bool.false_eq_true, if_false,
            isDisjoint_up (isDisjoint_eraseExpired h k)]
          cases hexp : expired uid k r.suspect <;> simp [eraseExpired, hexp]
  | down =>
      refine iff_of_true ?_ (by simp)
      cases isSelf with
      | true => exact h
      | false =>
          simp only [gossip, Bool.false_eq_true, if_false, down]
          split
          · exact isDisjoint_of_member rfl
          · exact h
  | suspect =>
      refine iff_of_true ?_ (by simp)
      rw [gossip]
      split_ifs with hs
      · exact h
      · exact fun hboth => h ⟨hboth.1, hs⟩
      · exact isDisjoint_suspectAt h k i
      · exact h
  | recovery =>
      refine iff_of_true ?_ (by simp)
      rw [gossip]
      split_ifs
      · exact isDisjoint_of_suspect rfl
      · exact h
  | actorSystemDown => exact iff_of_true (isDisjoint_mergeActorSystem h false k i) (by simp)
  | actorSystemUp => exact iff_of_true (isDisjoint_mergeActorSystem h true k i) (by simp)

/-- An entry of a ping list puts a suspected address in both tables. -/
lemma isDisjoint_mergeMember {r : Record κ} (h : r.IsDisjoint) (k : κ) (i : Int32)
    (up? : Option Bool) : (r.mergeMember k i up?).IsDisjoint ↔ r.suspect = none := by
  rw [mergeMember.eq_def]
  cases hm : r.member with
  | some p =>
      have hs : r.suspect = none := by
        by_contra hne
        exact h ⟨by rw [hm]; rfl, Option.isSome_iff_ne_none.mpr hne⟩
      refine iff_of_true ?_ hs
      dsimp only
      split
      · exact isDisjoint_of_suspect hs
      · exact h
  | none => simp [take, IsDisjoint, Option.isSome_iff_ne_none]

/-- A full state that lists a suspected address puts it in both tables. -/
lemma isDisjoint_updateStatuses {r : Record Member} (h : r.IsDisjoint)
    (l : List MemberWithStatus) :
    (l.foldl (fun r m => r.updateStatus m.member (m.status == .actorSystemUp)) r).IsDisjoint
      ↔ (l ≠ [] → r.suspect = none) := by
  have hmem : ∀ (l : List MemberWithStatus) (r : Record Member), l ≠ [] ∨ r.member.isSome →
      (l.foldl (fun r m => r.updateStatus m.member (m.status == .actorSystemUp)) r).member.isSome
        = true := by
    intro l
    induction l with
    | nil => exact fun r hr => by simpa using hr
    | cons m l ih =>
        intro r _
        refine ih _ (Or.inr ?_)
        cases hr : r.member <;> simp [updateStatus, hr]
  cases l with
  | nil => simpa using h
  | cons m l =>
      rw [IsDisjoint, suspect_updateStatuses, hmem _ _ (Or.inl (by simp))]
      simp

end Record

/-! ### The tables of a node -/

namespace Node

/-- No member is a key of both `members_` and `suspects_`. -/
def TablesDisjoint (s : Node) : Prop := ∀ m ∈ s.getMembers, s.ifBelongsToSuspects m = false

/-- The event does not announce a suspected member: it is no Up update about another node at an
incarnation above the suspicion, under the uid of the suspicion, and no ping list and no full
state that lists a suspected member. -/
def RespectsSuspects (s : Node) : Event → Prop
  | .gossip u =>
      ¬(u.isUpMessage ∧ u.getMember.address ≠ s.self.address
        ∧ isExpired s.suspects u.getMember = false ∧ s.ifBelongsToSuspects u.getMember
        ∧ s.getSuspectLocalIncarnation u.getMember < u.getIncarnation)
  | .pull request =>
      request.getType = .ping →
        ∀ m ∈ request.getMembersWithIncarnation.keys, s.ifBelongsToSuspects m = false
  | .fullState message =>
      message.isSuccess →
        ∀ m ∈ message.getMembersWithStatus, s.ifBelongsToSuspects m.member = false
  | _ => True

instance : DecidablePred TablesDisjoint :=
  fun s => inferInstanceAs (Decidable (∀ m ∈ s.getMembers, s.ifBelongsToSuspects m = false))

instance (s : Node) : DecidablePred s.RespectsSuspects
  | .gossip _ => inferInstanceAs (Decidable (¬_))
  | .pull _ | .fullState _ => inferInstanceAs (Decidable (_ → _))
  | .push _ | .ping _ | .pullResult _ _ | .setSelfActorSystemUp | .sendSelfActorSystemUpGossip
  | .notifyActorSystemDown | .notifyLeave => inferInstanceAs (Decidable True)

lemma notSuspected_iff {s : Node} {m : Member} :
    s.ifBelongsToSuspects m = false ↔ (s.record m.address).suspect = none := by
  rw [ifBelongsToSuspects_eq, Option.isSome_eq_false_iff, Option.isNone_iff_eq_none]

lemma tablesDisjoint_iff {s : Node} : s.TablesDisjoint ↔ ∀ a, (s.record a).IsDisjoint := by
  constructor
  · rintro h a ⟨hm, hs⟩
    obtain ⟨m, hmem, rfl⟩ := OrderedMap.find?_isSome_iff.mp hm
    rw [notSuspected_iff.mp (h m hmem)] at hs
    exact absurd hs (by simp)
  · intro h m hm
    refine notSuspected_iff.mpr ?_
    by_contra hne
    exact h m.address ⟨OrderedMap.find?_isSome_of_mem_keys hm, Option.isSome_iff_ne_none.mpr hne⟩

lemma Started.tablesDisjoint {s : Node} (h : Started s) : s.TablesDisjoint := by
  refine tablesDisjoint_iff.mpr fun a => ?_
  rw [h.record]
  exact Record.isDisjoint_of_suspect rfl

/-- Gossip keeps the tables disjoint exactly when it does not announce a suspected member. -/
lemma isDisjoint_effect_gossip {s : Node} (h : ∀ a, (s.record a).IsDisjoint)
    (u : UpdateMessage) :
    (∀ a, (s.effect (.gossip u) a (s.record a)).IsDisjoint) ↔ s.RespectsSuspects (.gossip u) := by
  have hlocal : (∀ a, (s.effect (.gossip u) a (s.record a)).IsDisjoint)
      ↔ (s.effect (.gossip u) u.getMember.address (s.record u.getMember.address)).IsDisjoint := by
    refine ⟨fun hall => hall _, fun hone a => ?_⟩
    by_cases hu : u.getMember.address = a
    · exact hu ▸ hone
    · simpa [effect, hu] using h a
  have hlt : s.ifBelongsToSuspects u.getMember = true →
      (s.getSuspectLocalIncarnation u.getMember < u.getIncarnation
        ↔ covers (s.record u.getMember.address).suspect u.getIncarnation = false) := by
    rw [ifBelongsToSuspects_eq]
    exact fun hs => (suspectLt_iff hs _).1
  rw [hlocal, RespectsSuspects, UpdateMessage.isUpMessage, UpdateMessage.hasStatus_iff, effect,
    if_pos rfl, isExpired_eq]
  cases u.kind? with
  | none => simpa using h _
  | some kind =>
      dsimp only
      rw [Record.isDisjoint_gossip (h _), not_iff_not, Option.some.injEq,
        decide_eq_false_iff_not]
      refine and_congr_right fun _ => and_congr_right fun _ => and_congr Iff.rfl ?_
      rw [← ifBelongsToSuspects_eq]
      exact and_congr_right fun hs => (hlt hs).symm

/-- A ping list keeps the tables disjoint exactly when it lists no suspected member. -/
lemma isDisjoint_effect_pull {s : Node} (h : ∀ a, (s.record a).IsDisjoint)
    (request : PullRequestMessage) :
    (∀ a, (s.effect (.pull request) a (s.record a)).IsDisjoint)
      ↔ s.RespectsSuspects (.pull request) := by
  simp only [effect, RespectsSuspects, notSuspected_iff]
  by_cases ht : request.getType = .ping
  · simp only [ht, if_true, true_imp_iff]
    constructor
    · intro hall m hm
      obtain ⟨p, hp⟩ := Option.isSome_iff_exists.mp (OrderedMap.find?_isSome_of_mem_keys hm)
      have hone := hall m.address
      rw [hp] at hone
      exact (Record.isDisjoint_mergeMember (h _) _ _ _).mp hone
    · intro hall a
      cases hp : request.getMembersWithIncarnation.find? a with
      | none => exact h a
      | some p =>
          obtain ⟨m, hm, rfl⟩ := OrderedMap.find?_isSome_iff.mp (Option.isSome_of_eq_some hp)
          exact (Record.isDisjoint_mergeMember (h _) _ _ _).mpr (hall m hm)
  · simpa [ht] using h

/-- A full state keeps the tables disjoint exactly when it lists no suspected member. -/
lemma isDisjoint_effect_fullState {s : Node} (h : ∀ a, (s.record a).IsDisjoint)
    (message : FullStateMessage) :
    (∀ a, (s.effect (.fullState message) a (s.record a)).IsDisjoint)
      ↔ s.RespectsSuspects (.fullState message) := by
  simp only [effect, RespectsSuspects, notSuspected_iff]
  by_cases hok : message.isSuccess = true
  · simp only [hok, if_true, true_imp_iff, Record.isDisjoint_updateStatuses (h _)]
    constructor
    · intro hall m hm
      refine hall m.member.address (List.ne_nil_of_mem (a := m) ?_)
      exact List.mem_filter.mpr ⟨hm, by simp⟩
    · intro hall a hne
      obtain ⟨m, hm⟩ := List.exists_mem_of_ne_nil _ hne
      obtain ⟨hm, ha⟩ := List.mem_filter.mp hm
      exact of_decide_eq_true ha ▸ hall m hm
  · simpa [hok] using h

/-- One event leaves the tables disjoint exactly when it announces no suspected member. -/
lemma tablesDisjoint_step {s : Node} (hs : s.TablesDisjoint) (e : Event) :
    (s.step e).TablesDisjoint ↔ s.RespectsSuspects e := by
  have h := tablesDisjoint_iff.mp hs
  simp only [tablesDisjoint_iff, record_step]
  cases e with
  | gossip u => exact isDisjoint_effect_gossip h u
  | pull request => exact isDisjoint_effect_pull h request
  | fullState message => exact isDisjoint_effect_fullState h message
  | push message => exact iff_of_true (fun a => Record.isDisjoint_judge (h a) _ a) trivial
  | pullResult index ok => exact iff_of_true (fun a => Record.isDisjoint_judge (h a) _ a) trivial
  | setSelfActorSystemUp =>
      refine iff_of_true (fun a => ?_) trivial
      rw [effect]
      split <;> exact h a
  | notifyActorSystemDown =>
      refine iff_of_true (fun a => ?_) trivial
      rw [effect]
      split <;> exact h a
  | ping _ | sendSelfActorSystemUpGossip | notifyLeave => exact iff_of_true h trivial

/-- A known member is either alive or suspected throughout a run exactly when none of the
events announces a suspected member. -/
theorem tablesDisjoint_always_iff {s₀ : Node} (h : Started s₀) (es : List Event) :
    Run.Always step TablesDisjoint s₀ es ↔ Run.Each step RespectsSuspects s₀ es :=
  Run.always_iff_each_of_iff (P := TablesDisjoint) (fun _ e hs => tablesDisjoint_step hs e)
    h.tablesDisjoint es

/-- A second node is announced, suspected and found alive again. -/
theorem tablesDisjoint_always_nodeA :
    Run.Always step TablesDisjoint (start nodeA)
      [.gossip (UpdateMessage.initAsUpMessage nodeB 1),
        .gossip (UpdateMessage.initAsSuspectMessage nodeB 1),
        .gossip (UpdateMessage.initAsUpMessage nodeB 1),
        .gossip (UpdateMessage.initAsRecoveryMessage nodeB 1)] :=
  (tablesDisjoint_always_iff (started_start nodeA rfl) _).mpr (by decide)

/-- A suspected node that is announced at a later incarnation is in both tables. -/
theorem tablesDisjoint_lost :
    Started (start nodeA)
      ∧ ¬Run.Always step TablesDisjoint (start nodeA)
          [.gossip (UpdateMessage.initAsUpMessage nodeB 1),
            .gossip (UpdateMessage.initAsSuspectMessage nodeB 1),
            .gossip (UpdateMessage.initAsUpMessage nodeB 2)] :=
  ⟨started_start nodeA rfl, by decide⟩

end Node

end Cdcf
