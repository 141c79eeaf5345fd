import Cdcf.Membership.Step

/-!
The incarnation a node records for a member: the value in `members_`, or the value in
`suspects_` when `members_` has none.

Most writes respect the order of the incarnations as unsigned numbers.  The exceptions are
`RecoverySuspect`, which copies the suspected value over a member that is in both tables,
`MergeMembers`, which does not look at `suspects_` and compares as signed numbers, and
`UpdateActorSystemStatus`, which adds a suspected member at zero.  `recorded_step_iff` says
that there are no others.
-/

namespace Cdcf

open Sample

/-! ### One address -/

namespace Record

variable {κ : Type*} {uid : κ → String}

/-- The incarnation recorded for the address. -/
def recorded (r : Record κ) : Option UInt32 :=
  (r.member.or r.suspect).map fun p => p.2.toUInt32

/-- The incarnation recorded in `r`, if there is one, has not gone backwards in `r'`. -/
def NotBelow (r r' : Record κ) : Prop := ∀ i ∈ r.recorded, ∃ j ∈ r'.recorded, i ≤ j

/-- Of an address in both tables, the suspected incarnation is not the lower one. -/
def RecoversUpward (r : Record κ) : Prop :=
  ∀ p ∈ r.member, ∀ q ∈ r.suspect, p.2.toUInt32 ≤ q.2.toUInt32

lemma NotBelow.refl (r : Record κ) : r.NotBelow r := fun i hi => ⟨i, hi, UInt32.le_refl i⟩

@[simp] lemma recorded_of_member {r : Record κ} {p : κ × Int32} (h : r.member = some p) :
    r.recorded = some p.2.toUInt32 := by
  simp [recorded, h]

@[simp] lemma recorded_of_suspect {r : Record κ} (h : r.member = none) :
    r.recorded = r.suspect.map fun p => p.2.toUInt32 := by
  simp [recorded, h]

lemma recorded_put {r : Record κ} {k : κ} {i : Int32} {o : Option (κ × Int32)}
    (h : r.member = put k i o) : r.recorded = some i.toUInt32 := by
  cases o with
  | none => exact recorded_of_member h
  | some p => exact recorded_of_member h

lemma recorded_put_suspect {r : Record κ} {k : κ} {i : Int32} {o : Option (κ × Int32)}
    (hm : r.member = none) (h : r.suspect = put k i o) : r.recorded = some i.toUInt32 := by
  rw [recorded_of_suspect hm, h]
  cases o <;> rfl

/-- A record whose new value is known has not gone backwards when the old one is at most
that. -/
lemma notBelow_iff {r r' : Record κ} {j : UInt32} (h : r'.recorded = some j) :
    r.NotBelow r' ↔ ∀ i ∈ r.recorded, i ≤ j := by
  simp [NotBelow, h]

lemma notBelow_suspectAt {r : Record κ} {i : UInt32} (h : ∀ p ∈ r.member, p.2.toUInt32 ≤ i)
    (k : κ) : r.NotBelow (r.suspectAt k i) := by
  rw [suspectAt]
  cases hm : r.member with
  | none => exact NotBelow.refl r
  | some p =>
      have hrec : (⟨none, put k i.toInt32 r.suspect, put k false r.actorSystem⟩ :
          Record κ).recorded = some i := by
        rw [recorded_put_suspect rfl rfl, UInt32.toUInt32_toInt32]
      rw [Option.isSome_some, if_pos rfl, notBelow_iff hrec, recorded_of_member hm]
      simpa using h p hm

/-- A recovery takes over the suspected incarnation. -/
lemma notBelow_recover {r : Record κ} (h : r.suspect.isSome) (k : κ) :
    r.NotBelow (r.recover k) ↔ r.RecoversUpward := by
  obtain ⟨q, hq⟩ := Option.isSome_iff_exists.mp h
  have hrec : (r.recover k).recorded = some q.2.toUInt32 := by
    rw [recorded_put (r := r.recover k) rfl, hq]
    rfl
  rw [notBelow_iff hrec, RecoversUpward, hq]
  cases hm : r.member with
  | none => simp [recorded_of_suspect hm, hq]
  | some p => simp [recorded_of_member hm]

/-- Past the guards of `HandleGossip`, an Up takes over an incarnation above both tables. -/
lemma notBelow_up (r : Record κ) (k : κ) (i : UInt32) : r.NotBelow (r.up k i) := by
  rw [up]
  split
  · exact NotBelow.refl r
  · next h =>
      rw [Bool.or_eq_true, not_or] at h
      refine (notBelow_iff (recorded_put rfl)).mpr fun j hj => ?_
      rw [UInt32.toUInt32_toInt32]
      cases hm : r.member with
      | some p =>
          rw [recorded_of_member hm, Option.mem_some_iff] at hj
          simp only [hm, covers_some, decide_eq_true_eq] at h
          exact hj ▸ UInt32.le_of_lt (UInt32.not_le.mp h.2)
      | none =>
          rw [recorded_of_suspect hm] at hj
          cases hs : r.suspect with
          | none => simp [hs] at hj
          | some q =>
              simp only [hs, Option.map_some, Option.mem_some_iff] at hj
              simp only [hs, covers_some, decide_eq_true_eq] at h
              exact hj ▸ UInt32.le_of_lt (UInt32.not_le.mp h.1)

lemma notBelow_mergeActorSystem (r : Record κ) (up : Bool) (k : κ) (i : UInt32) :
    r.NotBelow (r.mergeActorSystem up k i) := by
  rw [mergeActorSystem]
  split
  · next h =>
      rw [Bool.and_eq_true, Option.isSome_iff_exists] at h
      obtain ⟨⟨p, hp⟩, hc⟩ := h
      refine (notBelow_iff (recorded_put rfl)).mpr fun j hj => ?_
      rw [recorded_of_member hp, Option.mem_some_iff] at hj
      simp only [hp, covers_some, Bool.not_eq_true', decide_eq_false_iff_not] at hc
      rw [UInt32.toUInt32_toInt32]
      exact hj ▸ UInt32.le_of_lt (UInt32.not_le.mp hc)
  · exact NotBelow.refl r

/-- Of the gossip that does not remove the address, only an accepted Recovery can take its
incarnation backwards. -/
lemma notBelow_gossip {r : Record κ} {isSelf : Bool} {kind : MemberStatus} {k : κ} {i : UInt32}
    (hup : kind = .up → isSelf = false →
      expired uid k r.member = false ∧ expired uid k r.suspect = false)
    (hdown : kind = .down → isSelf = false → r.isKnown = false) :
    r.NotBelow (r.gossip uid isSelf kind k i)
      ↔ (kind = .recovery → within r.suspect i = true → r.RecoversUpward) := by
  cases kind with
  | up =>
      refine iff_of_true ?_ (by simp)
      cases isSelf with
      | true => exact NotBelow.refl r
      | false =>
          obtain ⟨hm, hs⟩ := hup rfl rfl
          simpa [gossip, eraseExpired_of_not_expired hm hs] using notBelow_up r k i
  | down =>
      refine iff_of_true ?_ (by simp)
      cases isSelf with
      | true => exact NotBelow.refl r
      | false => simpa [gossip, down, hdown rfl rfl] using NotBelow.refl r
  | suspect =>
      refine iff_of_true ?_ (by simp)
      rw [gossip]
      split_ifs with hs hc hw
      · exact NotBelow.refl r
      · cases hm : r.member with
        | some p =>
            refine (notBelow_iff (recorded_of_member rfl)).mpr fun j hj => ?_
            rw [recorded_of_member hm, Option.mem_some_iff] at hj
            exact UInt32.le_of_eq hj.symm
        | none =>
            obtain ⟨q, hq⟩ := Option.isSome_iff_exists.mp hs
            have hrec := recorded_put_suspect
              (r := ⟨none, put k i.toInt32 r.suspect, r.actorSystem⟩) rfl rfl
            refine (notBelow_iff hrec).mpr fun j hj => ?_
            rw [UInt32.toUInt32_toInt32]
            simp only [recorded_of_suspect hm, hq, Option.map_some, Option.mem_some_iff] at hj
            simp only [hq, covers_some, decide_eq_true_eq] at hc
            exact hj ▸ UInt32.le_of_lt (UInt32.not_le.mp hc)
      · refine notBelow_suspectAt (fun p hp => ?_) k
        rw [Option.mem_def.mp hp, within_some, decide_eq_true_eq] at hw
        exact hw
      · exact NotBelow.refl r
  | recovery =>
      rw [gossip]
      cases hw : within r.suspect i with
      | false => simpa using NotBelow.refl r
      | true =>
          have hs : r.suspect.isSome := by
            cases hr : r.suspect <;> simp_all
          simpa using notBelow_recover hs k
  | actorSystemDown => exact iff_of_true (notBelow_mergeActorSystem r false k i) (by simp)
  | actorSystemUp => exact iff_of_true (notBelow_mergeActorSystem r true k i) (by simp)

/-- An entry of a ping list takes over its incarnation where it is the greater one as a signed
number, and whatever the suspected one is. -/
lemma notBelow_mergeMember (r : Record κ) (k : κ) (i : Int32) (up? : Option Bool) :
    r.NotBelow (r.mergeMember k i up?)
      ↔ ((∀ p ∈ r.member, i > p.2) → ∀ j ∈ r.recorded, j ≤ i.toUInt32) := by
  have htake : (r.take k i up?).recorded = some i.toUInt32 := recorded_put rfl
  rw [mergeMember.eq_def]
  cases hm : r.member with
  | none => simp [notBelow_iff htake]
  | some p =>
      by_cases hi : i > p.2
      · simp [hi, notBelow_iff htake]
      · simpa [hi] using NotBelow.refl r

/-- A full state adds an address that `members_` does not have at zero. -/
lemma notBelow_updateStatuses (l : List MemberWithStatus) (r : Record Member) :
    r.NotBelow (l.foldl (fun r m => r.updateStatus m.member (m.status == .actorSystemUp)) r)
      ↔ (l ≠ [] → r.member = none → ∀ q ∈ r.suspect, q.2.toUInt32 = 0) := by
  have hstay : ∀ (l : List MemberWithStatus) (r : Record Member) (p : Member × Int32),
      r.member = some p →
      (l.foldl (fun r m => r.updateStatus m.member (m.status == .actorSystemUp)) r).member
        = some p := by
    intro l
    induction l with
    | nil => exact fun _ _ hp => hp
    | cons m l ih => exact fun r p hp => ih _ p (by simp [updateStatus, hp])
  cases hm : r.member with
  | some p =>
      refine iff_of_true ((notBelow_iff (recorded_of_member (hstay l r p hm))).mpr ?_) (by simp)
      intro i hi
      rw [recorded_of_member hm, Option.mem_some_iff] at hi
      exact UInt32.le_of_eq hi.symm
  | none =>
      cases l with
      | nil => simpa using NotBelow.refl r
      | cons m l =>
          have hnew := hstay l (r.updateStatus m.member (m.status == .actorSystemUp))
            (m.member, 0) (by simp [updateStatus, hm])
          rw [List.foldl_cons, notBelow_iff (recorded_of_member hnew), recorded_of_suspect hm]
          have hzero : (0 : Int32).toUInt32 = 0 := rfl
          cases r.suspect <;> simp [hzero]

end Record

/-! ### The tables of a node -/

namespace Node

/-- The incarnation recorded for an address: that of `members_`, or that of `suspects_` when
`members_` has none. -/
def recorded (s : Node) (a : Address) : Option UInt32 :=
  ((s.members.get? a).or (s.suspects.get? a)).map Int32.toUInt32

/-- The incarnation recorded for an address, if there is one, has not gone backwards after the
event. -/
def KeepsRecorded (s : Node) (e : Event) (a : Address) : Prop :=
  ∀ i ∈ s.recorded a, ∃ j ∈ (s.step e).recorded a, i ≤ j

/-- The event removes an address from a table through an accepted Down or through
`EraseExpiredMember`. -/
def Removes (s : Node) (a : Address) : Event → Prop
  | .gossip u =>
      u.getMember.address = a ∧ a ≠ s.self.address
        ∧ (u.isDownMessage ∧ (s.ifBelongsToMembers u.getMember ∨ s.ifBelongsToSuspects u.getMember)
          ∨ u.isUpMessage ∧ (isExpired s.members u.getMember ∨ isExpired s.suspects u.getMember))
  | _ => False

/-- If an address is in both tables, then its suspected incarnation is not the lower one. -/
def RecoversUpward (s : Node) (a : Address) : Prop :=
  ∀ i ∈ s.members.get? a, ∀ j ∈ s.suspects.get? a, i.toUInt32 ≤ j.toUInt32

/-- The event does not take the incarnation of an address backwards: a Recovery update that is
accepted and a successful ping of a suspect find no lower value in `suspects_` than in
`members_`, an entry of a ping list that is greater as a signed number, or of an address that is
not in `members_`, is no lower than what is recorded, and a full state lists an address of
`suspects_` alone only when it is suspected at zero. -/
def RaisesOnly (s : Node) (a : Address) : Event → Prop
  | .gossip u =>
      u.isRecoveryMessage → u.getMember.address = a →
        s.getSuspectLocalIncarnation u.getMember ≤ u.getIncarnation → s.RecoversUpward a
  | .pull request =>
      request.getType = .ping → ∀ i ∈ request.getMembersWithIncarnation.get? a,
        (∀ saved ∈ s.members.get? a, i > saved) → ∀ j ∈ s.recorded a, j ≤ i.toUInt32
  | .fullState message =>
      message.isSuccess → (∃ m ∈ message.getMembersWithStatus, m.member.address = a) →
        s.members.get? a = none → ∀ j ∈ s.suspects.get? a, j.toUInt32 = 0
  | .pullResult index ok =>
      ok → (∃ t, s.pulls[index]? = some (.ping t) ∧ t.address = a) → s.RecoversUpward a
  | _ => True

lemma recorded_eq (s : Node) (a : Address) : s.recorded a = (s.record a).recorded := by
  rw [recorded, Record.recorded, record, OrderedMap.get?, OrderedMap.get?]
  cases s.members.find? a with
  | some p => rfl
  | none => cases s.suspects.find? a <;> rfl

lemma recoversUpward_iff {s : Node} {a : Address} :
    s.RecoversUpward a ↔ (s.record a).RecoversUpward := by
  rw [RecoversUpward, Record.RecoversUpward, record, OrderedMap.get?, OrderedMap.get?]
  simp only [Option.mem_map, forall_exists_index, and_imp, forall_apply_eq_imp_iff₂]

lemma keepsRecorded_iff {s : Node} {e : Event} {a : Address} :
    s.KeepsRecorded e a ↔ (s.record a).NotBelow (s.effect e a (s.record a)) := by
  rw [KeepsRecorded, recorded_eq, recorded_eq, record_step]
  rfl

lemma notBelow_judge_suspect (r : Record Member) (t : Member) (a : Address) :
    r.NotBelow (r.judge (some (t, false)) a) := by
  simp only [Record.judge, Bool.false_eq_true, if_false]
  split
  · refine Record.notBelow_suspectAt (fun p hp => ?_) t
    rw [Record.localIncarnation, Option.mem_def.mp hp]
    exact UInt32.le_refl _
  · exact Record.NotBelow.refl r

lemma notBelow_relayVerdict (s : Node) (r : Record Member) (t : Member) (ex : MemberMap Unit)
    (a : Address) : r.NotBelow (r.judge (s.relayVerdict t ex) a) := by
  rw [relayVerdict]
  split_ifs
  · exact notBelow_judge_suspect r t a
  · exact Record.NotBelow.refl r

lemma keepsRecorded_gossip {s : Node} {u : UpdateMessage} {a : Address}
    (h : ¬s.Removes a (.gossip u)) :
    s.KeepsRecorded (.gossip u) a ↔ s.RaisesOnly a (.gossip u) := by
  rw [keepsRecorded_iff, RaisesOnly, effect, UpdateMessage.isRecoveryMessage,
    UpdateMessage.hasStatus_iff]
  rw [Removes, UpdateMessage.isDownMessage, UpdateMessage.isUpMessage,
    UpdateMessage.hasStatus_iff, UpdateMessage.hasStatus_iff] at h
  by_cases hu : u.getMember.address = a
  · subst hu
    cases hk : u.kind? with
    | none => simpa using Record.NotBelow.refl _
    | some kind =>
        simp only [hk, true_and, Option.some.injEq, not_and, not_or, Bool.not_eq_true, isExpired_eq,
          ifBelongsToMembers_eq, ifBelongsToSuspects_eq] at h
        rw [if_pos rfl]
        dsimp only
        rw [Record.notBelow_gossip]
        · rw [Option.some.injEq]
          refine imp_congr_right fun _ => ?_
          rw [recoversUpward_iff, eq_self, true_imp_iff]
          cases hs : (s.record u.getMember.address).suspect with
          | none => simp [Record.RecoversUpward, hs]
          | some q =>
              rw [← UInt32.not_lt, (suspectLt_iff (by rw [hs]; rfl) _).2, hs, Bool.not_eq_false]
        · exact fun hup hself => (h (of_decide_eq_false hself)).2 hup
        · intro hdown hself
          obtain ⟨hm, hs⟩ := (h (of_decide_eq_false hself)).1 hdown
          rw [Record.isKnown, hm, hs]
          rfl
  · simpa [hu] using Record.NotBelow.refl _

lemma keepsRecorded_pull (s : Node) (request : PullRequestMessage) (a : Address) :
    s.KeepsRecorded (.pull request) a ↔ s.RaisesOnly a (.pull request) := by
  rw [keepsRecorded_iff, RaisesOnly, effect, recorded_eq, OrderedMap.get?, OrderedMap.get?,
    OrderedMap.get?]
  by_cases ht : request.getType = .ping
  · rw [if_pos ht]
    cases request.getMembersWithIncarnation.find? a with
    | none => simpa using Record.NotBelow.refl _
    | some p =>
        rw [Record.notBelow_mergeMember]
        simp only [ht, true_imp_iff, Option.map_some, Option.mem_some_iff, forall_eq', record,
          Option.mem_map, forall_exists_index, and_imp, forall_apply_eq_imp_iff₂]
  · simpa [ht] using Record.NotBelow.refl _

lemma keepsRecorded_fullState (s : Node) (message : FullStateMessage) (a : Address) :
    s.KeepsRecorded (.fullState message) a ↔ s.RaisesOnly a (.fullState message) := by
  rw [keepsRecorded_iff, RaisesOnly, effect, OrderedMap.get?, OrderedMap.get?]
  by_cases hok : message.isSuccess = true
  · have hlist : (message.getMembersWithStatus.filter fun m => m.member.address = a) ≠ []
        ↔ ∃ m ∈ message.getMembersWithStatus, m.member.address = a := by
      simp [List.filter_eq_nil_iff]
    rw [if_pos hok, Record.notBelow_updateStatuses, hlist]
    simp only [hok, true_imp_iff, record, Option.map_eq_none_iff, Option.mem_map,
      forall_exists_index, and_imp, forall_apply_eq_imp_iff₂]
  · simpa [hok] using Record.NotBelow.refl _

lemma keepsRecorded_pullResult (s : Node) (index : ℕ) (ok : Bool) (a : Address) :
    s.KeepsRecorded (.pullResult index ok) a ↔ s.RaisesOnly a (.pullResult index ok) := by
  rw [keepsRecorded_iff, RaisesOnly, effect, verdict, recoversUpward_iff]
  cases s.pulls[index]? with
  | none => simpa [Record.judge] using Record.NotBelow.refl _
  | some c =>
      cases c with
      | relayedPing t d => simpa [Record.judge] using Record.NotBelow.refl _
      | relayPing t r ex =>
          cases ok with
          | true => simpa [Record.judge] using Record.NotBelow.refl _
          | false => simpa using notBelow_relayVerdict s _ t _ a
      | ping t =>
          dsimp only
          rw [pingVerdict]
          cases ok with
          | true =>
              rw [ifBelongsToSuspects_eq]
              cases hs : (s.record t.address).suspect.isSome with
              | false =>
                  refine iff_of_true (by simpa [Record.judge] using Record.NotBelow.refl _) ?_
                  rintro - ⟨t', ht', rfl⟩ p hp q hq
                  obtain rfl := PullCallback.ping.inj (Option.some.inj ht')
                  simp [Option.mem_def.mp hq] at hs
              | true =>
                  by_cases ht : t.address = a
                  · subst ht
                    simpa [Record.judge] using Record.notBelow_recover hs t
                  · simpa [Record.judge, ht] using Record.NotBelow.refl _
          | false =>
              refine iff_of_true ?_ (by simp)
              simp only [Bool.false_and, Bool.false_eq_true, if_false]
              split_ifs
              · exact notBelow_relayVerdict s _ t _ a
              · exact notBelow_judge_suspect _ t a
              · exact Record.NotBelow.refl _

/-- An event that does not remove an address takes the incarnation recorded for it backwards in
four cases, and in no others. -/
theorem recorded_step_iff {s : Node} {e : Event} {a : Address} (h : ¬s.Removes a e) :
    s.KeepsRecorded e a ↔ s.RaisesOnly a e := by
  cases e with
  | gossip u => exact keepsRecorded_gossip h
  | pull request => exact keepsRecorded_pull s request a
  | fullState message => exact keepsRecorded_fullState s message a
  | pullResult index ok => exact keepsRecorded_pullResult s index ok a
  | push message =>
      refine iff_of_true (keepsRecorded_iff.mpr ?_) trivial
      rw [effect]
      split_ifs
      · exact notBelow_judge_suspect _ _ a
      · exact Record.NotBelow.refl _
  | setSelfActorSystemUp =>
      refine iff_of_true (keepsRecorded_iff.mpr ?_) trivial
      rw [effect]
      split_ifs <;> exact Record.NotBelow.refl _
  | notifyActorSystemDown =>
      refine iff_of_true (keepsRecorded_iff.mpr ?_) trivial
      rw [effect]
      split_ifs <;> exact Record.NotBelow.refl _
  | ping _ | sendSelfActorSystemUpGossip | notifyLeave =>
      exact iff_of_true (keepsRecorded_iff.mpr (Record.NotBelow.refl _)) trivial

/-- A second node announces itself anew. -/
theorem recorded_step_nodeB :
    ((start nodeA).step (.gossip (UpdateMessage.initAsUpMessage nodeB 1))).KeepsRecorded
      (.gossip (UpdateMessage.initAsUpMessage nodeB 2)) nodeB.address :=
  (recorded_step_iff (by simp only [Removes]; decide)).mpr fun h => absurd h (by decide)

/-- A ping list takes the incarnation of a suspected node back from five to one. -/
theorem recorded_backwards :
    ∃ s, Reachable s ∧ ∃ e, ¬s.Removes nodeB.address e ∧ ¬s.KeepsRecorded e nodeB.address := by
  refine ⟨_, ⟨start nodeA, [.gossip (UpdateMessage.initAsUpMessage nodeB 5),
      .gossip (UpdateMessage.initAsSuspectMessage nodeB 5)], started_start nodeA rfl, rfl⟩,
    .pull (PullRequestMessage.initAsPingType (OrderedMap.empty.assign nodeB 1) OrderedMap.empty),
    not_false, ?_⟩
  intro h
  obtain ⟨j, hj, hle⟩ := h 5 rfl
  obtain rfl : 1 = j := Option.some.inj hj
  exact absurd hle (by decide)

end Node

end Cdcf
