import Cdcf.Membership.SelfFlag

/-!
The members reported with a running actor system.

Every path that sets the flag of another node puts the node into `members_`, and every path that
takes a node out of `members_` clears its flag.  So a flag that is set always belongs to a member
of `members_`.  It may still belong to a suspected one: a node that is in `members_` and in
`suspects_` at once takes the news that its actor system is up.

* `runningFlag_always`: both halves over a run, the second with its exact condition.
-/

namespace Cdcf

open Sample

/-! ### One address -/

namespace Record

variable {κ : Type*} {uid : κ → String}

/-- The address is marked with a running actor system. -/
def Running (r : Record κ) : Prop := r.actorSystem.map Prod.snd = some true

/-- An address marked with a running actor system is in `members_`. -/
def RunsRecorded (r : Record κ) : Prop := r.Running → r.member.isSome

/-- A suspected address is not marked with a running actor system. -/
def Stopped (r : Record κ) : Prop := r.suspect.isSome → ¬r.Running

lemma not_running_put {m s : Option (κ × Int32)} {k : κ} {o : Option (κ × Bool)} :
    ¬(Record.mk m s (put k false o)).Running := by
  simp [Running]

lemma runsRecorded_of_not_running {r : Record κ} (h : ¬r.Running) : r.RunsRecorded :=
  fun hrun => absurd hrun h

lemma stopped_of_not_running {r : Record κ} (h : ¬r.Running) : r.Stopped := fun _ => h

lemma stopped_of_suspect {r : Record κ} (h : r.suspect = none) : r.Stopped := by
  simp [Stopped, h]

/-- What an earlier life leaves behind is not running. -/
lemma eraseExpired_cases (uid : κ → String) (k : κ) (r : Record κ) :
    r.eraseExpired uid k = r ∨ ¬(r.eraseExpired uid k).Running := by
  cases hm : expired uid k r.member with
  | true => exact Or.inr (by simp [eraseExpired, hm, Running])
  | false =>
      cases hs : expired uid k r.suspect with
      | true => exact Or.inr (by simp [eraseExpired, hs, Running])
      | false => exact Or.inl (eraseExpired_of_not_expired hm hs)

lemma RunsRecorded.eraseExpired {r : Record κ} (h : r.RunsRecorded) (k : κ) :
    (r.eraseExpired uid k).RunsRecorded := by
  rcases eraseExpired_cases uid k r with heq | hstop
  · rw [heq]
    exact h
  · exact runsRecorded_of_not_running hstop

lemma RunsRecorded.up {r : Record κ} (h : r.RunsRecorded) (k : κ) (i : UInt32) :
    (r.up k i).RunsRecorded := by
  rw [Record.up]
  split
  · exact h
  · exact fun _ => isSome_put _ _ _

lemma RunsRecorded.suspectAt {r : Record κ} (h : r.RunsRecorded) (k : κ) (i : UInt32) :
    (r.suspectAt k i).RunsRecorded := by
  rw [Record.suspectAt]
  split
  · exact runsRecorded_of_not_running not_running_put
  · exact h

lemma runsRecorded_recover (k : κ) (r : Record κ) : (r.recover k).RunsRecorded :=
  fun _ => isSome_put _ _ _

lemma RunsRecorded.mergeActorSystem {r : Record κ} (h : r.RunsRecorded) (up : Bool) (k : κ)
    (i : UInt32) : (r.mergeActorSystem up k i).RunsRecorded := by
  rw [Record.mergeActorSystem]
  split
  · exact fun _ => isSome_put _ _ _
  · exact h

/-- Gossip that takes an address out of `members_` clears its flag, and gossip that sets the flag
finds the address in `members_`. -/
lemma RunsRecorded.gossip {r : Record κ} (h : r.RunsRecorded) (isSelf : Bool)
    (kind : MemberStatus) (k : κ) (i : UInt32) : (r.gossip uid isSelf kind k i).RunsRecorded := by
  cases kind with
  | up =>
      rw [Record.gossip]
      split
      · exact h
      · exact (h.eraseExpired k).up k i
  | down =>
      rw [Record.gossip]
      split
      · exact h
      · rw [Record.down]
        split
        · exact runsRecorded_of_not_running not_running_put
        · exact h
  | suspect =>
      rw [Record.gossip]
      split_ifs
      · exact h
      · exact h
      · exact h.suspectAt k i
      · exact h
  | recovery =>
      rw [Record.gossip]
      split
      · exact runsRecorded_recover k r
      · exact h
  | actorSystemDown => exact h.mergeActorSystem false k i
  | actorSystemUp => exact h.mergeActorSystem true k i

lemma RunsRecorded.mergeMember {r : Record κ} (h : r.RunsRecorded) (k : κ) (i : Int32)
    (up? : Option Bool) : (r.mergeMember k i up?).RunsRecorded := by
  rw [Record.mergeMember.eq_def]
  split
  · split
    · exact fun _ => isSome_put _ _ _
    · exact h
  · exact fun _ => isSome_put _ _ _

lemma RunsRecorded.updateStatuses {r : Record Member} (h : r.RunsRecorded)
    (l : List MemberWithStatus) :
    (l.foldl (fun r m => r.updateStatus m.member (m.status == .actorSystemUp)) r).RunsRecorded := by
  induction l generalizing r with
  | nil => exact h
  | cons m l ih =>
      refine ih fun _ => ?_
      cases hm : r.member <;> simp [updateStatus, hm]

lemma RunsRecorded.judge {r : Record Member} (h : r.RunsRecorded) (v : Option (Member × Bool))
    (a : Address) : (r.judge v a).RunsRecorded := by
  cases v with
  | none => exact h
  | some v =>
      rw [Record.judge]
      split_ifs
      · exact runsRecorded_recover v.1 r
      · exact h.suspectAt v.1 _
      · exact h

/-! ### A suspected address -/

lemma Stopped.suspectAt {r : Record κ} (h : r.Stopped) (k : κ) (i : UInt32) :
    (r.suspectAt k i).Stopped := by
  rw [Record.suspectAt]
  split
  · exact stopped_of_not_running not_running_put
  · exact h

lemma Stopped.up {r : Record κ} (h : r.Stopped) (k : κ) (i : UInt32) : (r.up k i).Stopped := by
  rw [Record.up]
  split <;> exact h

/-- Of the six kinds of gossip, only an accepted ActorSystemUp about an address in both tables
marks a suspected address. -/
lemma stopped_gossip {r : Record κ} (h : r.Stopped) (isSelf : Bool) (kind : MemberStatus) (k : κ)
    (i : UInt32) :
    (r.gossip uid isSelf kind k i).Stopped
      ↔ ¬(kind = .actorSystemUp ∧ r.suspect.isSome ∧ r.member.isSome
          ∧ covers r.member i = false) := by
  cases kind with
  | up =>
      refine iff_of_true ?_ (by simp)
      rw [gossip]
      split
      · exact h
      · rcases eraseExpired_cases uid k r with heq | hstop
        · rw [heq]
          exact h.up k i
        · exact (stopped_of_not_running hstop).up k i
  | down =>
      refine iff_of_true ?_ (by simp)
      rw [gossip, down]
      split_ifs
      · exact h
      · exact stopped_of_suspect rfl
      · exact h
  | suspect =>
      refine iff_of_true ?_ (by simp)
      rw [gossip]
      split_ifs with hs
      · exact h
      · exact fun _ => h hs
      · exact h.suspectAt k i
      · exact h
  | recovery =>
      refine iff_of_true ?_ (by simp)
      rw [gossip]
      split
      · exact stopped_of_suspect rfl
      · exact h
  | actorSystemDown =>
      refine iff_of_true ?_ (by simp)
      rw [gossip, mergeActorSystem]
      split
      · exact stopped_of_not_running not_running_put
      · exact h
  | actorSystemUp =>
      rw [gossip, mergeActorSystem]
      cases hm : r.member.isSome && !covers r.member i with
      | true =>
          rw [Bool.and_eq_true, Bool.not_eq_true'] at hm
          simp [Stopped, Running, hm]
      | false =>
          refine iff_of_true h ?_
          rintro ⟨-, -, hsome, hcov⟩
          simp [hsome, hcov] at hm

/-- An entry of a ping list marks a suspected address if it is taken with its flag set. -/
lemma stopped_mergeMember {r : Record κ} (h : r.Stopped) (k : κ) (i : Int32)
    (up? : Option Bool) :
    (r.mergeMember k i up?).Stopped
      ↔ ¬(r.suspect.isSome ∧ up? = some true ∧ ∀ p ∈ r.member, i > p.2) := by
  have htake : (r.take k i up?).Stopped ↔ ¬(r.suspect.isSome ∧ up? = some true) := by
    cases up? with
    | none => exact iff_of_true h (by simp)
    | some up => simp [Stopped, Running, take]
  rw [mergeMember.eq_def]
  cases hm : r.member with
  | none => simpa using htake
  | some p =>
      dsimp only
      split
      · next hi => simpa [hi] using htake
      · next hi => exact iff_of_true h (by simp [hi])

/-- A full state marks a suspected address if its last entry for the address does. -/
lemma stopped_updateStatuses {r : Record Member} (h : r.Stopped) (l : List MemberWithStatus) :
    (l.foldl (fun r m => r.updateStatus m.member (m.status == .actorSystemUp)) r).Stopped
      ↔ ¬(r.suspect.isSome ∧ ∃ m ∈ l.getLast?, m.status = .actorSystemUp) := by
  rw [Stopped, Running, flag_updateStatuses, suspect_updateStatuses]
  cases hl : l.getLast? with
  | none => simpa [Stopped, Running] using h
  | some m => simp

lemma Stopped.judge {r : Record Member} (h : r.Stopped) (v : Option (Member × Bool))
    (a : Address) : (r.judge v a).Stopped := by
  cases v with
  | none => exact h
  | some v =>
      rw [Record.judge]
      split_ifs
      · exact stopped_of_suspect rfl
      · exact h.suspectAt v.1 _
      · exact h

end Record

/-! ### The tables of a node -/

namespace Node

/-- Every other node that `member_actor_system_` maps to `true` is a key of `members_`. -/
def RunningRecorded (s : Node) : Prop :=
  ∀ m : Member, m.address ≠ s.self.address → s.memberActorSystem.get? m.address = some true →
    s.ifBelongsToMembers m = true

/-- No other node that is a key of `suspects_` is mapped to `true` by `member_actor_system_`. -/
def SuspectsStopped (s : Node) : Prop :=
  ∀ m : Member, m.address ≠ s.self.address → s.ifBelongsToSuspects m = true →
    s.memberActorSystem.get? m.address ≠ some true

/-- A suspected node, other than the node itself. -/
def SuspectsOther (s : Node) (m : Member) : Prop :=
  m.address ≠ s.self.address ∧ s.ifBelongsToSuspects m = true

/-- The event does not mark a suspected node: it is no ActorSystemUp update about one that is in
`members_` too, at an incarnation above that of `members_`, no ping list that has the flag of one
set, at an incarnation above that of `members_` as a signed number if `members_` has it, and no
full state whose last entry about one tells that its actor system is up. -/
def StartsNoSuspect (s : Node) : Event → Prop
  | .gossip u =>
      ¬(u.isActorSystemUpMessage ∧ s.SuspectsOther u.getMember
        ∧ s.ifBelongsToMembers u.getMember
        ∧ s.getMemberLocalIncarnation u.getMember < u.getIncarnation)
  | .pull request =>
      request.getType = .ping → ∀ p ∈ request.getMembersWithIncarnation.entries,
        s.SuspectsOther p.1 → request.getMembersWithActorSystem.get? p.1.address = some true →
          ∃ saved ∈ s.members.get? p.1.address, p.2 ≤ saved
  | .fullState message =>
      message.isSuccess → ∀ m ∈ message.getMembersWithStatus, s.SuspectsOther m.member →
        ∀ last ∈ (message.getMembersWithStatus.filter fun m' =>
          m'.member.address = m.member.address).getLast?, last.status ≠ .actorSystemUp
  | _ => True

instance (s : Node) : DecidablePred s.SuspectsOther :=
  fun _ => inferInstanceAs (Decidable (_ ∧ _))

instance (s : Node) : DecidablePred s.StartsNoSuspect
  | .gossip _ => inferInstanceAs (Decidable (¬_))
  | .pull _ | .fullState _ => inferInstanceAs (Decidable (_ → _))
  | .push _ | .ping _ | .pullResult _ _ | .setSelfActorSystemUp | .sendSelfActorSystemUpGossip
  | .notifyActorSystemDown | .notifyLeave => inferInstanceAs (Decidable True)

/-- Every address is the address of a member. -/
lemma forall_member_iff {p : Address → Prop} : (∀ m : Member, p m.address) ↔ ∀ a, p a :=
  ⟨fun h a => h { ipAddress := a.host, port := a.port }, fun h m => h m.address⟩

lemma running_iff {s : Node} {a : Address} :
    s.memberActorSystem.get? a = some true ↔ (s.record a).Running := Iff.rfl

lemma runningRecorded_iff {s : Node} :
    s.RunningRecorded ↔ ∀ a, a ≠ s.self.address → (s.record a).RunsRecorded := by
  rw [← forall_member_iff]
  simp only [RunningRecorded, running_iff, ifBelongsToMembers_eq]
  rfl

lemma suspectsStopped_iff {s : Node} :
    s.SuspectsStopped ↔ ∀ a, a ≠ s.self.address → (s.record a).Stopped := by
  rw [← forall_member_iff]
  simp only [SuspectsStopped, ne_eq, running_iff, ifBelongsToSuspects_eq]
  rfl

/-- A node that has just started has marked no address. -/
lemma Started.not_running {s : Node} (h : Started s) (a : Address) : ¬(s.record a).Running := by
  rw [h.record]
  simp [Record.Running]

/-- No event marks an address that it does not put into `members_`. -/
lemma runningRecorded_step {s : Node} (h : s.RunningRecorded) (e : Event) :
    (s.step e).RunningRecorded := by
  rw [runningRecorded_iff] at h ⊢
  rw [self_step]
  intro a ha
  have hr := h a ha
  rw [record_step]
  cases e with
  | gossip u =>
      rw [effect]
      split_ifs
      · cases u.kind? with
        | none => exact hr
        | some kind => exact hr.gossip _ kind _ _
      · exact hr
  | pull request =>
      rw [effect]
      split
      · cases request.getMembersWithIncarnation.find? a with
        | none => exact hr
        | some p => exact hr.mergeMember _ _ _
      · exact hr
  | push message => exact hr.judge _ a
  | fullState message =>
      rw [effect]
      split
      · exact hr.updateStatuses _
      · exact hr
  | pullResult index ok => exact hr.judge _ a
  | setSelfActorSystemUp =>
      rw [effect, if_neg ha]
      exact hr
  | notifyActorSystemDown =>
      rw [effect, if_neg ha]
      exact hr
  | ping _ | sendSelfActorSystemUpGossip | notifyLeave => exact hr

/-- Gossip marks no suspected node exactly when it is no accepted ActorSystemUp about one. -/
lemma stopped_effect_gossip {s : Node}
    (h : ∀ a, a ≠ s.self.address → (s.record a).Stopped) (u : UpdateMessage) :
    (∀ a, a ≠ s.self.address → (s.effect (.gossip u) a (s.record a)).Stopped)
      ↔ s.StartsNoSuspect (.gossip u) := by
  have hlocal : (∀ a, a ≠ s.self.address → (s.effect (.gossip u) a (s.record a)).Stopped)
      ↔ (u.getMember.address ≠ s.self.address →
        (s.effect (.gossip u) u.getMember.address (s.record u.getMember.address)).Stopped) := by
    refine ⟨fun hall => hall _, fun hone a ha => ?_⟩
    by_cases hu : u.getMember.address = a
    · subst hu
      exact hone ha
    · simpa [effect, hu] using h a ha
  rw [hlocal, StartsNoSuspect, SuspectsOther, UpdateMessage.isActorSystemUpMessage,
    UpdateMessage.hasStatus_iff, effect, if_pos rfl, ifBelongsToSuspects_eq,
    ifBelongsToMembers_eq]
  by_cases hself : u.getMember.address = s.self.address
  · simp [hself]
  cases hk : u.kind? with
  | none => simpa [hself] using h _ hself
  | some kind =>
      dsimp only
      rw [Record.stopped_gossip (h _ hself)]
      have hlt : (s.record u.getMember.address).member.isSome = true →
          (s.getMemberLocalIncarnation u.getMember < u.getIncarnation
            ↔ covers (s.record u.getMember.address).member u.getIncarnation = false) := by
        intro hm
        obtain ⟨p, hp⟩ := Option.isSome_iff_exists.mp hm
        rw [getMemberLocalIncarnation_eq, Record.localIncarnation, hp]
        simp
      simp only [hself, ne_eq, not_false_iff, true_imp_iff, true_and, Option.some.injEq]
      rw [not_iff_not]
      refine and_congr_right fun _ => and_congr_right fun _ => and_congr_right fun hm => ?_
      exact (hlt hm).symm

/-- A ping list marks no suspected node exactly when it has the flag of none set in an entry that
is taken. -/
lemma stopped_effect_pull {s : Node} (h : ∀ a, a ≠ s.self.address → (s.record a).Stopped)
    (request : PullRequestMessage) :
    (∀ a, a ≠ s.self.address → (s.effect (.pull request) a (s.record a)).Stopped)
      ↔ s.StartsNoSuspect (.pull request) := by
  rw [StartsNoSuspect]
  by_cases ht : request.getType = .ping
  · have hentry : ∀ p ∈ request.getMembersWithIncarnation.entries,
        p.1.address ≠ s.self.address →
          ((s.effect (.pull request) p.1.address (s.record p.1.address)).Stopped
            ↔ (s.ifBelongsToSuspects p.1 = true →
              request.getMembersWithActorSystem.get? p.1.address = some true →
                ∃ saved ∈ s.members.get? p.1.address, p.2 ≤ saved)) := by
      intro p hp hne
      have hfind := OrderedMap.find?_of_mem_entries hp
      simp only [effect, if_pos ht, hfind, Record.stopped_mergeMember (h _ hne),
        ifBelongsToSuspects_eq, not_and]
      refine imp_congr_right fun _ => imp_congr_right fun _ => ?_
      rw [record, OrderedMap.get?]
      cases s.members.find? p.1.address <;> simp
    constructor
    · intro hall _ p hp hsus
      exact (hentry p hp hsus.1).mp (hall _ hsus.1) hsus.2
    · intro hall a ha
      cases hf : request.getMembersWithIncarnation.find? a with
      | none => simpa [effect, ht, hf] using h a ha
      | some p =>
          have hkey := OrderedMap.key_of_find? hf
          subst hkey
          have hp := List.mem_of_find?_eq_some hf
          exact (hentry p hp ha).mpr fun hs => hall ht p hp ⟨ha, hs⟩
  · refine iff_of_true (fun a ha => ?_) fun hping => absurd hping ht
    simpa [effect, ht] using h a ha

/-- A full state marks no suspected node exactly when its last entry about none does. -/
lemma stopped_effect_fullState {s : Node} (h : ∀ a, a ≠ s.self.address → (s.record a).Stopped)
    (message : FullStateMessage) :
    (∀ a, a ≠ s.self.address → (s.effect (.fullState message) a (s.record a)).Stopped)
      ↔ s.StartsNoSuspect (.fullState message) := by
  rw [StartsNoSuspect]
  by_cases hok : message.isSuccess = true
  · have hentry : ∀ a, a ≠ s.self.address →
        ((s.effect (.fullState message) a (s.record a)).Stopped
          ↔ ((s.record a).suspect.isSome = true →
            ∀ last ∈ (message.getMembersWithStatus.filter fun m' =>
              m'.member.address = a).getLast?, last.status ≠ .actorSystemUp)) := by
      intro a ha
      simp only [effect, if_pos hok, Record.stopped_updateStatuses (h a ha), not_and,
        not_exists]
    constructor
    · intro hall _ m _ hsus
      rw [SuspectsOther, ifBelongsToSuspects_eq] at hsus
      exact (hentry _ hsus.1).mp (hall _ hsus.1) hsus.2
    · intro hall a ha
      refine (hentry a ha).mpr fun hs last hlast => ?_
      obtain ⟨hmem, haddr⟩ := List.mem_filter.mp (List.mem_of_getLast? hlast)
      obtain rfl := of_decide_eq_true haddr
      refine hall hok last hmem ⟨ha, ?_⟩ last hlast
      rw [ifBelongsToSuspects_eq]
      exact hs
  · refine iff_of_true (fun a ha => ?_) fun hsuccess => absurd hsuccess hok
    simpa [effect, hok] using h a ha

/-- One event leaves no suspected node marked exactly when it marks none. -/
lemma suspectsStopped_step {s : Node} (hs : s.SuspectsStopped) (e : Event) :
    (s.step e).SuspectsStopped ↔ s.StartsNoSuspect e := by
  have h := suspectsStopped_iff.mp hs
  simp only [suspectsStopped_iff, record_step, self_step]
  cases e with
  | gossip u => exact stopped_effect_gossip h u
  | pull request => exact stopped_effect_pull h request
  | fullState message => exact stopped_effect_fullState h message
  | push message => exact iff_of_true (fun a ha => (h a ha).judge _ a) trivial
  | pullResult index ok => exact iff_of_true (fun a ha => (h a ha).judge _ a) trivial
  | setSelfActorSystemUp =>
      refine iff_of_true (fun a ha => ?_) trivial
      rw [effect, if_neg ha]
      exact h a ha
  | notifyActorSystemDown =>
      refine iff_of_true (fun a ha => ?_) trivial
      rw [effect, if_neg ha]
      exact h a ha
  | ping _ | sendSelfActorSystemUpGossip | notifyLeave => exact iff_of_true h trivial

/-- Throughout a run every other node marked with a running actor system is in `members_`, and
none of them is suspected exactly when no event marks a suspected one. -/
theorem runningFlag_always {s₀ : Node} (h : Started s₀) (es : List Event) :
    Run.Always step RunningRecorded s₀ es
      ∧ (Run.Always step SuspectsStopped s₀ es ↔ Run.Each step StartsNoSuspect s₀ es) := by
  have hrecorded : s₀.RunningRecorded := runningRecorded_iff.mpr fun a _ =>
    Record.runsRecorded_of_not_running (h.not_running a)
  have hstopped : s₀.SuspectsStopped := suspectsStopped_iff.mpr fun a _ =>
    Record.stopped_of_not_running (h.not_running a)
  constructor
  · exact Run.always_of_inv (P := RunningRecorded) (fun _ e hs => runningRecorded_step hs e)
      hrecorded es
  · exact Run.always_iff_each_of_iff (P := SuspectsStopped)
      (fun _ e hs => suspectsStopped_step hs e) hstopped es

/-- A second node is announced, starts its actor system, is suspected and recovers. -/
theorem runningFlag_always_nodeA :
    Run.Always step RunningRecorded (start nodeA)
        [.gossip (UpdateMessage.initAsUpMessage nodeB 1),
          .gossip (UpdateMessage.initAsActorSystemUpMessage nodeB 2),
          .gossip (UpdateMessage.initAsSuspectMessage nodeB 2),
          .gossip (UpdateMessage.initAsRecoveryMessage nodeB 2)]
      ∧ Run.Always step SuspectsStopped (start nodeA)
        [.gossip (UpdateMessage.initAsUpMessage nodeB 1),
          .gossip (UpdateMessage.initAsActorSystemUpMessage nodeB 2),
          .gossip (UpdateMessage.initAsSuspectMessage nodeB 2),
          .gossip (UpdateMessage.initAsRecoveryMessage nodeB 2)] :=
  (runningFlag_always (started_start nodeA rfl) _).imp id fun h => h.mpr (by decide)

/-- A suspected node that is announced at a later incarnation, and then with a running actor
system, is marked while it is still suspected. -/
theorem runningFlag_suspected :
    Started (start nodeA)
      ∧ ¬Run.Always step SuspectsStopped (start nodeA)
          [.gossip (UpdateMessage.initAsUpMessage nodeB 1),
            .gossip (UpdateMessage.initAsSuspectMessage nodeB 1),
            .gossip (UpdateMessage.initAsUpMessage nodeB 2),
            .gossip (UpdateMessage.initAsActorSystemUpMessage nodeB 3)] := by
  refine ⟨started_start nodeA rfl, fun h => ?_⟩
  exact h.last nodeB (by decide) (by decide) (by decide)

end Node

end Cdcf
