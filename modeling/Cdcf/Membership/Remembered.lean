import Cdcf.Membership.Provenance

/-!
How a node comes to forget a member.

`Suspect` moves a member from one table to the other and `RecoverySuspect` moves it back.
`EraseExpiredMember` takes it out of both, but the Up branch of `HandleGossip` goes on to enter it
again.  What is left is `MergeDownUpdate`, and a Down update is written by `NotifyLeave` only, by
the node it is about.

* `isKnown_effect`: no event but a Down update makes a node forget a member.
* `Network.Staying`: the invariant that no Down update about an address is under way.
* `left_of_forgotten`: over a run, whoever is forgotten has left.
* `inhabited_always`: over a run, whoever is known is a node of the network.
-/

namespace Cdcf

open Sample

/-! ### One event -/

namespace Record

variable {κ : Type*} {uid : κ → String}

lemma isSome_of_covers {o : Option (κ × Int32)} {i : UInt32} (h : covers o i = true) :
    o.isSome = true := by
  cases o with
  | none => exact absurd h (by simp)
  | some p => rfl

/-- Past the guards of the Up branch the member is there, and where they stop it is known. -/
lemma isKnown_up (k : κ) (i : UInt32) (r : Record κ) : (r.up k i).isKnown = true := by
  rw [up]
  split
  · next hcovered =>
      rcases Bool.or_eq_true_iff.mp hcovered with h | h
      · simp [isKnown, isSome_of_covers h]
      · simp [isKnown, isSome_of_covers h]
  · simp [isKnown]

lemma isKnown_suspectAt {r : Record κ} (h : r.isKnown = true) (k : κ) (i : UInt32) :
    (r.suspectAt k i).isKnown = true := by
  rw [suspectAt]
  split
  · simp [isKnown]
  · exact h

lemma isKnown_recover (k : κ) (r : Record κ) : (r.recover k).isKnown = true := by
  simp [isKnown, recover]

lemma isKnown_mergeActorSystem {r : Record κ} (h : r.isKnown = true) (up : Bool) (k : κ)
    (i : UInt32) : (r.mergeActorSystem up k i).isKnown = true := by
  rw [mergeActorSystem]
  split
  · simp [isKnown]
  · exact h

/-- Gossip of another kind than Down leaves a known member known. -/
lemma isKnown_gossip {r : Record κ} (h : r.isKnown = true) {kind : MemberStatus}
    (hkind : kind ≠ .down) (isSelf : Bool) (k : κ) (i : UInt32) :
    (r.gossip uid isSelf kind k i).isKnown = true := by
  cases kind with
  | up =>
      rw [gossip]
      split
      · exact h
      · exact isKnown_up k i _
  | down => exact absurd rfl hkind
  | suspect =>
      rw [gossip]
      split_ifs
      · exact h
      · simp [isKnown]
      · exact isKnown_suspectAt h k i
      · exact h
  | recovery =>
      rw [gossip]
      split
      · exact isKnown_recover k r
      · exact h
  | actorSystemDown => exact isKnown_mergeActorSystem h false k i
  | actorSystemUp => exact isKnown_mergeActorSystem h true k i

/-- Who is listed in a ping is there already or taken. -/
lemma isKnown_mergeMember (r : Record κ) (k : κ) (i : Int32) (up? : Option Bool) :
    (r.mergeMember k i up?).isKnown = true := by
  rw [mergeMember.eq_def]
  split
  · next p hp =>
      split
      · simp [isKnown, take]
      · simp [isKnown, hp]
  · simp [isKnown, take]

lemma isKnown_updateStatus (r : Record κ) (k : κ) (up : Bool) :
    (r.updateStatus k up).isKnown = true := by
  cases hm : r.member.isSome <;> simp [isKnown, updateStatus, hm]

/-- The entries of a full state about a member leave it known. -/
lemma isKnown_updateStatuses {r : Record Member} (h : r.isKnown = true)
    (l : List MemberWithStatus) :
    (l.foldl (fun r m => r.updateStatus m.member (m.status == .actorSystemUp)) r).isKnown
      = true := by
  induction l generalizing r with
  | nil => exact h
  | cons m l ih => exact ih (isKnown_updateStatus r m.member _)

lemma isKnown_judge {r : Record Member} (h : r.isKnown = true) (v : Option (Member × Bool))
    (a : Address) : (r.judge v a).isKnown = true := by
  cases v with
  | none => exact h
  | some v =>
      rw [judge]
      split_ifs
      · exact isKnown_recover v.1 r
      · exact isKnown_suspectAt h v.1 _
      · exact h

end Record

/-- If the update is of the kind, it is about one of these. -/
def UpdateMessage.About (kind : MemberStatus) (named : Address → Prop) (u : UpdateMessage) : Prop :=
  u.kind? = some kind → named u.getMember.address

lemma UpdateMessage.about_setUpdate {kind status : MemberStatus} {named : Address → Prop}
    {m : Member} (h : status = kind → named m.address) (i : UInt32) :
    (UpdateMessage.setUpdate status m i).About kind named := by
  intro hk
  rw [UpdateMessage.kind?_setUpdate, Option.some_inj] at hk
  rw [UpdateMessage.getMember_setUpdate]
  exact h hk

/-- What is of another kind. -/
lemma UpdateMessage.about_of_ne {kind status : MemberStatus} (h : status ≠ kind)
    (named : Address → Prop) (m : Member) (i : UInt32) :
    (UpdateMessage.setUpdate status m i).About kind named :=
  about_setUpdate (fun hk => absurd hk h) i

namespace Node

/-- No event but a Down update makes a node forget a member. -/
lemma isKnown_effect {s : Node} {e : Event} {a : Address} {r : Record Member}
    (h : r.isKnown = true) (he : ∀ u, e = .gossip u → u.About .down (· ≠ a)) :
    (s.effect e a r).isKnown = true := by
  cases e with
  | gossip u =>
      rw [effect]
      split
      · next hu =>
          cases hk : u.kind? with
          | none => exact h
          | some kind =>
              refine Record.isKnown_gossip h ?_ _ _ _
              rintro rfl
              exact he u rfl hk hu
      · exact h
  | pull request =>
      rw [effect]
      split
      · cases request.getMembersWithIncarnation.find? a with
        | none => exact h
        | some p => exact Record.isKnown_mergeMember _ p.1 p.2 _
      · exact h
  | push message => exact Record.isKnown_judge h _ a
  | fullState message =>
      rw [effect]
      split
      · exact Record.isKnown_updateStatuses h _
      · exact h
  | pullResult index ok => exact Record.isKnown_judge h _ a
  | setSelfActorSystemUp =>
      rw [effect]
      split <;> exact h
  | notifyActorSystemDown =>
      rw [effect]
      split <;> exact h
  | ping _ | sendSelfActorSystemUpGossip | notifyLeave => exact h

/-- A node queues a Down update only when it has received it. -/
lemma queued_about_down_step {s : Node} {a : Address}
    (h : s.Queued (UpdateMessage.About .down (· ≠ a)))
    {e : Event} (he : ∀ u, e = .gossip u → u.About .down (· ≠ a)) :
    (s.step e).Queued (UpdateMessage.About .down (· ≠ a)) := by
  refine h.step (fun m => ⟨?_, ?_⟩) e ?_
  · exact UpdateMessage.about_of_ne (by decide) _ m _
  · exact UpdateMessage.about_of_ne (by decide) _ m _
  · cases e with
    | gossip u => exact ⟨he u rfl, UpdateMessage.about_of_ne (by decide) _ _ _⟩
    | fullState message =>
        exact fun _ => ⟨UpdateMessage.about_of_ne (by decide) _ _ _,
          fun _ => UpdateMessage.about_of_ne (by decide) _ _ _⟩
    | sendSelfActorSystemUpGossip => exact UpdateMessage.about_of_ne (by decide) _ _ _
    | notifyActorSystemDown => exact UpdateMessage.about_of_ne (by decide) _ _ _
    | _ => trivial

end Node

/-! ### The network -/

namespace Network

variable {ι : Type*}

/-- No Down update about the address waits in a queue or is on its way. -/
structure Staying (a : Address) (net : Network ι) : Prop where
  queues : ∀ n, (net.nodes n).Queued (UpdateMessage.About .down (· ≠ a))
  datagrams : ∀ u ∈ net.datagrams, u.About .down (· ≠ a)

/-- The action is no `NotifyLeave` of a node at the address. -/
def Stays (a : Address) (net : Network ι) : Action ι → Prop
  | .notifyLeave i => net.address i ≠ a
  | _ => True

/-- The node knows somebody at the address. -/
def Knows (net : Network ι) (n : ι) (a : Address) : Prop :=
  ((net.nodes n).record a).isKnown = true

/-- The message of an event is no Down update about the address, and a node at the address does not
leave. -/
def EventStays (a : Address) (net : Network ι) (i : ι) (e : Event) : Prop :=
  (∀ u, e = .gossip u → u.About .down (· ≠ a)) ∧ (e = .notifyLeave → net.address i ≠ a)

/-- An event that happens in an action of that kind. -/
lemma Staying.eventStays {a : Address} {net : Network ι} (h : net.Staying a) {action : Action ι}
    {i : ι} {e : Event} (hocc : net.Occurs action i e) (hs : net.Stays a action) :
    net.EventStays a i e := by
  cases hocc with
  | gossip hsent =>
      refine ⟨fun u hu => ?_, fun he => absurd he (by simp)⟩
      rw [Event.gossip.injEq] at hu
      exact hu ▸ h.datagrams _ (List.mem_of_getElem? hsent)
  | notifyLeave i => exact ⟨fun _ hu => absurd hu (by simp), fun _ => hs⟩
  | _ => exact ⟨fun _ hu => absurd hu (by simp), fun he => absurd he (by simp)⟩

lemma Started.staying {net : Network ι} (h : net.Started) (a : Address) : net.Staying a where
  queues := by
    intro n entry hentry
    rw [(h.nodes n).fresh.gossipQueue] at hentry
    exact absurd hentry List.not_mem_nil
  datagrams := by simp [h.datagrams]

variable [DecidableEq ι]

lemma Staying.handle {a : Address} {net : Network ι} (h : net.Staying a) {i : ι} {e : Event}
    (he : net.EventStays a i e) : (net.handle i e).Staying a where
  queues := by
    intro n
    rw [nodes_handle]
    split
    · exact Node.queued_about_down_step (h.queues i) he.1
    · exact h.queues n
  datagrams := by
    intro u hu
    rcases List.mem_append.mp hu with hu | hu
    · exact h.datagrams u hu
    · cases e with
      | notifyLeave =>
          intro _ ha
          rw [Node.sentDatagrams, Node.leaveMessage] at hu
          split_ifs at hu
          · rw [List.mem_singleton.mp hu, UpdateMessage.initAsDownMessage,
              UpdateMessage.getMember_setUpdate] at ha
            exact he.2 rfl ha
          · exact absurd hu List.not_mem_nil
          · exact absurd hu List.not_mem_nil
      | _ => exact absurd hu List.not_mem_nil

/-- An event keeps what is known. -/
lemma Knows.handle {a : Address} {net : Network ι} {n : ι} (h : net.Knows n a) {i : ι} {e : Event}
    (he : net.EventStays a i e) : (net.handle i e).Knows n a := by
  rw [Knows, nodes_handle]
  split
  · next hn =>
      subst hn
      rw [Node.record_step]
      exact Node.isKnown_effect h he.1
  · exact h

lemma Staying.act {a : Address} {net : Network ι} (h : net.Staying a) {action : Action ι}
    (hs : net.Stays a action) : (net.act action).Staying a := by
  rcases net.act_cases action with
    ⟨i, e, hocc, hact⟩ | ⟨i, index, entry, -, hentry, hact⟩ | ⟨i, -, hact⟩ | hact
  · exact hact ▸ h.handle (h.eventStays hocc hs)
  · refine hact ▸ ⟨h.queues, fun u hu => ?_⟩
    rcases List.mem_append.mp hu with hu | hu
    · exact h.datagrams u hu
    · exact List.mem_singleton.mp hu ▸ h.queues i entry (List.mem_of_getElem? hentry)
  · exact hact ▸ ⟨h.queues, h.datagrams⟩
  · exact hact.symm ▸ h

lemma Knows.act {a : Address} {net : Network ι} {n : ι} (h : net.Knows n a) (hst : net.Staying a)
    {action : Action ι} (hs : net.Stays a action) : (net.act action).Knows n a := by
  rcases net.act_cases action with
    ⟨i, e, hocc, hact⟩ | ⟨i, index, entry, -, -, hact⟩ | ⟨i, -, hact⟩ | hact
  · exact hact ▸ h.handle (hst.eventStays hocc hs)
  · exact hact ▸ h
  · exact hact ▸ h
  · exact hact.symm ▸ h

lemma address_act (net : Network ι) (action : Action ι) (m : ι) :
    (net.act action).address m = net.address m := by
  rcases net.act_cases action with
    ⟨i, e, -, hact⟩ | ⟨i, index, entry, -, -, hact⟩ | ⟨i, -, hact⟩ | hact
  · rw [hact, address_handle]
  · rw [hact]
    rfl
  · rw [hact]
    rfl
  · rw [hact]

/-- The addresses stay the same over a run. -/
lemma address_run (net : Network ι) (actions : List (Action ι)) (m : ι) :
    (Run.run act net actions).address m = net.address m :=
  Run.view_run (fun net => net.address m) (fun net action => net.address_act action m) net actions

/-- A run in which nobody at the address leaves. -/
lemma each_stays {a : Address} {net : Network ι} {actions : List (Action ι)}
    (h : ∀ i, net.address i = a → Action.notifyLeave i ∉ actions) :
    Run.Each act (Stays a) net actions := by
  induction actions generalizing net with
  | nil => trivial
  | cons action actions ih =>
      refine ⟨?_, ih fun i hi hmem => ?_⟩
      · cases action with
        | notifyLeave i => exact fun hi => h i hi List.mem_cons_self
        | _ => trivial
      · exact h i ((net.address_act action i).symm.trans hi) (List.mem_cons_of_mem _ hmem)

/-- In such a run no Down update about the address comes up. -/
lemma staying_run {a : Address} {net : Network ι} (h : net.Staying a) {actions : List (Action ι)}
    (hs : Run.Each act (Stays a) net actions) : (Run.run act net actions).Staying a :=
  (Run.always_of_each (P := Staying a) (fun _ _ hst hs => hst.act hs) h hs).last

/-- And what is known of the address stays known. -/
lemma knows_run {a : Address} {net : Network ι} {n : ι} (h : net.Knows n a)
    (hst : net.Staying a) {actions : List (Action ι)} (hs : Run.Each act (Stays a) net actions) :
    (Run.run act net actions).Knows n a := by
  have hkeep : Run.Always act (fun net => net.Staying a ∧ net.Knows n a) net actions :=
    Run.always_of_each (C := Stays a) (fun _ _ hP hs => ⟨hP.1.act hs, hP.2.act hP.1 hs⟩) ⟨hst, h⟩ hs
  exact hkeep.last.2

/-- Nobody is forgotten who has not left: whatever the network does and whatever is suspected, a
member that a node knew and does not know any more has called `NotifyLeave`. -/
theorem left_of_forgotten {net₀ : Network ι} (h : net₀.Started) {before after : List (Action ι)}
    {n : ι} {a : Address} (hknown : (Run.run act net₀ before).Knows n a)
    (hforgotten : ¬(Run.run act net₀ (before ++ after)).Knows n a) :
    ∃ i, net₀.address i = a ∧ Action.notifyLeave i ∈ before ++ after := by
  by_contra hnone
  have hstay : ∀ i, net₀.address i = a → Action.notifyLeave i ∉ before ++ after :=
    fun i hi hmem => hnone ⟨i, hi, hmem⟩
  have hbefore : Run.Each act (Stays a) net₀ before :=
    each_stays fun i hi hmem => hstay i hi (List.mem_append_left _ hmem)
  have hafter : Run.Each act (Stays a) (Run.run act net₀ before) after :=
    each_stays fun i hi hmem =>
      hstay i ((net₀.address_run before i).symm.trans hi) (List.mem_append_right _ hmem)
  refine hforgotten ?_
  rw [Run.run_append]
  exact knows_run hknown (staying_run (h.staying a) hbefore) hafter

lemma started_twoNodes : twoNodes.Started where
  nodes := fun b => ⟨twoConfigs b, by cases b <;> rfl⟩
  address := show ∀ a b, twoNodes.address a = twoNodes.address b → a = b by decide
  datagrams := rfl
  pullRequests := rfl
  fullStates := rfl
  pushes := rfl
  calledUp := rfl

/-- The second of two nodes joins, is known to the first, leaves and is forgotten. -/
theorem left_of_forgotten_two :
    ∃ i, twoNodes.address i = nodeB.address ∧ Action.notifyLeave i ∈
      ([.pullFromSeed true, .pull false 0, .fullState true 0, .disseminate true 0, .gossip false 0]
        : List (Action Bool)) ++ [.notifyLeave true, .gossip false 1] :=
  left_of_forgotten started_twoNodes (n := false) (by unfold Knows; decide)
    (by unfold Knows; decide)

end Network

/-! ### Who is known -/

/-- The message of an event enters the address into a table. -/
def Event.Enters (a : Address) : Event → Prop
  | .gossip u => u.kind? = some .up ∧ u.getMember.address = a
  | .pull request => ∃ u ∈ request.states, u.getMember.address = a
  | .fullState message => ∃ m ∈ message.getMembersWithStatus, m.member.address = a
  | _ => False

namespace Record

variable {κ : Type*} {uid : κ → String}

lemma isKnown_of_suspectAt {r : Record κ} {k : κ} {i : UInt32}
    (h : (r.suspectAt k i).isKnown = true) : r.isKnown = true := by
  rw [suspectAt] at h
  split at h
  · next hm => simp [isKnown, hm]
  · exact h

lemma isKnown_of_mergeActorSystem {r : Record κ} {up : Bool} {k : κ} {i : UInt32}
    (h : (r.mergeActorSystem up k i).isKnown = true) : r.isKnown = true := by
  rw [mergeActorSystem] at h
  split at h
  · next hm => simp [isKnown, (Bool.and_eq_true_iff.mp hm).1]
  · exact h

/-- Only an Up update makes a member known. -/
lemma isKnown_of_gossip {r : Record κ} {isSelf : Bool} {kind : MemberStatus} {k : κ} {i : UInt32}
    (h : (r.gossip uid isSelf kind k i).isKnown = true) : r.isKnown = true ∨ kind = .up := by
  cases kind with
  | up => exact Or.inr rfl
  | down =>
      rw [gossip] at h
      split at h
      · exact Or.inl h
      · rw [down] at h
        split at h
        · exact absurd h (by simp [isKnown])
        · exact Or.inl h
  | suspect =>
      rw [gossip] at h
      split_ifs at h with hs
      · exact Or.inl h
      · exact Or.inl (by simp [isKnown, hs])
      · exact Or.inl (isKnown_of_suspectAt h)
      · exact Or.inl h
  | recovery =>
      rw [gossip] at h
      split at h
      · next hw =>
          cases hs : r.suspect with
          | none => simp [hs] at hw
          | some p => exact Or.inl (by simp [isKnown, hs])
      · exact Or.inl h
  | actorSystemDown => exact Or.inl (isKnown_of_mergeActorSystem h)
  | actorSystemUp => exact Or.inl (isKnown_of_mergeActorSystem h)

end Record

namespace Node

/-- Only a suspect recovers. -/
lemma suspects_of_verdict {s : Node} {index : ℕ} {ok : Bool} {v : Member × Bool}
    (h : s.verdict index ok = some v) (hrecovers : v.2 = true) :
    s.ifBelongsToSuspects v.1 = true := by
  have hrelay : ∀ {t : Member} {ex : MemberMap Unit}, s.relayVerdict t ex ≠ some v := by
    intro t ex hv
    rw [relayVerdict] at hv
    split_ifs at hv
    rw [← Option.some.inj hv] at hrecovers
    exact absurd hrecovers (by simp)
  rw [verdict] at h
  split at h
  · rw [pingVerdict] at h
    split_ifs at h with hsuspects
    · rw [← Option.some.inj h]
      exact (Bool.and_eq_true_iff.mp hsuspects).2
    · exact absurd h hrelay
    · rw [← Option.some.inj h] at hrecovers
      exact absurd hrecovers (by simp)
  · split_ifs at h
    exact absurd h hrelay
  · exact absurd h (by simp)

/-- Whom the failure detector judges, the node knows. -/
lemma isKnown_of_judge_verdict {s : Node} {index : ℕ} {ok : Bool} {a : Address}
    (h : ((s.record a).judge (s.verdict index ok) a).isKnown = true) :
    (s.record a).isKnown = true := by
  cases hv : s.verdict index ok with
  | none => rwa [hv] at h
  | some v =>
      rw [hv, Record.judge] at h
      split_ifs at h with ha hrecovers
      · have hsuspects : s.ifBelongsToSuspects v.1 = true := suspects_of_verdict hv hrecovers
        rw [ifBelongsToSuspects_eq, ha] at hsuspects
        simp [Record.isKnown, hsuspects]
      · exact Record.isKnown_of_suspectAt h
      · exact h

/-- What a node knows after an event it knew, or the message of the event entered it. -/
lemma isKnown_or_enters {s : Node} {e : Event} {a : Address}
    (h : ((s.step e).record a).isKnown = true) :
    (s.record a).isKnown = true ∨ e.Enters a := by
  rw [record_step] at h
  cases e with
  | gossip u =>
      rw [effect] at h
      split_ifs at h with hu
      · cases hk : u.kind? with
        | none =>
            rw [hk] at h
            exact Or.inl h
        | some kind =>
            rw [hk] at h
            rcases Record.isKnown_of_gossip h with h | rfl
            · exact Or.inl h
            · exact Or.inr ⟨hk, hu⟩
      · exact Or.inl h
  | pull request =>
      rw [effect] at h
      split at h
      · cases hf : request.getMembersWithIncarnation.find? a with
        | none =>
            rw [hf] at h
            exact Or.inl h
        | some p =>
            obtain ⟨q, hq, hkey, -⟩ := OrderedMap.mem_of_find?_ofList hf
            obtain ⟨u, hu, rfl⟩ := List.mem_map.mp hq
            exact Or.inr ⟨u, List.mem_of_mem_filter hu, hkey⟩
      · exact Or.inl h
  | push message =>
      rw [effect, Record.judge.eq_def] at h
      split at h
      · next v recovers hv =>
          split_ifs at hv
          obtain ⟨-, rfl⟩ := Prod.mk.inj (Option.some.inj hv)
          simp only [Bool.false_eq_true, if_false] at h
          split_ifs at h
          · exact Or.inl (Record.isKnown_of_suspectAt h)
          · exact Or.inl h
      · exact Or.inl h
  | fullState message =>
      rw [effect] at h
      split at h
      · cases hl : message.getMembersWithStatus.filter fun m => m.member.address = a with
        | nil =>
            rw [hl] at h
            exact Or.inl h
        | cons m l =>
            have hm : m ∈ message.getMembersWithStatus.filter fun m => m.member.address = a := by
              rw [hl]
              exact List.mem_cons_self
            obtain ⟨hm, ha⟩ := List.mem_filter.mp hm
            exact Or.inr ⟨m, hm, of_decide_eq_true ha⟩
      · exact Or.inl h
  | pullResult index ok => exact Or.inl (isKnown_of_judge_verdict h)
  | setSelfActorSystemUp =>
      rw [effect] at h
      split at h <;> exact Or.inl h
  | notifyActorSystemDown =>
      rw [effect] at h
      split at h <;> exact Or.inl h
  | ping _ | sendSelfActorSystemUpGossip | notifyLeave => exact Or.inl h

/-- A ping lists the members of its sender. -/
lemma isKnown_of_mem_pingRequest {s : Node} {u : MemberUpdate} (h : u ∈ s.pingRequest.states) :
    (s.record u.getMember.address).isKnown = true := by
  obtain ⟨p, hp, hu⟩ := List.mem_map.mp h
  have hfind : s.members.find? p.1.address = some p := OrderedMap.find?_of_mem_entries hp
  have haddr : u.getMember.address = p.1.address := by
    rw [← hu]
    simp [MemberUpdate.getMember, Member.address]
  simp [haddr, Record.isKnown, record, hfind]

/-- So does a full state. -/
lemma isKnown_of_mem_fullStateResponse {s : Node} {m : MemberWithStatus}
    (h : m ∈ s.fullStateResponse.getMembersWithStatus) :
    (s.record m.member.address).isKnown = true := by
  obtain ⟨u, hu, hm⟩ := List.mem_map.mp h
  obtain ⟨y, hy, rfl⟩ := List.mem_map.mp hu
  obtain ⟨k, hk, rfl⟩ := List.mem_map.mp hy
  have hfind : (s.members.find? k.address).isSome = true := OrderedMap.find?_isSome_of_mem_keys hk
  have haddr : m.member.address = k.address := by
    rw [← hm]
    simp [MemberUpdate.getMember, Member.address]
  simp [haddr, Record.isKnown, record, hfind]

end Node

namespace Network

variable {ι : Type*}

/-- Whoever is known, and whoever a message can make known, is one of these. -/
structure Peopled (named : Address → Prop) (net : Network ι) : Prop where
  self : ∀ n, named (net.address n)
  tables : ∀ n a, net.Knows n a → named a
  queues : ∀ n, (net.nodes n).Queued (UpdateMessage.About .up named)
  datagrams : ∀ u ∈ net.datagrams, u.About .up named
  pullRequests : ∀ request ∈ net.pullRequests, ∀ u ∈ request.states, named u.getMember.address
  fullStates : ∀ message ∈ net.fullStates, ∀ m ∈ message.getMembersWithStatus,
    named m.member.address

variable {named : Address → Prop}

lemma Peopled.queued_step {net : Network ι} (h : net.Peopled named) {action : Action ι} {i : ι}
    {e : Event} (hocc : net.Occurs action i e) :
    ((net.nodes i).step e).Queued (UpdateMessage.About .up named) := by
  have hself : named (net.nodes i).self.address := h.self i
  refine (h.queues i).step (fun m => ⟨?_, ?_⟩) e ?_
  · exact UpdateMessage.about_of_ne (by decide) _ _ _
  · exact UpdateMessage.about_of_ne (by decide) _ _ _
  · cases hocc with
    | gossip hsent =>
        exact ⟨h.datagrams _ (List.mem_of_getElem? hsent),
          UpdateMessage.about_of_ne (by decide) _ _ _⟩
    | fullState =>
        exact fun _ => ⟨UpdateMessage.about_setUpdate (fun _ => hself) _,
          fun _ => UpdateMessage.about_of_ne (by decide) _ _ _⟩
    | sendSelfActorSystemUpGossip =>
        exact UpdateMessage.about_of_ne (by decide) _ _ _
    | notifyActorSystemDown => exact UpdateMessage.about_of_ne (by decide) _ _ _
    | _ => trivial

/-- What is delivered enters somebody of these. -/
lemma Peopled.of_enters {net : Network ι} (h : net.Peopled named) {action : Action ι} {i : ι}
    {e : Event} (hocc : net.Occurs action i e) {a : Address} (he : e.Enters a) : named a := by
  cases hocc with
  | gossip hsent =>
      obtain ⟨hk, rfl⟩ := he
      exact h.datagrams _ (List.mem_of_getElem? hsent) hk
  | pull hsent =>
      obtain ⟨u, hu, rfl⟩ := he
      exact h.pullRequests _ (List.mem_of_getElem? hsent) u hu
  | fullState hsent =>
      obtain ⟨m, hm, rfl⟩ := he
      exact h.fullStates _ (List.mem_of_getElem? hsent) m hm
  | _ => exact he.elim

/-- At the start every node knows itself only. -/
lemma Started.peopled {net : Network ι} (h : net.Started) :
    net.Peopled fun a => ∃ m, net.address m = a where
  self := fun n => ⟨n, rfl⟩
  tables := by
    intro n a hknows
    rw [Knows, (h.nodes n).record] at hknows
    by_cases ha : (net.nodes n).self.address = a
    · exact ⟨n, ha⟩
    · simp [Record.isKnown, ha] at hknows
  queues := by
    intro n entry hentry
    rw [(h.nodes n).fresh.gossipQueue] at hentry
    exact absurd hentry List.not_mem_nil
  datagrams := by simp [h.datagrams]
  pullRequests := by simp [h.pullRequests]
  fullStates := by simp [h.fullStates]

variable [DecidableEq ι]

lemma Peopled.handle {net : Network ι} (h : net.Peopled named) {action : Action ι} {i : ι}
    {e : Event} (hocc : net.Occurs action i e) : (net.handle i e).Peopled named where
  self := fun n => (address_handle net i e n).symm ▸ h.self n
  tables := by
    intro n a hknows
    rw [Knows, nodes_handle] at hknows
    split at hknows
    · rcases Node.isKnown_or_enters hknows with hbefore | he
      · exact h.tables i a hbefore
      · exact h.of_enters hocc he
    · exact h.tables n a hknows
  queues := by
    intro n
    rw [nodes_handle]
    split
    · exact h.queued_step hocc
    · exact h.queues n
  datagrams := by
    intro u hu
    rcases List.mem_append.mp hu with hu | hu
    · exact h.datagrams u hu
    · cases e with
      | notifyLeave =>
          rw [Node.sentDatagrams, Node.leaveMessage] at hu
          split_ifs at hu
          · rw [List.mem_singleton.mp hu]
            exact UpdateMessage.about_of_ne (by decide) _ _ _
          · exact absurd hu List.not_mem_nil
          · exact absurd hu List.not_mem_nil
      | _ => exact absurd hu List.not_mem_nil
  pullRequests := by
    intro request hrequest u hu
    rcases List.mem_append.mp hrequest with hrequest | hrequest
    · exact h.pullRequests request hrequest u hu
    · rcases Node.of_mem_sentRequests hrequest with rfl | hnone
      · exact h.tables i _ (Node.isKnown_of_mem_pingRequest hu)
      · rw [hnone] at hu
        exact absurd hu List.not_mem_nil
  fullStates := by
    intro message hmessage m hm
    rcases List.mem_append.mp hmessage with hmessage | hmessage
    · exact h.fullStates message hmessage m hm
    · cases e with
      | pull request =>
          rw [Node.sentFullStates] at hmessage
          split at hmessage
          · rw [List.mem_singleton.mp hmessage] at hm
            exact h.tables i _ (Node.isKnown_of_mem_fullStateResponse hm)
          · exact absurd hmessage List.not_mem_nil
      | _ => exact absurd hmessage List.not_mem_nil

lemma Peopled.act {net : Network ι} (h : net.Peopled named) (action : Action ι) :
    (net.act action).Peopled named := by
  rcases net.act_cases action with
    ⟨i, e, hocc, hact⟩ | ⟨i, index, entry, -, hentry, hact⟩ | ⟨i, -, hact⟩ | hact
  · exact hact ▸ h.handle hocc
  · refine hact ▸ { h with datagrams := fun u hu => ?_ }
    rcases List.mem_append.mp hu with hu | hu
    · exact h.datagrams u hu
    · exact List.mem_singleton.mp hu ▸ h.queues i entry (List.mem_of_getElem? hentry)
  · refine hact ▸ { h with pullRequests := fun request hrequest u hu => ?_ }
    rcases List.mem_append.mp hrequest with hrequest | hrequest
    · exact h.pullRequests request hrequest u hu
    · rw [List.mem_singleton.mp hrequest] at hu
      exact absurd hu List.not_mem_nil
  · exact hact.symm ▸ h

/-- Everybody a node knows is a node of the network. -/
def Inhabited (net : Network ι) : Prop := ∀ n a, net.Knows n a → ∃ m, net.address m = a

/-- Whoever is known after the run is a node of the network. -/
lemma inhabited_run {net₀ : Network ι} (h : net₀.Started) (actions : List (Action ι)) :
    Inhabited (Run.run act net₀ actions) := by
  intro n a hknows
  have hpeopled := (Run.always_of_inv (P := Peopled fun a => ∃ m, net₀.address m = a)
    (fun _ action hp => hp.act action) h.peopled actions).last
  obtain ⟨m, hm⟩ := hpeopled.tables n a hknows
  exact ⟨m, (net₀.address_run actions m).trans hm⟩

/-- Nobody is made up: throughout a run every entry of `members_` and `suspects_`, of every node,
is at the address of a node of the network. -/
theorem inhabited_always {net₀ : Network ι} (h : net₀.Started) (actions : List (Action ι)) :
    Run.Always act Inhabited net₀ actions :=
  Run.always_iff.mpr fun before _ _ => inhabited_run h before

/-- The second of two nodes joins through the first, which hears of it twice. -/
theorem inhabited_always_twoNodes :
    Run.Always act Inhabited twoNodes
      [.pullFromSeed true, .pull false 0, .fullState true 0, .disseminate true 0,
        .gossip false 0, .ping true 0, .pull false 1] :=
  inhabited_always started_twoNodes _

end Network

end Cdcf
