import Cdcf.Membership.Commute

/-!
Gossip that arrives twice, and gossip that arrives in another order.

Every update is sent several times and over several ways.  `HandleGossip` reaches its fixed point at
the first copy, in whatever state the tables are, and it acts on the address of the update only.

* `Record.gossip_gossip`: an update handled twice in a row leaves the record of its member as one
  copy does, one case for each kind.
* `handleGossip_twice`: the same for the tables.
* `handleGossip_independent`: updates about different members leave each other alone.
-/

namespace Cdcf

/-! ### One address -/

namespace Record

variable {κ : Type*} (uid : κ → String)

/-- A slot raised to an incarnation has reached it. -/
lemma covers_raise_self (k : κ) (i : UInt32) (o : Option (κ × Int32)) :
    covers (raise k i o) i = true := by
  rw [raise]
  split
  · next h => exact h
  · rw [covers_put, decide_eq_true_eq]
    exact UInt32.le_refl i

lemma raise_raise (k : κ) (i : UInt32) (o : Option (κ × Int32)) :
    raise k i (raise k i o) = raise k i o :=
  raise_of_covers (covers_raise_self k i o)

lemma up_up (k : κ) (i : UInt32) (r : Record κ) : (r.up k i).up k i = r.up k i := by
  simp only [up_eq]
  cases h : covers r.suspect i <;> simp [h, raise_raise]

lemma down_down (k : κ) (r : Record κ) : (r.down k).down k = r.down k := by
  rw [down, isKnown_down]
  rfl

/-- The first Suspect that is accepted leaves a suspicion at its incarnation or a later one. -/
lemma gossip_suspect_suspect (isSelf : Bool) (k : κ) (i : UInt32) (r : Record κ) :
    (r.gossip uid isSelf .suspect k i).gossip uid isSelf .suspect k i
      = r.gossip uid isSelf .suspect k i := by
  have hreached : ∀ r' : Record κ, covers r'.suspect i = true →
      r'.gossip uid isSelf .suspect k i = r' := by
    intro r' h
    have hsome : r'.suspect.isSome = true := by
      cases hs : r'.suspect with
      | none => simp [hs] at h
      | some p => rfl
    rw [gossip, if_pos hsome, if_pos h]
  cases hs : r.suspect with
  | some q =>
      have hraise : r.gossip uid isSelf .suspect k i = { r with suspect := raise k i r.suspect } :=
        gossip_suspect_of_suspect uid (by rw [hs]; rfl)
      rw [hraise]
      exact hreached _ (covers_raise_self k i r.suspect)
  | none =>
      cases hm : r.member with
      | none => simp [gossip, hs, hm]
      | some p =>
          have hfirst : r.gossip uid isSelf .suspect k i
              = if p.2.toUInt32 ≤ i then ⟨none, some (k, i.toInt32), put k false r.actorSystem⟩
                else r := gossip_suspect_of_member uid hs hm
          rw [hfirst]
          split_ifs with hi
          · exact hreached _ (by simp)
          · rw [hfirst, if_neg hi]

lemma gossip_recovery_recovery (isSelf : Bool) (k : κ) (i : UInt32) (r : Record κ) :
    (r.gossip uid isSelf .recovery k i).gossip uid isSelf .recovery k i
      = r.gossip uid isSelf .recovery k i := by
  have hgossip : ∀ r' : Record κ, r'.gossip uid isSelf .recovery k i
      = if within r'.suspect i then r'.recover k else r' := fun _ => rfl
  rw [hgossip r]
  split_ifs with h
  · rw [hgossip, if_neg (by simp [recover])]
  · rw [hgossip, if_neg h]

/-- News of an actor system that are taken leave the member at their incarnation. -/
lemma mergeActorSystem_mergeActorSystem (up : Bool) (k : κ) (i : UInt32) (r : Record κ) :
    (r.mergeActorSystem up k i).mergeActorSystem up k i = r.mergeActorSystem up k i := by
  cases hm : r.member.isSome with
  | false =>
      rw [Option.isSome_eq_false_iff, Option.isNone_iff_eq_none] at hm
      simp only [mergeActorSystem_of_none hm]
  | true =>
      rw [mergeActorSystem_of_some hm]
      split_ifs with hi
      · rw [mergeActorSystem_of_some hm, if_pos hi]
      · rw [mergeActorSystem_of_some (isSome_put _ _ _), if_pos (by simp [covers_put])]

/-- An update handled twice in a row leaves what one copy leaves. -/
theorem gossip_gossip (isSelf : Bool) (kind : MemberStatus) (k : κ) (i : UInt32) (r : Record κ) :
    (r.gossip uid isSelf kind k i).gossip uid isSelf kind k i = r.gossip uid isSelf kind k i := by
  cases kind with
  | up =>
      cases isSelf with
      | true => rfl
      | false =>
          rw [gossip_up_up, up_up]
          rfl
  | down =>
      cases isSelf with
      | true => rfl
      | false => exact down_down k r
  | suspect => exact gossip_suspect_suspect uid isSelf k i r
  | recovery => exact gossip_recovery_recovery uid isSelf k i r
  | actorSystemDown => exact mergeActorSystem_mergeActorSystem false k i r
  | actorSystemUp => exact mergeActorSystem_mergeActorSystem true k i r

end Record

/-! ### The tables of a node -/

namespace Node

/-- `members_`, `suspects_` and `member_actor_system_`. -/
def tables (s : Node) : MemberMap Int32 × MemberMap Int32 × MemberMap Bool :=
  (s.members, s.suspects, s.memberActorSystem)

/-- Nodes that hold the same about every address have the same tables. -/
lemma tables_ext {s t : Node} (h : ∀ a, s.record a = t.record a) : s.tables = t.tables := by
  have hmembers : s.members = t.members :=
    OrderedMap.ext_find? fun a => congrArg Record.member (h a)
  have hsuspects : s.suspects = t.suspects :=
    OrderedMap.ext_find? fun a => congrArg Record.suspect (h a)
  have hflags : s.memberActorSystem = t.memberActorSystem :=
    OrderedMap.ext_find? fun a => congrArg Record.actorSystem (h a)
  rw [tables, tables, hmembers, hsuspects, hflags]

/-- What `HandleGossip` makes of the record of the member of an update. -/
lemma record_handleGossip_self (s : Node) (u : UpdateMessage) :
    (s.handleGossip u).record u.getMember.address
      = match u.kind? with
        | some kind =>
            (s.record u.getMember.address).gossip Member.uid
              (decide (u.getMember.address = s.self.address)) kind u.getMember u.getIncarnation
        | none => s.record u.getMember.address :=
  (record_handleGossip s u u.getMember.address).trans (if_pos rfl)

/-- `HandleGossip` leaves the records of all other members alone. -/
lemma record_handleGossip_of_ne (s : Node) {u : UpdateMessage} {a : Address}
    (h : u.getMember.address ≠ a) : (s.handleGossip u).record a = s.record a := by
  rw [record_handleGossip, if_neg h]

/-- **Duplicate gossip is harmless**: an update handled twice in a row leaves the tables as one copy
does, whatever its kind and whatever the tables hold. -/
theorem handleGossip_twice (s : Node) (u : UpdateMessage) :
    ((s.handleGossip u).handleGossip u).tables = (s.handleGossip u).tables := by
  refine tables_ext fun a => ?_
  by_cases h : u.getMember.address = a
  · subst h
    rw [record_handleGossip_self, self_handleGossip, record_handleGossip_self]
    cases u.kind? with
    | none => rfl
    | some kind => exact Record.gossip_gossip Member.uid _ kind u.getMember u.getIncarnation _
  · rw [record_handleGossip_of_ne _ h]

/-- **Gossip about different members is independent**: an update changes no entry of another member
and nothing of the node itself, and two updates about different members leave the same tables in
either order. -/
theorem handleGossip_independent (s : Node) (u : UpdateMessage) :
    (∀ m : Member, m.address ≠ u.getMember.address →
        (s.handleGossip u).members.find? m.address = s.members.find? m.address
          ∧ (s.handleGossip u).suspects.find? m.address = s.suspects.find? m.address
          ∧ (s.handleGossip u).memberActorSystem.find? m.address
            = s.memberActorSystem.find? m.address)
      ∧ (s.handleGossip u).self = s.self
      ∧ (s.handleGossip u).incarnation = s.incarnation
      ∧ (s.handleGossip u).isSelfActorSystemUp = s.isSelfActorSystemUp
      ∧ ∀ v : UpdateMessage, v.getMember.address ≠ u.getMember.address →
          ((s.handleGossip u).handleGossip v).tables
            = ((s.handleGossip v).handleGossip u).tables := by
  have hown := own_handleGossip s u
  refine ⟨fun m hm => ?_, congrArg Own.self hown, congrArg Own.incarnation hown,
    congrArg Own.isSelfActorSystemUp hown, fun v hv => tables_ext fun a => ?_⟩
  · have hrec := record_handleGossip_of_ne s hm.symm
    exact ⟨congrArg Record.member hrec, congrArg Record.suspect hrec,
      congrArg Record.actorSystem hrec⟩
  · by_cases hu : u.getMember.address = a
    · -- the update `v` is not about this address, before or after `u`
      subst hu
      rw [record_handleGossip_of_ne _ hv, record_handleGossip_self, record_handleGossip_self,
        record_handleGossip_of_ne _ hv, self_handleGossip]
    · by_cases hva : v.getMember.address = a
      · subst hva
        rw [record_handleGossip_self, record_handleGossip_of_ne _ hu,
          record_handleGossip_of_ne _ hu, record_handleGossip_self, self_handleGossip]
      · rw [record_handleGossip_of_ne _ hva, record_handleGossip_of_ne _ hu,
          record_handleGossip_of_ne _ hu, record_handleGossip_of_ne _ hva]

end Node

end Cdcf
