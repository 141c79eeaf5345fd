import Cdcf.Membership.Step

/-!
What a ping tells the node that receives it about the node that sent it.

A ping carries the tables of its sender, so all it can say about the sender is the entry the
sender keeps about itself.  The counter that the announcements of the sender carry is another
number: `IncreaseIncarnation` does not touch `members_`, and where the two differ the ping does
not make up for lost gossip (`pingRepairs_iff`).
-/

namespace Cdcf

open Sample

namespace Record

variable {κ : Type*}

/-- A record that has no entry, or a lower one as a signed number, takes an entry of a ping
list. -/
def takes (r : Record κ) (i : Int32) : Bool :=
  match r.member with
  | some p => decide (i > p.2)
  | none => true

lemma mergeMember_eq (k : κ) (i : Int32) (up? : Option Bool) (r : Record κ) :
    r.mergeMember k i up? = if r.takes i then r.take k i up? else r := by
  rw [mergeMember.eq_def, takes]
  cases r.member <;> simp

/-- What is taken after an entry has been taken is what is above it. -/
lemma takes_take (k : κ) (i j : Int32) (up? : Option Bool) (r : Record κ) :
    (r.take k i up?).takes j = decide (i < j) := by
  obtain ⟨m, o, f⟩ := r
  rcases m with _ | ⟨k', i'⟩ <;> rfl

end Record

namespace Node

/-- The flag a node has for the actor system at an address, `false` when it has none. -/
def actorSystemUp (s : Node) (a : Address) : Bool := (s.memberActorSystem.get? a).getD false

/-- What a node has for another is up to date: its entry has reached the counter of the other,
and its flag is the flag of the other. -/
def KnowsOf (b a : Node) : Prop :=
  (∃ i ∈ b.members.get? a.self.address, a.incarnation ≤ i.toUInt32)
    ∧ b.actorSystemUp a.self.address = a.isSelfActorSystemUp

/-- The entry a node keeps about itself is news to another: the other has none, or a lower one
as a signed number. -/
def IsNewsTo (a b : Node) : Prop :=
  ∃ i ∈ a.members.get? a.self.address, ∀ j ∈ b.members.get? a.self.address, i > j

instance (b a : Node) : Decidable (b.KnowsOf a) := inferInstanceAs (Decidable (_ ∧ _))

instance (a b : Node) : Decidable (a.IsNewsTo b) :=
  inferInstanceAs (Decidable (∃ _ ∈ _, _))

/-- After a ping, the entry of a member of the sender at the receiver is the one of the sender, with
its flag and without its uid, when that is news, and what it was when it is not. -/
lemma record_step_pingRequest (a b : Node) (addr : Address) :
    (b.step (.pull a.pingRequest)).record addr
      = match a.members.find? addr with
        | some p =>
            (b.record addr).mergeMember { p.1 with uid := "" } p.2 (some (a.actorSystemUp addr))
        | none => b.record addr := by
  have htype : a.pingRequest.getType = .ping := rfl
  rw [record_step, effect, if_pos htype, pingRequest,
    PullRequestMessage.find?_getMembersWithIncarnation,
    PullRequestMessage.get?_getMembersWithActorSystem]
  cases a.members.find? addr <;> rfl

lemma isNewsTo_iff {a b : Node} {p : Member × Int32}
    (hp : a.members.find? a.self.address = some p) :
    a.IsNewsTo b ↔ (b.record a.self.address).takes p.2 = true := by
  rw [IsNewsTo, OrderedMap.get?, OrderedMap.get?, hp, Record.takes, record]
  cases b.members.find? a.self.address <;> simp

/-- A ping makes up for whatever gossip of its sender was lost exactly when what the sender has
about itself is up to date and news to the receiver, or is no news to a receiver that is up to
date already. -/
theorem pingRepairs_iff (a b : Node) :
    (b.step (.pull a.pingRequest)).KnowsOf a
      ↔ a.IsNewsTo b ∧ a.KnowsOf a ∨ ¬a.IsNewsTo b ∧ b.KnowsOf a := by
  have hknows : ∀ c : Node, c.KnowsOf a
      ↔ (∃ i ∈ (c.record a.self.address).member.map Prod.snd, a.incarnation ≤ i.toUInt32)
        ∧ ((c.record a.self.address).actorSystem.map Prod.snd).getD false
          = a.isSelfActorSystemUp := fun _ => Iff.rfl
  rw [hknows, record_step_pingRequest]
  cases hp : a.members.find? a.self.address with
  | none =>
      have hno : ¬a.IsNewsTo b := by
        rintro ⟨i, hi, -⟩
        rw [OrderedMap.get?, hp] at hi
        simp at hi
      simp [hno, hknows]
  | some p =>
      dsimp only
      rw [isNewsTo_iff hp, Record.mergeMember_eq]
      cases (b.record a.self.address).takes p.2 with
      | false => simp [hknows]
      | true => simp [hknows, Record.take, hp, actorSystemUp, OrderedMap.get?, record]

/-- A node that has joined through a seed has counted one announcement, and its entry for itself
is still zero: its ping tells the seed of the entry, not of the counter. -/
theorem pingRepairs_fails :
    ∃ a b, Reachable a ∧ Reachable b ∧ b.ifBelongsToSuspects a.self = false
      ∧ ¬(b.step (.pull a.pingRequest)).KnowsOf a :=
  ⟨(start nodeA).step (.fullState (start nodeB).fullStateResponse), start nodeB,
    ⟨start nodeA, [.fullState (start nodeB).fullStateResponse], started_start nodeA rfl, rfl⟩,
    ⟨start nodeB, [], started_start nodeB rfl, rfl⟩, by decide, by decide⟩

end Node

end Cdcf
