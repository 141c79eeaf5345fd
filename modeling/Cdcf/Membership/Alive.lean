import Cdcf.Membership.PingRepair

/-!
Two ways to hear that a member is alive.

The Up branch of `HandleGossip` and `MergeMembers` decide the same question.  The one looks at
`suspects_` first and compares incarnations as unsigned numbers, the other looks at `members_` only
and compares them as signed ones.

* `lt_iff_lt_iff`: where the two orders of the incarnations agree.
* `alive_iff`: on which states and incarnations the two ways leave the same.
-/

namespace Cdcf

open Sample

/-- The unsigned and the signed order agree on two numbers that are on the same side of `2 ^ 31`. -/
lemma lt_iff_lt_iff (x : Int32) (y : UInt32) :
    (x.toUInt32 < y ↔ x < y.toInt32) ↔ (x < 0 ↔ y.toInt32 < 0) := by
  have hx : x.toInt = if 2 * x.toUInt32.toNat < 2 ^ 32 then (x.toUInt32.toNat : ℤ)
      else x.toUInt32.toNat - 2 ^ 32 := BitVec.toInt_eq_toNat_cond x.toBitVec
  have hy : y.toInt32.toInt = if 2 * y.toNat < 2 ^ 32 then (y.toNat : ℤ)
      else y.toNat - 2 ^ 32 := BitVec.toInt_eq_toNat_cond y.toBitVec
  have hx_lt := x.toUInt32.toNat_lt
  have hy_lt := y.toNat_lt
  have hzero : (0 : Int32).toInt = 0 := rfl
  rw [UInt32.lt_iff_toNat_lt, Int32.lt_iff_toInt_lt, Int32.lt_iff_toInt_lt,
    Int32.lt_iff_toInt_lt, hx, hy, hzero]
  split_ifs <;> omega

namespace Record

variable {κ : Type*}

/-- Where the member is suspected at the incarnation or a later one, `members_` has it there too, as
a signed number; else `members_` has it on the same side of `2 ^ 31`, if it has it. -/
def WeighsAlike (i : UInt32) (r : Record κ) : Prop :=
  if covers r.suspect i then ∃ p ∈ r.member, i.toInt32 ≤ p.2
  else ∀ p ∈ r.member, (p.2 < 0 ↔ i.toInt32 < 0)

/-- An Up update and an entry of a ping list enter the member in the same cases exactly when they
weigh the incarnation alike. -/
lemma weighsAlike_iff {i : UInt32} {r : Record κ} :
    r.WeighsAlike i ↔ (!(covers r.suspect i || covers r.member i)) = r.takes i.toInt32 := by
  rw [WeighsAlike, takes]
  cases hs : covers r.suspect i with
  | true =>
      cases r.member with
      | none => simp
      | some p => simp
  | false =>
      cases r.member with
      | none => simp
      | some p =>
          have horder := lt_iff_lt_iff p.2 i
          rw [← UInt32.not_le] at horder
          by_cases hle : i ≤ p.2.toUInt32 <;> by_cases hlt : p.2 < i.toInt32 <;>
            simp [hle, hlt] at horder ⊢ <;>
            exact horder

/-- A slot that takes an incarnation did not have it. -/
lemma snd_ne_of_takes {i : Int32} {r : Record κ} (h : r.takes i = true) :
    r.member.map Prod.snd ≠ some i := by
  rw [takes] at h
  cases hm : r.member with
  | none => simp
  | some p =>
      rw [hm, decide_eq_true_eq] at h
      rw [Option.map_some, ne_eq, Option.some_inj]
      rintro rfl
      exact Int32.lt_irrefl h

/-- A slot that is behind an incarnation does not have it. -/
lemma snd_ne_of_not_covers {i : UInt32} {o : Option (κ × Int32)} (h : covers o i = false) :
    o.map Prod.snd ≠ some i.toInt32 := by
  cases o with
  | none => simp
  | some p =>
      rw [covers_some, decide_eq_false_iff_not] at h
      rw [Option.map_some, ne_eq, Option.some_inj]
      intro heq
      exact h (by simp [heq])

/-- The two leave the same incarnation exactly when they weigh it alike: if only one of them enters
the member, it was not there at that incarnation. -/
lemma snd_up_eq_iff (k k' : κ) (i : UInt32) (up? : Option Bool) (r : Record κ) :
    (r.up k i).member.map Prod.snd = (r.mergeMember k' i.toInt32 up?).member.map Prod.snd
      ↔ r.WeighsAlike i := by
  rw [weighsAlike_iff, up, mergeMember_eq]
  cases hc : covers r.suspect i || covers r.member i with
  | true =>
      cases ht : r.takes i.toInt32 with
      | true => simpa [take] using snd_ne_of_takes ht
      | false => simp
  | false =>
      rw [Bool.or_eq_false_iff] at hc
      cases ht : r.takes i.toInt32 with
      | true => simp [take]
      | false => simpa [eq_comm] using snd_ne_of_not_covers hc.2

end Record

/-! ### The tables of a node -/

namespace Node

/-- The membership and the incarnation of `m` are the same in both nodes, in `members_` and in
`suspects_`. -/
def AgreeAbout (m : Member) (s t : Node) : Prop :=
  s.members.get? m.address = t.members.get? m.address
    ∧ s.suspects.get? m.address = t.suspects.get? m.address

/-- A ping whose list is `m` at the incarnation `i`. -/
def pingAbout (m : Member) (i : UInt32) (flags : MemberMap Bool) : PullRequestMessage :=
  PullRequestMessage.initAsPingType (OrderedMap.empty.assign m i.toInt32) flags

/-- Where `suspects_` has `m` at the incarnation `i` or a later one, `members_` has it there too, as
a signed number; else, if `members_` has it, then on the same side of `2 ^ 31` as `i`. -/
def WeighsAlike (s : Node) (m : Member) (i : UInt32) : Prop :=
  if s.ifBelongsToSuspects m && decide (s.getSuspectLocalIncarnation m ≥ i) then
    ∃ saved ∈ s.members.get? m.address, i.toInt32 ≤ saved
  else ∀ saved ∈ s.members.get? m.address, (saved < 0 ↔ i.toInt32 < 0)

lemma weighsAlike_record_iff {s : Node} {m : Member} {i : UInt32} :
    (s.record m.address).WeighsAlike i ↔ s.WeighsAlike m i := by
  rw [WeighsAlike, Record.WeighsAlike, suspectCovers_eq, OrderedMap.get?]
  have hfind : s.members.find? m.address = (s.record m.address).member := rfl
  rw [hfind]
  cases (s.record m.address).member <;> simp

/-- What a ping about `m` makes of the record of `m`. -/
lemma record_pingAbout (s : Node) (m : Member) (i : UInt32) (flags : MemberMap Bool) :
    ∃ k up?, (s.step (.pull (pingAbout m i flags))).record m.address
      = (s.record m.address).mergeMember k i.toInt32 up? := by
  have htype : (pingAbout m i flags).getType = .ping := rfl
  have hlist : (OrderedMap.empty.assign m i.toInt32 : MemberMap Int32).find? m.address
      = some (m, i.toInt32) := by
    rw [OrderedMap.find?_assign, if_pos rfl]
    rfl
  rw [record_step, effect, if_pos htype, pingAbout,
    PullRequestMessage.find?_getMembersWithIncarnation, hlist]
  exact ⟨_, _, rfl⟩

/-- **Evidence that a member is alive.**  The Up gossip and a ping about a member that is recorded
under the uid of the message, if at all, leave the same exactly when the incarnation is weighed
alike by the two. -/
theorem alive_iff (s : Node) (m : Member) (i : UInt32) (flags : MemberMap Bool)
    (hself : m.address ≠ s.self.address) (hmember : isExpired s.members m = false)
    (hsuspect : isExpired s.suspects m = false) :
    AgreeAbout m (s.step (.gossip (UpdateMessage.initAsUpMessage m i)))
        (s.step (.pull (pingAbout m i flags)))
      ↔ s.WeighsAlike m i := by
  rw [isExpired_eq] at hmember hsuspect
  have hup : (s.step (.gossip (UpdateMessage.initAsUpMessage m i))).record m.address
      = (s.record m.address).up m i := by
    have hrec := record_handleGossip_up s m i
    rw [if_neg hself, Record.eraseExpired_of_not_expired hmember hsuspect] at hrec
    exact hrec
  obtain ⟨k, up?, hping⟩ := record_pingAbout s m i flags
  have hmembers : ∀ t : Node, t.members.get? m.address
      = (t.record m.address).member.map Prod.snd := fun _ => rfl
  have hsuspects : ∀ t : Node, t.suspects.get? m.address
      = (t.record m.address).suspect.map Prod.snd := fun _ => rfl
  have hsame : ((s.record m.address).up m i).suspect
      = ((s.record m.address).mergeMember k i.toInt32 up?).suspect := by
    rw [(Record.up_cases m i _).1, Record.mergeMember_eq]
    split <;> rfl
  rw [AgreeAbout, hmembers, hmembers, hsuspects, hsuspects, hup, hping, hsame,
    and_iff_left rfl, Record.snd_up_eq_iff, weighsAlike_record_iff]

/-- A member that is known at incarnation one is heard of at incarnation two. -/
theorem alive_iff_newer :
    AgreeAbout nodeB
      ((Run.run step (start nodeA) [.gossip (UpdateMessage.initAsUpMessage nodeB 1)]).step
        (.gossip (UpdateMessage.initAsUpMessage nodeB 2)))
      ((Run.run step (start nodeA) [.gossip (UpdateMessage.initAsUpMessage nodeB 1)]).step
        (.pull (pingAbout nodeB 2 OrderedMap.empty))) := by
  refine (alive_iff _ nodeB 2 _ (by decide) (by decide) (by decide)).mpr ?_
  rw [WeighsAlike, if_neg (by decide)]
  intro saved hsaved
  obtain rfl : saved = 1 := (Option.some_inj.mp hsaved).symm
  decide

/-- A member that is suspected at incarnation one is put back into `members_` by a ping at that
incarnation, and not by an Up gossip. -/
theorem alive_differs :
    ∃ s, Reachable s ∧ nodeB.address ≠ s.self.address ∧ isExpired s.members nodeB = false
      ∧ isExpired s.suspects nodeB = false
      ∧ ¬AgreeAbout nodeB (s.step (.gossip (UpdateMessage.initAsUpMessage nodeB 1)))
          (s.step (.pull (pingAbout nodeB 1 OrderedMap.empty))) := by
  refine ⟨Run.run step (start nodeA) [.gossip (UpdateMessage.initAsUpMessage nodeB 1),
    .gossip (UpdateMessage.initAsSuspectMessage nodeB 1)], ⟨_, _, started_start nodeA rfl, rfl⟩,
    by decide, by decide, by decide, fun h => absurd h.1 (by decide)⟩

end Node

end Cdcf
