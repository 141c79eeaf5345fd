import Cdcf.Membership.Handler

/-!
The tables of a node, read one address at a time.

`Node.record s a` is what the three tables of `s` hold about the address `a`.  Every handler
acts on each address by itself, so each of them has a counterpart on records, under the same
name, and a lemma `record_…` that says how the two agree; the properties of the tables are
proved on records and carried over by these lemmas alone.

The operations are stated for any type `κ` of stored keys with a `uid`, since nothing else
of a stored key ever decides anything.

* `Record.gossip` is `HandleGossip` at the address of the update (`record_handleGossip`).
* `Record.mergeMember` and `Record.updateStatus` are one round of `MergeMembers` and of
  `UpdateActorSystemStatus` (`record_mergeMembers`, `record_updateActorSystemStatus`).
* `Record.suspectAt` and `Record.recover` are `Suspect` and `RecoverySuspect`, which the
  failure detector and the pushed ping results end in.
-/

namespace Cdcf

variable {κ : Type*}

/-- The slot holds an incarnation of at least `i`, compared as unsigned numbers. -/
def covers (o : Option (κ × Int32)) (i : UInt32) : Bool := o.any fun p => i ≤ p.2.toUInt32

/-- The slot holds an incarnation of at most `i`, compared as unsigned numbers. -/
def within (o : Option (κ × Int32)) (i : UInt32) : Bool := o.any fun p => p.2.toUInt32 ≤ i

@[simp] lemma covers_none (i : UInt32) : covers (none : Option (κ × Int32)) i = false := rfl

@[simp] lemma covers_some (p : κ × Int32) (i : UInt32) :
    covers (some p) i = decide (i ≤ p.2.toUInt32) := rfl

@[simp] lemma within_none (i : UInt32) : within (none : Option (κ × Int32)) i = false := rfl

@[simp] lemma within_some (p : κ × Int32) (i : UInt32) :
    within (some p) i = decide (p.2.toUInt32 ≤ i) := rfl

/-- What the tables of a node hold about one address. -/
@[ext]
structure Record (κ : Type*) where
  member : Option (κ × Int32)
  suspect : Option (κ × Int32)
  actorSystem : Option (κ × Bool)
  deriving DecidableEq

namespace Record

variable (uid : κ → String)

/-- The address has an entry in `members_` or in `suspects_`. -/
def isKnown (r : Record κ) : Bool := r.member.isSome || r.suspect.isSome

/-- A slot holds the member under another uid than `k` has. -/
def expired (k : κ) : Option (κ × Int32) → Bool
  | some (k', _) => uid k' != uid k
  | none => false

/-- `EraseExpiredMember`. -/
def eraseExpired (k : κ) (r : Record κ) : Record κ where
  member := if expired uid k r.member then none else r.member
  suspect := if expired uid k r.suspect then none else r.suspect
  actorSystem :=
    if expired uid k r.member || expired uid k r.suspect then put k false r.actorSystem
    else r.actorSystem

/-- `MergeUpUpdate` behind the guards of `HandleGossip`. -/
def up (k : κ) (i : UInt32) (r : Record κ) : Record κ :=
  if covers r.suspect i || covers r.member i then r
  else { r with member := put k i.toInt32 r.member }

/-- `MergeDownUpdate` behind the guard of `HandleGossip`. -/
def down (k : κ) (r : Record κ) : Record κ :=
  if r.isKnown then ⟨none, none, put k false r.actorSystem⟩ else r

/-- `Suspect`. -/
def suspectAt (k : κ) (i : UInt32) (r : Record κ) : Record κ :=
  if r.member.isSome then ⟨none, put k i.toInt32 r.suspect, put k false r.actorSystem⟩ else r

/-- `RecoverySuspect`. -/
def recover (k : κ) (r : Record κ) : Record κ where
  member := put k ((r.suspect.map Prod.snd).getD 0) r.member
  suspect := none
  actorSystem := r.actorSystem

/-- `MergeActorSystemUp` and `MergeActorSystemDown` behind the guards of `HandleGossip`. -/
def mergeActorSystem (up : Bool) (k : κ) (i : UInt32) (r : Record κ) : Record κ :=
  if r.member.isSome && !covers r.member i then
    { r with member := put k i.toInt32 r.member, actorSystem := put k up r.actorSystem }
  else r

/-- `HandleGossip`, at the address of the update. -/
def gossip (isSelf : Bool) (kind : MemberStatus) (k : κ) (i : UInt32) (r : Record κ) :
    Record κ :=
  match kind with
  | .up => if isSelf then r else (r.eraseExpired uid k).up k i
  | .down => if isSelf then r else r.down k
  | .suspect =>
      if r.suspect.isSome then
        if covers r.suspect i then r else { r with suspect := put k i.toInt32 r.suspect }
      else if within r.member i then r.suspectAt k i else r
  | .recovery => if within r.suspect i then r.recover k else r
  | .actorSystemDown => r.mergeActorSystem false k i
  | .actorSystemUp => r.mergeActorSystem true k i

/-- One round of `UpdateActorSystemStatus`. -/
def updateStatus (k : κ) (up : Bool) (r : Record κ) : Record κ :=
  { r with
    member := if r.member.isSome then r.member else some (k, 0)
    actorSystem := put k up r.actorSystem }

/-- An entry of a ping list that `MergeMembers` takes, with the flag the list has for it. -/
def take (k : κ) (i : Int32) (up? : Option Bool) (r : Record κ) : Record κ where
  member := put k i r.member
  suspect := r.suspect
  actorSystem := match up? with
    | some up => put k up r.actorSystem
    | none => r.actorSystem

/-- One round of `MergeMembers`. -/
def mergeMember (k : κ) (i : Int32) (up? : Option Bool) (r : Record κ) : Record κ :=
  match r.member with
  | some p => if i > p.2 then r.take k i up? else r
  | none => r.take k i up?

/-! ### Slots -/

lemma covers_put (k : κ) (i j : UInt32) (o : Option (κ × Int32)) :
    covers (put k j.toInt32 o) i = decide (i ≤ j) := by
  obtain _ | ⟨k', l⟩ := o <;> simp

/-- An Up update touches `members_` only. -/
lemma up_cases (k : κ) (i : UInt32) (r : Record κ) :
    (r.up k i).suspect = r.suspect ∧ (r.up k i).actorSystem = r.actorSystem
      ∧ ((r.up k i).member = r.member ∨ (r.up k i).member = put k i.toInt32 r.member) := by
  rw [up]
  split
  · exact ⟨rfl, rfl, Or.inl rfl⟩
  · exact ⟨rfl, rfl, Or.inr rfl⟩

variable {uid}

lemma expired_put {k : κ} {o : Option (κ × Int32)} (h : expired uid k o = false) (i : Int32) :
    expired uid k (put k i o) = false := by
  cases o with
  | none => simp [put, expired]
  | some p => exact h

/-- What is left after a slot has been cleared is not of an earlier life. -/
lemma expired_clear (k : κ) (o : Option (κ × Int32)) :
    expired uid k (if expired uid k o then none else o) = false := by
  cases h : expired uid k o with
  | true => rfl
  | false => exact h

/-- An address known under the uid of the message is not cleared. -/
lemma eraseExpired_of_not_expired {r : Record κ} {k : κ} (hm : expired uid k r.member = false)
    (hs : expired uid k r.suspect = false) : r.eraseExpired uid k = r := by
  simp [eraseExpired, hm, hs]

/-- Full states do not touch `suspects_`. -/
lemma suspect_updateStatuses (l : List MemberWithStatus) (r : Record Member) :
    (l.foldl (fun r m => r.updateStatus m.member (m.status == .actorSystemUp)) r).suspect
      = r.suspect := by
  have hround : ∀ (r : Record Member) (m : MemberWithStatus),
      (r.updateStatus m.member (m.status == .actorSystemUp)).suspect = r.suspect :=
    fun _ _ => rfl
  exact Run.view_run suspect hround r l

end Record

namespace Node

/-- What the tables of a node hold about `a`. -/
def record (s : Node) (a : Address) : Record Member where
  member := s.members.find? a
  suspect := s.suspects.find? a
  actorSystem := s.memberActorSystem.find? a

/-! ### The functions of `membership.cc` on records -/

lemma ifBelongsToMembers_eq (s : Node) (m : Member) :
    s.ifBelongsToMembers m = (s.record m.address).member.isSome := by
  rw [ifBelongsToMembers, OrderedMap.contains, record]

lemma ifBelongsToSuspects_eq (s : Node) (m : Member) :
    s.ifBelongsToSuspects m = (s.record m.address).suspect.isSome := by
  rw [ifBelongsToSuspects, OrderedMap.contains, record]

lemma memberCovers_eq (s : Node) (m : Member) (i : UInt32) :
    (s.ifBelongsToMembers m && decide (s.getMemberLocalIncarnation m ≥ i))
      = covers (s.record m.address).member i := by
  rw [ifBelongsToMembers_eq, getMemberLocalIncarnation, OrderedMap.get?, record]
  cases s.members.find? m.address <;> simp

lemma suspectCovers_eq (s : Node) (m : Member) (i : UInt32) :
    (s.ifBelongsToSuspects m && decide (s.getSuspectLocalIncarnation m ≥ i))
      = covers (s.record m.address).suspect i := by
  rw [ifBelongsToSuspects_eq, getSuspectLocalIncarnation, OrderedMap.get?, record]
  cases s.suspects.find? m.address <;> simp

@[simp] lemma record_sendGossip (s : Node) (u : UpdateMessage) (a : Address) :
    (s.sendGossip u).record a = s.record a := by
  rw [sendGossip, pushGossip]; split <;> rfl

@[simp] lemma record_increaseIncarnation (s : Node) (a : Address) :
    s.increaseIncarnation.record a = s.record a := rfl

lemma isExpired_eq (t : MemberMap Int32) (m : Member) :
    isExpired t m = Record.expired Member.uid m (t.find? m.address) := by
  rw [isExpired]
  cases t.find? m.address <;> rfl

lemma record_eraseExpiredMember (s : Node) (m : Member) (a : Address) :
    (s.eraseExpiredMember m).record a
      = if m.address = a then (s.record a).eraseExpired Member.uid m else s.record a := by
  by_cases h : m.address = a
  · subst h
    have hm : Record.expired Member.uid m (s.record m.address).member = isExpired s.members m :=
      (isExpired_eq _ _).symm
    have hs : Record.expired Member.uid m (s.record m.address).suspect
        = isExpired s.suspects m := (isExpired_eq _ _).symm
    rw [if_pos rfl, eraseExpiredMember, Record.eraseExpired, hm, hs]
    cases isExpired s.members m <;> cases isExpired s.suspects m <;>
      simp [record, OrderedMap.find?_assign, OrderedMap.find?_erase]
  · rw [if_neg h, eraseExpiredMember]
    cases isExpired s.members m <;> cases isExpired s.suspects m <;>
      simp [record, OrderedMap.find?_assign, OrderedMap.find?_erase, h]

lemma record_suspect (s : Node) (m : Member) (i : UInt32) (a : Address) :
    (s.suspect m i).record a
      = if m.address = a then (s.record a).suspectAt m i else s.record a := by
  rw [suspect, ifBelongsToMembers_eq, Record.suspectAt]
  by_cases h : m.address = a
  · subst h
    rw [if_pos rfl]
    split
    · rw [record_sendGossip]
      simp [record, addOrUpdateSuspect, OrderedMap.find?_assign, OrderedMap.find?_erase]
    · rfl
  · rw [if_neg h]
    split
    · rw [record_sendGossip]
      simp [record, addOrUpdateSuspect, OrderedMap.find?_assign, OrderedMap.find?_erase, h]
    · rfl

lemma record_recoverySuspect (s : Node) (m : Member) (a : Address) :
    (s.recoverySuspect m).record a
      = if m.address = a then (s.record a).recover m else s.record a := by
  rw [recoverySuspect, record_sendGossip]
  by_cases h : m.address = a
  · subst h
    simp [record, Record.recover, OrderedMap.find?_assign, OrderedMap.find?_erase,
      OrderedMap.get?]
  · simp [record, OrderedMap.find?_assign, OrderedMap.find?_erase, h]

lemma record_addOrUpdateSuspect (s : Node) (m : Member) (i : UInt32) (a : Address) :
    (s.addOrUpdateSuspect m i).record a
      = if m.address = a then { s.record a with suspect := put m i.toInt32 (s.record a).suspect }
        else s.record a := by
  by_cases h : m.address = a <;>
    simp [record, addOrUpdateSuspect, OrderedMap.find?_assign, h]

lemma isStale_eq (s : Node) (m : Member) (i : UInt32) :
    s.isStale m i = covers (s.record m.address).member i :=
  memberCovers_eq s m i

lemma record_mergeUpUpdate (s : Node) (m : Member) (i : UInt32) (a : Address) :
    (s.mergeUpUpdate m i).record a
      = if m.address = a ∧ covers (s.record a).member i = false then
          { s.record a with member := put m i.toInt32 (s.record a).member }
        else s.record a := by
  rw [mergeUpUpdate, isStale_eq]
  by_cases h : m.address = a
  · subst h
    cases hc : covers (s.record m.address).member i with
    | true => simp
    | false => simp [record, OrderedMap.find?_assign]
  · split <;> simp [record, OrderedMap.find?_assign, h]

lemma record_mergeActorSystem (up : Bool) (s : Node) (m : Member) (i : UInt32) (a : Address) :
    (mergeActorSystem up s m i).record a
      = if m.address = a ∧ covers (s.record a).member i = false then
          { s.record a with
            member := put m i.toInt32 (s.record a).member
            actorSystem := put m up (s.record a).actorSystem }
        else s.record a := by
  rw [mergeActorSystem, isStale_eq]
  by_cases h : m.address = a
  · subst h
    cases hc : covers (s.record m.address).member i with
    | true => simp
    | false => simp [record, OrderedMap.find?_assign]
  · split <;> simp [record, OrderedMap.find?_assign, h]

lemma record_mergeDownUpdate (s : Node) (m : Member) (a : Address) :
    (s.mergeDownUpdate m).record a
      = if m.address = a ∧ a ≠ s.self.address then
          ⟨none, none, put m false (s.record a).actorSystem⟩
        else s.record a := by
  rw [mergeDownUpdate]
  by_cases hself : m.address = s.self.address
  · rw [if_pos (Member.eq_iff.mpr hself), if_neg]
    rintro ⟨h, h'⟩
    exact h' (h.symm.trans hself)
  · rw [if_neg (by simpa using hself)]
    by_cases h : m.address = a
    · subst h
      simp [record, OrderedMap.find?_assign, OrderedMap.find?_erase, hself]
    · simp [record, OrderedMap.find?_assign, OrderedMap.find?_erase, h]

/-! ### `HandleGossip` -/

@[simp] lemma sendGossip_self (s : Node) (u : UpdateMessage) : (s.sendGossip u).self = s.self := by
  rw [sendGossip, pushGossip]; split <;> rfl

lemma memberWithin_eq (s : Node) (m : Member) (i : UInt32) :
    (s.ifBelongsToMembers m && decide (i ≥ s.getMemberLocalIncarnation m))
      = within (s.record m.address).member i := by
  rw [ifBelongsToMembers_eq, getMemberLocalIncarnation, OrderedMap.get?, record]
  cases s.members.find? m.address <;> simp

/-- Past the test that `m` is suspected, the comparisons of the source are those of the
suspect slot. -/
lemma suspectLt_iff {s : Node} {m : Member} (h : (s.record m.address).suspect.isSome = true)
    (i : UInt32) :
    (s.getSuspectLocalIncarnation m < i ↔ covers (s.record m.address).suspect i = false)
      ∧ (i < s.getSuspectLocalIncarnation m ↔ within (s.record m.address).suspect i = false) := by
  obtain ⟨p, hp⟩ := Option.isSome_iff_exists.mp h
  have hfind : s.suspects.find? m.address = some p := hp
  simp [getSuspectLocalIncarnation, OrderedMap.get?, hfind, hp]

lemma record_handleUp (s : Node) (u : UpdateMessage) (a : Address) :
    (s.handleUp u).record a
      = if u.getMember.address = a ∧ a ≠ s.self.address then
          ((s.record a).eraseExpired Member.uid u.getMember).up u.getMember u.getIncarnation
        else s.record a := by
  rw [handleUp]
  by_cases hself : u.getMember.address = s.self.address
  · rw [if_pos (Member.eq_iff.mpr hself), if_neg]
    rintro ⟨h, h'⟩
    exact h' (h.symm.trans hself)
  · have hrec := record_eraseExpiredMember s u.getMember a
    rw [if_neg (by simpa using hself)]
    simp only [suspectCovers_eq, memberCovers_eq]
    by_cases h : u.getMember.address = a
    · subst h
      rw [if_pos rfl] at hrec
      rw [if_pos (⟨rfl, hself⟩ : _ ∧ _), ← hrec, Record.up]
      cases covers ((s.eraseExpiredMember u.getMember).record u.getMember.address).suspect
          u.getIncarnation
      · cases hm : covers ((s.eraseExpiredMember u.getMember).record u.getMember.address).member
            u.getIncarnation <;> simp [record_mergeUpUpdate, hm]
      · simp
    · rw [if_neg h] at hrec
      rw [if_neg (fun h' => h h'.1 : ¬(u.getMember.address = a ∧ a ≠ s.self.address))]
      split_ifs
      · exact hrec
      · exact hrec
      · simp [record_mergeUpUpdate, h, hrec]

lemma record_handleDown (s : Node) (u : UpdateMessage) (a : Address) :
    (s.handleDown u).record a
      = if u.getMember.address = a ∧ a ≠ s.self.address then
          (s.record a).down u.getMember
        else s.record a := by
  rw [handleDown, ifBelongsToMembers_eq, ifBelongsToSuspects_eq, ← Bool.not_or]
  by_cases h : u.getMember.address = a
  · subst h
    rw [Record.down, Record.isKnown]
    cases ((s.record u.getMember.address).member.isSome
        || (s.record u.getMember.address).suspect.isSome) with
    | false => simp
    | true => simp [record_mergeDownUpdate]
  · split <;> simp [record_mergeDownUpdate, h]

lemma record_handleSuspect (s : Node) (u : UpdateMessage) (a : Address) (isSelf : Bool) :
    (s.handleSuspect u).record a
      = if u.getMember.address = a then
          (s.record a).gossip Member.uid isSelf .suspect u.getMember u.getIncarnation
        else s.record a := by
  simp only [handleSuspect, memberWithin_eq, ifBelongsToSuspects_eq]
  by_cases h : u.getMember.address = a
  · subst h
    rw [if_pos rfl, Record.gossip]
    cases hs : (s.record u.getMember.address).suspect.isSome with
    | true =>
        simp only [if_true, (suspectLt_iff hs _).1]
        cases covers (s.record u.getMember.address).suspect u.getIncarnation with
        | true => simp
        | false => simp [record_addOrUpdateSuspect]
    | false =>
        cases within (s.record u.getMember.address).member u.getIncarnation with
        | true => simp [record_suspect]
        | false => simp
  · split_ifs <;> simp [record_addOrUpdateSuspect, record_suspect, h]

lemma record_handleRecovery (s : Node) (u : UpdateMessage) (a : Address) (isSelf : Bool) :
    (s.handleRecovery u).record a
      = if u.getMember.address = a then
          (s.record a).gossip Member.uid isSelf .recovery u.getMember u.getIncarnation
        else s.record a := by
  rw [handleRecovery, ifBelongsToSuspects_eq]
  by_cases h : u.getMember.address = a
  · subst h
    rw [if_pos rfl, Record.gossip]
    cases hs : (s.record u.getMember.address).suspect.isSome with
    | false => simp [Option.isSome_eq_false_iff.mp hs |> Option.isNone_iff_eq_none.mp]
    | true =>
        simp only [(suspectLt_iff hs _).2]
        cases within (s.record u.getMember.address).suspect u.getIncarnation with
        | true => simp [record_recoverySuspect]
        | false => simp
  · split
    · rfl
    · split <;> simp [record_recoverySuspect, h]

lemma record_handleActorSystem (up : Bool) (s : Node) (u : UpdateMessage) (a : Address) :
    (handleActorSystem up s u).record a
      = if u.getMember.address = a then
          (s.record a).mergeActorSystem up u.getMember u.getIncarnation
        else s.record a := by
  rw [handleActorSystem]
  have hc := memberCovers_eq s u.getMember u.getIncarnation
  by_cases h : u.getMember.address = a
  · subst h
    rw [if_pos rfl, Record.mergeActorSystem, ← ifBelongsToMembers_eq, ← hc]
    cases hm : s.ifBelongsToMembers u.getMember with
    | false => simp
    | true =>
        rw [hm, Bool.true_and] at hc
        by_cases hi : s.getMemberLocalIncarnation u.getMember ≥ u.getIncarnation
        · simp [hi]
        · simp [hi, record_mergeActorSystem, ← hc]
  · split_ifs <;> simp [record_mergeActorSystem, h]

/-- `HandleGossip` runs the branch of the kind of the update. -/
lemma handleGossip_eq (s : Node) (u : UpdateMessage) :
    s.handleGossip u = match u.kind? with
      | some .up => s.handleUp u
      | some .down => s.handleDown u
      | some .suspect => s.handleSuspect u
      | some .recovery => s.handleRecovery u
      | some .actorSystemDown => s.handleActorSystemDown u
      | some .actorSystemUp => s.handleActorSystemUp u
      | none => s := by
  have hstatus : ∀ st, UpdateMessage.hasStatus st u = decide (u.kind? = some st) := fun st => by
    rw [Bool.eq_iff_iff, decide_eq_true_iff, UpdateMessage.hasStatus_iff]
  simp only [handleGossip, UpdateMessage.isUpMessage, UpdateMessage.isDownMessage,
    UpdateMessage.isSuspectMessage, UpdateMessage.isRecoveryMessage,
    UpdateMessage.isActorSystemDownMessage, UpdateMessage.isActorSystemUpMessage, hstatus]
  cases u.kind? with
  | none => rfl
  | some kind => cases kind <;> rfl

/-- `HandleGossip` touches the address of the update only, and there it is
`Record.gossip`. -/
theorem record_handleGossip (s : Node) (u : UpdateMessage) (a : Address) :
    (s.handleGossip u).record a
      = if u.getMember.address = a then
          match u.kind? with
          | some kind =>
              (s.record a).gossip Member.uid (decide (a = s.self.address)) kind u.getMember
                u.getIncarnation
          | none => s.record a
        else s.record a := by
  rw [handleGossip_eq]
  cases u.kind? with
  | none => simp
  | some kind =>
      cases kind with
      | up =>
          simp only [record_handleUp, Record.gossip]
          by_cases h : a = s.self.address <;> simp [h]
      | down =>
          simp only [record_handleDown, Record.gossip]
          by_cases h : a = s.self.address <;> simp [h]
      | suspect => exact record_handleSuspect s u a (decide (a = s.self.address))
      | recovery => exact record_handleRecovery s u a (decide (a = s.self.address))
      | actorSystemDown => exact record_handleActorSystem false s u a
      | actorSystemUp => exact record_handleActorSystem true s u a

/-- What the Up gossip `(m, i)` makes of the record of `m`. -/
lemma record_handleGossip_up (s : Node) (m : Member) (i : UInt32) :
    (s.handleGossip (UpdateMessage.initAsUpMessage m i)).record m.address
      = if m.address = s.self.address then s.record m.address
        else ((s.record m.address).eraseExpired Member.uid m).up m i := by
  have hkind : (UpdateMessage.initAsUpMessage m i).kind? = some .up := rfl
  have hmember : (UpdateMessage.initAsUpMessage m i).getMember = m :=
    UpdateMessage.getMember_setUpdate .up m i
  have hincarnation : (UpdateMessage.initAsUpMessage m i).getIncarnation = i :=
    UpdateMessage.getIncarnation_setUpdate .up m i
  rw [record_handleGossip, hmember, if_pos rfl, hkind, hincarnation]
  by_cases h : m.address = s.self.address <;> simp [Record.gossip, h]

/-! ### Full states and ping lists -/

/-- `UpdateActorSystemStatus` acts on an address by the entries that list it, in order. -/
theorem record_updateActorSystemStatus (s : Node) (l : List MemberWithStatus) (a : Address) :
    (s.updateActorSystemStatus l).record a
      = (l.filter fun m => m.member.address = a).foldl
          (fun r m => r.updateStatus m.member (m.status == .actorSystemUp)) (s.record a) := by
  rw [updateActorSystemStatus]
  induction l generalizing s with
  | nil => rfl
  | cons m l ih =>
      rw [List.foldl_cons, ih]
      by_cases h : m.member.address = a
      · have hrec : (s.updateOneStatus m).record a
            = (s.record a).updateStatus m.member (m.status == .actorSystemUp) := by
          subst h
          rw [updateOneStatus, Record.updateStatus, OrderedMap.contains]
          ext1
          · cases hm : s.members.find? m.member.address <;>
              simp [record, OrderedMap.find?_assign, hm]
          · rfl
          · simp [record, OrderedMap.find?_assign]
        rw [hrec, List.filter_cons_of_pos (by simpa using h), List.foldl_cons]
      · have hrec : (s.updateOneStatus m).record a = s.record a := by
          simp only [record, updateOneStatus, OrderedMap.find?_assign, if_neg h]
          cases s.members.contains m.member.address <;> simp [OrderedMap.find?_assign, h]
        rw [hrec, List.filter_cons_of_neg (by simpa using h)]

lemma record_takeMember (s : Node) (m : Member) (i : Int32) (up? : Option Bool) (a : Address) :
    (s.takeMember m i up?).record a
      = if m.address = a then (s.record a).take m i up? else s.record a := by
  by_cases h : m.address = a <;> cases up? <;>
    simp [record, takeMember, Record.take, OrderedMap.find?_assign, h]

lemma record_mergeOneMember (flags : MemberMap Bool) (s : Node) (p : Member × Int32)
    (a : Address) :
    (mergeOneMember flags s p).record a
      = if p.1.address = a then (s.record a).mergeMember p.1 p.2 (flags.get? p.1.address)
        else s.record a := by
  rw [mergeOneMember, OrderedMap.get?]
  by_cases h : p.1.address = a
  · subst h
    have htake := record_takeMember s p.1 p.2 (flags.get? p.1.address) p.1.address
    have hm : (s.record p.1.address).member = s.members.find? p.1.address := rfl
    rw [if_pos rfl, Record.mergeMember.eq_def, hm]
    cases s.members.find? p.1.address with
    | none => simpa using htake
    | some q =>
        simp only [Option.map_some]
        split
        · simpa using htake
        · rfl
  · rw [if_neg h]
    cases s.members.find? p.1.address with
    | none => simp [record_takeMember, h]
    | some q =>
        simp only [Option.map_some]
        split <;> simp [record_takeMember, h]

/-- `MergeMembers` acts on an address by the one entry that lists it. -/
theorem record_mergeMembers (s : Node) (members : MemberMap Int32) (flags : MemberMap Bool)
    (a : Address) :
    (s.mergeMembers members flags).record a
      = match members.find? a with
        | some (k, i) => (s.record a).mergeMember k i (flags.get? a)
        | none => s.record a := by
  have h := OrderedMap.view_foldl_entries (record_mergeOneMember flags) members s a
  rw [mergeMembers, h]
  cases hf : members.find? a with
  | none => rfl
  | some p =>
      have hkey := OrderedMap.key_of_find? hf
      simp only [hkey]

/-! ### Failure detection -/

end Node

/-- The member a callback may suspect or recover. -/
def PullCallback.target? : PullCallback → Option Member
  | .ping t => some t
  | .relayPing t _ _ => some t
  | .relayedPing _ _ => none

namespace Record

/-- The incarnation `GetMemberLocalIncarnation` reads. -/
def localIncarnation (r : Record κ) : UInt32 := ((r.member.map Prod.snd).getD 0).toUInt32

/-- The effect on the address `a` of a failure detector that makes the node recover (`true`)
or suspect (`false`) a member, or do neither. -/
def judge (verdict : Option (Member × Bool)) (a : Address) (r : Record Member) :
    Record Member :=
  match verdict with
  | some (t, recovers) =>
      if t.address = a then
        if recovers then r.recover t else r.suspectAt t r.localIncarnation
      else r
  | none => r

end Record

namespace Node

lemma getMemberLocalIncarnation_eq (s : Node) (m : Member) :
    s.getMemberLocalIncarnation m = (s.record m.address).localIncarnation := rfl

/-- What a relayed ping that has run out of relays or not leads to. -/
def relayVerdict (s : Node) (t : Member) (ex : MemberMap Unit) : Option (Member × Bool) :=
  if (s.getRelayMember ex).isNone then some (t, false) else none

/-- What the end of a ping leads to. -/
def pingVerdict (s : Node) (t : Member) (ok : Bool) : Option (Member × Bool) :=
  if ok && s.ifBelongsToSuspects t then some (t, true)
  else if !ok && s.ifBelongsToMembers t then
    if s.isRelayPingEnabled then
      s.relayVerdict t (OrderedMap.ofList [(s.self, ()), (t, ())])
    else some (t, false)
  else none

/-- What the end of the pull at `index` leads to. -/
def verdict (s : Node) (index : ℕ) (ok : Bool) : Option (Member × Bool) :=
  match s.pulls[index]? with
  | some (.ping t) => s.pingVerdict t ok
  | some (.relayPing t r ex) => if ok then none else s.relayVerdict t (ex.assign r ())
  | _ => none

lemma target_of_relayVerdict {s : Node} {t : Member} {ex : MemberMap Unit}
    {v : Member × Bool} (h : s.relayVerdict t ex = some v) : v.1 = t := by
  rw [relayVerdict] at h
  split_ifs at h
  rw [← Option.some.inj h]

lemma target_of_pingVerdict {s : Node} {t : Member} {ok : Bool} {v : Member × Bool}
    (h : s.pingVerdict t ok = some v) : v.1 = t := by
  rw [pingVerdict] at h
  split_ifs at h
  · rw [← Option.some.inj h]
  · exact target_of_relayVerdict h
  · rw [← Option.some.inj h]

/-- Only the target that a pull in progress has captured is judged. -/
lemma target_of_verdict {s : Node} {index : ℕ} {ok : Bool} {v : Member × Bool}
    (h : s.verdict index ok = some v) : ∃ c ∈ s.pulls, c.target? = some v.1 := by
  rw [verdict] at h
  split at h
  case h_1 t hc => exact ⟨_, List.mem_of_getElem? hc, by rw [target_of_pingVerdict h]; rfl⟩
  case h_2 t r ex hc =>
    split_ifs at h
    exact ⟨_, List.mem_of_getElem? hc, by rw [target_of_relayVerdict h]; rfl⟩
  case h_3 => exact absurd h (by simp)

lemma record_suspect_judge (s : Node) (t : Member) (a : Address) :
    (s.suspect t (s.getMemberLocalIncarnation t)).record a
      = (s.record a).judge (some (t, false)) a := by
  rw [record_suspect, getMemberLocalIncarnation_eq, Record.judge]
  by_cases h : t.address = a
  · subst h; simp
  · simp [h]

lemma record_relayPing (s : Node) (t : Member) (ex : MemberMap Unit) (a : Address) :
    (s.relayPing t ex).record a = (s.record a).judge (s.relayVerdict t ex) a := by
  rw [relayPing, relayVerdict]
  cases s.getRelayMember ex with
  | some r => rfl
  | none => exact record_suspect_judge s t a

lemma record_didPing (s : Node) (t : Member) (ok : Bool) (a : Address) :
    (s.didPing t ok).record a = (s.record a).judge (s.pingVerdict t ok) a := by
  rw [didPing, pingVerdict]
  split_ifs
  · rw [record_recoverySuspect]; rfl
  · exact record_relayPing s t _ a
  · exact record_suspect_judge s t a
  · rfl

/-- The end of a pull acts on the member it decides about only. -/
theorem record_didPull (s : Node) (index : ℕ) (ok : Bool) (a : Address) :
    (s.didPull index ok).record a = (s.record a).judge (s.verdict index ok) a := by
  rw [didPull, verdict]
  cases s.pulls[index]? with
  | none => rfl
  | some c =>
      cases c with
      | relayedPing t d => rfl
      | ping t => exact record_didPing _ t ok a
      | relayPing t r ex =>
          cases ok with
          | true => rfl
          | false => exact record_relayPing _ t (ex.assign r ()) a

/-- A pushed ping failure makes the node suspect the member it names. -/
theorem record_handlePush (s : Node) (message : PullResponseMessage) (a : Address) :
    (s.handlePush message).record a
      = (s.record a).judge
          (if message.isPingFailure then some (message.getMember, false) else none) a := by
  rw [handlePush]
  split_ifs
  · exact record_suspect_judge s _ a
  · rfl

end Node

end Cdcf
