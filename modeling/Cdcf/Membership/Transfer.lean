import Cdcf.Membership.PingRepair
import Cdcf.Membership.RoundTrip

/-!
The two ways in which a node hands its tables to another.

A full-state response answers the pull of a node that joins, and a ping request carries the tables
of its sender.  The encoder of each leaves the uids out, and `UpdateActorSystemStatus`, which takes
a full state, enters every member that is new with the incarnation zero, where `MergeMembers`, which
takes a ping, enters the incarnation of the sender.

* `record_step_fullStateResponse`: what a full state leaves at the receiver, beside
  `record_step_pingRequest`.
* `transfers_agree_iff`: when both leave the same.
* `keepsOnUp_iff`: a member learned from either is taken for its own predecessor by the first Up
  gossip that carries its uid.
-/

namespace Cdcf

open Sample

namespace Node

/-! ### A full state -/

/-- A full-state response is a success, also when it is empty. -/
lemma isSuccess_fullStateResponse (a : Node) : a.fullStateResponse.isSuccess = true := by
  rw [FullStateMessage.isSuccess, fullStateResponse,
    FullStateMessage.initAsFullStateMessageWithStatus]
  cases a.getMembersWithStatus <;> rfl

/-- What the receiver of a full state reads about an address is the entry of the sender, with its
flag and without its uid. -/
lemma filter_fullStateResponse (a : Node) (addr : Address) :
    a.fullStateResponse.getMembersWithStatus.filter (fun m => m.member.address = addr)
      = (a.members.find? addr).toList.map fun p =>
          ⟨p.1.anonymous, if a.actorSystemUp p.1.address then .actorSystemUp else .up⟩ := by
  rw [fullStateResponse, FullStateMessage.getMembersWithStatus_init, getMembersWithStatus,
    OrderedMap.keys, List.map_map, List.map_map, List.filter_map, ← OrderedMap.filter_entries]
  rfl

/-- After a full state, a member of the sender that was new to the receiver is there with the
incarnation zero, and the flag is the flag of the sender. -/
lemma record_step_fullStateResponse (a b : Node) (addr : Address) :
    (b.step (.fullState a.fullStateResponse)).record addr
      = match a.members.find? addr with
        | some p => (b.record addr).updateStatus p.1.anonymous (a.actorSystemUp addr)
        | none => b.record addr := by
  rw [record_step, effect, if_pos a.isSuccess_fullStateResponse, filter_fullStateResponse]
  cases hp : a.members.find? addr with
  | none => rfl
  | some p =>
      have hkey : p.1.address = addr := OrderedMap.key_of_find? hp
      simp only [Option.toList_some, List.map_cons, List.map_nil, List.foldl_cons, List.foldl_nil,
        hkey]
      cases a.actorSystemUp addr <;> rfl

/-! ### The same state -/

/-- The node knows nobody but itself. -/
def Alone (s : Node) : Prop := ∀ addr, addr ≠ s.self.address → s.record addr = ⟨none, none, none⟩

/-- The tables agree about the members other than the node itself: who is in `members_` at which
incarnation, and whose flag is which. -/
def AgreeOnOthers (s t : Node) : Prop :=
  ∀ m : Member, m.address ≠ s.self.address →
    s.members.find? m.address = t.members.find? m.address
      ∧ s.memberActorSystem.find? m.address = t.memberActorSystem.find? m.address

lemma Started.alone {s : Node} (h : Started s) : s.Alone := by
  intro addr haddr
  rw [h.record, if_neg (Ne.symm haddr)]

/-- A full state and a ping of `a` leave the same at a node that is alone, but for the incarnation
of a member, which is zero after the full state. -/
lemma agree_at_iff {a b : Node} (hb : b.Alone) {addr : Address} (haddr : addr ≠ b.self.address) :
    ((b.step (.fullState a.fullStateResponse)).members.find? addr
          = (b.step (.pull a.pingRequest)).members.find? addr
        ∧ (b.step (.fullState a.fullStateResponse)).memberActorSystem.find? addr
          = (b.step (.pull a.pingRequest)).memberActorSystem.find? addr)
      ↔ ∀ p ∈ a.members.find? addr, p.2 = 0 := by
  have hfull := record_step_fullStateResponse a b addr
  have hping := record_step_pingRequest a b addr
  rw [hb addr haddr] at hfull hping
  have hmember : ∀ s : Node, s.members.find? addr = (s.record addr).member := fun _ => rfl
  have hflag : ∀ s : Node, s.memberActorSystem.find? addr = (s.record addr).actorSystem :=
    fun _ => rfl
  rw [hmember, hmember, hflag, hflag, hfull, hping]
  cases a.members.find? addr with
  | none => simp
  | some p =>
      simp only [Record.updateStatus, Record.mergeMember, Record.take, Member.anonymous,
        Option.isSome_none, Bool.false_eq_true, if_false, put_none, Option.some.injEq,
        Prod.mk.injEq, true_and, and_true, Option.mem_def, forall_eq']
      exact eq_comm

/-- A full state and a ping hand the same state to a node that knows only itself exactly when the
sender has recorded every other member at incarnation zero. -/
theorem transfers_agree_iff (a b : Node) (hb : b.Alone) :
    (b.step (.fullState a.fullStateResponse)).AgreeOnOthers (b.step (.pull a.pingRequest))
      ↔ ∀ p ∈ a.members.entries, p.1.address ≠ b.self.address → p.2 = 0 := by
  rw [AgreeOnOthers, self_step]
  constructor
  · intro h p hp haddr
    exact (agree_at_iff hb haddr).mp (h p.1 haddr) p (OrderedMap.find?_of_mem_entries hp)
  · intro h m haddr
    refine (agree_at_iff hb haddr).mpr fun p hp => ?_
    have hkey : p.1.address = m.address := OrderedMap.key_of_find? hp
    exact h p (List.mem_of_find?_eq_some hp) (by rwa [hkey])

/-- Two nodes that have just started. -/
theorem transfers_agree_started :
    ((start nodeB).step (.fullState (start nodeA).fullStateResponse)).AgreeOnOthers
      ((start nodeB).step (.pull (start nodeA).pingRequest)) :=
  (transfers_agree_iff (start nodeA) (start nodeB)
    (Started.alone (started_start nodeB rfl))).mpr (by decide)

/-- A seed that has heard of node_c at incarnation one. -/
theorem transfers_disagree :
    ∃ a b, Reachable a ∧ Started b
      ∧ ¬(b.step (.fullState a.fullStateResponse)).AgreeOnOthers (b.step (.pull a.pingRequest)) :=
  ⟨(start nodeA).step (.gossip (UpdateMessage.initAsUpMessage nodeC 1)), start nodeB,
    ⟨start nodeA, [.gossip (UpdateMessage.initAsUpMessage nodeC 1)], started_start nodeA rfl,
      rfl⟩,
    started_start nodeB rfl, fun h => absurd (h nodeC (by decide)).1 (by decide)⟩

/-! ### The first Up after a transfer -/

/-- The Up gossip `(m, i)` leaves the flag of `m` as it is and does not remove `m` from `members_`:
not in the end, and not in between, where `EraseExpiredMember` calls the subscribers. -/
structure KeepsOnUp (s : Node) (m : Member) (i : UInt32) : Prop where
  flag : (s.handleGossip (UpdateMessage.initAsUpMessage m i)).memberActorSystem.find? m.address
    = s.memberActorSystem.find? m.address
  member : s.ifBelongsToMembers m = true →
    (s.handleGossip (UpdateMessage.initAsUpMessage m i)).ifBelongsToMembers m = true
  between : m.address ≠ s.self.address → s.ifBelongsToMembers m = true →
    (s.eraseExpiredMember m).ifBelongsToMembers m = true

/-- The member is the node itself, or `members_` does not hold it under another uid, and
`suspects_` does not either unless its actor system is marked down already. -/
def FindsSameProcess (s : Node) (m : Member) : Prop :=
  m.address = s.self.address
    ∨ isExpired s.members m = false
      ∧ (isExpired s.suspects m = false ∨ s.memberActorSystem.get? m.address = some false)

end Node

namespace Record

variable {κ : Type*} {uid : κ → String}

/-- An Up update leaves the flag alone unless it clears an entry, which marks the flag down. -/
lemma actorSystem_up_eraseExpired_iff (k : κ) (i : UInt32) (r : Record κ) :
    ((r.eraseExpired uid k).up k i).actorSystem = r.actorSystem
      ↔ expired uid k r.member = false ∧ expired uid k r.suspect = false
        ∨ r.actorSystem.map Prod.snd = some false := by
  have hput : put k false r.actorSystem = r.actorSystem
      ↔ r.actorSystem.map Prod.snd = some false := by
    cases r.actorSystem with
    | none => simp
    | some p =>
        obtain ⟨k', up⟩ := p
        simp [eq_comm]
  rw [(up_cases k i _).2.1, eraseExpired]
  cases hm : expired uid k r.member <;> cases hs : expired uid k r.suspect <;> simp [hput]

/-- An Up update leaves a member in `members_` that it does not clear. -/
lemma isSome_member_up {r : Record κ} (h : r.member.isSome = true) (k : κ) (i : UInt32) :
    (r.up k i).member.isSome = true := by
  rcases (up_cases k i r).2.2 with hsame | hput
  · rw [hsame, h]
  · rw [hput, isSome_put]

end Record

namespace Node

/-- An entry under another uid is an entry. -/
lemma ifBelongsToMembers_of_isExpired {s : Node} {m : Member}
    (h : isExpired s.members m = true) : s.ifBelongsToMembers m = true := by
  rw [isExpired_eq] at h
  rw [ifBelongsToMembers_eq, record]
  cases hfind : s.members.find? m.address with
  | none => simp [hfind, Record.expired] at h
  | some p => rfl

/-- `EraseExpiredMember` removes a member from `members_` that is there under another uid. -/
lemma ifBelongsToMembers_eraseExpiredMember (s : Node) (m : Member) :
    (s.eraseExpiredMember m).ifBelongsToMembers m
      = (s.ifBelongsToMembers m && !isExpired s.members m) := by
  have hexp : isExpired s.members m = Record.expired Member.uid m (s.record m.address).member :=
    isExpired_eq s.members m
  rw [ifBelongsToMembers_eq, record_eraseExpiredMember, if_pos rfl, Record.eraseExpired,
    ifBelongsToMembers_eq, hexp]
  cases Record.expired Member.uid m (s.record m.address).member <;> simp

/-- The flag of another member survives the Up gossip exactly when nothing is cleared, or the flag
is down already. -/
lemma flag_handleGossip_up_iff {s : Node} {m : Member} (h : m.address ≠ s.self.address)
    (i : UInt32) :
    (s.handleGossip (UpdateMessage.initAsUpMessage m i)).memberActorSystem.find? m.address
        = s.memberActorSystem.find? m.address
      ↔ isExpired s.members m = false ∧ isExpired s.suspects m = false
        ∨ s.memberActorSystem.get? m.address = some false := by
  have hrec := record_handleGossip_up s m i
  rw [if_neg h] at hrec
  have hiff := @Record.actorSystem_up_eraseExpired_iff _ Member.uid m i (s.record m.address)
  rw [← hrec] at hiff
  rw [isExpired_eq, isExpired_eq]
  exact hiff

/-- A member is kept on an Up gossip, with its flag, exactly when the tables have it for the same
process. -/
lemma keepsOnUp_iff_findsSameProcess {s : Node} {m : Member} {i : UInt32} :
    s.KeepsOnUp m i ↔ s.FindsSameProcess m := by
  have hrec := record_handleGossip_up s m i
  by_cases hself : m.address = s.self.address
  · rw [if_pos hself] at hrec
    refine iff_of_true ⟨congrArg Record.actorSystem hrec, fun h => ?_, fun h => absurd hself h⟩
      (Or.inl hself)
    rw [ifBelongsToMembers_eq, hrec, ← ifBelongsToMembers_eq]
    exact h
  · rw [if_neg hself] at hrec
    constructor
    · intro h
      have hm : isExpired s.members m = false := by
        by_contra hm
        rw [Bool.not_eq_false] at hm
        have hbetween := h.between hself (ifBelongsToMembers_of_isExpired hm)
        rw [ifBelongsToMembers_eraseExpiredMember, hm, Bool.not_true, Bool.and_false] at hbetween
        exact absurd hbetween Bool.false_ne_true
      exact Or.inr ⟨hm, ((flag_handleGossip_up_iff hself i).mp h.flag).imp_left And.right⟩
    · rintro (h | ⟨hm, hs⟩)
      · exact absurd h hself
      · have hstay : s.ifBelongsToMembers m = true →
            (s.eraseExpiredMember m).ifBelongsToMembers m = true := by
          intro h
          rw [ifBelongsToMembers_eraseExpiredMember, h, hm]
          rfl
        refine ⟨(flag_handleGossip_up_iff hself i).mpr (hs.imp_left fun hs => ⟨hm, hs⟩),
          fun h => ?_, fun _ => hstay⟩
        have hthere := hstay h
        rw [ifBelongsToMembers_eq, record_eraseExpiredMember, if_pos rfl] at hthere
        rw [ifBelongsToMembers_eq, hrec]
        exact Record.isSome_member_up hthere m i

/-- The two ways in which `a` hands its tables to another node. -/
def transfers (a : Node) : List Event := [.fullState a.fullStateResponse, .pull a.pingRequest]

/-- A member that was new to the receiver of a transfer is recorded there without its uid. -/
lemma record_transfer {a b : Node} {m : Member} {j : Int32}
    (ha : a.members.find? m.address = some (m, j)) (hmember : b.ifBelongsToMembers m = false)
    {e : Event} (he : e ∈ a.transfers) :
    ∃ j', ((b.step e).record m.address).member = some (m.anonymous, j')
      ∧ ((b.step e).record m.address).suspect = (b.record m.address).suspect := by
  rw [ifBelongsToMembers_eq, Option.isSome_eq_false_iff, Option.isNone_iff_eq_none] at hmember
  rw [transfers, List.mem_cons, List.mem_singleton] at he
  rcases he with rfl | rfl
  · rw [record_step_fullStateResponse, ha]
    exact ⟨0, by simp [Record.updateStatus, hmember], rfl⟩
  · rw [record_step_pingRequest, ha]
    simp only [Record.mergeMember.eq_def, hmember]
    exact ⟨j, by simp [Record.take, hmember, Member.anonymous], rfl⟩

/-- **A member and its predecessor.**  The Up gossip about a member leaves its flag alone and does
not remove it exactly when the tables have it for the same process.  Right after a transfer from a
node that holds the member under its uid they do only if the member is the receiver itself or has no
uid. -/
theorem keepsOnUp_iff (m : Member) (i : UInt32) :
    (∀ s : Node, s.KeepsOnUp m i ↔ s.FindsSameProcess m)
      ∧ ∀ (a b : Node) (j : Int32), a.members.find? m.address = some (m, j) →
          b.ifBelongsToMembers m = false → b.ifBelongsToSuspects m = false →
            ∀ e ∈ a.transfers,
              (b.step e).KeepsOnUp m i ↔ m.address = b.self.address ∨ m.uid = "" := by
  refine ⟨fun s => keepsOnUp_iff_findsSameProcess, fun a b j ha hmember hsuspect e he => ?_⟩
  obtain ⟨j', hmem, hsus⟩ := record_transfer ha hmember he
  rw [ifBelongsToSuspects_eq, Option.isSome_eq_false_iff, Option.isNone_iff_eq_none] at hsuspect
  have hexp_member : isExpired (b.step e).members m = false ↔ m.uid = "" := by
    have hfind : (b.step e).members.find? m.address = some (m.anonymous, j') := hmem
    rw [isExpired_eq, hfind, Record.expired, bne_eq_false_iff_eq]
    exact eq_comm
  have hexp_suspect : isExpired (b.step e).suspects m = false := by
    have hfind : (b.step e).suspects.find? m.address = none := hsus.trans hsuspect
    rw [isExpired_eq, hfind]
    rfl
  rw [keepsOnUp_iff_findsSameProcess, FindsSameProcess, self_step, hexp_member, hexp_suspect]
  simp

/-- A node that has joined through a seed whose actor system runs takes the seed, on its Up gossip,
for the predecessor of the seed. -/
theorem keepsOnUp_fails :
    ∃ a b, Reachable a ∧ Started b ∧ a.ifBelongsToMembers nodeA
      ∧ ∀ e ∈ a.transfers,
          (b.step e).memberActorSystem.get? nodeA.address = some true
            ∧ ¬(b.step e).KeepsOnUp nodeA 1 := by
  refine ⟨(start nodeA).step .setSelfActorSystemUp, start nodeB,
    ⟨start nodeA, [.setSelfActorSystemUp], started_start nodeA rfl, rfl⟩,
    started_start nodeB rfl, by decide, fun e he => ?_⟩
  rw [transfers, List.mem_cons, List.mem_singleton] at he
  rcases he with rfl | rfl
  · exact ⟨by decide, fun h => absurd h.flag (by decide)⟩
  · exact ⟨by decide, fun h => absurd h.flag (by decide)⟩

end Node

end Cdcf
