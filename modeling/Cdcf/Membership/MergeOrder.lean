import Mathlib.Data.Int.ConditionallyCompleteOrder
import Mathlib.Order.ConditionallyCompleteLattice.Indexed
import Mathlib.Order.WithBot
import Cdcf.Library.Register
import Cdcf.Membership.PingRepair
import Cdcf.Membership.Redelivery

/-!
Ping lists that arrive twice, and ping lists that arrive in another order.

`MergeMembers` takes an entry of a list when its incarnation is above the one that is held, and the
flag of the member with it.  So what it holds of a member is a register, whose version is the
incarnation, and two lists are told apart by their incarnations only.

* `PingList`: a list as a ping carries it, with a flag for every member.
* `register_mergeMember`: one round of the loop is an offer to the register of the member.
* `get?_members_mergePing_comm`: two lists give the same incarnations in both orders.
* `mergePing_comm_iff`: two lists give the same tables in both orders exactly when they agree on
  the members that they both list as news with one incarnation; a list merged twice is merged once.
-/

namespace Cdcf

/-- What a ping carries: members with their incarnations, and a flag for each of them. -/
structure PingList where
  members : MemberMap Int32
  memberActorSystem : MemberMap Bool
  same_keys : ∀ a, memberActorSystem.contains a = members.contains a

/-! ### One address -/

namespace Record

variable {κ : Type*}

/-- The incarnation and the flag of an address, the first without a value below all others. -/
def register (r : Record κ) : Register (WithBot ℤ) (Option Bool) where
  version := match r.member with
    | some p => (p.2.toInt : WithBot ℤ)
    | none => ⊥
  content := r.actorSystem.map Prod.snd

/-- The first is the incarnation. -/
lemma version_register_eq_iff {r r' : Record κ} :
    r.register.version = r'.register.version
      ↔ r.member.map Prod.snd = r'.member.map Prod.snd := by
  rw [register, register]
  cases r.member <;> cases r'.member <;> simp [Int32.toInt_inj]

lemma takes_iff (r : Record κ) (i : Int32) :
    r.takes i = true ↔ r.register.version < (i.toInt : WithBot ℤ) := by
  rw [takes, register]
  cases r.member with
  | none => simp
  | some p => simp [Int32.lt_iff_toInt_lt]

lemma register_take (k : κ) (i : Int32) (up : Bool) (r : Record κ) :
    (r.take k i (some up)).register = ⟨(i.toInt : WithBot ℤ), some up⟩ := by
  rw [register, take]
  cases r.member <;> cases r.actorSystem <;> rfl

/-- Equal registers are equal incarnations and equal flags. -/
lemma register_eq_iff {r r' : Record κ} :
    r.register = r'.register ↔ r.member.map Prod.snd = r'.member.map Prod.snd
      ∧ r.actorSystem.map Prod.snd = r'.actorSystem.map Prod.snd := by
  rw [← version_register_eq_iff, Register.ext_iff]
  rfl

/-- A round of the loop of `MergeMembers` offers the flag at the incarnation. -/
lemma register_mergeMember (k : κ) (i : Int32) (up : Bool) (r : Record κ) :
    (r.mergeMember k i (some up)).register = r.register.offer (i.toInt : WithBot ℤ) (some up) := by
  rw [mergeMember_eq, Register.offer]
  by_cases h : r.takes i
  · rw [if_pos h, if_pos ((takes_iff r i).mp h), register_take]
  · rw [if_neg h, if_neg fun hlt => h ((takes_iff r i).mpr hlt)]

/-- Two rounds leave the same incarnation in both orders. -/
lemma version_register_comm (k l : κ) (i j : Int32) (up up' : Bool) (r : Record κ) :
    ((r.mergeMember k i (some up)).mergeMember l j (some up')).register.version
      = ((r.mergeMember l j (some up')).mergeMember k i (some up)).register.version := by
  simp only [register_mergeMember, Register.version_offer]
  exact max_right_comm _ _ _

/-- Two rounds leave the same incarnation and flag in both orders exactly when they agree on the
flag, if they have the same incarnation and it is news. -/
lemma register_comm_iff (k l : κ) (i j : Int32) (up up' : Bool) (r : Record κ) :
    ((r.mergeMember k i (some up)).mergeMember l j (some up')).register
        = ((r.mergeMember l j (some up')).mergeMember k i (some up)).register
      ↔ (i = j → r.takes i = true → up = up') := by
  simp only [register_mergeMember, Register.offer_comm_iff, takes_iff, WithBot.coe_inj,
    Int32.toInt_inj, Option.some_inj]

/-- A round that is made again changes nothing. -/
lemma mergeMember_mergeMember (k : κ) (i : Int32) (up : Bool) (r : Record κ) :
    (r.mergeMember k i (some up)).mergeMember k i (some up) = r.mergeMember k i (some up) := by
  have hold : (r.mergeMember k i (some up)).takes i = false := by
    rw [← Bool.not_eq_true, takes_iff, register_mergeMember, not_lt]
    exact Register.le_version_offer _ _ _
  rw [mergeMember_eq k i (some up) (r.mergeMember k i (some up)), hold]
  rfl

/-- An entry that is news at a lower incarnation than another leaves the other news. -/
lemma takes_of_lt {r : Record κ} {i j : Int32} (h : r.takes i = true) (hij : i < j) :
    r.takes j = true := by
  rw [takes_iff] at h ⊢
  exact h.trans (WithBot.coe_lt_coe.mpr (Int32.lt_iff_toInt_lt.mp hij))

/-- Of two entries that are news, the lower one first or the higher one only. -/
lemma take_take_eq_iff (k l : κ) (i j : Int32) (up up' : Bool) (r : Record κ) :
    (r.take k i (some up)).take l j (some up') = r.take l j (some up')
      ↔ (r.member = none ∨ r.actorSystem = none → k = l) := by
  obtain ⟨_ | ⟨k', i'⟩, o, _ | ⟨k'', b⟩⟩ := r <;> simp [take]

/-- Two entries at the same incarnation that are news, the one or the other. -/
lemma take_eq_take_iff (k l : κ) (i : Int32) (up up' : Bool) (r : Record κ) :
    r.take k i (some up) = r.take l i (some up')
      ↔ up = up' ∧ (r.member = none ∨ r.actorSystem = none → k = l) := by
  obtain ⟨_ | ⟨k', i'⟩, o, _ | ⟨k'', b⟩⟩ := r <;> simp [take, and_comm]

/-- Two rounds leave the same keys as well exactly when the keys are the same, if both are news and
one of the slots is empty. -/
lemma mergeMember_comm_iff (k l : κ) (i j : Int32) (up up' : Bool) (r : Record κ) :
    (r.mergeMember k i (some up)).mergeMember l j (some up')
        = (r.mergeMember l j (some up')).mergeMember k i (some up)
      ↔ (i = j → r.takes i = true → up = up')
        ∧ (r.takes i = true → r.takes j = true →
          r.member = none ∨ r.actorSystem = none → k = l) := by
  simp only [mergeMember_eq]
  cases hi : r.takes i with
  | false =>
      cases hj : r.takes j with
      | false => simp [hi, hj]
      | true =>
          have hback : ¬j < i := fun hlt => by simp [takes_of_lt hj hlt] at hi
          simp [hj, takes_take, hback]
  | true =>
      cases hj : r.takes j with
      | false =>
          have hback : ¬i < j := fun hlt => by simp [takes_of_lt hi hlt] at hj
          have hne : i ≠ j := by
            rintro rfl
            rw [hi] at hj
            simp at hj
          simp [hi, takes_take, hback, hne]
      | true =>
          simp only [if_true, takes_take, decide_eq_true_eq, forall_const]
          by_cases hlt : i < j
          · have hback : ¬j < i := Int32.lt_asymm hlt
            have hne : i ≠ j := Int32.ne_of_lt hlt
            rw [if_pos hlt, if_neg hback, take_take_eq_iff]
            simp [hne]
          · by_cases hback : j < i
            · have hne : i ≠ j := (Int32.ne_of_lt hback).symm
              rw [if_neg hlt, if_pos hback, eq_comm, take_take_eq_iff, @eq_comm _ l k]
              simp [hne]
            · have heq : i = j := Int32.le_antisymm (Int32.not_lt.mp hback) (Int32.not_lt.mp hlt)
              subst heq
              rw [if_neg hlt, if_neg hlt, take_eq_take_iff]
              simp

end Record

/-! ### The lists of pings -/

/-- An address has an entry in a map built from a list when the list has one. -/
lemma contains_ofList {V : Type*} (l : List (Member × V)) (a : Address) :
    (OrderedMap.ofList l : MemberMap V).contains a = l.any fun p => p.1.address = a := by
  have hloop : ∀ (l : List (Member × V)) (m : MemberMap V),
      (l.foldl (fun m p => m.assign p.1 p.2) m).contains a
        = (m.contains a || l.any fun p => p.1.address = a) := by
    intro l
    induction l with
    | nil => simp
    | cons p l ih =>
        intro m
        rw [List.foldl_cons, ih, List.any_cons, OrderedMap.contains, OrderedMap.find?_assign]
        by_cases h : p.1.address = a <;> simp [h, OrderedMap.contains]
  rw [OrderedMap.ofList, hloop, OrderedMap.contains, OrderedMap.find?_empty]
  rfl

/-- The list that a ping decodes to. -/
def PullRequestMessage.pingList (request : PullRequestMessage) : PingList where
  members := request.getMembersWithIncarnation
  memberActorSystem := request.getMembersWithActorSystem
  same_keys := fun a => by
    rw [getMembersWithIncarnation, getMembersWithActorSystem, contains_ofList, contains_ofList,
      List.any_map, List.any_map]
    rfl

/-- The flag of a member that is listed is listed. -/
lemma PingList.exists_flag {P : PingList} {a : Address} {p : Member × Int32}
    (h : P.members.find? a = some p) : ∃ up, P.memberActorSystem.get? a = some up := by
  have hkeys := P.same_keys a
  rw [OrderedMap.contains, OrderedMap.contains, h] at hkeys
  obtain ⟨q, hq⟩ := Option.isSome_iff_exists.mp hkeys
  exact ⟨q.2, by rw [OrderedMap.get?, hq, Option.map_some]⟩

namespace Node

/-- `MergeMembers` with the list of a ping. -/
def mergePing (s : Node) (P : PingList) : Node := s.mergeMembers P.members P.memberActorSystem

/-- A ping that arrives is merged. -/
lemma handlePull_ping {s : Node} {request : PullRequestMessage} (h : request.getType = .ping) :
    s.handlePull request = s.mergePing request.pingList := by
  rw [handlePull, h]
  rfl

/-- The incarnation is above the one that the node has for the member, if it has one. -/
def IsNews (s : Node) (a : Address) (i : Int32) : Prop :=
  ∀ saved, s.members.get? a = some saved → i > saved

/-- If both lists have the member at one incarnation, and it is news, they have one flag for it. -/
def TiesAgree (s : Node) (P Q : PingList) (a : Address) : Prop :=
  ∀ i, P.members.get? a = some i → Q.members.get? a = some i → s.IsNews a i →
    P.memberActorSystem.get? a = Q.memberActorSystem.get? a

/-- If both lists have news of a member that the node has no entry for, or no flag, they have it
under the same key. -/
def KeysAgree (s : Node) (P Q : PingList) (a : Address) : Prop :=
  ∀ p q, P.members.find? a = some p → Q.members.find? a = some q → s.IsNews a p.2 →
    s.IsNews a q.2 → s.members.find? a = none ∨ s.memberActorSystem.find? a = none → p.1 = q.1

/-- The nodes have the same members with the same incarnations, and the same flags. -/
def SameValues (s t : Node) : Prop :=
  ∀ a, s.members.get? a = t.members.get? a
    ∧ s.memberActorSystem.get? a = t.memberActorSystem.get? a

lemma isNews_iff {s : Node} {a : Address} {i : Int32} :
    s.IsNews a i ↔ (s.record a).takes i = true := by
  have hm : (s.record a).member = s.members.find? a := rfl
  rw [IsNews, OrderedMap.get?, Record.takes, hm]
  cases s.members.find? a <;> simp

lemma sameValues_iff {s t : Node} :
    s.SameValues t ↔ ∀ a, (s.record a).register = (t.record a).register := by
  refine forall_congr' fun a => ?_
  rw [Record.register_eq_iff]
  rfl

variable (s : Node) (P Q : PingList)

/-- At an address that one of the lists does not have, the other is merged alone. -/
lemma record_mergePing_of_none {P : PingList} {a : Address} (h : P.members.find? a = none) :
    (s.mergePing P).record a = s.record a := by
  rw [mergePing, record_mergeMembers, h]

lemma record_mergePing_of_some {P : PingList} {a : Address} {k : Member} {i : Int32} {up : Bool}
    (h : P.members.find? a = some (k, i)) (hup : P.memberActorSystem.get? a = some up) :
    (s.mergePing P).record a = (s.record a).mergeMember k i (some up) := by
  rw [mergePing, record_mergeMembers, h, hup]

/-- At an address that one of the lists does not have, their order does not matter. -/
lemma record_mergePing_comm_of_none {P Q : PingList} {a : Address}
    (h : P.members.find? a = none) :
    ((s.mergePing P).mergePing Q).record a = ((s.mergePing Q).mergePing P).record a := by
  rw [record_mergePing_of_none (s.mergePing Q) h]
  cases hQ : Q.members.find? a with
  | none => rw [record_mergePing_of_none _ hQ, record_mergePing_of_none _ hQ,
      record_mergePing_of_none _ h]
  | some q =>
      obtain ⟨up, hup⟩ := PingList.exists_flag hQ
      rw [record_mergePing_of_some _ hQ hup, record_mergePing_of_some _ hQ hup,
        record_mergePing_of_none _ h]

section Both

variable {s : Node} {P Q : PingList} {a : Address} {k l : Member} {i j : Int32} {up up' : Bool}

lemma tiesAgree_iff (hP : P.members.find? a = some (k, i))
    (hup : P.memberActorSystem.get? a = some up) (hQ : Q.members.find? a = some (l, j))
    (hup' : Q.memberActorSystem.get? a = some up') :
    s.TiesAgree P Q a ↔ (i = j → (s.record a).takes i = true → up = up') := by
  simp only [TiesAgree, OrderedMap.get?, hP, hQ, isNews_iff, Option.map_some, Option.some_inj]
  rw [← OrderedMap.get?, ← OrderedMap.get?, hup, hup', Option.some_inj]
  constructor
  · rintro h rfl htakes
    exact h i rfl rfl htakes
  · rintro h i' rfl rfl htakes
    exact h rfl htakes

lemma keysAgree_iff (hP : P.members.find? a = some (k, i))
    (hQ : Q.members.find? a = some (l, j)) :
    s.KeysAgree P Q a
      ↔ ((s.record a).takes i = true → (s.record a).takes j = true →
        (s.record a).member = none ∨ (s.record a).actorSystem = none → k = l) := by
  simp only [KeysAgree, hP, hQ, isNews_iff, Option.some_inj]
  constructor
  · intro h hi hj hempty
    exact h (k, i) (l, j) rfl rfl hi hj hempty
  · rintro h p q rfl rfl hi hj hempty
    exact h hi hj hempty

end Both

/-- At an address, the condition is the one for the two rounds. -/
lemma record_mergePing_comm_iff (a : Address) :
    ((((s.mergePing P).mergePing Q).record a).register
          = (((s.mergePing Q).mergePing P).record a).register
        ↔ s.TiesAgree P Q a)
      ∧ (((s.mergePing P).mergePing Q).record a = ((s.mergePing Q).mergePing P).record a
        ↔ s.TiesAgree P Q a ∧ s.KeysAgree P Q a) := by
  cases hP : P.members.find? a with
  | none =>
      have hsame := record_mergePing_comm_of_none s (Q := Q) hP
      have hties : s.TiesAgree P Q a := fun i hi => by simp [OrderedMap.get?, hP] at hi
      have hkeys : s.KeysAgree P Q a := fun p q hp => by simp [hP] at hp
      exact ⟨iff_of_true (by rw [hsame]) hties, iff_of_true hsame ⟨hties, hkeys⟩⟩
  | some p =>
      obtain ⟨k, i⟩ := p
      obtain ⟨up, hup⟩ := PingList.exists_flag hP
      cases hQ : Q.members.find? a with
      | none =>
          have hsame := (record_mergePing_comm_of_none s (Q := P) hQ).symm
          have hties : s.TiesAgree P Q a := fun i _ hi => by simp [OrderedMap.get?, hQ] at hi
          have hkeys : s.KeysAgree P Q a := fun p q _ hq => by simp [hQ] at hq
          exact ⟨iff_of_true (by rw [hsame]) hties, iff_of_true hsame ⟨hties, hkeys⟩⟩
      | some q =>
          obtain ⟨l, j⟩ := q
          obtain ⟨up', hup'⟩ := PingList.exists_flag hQ
          rw [record_mergePing_of_some _ hQ hup', record_mergePing_of_some _ hP hup,
            record_mergePing_of_some _ hP hup, record_mergePing_of_some _ hQ hup',
            Record.register_comm_iff, Record.mergeMember_comm_iff, tiesAgree_iff hP hup hQ hup',
            keysAgree_iff hP hQ]
          exact ⟨Iff.rfl, Iff.rfl⟩

/-- Two ping lists leave the same members with the same incarnations in both orders. -/
theorem get?_members_mergePing_comm (a : Address) :
    ((s.mergePing P).mergePing Q).members.get? a
      = ((s.mergePing Q).mergePing P).members.get? a := by
  have hversion : (((s.mergePing P).mergePing Q).record a).register.version
      = (((s.mergePing Q).mergePing P).record a).register.version := by
    cases hP : P.members.find? a with
    | none => rw [record_mergePing_comm_of_none s hP]
    | some p =>
        obtain ⟨up, hup⟩ := PingList.exists_flag hP
        cases hQ : Q.members.find? a with
        | none => rw [record_mergePing_comm_of_none s hQ]
        | some q =>
            obtain ⟨up', hup'⟩ := PingList.exists_flag hQ
            rw [record_mergePing_of_some _ hQ hup', record_mergePing_of_some _ hP hup,
              record_mergePing_of_some _ hP hup, record_mergePing_of_some _ hQ hup',
              Record.version_register_comm]
  exact Record.version_register_eq_iff.mp hversion

/-- What `MergeMembers` leaves alone. -/
def apart (s : Node) : Node :=
  { s with members := OrderedMap.empty, memberActorSystem := OrderedMap.empty }

lemma apart_mergePing : (s.mergePing P).apart = s.apart := by
  refine Run.view_run apart (fun t p => ?_) s P.members.entries
  rw [mergeOneMember]
  split
  · split <;> rfl
  · rfl

lemma eq_of_apart {s t : Node} (h : s.apart = t.apart) (htables : s.tables = t.tables) :
    s = t := by
  obtain ⟨hmembers, -, hflags⟩ := by simpa only [tables, Prod.mk.injEq] using htables
  cases s
  cases t
  simp only [apart, Node.mk.injEq] at h
  simp only at hmembers hflags
  simp only [hmembers, hflags, h]

/-- A list that is merged twice in a row is merged once. -/
lemma mergePing_mergePing : (s.mergePing P).mergePing P = s.mergePing P := by
  refine eq_of_apart (apart_mergePing _ P) (tables_ext fun a => ?_)
  cases hP : P.members.find? a with
  | none => rw [record_mergePing_of_none _ hP]
  | some p =>
      obtain ⟨up, hup⟩ := PingList.exists_flag hP
      rw [record_mergePing_of_some _ hP hup, record_mergePing_of_some _ hP hup,
        Record.mergeMember_mergeMember]

/-- Two ping lists leave the same incarnations and flags in both orders exactly when they agree on
the flag of every member that both have as news at one incarnation; they leave the same keys as well
exactly when they have the new members under the same keys; and a list that is merged again changes
nothing. -/
theorem mergePing_comm_iff :
    (((s.mergePing P).mergePing Q).SameValues ((s.mergePing Q).mergePing P)
        ↔ ∀ a, s.TiesAgree P Q a)
      ∧ (((s.mergePing P).mergePing Q).tables = ((s.mergePing Q).mergePing P).tables
        ↔ ∀ a, s.TiesAgree P Q a ∧ s.KeysAgree P Q a)
      ∧ (s.mergePing P).mergePing P = s.mergePing P := by
  refine ⟨?_, ?_, mergePing_mergePing s P⟩
  · rw [sameValues_iff]
    exact forall_congr' fun a => (record_mergePing_comm_iff s P Q a).1
  · constructor
    · intro h a
      refine (record_mergePing_comm_iff s P Q a).2.mp ?_
      obtain ⟨hmembers, hsuspects, hflags⟩ := by simpa only [tables, Prod.mk.injEq] using h
      simp only [record, hmembers, hsuspects, hflags]
    · exact fun h => tables_ext fun a => (record_mergePing_comm_iff s P Q a).2.mpr (h a)

end Node

namespace Sample

/-- A ping of a node that knows another at its first incarnation, with this flag. -/
def pingOf (up : Bool) : PullRequestMessage :=
  PullRequestMessage.initAsPingType (OrderedMap.ofList [(nodeB, 1)])
    (OrderedMap.ofList [(nodeB, up)])

/-- A node that has started keeps the flag of the ping that comes first. -/
theorem mergePing_order :
    Node.Started (start nodeA)
      ∧ ¬(((start nodeA).mergePing (pingOf true).pingList).mergePing
          (pingOf false).pingList).SameValues
        (((start nodeA).mergePing (pingOf false).pingList).mergePing
          (pingOf true).pingList) := by
  refine ⟨started_start nodeA rfl, fun h => ?_⟩
  exact absurd (h nodeB.address).2 (by decide)

end Sample

end Cdcf
