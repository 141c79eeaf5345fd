import Mathlib.Data.List.Perm.Basic
import Cdcf.Membership.Step

/-!
Two updates about one member, in one order and in the other.

Whether the order matters is decided by the kinds.  Updates of one kind move the record of the
member along one order of incarnations and so commute, and a Down leaves nothing for an update
that is not an Up to act on (`gossip_comm`).

* `MemberStatus.compatible`: the pairs of kinds whose order does not matter.
* `gossip_comm`: updates of compatible kinds under one key commute.
* `foldl_gossip_of_down`: where there is a Down and no Up, all orders end in the same record.
-/

namespace Cdcf

variable {κ : Type*}

/-- The kinds that tell of an actor system. -/
def MemberStatus.isActorSystem : MemberStatus → Bool
  | .actorSystemDown | .actorSystemUp => true
  | _ => false

/-- The order of two updates of these kinds about one member does not matter. -/
def MemberStatus.compatible (kind kind' : MemberStatus) : Bool :=
  kind == kind' || (kind.isActorSystem && kind'.isActorSystem)
    || (kind == .down && kind' != .up) || (kind' == .down && kind != .up)

namespace Record

/-! ### Incarnations that are only raised -/

/-- A slot raised to an incarnation, unless it has reached it already. -/
def raise (k : κ) (i : UInt32) (o : Option (κ × Int32)) : Option (κ × Int32) :=
  if covers o i then o else put k i.toInt32 o

lemma raise_of_covers {k : κ} {i : UInt32} {o : Option (κ × Int32)} (h : covers o i = true) :
    raise k i o = o := by
  rw [raise, if_pos h]

lemma raise_of_not_covers {k : κ} {i : UInt32} {o : Option (κ × Int32)}
    (h : covers o i = false) : raise k i o = put k i.toInt32 o := by
  rw [raise, h]
  rfl

lemma put_put {β : Type*} (k : κ) (b b' : β) (o : Option (κ × β)) :
    put k b' (put k b o) = put k b' o := by
  obtain _ | ⟨k', l⟩ := o <;> rfl

lemma covers_raise {k : κ} {i : UInt32} {o : Option (κ × Int32)} (h : covers o i = true)
    (j : UInt32) : covers (raise k j o) i = true := by
  rw [raise]
  split
  · exact h
  · next hj =>
      rw [covers_put, decide_eq_true_eq]
      cases o with
      | none => simp at h
      | some p =>
          rw [covers_some, decide_eq_true_eq] at h hj
          exact UInt32.le_trans h (UInt32.le_of_lt (UInt32.not_le.mp hj))

/-- A slot raised twice has reached the greater of the two incarnations. -/
lemma raise_comm (k : κ) (i j : UInt32) (o : Option (κ × Int32)) :
    raise k j (raise k i o) = raise k i (raise k j o) := by
  cases hi : covers o i with
  | true => rw [raise_of_covers hi, raise_of_covers (covers_raise hi j)]
  | false =>
      cases hj : covers o j with
      | true => rw [raise_of_covers hj, raise_of_covers (covers_raise hj i)]
      | false =>
          rw [raise_of_not_covers hi, raise_of_not_covers hj, raise, raise, covers_put,
            covers_put, put_put, put_put]
          rcases UInt32.le_total i j with hle | hle
          · by_cases hle' : j ≤ i
            · rw [UInt32.le_antisymm hle hle']
            · simp [hle, hle']
          · by_cases hle' : i ≤ j
            · rw [UInt32.le_antisymm hle hle']
            · simp [hle, hle']

/-! ### Updates of one kind -/

variable (uid : κ → String)

lemma up_eq (k : κ) (i : UInt32) (r : Record κ) :
    r.up k i = if covers r.suspect i then r else { r with member := raise k i r.member } := by
  rw [up, raise]
  cases covers r.suspect i <;> cases covers r.member i <;> simp

lemma not_expired_up {k : κ} {r : Record κ} (hm : expired uid k r.member = false) (i : UInt32) :
    expired uid k (r.up k i).member = false := by
  rw [up]
  split
  · exact hm
  · exact expired_put hm i.toInt32

lemma suspect_up (k : κ) (i : UInt32) (r : Record κ) : (r.up k i).suspect = r.suspect := by
  rw [up]; split <;> rfl

lemma up_comm (k : κ) (i j : UInt32) (r : Record κ) : (r.up k i).up k j = (r.up k j).up k i := by
  simp only [up_eq]
  cases hi : covers r.suspect i <;> cases hj : covers r.suspect j <;> simp [hi, hj, raise_comm]

/-- After an Up update nothing is left of an earlier life for another one to clear. -/
lemma gossip_up_up (k : κ) (i j : UInt32) (r : Record κ) :
    (r.gossip uid false .up k i).gossip uid false .up k j
      = ((r.eraseExpired uid k).up k i).up k j := by
  have hm : expired uid k (r.eraseExpired uid k).member = false := expired_clear k r.member
  have hs : expired uid k (r.eraseExpired uid k).suspect = false := expired_clear k r.suspect
  have hs' : expired uid k ((r.eraseExpired uid k).up k i).suspect = false := by
    rw [suspect_up]; exact hs
  simp only [gossip, Bool.false_eq_true, if_false,
    eraseExpired_of_not_expired (not_expired_up uid hm i) hs']

lemma gossip_suspect_of_suspect {k : κ} {i : UInt32} {r : Record κ} (h : r.suspect.isSome = true) :
    r.gossip uid false .suspect k i = { r with suspect := raise k i r.suspect } := by
  rw [gossip, if_pos h, raise]
  split <;> rfl

lemma gossip_suspect_of_member {k : κ} {i : UInt32} {r : Record κ} {p : κ × Int32}
    (hs : r.suspect = none) (hp : r.member = some p) :
    r.gossip uid false .suspect k i
      = if p.2.toUInt32 ≤ i then ⟨none, some (k, i.toInt32), put k false r.actorSystem⟩ else r := by
  simp only [gossip, hs, hp, Option.isSome_none, Bool.false_eq_true, if_false, within_some,
    decide_eq_true_eq, suspectAt, Option.isSome_some, if_true, put_none]

/-- Suspicions raise the suspected incarnation, from the first that is accepted on. -/
lemma gossip_suspect_comm (k : κ) (i j : UInt32) (r : Record κ) :
    (r.gossip uid false .suspect k i).gossip uid false .suspect k j
      = (r.gossip uid false .suspect k j).gossip uid false .suspect k i := by
  have hput : ∀ (i : UInt32) (o : Option (κ × Int32)), o.isSome = true →
      (raise k i o).isSome = true := by
    intro i o ho
    rw [raise]
    split
    · exact ho
    · exact isSome_put _ _ _
  cases hs : r.suspect with
  | some q =>
      have hsome : r.suspect.isSome = true := by rw [hs]; rfl
      rw [gossip_suspect_of_suspect uid hsome, gossip_suspect_of_suspect uid hsome,
        gossip_suspect_of_suspect uid (hput i _ hsome),
        gossip_suspect_of_suspect uid (hput j _ hsome)]
      simp only [raise_comm k i j]
  | none =>
      cases hm : r.member with
      | none => simp [gossip, hs, hm]
      | some p =>
          have hraise : ∀ i j : UInt32, p.2.toUInt32 ≤ i → ¬p.2.toUInt32 ≤ j →
              raise k j (some (k, i.toInt32)) = some (k, i.toInt32) := fun i j hi hj =>
            raise_of_covers (by
              simpa using UInt32.le_trans (UInt32.le_of_lt (UInt32.not_le.mp hj)) hi)
          have hfirst := raise_comm k i j none
          rw [raise_of_not_covers (covers_none i), raise_of_not_covers (covers_none j), put_none,
            put_none] at hfirst
          rw [gossip_suspect_of_member uid hs hm, gossip_suspect_of_member uid hs hm]
          split_ifs with hi hj hj
          · rw [gossip_suspect_of_suspect uid rfl, gossip_suspect_of_suspect uid rfl]
            simp only [hfirst]
          · rw [gossip_suspect_of_suspect uid rfl, gossip_suspect_of_member uid hs hm, if_pos hi]
            simp only [hraise i j hi hj]
          · rw [gossip_suspect_of_member uid hs hm, if_pos hj, gossip_suspect_of_suspect uid rfl]
            simp only [hraise j i hj hi]
          · rw [gossip_suspect_of_member uid hs hm, gossip_suspect_of_member uid hs hm, if_neg hi,
              if_neg hj]

lemma gossip_recovery_eq (k : κ) (i : UInt32) (r : Record κ) :
    r.gossip uid false .recovery k i = if within r.suspect i then r.recover k else r := rfl

/-- The first recovery that is accepted leaves no suspicion for another one. -/
lemma gossip_recovery_comm (k : κ) (i j : UInt32) (r : Record κ) :
    (r.gossip uid false .recovery k i).gossip uid false .recovery k j
      = (r.gossip uid false .recovery k j).gossip uid false .recovery k i := by
  simp only [gossip_recovery_eq]
  cases hi : within r.suspect i <;> cases hj : within r.suspect j <;> simp [hi, hj, recover]

lemma mergeActorSystem_of_none {k : κ} {i : UInt32} {r : Record κ} (h : r.member = none)
    (up : Bool) : r.mergeActorSystem up k i = r := by
  simp [mergeActorSystem, h]

lemma mergeActorSystem_of_some {k : κ} {i : UInt32} {r : Record κ} (h : r.member.isSome = true)
    (up : Bool) :
    r.mergeActorSystem up k i
      = if covers r.member i then r
        else ⟨put k i.toInt32 r.member, r.suspect, put k up r.actorSystem⟩ := by
  rw [mergeActorSystem, h]
  cases covers r.member i <;> rfl

/-- News of an actor system count by their incarnation, and commute as long as no two of one
incarnation contradict each other. -/
lemma mergeActorSystem_comm (k : κ) {i j : UInt32} {up up' : Bool} (h : i = j → up = up')
    (r : Record κ) :
    (r.mergeActorSystem up k i).mergeActorSystem up' k j
      = (r.mergeActorSystem up' k j).mergeActorSystem up k i := by
  cases hm : r.member.isSome with
  | false =>
      rw [Option.isSome_eq_false_iff, Option.isNone_iff_eq_none] at hm
      simp only [mergeActorSystem_of_none hm]
  | true =>
      have hsome : ∀ i, (put k (UInt32.toInt32 i) r.member).isSome = true := fun i =>
        isSome_put _ _ _
      have hnext : ∀ {i j up up'}, covers r.member i = true → covers r.member j = false →
          (⟨put k (UInt32.toInt32 j) r.member, r.suspect, put k up r.actorSystem⟩ :
            Record κ).mergeActorSystem up' k i
              = ⟨put k (UInt32.toInt32 j) r.member, r.suspect, put k up r.actorSystem⟩ := by
        intro i j up up' hi hj
        have hcov := covers_raise (k := k) hi j
        rw [raise_of_not_covers hj] at hcov
        rw [mergeActorSystem_of_some (hsome j), if_pos hcov]
      rw [mergeActorSystem_of_some hm, mergeActorSystem_of_some hm]
      cases hi : covers r.member i <;> cases hj : covers r.member j
      · simp only [Bool.false_eq_true, if_false]
        rw [mergeActorSystem_of_some (hsome i), mergeActorSystem_of_some (hsome j)]
        simp only [covers_put, put_put, decide_eq_true_eq]
        by_cases hij : i = j
        · rw [hij, h hij]
        · rcases UInt32.le_total i j with hle | hle
          · have hlt : ¬j ≤ i := fun hle' => hij (UInt32.le_antisymm hle hle')
            simp [hle, hlt]
          · have hlt : ¬i ≤ j := fun hle' => hij (UInt32.le_antisymm hle' hle)
            simp [hle, hlt]
      · simp only [Bool.false_eq_true, if_false, if_true]
        rw [hnext hj hi, mergeActorSystem_of_some hm, hi]
        rfl
      · simp only [Bool.false_eq_true, if_false, if_true]
        rw [hnext hi hj, mergeActorSystem_of_some hm, hj]
        rfl
      · simp only [if_true, mergeActorSystem_of_some hm, hi, hj]

/-! ### Updates after a Down -/

/-- An unknown address is left alone by every update that is not an Up. -/
lemma gossip_of_unknown {kind : MemberStatus} (hkind : kind ≠ .up) (isSelf : Bool) (k : κ)
    (i : UInt32) {r : Record κ} (h : r.isKnown = false) :
    r.gossip uid isSelf kind k i = r := by
  rw [isKnown, Bool.or_eq_false_iff, Option.isSome_eq_false_iff, Option.isNone_iff_eq_none,
    Option.isSome_eq_false_iff, Option.isNone_iff_eq_none] at h
  cases kind with
  | up => exact absurd rfl hkind
  | down => simp [gossip, down, isKnown, h.1, h.2]
  | suspect => simp [gossip, h.1, h.2]
  | recovery => simp [gossip, h.2]
  | actorSystemDown | actorSystemUp => simp [gossip, mergeActorSystem, h.1]

lemma isKnown_down (k : κ) (r : Record κ) : (r.down k).isKnown = false := by
  rw [down]
  cases h : r.isKnown with
  | true => rfl
  | false => exact h

/-- A Down after an update that is not an Up leaves what it would have left before it. -/
lemma down_gossip {kind : MemberStatus} (hkind : kind ≠ .up) (k : κ) (i : UInt32)
    (r : Record κ) : (r.gossip uid false kind k i).down k = r.down k := by
  cases h : r.isKnown with
  | false => rw [gossip_of_unknown uid hkind false k i h]
  | true =>
      have hdown : ∀ r' : Record κ, r'.isKnown = true →
          (r'.actorSystem = r.actorSystem ∨ ∃ up, r'.actorSystem = put k up r.actorSystem) →
            r'.down k = r.down k := by
        intro r' hk hact
        rw [down, down, if_pos hk, if_pos h]
        rcases hact with hact | ⟨up, hact⟩
        · rw [hact]
        · rw [hact, put_put]
      have hsystem : ∀ up, (r.mergeActorSystem up k i).down k = r.down k := by
        intro up
        rw [mergeActorSystem]
        split
        · exact hdown _ (by simp [isKnown]) (Or.inr ⟨up, rfl⟩)
        · rfl
      cases kind with
      | up => exact absurd rfl hkind
      | down =>
          rw [gossip, if_neg Bool.false_ne_true, down, isKnown_down]
          rfl
      | suspect =>
          rw [gossip]
          split_ifs
          · rfl
          · exact hdown _ (by simp [isKnown]) (Or.inl rfl)
          · rw [suspectAt]
            split
            · exact hdown _ (by simp [isKnown]) (Or.inr ⟨false, rfl⟩)
            · rfl
          · rfl
      | recovery =>
          rw [gossip_recovery_eq]
          split
          · exact hdown _ (by simp [isKnown, recover]) (Or.inl rfl)
          · rfl
      | actorSystemDown => exact hsystem false
      | actorSystemUp => exact hsystem true

/-! ### Two updates, and a list of them -/

lemma gossip_actorSystem {kind : MemberStatus} (h : kind.isActorSystem = true) (k : κ)
    (i : UInt32) (r : Record κ) :
    r.gossip uid false kind k i = r.mergeActorSystem (kind == .actorSystemUp) k i := by
  cases kind with
  | actorSystemDown | actorSystemUp => rfl
  | _ => exact absurd h (by decide)

/-- Two updates of compatible kinds about one member commute, those about its actor system as
long as two of one incarnation do not contradict each other. -/
theorem gossip_comm {kind kind' : MemberStatus} (h : kind.compatible kind' = true) (k : κ)
    {i j : UInt32}
    (hij : kind.isActorSystem = true → kind'.isActorSystem = true → i = j → kind = kind')
    (r : Record κ) :
    (r.gossip uid false kind k i).gossip uid false kind' k j
      = (r.gossip uid false kind' k j).gossip uid false kind k i := by
  have hdown : ∀ {kind : MemberStatus} (i j : UInt32), kind ≠ .up →
      (r.gossip uid false .down k i).gossip uid false kind k j
        = (r.gossip uid false kind k j).gossip uid false .down k i := by
    intro kind i j hkind
    rw [show r.gossip uid false .down k i = r.down k from rfl,
      gossip_of_unknown uid hkind false k j (isKnown_down k r)]
    exact (down_gossip uid hkind k j r).symm
  have hsystem : kind.isActorSystem = true → kind'.isActorSystem = true →
      (r.gossip uid false kind k i).gossip uid false kind' k j
        = (r.gossip uid false kind' k j).gossip uid false kind k i := by
    intro hkind hkind'
    simp only [gossip_actorSystem uid hkind, gossip_actorSystem uid hkind']
    exact mergeActorSystem_comm k (fun heq => by rw [hij hkind hkind' heq]) r
  simp only [MemberStatus.compatible, Bool.or_eq_true, Bool.and_eq_true, beq_iff_eq,
    bne_iff_ne] at h
  rcases h with ((rfl | ⟨hkind, hkind'⟩) | ⟨rfl, hkind'⟩) | ⟨rfl, hkind⟩
  · cases kind with
    | up => rw [gossip_up_up, gossip_up_up, up_comm]
    | down => exact hdown i j (by decide)
    | suspect => exact gossip_suspect_comm uid k i j r
    | recovery => exact gossip_recovery_comm uid k i j r
    | actorSystemDown | actorSystemUp => exact hsystem rfl rfl
  · exact hsystem hkind hkind'
  · exact hdown i j hkind'
  · exact (hdown j i hkind).symm

/-- What an update about another node makes of the record of its member. -/
def hear (k : κ) (r : Record κ) (u : UpdateMessage) : Record κ :=
  match u.kind? with
  | some kind => r.gossip uid false kind k u.getIncarnation
  | none => r

end Record

namespace UpdateMessage

/-- The order of the two updates does not matter if they are about one member: their kinds are
compatible, and they do not contradict each other about an actor system at one incarnation. -/
def Compatible (u v : UpdateMessage) : Prop :=
  ∀ kind ∈ u.kind?, ∀ kind' ∈ v.kind?, kind.compatible kind' = true
    ∧ (kind.isActorSystem = true → kind'.isActorSystem = true →
      u.getIncarnation = v.getIncarnation → kind = kind')

/-- The order of updates about one member does not matter: they are pairwise compatible, or
there is a Down among them and no Up. -/
def Harmonious (l : List UpdateMessage) : Prop :=
  (∀ u ∈ l, ∀ v ∈ l, u.Compatible v)
    ∨ (∃ u ∈ l, u.isDownMessage = true) ∧ ∀ u ∈ l, u.isUpMessage = false

end UpdateMessage

namespace Record

variable (uid : κ → String)

lemma hear_comm {u v : UpdateMessage} (h : u.Compatible v) (k : κ) (r : Record κ) :
    (r.hear uid k u).hear uid k v = (r.hear uid k v).hear uid k u := by
  simp only [hear]
  cases hu : u.kind? with
  | none => rfl
  | some kind =>
      cases hv : v.kind? with
      | none => rfl
      | some kind' => exact gossip_comm uid (h kind hu kind' hv).1 k (h kind hu kind' hv).2 r

lemma hear_of_unknown {u : UpdateMessage} (hup : u.isUpMessage = false) (k : κ) {r : Record κ}
    (h : r.isKnown = false) : r.hear uid k u = r := by
  rw [hear]
  cases hu : u.kind? with
  | none => rfl
  | some kind =>
      refine gossip_of_unknown uid ?_ false k _ h
      rintro rfl
      rw [UpdateMessage.isUpMessage, UpdateMessage.hasStatus_iff.mpr hu] at hup
      exact absurd hup (by decide)

lemma down_hear {u : UpdateMessage} (hup : u.isUpMessage = false) (k : κ) (r : Record κ) :
    (r.hear uid k u).down k = r.down k := by
  rw [hear]
  cases hu : u.kind? with
  | none => rfl
  | some kind =>
      refine down_gossip uid ?_ k _ r
      rintro rfl
      rw [UpdateMessage.isUpMessage, UpdateMessage.hasStatus_iff.mpr hu] at hup
      exact absurd hup (by decide)

lemma hear_down {u : UpdateMessage} (h : u.isDownMessage = true) (k : κ) (r : Record κ) :
    r.hear uid k u = r.down k := by
  rw [UpdateMessage.isDownMessage, UpdateMessage.hasStatus_iff] at h
  rw [hear, h]
  rfl

/-- Updates of which one is a Down and none an Up leave the record as the Down alone does. -/
lemma foldl_hear_of_down {l : List UpdateMessage} (hdown : ∃ u ∈ l, u.isDownMessage = true)
    (hup : ∀ u ∈ l, u.isUpMessage = false) (k : κ) (r : Record κ) :
    l.foldl (hear uid k) r = r.down k := by
  have hunknown : ∀ (l : List UpdateMessage) (r : Record κ), (∀ u ∈ l, u.isUpMessage = false) →
      l.foldl (hear uid k) (r.down k) = r.down k := by
    intro l r
    induction l with
    | nil => exact fun _ => rfl
    | cons u l ih =>
        intro hup
        rw [List.foldl_cons, hear_of_unknown uid (hup u List.mem_cons_self) k (isKnown_down k r)]
        exact ih fun v hv => hup v (List.mem_cons_of_mem u hv)
  induction l generalizing r with
  | nil => simp at hdown
  | cons u l ih =>
      have hup' : ∀ v ∈ l, v.isUpMessage = false := fun v hv => hup v (List.mem_cons_of_mem u hv)
      rw [List.foldl_cons]
      cases hu : u.isDownMessage with
      | true => rw [hear_down uid hu, hunknown l r hup']
      | false =>
          have hdown' : ∃ v ∈ l, v.isDownMessage = true := by
            obtain ⟨v, hv, hd⟩ := hdown
            rcases List.mem_cons.mp hv with rfl | hv
            · rw [hu] at hd
              exact absurd hd (by decide)
            · exact ⟨v, hv, hd⟩
          rw [ih hdown' hup', down_hear uid (hup u List.mem_cons_self)]

/-- Harmonious updates about one member end in one record in every order. -/
theorem foldl_hear_perm {l l' : List UpdateMessage} (hperm : l.Perm l')
    (h : UpdateMessage.Harmonious l) (k : κ) (r : Record κ) :
    l.foldl (hear uid k) r = l'.foldl (hear uid k) r := by
  rcases h with h | ⟨⟨u, hu, hdown⟩, hup⟩
  · exact hperm.foldl_eq' (fun u hu v hv r => hear_comm uid (h u hu v hv) k r) r
  · rw [foldl_hear_of_down uid ⟨u, hu, hdown⟩ hup,
      foldl_hear_of_down uid ⟨u, hperm.mem_iff.mp hu, hdown⟩ fun v hv =>
        hup v (hperm.mem_iff.mpr hv)]

end Record

end Cdcf
