import Cdcf.Membership.Step

/-!
Messages of an earlier life of a process.

A process that restarts comes back under another uid, and `EraseExpiredMember` clears what the
tables hold under the old one.  It tells the two apart only as different: an Up message of the
earlier life clears the record of the later one just as well, and the Down branch of
`HandleGossip` does not look at the uid at all.

* `sparesLaterLife_iff`: what an Up or Down message under one uid does to a record under
  another.
* `sparesLaterLives_iff`: the runs in which no message of an earlier life displaces a later one.
-/

namespace Cdcf

open Sample

/-! ### One address -/

namespace Record

variable {κ : Type*} {uid : κ → String}

/-- What `r` holds under another uid than `k` has stays in `r'`, and the actor system has not
been marked down. -/
structure Spares (uid : κ → String) (k : κ) (r r' : Record κ) : Prop where
  member : ∀ p ∈ r.member, uid p.1 ≠ uid k → r'.member.map (fun q => uid q.1) = some (uid p.1)
  suspect : ∀ p ∈ r.suspect, uid p.1 ≠ uid k → r'.suspect.map (fun q => uid q.1) = some (uid p.1)
  actorSystem : r'.actorSystem.map Prod.snd = some false →
    r.actorSystem.map Prod.snd = some false

lemma Spares.refl (k : κ) (r : Record κ) : Spares uid k r r :=
  ⟨fun _ hp _ => by rw [Option.mem_def.mp hp]; rfl, fun _ hp _ => by rw [Option.mem_def.mp hp]; rfl,
    id⟩

lemma expired_eq_false_iff {k : κ} {o : Option (κ × Int32)} :
    expired uid k o = false ↔ ∀ p ∈ o, uid p.1 = uid k := by
  cases o <;> simp [expired]

/-- A record without another uid has only its actor system to lose. -/
lemma spares_of_not_expired {k : κ} {r r' : Record κ} (hm : expired uid k r.member = false)
    (hs : expired uid k r.suspect = false)
    (h : r'.actorSystem.map Prod.snd = some false → r.actorSystem.map Prod.snd = some false) :
    Spares uid k r r' :=
  ⟨fun p hp hne => absurd (expired_eq_false_iff.mp hm p hp) hne,
    fun p hp hne => absurd (expired_eq_false_iff.mp hs p hp) hne, h⟩

/-- An Up message spares what is not under another uid, and nothing else. -/
lemma spares_eraseExpired_up {k : κ} {i : UInt32} {r : Record κ} :
    Spares uid k r ((r.eraseExpired uid k).up k i)
      ↔ expired uid k r.member = false ∧ expired uid k r.suspect = false := by
  obtain ⟨hsus, hact, hmem⟩ := up_cases k i (r.eraseExpired uid k)
  constructor
  · intro h
    constructor
    · by_contra hexp
      rw [Bool.not_eq_false] at hexp
      have herase : (r.eraseExpired uid k).member = none := by simp [eraseExpired, hexp]
      cases hm : r.member with
      | none => simp [hm, expired] at hexp
      | some p =>
          have hne : uid p.1 ≠ uid k := by simpa [hm, expired] using hexp
          have hkept := h.member p hm hne
          rcases hmem with hmem | hmem
          · simp [hmem, herase] at hkept
          · rw [hmem, herase, put_none, Option.map_some, Option.some.injEq] at hkept
            exact hne hkept.symm
    · by_contra hexp
      rw [Bool.not_eq_false] at hexp
      cases hs : r.suspect with
      | none => simp [hs, expired] at hexp
      | some p =>
          have hkept := h.suspect p hs (by simpa [hs, expired] using hexp)
          rw [hsus] at hkept
          simp [eraseExpired, hexp] at hkept
  · rintro ⟨hm, hs⟩
    refine spares_of_not_expired hm hs ?_
    rw [hact]
    simp [eraseExpired, hm, hs]

/-- A Down message spares what it finds only when that is nothing. -/
lemma spares_down {k : κ} {r : Record κ} :
    Spares uid k r (r.down k)
      ↔ expired uid k r.member = false ∧ expired uid k r.suspect = false
        ∧ (r.isKnown = true → r.actorSystem.map Prod.snd = some false) := by
  rw [down]
  cases hk : r.isKnown with
  | false =>
      rw [isKnown, Bool.or_eq_false_iff, Option.isSome_eq_false_iff, Option.isNone_iff_eq_none,
        Option.isSome_eq_false_iff, Option.isNone_iff_eq_none] at hk
      refine iff_of_true (by simpa using Spares.refl k r) ?_
      simp [hk.1, hk.2, expired]
  | true =>
      rw [if_pos rfl]
      constructor
      · intro h
        refine ⟨expired_eq_false_iff.mpr fun p hp => ?_, expired_eq_false_iff.mpr fun p hp => ?_,
          fun _ => h.actorSystem (map_snd_put _ _ _)⟩
        · by_contra hne
          exact absurd (h.member p hp hne) (by simp)
        · by_contra hne
          exact absurd (h.suspect p hp hne) (by simp)
      · rintro ⟨hm, hs, hflag⟩
        exact spares_of_not_expired hm hs fun _ => hflag rfl

end Record

/-! ### The tables of a node -/

namespace Node

/-- The uid under which a table holds an address. -/
def heldUid (table : MemberMap Int32) (a : Address) : Option String :=
  (table.find? a).map fun p => p.1.uid

/-- A table holds the address under the uid. -/
def Holds (s : Node) (a : Address) (uid : String) : Prop :=
  heldUid s.members a = some uid ∨ heldUid s.suspects a = some uid

/-- In the run over `es`, a record of the address under `uid` has been replaced by a record
under another uid. -/
def HasReplaced (s₀ : Node) (es : List Event) (a : Address) (uid : String) : Prop :=
  ∃ es₁ es₂ es₃ uid', es = es₁ ++ es₂ ++ es₃ ∧ uid' ≠ uid
    ∧ (Run.run step s₀ es₁).Holds a uid
    ∧ ¬(Run.run step s₀ (es₁ ++ es₂)).Holds a uid ∧ (Run.run step s₀ (es₁ ++ es₂)).Holds a uid'

/-- The message neither removes from `members_` or `suspects_` nor replaces what they hold under
another uid than its own, and it does not mark the actor system of the member down. -/
def SparesLaterLife (s : Node) (u : UpdateMessage) : Prop :=
  (∀ uid ∈ heldUid s.members u.getMember.address, uid ≠ u.getMember.uid →
      heldUid (s.step (.gossip u)).members u.getMember.address = some uid)
    ∧ (∀ uid ∈ heldUid s.suspects u.getMember.address, uid ≠ u.getMember.uid →
      heldUid (s.step (.gossip u)).suspects u.getMember.address = some uid)
    ∧ ((s.step (.gossip u)).memberActorSystem.get? u.getMember.address = some false →
      s.memberActorSystem.get? u.getMember.address = some false)

/-- The message is about the node itself, or the tables hold nothing under another uid and, of a
Down message, nothing at all unless the actor system is down already. -/
def FindsNoLaterLife (s : Node) (u : UpdateMessage) : Prop :=
  u.getMember.address = s.self.address
    ∨ isExpired s.members u.getMember = false ∧ isExpired s.suspects u.getMember = false
      ∧ (u.isDownMessage → s.ifBelongsToMembers u.getMember ∨ s.ifBelongsToSuspects u.getMember →
        s.memberActorSystem.get? u.getMember.address = some false)

lemma sparesLaterLife_eq {s : Node} {u : UpdateMessage} :
    s.SparesLaterLife u
      ↔ (s.record u.getMember.address).Spares Member.uid u.getMember
          (s.effect (.gossip u) u.getMember.address (s.record u.getMember.address)) := by
  have hcongr : ∀ (o o' : Option (Member × Int32)),
      (∀ uid ∈ o.map (fun p => p.1.uid), uid ≠ u.getMember.uid →
          o'.map (fun p => p.1.uid) = some uid)
        ↔ ∀ p ∈ o, p.1.uid ≠ u.getMember.uid → o'.map (fun q => q.1.uid) = some p.1.uid := by
    intro o o'
    cases o <;> simp
  rw [← record_step, SparesLaterLife]
  constructor
  · rintro ⟨hm, hs, hflag⟩
    exact ⟨(hcongr _ _).mp hm, (hcongr _ _).mp hs, hflag⟩
  · rintro ⟨hm, hs, hflag⟩
    exact ⟨(hcongr _ _).mpr hm, (hcongr _ _).mpr hs, hflag⟩

/-- An Up or Down message displaces no record under another uid, and marks no actor system
down, exactly when it finds neither. -/
lemma sparesLaterLife_iff {s : Node} {u : UpdateMessage} (h : u.isUpMessage ∨ u.isDownMessage) :
    s.SparesLaterLife u ↔ s.FindsNoLaterLife u := by
  rw [UpdateMessage.isUpMessage, UpdateMessage.isDownMessage, UpdateMessage.hasStatus_iff,
    UpdateMessage.hasStatus_iff] at h
  rw [sparesLaterLife_eq, FindsNoLaterLife, UpdateMessage.isDownMessage,
    UpdateMessage.hasStatus_iff, effect, if_pos rfl, isExpired_eq, isExpired_eq,
    ifBelongsToMembers_eq, ifBelongsToSuspects_eq]
  by_cases hself : u.getMember.address = s.self.address
  · refine iff_of_true ?_ (Or.inl hself)
    rcases h with h | h <;> simpa [h, hself, Record.gossip] using Record.Spares.refl _ _
  · rcases h with h | h
    · simp only [h, hself, Record.gossip, decide_false, Bool.false_eq_true, if_false, false_or,
        Option.some.injEq, reduceCtorEq, false_imp_iff, and_true, Record.spares_eraseExpired_up]
      rfl
    · simp only [h, hself, Record.gossip, decide_false, Bool.false_eq_true, if_false, false_or,
        true_imp_iff, Record.spares_down, Record.isKnown, Bool.or_eq_true]
      rfl

/-- No message of an earlier life that arrives in the run displaces a later one: whenever the
record of a member under one uid has been replaced by a record under another, the Up and Down
messages under the first uid spare what the tables hold. -/
def SparesLaterLives (s₀ : Node) (es : List Event) : Prop :=
  ∀ es₁ u es₂, es = es₁ ++ .gossip u :: es₂ → u.isUpMessage ∨ u.isDownMessage →
    s₀.HasReplaced es₁ u.getMember.address u.getMember.uid →
      (Run.run step s₀ es₁).SparesLaterLife u

/-- Throughout a run no Up or Down message of an earlier life displaces a later one exactly when
each that arrives finds none. -/
theorem sparesLaterLives_iff (s₀ : Node) (es : List Event) :
    s₀.SparesLaterLives es
      ↔ ∀ es₁ u es₂, es = es₁ ++ .gossip u :: es₂ → u.isUpMessage ∨ u.isDownMessage →
          s₀.HasReplaced es₁ u.getMember.address u.getMember.uid →
            (Run.run step s₀ es₁).FindsNoLaterLife u := by
  refine forall₃_congr fun es₁ u es₂ => imp_congr_right fun _ => ?_
  exact forall_congr' fun hkind => imp_congr_right fun _ => sparesLaterLife_iff hkind

/-- A second node restarts, and an Up message of its earlier life arrives late: the record of
the later life is gone. -/
theorem laterLife_displaced :
    Started (start nodeA)
      ∧ ¬(start nodeA).SparesLaterLives
          [.gossip (UpdateMessage.initAsUpMessage nodeB 1),
            .gossip (UpdateMessage.initAsUpMessage { nodeB with uid := "b2" } 1),
            .gossip (UpdateMessage.initAsUpMessage nodeB 2)] := by
  refine ⟨started_start nodeA rfl, fun h => ?_⟩
  have hreplaced : (start nodeA).HasReplaced
      [.gossip (UpdateMessage.initAsUpMessage nodeB 1),
        .gossip (UpdateMessage.initAsUpMessage { nodeB with uid := "b2" } 1)]
      nodeB.address nodeB.uid :=
    ⟨[.gossip (UpdateMessage.initAsUpMessage nodeB 1)],
      [.gossip (UpdateMessage.initAsUpMessage { nodeB with uid := "b2" } 1)], [], "b2", rfl,
      by decide, Or.inl rfl, by rw [Holds]; decide, Or.inl rfl⟩
  have hspares := h [_, _] (UpdateMessage.initAsUpMessage nodeB 2) [] rfl (Or.inl rfl) hreplaced
  exact absurd (hspares.1 "b2" rfl (by decide)) (by decide)

end Node

end Cdcf
