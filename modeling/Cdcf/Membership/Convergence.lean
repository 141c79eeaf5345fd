import Cdcf.Membership.Commute

/-!
Nodes that receive the same updates in different orders.

Gossip travels over datagrams to random peers, so that two nodes hear the same updates in
different orders.  They end in the same tables when, for every member, the order of the updates
about it does not matter (`deliver_perm`); updates about different members never interfere.
For every pair of kinds that `MemberStatus.compatible` leaves out there are two updates whose
order does matter (`order_matters`).
-/

namespace Cdcf

open Sample

/-! ### Records up to the names of their keys -/

section

variable {κ κ' β : Type*} (f : κ → κ')

lemma map_put (k : κ) (b : β) (o : Option (κ × β)) :
    (put k b o).map (Prod.map f id) = put (f k) b (o.map (Prod.map f id)) := by
  obtain _ | ⟨k', b'⟩ := o <;> rfl

lemma covers_map (o : Option (κ × Int32)) (i : UInt32) :
    covers (o.map (Prod.map f id)) i = covers o i := by
  cases o <;> rfl

lemma within_map (o : Option (κ × Int32)) (i : UInt32) :
    within (o.map (Prod.map f id)) i = within o i := by
  cases o <;> rfl

end

namespace Record

variable {κ κ' : Type*} {uid : κ → String} {uid' : κ' → String} {f : κ → κ'}

/-- A record whose stored keys are replaced by their images. -/
def map (f : κ → κ') (r : Record κ) : Record κ' where
  member := r.member.map (Prod.map f id)
  suspect := r.suspect.map (Prod.map f id)
  actorSystem := r.actorSystem.map (Prod.map f id)

lemma map_mk (m s : Option (κ × Int32)) (a : Option (κ × Bool)) :
    (Record.mk m s a).map f
      = ⟨m.map (Prod.map f id), s.map (Prod.map f id), a.map (Prod.map f id)⟩ := rfl

lemma map_member (r : Record κ) : (r.map f).member = r.member.map (Prod.map f id) := rfl

lemma map_suspect (r : Record κ) : (r.map f).suspect = r.suspect.map (Prod.map f id) := rfl

lemma map_actorSystem (r : Record κ) :
    (r.map f).actorSystem = r.actorSystem.map (Prod.map f id) := rfl

lemma expired_map (hf : ∀ k, uid' (f k) = uid k) (k : κ) (o : Option (κ × Int32)) :
    expired uid' (f k) (o.map (Prod.map f id)) = expired uid k o := by
  cases o <;> simp [expired, hf]

lemma map_ite (c : Prop) [Decidable c] (r r' : Record κ) :
    (if c then r else r').map f = if c then r.map f else r'.map f :=
  apply_ite (map f) c r r'

/-- Gossip looks at the uid of the stored keys only. -/
lemma map_gossip (hf : ∀ k, uid' (f k) = uid k) (isSelf : Bool) (kind : MemberStatus) (k : κ)
    (i : UInt32) (r : Record κ) :
    (r.gossip uid isSelf kind k i).map f = (r.map f).gossip uid' isSelf kind (f k) i := by
  have hsystem : ∀ up, (r.mergeActorSystem up k i).map f
      = (r.map f).mergeActorSystem up (f k) i := by
    intro up
    simp only [mergeActorSystem, map_ite, map_mk, map_member, map_suspect, map_actorSystem,
      covers_map, Option.isSome_map, map_put]
  have hup : ∀ r : Record κ, (r.up k i).map f = (r.map f).up (f k) i := by
    intro r
    simp only [up, map_ite, map_mk, map_member, map_suspect, map_actorSystem, covers_map, map_put]
  have herase : (r.eraseExpired uid k).map f = (r.map f).eraseExpired uid' (f k) := by
    simp only [eraseExpired, map_mk, map_member, map_suspect, map_actorSystem, expired_map hf,
      apply_ite (Option.map _), Option.map_none, map_put]
  have hsuspect : (r.suspectAt k i).map f = (r.map f).suspectAt (f k) i := by
    simp only [suspectAt, map_ite, map_mk, map_member, map_suspect, map_actorSystem,
      Option.isSome_map, Option.map_none, map_put]
  have hrecover : (r.recover k).map f = (r.map f).recover (f k) := by
    simp only [recover, map_mk, map_member, map_suspect, map_actorSystem, Option.map_none, map_put]
    cases r.suspect <;> rfl
  have hdown : (r.down k).map f = (r.map f).down (f k) := by
    have hknown : (r.map f).isKnown = r.isKnown := by
      simp only [isKnown, map_member, map_suspect, Option.isSome_map]
    simp only [down, hknown, map_ite, map_mk, map_actorSystem, Option.map_none, map_put]
  cases kind with
  | up => simp only [gossip, map_ite, hup, herase]
  | down => simp only [gossip, map_ite, hdown]
  | suspect =>
      simp only [gossip, map_ite, hsuspect, map_mk, map_member, map_suspect, map_actorSystem,
        Option.isSome_map, covers_map, within_map, map_put]
  | recovery => simp only [gossip, map_ite, hrecover, map_suspect, within_map]
  | actorSystemDown => exact hsystem false
  | actorSystemUp => exact hsystem true

lemma map_hear (hf : ∀ k, uid' (f k) = uid k) (k : κ) (u : UpdateMessage) (r : Record κ) :
    (r.hear uid k u).map f = (r.map f).hear uid' (f k) u := by
  rw [hear, hear]
  cases u.kind? with
  | none => rfl
  | some kind => exact map_gossip hf false kind k u.getIncarnation r

end Record

/-! ### Deliveries -/

namespace Node

/-- The node after the updates of a list, delivered one after the other. -/
def deliver (s : Node) (us : List UpdateMessage) : Node := us.foldl handleGossip s

/-- The two nodes have the same entries in `members_`, `suspects_` and `member_actor_system_`:
the same addresses, with the same values, under the same uids. -/
def SameTables (s t : Node) : Prop := ∀ a, (s.record a).map Member.uid = (t.record a).map Member.uid

lemma map_hear_uid (m : Member) (u : UpdateMessage) (r : Record Member) :
    (r.hear Member.uid m u).map Member.uid = (r.map Member.uid).hear id m.uid u := by
  have hid : ∀ k : Member, id k.uid = k.uid := fun _ => rfl
  exact Record.map_hear hid m u r

/-- A delivery acts on an address by the updates about it, in their order. -/
lemma record_deliver {s : Node} {us : List UpdateMessage} {a : Address} {uid : String}
    (hother : ∀ u ∈ us, u.getMember.address ≠ s.self.address)
    (huid : ∀ u ∈ us, u.getMember.address = a → u.getMember.uid = uid) :
    ((s.deliver us).record a).map Member.uid
      = (us.filter fun u => u.getMember.address = a).foldl (Record.hear id uid)
          ((s.record a).map Member.uid) := by
  rw [deliver]
  induction us generalizing s with
  | nil => rfl
  | cons u us ih =>
      have hrest := ih (s := s.handleGossip u)
        (fun v hv => by rw [self_handleGossip]; exact hother v (List.mem_cons_of_mem u hv))
        fun v hv => huid v (List.mem_cons_of_mem u hv)
      rw [List.foldl_cons, hrest]
      by_cases ha : u.getMember.address = a
      · have hne : a ≠ s.self.address := ha ▸ hother u List.mem_cons_self
        have hrec : (s.handleGossip u).record a
            = (s.record a).hear Member.uid u.getMember u := by
          rw [record_handleGossip, if_pos ha, decide_eq_false hne]
          cases hk : u.kind? <;> simp only [Record.hear, hk]
        rw [List.filter_cons_of_pos (by simpa using ha), List.foldl_cons, hrec, map_hear_uid,
          huid u List.mem_cons_self ha]
      · rw [List.filter_cons_of_neg (by simpa using ha), record_handleGossip, if_neg ha]

/-- Two nodes in the same state that receive the same updates about others, in whatever orders,
end with the same tables if the updates about each member are harmonious. -/
theorem deliver_perm {s : Node} {us vs : List UpdateMessage} (hperm : us.Perm vs)
    (hother : ∀ u ∈ us, u.getMember.address ≠ s.self.address)
    (huid : ∀ u ∈ us, ∀ v ∈ us, u.getMember.address = v.getMember.address →
      u.getMember.uid = v.getMember.uid)
    (h : ∀ a, UpdateMessage.Harmonious (us.filter fun u => u.getMember.address = a)) :
    (s.deliver us).SameTables (s.deliver vs) := by
  intro a
  obtain ⟨uid, hus⟩ : ∃ uid, ∀ u ∈ us, u.getMember.address = a → u.getMember.uid = uid := by
    by_cases hex : ∃ u ∈ us, u.getMember.address = a
    · obtain ⟨u, hu, ha⟩ := hex
      exact ⟨u.getMember.uid, fun v hv ha' => huid v hv u hu (ha'.trans ha.symm)⟩
    · exact ⟨"", fun u hu ha => absurd ⟨u, hu, ha⟩ hex⟩
  rw [record_deliver hother hus,
    record_deliver (fun u hu => hother u (hperm.mem_iff.mpr hu)) fun u hu =>
      hus u (hperm.mem_iff.mpr hu)]
  exact Record.foldl_hear_perm id (hperm.filter _) (h a) uid _

/-! ### Where the order does matter -/

/-- An update about `nodeB` of each kind. -/
def sampleUpdate (kind : MemberStatus) : UpdateMessage :=
  UpdateMessage.setUpdate kind nodeB (if kind.isActorSystem then 3 else 2)

/-- What `nodeA` may have heard about `nodeB` before: nothing, that it is up, or that it is
suspected. -/
def sampleHistories : List (List Event) :=
  [[], [.gossip (UpdateMessage.initAsUpMessage nodeB 1)],
    [.gossip (UpdateMessage.initAsUpMessage nodeB 1),
      .gossip (UpdateMessage.initAsSuspectMessage nodeB 1)]]

lemma order_shows {kind kind' : MemberStatus} (h : kind.compatible kind' = false) :
    ∃ es ∈ sampleHistories,
      ((Run.run step (start nodeA) es).deliver [sampleUpdate kind, sampleUpdate kind']).members.get?
          nodeB.address
        ≠ ((Run.run step (start nodeA) es).deliver
          [sampleUpdate kind', sampleUpdate kind]).members.get? nodeB.address := by
  revert h
  cases kind <;> cases kind' <;> decide

/-- For every other pair of kinds the order of two updates about one member matters: there are a
state and two updates of these kinds after which it shows. -/
theorem order_matters {kind kind' : MemberStatus} (h : kind.compatible kind' = false) :
    ∃ s u v, Reachable s ∧ u.kind? = some kind ∧ v.kind? = some kind'
      ∧ u.getMember = v.getMember ∧ u.getMember.address ≠ s.self.address
      ∧ ¬(s.deliver [u, v]).SameTables (s.deliver [v, u]) := by
  obtain ⟨es, hes, hne⟩ := order_shows h
  have hself : (Run.run step (start nodeA) es).self = nodeA := by
    rcases List.mem_cons.mp hes with rfl | hes
    · rfl
    rcases List.mem_cons.mp hes with rfl | hes
    · rfl
    rw [List.mem_singleton.mp hes]
    rfl
  refine ⟨Run.run step (start nodeA) es, sampleUpdate kind, sampleUpdate kind',
    ⟨_, es, started_start nodeA rfl, rfl⟩, rfl, rfl, ?_, ?_, fun hsame => hne ?_⟩
  · rw [sampleUpdate, sampleUpdate, UpdateMessage.getMember_setUpdate,
      UpdateMessage.getMember_setUpdate]
  · rw [hself, sampleUpdate, UpdateMessage.getMember_setUpdate]
    decide
  · have hmember := congrArg (fun r => r.member.map Prod.snd) (hsame nodeB.address)
    simpa [Record.map, record, OrderedMap.get?, Option.map_map, Function.comp_def] using hmember

/-- Three Up updates about two nodes end in the same tables in two orders. -/
theorem deliver_perm_nodes :
    ((start nodeA).deliver [UpdateMessage.initAsUpMessage nodeB 1,
        UpdateMessage.initAsUpMessage nodeC 1, UpdateMessage.initAsUpMessage nodeB 2]).SameTables
      ((start nodeA).deliver [UpdateMessage.initAsUpMessage nodeB 2,
        UpdateMessage.initAsUpMessage nodeB 1, UpdateMessage.initAsUpMessage nodeC 1]) := by
  refine deliver_perm (by decide) (by decide) (by decide) fun a => Or.inl fun u hu v hv => ?_
  have hup : ∀ u ∈ [UpdateMessage.initAsUpMessage nodeB 1, UpdateMessage.initAsUpMessage nodeC 1,
      UpdateMessage.initAsUpMessage nodeB 2], u.kind? = some .up := by decide
  intro kind hkind kind' hkind'
  obtain rfl := Option.some.inj (hkind.symm.trans (hup u (List.mem_filter.mp hu).1))
  obtain rfl := Option.some.inj (hkind'.symm.trans (hup v (List.mem_filter.mp hv).1))
  exact ⟨rfl, fun _ _ _ => rfl⟩

/-- An Up update and a Down update about one node leave it up or down, by their order. -/
theorem deliver_order :
    Started (start nodeA)
      ∧ [UpdateMessage.initAsUpMessage nodeB 1, UpdateMessage.initAsDownMessage nodeB 1].Perm
          [UpdateMessage.initAsDownMessage nodeB 1, UpdateMessage.initAsUpMessage nodeB 1]
      ∧ ¬((start nodeA).deliver [UpdateMessage.initAsUpMessage nodeB 1,
            UpdateMessage.initAsDownMessage nodeB 1]).SameTables
          ((start nodeA).deliver [UpdateMessage.initAsDownMessage nodeB 1,
            UpdateMessage.initAsUpMessage nodeB 1]) := by
  refine ⟨started_start nodeA rfl, List.Perm.swap _ _ [], fun h => ?_⟩
  exact absurd (congrArg (fun r => r.member.isSome) (h nodeB.address)) (by decide)

end Node

end Cdcf
