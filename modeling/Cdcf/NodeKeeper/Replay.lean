import Mathlib.Data.List.Chain
import Cdcf.NodeKeeper.MemberEvent

/-!
What the events about actor systems tell a reader that has nothing else.

`generateEventForActorSystem` goes through the new map only and takes a missing member for one that
is down, so that a member whose entry goes away while it is `true` gets no event.

* `actorSystemTypes`: the events about one actor system; `actorSystemTypes_update`: those of one
  `Update`.
* `told_always_iff`: the last events tell the last map, and no event is repeated, throughout a run
  exactly when no member that is up loses its entry.
-/

namespace Cdcf

open Sample

/-- The event is about the actor system at `a`. -/
def MemberEvent.isActorSystemAt (a : Address) (event : MemberEvent) : Bool :=
  decide (event.member.address = a)
    && (event.type == .actorSystemDown || event.type == .actorSystemUp)

/-- The types of the events about the actor system at `a`, in their order. -/
def actorSystemTypes (a : Address) (events : List MemberEvent) : List MemberEventType :=
  (events.filter (MemberEvent.isActorSystemAt a)).map MemberEvent.type

/-- The generator, and the events it has returned so far. -/
structure Replay where
  generator : MemberEventGenerator := {}
  emitted : List MemberEvent := []

namespace Replay

/-- One call of `MemberEventGenerator::Update`. -/
def step (r : Replay) (latest : List Member × MemberMap Bool) : Replay :=
  let (events, generator) := r.generator.update latest.1 latest.2
  ⟨generator, r.emitted ++ events⟩

/-- The last map sends the actor system at `a` to true. -/
def isUp (r : Replay) (a : Address) : Bool :=
  r.generator.memberActorSystems.get? a == some true

/-- The actor systems whose last event is an Up are those the last map sends to true, and no two
events about one actor system in a row are of the same type. -/
def Told (r : Replay) : Prop :=
  ∀ a, ((actorSystemTypes a r.emitted).getLast? = some .actorSystemUp ↔ r.isUp a = true)
    ∧ (actorSystemTypes a r.emitted).IsChain (· ≠ ·)

/-- Every actor system that is up still has an entry. -/
def KeepsUp (r : Replay) (latest : List Member × MemberMap Bool) : Prop :=
  ∀ a, r.isUp a = true → latest.2.contains a = true

end Replay

/-! ### The events of one update -/

/-- The type of the event about an actor system that is up or down now. -/
def actorSystemType (up : Bool) : MemberEventType :=
  if up then .actorSystemUp else .actorSystemDown

lemma actorSystemTypes_append (a : Address) (events events' : List MemberEvent) :
    actorSystemTypes a (events ++ events')
      = actorSystemTypes a events ++ actorSystemTypes a events' := by
  rw [actorSystemTypes, List.filter_append, List.map_append]
  rfl

/-- The events about members are not about actor systems. -/
lemma actorSystemTypes_generateEventForMember (g : MemberEventGenerator) (members : List Member)
    (a : Address) : actorSystemTypes a (g.generateEventForMember members) = [] := by
  rw [actorSystemTypes, List.map_eq_nil_iff, List.filter_eq_nil_iff]
  intro event hevent
  rcases List.mem_append.mp hevent with h | h
  · obtain ⟨m, -, rfl⟩ := List.mem_map.mp h
    simp [MemberEvent.isActorSystemAt]
  · obtain ⟨m, -, rfl⟩ := List.mem_map.mp h
    simp [MemberEvent.isActorSystemAt]

/-- An update reports an actor system that the new map has another way than the old one, which is
down where it has no entry. -/
lemma actorSystemTypes_update (g : MemberEventGenerator) (members : List Member)
    (flags : MemberMap Bool) (a : Address) :
    actorSystemTypes a (g.update members flags).1
      = (flags.get? a).elim [] fun up =>
          if up = (g.memberActorSystems.get? a).getD false then [] else [actorSystemType up] := by
  have hround : ∀ l : List (Member × Bool),
      actorSystemTypes a (l.filterMap fun p =>
          if p.2 != (g.memberActorSystems.get? p.1.address).getD false then
            some ⟨actorSystemType p.2, p.1⟩
          else none)
        = (l.filter fun p => p.1.address = a).flatMap fun p =>
            if p.2 = (g.memberActorSystems.get? a).getD false then []
            else [actorSystemType p.2] := by
    intro l
    induction l with
    | nil => rfl
    | cons p l ih =>
        obtain ⟨m, up⟩ := p
        rw [List.filterMap_cons]
        by_cases hm : m.address = a
        · subst hm
          rw [List.filter_cons_of_pos (by simp), List.flatMap_cons, ← ih]
          by_cases hup : up = (g.memberActorSystems.get? m.address).getD false
          · simp [hup]
          · have htype : ∀ up : Bool, MemberEvent.isActorSystemAt m.address
                ⟨actorSystemType up, m⟩ = true := by
              intro up
              cases up <;> simp [MemberEvent.isActorSystemAt, actorSystemType]
            simp [hup, actorSystemTypes, htype]
        · have htype : ∀ type, MemberEvent.isActorSystemAt a ⟨type, m⟩ = false := fun type => by
            simp [MemberEvent.isActorSystemAt, hm]
          rw [List.filter_cons_of_neg (by simpa using hm), ← ih]
          dsimp only
          by_cases hup : up = (g.memberActorSystems.get? m.address).getD false
          · simp [hup]
          · simp [hup, actorSystemTypes, htype]
  have hentries := hround flags.entries
  rw [OrderedMap.filter_entries flags a] at hentries
  rw [MemberEventGenerator.update, actorSystemTypes_append,
    actorSystemTypes_generateEventForMember, List.nil_append, OrderedMap.get?]
  refine hentries.trans ?_
  cases flags.find? a with
  | none => rfl
  | some p => simp

/-! ### A run of updates -/

namespace Replay

lemma isUp_step (r : Replay) (latest : List Member × MemberMap Bool) (a : Address) :
    (r.step latest).isUp a = (latest.2.get? a == some true) := rfl

/-- The events after an update. -/
lemma actorSystemTypes_step (r : Replay) (latest : List Member × MemberMap Bool) (a : Address) :
    actorSystemTypes a (r.step latest).emitted
      = actorSystemTypes a r.emitted
        ++ (latest.2.get? a).elim [] fun up =>
          if up = r.isUp a then [] else [actorSystemType up] := by
  have hup : r.isUp a = (r.generator.memberActorSystems.get? a).getD false := by
    rw [isUp]
    rcases r.generator.memberActorSystems.get? a with _ | _ | _ <;> rfl
  rw [hup, ← actorSystemTypes_update r.generator latest.1 latest.2 a, ← actorSystemTypes_append]
  rfl

/-- An update is told exactly when it takes away no entry of an actor system that is up. -/
lemma told_step {r : Replay} (h : r.Told) (latest : List Member × MemberMap Bool) :
    (r.step latest).Told ↔ r.KeepsUp latest := by
  constructor
  · intro hstep a hup
    by_contra hgone
    -- nothing is reported, and the last event is still an Up
    have hnone : latest.2.get? a = none := by
      rw [OrderedMap.get?, OrderedMap.contains_eq_false.mp (Bool.eq_false_iff.mpr hgone)]
      rfl
    have hsame : actorSystemTypes a (r.step latest).emitted = actorSystemTypes a r.emitted := by
      rw [actorSystemTypes_step, hnone, Option.elim_none, List.append_nil]
    have hlast := (hstep a).1.mp (hsame ▸ (h a).1.mpr hup)
    rw [isUp_step, hnone] at hlast
    exact absurd hlast Bool.false_ne_true
  · intro hkeeps a
    obtain ⟨hlast, hchain⟩ := h a
    rw [isUp_step, actorSystemTypes_step]
    cases hget : latest.2.get? a with
    | none =>
        have hdown : r.isUp a = false := by
          by_contra hup
          have hin := hkeeps a (Bool.eq_true_of_not_eq_false hup)
          rw [OrderedMap.get?, Option.map_eq_none_iff] at hget
          rw [OrderedMap.contains, hget] at hin
          exact absurd hin Bool.false_ne_true
        rw [Option.elim_none, List.append_nil, hlast, hdown]
        exact ⟨by decide, hchain⟩
    | some up =>
        rw [Option.elim_some]
        by_cases hsame : up = r.isUp a
        · rw [if_pos hsame, List.append_nil, hlast, ← hsame]
          exact ⟨by simp, hchain⟩
        · rw [if_neg hsame, List.getLast?_concat]
          refine ⟨by cases up <;> decide, hchain.append (List.isChain_singleton _) ?_⟩
          rintro type htype _ ⟨rfl⟩ rfl
          cases up with
          | true => exact hsame (hlast.mp htype).symm
          | false =>
              have hup := hlast.mpr (Bool.eq_true_of_not_eq_false (Ne.symm hsame))
              rw [hup] at htype
              exact absurd htype (by decide)

/-- The events of actor systems tell the last map after each update, and none is repeated, exactly
when in no update an actor system that is up loses its entry. -/
theorem told_always_iff (updates : List (List Member × MemberMap Bool)) :
    Run.Always step Told {} updates ↔ Run.Each step KeepsUp {} updates := by
  have htold : Told {} := fun a => by simp [actorSystemTypes, isUp, OrderedMap.get?]
  exact Run.always_iff_each_of_iff (P := Told) (C := KeepsUp)
    (fun _ latest h => told_step h latest) htold updates

/-- What the node keeper passes to `Update` for a node. -/
def ofNode (s : Node) : List Member × MemberMap Bool := (s.getMembers, s.getActorSystems)

/-- A node whose actor system goes down erases its entry: for a reader of the events it stays
up. -/
theorem told_lost :
    ¬Run.Always step Told {}
      [ofNode ((start nodeA).step .setSelfActorSystemUp),
        ofNode (((start nodeA).step .setSelfActorSystemUp).step .notifyActorSystemDown)] := by
  intro h
  have hdown := (h.last nodeA.address).1.mp (by decide)
  exact absurd hdown (by decide)

end Replay

end Cdcf
