import Cdcf.LoadBalancer.Service

/-!
The load balancer, its workers and its clients: every request is answered, once.

* `Service.Sound`: the invariant of all parties.
* `Service.orderly_always`: no request is lost or answered twice, and no worker has more to do than
  the threshold, whatever is overtaken on the way.
* `Service.Busy`, `Service.effort`: a turn of the workers or the router that does something, and a
  measure of what is left to do.
* `Service.all_answered`: once nobody asks any more, as many such turns as that at most are left,
  and then everybody was answered.
-/

namespace Cdcf

namespace LoadBalancer

open Sample

variable {μ ι α : Type*} [MessageId μ] [DecidableEq μ] [DecidableEq ι]

/-! ### Taking one of a list -/

section

variable {β γ : Type*} {l : List β} {k : ℕ} {b : β}

lemma perm_cons_eraseIdx (hk : l[k]? = some b) : l.Perm (b :: l.eraseIdx k) := by
  obtain ⟨hlt, rfl⟩ := List.getElem?_eq_some_iff.mp hk
  exact (List.getElem_cons_eraseIdx_perm hlt).symm

lemma filterMap_cons_eq (f : β → Option γ) (b : β) (l : List β) :
    (b :: l).filterMap f = (f b).toList ++ l.filterMap f := by
  cases hb : f b <;> simp [hb]

/-- Of what is counted, one part goes with the element taken. -/
lemma count_filterMap_eraseIdx [BEq γ] [LawfulBEq γ] (f : β → Option γ) (hk : l[k]? = some b)
    (c : γ) : (l.filterMap f).count c
      = (f b).toList.count c + ((l.eraseIdx k).filterMap f).count c := by
  rw [((perm_cons_eraseIdx hk).filterMap f).count_eq, filterMap_cons_eq, List.count_append]

end

namespace Service

/-- Who waits for an answer: whose request, or the answer to it, is on its way to the router, held
there, or at a worker. -/
def waiting (s : Service μ ι α) : List (ι × μ) :=
  s.inbox.filterMap Letter.tag ++ s.world.router.policy_.mails_.filterMap Mail.tag
    ++ s.working.filterMap (·.mail.tag)

/-- What is known of all parties: what is pending at the router is at a worker, or its answer is on
the way, once; and who has asked waits or was answered. -/
structure Sound [LawfulMessageId μ] (s : Service μ ι α) : Prop where
  serving : s.world.Serving
  fault : s.fault = none
  places : (s.inbox.filterMap Letter.relay? ++ s.working).Perm (pending s.world.log)
  asked : ∀ t, s.asked.count t = s.waiting.count t + s.answered.count t

variable {s : Service μ ι α}

lemma count_waiting (s : Service μ ι α) (t : ι × μ) :
    s.waiting.count t = (s.inbox.filterMap Letter.tag).count t
      + (s.world.router.policy_.mails_.filterMap Mail.tag).count t
      + (s.working.filterMap (·.mail.tag)).count t := by
  rw [waiting, List.count_append, List.count_append]

section

variable [LawfulMessageId μ]

/-- A message is sent to the router. -/
lemma Sound.send (h : s.Sound) (letter : Letter μ ι α) (hrelay : letter.relay? = none) :
    Sound { s with inbox := s.inbox ++ [letter], asked := s.asked ++ letter.tag.toList } where
  serving := h.serving
  fault := h.fault
  places := by
    simpa [List.filterMap_append, filterMap_cons_eq, hrelay] using h.places
  asked := fun t => by
    have hbefore := h.asked t
    rw [count_waiting] at hbefore ⊢
    simp only [List.filterMap_append, filterMap_cons_eq, List.filterMap_nil, List.append_nil,
      List.count_append]
    omega

/-- A worker is done. -/
lemma Sound.work (h : s.Sound) {k : ℕ} {relay : Relay μ ι α} (hk : s.working[k]? = some relay)
    (result : α) :
    Sound { s with
      working := s.working.eraseIdx k
      inbox := s.inbox ++ [.answer relay result] } where
  serving := h.serving
  fault := h.fault
  places := by
    refine List.Perm.trans ?_ h.places
    rw [List.filterMap_append, List.append_assoc]
    exact (perm_cons_eraseIdx hk).symm.append_left _
  asked := fun t => by
    have hbefore := h.asked t
    have hcount := count_filterMap_eraseIdx (fun r : Relay μ ι α => r.mail.tag) hk t
    rw [count_waiting] at hbefore ⊢
    simp only [List.filterMap_append, filterMap_cons_eq, List.filterMap_nil, List.append_nil,
      List.count_append, Letter.tag]
    omega

/-- What a message answers is pending. -/
lemma Sound.relay_pending (h : s.Sound) {k : ℕ} {letter : Letter μ ι α}
    (hk : s.inbox[k]? = some letter) : ∀ r ∈ letter.relay?, r ∈ pending s.world.log := by
  intro r hr
  refine h.places.subset (List.mem_append_left _ (List.mem_filterMap.mpr ⟨letter, ?_, hr⟩))
  exact List.mem_of_getElem? hk

/-- A message reaches the router. -/
lemma Sound.deliver (h : s.Sound) {k : ℕ} {letter : Letter μ ι α}
    (hk : s.inbox[k]? = some letter) {router : Router μ ι α} {effects : List (Effect μ ι α)}
    (hdelivers : s.world.Delivers letter ⟨router, (letter.mail, effects) :: s.world.log⟩ effects) :
    Sound { s with
      world := ⟨router, (letter.mail, effects) :: s.world.log⟩
      inbox := s.inbox.eraseIdx k
      working := s.working ++ effects.filterMap Effect.relay?
      answered := s.answered ++ effects.filterMap Effect.answered? } where
  serving := hdelivers.serving
  fault := h.fault
  places := by
    have hinbox := (perm_cons_eraseIdx hk).filterMap Letter.relay?
    rw [filterMap_cons_eq] at hinbox
    refine (List.perm_append_left_iff letter.relay?.toList).mp ?_
    calc List.Perm (letter.relay?.toList ++ ((s.inbox.eraseIdx k).filterMap Letter.relay?
            ++ (s.working ++ effects.filterMap Effect.relay?)))
          ((letter.relay?.toList ++ (s.inbox.eraseIdx k).filterMap Letter.relay? ++ s.working)
            ++ effects.filterMap Effect.relay?) := by
          simp only [List.append_assoc, List.Perm.refl]
      List.Perm _ (s.inbox.filterMap Letter.relay? ++ s.working
          ++ effects.filterMap Effect.relay?) := (hinbox.symm.append_right _).append_right _
      List.Perm _ (pending s.world.log ++ effects.filterMap Effect.relay?) :=
        h.places.append_right _
      List.Perm _ (effects.filterMap Effect.relay? ++ pending s.world.log) :=
        List.perm_append_comm
      List.Perm _ (letter.relay?.toList
          ++ pending ((letter.mail, effects) :: s.world.log)) := hdelivers.places.symm
  asked := fun t => by
    have hbefore := h.asked t
    have hcount := count_filterMap_eraseIdx Letter.tag hk t
    have htags := hdelivers.tags t
    rw [count_waiting] at hbefore ⊢
    simp only [List.filterMap_append, List.count_append] at *
    omega

/-- Every turn keeps what is known of all parties, and the threshold. -/
lemma Sound.step (h : s.Sound) (turn : ServiceTurn μ ι α) :
    (s.step turn).Sound ∧ (s.step turn).world.router.policy_.loadThresholdToHold_
      = s.world.router.policy_.loadThresholdToHold_ := by
  cases turn with
  | join worker =>
      refine ⟨?_, rfl⟩
      have hsent := h.send (.join worker) rfl
      rwa [show (Letter.join worker : Letter μ ι α).tag.toList = [] from rfl, List.append_nil]
        at hsent
  | ask request => exact ⟨h.send (.ask request) rfl, rfl⟩
  | work k result =>
      rw [Service.step]
      split
      · next relay hk => exact ⟨h.work hk result, rfl⟩
      · exact ⟨h, rfl⟩
  | deliver k =>
      rw [Service.step]
      split
      · next letter hk =>
          obtain ⟨router, effects, hcall, hdelivers⟩ := h.serving.enqueue (h.relay_pending hk)
          rw [hcall]
          exact ⟨h.deliver hk hdelivers, hdelivers.threshold_eq⟩
      · exact ⟨h, rfl⟩

lemma sound_start {loadThresholdToHold : UInt64} (hpos : 1 ≤ loadThresholdToHold) :
    (start loadThresholdToHold : Service μ ι α).Sound where
  serving := World.serving_make hpos
  fault := rfl
  places := List.Perm.refl _
  asked := fun _ => rfl

lemma sound_run {loadThresholdToHold : UInt64} (hpos : 1 ≤ loadThresholdToHold)
    (turns : List (ServiceTurn μ ι α)) :
    Run.Always Service.step (fun s => s.Sound
      ∧ s.world.router.policy_.loadThresholdToHold_ = loadThresholdToHold)
      (start loadThresholdToHold) turns :=
  Run.always_of_inv (fun _ turn hs => ⟨(hs.1.step turn).1, (hs.1.step turn).2.trans hs.2⟩)
    ⟨sound_start hpos, rfl⟩ turns

end

/-- The router has not failed; no worker has more to do than the threshold; and everybody who has
asked waits or was answered, as often as he has asked. -/
structure Orderly (loadThresholdToHold : UInt64) (s : Service μ ι α) : Prop where
  fault : s.fault = none
  limit : ∀ w, s.working.countP (·.worker = w) ≤ loadThresholdToHold.toNat
  asked : s.asked.Perm (s.waiting ++ s.answered)

lemma Sound.orderly [LawfulMessageId μ] (h : s.Sound) :
    s.Orderly s.world.router.policy_.loadThresholdToHold_ where
  fault := h.fault
  limit := fun w => by
    have hle : s.working.countP (·.worker = w) ≤ (pending s.world.log).countP (·.worker = w) := by
      rw [← h.places.countP_eq, List.countP_append]
      exact Nat.le_add_left _ _
    by_cases hw : w ∈ s.world.router.workers_
    · obtain ⟨load, -, hload, hlimit⟩ := h.serving.exact.load w hw
      rw [h.serving.count w hw] at hload
      rw [UInt64.le_iff_toNat_le, hload] at hlimit
      exact Nat.le_trans hle hlimit
    · have hnone : (pending s.world.log).countP (·.worker = w) = 0 :=
        List.countP_eq_zero.mpr fun r hr heq =>
          hw (of_decide_eq_true heq ▸ h.serving.worker r hr)
      omega
  asked := List.perm_iff_count.mpr fun t => by
    rw [List.count_append]
    exact h.asked t

/-- No request is lost or answered twice, and no worker has more to do than the threshold: in every
state of a run in which workers join, clients ask, workers answer, and messages overtake each
other. -/
theorem orderly_always [LawfulMessageId μ] {loadThresholdToHold : UInt64}
    (hpos : 1 ≤ loadThresholdToHold) (turns : List (ServiceTurn μ ι α)) :
    Run.Always Service.step (Orderly loadThresholdToHold) (start loadThresholdToHold) turns :=
  (sound_run hpos turns).imp fun _ hs => hs.2 ▸ hs.1.orderly

/-- Two clients ask before the second worker joins, which overtakes one of them. -/
theorem orderly_always_two :
    Run.Always (Service.step : Service Id ℕ Unit → _ → _) (Orderly 1) (start 1)
      [.join 1, .deliver 0, .ask ⟨7, ask 5, (), rfl⟩, .ask ⟨8, ask 5, (), rfl⟩, .join 2,
        .deliver 0, .deliver 1, .work 0 (), .deliver 0, .deliver 0, .work 0 (), .deliver 0] :=
  orderly_always (by decide) _

/-! ### An end of the work -/

/-- It is the turn of a worker or of the router, which has something to do. -/
def Busy (s : Service μ ι α) : ServiceTurn μ ι α → Prop
  | .work k _ => k < s.working.length
  | .deliver k => k < s.inbox.length
  | _ => False

/-- The turns that a message can still cause. -/
def letterEffort : Letter μ ι α → ℕ
  | .join _ | .answer _ _ => 1
  | .ask _ => 3

/-- The turns that there can still be, if nobody joins or asks. -/
def effort (s : Service μ ι α) : ℕ :=
  (s.inbox.map letterEffort).sum + 2 * s.world.router.policy_.mails_.length
    + 2 * s.working.length

lemma effort_step [LawfulMessageId μ] (h : s.Sound) {turn : ServiceTurn μ ι α}
    (hbusy : s.Busy turn) : (s.step turn).effort + 1 ≤ s.effort := by
  cases turn with
  | join worker => exact absurd hbusy id
  | ask request => exact absurd hbusy id
  | work k result =>
      have hk : k < s.working.length := hbusy
      have hlength := List.length_eraseIdx_of_lt hk
      simp only [Service.step, List.getElem?_eq_getElem hk, effort, List.map_append, List.map_cons,
        List.map_nil, List.sum_append, List.sum_cons, List.sum_nil, letterEffort, hlength]
      omega
  | deliver k =>
      have hk : k < s.inbox.length := hbusy
      have hget := List.getElem?_eq_getElem hk
      obtain ⟨router, effects, hcall, hdelivers⟩ := h.serving.enqueue (h.relay_pending hget)
      have hinbox := ((perm_cons_eraseIdx hget).map letterEffort).sum_nat
      have hplaced : router.policy_.mails_.length + (effects.filterMap Effect.relay?).length
          ≤ s.world.router.policy_.mails_.length + s.inbox[k].placed := hdelivers.placed
      have hletter : 2 * s.inbox[k].placed + 1 ≤ letterEffort s.inbox[k] := by
        cases s.inbox[k] <;> simp [Letter.placed, letterEffort]
      rw [List.map_cons, List.sum_cons] at hinbox
      simp only [Service.step, hget, hcall, effort, List.length_append]
      omega

/-- With nothing on the way and nobody at work, everybody was answered. -/
lemma answered_of_rest [LawfulMessageId μ] (h : s.Sound) (hinbox : s.inbox = [])
    (hworking : s.working = []) : s.answered.Perm s.asked := by
  have hpending : pending s.world.log = [] := by
    have hplaces := h.places
    rw [hinbox, hworking] at hplaces
    exact hplaces.nil_eq.symm
  have hheld : s.world.router.policy_.mails_ = [] := by
    by_contra hne
    exact h.serving.busy hne hpending
  refine List.perm_iff_count.mpr fun t => ?_
  rw [h.asked t, waiting, hinbox, hworking, hheld]
  simp

/-- Everybody is answered: once nobody joins or asks any more, the workers and the router have
something to do for so many turns at most, in whatever order, and when there is nothing left to do,
each request has had its one answer. -/
theorem all_answered [LawfulMessageId μ] [Nonempty α] {loadThresholdToHold : UInt64}
    (hpos : 1 ≤ loadThresholdToHold) (before : List (ServiceTurn μ ι α))
    {after : List (ServiceTurn μ ι α)}
    (hbusy : Run.Each Service.step Busy (Run.run Service.step (start loadThresholdToHold) before)
      after) :
    after.length ≤ (Run.run Service.step (start loadThresholdToHold) before).effort
      ∧ ((∀ turn, ¬(Run.run Service.step (start loadThresholdToHold) (before ++ after)).Busy turn) →
        (Run.run Service.step (start loadThresholdToHold) (before ++ after)).answered.Perm
          (Run.run Service.step (start loadThresholdToHold) (before ++ after)).asked) := by
  have hsound := (sound_run (μ := μ) (ι := ι) (α := α) hpos before).last.1
  constructor
  · have hturn : ∀ n (s : Service μ ι α) turn, s.Sound ∧ s.effort ≤ n → s.Busy turn →
        ∃ n', n = n' + 1 ∧ (s.step turn).Sound ∧ (s.step turn).effort ≤ n' := by
      rintro n s turn ⟨hs, hn⟩ hbusy
      have heffort := effort_step hs hbusy
      exact ⟨n - 1, by omega, (hs.step turn).1, by omega⟩
    obtain ⟨n', hlength, -⟩ := Run.Each.countdown hturn ⟨hsound, Nat.le_refl _⟩ hbusy
    omega
  · intro hidle
    have hrest := (sound_run (μ := μ) (ι := ι) (α := α) hpos (before ++ after)).last.1
    refine answered_of_rest hrest ?_ ?_
    · by_contra hne
      exact hidle (.deliver 0) (List.length_pos_of_ne_nil hne)
    · by_contra hne
      obtain ⟨result⟩ := ‹Nonempty α›
      exact hidle (.work 0 result) (List.length_pos_of_ne_nil hne)

/-- A request is held while the only worker is busy. -/
theorem all_answered_two :
    (Run.run (Service.step : Service Id ℕ Unit → _ → _) (start 1)
        ([.join 1, .deliver 0, .ask ⟨7, ask 5, (), rfl⟩, .deliver 0, .ask ⟨8, ask 5, (), rfl⟩]
          ++ [.deliver 0, .work 0 (), .deliver 0, .work 0 (), .deliver 0])).answered.Perm
      (Run.run (Service.step : Service Id ℕ Unit → _ → _) (start 1)
        ([.join 1, .deliver 0, .ask ⟨7, ask 5, (), rfl⟩, .deliver 0, .ask ⟨8, ask 5, (), rfl⟩]
          ++ [.deliver 0, .work 0 (), .deliver 0, .work 0 (), .deliver 0])).asked := by
  refine (all_answered (by decide) _ ?_).2 ?_
  · exact ⟨Nat.lt_succ_self 0, Nat.lt_succ_self 0, Nat.lt_succ_self 0, Nat.lt_succ_self 0,
      Nat.lt_succ_self 0, trivial⟩
  · rintro (_ | _ | ⟨k, _⟩ | k) hbusy
    · exact hbusy
    · exact hbusy
    · exact Nat.not_lt_zero k hbusy
    · exact Nat.not_lt_zero k hbusy

end Service

end LoadBalancer

end Cdcf
