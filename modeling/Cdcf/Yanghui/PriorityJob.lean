import Cdcf.Yanghui.WithPriority
import Cdcf.Yanghui.Workers

/-!
The job that is done twice, with high priority and without (`yanghui_priority_job_actor_fun` of
`yanghui_server.cc`, `yanghui_job_dispatcher` of `yanghui_with_priority.cc`).

The dispatcher gives the table to two actors and reports both results, in the order in which they
came.  The job is good where the one with high priority came first and both are the same.

* `PriorityJob`, `PriorityJob.step`: the four actors, what is on its way to each, and one turn.
* `Stage`: where the job is, and how many turns are left.
* `answers_always`: in every order of the turns, who has asked gets the result of `LocalYanghuiJob`,
  or hears that the job was not good.
* `answered_of_ask`: after so many turns, whatever their order.
-/

namespace Cdcf

namespace Yanghui

open WithPriority

/-! ### The actors -/

/-- One of the two actors that count, with its pool. -/
structure Target where
  state : State := {}
  mail : List Mail := []

/-- What is on its way to the dispatcher. -/
inductive DispatcherMail where
  | triangle (data : Table)
  | finished (isHighPriority : Bool) (result : ℤ)

/-- What is on its way to the actor of the job. -/
inductive JobMail (κ : Type) where
  | ask (client : κ) (data : Table)
  | results (result : List (Bool × ℤ))

/-- The actors of the job, what is on its way to them, and who has asked and who was answered. -/
structure PriorityJob (κ : Type) where
  messageSender : Option κ := none
  toJob : List (JobMail κ) := []
  result : List (Bool × ℤ) := []
  toDispatcher : List DispatcherMail := []
  target : Bool → Target := fun _ => {}
  asked : List (κ × Table) := []
  answered : List (κ × Bool × ℤ) := []

/-- What can happen next. -/
inductive PriorityTurn (κ : Type) where
  /-- A client asks. -/
  | ask (client : κ) (data : Table)
  | job (k : ℕ)
  | dispatcher (k : ℕ)
  /-- A turn of one of the two actors, or of its pool. -/
  | target (isHighPriority : Bool) (k : ℕ)

/-- What the actor of the job makes of the results. -/
def judge : List (Bool × ℤ) → Except Exit (Bool × ℤ)
  | first :: second :: others =>
      if others ≠ [] ∨ first.1 = false ∨ first.2 ≠ second.2 then return (false, 0)
      else return (true, first.2)
  | _ => throw .undefined

namespace PriorityJob

variable {κ : Type}

/-- A mail reaches the actor of the job. -/
def receiveJob (s : PriorityJob κ) : JobMail κ → Except Exit (PriorityJob κ)
  | .ask client data =>
      return { s with
        messageSender := some client
        toDispatcher := s.toDispatcher ++ [.triangle data] }
  | .results result => do
      let r ← judge result
      return { s with answered := s.answered ++ s.messageSender.toList.map (·, r) }

/-- A mail reaches the dispatcher. -/
def receiveDispatcher (s : PriorityJob κ) : DispatcherMail → PriorityJob κ
  | .triangle data =>
      { s with
        target := fun p => { s.target p with mail := (s.target p).mail ++ [.triangle data] } }
  | .finished isHighPriority r =>
      let result := s.result ++ [(isHighPriority, r)]
      if result.length = 2 then { s with result := [], toJob := s.toJob ++ [.results result] }
      else { s with result := result }

/-- One turn. -/
def step (s : PriorityJob κ) : PriorityTurn κ → Except Exit (PriorityJob κ)
  | .ask client data =>
      return { s with
        toJob := s.toJob ++ [.ask client data]
        asked := s.asked ++ [(client, data)] }
  | .job k =>
      match s.toJob[k]? with
      | some mail => receiveJob { s with toJob := s.toJob.eraseIdx k } mail
      | none => return s
  | .dispatcher k =>
      match s.toDispatcher[k]? with
      | some mail =>
          return receiveDispatcher { s with toDispatcher := s.toDispatcher.eraseIdx k } mail
      | none => return s
  | .target p k =>
      match (s.target p).mail[k]? with
      | some mail => do
          let (state, sent, answer) ← receive (s.target p).state mail
          return { s with
            target := Function.update s.target p ⟨state, (s.target p).mail.eraseIdx k ++ sent⟩
            toDispatcher := s.toDispatcher ++ answer.toList.map (.finished p) }
      | none => return s

/-- One turn more, unless one before has failed. -/
def go (s : Except Exit (PriorityJob κ)) (t : PriorityTurn κ) : Except Exit (PriorityJob κ) := do
  step (← s) t

/-- Nothing is on its way to anybody. -/
structure AtRest (s : PriorityJob κ) : Prop where
  toJob : s.toJob = []
  toDispatcher : s.toDispatcher = []
  target : ∀ p, (s.target p).mail = []

/-- There is something to do in this turn. -/
def Busy (s : PriorityJob κ) : PriorityTurn κ → Prop
  | .ask _ _ => False
  | .job k => k < s.toJob.length
  | .dispatcher k => k < s.toDispatcher.length
  | .target p k => k < (s.target p).mail.length

lemma atRest_def (s : PriorityJob κ) :
    s.AtRest ↔ s.toJob = [] ∧ s.toDispatcher = [] ∧ ∀ p, (s.target p).mail = [] :=
  ⟨fun h => ⟨h.toJob, h.toDispatcher, h.target⟩, fun ⟨hjob, hdispatcher, htarget⟩ =>
    ⟨hjob, hdispatcher, htarget⟩⟩

instance (s : PriorityJob κ) : Decidable s.AtRest := decidable_of_iff' _ s.atRest_def

instance (s : PriorityJob κ) : ∀ t, Decidable (s.Busy t)
  | .ask _ _ => inferInstanceAs (Decidable False)
  | .job k => inferInstanceAs (Decidable (k < _))
  | .dispatcher k => inferInstanceAs (Decidable (k < _))
  | .target _ k => inferInstanceAs (Decidable (k < _))

/-! ### Where the job is -/

/-- An answer is for who has asked: the result of `LocalYanghuiJob`, or that the job was not
good. -/
def Right (asking : κ × Table) (answer : κ × Bool × ℤ) : Prop :=
  answer.1 = asking.1
    ∧ (answer.2.1 = true ∧ some answer.2.2 = localResult asking.2
      ∨ answer.2.1 = false ∧ answer.2.2 = 0)

/-- The client waits for an answer, and those before have theirs. -/
def Waits (client : κ) (data : Table) (s : PriorityJob κ) : Prop :=
  Suitable data ∧ ∃ before, s.asked = before ++ [(client, data)]
    ∧ List.Forall₂ Right before s.answered

/-- The two actors and the dispatcher are ready for the next table. -/
structure Ready (s : PriorityJob κ) : Prop where
  result : s.result = []
  fresh : ∀ p, (s.target p).state.Fresh
  mail : ∀ p, (s.target p).mail = []

/-- The two actors are at work, with so many turns left; the results that are there and those that
are on their way are right, and there is one of each actor that is done. -/
structure Working (data : Table) (turns : Bool → ℕ) (arriving : List (Bool × ℤ))
    (s : PriorityJob κ) : Prop where
  toJob : s.toJob = []
  toDispatcher : s.toDispatcher = arriving.map fun q => .finished q.1 q.2
  phase : ∀ p, Phase data (turns p) (s.target p).state (s.target p).mail
  nodup : ((s.result ++ arriving).map Prod.fst).Nodup
  finished : ∀ p, p ∈ (s.result ++ arriving).map Prod.fst ↔ turns p = 0
  right : ∀ q ∈ s.result ++ arriving, IsAnswer data q.2
  short : s.result.length < 2

/-- Where the job is, and the number of turns that are left. -/
inductive Stage : ℕ → PriorityJob κ → Prop
  | rest {s : PriorityJob κ} (hready : s.Ready) (hjob : s.toJob = [])
      (hdispatcher : s.toDispatcher = []) (h : List.Forall₂ Right s.asked s.answered) : Stage 0 s
  | asked {s : PriorityJob κ} {client : κ} {data : Table} (hwaits : Waits client data s)
      (hready : s.Ready) (hjob : s.toJob = [.ask client data]) (hdispatcher : s.toDispatcher = []) :
      Stage (2 * ((data.length + 1) * (data.length + 1)) + 5) s
  | dispatched {s : PriorityJob κ} {client : κ} {data : Table} (hwaits : Waits client data s)
      (hsender : s.messageSender = some client) (hready : s.Ready) (hjob : s.toJob = [])
      (hdispatcher : s.toDispatcher = [.triangle data]) :
      Stage (2 * ((data.length + 1) * (data.length + 1)) + 4) s
  | working {s : PriorityJob κ} {client : κ} {data : Table} {turns : Bool → ℕ}
      {arriving : List (Bool × ℤ)} (h : Working data turns arriving s)
      (hwaits : Waits client data s) (hsender : s.messageSender = some client) :
      Stage (turns false + turns true + (2 - s.result.length) + 1) s
  | reported {s : PriorityJob κ} {client : κ} {data : Table} {result : List (Bool × ℤ)}
      {r : Bool × ℤ} (hwaits : Waits client data s) (hsender : s.messageSender = some client)
      (hready : s.Ready) (hjob : s.toJob = [.results result]) (hdispatcher : s.toDispatcher = [])
      (hjudge : judge result = .ok r) (hright : Right (client, data) (client, r)) : Stage 1 s

/-- The turn comes to the next stage. -/
def Proceeds (n : ℕ) (s : PriorityJob κ) (t : PriorityTurn κ) : Prop :=
  ∃ n' s', n = n' + 1 ∧ s.step t = .ok s' ∧ Stage n' s' ∧ s'.asked = s.asked

variable {s : PriorityJob κ} {client : κ} {data : Table} {turns : Bool → ℕ}
  {arriving : List (Bool × ℤ)} {k : ℕ}

/-! ### The turns -/

/-- The table goes to the dispatcher. -/
lemma proceeds_ask (hwaits : Waits client data s) (hready : s.Ready)
    (hjob : s.toJob = [.ask client data]) (hdispatcher : s.toDispatcher = []) :
    Proceeds (2 * ((data.length + 1) * (data.length + 1)) + 5) s (.job 0) := by
  refine ⟨_, { s with
      toJob := []
      messageSender := some client
      toDispatcher := [.triangle data] }, rfl, ?_, ?_, rfl⟩
  · simp only [step, hjob, hdispatcher]
    rfl
  · exact Stage.dispatched hwaits rfl ⟨hready.result, hready.fresh, hready.mail⟩ rfl rfl

/-- The table goes to both actors. -/
lemma proceeds_triangle (hwaits : Waits client data s) (hsender : s.messageSender = some client)
    (hready : s.Ready) (hjob : s.toJob = []) (hdispatcher : s.toDispatcher = [.triangle data]) :
    Proceeds (2 * ((data.length + 1) * (data.length + 1)) + 4) s (.dispatcher 0) := by
  have hworking : Working data (fun _ => (data.length + 1) * (data.length + 1)) []
      (receiveDispatcher { s with toDispatcher := [] } (.triangle data)) :=
    { toJob := hjob
      toDispatcher := rfl
      phase := by
        intro p
        change Phase data _ (s.target p).state ((s.target p).mail ++ [.triangle data])
        rw [hready.mail p]
        exact Phase.asked (hready.fresh p)
      nodup := by simp [receiveDispatcher, hready.result]
      finished := by simp [receiveDispatcher, hready.result]
      right := by simp [receiveDispatcher, hready.result]
      short := by simp [receiveDispatcher, hready.result] }
  refine ⟨(data.length + 1) * (data.length + 1) + (data.length + 1) * (data.length + 1)
    + (2 - s.result.length) + 1, _, ?_, ?_, Stage.working hworking hwaits hsender, rfl⟩
  · rw [hready.result, List.length_nil]
    omega
  · simp only [step, hdispatcher]
    rfl

/-- The answer goes to the client. -/
lemma proceeds_results {result : List (Bool × ℤ)} {r : Bool × ℤ} (hwaits : Waits client data s)
    (hsender : s.messageSender = some client) (hready : s.Ready)
    (hjob : s.toJob = [.results result]) (hdispatcher : s.toDispatcher = [])
    (hjudge : judge result = .ok r) (hright : Right (client, data) (client, r)) :
    Proceeds 1 s (.job 0) := by
  obtain ⟨-, before, hasked, hanswered⟩ := hwaits
  refine ⟨0, { s with toJob := [], answered := s.answered ++ [(client, r)] }, rfl, ?_, ?_, rfl⟩
  · simp only [step, hjob, List.getElem?_cons_zero, receiveJob, hjudge, hsender]
    rfl
  · refine Stage.rest ⟨hready.result, hready.fresh, hready.mail⟩ rfl hdispatcher ?_
    have hasked' : s.asked = before ++ [(client, data)] := hasked
    exact hasked' ▸ List.rel_append hanswered (List.Forall₂.cons hright List.Forall₂.nil)

/-- One of the actors, or its pool, has had its turn. -/
lemma Working.target (h : Working data turns arriving s) {p : Bool} {left : ℕ} {state : State}
    {mail : List Mail} {answer : Option ℤ} (hleft : turns p = left + 1)
    (hphase : Phase data left state mail) (hreports : Reports data left answer) :
    Working data (Function.update turns p left) (arriving ++ answer.toList.map (p, ·))
      { s with
        target := Function.update s.target p ⟨state, mail⟩
        toDispatcher := s.toDispatcher ++ answer.toList.map (.finished p) } := by
  have hnot : p ∉ (s.result ++ arriving).map Prod.fst := by
    rw [h.finished p, hleft]
    exact Nat.succ_ne_zero left
  have hphases : ∀ q, Phase data (Function.update turns p left q)
      (Function.update s.target p ⟨state, mail⟩ q).state
      (Function.update s.target p ⟨state, mail⟩ q).mail := by
    intro q
    by_cases hq : q = p
    · subst hq
      rw [Function.update_self, Function.update_self]
      exact hphase
    · rw [Function.update_of_ne hq, Function.update_of_ne hq]
      exact h.phase q
  cases answer with
  | none =>
      have hpos : left ≠ 0 := Nat.pos_iff_ne_zero.mp hreports
      rw [Option.toList_none, List.map_nil, List.append_nil, List.map_nil, List.append_nil]
      refine ⟨h.toJob, h.toDispatcher, hphases, h.nodup, fun q => ?_, h.right, h.short⟩
      by_cases hq : q = p
      · subst hq
        rw [Function.update_self]
        exact iff_of_false hnot hpos
      · rw [Function.update_of_ne hq]
        exact h.finished q
  | some r =>
      obtain ⟨hzero, hanswer⟩ := hreports
      rw [Option.toList_some, List.map_singleton, List.map_singleton]
      refine ⟨h.toJob, by rw [h.toDispatcher, List.map_append]; rfl, hphases, ?_, fun q => ?_, ?_,
        h.short⟩
      · rw [← List.append_assoc, List.map_append, List.map_singleton]
        exact h.nodup.append (List.nodup_singleton p) (List.disjoint_singleton.mpr hnot)
      · rw [← List.append_assoc, List.map_append, List.map_singleton, List.mem_append,
          List.mem_singleton, h.finished q]
        by_cases hq : q = p
        · subst hq
          rw [Function.update_self]
          exact iff_of_true (Or.inr rfl) hzero
        · rw [Function.update_of_ne hq]
          exact or_iff_left hq
      · intro q hq
        rw [← List.append_assoc, List.mem_append, List.mem_singleton] at hq
        rcases hq with hq | rfl
        · exact h.right q hq
        · exact hanswer

/-- One of the actors, or its pool, has its turn. -/
lemma proceeds_target (hwaits : Waits client data s) (hsender : s.messageSender = some client)
    (h : Working data turns arriving s) {p : Bool} (hk : k < (s.target p).mail.length) :
    Proceeds (turns false + turns true + (2 - s.result.length) + 1) s (.target p k) := by
  obtain ⟨left, state, sent, answer, hleft, hreceive, hphase, hreports⟩ :=
    (h.phase p).turn hwaits.1 (List.getElem_cons_eraseIdx_perm hk).symm
  have hworking := h.target hleft hphase hreports
  refine ⟨_, _, ?_, ?_, Stage.working hworking hwaits hsender, rfl⟩
  · change _ = Function.update turns p left false + Function.update turns p left true
      + (2 - s.result.length) + 1 + 1
    cases p
    · rw [Function.update_self, Function.update_of_ne (by decide)]
      omega
    · rw [Function.update_self, Function.update_of_ne (by decide)]
      omega
  · simp only [step, List.getElem?_eq_getElem hk, hreceive]
    rfl

/-- What the actor of the job makes of a result of each of the two actors. -/
lemma exists_judge (hdata : Suitable data) (client : κ) {first second : Bool × ℤ}
    (hfirst : IsAnswer data first.2) (hsecond : IsAnswer data second.2) :
    ∃ r, judge [first, second] = .ok r ∧ Right (client, data) (client, r) := by
  have hresult := localResult_eq hdata.triangular hdata.fits hfirst
  cases hpriority : first.1 with
  | false =>
      refine ⟨(false, 0), ?_, rfl, Or.inr ⟨rfl, rfl⟩⟩
      rw [judge, if_pos (Or.inr (Or.inl hpriority))]
      rfl
  | true =>
      refine ⟨(true, first.2), ?_, rfl, Or.inl ⟨rfl, hresult.symm⟩⟩
      rw [judge, if_neg (by simp [hpriority, hfirst.unique hsecond])]
      rfl

/-- The first result has reached the dispatcher. -/
lemma Working.first {q : Bool × ℤ} {others : List (Bool × ℤ)} (h : Working data turns arriving s)
    (hperm : arriving.Perm (q :: others)) (hresult : s.result = []) :
    Working data turns others
      { s with
        result := [q]
        toDispatcher := others.map fun q => .finished q.1 q.2 } := by
  have hnodup := h.nodup
  have hfinished := h.finished
  have hright := h.right
  rw [hresult, List.nil_append] at hnodup hright
  simp only [hresult, List.nil_append] at hfinished
  exact
    { toJob := h.toJob
      toDispatcher := rfl
      phase := h.phase
      nodup := (hperm.map Prod.fst).nodup_iff.mp hnodup
      finished := fun p => ((hperm.map Prod.fst).mem_iff.symm).trans (hfinished p)
      right := fun q' hq' => hright q' (hperm.mem_iff.mpr hq')
      short := Nat.one_lt_two }

/-- The second result makes both actors ready, and no other one is on its way. -/
lemma Working.second {first q : Bool × ℤ} {others : List (Bool × ℤ)}
    (h : Working data turns arriving s) (hperm : arriving.Perm (q :: others))
    (hresult : s.result = [first]) :
    others = [] ∧ (∀ p, turns p = 0) ∧ IsAnswer data first.2 ∧ IsAnswer data q.2 := by
  have hall : (s.result ++ arriving).Perm (first :: q :: others) := by
    rw [hresult]
    exact hperm.cons first
  have hnodup := (hall.map Prod.fst).nodup_iff.mp h.nodup
  have hcard := hnodup.length_le_card
  rw [List.length_map, List.length_cons, List.length_cons, Fintype.card_bool] at hcard
  obtain rfl : others = [] := List.length_eq_zero_iff.mp (by omega)
  have hne : first.1 ≠ q.1 := by
    rintro heq
    simp [heq] at hnodup
  refine ⟨rfl, fun p => ?_, h.right first (hall.mem_iff.mpr List.mem_cons_self),
    h.right q (hall.mem_iff.mpr (List.mem_cons_of_mem _ List.mem_cons_self))⟩
  rw [← h.finished p, (hall.map Prod.fst).mem_iff, List.map_cons, List.map_cons, List.map_nil,
    List.mem_cons, List.mem_singleton]
  by_contra hnot
  obtain ⟨hfirst, hsecond⟩ := not_or.mp hnot
  exact hne ((Bool.eq_not_of_ne (Ne.symm hfirst)).trans
    (Bool.eq_not_of_ne (Ne.symm hsecond)).symm)

/-- A result reaches the dispatcher. -/
lemma proceeds_finished (hwaits : Waits client data s) (hsender : s.messageSender = some client)
    (h : Working data turns arriving s) (hk : k < arriving.length) :
    Proceeds (turns false + turns true + (2 - s.result.length) + 1) s (.dispatcher k) := by
  have hperm := (List.getElem_cons_eraseIdx_perm hk).symm
  have hget : s.toDispatcher[k]? = some (.finished arriving[k].1 arriving[k].2) := by
    rw [h.toDispatcher, List.getElem?_map, List.getElem?_eq_getElem hk]
    rfl
  have herase : s.toDispatcher.eraseIdx k
      = (arriving.eraseIdx k).map fun q => .finished q.1 q.2 := by
    rw [h.toDispatcher, List.eraseIdx_map]
  have hstep : s.step (.dispatcher k) = .ok (receiveDispatcher
      { s with toDispatcher := s.toDispatcher.eraseIdx k }
      (.finished arriving[k].1 arriving[k].2)) := by
    simp only [step, hget]
    rfl
  rw [herase] at hstep
  rcases hresult : s.result with - | ⟨first, - | ⟨second, rest⟩⟩
  · refine ⟨_, _, ?_, ?_, Stage.working (h.first hperm hresult) hwaits hsender, rfl⟩
    · exact Nat.add_right_comm _ 1 1
    · rw [hstep]
      simp [receiveDispatcher, hresult]
  · obtain ⟨hothers, hturns, hfirst, hsecond⟩ := h.second hperm hresult
    obtain ⟨r, hjudge, hright⟩ := exists_judge hwaits.1 client hfirst hsecond
    have hphase := fun p => hturns p ▸ h.phase p
    have hready : Ready { s with
        result := []
        toJob := [.results [first, arriving[k]]]
        toDispatcher := [] } :=
      ⟨rfl, fun p => (hphase p).fresh, fun p => (hphase p).rest_iff.mp rfl⟩
    refine ⟨_, _, ?_, ?_, Stage.reported (s := { s with
        result := []
        toJob := [.results [first, arriving[k]]]
        toDispatcher := [] }) hwaits hsender hready rfl rfl hjudge hright, rfl⟩
    · rw [hturns false, hturns true]
      rfl
    · rw [hstep, hothers]
      simp [receiveDispatcher, hresult, h.toJob]
  · have hshort := h.short
    rw [hresult, List.length_cons, List.length_cons] at hshort
    omega

/-! ### Runs -/

/-- Nothing is on its way to anybody if no turn has anything to do. -/
lemma atRest_iff : s.AtRest ↔ ∀ t, ¬s.Busy t := by
  constructor
  · intro h t hbusy
    cases t with
    | ask client data => exact hbusy
    | job k => exact not_lt_length_nil h.toJob hbusy
    | dispatcher k => exact not_lt_length_nil h.toDispatcher hbusy
    | target p k => exact not_lt_length_nil (h.target p) hbusy
  · intro h
    refine ⟨?_, ?_, fun p => ?_⟩
    · by_contra hne
      exact h (.job 0) (List.length_pos_of_ne_nil hne)
    · by_contra hne
      exact h (.dispatcher 0) (List.length_pos_of_ne_nil hne)
    · by_contra hne
      exact h (.target p 0) (List.length_pos_of_ne_nil hne)

/-- While the two actors are ready, it is the turn of one of the others. -/
lemma Ready.busy (h : s.Ready) {t : PriorityTurn κ} (hbusy : s.Busy t) :
    (∃ k < s.toJob.length, t = .job k) ∨ ∃ k < s.toDispatcher.length, t = .dispatcher k := by
  cases t with
  | ask client data => exact absurd hbusy id
  | job k => exact Or.inl ⟨k, hbusy, rfl⟩
  | dispatcher k => exact Or.inr ⟨k, hbusy, rfl⟩
  | target p k => exact absurd hbusy (not_lt_length_nil (h.mail p))

/-- Any turn with something to do comes to the next stage. -/
theorem Stage.turn {n : ℕ} (h : Stage n s) {t : PriorityTurn κ} (hbusy : s.Busy t) :
    Proceeds n s t := by
  cases h with
  | rest hready hjob hdispatcher h =>
      exact absurd hbusy (atRest_iff.mp ⟨hjob, hdispatcher, hready.mail⟩ t)
  | asked hwaits hready hjob hdispatcher =>
      rcases hready.busy hbusy with ⟨k, hk, rfl⟩ | ⟨k, hk, -⟩
      · rw [hjob, List.length_singleton, Nat.lt_one_iff] at hk
        exact hk ▸ proceeds_ask hwaits hready hjob hdispatcher
      · exact absurd hk (not_lt_length_nil hdispatcher)
  | dispatched hwaits hsender hready hjob hdispatcher =>
      rcases hready.busy hbusy with ⟨k, hk, -⟩ | ⟨k, hk, rfl⟩
      · exact absurd hk (not_lt_length_nil hjob)
      · rw [hdispatcher, List.length_singleton, Nat.lt_one_iff] at hk
        exact hk ▸ proceeds_triangle hwaits hsender hready hjob hdispatcher
  | working h hwaits hsender =>
      cases t with
      | ask client data => exact absurd hbusy id
      | job k => exact absurd hbusy (not_lt_length_nil h.toJob)
      | dispatcher k =>
          have hk : k < s.toDispatcher.length := hbusy
          rw [h.toDispatcher, List.length_map] at hk
          exact proceeds_finished hwaits hsender h hk
      | target p k => exact proceeds_target hwaits hsender h hbusy
  | reported hwaits hsender hready hjob hdispatcher hjudge hright =>
      rcases hready.busy hbusy with ⟨k, hk, rfl⟩ | ⟨k, hk, -⟩
      · rw [hjob, List.length_singleton, Nat.lt_one_iff] at hk
        exact hk ▸ proceeds_results hwaits hsender hready hjob hdispatcher hjudge hright
      · exact absurd hk (not_lt_length_nil hdispatcher)

/-- The other turns change nothing. -/
lemma step_of_not_busy {t : PriorityTurn κ} (hask : ∀ client data, t ≠ .ask client data)
    (h : ¬s.Busy t) : s.step t = .ok s := by
  cases t with
  | ask client data => exact absurd rfl (hask client data)
  | job k =>
      have hnone : s.toJob[k]? = none := List.getElem?_eq_none (Nat.le_of_not_lt h)
      simp only [step, hnone]
      rfl
  | dispatcher k =>
      have hnone : s.toDispatcher[k]? = none := List.getElem?_eq_none (Nat.le_of_not_lt h)
      simp only [step, hnone]
      rfl
  | target p k =>
      have hnone : (s.target p).mail[k]? = none := List.getElem?_eq_none (Nat.le_of_not_lt h)
      simp only [step, hnone]
      rfl

/-- No turn is left when nothing is on its way, and only then. -/
lemma Stage.atRest_iff {n : ℕ} (h : Stage n s) : n = 0 ↔ s.AtRest := by
  constructor
  · intro hzero
    cases h with
    | rest hready hjob hdispatcher h => exact ⟨hjob, hdispatcher, hready.mail⟩
    | asked | dispatched | working | reported => exact absurd hzero (Nat.succ_ne_zero _)
  · intro hrest
    cases h with
    | rest hready hjob hdispatcher h => rfl
    | asked hwaits hready hjob hdispatcher => exact absurd (hjob.symm.trans hrest.toJob) (by simp)
    | dispatched hwaits hsender hready hjob hdispatcher =>
        exact absurd (hdispatcher.symm.trans hrest.toDispatcher) (by simp)
    | @working _ _ _ turns arriving h hwaits hsender =>
        -- both actors are done, but the dispatcher has one result at most
        have harriving : arriving = [] := by
          have hnone := h.toDispatcher.symm.trans hrest.toDispatcher
          exact List.map_eq_nil_iff.mp hnone
        have hdone : ∀ p, p ∈ s.result.map Prod.fst := by
          intro p
          have hmem := (h.finished p).mpr ((h.phase p).rest_iff.mpr (hrest.target p))
          rwa [harriving, List.append_nil] at hmem
        have hshort := h.short
        rcases hresult : s.result with - | ⟨first, - | ⟨second, rest⟩⟩
        · exact absurd (hdone true) (by simp [hresult])
        · have htrue := hdone true
          have hfalse := hdone false
          rw [hresult, List.map_singleton, List.mem_singleton] at htrue hfalse
          exact Bool.noConfusion (htrue.trans hfalse.symm)
        · rw [hresult, List.length_cons, List.length_cons] at hshort
          omega
    | reported hwaits hsender hready hjob hdispatcher hjudge hright =>
        exact absurd (hjob.symm.trans hrest.toJob) (by simp)

/-- Clients ask one after the other, each when nothing is under way, and what the actors can do. -/
def Polite : Except Exit (PriorityJob κ) → PriorityTurn κ → Prop
  | .ok s, .ask _ data => Suitable data ∧ s.AtRest
  | _, _ => True

/-- There is something to do. -/
def Does : Except Exit (PriorityJob κ) → PriorityTurn κ → Prop
  | .ok s, t => s.Busy t
  | .error _, _ => False

instance : ∀ (s : Except Exit (PriorityJob κ)) (t : PriorityTurn κ), Decidable (Polite s t)
  | .ok _, .ask _ _ => inferInstanceAs (Decidable (_ ∧ _))
  | .ok _, .job _ | .ok _, .dispatcher _ | .ok _, .target _ _ => inferInstanceAs (Decidable True)
  | .error _, _ => inferInstanceAs (Decidable True)

instance : ∀ (s : Except Exit (PriorityJob κ)) (t : PriorityTurn κ), Decidable (Does s t)
  | .ok s, t => inferInstanceAs (Decidable (s.Busy t))
  | .error _, _ => inferInstanceAs (Decidable False)

/-- The job is at a stage. -/
def Staged (s : Except Exit (PriorityJob κ)) : Prop := ∃ n s', s = .ok s' ∧ Stage n s'

/-- A client asks. -/
lemma Stage.ask {n : ℕ} (h : Stage n s) (hrest : s.AtRest) (client : κ) (hdata : Suitable data) :
    ∃ s', s.step (.ask client data) = .ok s'
      ∧ Stage (2 * ((data.length + 1) * (data.length + 1)) + 5) s'
      ∧ s'.asked = s.asked ++ [(client, data)] := by
  cases h.atRest_iff.mpr hrest
  cases h with
  | rest hready hjob hdispatcher h =>
      have hwaits : Waits client data { s with
          toJob := s.toJob ++ [.ask client data]
          asked := s.asked ++ [(client, data)] } := ⟨hdata, s.asked, rfl, h⟩
      refine ⟨_, rfl, Stage.asked hwaits ⟨hready.result, hready.fresh, hready.mail⟩ ?_ hdispatcher,
        rfl⟩
      change s.toJob ++ _ = _
      rw [hjob, List.nil_append]

lemma staged_turn {s : Except Exit (PriorityJob κ)} (h : Staged s) {t : PriorityTurn κ}
    (hpolite : Polite s t) : Staged (go s t) := by
  obtain ⟨n, s, rfl, h⟩ := h
  by_cases hask : ∃ client data, t = .ask client data
  · obtain ⟨client, data, rfl⟩ := hask
    obtain ⟨hdata, hrest⟩ : Suitable data ∧ s.AtRest := hpolite
    obtain ⟨s', hstep, hstage, -⟩ := h.ask hrest client hdata
    exact ⟨_, s', hstep, hstage⟩
  · by_cases hbusy : s.Busy t
    · obtain ⟨n', s', -, hstep, hstage, -⟩ := h.turn hbusy
      exact ⟨n', s', hstep, hstage⟩
    · exact ⟨n, s, step_of_not_busy (fun client data heq => hask ⟨client, data, heq⟩) hbusy, h⟩

lemma staged_start : Staged (.ok {} : Except Exit (PriorityJob κ)) :=
  ⟨0, {}, rfl, Stage.rest ⟨rfl, fun _ => ⟨rfl, rfl⟩, fun _ => rfl⟩ rfl rfl List.Forall₂.nil⟩

lemma staged_always {turns : List (PriorityTurn κ)} (h : Run.Each go Polite (.ok {}) turns) :
    Run.Always go Staged (.ok {}) turns :=
  Run.always_of_each (P := Staged) (fun _ _ hstaged => staged_turn hstaged) staged_start h

/-- Those who have asked are answered, in their order, except perhaps the last one. -/
def Answers (s : PriorityJob κ) : Prop :=
  ∃ before, List.Forall₂ Right before s.answered
    ∧ (before = s.asked ∨ ∃ last, s.asked = before ++ [last])

lemma Stage.answers {n : ℕ} (h : Stage n s) : s.Answers := by
  cases h with
  | rest hready hjob hdispatcher h => exact ⟨s.asked, h, Or.inl rfl⟩
  | asked hwaits | dispatched hwaits | working h hwaits | reported hwaits =>
      obtain ⟨-, before, hasked, hanswered⟩ := hwaits
      exact ⟨before, hanswered, Or.inr ⟨_, hasked⟩⟩

/-- **The job done twice.**  Clients ask one after the other; the mails to the actors and the tasks
of their pools are dealt with in any order.  Nothing undefined happens, and each client in turn gets
what `LocalYanghuiJob` returns for its table, or hears that the job was not good. -/
theorem answers_always {turns : List (PriorityTurn κ)} (h : Run.Each go Polite (.ok {}) turns) :
    Run.Always go (fun s => ∃ s' : PriorityJob κ, s = .ok s' ∧ s'.Answers) (.ok {}) turns := by
  refine (staged_always h).imp ?_
  rintro _ ⟨n, s', rfl, hstage⟩
  exact ⟨s', rfl, hstage.answers⟩

/-- A job that the actor with high priority ends first. -/
def highFirst : List (PriorityTurn ℕ) :=
  [.job 0, .dispatcher 0, .target true 0, .target true 0, .target true 0, .target true 1,
    .target true 0, .target true 0, .target true 0, .target true 0, .target true 0,
    .dispatcher 0, .target false 0, .target false 0, .target false 0, .target false 0,
    .target false 1, .target false 0, .target false 0, .target false 0, .target false 0,
    .dispatcher 0, .job 0]

/-- Two clients ask, one after the other. -/
theorem answers_always_two :
    Run.Always go (fun s => ∃ s' : PriorityJob ℕ, s = .ok s' ∧ s'.Answers) (.ok {})
      (.ask 7 [[1], [2, 3]] :: highFirst ++ [.ask 8 [[4], [5, 6]], .job 0, .dispatcher 0]) :=
  answers_always (by decide)

/-- So many turns are left, and these have asked. -/
def Left (asked : List (κ × Table)) (n : ℕ) (s : Except Exit (PriorityJob κ)) : Prop :=
  ∃ s', s = .ok s' ∧ Stage n s' ∧ s'.asked = asked

lemma Left.turn {asked : List (κ × Table)} {n : ℕ} {s : Except Exit (PriorityJob κ)}
    {t : PriorityTurn κ} (h : Left asked n s) (hdoes : Does s t) :
    ∃ n', n = n' + 1 ∧ Left asked n' (go s t) := by
  obtain ⟨s, rfl, hstage, rfl⟩ := h
  obtain ⟨n', s', hn, hstep, hstage', hasked⟩ := hstage.turn hdoes
  exact ⟨n', hn, s', hstep, hstage', hasked⟩

/-- **The end of the job.**  A client asks when nothing is under way.  The actors and the pools have
something to do for so many turns, in whatever order they take them, and not for more; then the
client was answered. -/
theorem answered_of_ask {before : List (PriorityTurn κ)}
    (hpolite : Run.Each go Polite (.ok {}) before) {s : PriorityJob κ}
    (hs : Run.run go (.ok {}) before = .ok s) (hrest : s.AtRest) (client : κ) {data : Table}
    (hdata : Suitable data) {after : List (PriorityTurn κ)}
    (hdoes : Run.Each go Does (go (.ok s) (.ask client data)) after) :
    ∃ s', Run.run go (go (.ok s) (.ask client data)) after = .ok s'
      ∧ after.length ≤ 2 * (data.length + 1) ^ 2 + 5
      ∧ (s'.AtRest ↔ after.length = 2 * (data.length + 1) ^ 2 + 5)
      ∧ (s'.AtRest → List.Forall₂ Right (s.asked ++ [(client, data)]) s'.answered) := by
  obtain ⟨n, s₀, hs₀, hstage⟩ := (staged_always hpolite).last
  cases hs.symm.trans hs₀
  obtain ⟨s₁, hstep, hstage₁, hasked₁⟩ := hstage.ask hrest client hdata
  have hleft : Left (s.asked ++ [(client, data)]) _ (go (.ok s) (.ask client data)) :=
    ⟨s₁, hstep, hstage₁, hasked₁⟩
  obtain ⟨n', hlength, s', hrun, hstage', hasked⟩ :=
    Run.Each.countdown (fun _ _ _ => Left.turn) hleft hdoes
  refine ⟨s', hrun, ?_, ?_, fun hrest' => ?_⟩
  · rw [Nat.pow_two]
    omega
  · rw [← hstage'.atRest_iff, Nat.pow_two]
    omega
  · cases hstage'.atRest_iff.mpr hrest'
    cases hstage' with
    | rest hready hjob hdispatcher h =>
        exact hasked ▸ h

/-- The client is answered after 23 turns. -/
theorem answered_of_ask_two :
    ∃ s', Run.run go (go (.ok {}) (.ask 7 [[1], [2, 3]])) highFirst = .ok s'
      ∧ highFirst.length ≤ 2 * (2 + 1) ^ 2 + 5
      ∧ (s'.AtRest ↔ highFirst.length = 2 * (2 + 1) ^ 2 + 5)
      ∧ (s'.AtRest → List.Forall₂ Right [(7, [[1], [2, 3]])] s'.answered) := by
  have hpolite : Run.Each go Polite (.ok {} : Except Exit (PriorityJob ℕ)) [] := trivial
  exact answered_of_ask hpolite rfl (by decide) 7 (by decide) (by decide)

end PriorityJob

end Yanghui

end Cdcf
