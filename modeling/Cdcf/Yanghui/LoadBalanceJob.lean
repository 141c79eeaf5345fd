import Cdcf.Yanghui.CountPath
import Cdcf.Yanghui.FinalResult
import Cdcf.Yanghui.Workers

/-!
The job over the load balancer (`yanghui_load_balance_job_actor_fun` of `yanghui_server.cc`, with
the two actors of `yanghui_sample_actor.cc`).

The actor of the job has the sums counted by one actor, row by row, and their least found by the
other, in rounds.  The workers of both are behind the load balancer, so that the mails come in any
order.

* `LoadBalanceJob`: the three actors, what is on its way to them, and the clients.
* `Stage`: where the job is, and how many turns are left; `Stage.turn`: one turn.
* `done_of_ask`: after so many turns, whatever their order, the client has the result of
  `LocalYanghuiJob`.
-/

namespace Cdcf

namespace Yanghui

open FinalResult (rounds rounds_pos)

/-! ### The actors -/

/-- What is on its way to the actor of the job. -/
inductive LoadBalanceMail (κ : Type) where
  | ask (client : κ) (data : Table)
  | counted (countPathResult : List ℤ)
  | found (finalResult : ℤ)

/-- The actors of the job, what is on its way to them, and who has asked and who was answered.  The
actor of the job is the only one that sends numbers to the one that finds the least of them. -/
structure LoadBalanceJob (κ : Type) where
  messageSender : Option κ := none
  toJob : List (LoadBalanceMail κ) := []
  countPath : CountPath.State := {}
  toCountPath : List CountPath.Mail := []
  getMin : FinalResult.State Unit := {}
  toGetMin : List (FinalResult.Mail Unit) := []
  asked : List (κ × Table) := []
  answered : List (κ × Bool × ℤ) := []

/-- What can happen next. -/
inductive LoadBalanceTurn (κ : Type) where
  /-- A client asks. -/
  | ask (client : κ) (data : Table)
  | job (k : ℕ)
  /-- A turn of the actor that counts, or of a worker. -/
  | countPath (k : ℕ)
  /-- A turn of the actor that finds the least number, or of a worker. -/
  | getMin (k : ℕ)

namespace LoadBalanceJob

variable {κ : Type}

/-- A mail reaches the actor of the job. -/
def receiveJob (s : LoadBalanceJob κ) : LoadBalanceMail κ → LoadBalanceJob κ
  | .ask client data =>
      { s with
        messageSender := some client
        toCountPath := s.toCountPath ++ [.data data] }
  | .counted countPathResult =>
      { s with toGetMin := s.toGetMin ++ [.numbers (some ()) countPathResult] }
  | .found finalResult =>
      { s with answered := s.answered ++ s.messageSender.toList.map (·, true, finalResult) }

/-- One turn. -/
def step (s : LoadBalanceJob κ) : LoadBalanceTurn κ → Except Exit (LoadBalanceJob κ)
  | .ask client data =>
      return { s with
        toJob := s.toJob ++ [.ask client data]
        asked := s.asked ++ [(client, data)] }
  | .job k =>
      match s.toJob[k]? with
      | some mail => return receiveJob { s with toJob := s.toJob.eraseIdx k } mail
      | none => return s
  | .countPath k =>
      match s.toCountPath[k]? with
      | some mail => do
          let (state, sent, row) ← CountPath.receive s.countPath mail
          return { s with
            countPath := state
            toCountPath := s.toCountPath.eraseIdx k ++ sent
            toJob := s.toJob ++ row.toList.map .counted }
      | none => return s
  | .getMin k =>
      match s.toGetMin[k]? with
      | some mail => do
          let (state, sent, answer) ← FinalResult.receive s.getMin mail
          return { s with
            getMin := state
            toGetMin := s.toGetMin.eraseIdx k ++ sent
            toJob := s.toJob ++ (state.messageSender.bind fun _ => answer).toList.map .found }
      | none => return s

/-- One turn more, unless one before has failed. -/
def go (s : Except Exit (LoadBalanceJob κ)) (t : LoadBalanceTurn κ) :
    Except Exit (LoadBalanceJob κ) := do
  step (← s) t

/-- Nothing is on its way to anybody. -/
structure AtRest (s : LoadBalanceJob κ) : Prop where
  toJob : s.toJob = []
  toCountPath : s.toCountPath = []
  toGetMin : s.toGetMin = []

/-- There is something to do in this turn. -/
def Busy (s : LoadBalanceJob κ) : LoadBalanceTurn κ → Prop
  | .ask _ _ => False
  | .job k => k < s.toJob.length
  | .countPath k => k < s.toCountPath.length
  | .getMin k => k < s.toGetMin.length

lemma atRest_def (s : LoadBalanceJob κ) :
    s.AtRest ↔ s.toJob.length = 0 ∧ s.toCountPath.length = 0 ∧ s.toGetMin.length = 0 := by
  rw [List.length_eq_zero_iff, List.length_eq_zero_iff, List.length_eq_zero_iff]
  exact ⟨fun h => ⟨h.toJob, h.toCountPath, h.toGetMin⟩, fun ⟨hjob, hcountPath, hgetMin⟩ =>
    ⟨hjob, hcountPath, hgetMin⟩⟩

instance (s : LoadBalanceJob κ) : Decidable s.AtRest := decidable_of_iff' _ s.atRest_def

instance (s : LoadBalanceJob κ) : ∀ t, Decidable (s.Busy t)
  | .ask _ _ => inferInstanceAs (Decidable False)
  | .job k | .countPath k | .getMin k => inferInstanceAs (Decidable (k < _))

/-! ### Where the job is -/

/-- An answer is for who has asked, and is the result of `LocalYanghuiJob`. -/
def Right (asking : κ × Table) (answer : κ × Bool × ℤ) : Prop :=
  answer.1 = asking.1 ∧ answer.2.1 = true ∧ some answer.2.2 = localResult asking.2

/-- The client waits for an answer, and those before have theirs. -/
def Waits (client : κ) (data : Table) (s : LoadBalanceJob κ) : Prop :=
  CountPath.Suitable data ∧ ∃ before, s.asked = before ++ [(client, data)]
    ∧ List.Forall₂ Right before s.answered

/-- The two actors are ready for the next table. -/
structure Ready (s : LoadBalanceJob κ) : Prop where
  countPath : s.countPath.currentResult = OrderedMap.empty
  toCountPath : s.toCountPath = []
  toGetMin : s.toGetMin = []

/-- Where the job is, and the number of turns that are left. -/
inductive Stage : ℕ → LoadBalanceJob κ → Prop
  | rest {s : LoadBalanceJob κ} (hready : s.Ready) (hjob : s.toJob = [])
      (h : List.Forall₂ Right s.asked s.answered) : Stage 0 s
  | asked {s : LoadBalanceJob κ} {client : κ} {data : Table} (hwaits : Waits client data s)
      (hready : s.Ready) (hjob : s.toJob = [.ask client data]) :
      Stage ((data.length + 1) * (data.length + 1) + 1 + rounds data.length) s
  | counting {s : LoadBalanceJob κ} {client : κ} {data : Table} {n : ℕ}
      (hwaits : Waits client data s) (hsender : s.messageSender = some client)
      (hjob : s.toJob = []) (hgetMin : s.toGetMin = [])
      (hphase : CountPath.Phase data n s.countPath s.toCountPath) (hne : s.toCountPath ≠ []) :
      Stage (n + 2 + rounds data.length) s
  | counted {s : LoadBalanceJob κ} {client : κ} {data : Table} {row : List ℤ}
      (hwaits : Waits client data s) (hsender : s.messageSender = some client) (hready : s.Ready)
      (hjob : s.toJob = [.counted row])
      (hrow : Triangle.IsRow (entry data) (data.length - 1) row) :
      Stage (2 + rounds data.length) s
  | finding {s : LoadBalanceJob κ} {client : κ} {data : Table} {least : ℤ} {n : ℕ}
      (hwaits : Waits client data s) (hsender : s.messageSender = some client)
      (hjob : s.toJob = []) (hcountPath : s.countPath.currentResult = OrderedMap.empty)
      (hpath : s.toCountPath = []) (hanswer : IsAnswer data least)
      (hphase : FinalResult.Phase least n s.getMin s.toGetMin) (hne : s.toGetMin ≠ [])
      (hknown : ∀ mail ∈ s.toGetMin, s.getMin.messageSender.or mail.client? = some ()) :
      Stage (n + 1) s
  | found {s : LoadBalanceJob κ} {client : κ} {data : Table} {r : ℤ}
      (hwaits : Waits client data s) (hsender : s.messageSender = some client) (hready : s.Ready)
      (hjob : s.toJob = [.found r]) (hanswer : IsAnswer data r) : Stage 1 s

/-- The turn comes to the next stage. -/
def Proceeds (n : ℕ) (s : LoadBalanceJob κ) (t : LoadBalanceTurn κ) : Prop :=
  ∃ n' s', n = n' + 1 ∧ s.step t = .ok s' ∧ Stage n' s' ∧ s'.asked = s.asked

variable {s : LoadBalanceJob κ} {client : κ} {data : Table} {n k : ℕ}

/-! ### The turns -/

/-- The table goes to the actor that counts. -/
lemma proceeds_ask (hwaits : Waits client data s) (hready : s.Ready)
    (hjob : s.toJob = [.ask client data]) :
    Proceeds ((data.length + 1) * (data.length + 1) + 1 + rounds data.length) s (.job 0) := by
  have hrows : 0 < data.length := List.length_pos_of_ne_nil hwaits.1.triangular.ne_nil
  have hsquare : 4 ≤ (data.length + 1) * (data.length + 1) :=
    Nat.mul_le_mul (show 2 ≤ data.length + 1 by omega) (show 2 ≤ data.length + 1 by omega)
  refine ⟨(data.length + 1) * (data.length + 1) - 2 + 2 + rounds data.length, { s with
      toJob := []
      messageSender := some client
      toCountPath := [.data data] }, by omega, ?_, ?_, rfl⟩
  · simp only [step, hjob, List.getElem?_cons_zero, receiveJob, hready.toCountPath]
    rfl
  · exact Stage.counting hwaits rfl rfl hready.toGetMin
      (CountPath.Phase.asked hready.countPath (by omega)) (List.cons_ne_nil _ _)

/-- A row is counted, or the last one goes to the actor of the job. -/
lemma proceeds_countPath (hwaits : Waits client data s) (hsender : s.messageSender = some client)
    (hjob : s.toJob = []) (hgetMin : s.toGetMin = [])
    (hphase : CountPath.Phase data n s.countPath s.toCountPath) (hk : k < s.toCountPath.length) :
    Proceeds (n + 2 + rounds data.length) s (.countPath k) := by
  obtain ⟨left, state, sent, row, rfl, hreceive, hphase', hreports⟩ :=
    hphase.turn hwaits.1 (List.getElem_cons_eraseIdx_perm hk).symm
  refine ⟨left + 2 + rounds data.length, { s with
    countPath := state
    toCountPath := s.toCountPath.eraseIdx k ++ sent
    toJob := s.toJob ++ row.toList.map .counted }, by omega, ?_, ?_, rfl⟩
  · simp only [step, List.getElem?_eq_getElem hk, hreceive]
    rfl
  · cases row with
    | none =>
        refine Stage.counting hwaits hsender ?_ hgetMin hphase' ?_
        · rw [hjob]
          rfl
        · exact mt hphase'.rest_iff.mpr (Nat.pos_iff_ne_zero.mp hreports)
    | some row =>
        obtain ⟨rfl, hrow⟩ := hreports
        rw [Nat.zero_add]
        refine Stage.counted hwaits hsender ⟨hphase'.fresh, hphase'.rest_iff.mp rfl, hgetMin⟩ ?_
          hrow
        rw [hjob]
        rfl

/-- The last row goes to the actor that finds its least number. -/
lemma proceeds_counted {row : List ℤ} (hwaits : Waits client data s)
    (hsender : s.messageSender = some client) (hready : s.Ready) (hjob : s.toJob = [.counted row])
    (hrow : Triangle.IsRow (entry data) (data.length - 1) row) :
    Proceeds (2 + rounds data.length) s (.job 0) := by
  have hrows : 0 < data.length := List.length_pos_of_ne_nil hwaits.1.triangular.ne_nil
  have hlength : row.length = data.length := by
    rw [hrow.1]
    omega
  have hne : row ≠ [] := List.ne_nil_of_length_pos (hlength ▸ hrows)
  have hleast := isLeast_numberCompare hne
  refine ⟨rounds data.length + 1, { s with
      toJob := []
      toGetMin := [.numbers (some ()) row] }, by omega, ?_, ?_, rfl⟩
  · simp only [step, hjob, List.getElem?_cons_zero, receiveJob, hready.toGetMin]
    rfl
  · refine Stage.finding hwaits hsender rfl hready.countPath hready.toCountPath
      (Triangle.isLeast_of_row hrow hleast) (hlength ▸ FinalResult.Phase.asked hleast)
      (List.cons_ne_nil _ _) fun mail hmail => ?_
    rw [List.mem_singleton.mp hmail]
    cases s.getMin.messageSender <;> rfl

/-- A round goes on, or the least number goes to the actor of the job. -/
lemma proceeds_getMin {least : ℤ} (hwaits : Waits client data s)
    (hsender : s.messageSender = some client) (hjob : s.toJob = [])
    (hcountPath : s.countPath.currentResult = OrderedMap.empty) (hpath : s.toCountPath = [])
    (hanswer : IsAnswer data least) (hphase : FinalResult.Phase least n s.getMin s.toGetMin)
    (hknown : ∀ mail ∈ s.toGetMin, s.getMin.messageSender.or mail.client? = some ())
    (hk : k < s.toGetMin.length) : Proceeds (n + 1) s (.getMin k) := by
  obtain ⟨left, state, sent, answer, rfl, hreceive, hstate, hphase', hreports⟩ :=
    hphase.turn (List.getElem_cons_eraseIdx_perm hk).symm
  have hknown' : state.messageSender = some () := hstate.trans (hknown _ (List.getElem_mem hk))
  refine ⟨left + 1, { s with
    getMin := state
    toGetMin := s.toGetMin.eraseIdx k ++ sent
    toJob := s.toJob ++ (state.messageSender.bind fun _ => answer).toList.map .found }, rfl,
    ?_, ?_, rfl⟩
  · simp only [step, List.getElem?_eq_getElem hk, hreceive]
    rfl
  · cases answer with
    | none =>
        refine Stage.finding hwaits hsender ?_ hcountPath hpath hanswer hphase' ?_ fun mail _ => ?_
        · rw [hjob, hknown']
          rfl
        · exact mt hphase'.rest_iff.mpr (Nat.pos_iff_ne_zero.mp hreports)
        · change state.messageSender.or mail.client? = some ()
          rw [hknown', Option.some_or]
    | some r =>
        obtain ⟨rfl, rfl⟩ := hreports
        refine Stage.found hwaits hsender ⟨hcountPath, hpath, hphase'.rest_iff.mp rfl⟩ ?_ hanswer
        rw [hjob, hknown']
        rfl

/-- The answer goes to the client. -/
lemma proceeds_found {r : ℤ} (hwaits : Waits client data s)
    (hsender : s.messageSender = some client) (hready : s.Ready) (hjob : s.toJob = [.found r])
    (hanswer : IsAnswer data r) : Proceeds 1 s (.job 0) := by
  obtain ⟨hdata, before, hasked, hanswered⟩ := hwaits
  have hright : Right (client, data) (client, true, r) :=
    ⟨rfl, rfl, (localResult_eq hdata.triangular hdata.fits hanswer).symm⟩
  refine ⟨0, { s with toJob := [], answered := s.answered ++ [(client, true, r)] }, rfl, ?_, ?_,
    rfl⟩
  · simp only [step, hjob, List.getElem?_cons_zero, receiveJob, hsender]
    rfl
  · refine Stage.rest ⟨hready.countPath, hready.toCountPath, hready.toGetMin⟩ rfl ?_
    have hasked' : s.asked = before ++ [(client, data)] := hasked
    exact hasked' ▸ List.rel_append hanswered (List.Forall₂.cons hright List.Forall₂.nil)

/-! ### Runs -/

/-- While the two actors are ready, it is the turn of the actor of the job. -/
lemma Ready.busy (h : s.Ready) {t : LoadBalanceTurn κ} (hbusy : s.Busy t) :
    ∃ k < s.toJob.length, t = .job k := by
  cases t with
  | ask client data => exact absurd hbusy id
  | job k => exact ⟨k, hbusy, rfl⟩
  | countPath k => exact absurd hbusy (not_lt_length_nil h.toCountPath)
  | getMin k => exact absurd hbusy (not_lt_length_nil h.toGetMin)

/-- The only mail to the actor of the job is next. -/
lemma Ready.busy_singleton (h : s.Ready) {mail : LoadBalanceMail κ} (hjob : s.toJob = [mail])
    {t : LoadBalanceTurn κ} (hbusy : s.Busy t) : t = .job 0 := by
  obtain ⟨k, hk, rfl⟩ := h.busy hbusy
  rw [hjob, List.length_singleton, Nat.lt_one_iff] at hk
  rw [hk]

/-- Any turn with something to do comes to the next stage. -/
theorem Stage.turn (h : Stage n s) {t : LoadBalanceTurn κ} (hbusy : s.Busy t) :
    Proceeds n s t := by
  cases h with
  | rest hready hjob h =>
      obtain ⟨k, hk, -⟩ := hready.busy hbusy
      exact absurd hk (not_lt_length_nil hjob)
  | asked hwaits hready hjob =>
      rw [hready.busy_singleton hjob hbusy]
      exact proceeds_ask hwaits hready hjob
  | counting hwaits hsender hjob hgetMin hphase hne =>
      cases t with
      | ask client data => exact absurd hbusy id
      | job k => exact absurd hbusy (not_lt_length_nil hjob)
      | countPath k => exact proceeds_countPath hwaits hsender hjob hgetMin hphase hbusy
      | getMin k => exact absurd hbusy (not_lt_length_nil hgetMin)
  | counted hwaits hsender hready hjob hrow =>
      rw [hready.busy_singleton hjob hbusy]
      exact proceeds_counted hwaits hsender hready hjob hrow
  | finding hwaits hsender hjob hcountPath hpath hanswer hphase hne hknown =>
      cases t with
      | ask client data => exact absurd hbusy id
      | job k => exact absurd hbusy (not_lt_length_nil hjob)
      | countPath k => exact absurd hbusy (not_lt_length_nil hpath)
      | getMin k =>
          exact proceeds_getMin hwaits hsender hjob hcountPath hpath hanswer hphase hknown hbusy
  | found hwaits hsender hready hjob hanswer =>
      rw [hready.busy_singleton hjob hbusy]
      exact proceeds_found hwaits hsender hready hjob hanswer

/-- The other turns change nothing. -/
lemma step_of_not_busy {t : LoadBalanceTurn κ} (hask : ∀ client data, t ≠ .ask client data)
    (h : ¬s.Busy t) : s.step t = .ok s := by
  cases t with
  | ask client data => exact absurd rfl (hask client data)
  | job k =>
      have hnone : s.toJob[k]? = none := List.getElem?_eq_none (Nat.le_of_not_lt h)
      simp only [step, hnone]
      rfl
  | countPath k =>
      have hnone : s.toCountPath[k]? = none := List.getElem?_eq_none (Nat.le_of_not_lt h)
      simp only [step, hnone]
      rfl
  | getMin k =>
      have hnone : s.toGetMin[k]? = none := List.getElem?_eq_none (Nat.le_of_not_lt h)
      simp only [step, hnone]
      rfl

lemma not_atRest {mail : LoadBalanceMail κ} (hjob : s.toJob = [mail]) : ¬s.AtRest :=
  fun hrest => List.cons_ne_nil _ _ (hjob.symm.trans hrest.toJob)

/-- No turn is left when nothing is on its way, and only then. -/
lemma Stage.atRest_iff (h : Stage n s) : n = 0 ↔ s.AtRest := by
  cases h with
  | rest hready hjob h => exact iff_of_true rfl ⟨hjob, hready.toCountPath, hready.toGetMin⟩
  | asked hwaits hready hjob => exact iff_of_false (by omega) (not_atRest hjob)
  | counting hwaits hsender hjob hgetMin hphase hne =>
      exact iff_of_false (by omega) fun hrest => hne hrest.toCountPath
  | counted hwaits hsender hready hjob hrow => exact iff_of_false (by omega) (not_atRest hjob)
  | finding hwaits hsender hjob hcountPath hpath hanswer hphase hne hknown =>
      exact iff_of_false (by omega) fun hrest => hne hrest.toGetMin
  | found hwaits hsender hready hjob hanswer => exact iff_of_false Nat.one_ne_zero (not_atRest hjob)

/-- When nothing is on its way, everybody was answered. -/
lemma Stage.done (h : Stage n s) (hrest : s.AtRest) :
    s.Ready ∧ List.Forall₂ Right s.asked s.answered := by
  cases h with
  | rest hready hjob h => exact ⟨hready, h⟩
  | asked hwaits hready hjob => exact absurd hrest (not_atRest hjob)
  | counting hwaits hsender hjob hgetMin hphase hne => exact absurd hrest.toCountPath hne
  | counted hwaits hsender hready hjob hrow => exact absurd hrest (not_atRest hjob)
  | finding hwaits hsender hjob hcountPath hpath hanswer hphase hne hknown =>
      exact absurd hrest.toGetMin hne
  | found hwaits hsender hready hjob hanswer => exact absurd hrest (not_atRest hjob)

/-- Clients ask one after the other, each when nothing is under way, and what the actors can do. -/
def Polite : Except Exit (LoadBalanceJob κ) → LoadBalanceTurn κ → Prop
  | .ok s, .ask _ data => CountPath.Suitable data ∧ s.AtRest
  | _, _ => True

/-- There is something to do. -/
def Does : Except Exit (LoadBalanceJob κ) → LoadBalanceTurn κ → Prop
  | .ok s, t => s.Busy t
  | .error _, _ => False

instance : ∀ (s : Except Exit (LoadBalanceJob κ)) (t : LoadBalanceTurn κ), Decidable (Polite s t)
  | .ok _, .ask _ _ => inferInstanceAs (Decidable (_ ∧ _))
  | .ok _, .job _ | .ok _, .countPath _ | .ok _, .getMin _ => inferInstanceAs (Decidable True)
  | .error _, _ => inferInstanceAs (Decidable True)

instance : ∀ (s : Except Exit (LoadBalanceJob κ)) (t : LoadBalanceTurn κ), Decidable (Does s t)
  | .ok s, t => inferInstanceAs (Decidable (s.Busy t))
  | .error _, _ => inferInstanceAs (Decidable False)

/-- A client asks. -/
lemma Stage.ask (h : Stage n s) (hrest : s.AtRest) (client : κ)
    (hdata : CountPath.Suitable data) :
    ∃ s', s.step (.ask client data) = .ok s'
      ∧ Stage ((data.length + 1) * (data.length + 1) + 1 + rounds data.length) s'
      ∧ s'.asked = s.asked ++ [(client, data)] := by
  obtain ⟨hready, hanswered⟩ := h.done hrest
  have hwaits : Waits client data { s with
      toJob := s.toJob ++ [.ask client data]
      asked := s.asked ++ [(client, data)] } := ⟨hdata, s.asked, rfl, hanswered⟩
  refine ⟨_, rfl, Stage.asked hwaits
    ⟨hready.countPath, hready.toCountPath, hready.toGetMin⟩ ?_, rfl⟩
  change s.toJob ++ _ = _
  rw [hrest.toJob, List.nil_append]

/-- The job is at a stage. -/
def Staged (s : Except Exit (LoadBalanceJob κ)) : Prop := ∃ n s', s = .ok s' ∧ Stage n s'

lemma staged_go {s : Except Exit (LoadBalanceJob κ)} (h : Staged s) {t : LoadBalanceTurn κ}
    (hpolite : Polite s t) : Staged (go s t) := by
  obtain ⟨n, s, rfl, h⟩ := h
  by_cases hask : ∃ client data, t = .ask client data
  · obtain ⟨client, data, rfl⟩ := hask
    obtain ⟨hdata, hrest⟩ : CountPath.Suitable data ∧ s.AtRest := hpolite
    obtain ⟨s', hstep, hstage, -⟩ := h.ask hrest client hdata
    exact ⟨_, s', hstep, hstage⟩
  · by_cases hbusy : s.Busy t
    · obtain ⟨n', s', -, hstep, hstage, -⟩ := h.turn hbusy
      exact ⟨n', s', hstep, hstage⟩
    · exact ⟨n, s, step_of_not_busy (fun client data heq => hask ⟨client, data, heq⟩) hbusy, h⟩

lemma staged_always {turns : List (LoadBalanceTurn κ)} (h : Run.Each go Polite (.ok {}) turns) :
    Run.Always go Staged (.ok {}) turns :=
  Run.always_of_each (P := Staged) (fun _ _ hstaged => staged_go hstaged)
    ⟨0, {}, rfl, Stage.rest ⟨rfl, rfl, rfl⟩ rfl List.Forall₂.nil⟩ h

/-- So many turns are left, and these have asked. -/
def Left (asked : List (κ × Table)) (n : ℕ) (s : Except Exit (LoadBalanceJob κ)) : Prop :=
  ∃ s', s = .ok s' ∧ Stage n s' ∧ s'.asked = asked

lemma Left.turn {asked : List (κ × Table)} {s : Except Exit (LoadBalanceJob κ)}
    {t : LoadBalanceTurn κ} (h : Left asked n s) (hdoes : Does s t) :
    ∃ n', n = n' + 1 ∧ Left asked n' (go s t) := by
  obtain ⟨s, rfl, hstage, rfl⟩ := h
  obtain ⟨n', s', hn, hstep, hstage', hasked⟩ := hstage.turn hdoes
  exact ⟨n', hn, s', hstep, hstage', hasked⟩

end LoadBalanceJob

end Yanghui

end Cdcf
