import Cdcf.Library.Batches
import Cdcf.Library.Gather
import Cdcf.Library.Run
import Cdcf.Yanghui.Table

/-!
The actor that finds the least number in rounds (`yanghui_get_final_result` of
`yanghui_sample_actor.cc`, the comparison of `simple_counter_add_load` in `simple_counter.cc`).

The numbers go to the workers in batches of three, and the least ones of the batches, which come
back in any order, make the numbers of the next round.  Whoever asks, the answer goes to the one
who was the first to ask.

* `State`, `Mail`, `receive`: the actor, what is on its way to it or is worked at, and one of them.
* `Phase`, `rounds`: where the actor is with the numbers, and how many turns are left.
* `Finder`: the actor with the clients; `found_of_ask`: in any order of the turns, and after so many
  of them, the least number is found.
-/

namespace Cdcf

namespace Yanghui

namespace FinalResult

open Batches

variable {κ : Type}

/-! ### The actor and its workers -/

/-- `GetMinState`. -/
structure State (κ : Type) where
  count : ℕ := 0
  currentResult : OrderedMap (id : ℕ → ℕ) ℤ := OrderedMap.empty
  messageSender : Option κ := none

/-- What is on its way to the actor, and what the workers are asked. -/
inductive Mail (κ : Type) where
  /-- The numbers of a client, or of the actor itself. -/
  | numbers (client : Option κ) (data : List ℤ)
  /-- A worker is to find the least number of a batch. -/
  | compare (numbers : List ℤ) (index : ℕ)
  /-- What the worker has found. -/
  | result (result : ℤ) (id : ℕ)

/-- A mail is dealt with, by the actor or by a worker: the state after it, the mails that are sent,
and the result for `message_sender`. -/
def receive (s : State κ) : Mail κ → Except Exit (State κ × List (Mail κ) × Option ℤ)
  | .numbers client [number] =>
      return ({ count := 0
                currentResult := OrderedMap.empty
                messageSender := s.messageSender.or client }, [], some number)
  | .numbers client data =>
      return ({ count := batchCount 3 data.length
                currentResult := OrderedMap.empty
                messageSender := s.messageSender.or client },
        (List.range (batchCount 3 data.length)).map fun count =>
          .compare ((data.drop (3 * count)).take 3) count, none)
  | .compare [] _ => throw .undefined
  | .compare (number :: numbers) index =>
      return (s, [.result (numberCompare (number :: numbers)) index], none)
  | .result r id =>
      let s := { s with currentResult := s.currentResult.emplace id r }
      if s.count = s.currentResult.size then
        return (s, [.numbers none (s.currentResult.entries.map Prod.snd)], none)
      else
        return (s, [], none)

/-! ### Where the actor is -/

/-- The place and the value of what a mail of a round stands for. -/
def Mail.value? : Mail κ → Option (ℕ × ℤ)
  | .compare (first :: others) index => some (index, numberCompare (first :: others))
  | .result r id => some (id, r)
  | _ => none

/-- How many turns a mail of a round takes. -/
def Mail.effort : Mail κ → ℕ
  | .compare _ _ => 2
  | _ => 1

/-- Who has sent the numbers. -/
def Mail.client? : Mail κ → Option κ
  | .numbers client _ => client
  | _ => none

@[simp] lemma Mail.effort_compare (numbers : List ℤ) (index : ℕ) :
    (compare numbers index : Mail κ).effort = 2 := rfl

@[simp] lemma Mail.effort_result (r : ℤ) (id : ℕ) : (result r id : Mail κ).effort = 1 := rfl

/-- The turns that so many numbers take. -/
def rounds (n : ℕ) : ℕ :=
  if h : 2 ≤ n then
    have := batchCount_lt (k := 3) (by decide) h
    1 + batchCount 3 n * 2 + rounds (batchCount 3 n)
  else 1

lemma rounds_pos (n : ℕ) : 0 < rounds n := by
  rw [rounds]
  split
  · exact Nat.add_pos_left (Nat.add_pos_left Nat.one_pos _) _
  · exact Nat.one_pos

lemma rounds_of_two_le {n : ℕ} (h : 2 ≤ n) :
    rounds n = 1 + batchCount 3 n * 2 + rounds (batchCount 3 n) := by
  rw [rounds, dif_pos h]

/-- Some of the `n` results of a round are there, and the others are under way. -/
structure Gathers (f : ℕ → ℤ) (n : ℕ) (s : State κ) (mails : List (Mail κ)) : Prop where
  count : s.count = n
  values : ∀ mail ∈ mails, mail.value?.isSome
  collecting : Collecting f n (mails.filterMap Mail.value?) s.currentResult

/-- Where the actor is, and the number of turns that are left. -/
inductive Phase (least : ℤ) : ℕ → State κ → List (Mail κ) → Prop
  | asked {s : State κ} {client : Option κ} {data : List ℤ}
      (hleast : IsLeast {a | a ∈ data} least) :
      Phase least (rounds data.length) s [.numbers client data]
  | gathering {s : State κ} {mails : List (Mail κ)} {f : ℕ → ℤ} {n : ℕ} (hne : mails ≠ [])
      (h : Gathers f n s mails) (hleast : IsLeast {a | a ∈ (List.range n).map f} least) :
      Phase least ((mails.map Mail.effort).sum + rounds n) s mails
  | rest {s : State κ} : Phase least 0 s []

/-- A turn after which so many are left comes to the result if it is the last one. -/
def Reports (least : ℤ) (turns : ℕ) : Option ℤ → Prop
  | none => 0 < turns
  | some r => turns = 0 ∧ r = least

/-- A turn that deals with the mail comes to the next phase. -/
def Advances (least : ℤ) (turns : ℕ) (s : State κ) (mail : Mail κ) (others : List (Mail κ)) :
    Prop :=
  ∃ turns' s' sent answer, turns = turns' + 1 ∧ receive s mail = .ok (s', sent, answer)
    ∧ s'.messageSender = s.messageSender.or mail.client?
    ∧ Phase least turns' s' (others ++ sent) ∧ Reports least turns' answer

variable {least : ℤ} {turns n : ℕ} {s : State κ} {f : ℕ → ℤ}

/-! ### The turns -/

/-- The least of the batches is the least of the numbers. -/
lemma isLeast_batches {data : List ℤ} (hleast : IsLeast {a | a ∈ data} least) :
    IsLeast {a | a ∈ (List.range (batchCount 3 data.length)).map fun count =>
      numberCompare ((data.drop (3 * count)).take 3)} least := by
  have hpos : 0 < data.length := List.length_pos_of_mem hleast.1
  have hne : (batches 3 data).map numberCompare ≠ [] := by
    refine List.ne_nil_of_length_pos ?_
    rw [List.length_map, length_batches]
    exact batchCount_pos (by decide) hpos
  have hfound := isLeast_numberCompare hne
  have hbatch : ∀ batch ∈ batches 3 data, IsLeast {a | a ∈ batch} (numberCompare batch) :=
    fun batch h => isLeast_numberCompare (ne_nil_of_mem_batches (by decide) h)
  rw [hleast.unique (isLeast_of_batches (by decide) hbatch hfound)]
  rw [batches, List.map_map] at hfound ⊢
  exact hfound

/-- What two numbers or more come to. -/
lemma receive_numbers (s : State κ) (client : Option κ) {data : List ℤ} (h : 2 ≤ data.length) :
    receive s (.numbers client data) = .ok
      (⟨batchCount 3 data.length, OrderedMap.empty, s.messageSender.or client⟩,
        (List.range (batchCount 3 data.length)).map fun count =>
          .compare ((data.drop (3 * count)).take 3) count, none) := by
  rcases data with - | ⟨number, - | ⟨next, rest⟩⟩
  · exact absurd h (by simp)
  · exact absurd h (by simp)
  · rfl

lemma Mail.value?_compare {numbers : List ℤ} (hne : numbers ≠ []) (index : ℕ) :
    (compare numbers index : Mail κ).value? = some (index, numberCompare numbers) := by
  cases numbers with
  | nil => exact absurd rfl hne
  | cons number numbers => rfl

/-- The batches of a round are handed out. -/
lemma gathers_batches (sender : Option κ) (data : List ℤ) :
    Gathers (fun count => numberCompare ((data.drop (3 * count)).take 3))
      (batchCount 3 data.length) ⟨batchCount 3 data.length, OrderedMap.empty, sender⟩
      ((List.range (batchCount 3 data.length)).map fun count =>
        .compare ((data.drop (3 * count)).take 3) count) := by
  have hvalue : ∀ count ∈ List.range (batchCount 3 data.length),
      (Mail.compare ((data.drop (3 * count)).take 3) count : Mail κ).value?
        = some (count, numberCompare ((data.drop (3 * count)).take 3)) :=
    fun count hcount => Mail.value?_compare (ne_nil_of_mem_batches (by decide)
      (List.mem_map.mpr ⟨count, hcount, rfl⟩)) count
  refine ⟨rfl, ?_, ?_⟩
  · intro mail hmail
    obtain ⟨count, hcount, rfl⟩ := List.mem_map.mp hmail
    rw [hvalue count hcount, Option.isSome_some]
  · rw [filterMap_map_range hvalue]
    exact Collecting.start _ _

/-- The numbers arrive: the one that there is, or those that make the batches of a round. -/
lemma advances_numbers (s : State κ) (client : Option κ) {data : List ℤ}
    (hleast : IsLeast {a | a ∈ data} least) :
    Advances least (rounds data.length) s (.numbers client data) [] := by
  by_cases hlength : 2 ≤ data.length
  · have hpos := batchCount_pos (k := 3) (n := data.length) (by decide) (by omega)
    refine ⟨_, _, _, _, ?_, receive_numbers s client hlength, rfl,
      Phase.gathering ?_ (gathers_batches _ data) (isLeast_batches hleast), ?_⟩
    · rw [rounds_of_two_le hlength, List.nil_append,
        sum_map_range fun _ _ => Mail.effort_compare _ _]
      omega
    · refine List.ne_nil_of_length_pos ?_
      rw [List.nil_append, List.length_map, List.length_range]
      exact hpos
    · exact Nat.add_pos_right _ (rounds_pos _)
  · obtain ⟨number, rfl⟩ : ∃ number, data = [number] := by
      have hpos : 0 < data.length := List.length_pos_of_mem hleast.1
      exact List.length_eq_one_iff.mp (by omega)
    have hnumber : number = least := (List.mem_singleton.mp hleast.1).symm
    refine ⟨0, _, _, _, ?_, rfl, rfl, Phase.rest, rfl, hnumber⟩
    rw [rounds, dif_neg hlength]

/-- The order of the mails does not matter. -/
lemma Gathers.perm {mails mails' : List (Mail κ)} (h : Gathers f n s mails)
    (hperm : mails.Perm mails') : Gathers f n s mails' where
  count := h.count
  values := fun mail hmail => h.values mail (hperm.mem_iff.mpr hmail)
  collecting := h.collecting.perm (hperm.filterMap Mail.value?)

/-- A worker finds the least number of a batch. -/
lemma advances_compare {numbers : List ℤ} {index : ℕ} {others : List (Mail κ)}
    (h : Gathers f n s (.compare numbers index :: others))
    (hleast : IsLeast {a | a ∈ (List.range n).map f} least) :
    Advances least (((Mail.compare numbers index :: others).map Mail.effort).sum + rounds n) s
      (.compare numbers index) others := by
  cases numbers with
  | nil => exact Bool.noConfusion (h.values _ List.mem_cons_self)
  | cons number numbers =>
      have hperm : (others ++ [Mail.result (numberCompare (number :: numbers)) index]).Perm
          (.result (numberCompare (number :: numbers)) index :: others) :=
        List.perm_append_singleton _ _
      have hgathers : Gathers f n s
          (others ++ [Mail.result (numberCompare (number :: numbers)) index]) := by
        refine ⟨h.count, fun mail hmail => ?_, ?_⟩
        · rcases List.mem_cons.mp (hperm.mem_iff.mp hmail) with rfl | hmail
          · rfl
          · exact h.values mail (List.mem_cons_of_mem _ hmail)
        · exact h.collecting.perm (hperm.filterMap Mail.value?).symm
      refine ⟨_, _, _, _, ?_, rfl, (Option.or_none).symm,
        Phase.gathering (by simp) hgathers hleast, Nat.add_pos_right _ (rounds_pos n)⟩
      rw [List.map_append, List.sum_append, List.map_singleton, List.sum_singleton,
        Mail.effort_result, List.map_cons, List.sum_cons, Mail.effort_compare]
      omega

/-- A result arrives; with the last one the next round is begun. -/
lemma advances_result {r : ℤ} {id : ℕ} {others : List (Mail κ)}
    (h : Gathers f n s (.result r id :: others))
    (hleast : IsLeast {a | a ∈ (List.range n).map f} least) :
    Advances least (((Mail.result r id :: others).map Mail.effort).sum + rounds n) s
      (.result r id) others := by
  have hcollecting : Collecting f n (others.filterMap Mail.value?) (s.currentResult.emplace id r) :=
    h.collecting.arrive
  have hsize := hcollecting.size_add
  have hothers : (others.filterMap Mail.value?).length = others.length :=
    List.filterMap_length_eq_length.mpr fun mail hmail =>
      h.values mail (List.mem_cons_of_mem _ hmail)
  have hcount := h.count
  rw [List.map_cons, List.sum_cons, Mail.effort_result]
  by_cases hnil : others = []
  · subst hnil
    have hlast : s.count = (s.currentResult.emplace id r).size := by
      rw [List.length_nil] at hothers
      omega
    have hreceive : receive s (.result r id) = .ok
        ({ s with currentResult := s.currentResult.emplace id r },
          [.numbers none ((List.range n).map f)], none) := by
      simp only [receive]
      rw [if_pos hlast, hcollecting.done, List.map_map]
      rfl
    have hphase : Phase least _ { s with currentResult := s.currentResult.emplace id r }
        [.numbers none ((List.range n).map f)] := Phase.asked hleast
    rw [List.length_map, List.length_range] at hphase
    refine ⟨_, _, _, _, ?_, hreceive, (Option.or_none).symm, hphase, rounds_pos n⟩
    rw [List.map_nil, List.sum_nil, Nat.add_zero, Nat.add_comm]
  · have hpos := List.length_pos_of_ne_nil hnil
    have hreceive : receive s (.result r id) = .ok
        ({ s with currentResult := s.currentResult.emplace id r }, [], none) := by
      simp only [receive]
      rw [if_neg (by omega)]
      rfl
    have hgathers : Gathers f n { s with currentResult := s.currentResult.emplace id r } others :=
      ⟨h.count, fun mail hmail => h.values mail (List.mem_cons_of_mem _ hmail), hcollecting⟩
    refine ⟨(others.map Mail.effort).sum + rounds n, _, _, _, by omega, hreceive,
      (Option.or_none).symm, ?_, Nat.add_pos_right _ (rounds_pos n)⟩
    rw [List.append_nil]
    exact Phase.gathering hnil hgathers hleast

/-- **One turn.**  Whatever mail is dealt with next, the actor comes to the next phase, and with the
last turn to the least number. -/
theorem Phase.turn {mails others : List (Mail κ)} {mail : Mail κ} (h : Phase least turns s mails)
    (hperm : mails.Perm (mail :: others)) : Advances least turns s mail others := by
  cases h with
  | asked hleast =>
      obtain ⟨rfl, rfl⟩ := List.cons_eq_cons.mp (List.singleton_perm.mp hperm)
      exact advances_numbers s _ hleast
  | gathering hne h hleast =>
      have hgathers := h.perm hperm
      rw [(hperm.map Mail.effort).sum_nat]
      cases mail with
      | numbers client data => exact Bool.noConfusion (hgathers.values _ List.mem_cons_self)
      | compare numbers index => exact advances_compare hgathers hleast
      | result r id => exact advances_result hgathers hleast
  | rest => exact absurd hperm.length_eq (by simp)

/-- No turn is left when no mail is, and only then. -/
lemma Phase.rest_iff {mails : List (Mail κ)} (h : Phase least turns s mails) :
    turns = 0 ↔ mails = [] := by
  cases h with
  | asked hleast => exact iff_of_false (rounds_pos _).ne' (List.cons_ne_nil _ _)
  | @gathering _ _ _ n hne h hleast =>
      exact iff_of_false (Nat.add_pos_right _ (rounds_pos n)).ne' hne
  | rest => exact iff_of_true rfl rfl

/-! ### The actor with its clients -/

/-- The actor, what is on its way to it, and who has asked and who was answered. -/
structure Finder (κ : Type) where
  state : State κ := {}
  mail : List (Mail κ) := []
  asked : List (κ × List ℤ) := []
  answered : List (Option κ × ℤ) := []

/-- What can happen next. -/
inductive FinderTurn (κ : Type) where
  /-- A client asks. -/
  | ask (client : κ) (data : List ℤ)
  /-- One of the mails is dealt with. -/
  | deal (k : ℕ)

namespace Finder

/-- One turn. -/
def step (s : Finder κ) : FinderTurn κ → Except Exit (Finder κ)
  | .ask client data =>
      return { s with
        mail := s.mail ++ [.numbers (some client) data]
        asked := s.asked ++ [(client, data)] }
  | .deal k =>
      match s.mail[k]? with
      | some mail => do
          let (state, sent, answer) ← receive s.state mail
          return { s with
            state := state
            mail := s.mail.eraseIdx k ++ sent
            answered := s.answered ++ answer.toList.map (state.messageSender, ·) }
      | none => return s

/-- One turn more, unless one before has failed. -/
def go (s : Except Exit (Finder κ)) (t : FinderTurn κ) : Except Exit (Finder κ) := do
  step (← s) t

/-- Clients ask one after the other, each for some numbers and when nothing is under way. -/
def Polite : Except Exit (Finder κ) → FinderTurn κ → Prop
  | .ok s, .ask _ data => data ≠ [] ∧ s.mail = []
  | _, _ => True

/-- There is something to do. -/
def Does : Except Exit (Finder κ) → FinderTurn κ → Prop
  | .ok s, .deal k => k < s.mail.length
  | _, _ => False

instance : ∀ (s : Except Exit (Finder κ)) (t : FinderTurn κ), Decidable (Polite s t)
  | .ok _, .ask _ _ => inferInstanceAs (Decidable (_ ∧ _))
  | .ok _, .deal _ => inferInstanceAs (Decidable True)
  | .error _, _ => inferInstanceAs (Decidable True)

instance : ∀ (s : Except Exit (Finder κ)) (t : FinderTurn κ), Decidable (Does s t)
  | .ok _, .ask _ _ => inferInstanceAs (Decidable False)
  | .ok s, .deal k => inferInstanceAs (Decidable (k < s.mail.length))
  | .error _, _ => inferInstanceAs (Decidable False)

/-- The first who has asked. -/
def first (s : Finder κ) : Option κ := s.asked.head?.map Prod.fst

/-- The answer is the least number, for `first`. -/
def Right (first : Option κ) (asking : κ × List ℤ) (answer : Option κ × ℤ) : Prop :=
  answer.1 = first ∧ IsLeast {a | a ∈ asking.2} answer.2

/-- Where the actor is with those who have asked, and the number of turns that are left. -/
inductive Stage : ℕ → Finder κ → Prop
  | rest {s : Finder κ} (hmail : s.mail = []) (hsender : s.state.messageSender = s.first)
      (h : List.Forall₂ (Right s.first) s.asked s.answered) : Stage 0 s
  | working {s : Finder κ} {before : List (κ × List ℤ)} {client : κ} {data : List ℤ} {least : ℤ}
      {n : ℕ} (hasked : s.asked = before ++ [(client, data)])
      (hanswered : List.Forall₂ (Right s.first) before s.answered)
      (hleast : IsLeast {a | a ∈ data} least) (hphase : Phase least n s.state s.mail)
      (hne : s.mail ≠ [])
      (hsender : ∀ mail ∈ s.mail, s.state.messageSender.or mail.client? = s.first) : Stage n s

variable {s : Finder κ}

/-- Any turn with something to do comes to the next stage. -/
theorem Stage.deal {n k : ℕ} (h : Stage n s) (hk : k < s.mail.length) :
    ∃ n' s', n = n' + 1 ∧ s.step (.deal k) = .ok s' ∧ Stage n' s' ∧ s'.asked = s.asked := by
  cases h with
  | rest hmail hsender h => exact absurd hk (not_lt_length_nil hmail)
  | @working _ before client data least _ hasked hanswered hleast hphase hne hsender =>
      obtain ⟨left, state, sent, answer, rfl, hreceive, hstate, hphase', hreports⟩ :=
        hphase.turn (List.getElem_cons_eraseIdx_perm hk).symm
      have hfirst : state.messageSender = s.first :=
        hstate.trans (hsender _ (List.getElem_mem hk))
      obtain ⟨c, hc⟩ : ∃ c, s.first = some c := by
        rw [first, hasked]
        cases before with
        | nil => exact ⟨client, rfl⟩
        | cons asking before => exact ⟨asking.1, rfl⟩
      refine ⟨left, { s with
        state := state
        mail := s.mail.eraseIdx k ++ sent
        answered := s.answered ++ answer.toList.map (state.messageSender, ·) }, rfl, ?_, ?_, rfl⟩
      · simp only [step, List.getElem?_eq_getElem hk, hreceive]
        rfl
      · cases answer with
        | none =>
            rw [Option.toList_none, List.map_nil, List.append_nil]
            refine Stage.working hasked hanswered hleast hphase' ?_ fun mail _ => ?_
            · exact mt hphase'.rest_iff.mpr (Nat.pos_iff_ne_zero.mp hreports)
            · change state.messageSender.or mail.client? = s.first
              rw [hfirst, hc, Option.some_or]
        | some r =>
            obtain ⟨rfl, rfl⟩ := hreports
            refine Stage.rest (hphase'.rest_iff.mp rfl) hfirst ?_
            change List.Forall₂ (Right s.first) s.asked _
            rw [hasked]
            exact List.rel_append hanswered (List.Forall₂.cons ⟨hfirst, hleast⟩ List.Forall₂.nil)

/-- No turn is left when nothing is under way, and only then. -/
lemma Stage.rest_iff {n : ℕ} (h : Stage n s) : n = 0 ↔ s.mail = [] := by
  cases h with
  | rest hmail hsender h => exact iff_of_true rfl hmail
  | working hasked hanswered hleast hphase hne hsender => exact hphase.rest_iff

/-- A client asks. -/
lemma Stage.ask {n : ℕ} (h : Stage n s) (hrest : s.mail = []) (client : κ) {data : List ℤ}
    (hne : data ≠ []) :
    ∃ s', s.step (.ask client data) = .ok s' ∧ Stage (rounds data.length) s'
      ∧ s'.asked = s.asked ++ [(client, data)] := by
  cases h.rest_iff.mpr hrest
  cases h with
  | working hasked hanswered hleast hphase hne hsender => exact absurd hrest hne
  | rest hmail hsender h =>
      have hleast := isLeast_numberCompare hne
      refine ⟨{ s with
        mail := [.numbers (some client) data]
        asked := s.asked ++ [(client, data)] }, ?_, ?_, rfl⟩
      · rw [step, hmail]
        rfl
      · refine Stage.working rfl ?_ hleast (Phase.asked hleast) (List.cons_ne_nil _ _) ?_
        · cases hasked : s.asked with
          | nil =>
              rw [hasked] at h
              rw [List.forall₂_nil_left_iff.mp h]
              exact List.Forall₂.nil
          | cons asking asked =>
              have hfirst : s.first = some asking.1 := by rw [first, hasked]; rfl
              rw [hasked, hfirst] at h
              exact h
        · intro mail hmem
          rw [List.mem_singleton.mp hmem]
          change s.state.messageSender.or (some client)
            = (s.asked ++ [(client, data)]).head?.map Prod.fst
          rw [hsender, first]
          cases s.asked <;> rfl

/-- The actor is at a stage. -/
def Staged (s : Except Exit (Finder κ)) : Prop := ∃ n s', s = .ok s' ∧ Stage n s'

lemma staged_go {s : Except Exit (Finder κ)} (h : Staged s) {t : FinderTurn κ}
    (hpolite : Polite s t) : Staged (go s t) := by
  obtain ⟨n, s, rfl, h⟩ := h
  cases t with
  | ask client data =>
      obtain ⟨hne, hrest⟩ : data ≠ [] ∧ s.mail = [] := hpolite
      obtain ⟨s', hstep, hstage, -⟩ := h.ask hrest client hne
      exact ⟨_, s', hstep, hstage⟩
  | deal k =>
      by_cases hk : k < s.mail.length
      · obtain ⟨n', s', -, hstep, hstage, -⟩ := h.deal hk
        exact ⟨n', s', hstep, hstage⟩
      · have hnone : s.mail[k]? = none := List.getElem?_eq_none (Nat.le_of_not_lt hk)
        have hstep : go (.ok s) (.deal k) = .ok s := by
          change step s (.deal k) = .ok s
          simp only [step, hnone]
          rfl
        exact ⟨n, s, hstep, h⟩

lemma staged_always {turns : List (FinderTurn κ)} (h : Run.Each go Polite (.ok {}) turns) :
    Run.Always go Staged (.ok {}) turns :=
  Run.always_of_each (P := Staged) (fun _ _ hstaged => staged_go hstaged)
    ⟨0, {}, rfl, Stage.rest rfl rfl List.Forall₂.nil⟩ h

/-- So many turns are left, and these have asked. -/
def Left (asked : List (κ × List ℤ)) (n : ℕ) (s : Except Exit (Finder κ)) : Prop :=
  ∃ s', s = .ok s' ∧ Stage n s' ∧ s'.asked = asked

lemma Left.turn {asked : List (κ × List ℤ)} {n : ℕ} {s : Except Exit (Finder κ)}
    {t : FinderTurn κ} (h : Left asked n s) (hdoes : Does s t) :
    ∃ n', n = n' + 1 ∧ Left asked n' (go s t) := by
  obtain ⟨s, rfl, hstage, rfl⟩ := h
  cases t with
  | ask client data => exact absurd hdoes id
  | deal k =>
      obtain ⟨n', s', hn, hstep, hstage', hasked⟩ := hstage.deal hdoes
      exact ⟨n', hn, s', hstep, hstage', hasked⟩

/-- **The least number in rounds.**  Clients ask one after the other, and the mails to the actor and
the tasks of the workers are dealt with in any order.  From any state that is reached so, and in
which nothing is under way, the next client's numbers take so many turns and not more, and then each
of those who have asked has had the least of their numbers found, in their order; all answers go to
the first of them. -/
theorem found_of_ask {before : List (FinderTurn κ)}
    (hpolite : Run.Each go Polite (.ok {}) before) {s : Finder κ}
    (hs : Run.run go (.ok {}) before = .ok s) (hrest : s.mail = []) (client : κ) {data : List ℤ}
    (hne : data ≠ []) {after : List (FinderTurn κ)}
    (hdoes : Run.Each go Does (go (.ok s) (.ask client data)) after) :
    ∃ s', Run.run go (go (.ok s) (.ask client data)) after = .ok s'
      ∧ after.length ≤ rounds data.length
      ∧ (s'.mail = [] ↔ after.length = rounds data.length)
      ∧ (s'.mail = [] →
        List.Forall₂ (Right s'.first) (s.asked ++ [(client, data)]) s'.answered) := by
  obtain ⟨n, s₀, hs₀, hstage⟩ := (staged_always hpolite).last
  cases hs.symm.trans hs₀
  obtain ⟨s₁, hstep, hstage₁, hasked₁⟩ := hstage.ask hrest client hne
  have hleft : Left (s.asked ++ [(client, data)]) _ (go (.ok s) (.ask client data)) :=
    ⟨s₁, hstep, hstage₁, hasked₁⟩
  obtain ⟨n', hlength, s', hrun, hstage', hasked⟩ :=
    Run.Each.countdown (fun _ _ _ => Left.turn) hleft hdoes
  refine ⟨s', hrun, by omega, ?_, fun hrest' => ?_⟩
  · rw [← hstage'.rest_iff]
    omega
  · cases hstage'.rest_iff.mpr hrest'
    cases hstage' with
    | working hasked hanswered hleast hphase hne hsender => exact absurd hrest' hne
    | rest hmail hsender h =>
        exact hasked ▸ h

/-- The results of two batches, in the other order. -/
def otherOrder : List (FinderTurn ℕ) :=
  [.deal 0, .deal 1, .deal 0, .deal 0, .deal 0, .deal 0, .deal 0, .deal 0, .deal 0]

/-- Two clients ask, and both answers go to the first. -/
theorem found_of_ask_two :
    ∃ s' : Finder ℕ,
      Run.run go (go (Run.run go (.ok {}) [.ask 7 [6], .deal 0]) (.ask 8 [4, 2, 5, 3])) otherOrder
        = .ok s'
      ∧ otherOrder.length ≤ rounds 4
      ∧ (s'.mail = [] ↔ otherOrder.length = rounds 4)
      ∧ (s'.mail = [] →
        List.Forall₂ (Right s'.first) [(7, [6]), (8, [4, 2, 5, 3])] s'.answered) := by
  have hpolite : Run.Each go Polite (.ok {} : Except Exit (Finder ℕ)) [.ask 7 [6], .deal 0] := by
    decide
  exact found_of_ask hpolite rfl rfl 8 (by decide) (by decide)

end Finder

end FinalResult

end Yanghui

end Cdcf
