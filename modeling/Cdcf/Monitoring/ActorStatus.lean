import Cdcf.Library.Run
import Cdcf.Library.UnorderedMap

/-!
The actors that a node reports (`actor_status_monitor.cc`).

`RegisterActor` enters an actor into `actor_status_` and then, after it has given up the lock, has
an `ActorMonitor` monitor it.  When a monitored actor terminates, the monitor gets a down message,
whose handler takes the entry out again; monitoring an actor that has terminated brings the message
at once.  So the two threads may find each other in any order, and an actor may be registered again,
or only after it has terminated.

* `Tracks`: the invariant: a terminated actor that is still listed is about to be taken out.
* `reports_exactly`: what `GetActorStatus` returns, after any turns.
-/

namespace Cdcf

/-- `ActorStatusMonitor::ActorInfo`. -/
structure ActorInfo where
  id : UInt64
  name : String
  description : String
  deriving DecidableEq, Repr

/-- `ActorStatusMonitor`, its `ActorMonitor`, and the actors. -/
structure StatusMonitor where
  /-- `actor_status_`. -/
  status : UnorderedMap UInt64 ActorInfo := UnorderedMap.empty
  /-- The calls of `RegisterActor` that have given up the lock, before `SetMonitor`. -/
  calls : List UInt64 := []
  /-- The actors that `actor_monitor_` monitors, as often as it does. -/
  monitored : List UInt64 := []
  terminated : List UInt64 := []
  /-- The down messages in the mailbox of `actor_monitor_`. -/
  mailbox : List UInt64 := []

/-- What can happen next. -/
inductive StatusTurn where
  /-- `RegisterActor`, up to `SetMonitor`. -/
  | registerActor (info : ActorInfo)
  /-- `SetMonitor` in a call of `RegisterActor`. -/
  | setMonitor (i : ℕ)
  | terminate (id : UInt64)
  /-- The handler of a down message. -/
  | down (i : ℕ)
  deriving DecidableEq, Repr

namespace StatusMonitor

/-- `ActorStatusMonitor::GetActorStatus`. -/
def getActorStatus (s : StatusMonitor) : List ActorInfo := s.status.values

/-- `actor_monitor_` begins to monitor an actor. -/
def monitor (s : StatusMonitor) (id : UInt64) : StatusMonitor :=
  if id ∈ s.terminated then { s with mailbox := s.mailbox ++ [id] }
  else { s with monitored := s.monitored ++ [id] }

/-- A turn; one that cannot be taken changes nothing. -/
def step (s : StatusMonitor) : StatusTurn → StatusMonitor
  | .registerActor info =>
    { s with status := s.status.assign info.id info, calls := s.calls ++ [info.id] }
  | .setMonitor i =>
    match s.calls[i]? with
    | some id => monitor { s with calls := s.calls.eraseIdx i } id
    | none => s
  | .terminate id =>
    if id ∈ s.terminated then s
    else
      { s with
        terminated := s.terminated ++ [id]
        mailbox := s.mailbox ++ s.monitored.filter (· = id)
        monitored := s.monitored.filter (· ≠ id) }
  | .down i =>
    match s.mailbox[i]? with
    | some id => { s with status := s.status.erase id, mailbox := s.mailbox.eraseIdx i }
    | none => s

/-- What the last `RegisterActor` of the actor said of it. -/
def lastInfo (turns : List StatusTurn) (id : UInt64) : Option ActorInfo :=
  turns.foldl
    (fun last turn => match turn with
      | .registerActor info => if info.id = id then some info else last
      | .setMonitor _ | .terminate _ | .down _ => last)
    none

/-- No actor is listed twice.  One that has not terminated is listed as it was last registered, and
one that has is not listed, unless a call of `RegisterActor` or a down message about it is under
way. -/
structure Reports (turns : List StatusTurn) (s : StatusMonitor) : Prop where
  once : (s.getActorStatus.map ActorInfo.id).Nodup
  running : ∀ info, .terminate info.id ∉ turns →
    (info ∈ s.getActorStatus ↔ lastInfo turns info.id = some info)
  terminated : ∀ info, .terminate info.id ∈ turns → info.id ∉ s.calls → info.id ∉ s.mailbox →
    info ∉ s.getActorStatus

/-- The invariant. -/
structure Tracks (turns : List StatusTurn) (s : StatusMonitor) : Prop where
  key : ∀ id info, s.status.get? id = some info → info.id = id
  terminated : ∀ id, id ∈ s.terminated ↔ .terminate id ∈ turns
  mailbox : ∀ id ∈ s.mailbox, id ∈ s.terminated
  running : ∀ id, id ∉ s.terminated → s.status.get? id = lastInfo turns id
  watched : ∀ id info, s.status.get? id = some info →
    id ∈ s.calls ∨ id ∈ s.mailbox ∨ id ∈ s.monitored ∧ id ∉ s.terminated

lemma lastInfo_append (turns : List StatusTurn) (turn : StatusTurn) (id : UInt64) :
    lastInfo (turns ++ [turn]) id
      = match turn with
        | .registerActor info => if info.id = id then some info else lastInfo turns id
        | .setMonitor _ | .terminate _ | .down _ => lastInfo turns id := by
  rw [lastInfo, List.foldl_append]
  rfl

/-- An entry of a list is the one that is taken out, or stays. -/
lemma eq_or_mem_eraseIdx {α : Type*} {l : List α} {i : ℕ} {a b : α} (hi : l[i]? = some a)
    (hb : b ∈ l) : b = a ∨ b ∈ l.eraseIdx i := by
  obtain ⟨j, hj⟩ := List.mem_iff_getElem?.mp hb
  by_cases hji : j = i
  · subst hji
    exact Or.inl (Option.some.inj (hj.symm.trans hi))
  · exact Or.inr (List.mem_eraseIdx_iff_getElem?.mpr ⟨j, hji, hj⟩)

lemma tracks_start : Tracks [] {} where
  key := by simp
  terminated := by simp
  mailbox := by simp
  running := fun _ _ => rfl
  watched := by simp

namespace Tracks

variable {turns : List StatusTurn} {s : StatusMonitor}

lemma mem_getActorStatus (h : s.Tracks turns) {info : ActorInfo} :
    info ∈ s.getActorStatus ↔ s.status.get? info.id = some info := by
  rw [getActorStatus, UnorderedMap.values, List.mem_map]
  constructor
  · rintro ⟨⟨id, info'⟩, hentry, rfl⟩
    have hget := UnorderedMap.mem_entries_iff.mp hentry
    rwa [h.key id info' hget]
  · exact fun hget => ⟨(info.id, info), UnorderedMap.mem_entries_iff.mpr hget, rfl⟩

/-- The entries are listed under the ids of their actors. -/
lemma map_id_getActorStatus (h : s.Tracks turns) :
    s.getActorStatus.map ActorInfo.id = s.status.entries.map Prod.fst := by
  rw [getActorStatus, UnorderedMap.values, List.map_map]
  exact List.map_congr_left fun entry hentry =>
    h.key entry.1 entry.2 (UnorderedMap.mem_entries_iff.mp hentry)

lemma reports (h : s.Tracks turns) : s.Reports turns where
  once := h.map_id_getActorStatus ▸ s.status.nodup
  running := by
    intro info hrunning
    rw [h.mem_getActorStatus, h.running info.id (mt (h.terminated info.id).mp hrunning)]
  terminated := by
    intro info hterminated hcalls hmailbox hlisted
    rcases h.watched info.id info (h.mem_getActorStatus.mp hlisted) with hcall | hmail | hwatch
    · exact hcalls hcall
    · exact hmailbox hmail
    · exact hwatch.2 ((h.terminated info.id).mpr hterminated)

/-- A turn that registers and terminates nobody, and has no effect. -/
lemma idle (h : s.Tracks turns) {turn : StatusTurn}
    (hlast : ∀ id, lastInfo (turns ++ [turn]) id = lastInfo turns id)
    (hterminated : ∀ id, .terminate id ∈ turns ++ [turn] ↔ .terminate id ∈ turns) :
    s.Tracks (turns ++ [turn]) where
  key := h.key
  terminated := fun id => (h.terminated id).trans (hterminated id).symm
  mailbox := h.mailbox
  running := fun id hid => (h.running id hid).trans (hlast id).symm
  watched := h.watched

lemma registerActor (h : s.Tracks turns) (info : ActorInfo) :
    (s.step (.registerActor info)).Tracks (turns ++ [.registerActor info]) where
  key := by
    intro id info' hget
    rw [step, UnorderedMap.get?_assign] at hget
    split at hget
    · next hid => exact Option.some.inj hget ▸ hid.symm
    · exact h.key id info' hget
  terminated := fun id => (h.terminated id).trans (by simp)
  mailbox := h.mailbox
  running := by
    intro id hid
    rw [step, UnorderedMap.get?_assign, lastInfo_append]
    dsimp only
    by_cases heq : info.id = id
    · rw [if_pos heq.symm, if_pos heq]
    · rw [if_neg (Ne.symm heq), if_neg heq]
      exact h.running id hid
  watched := by
    intro id info' hget
    rw [step, UnorderedMap.get?_assign] at hget
    split at hget
    · next hid => exact Or.inl (List.mem_append_right _ (List.mem_singleton.mpr hid))
    · exact (h.watched id info' hget).imp_left (List.mem_append_left _)

lemma setMonitor (h : s.Tracks turns) (i : ℕ) :
    (s.step (.setMonitor i)).Tracks (turns ++ [.setMonitor i]) := by
  have hidle : s.Tracks (turns ++ [.setMonitor i]) :=
    h.idle (fun id => lastInfo_append turns _ id) (by simp)
  rw [step]
  split
  · next id₀ hi =>
      rw [monitor]
      split
      · next hterminated =>
          refine { hidle with mailbox := ?_, watched := ?_ }
          · intro id hid
            rcases List.mem_append.mp hid with hid | hid
            · exact h.mailbox id hid
            · exact List.mem_singleton.mp hid ▸ hterminated
          · intro id info hget
            rcases h.watched id info hget with hcall | hmail | hwatch
            · rcases eq_or_mem_eraseIdx hi hcall with rfl | hcall
              · exact Or.inr (Or.inl (List.mem_append_right _ (List.mem_singleton_self id)))
              · exact Or.inl hcall
            · exact Or.inr (Or.inl (List.mem_append_left _ hmail))
            · exact Or.inr (Or.inr hwatch)
      · next hrunning =>
          refine { hidle with watched := ?_ }
          intro id info hget
          rcases h.watched id info hget with hcall | hmail | hwatch
          · rcases eq_or_mem_eraseIdx hi hcall with rfl | hcall
            · exact Or.inr (Or.inr ⟨List.mem_append_right _ (List.mem_singleton_self id), hrunning⟩)
            · exact Or.inl hcall
          · exact Or.inr (Or.inl hmail)
          · exact Or.inr (Or.inr ⟨List.mem_append_left _ hwatch.1, hwatch.2⟩)
  · exact hidle

lemma terminate (h : s.Tracks turns) (id₀ : UInt64) :
    (s.step (.terminate id₀)).Tracks (turns ++ [.terminate id₀]) := by
  have hlast : ∀ id, lastInfo (turns ++ [.terminate id₀]) id = lastInfo turns id :=
    fun id => lastInfo_append turns _ id
  rw [step]
  split
  · next hbefore =>
      refine h.idle hlast fun id => ⟨fun hmem => ?_, List.mem_append_left _⟩
      rcases List.mem_append.mp hmem with hmem | hmem
      · exact hmem
      · obtain rfl := StatusTurn.terminate.inj (List.mem_singleton.mp hmem)
        exact (h.terminated id).mp hbefore
  · refine ⟨h.key, fun id => ?_, fun id hid => ?_, fun id hid => ?_, fun id info hget => ?_⟩
    · simp [h.terminated]
    · rcases List.mem_append.mp hid with hid | hid
      · exact List.mem_append_left _ (h.mailbox id hid)
      · refine List.mem_append_right _ (List.mem_singleton.mpr ?_)
        exact of_decide_eq_true (List.mem_filter.mp hid).2
    · rw [hlast]
      exact h.running id fun hmem => hid (List.mem_append_left _ hmem)
    · rcases h.watched id info hget with hcall | hmail | ⟨hwatch, hrunning⟩
      · exact Or.inl hcall
      · exact Or.inr (Or.inl (List.mem_append_left _ hmail))
      · by_cases hid : id = id₀
        · exact Or.inr (Or.inl (List.mem_append_right _
            (List.mem_filter.mpr ⟨hwatch, decide_eq_true hid⟩)))
        · exact Or.inr (Or.inr ⟨List.mem_filter.mpr ⟨hwatch, decide_eq_true hid⟩, by
            simp [hrunning, hid]⟩)

lemma down (h : s.Tracks turns) (i : ℕ) :
    (s.step (.down i)).Tracks (turns ++ [.down i]) := by
  have hidle : s.Tracks (turns ++ [.down i]) :=
    h.idle (fun id => lastInfo_append turns _ id) (by simp)
  rw [step]
  split
  · next id₀ hi =>
      have hterminated := h.mailbox id₀ (List.mem_of_getElem? hi)
      have hget : ∀ id info, (s.status.erase id₀).get? id = some info →
          id ≠ id₀ ∧ s.status.get? id = some info := by
        intro id info hget
        rw [UnorderedMap.get?_erase] at hget
        split at hget
        · exact absurd hget (by simp)
        · next hid => exact ⟨hid, hget⟩
      refine ⟨fun id info hinfo => h.key id info (hget id info hinfo).2, hidle.terminated,
        fun id hid => h.mailbox id (List.mem_of_mem_eraseIdx hid), fun id hid => ?_,
        fun id info hinfo => ?_⟩
      · have hne : id ≠ id₀ := fun heq => hid (heq ▸ hterminated)
        rw [UnorderedMap.get?_erase, if_neg hne]
        exact hidle.running id hid
      · obtain ⟨hne, hinfo⟩ := hget id info hinfo
        rcases h.watched id info hinfo with hcall | hmail | hwatch
        · exact Or.inl hcall
        · exact Or.inr (Or.inl ((eq_or_mem_eraseIdx hi hmail).resolve_left hne))
        · exact Or.inr (Or.inr hwatch)
  · exact hidle

/-- Every turn keeps the invariant. -/
lemma step (h : s.Tracks turns) (turn : StatusTurn) : (s.step turn).Tracks (turns ++ [turn]) := by
  cases turn with
  | registerActor info => exact h.registerActor info
  | setMonitor i => exact h.setMonitor i
  | terminate id => exact h.terminate id
  | down i => exact h.down i

lemma run (h : s.Tracks turns) (later : List StatusTurn) :
    (Run.run StatusMonitor.step s later).Tracks (turns ++ later) := by
  induction later generalizing turns s with
  | nil => rwa [List.append_nil]
  | cons turn later ih =>
      have hrest := ih (h.step turn)
      rwa [List.append_assoc] at hrest

end Tracks

/-- The report is right whatever the order of registrations, terminations and down messages: every
running actor is listed once, as it was last registered, and a terminated actor is gone once no
registration and no down message about it is under way. -/
theorem reports_exactly (turns : List StatusTurn) :
    (Run.run step {} turns).Reports turns :=
  (tracks_start.run turns).reports

end StatusMonitor

end Cdcf
