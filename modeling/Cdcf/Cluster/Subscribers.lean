import Mathlib.Data.List.Nodup
import Cdcf.Cluster.Mirror
import Cdcf.NodeKeeper.Channel

/-!
The channels of `GRPCImpl` (`grpc.cc`, `grpc.h`), with any number of subscribers and of callers of
`Notify`.

`Notify` and `Close` hold the lock of the list of channels while they go through it, and take the
lock of one channel for each `Put` and each `Close`; `Get` takes the lock of its channel only.  So
the other subscribers and the one that is served may read between any two puts of a `Notify`.

* `Service`, `Turn`, `step`: the service, whose calls are interrupted wherever the source gives up a
  lock.
* `Sound`: what a subscriber has got, what waits in its channel and what is still to be put are
  together what is due to it (`sound_step`).
* `delivered_always`: every subscriber gets what is due to it, once and in order, and no more, in
  every run that notifies nothing after `Close`.
-/

namespace Cdcf.Cluster

open Sample

/-- A call of `GRPCImpl::Subscribe`. -/
structure Subscriber where
  channel : Channel MemberEvent := {}
  /-- How many calls of `Notify` had taken the lock when the channel was added. -/
  since : ℕ
  /-- The items that `Get` has returned, in their order. -/
  got : List MemberEvent := []
  /-- `Get` has returned false, which ends the loop. -/
  ended : Bool := false
  deriving DecidableEq, Repr

/-- Who holds the lock of `channels_`, with what is left to do. -/
inductive Holder where
  /-- A `Notify`, with the puts it has not made yet. -/
  | notify (puts : List (ℕ × MemberEvent))
  /-- A `Close`, with the channels it has not closed yet. -/
  | close (channels : List ℕ)
  deriving DecidableEq, Repr

/-- `GRPCImpl`, with the calls of `Subscribe` numbered in the order in which they add their
channels. -/
structure Service where
  /-- `GRPCImpl::host_`. -/
  host : String
  /-- `GRPCImpl::channels_`, by the calls they belong to. -/
  channels : List ℕ := []
  subscribers : List Subscriber := []
  lock : Option Holder := none
  /-- The events of the calls of `Notify` that have taken the lock, in that order. -/
  notified : List (List MemberEvent) := []
  /-- `Close` has taken the lock. -/
  closing : Bool := false
  deriving DecidableEq, Repr

/-- What can happen next. -/
inductive Service.Turn where
  /-- `AddChannel`, in a new call of `Subscribe`. -/
  | subscribe
  /-- A call of `Notify` takes the lock. -/
  | notify (events : List MemberEvent)
  /-- `Close` takes the lock. -/
  | close
  /-- The holder of the lock puts its next item or closes its next channel, or gives the lock up if
  nothing is left. -/
  | proceed
  /-- `Channel::Get`, in the loop of a call of `Subscribe`. -/
  | get (i : ℕ)
  /-- `RemoveChannel`, at the end of a call of `Subscribe`. -/
  | unsubscribe (i : ℕ)
  deriving DecidableEq, Repr

namespace Service

/-- A service without subscribers. -/
def start (host : String) : Service := { host := host }

/-- The two loops of `Notify`, over the channels and over the events. -/
def putsOf (host : String) (channels : List ℕ) (events : List MemberEvent) :
    List (ℕ × MemberEvent) :=
  channels.flatMap fun i => (remote host events).map fun event => (i, event)

/-- What the calls of `Notify` that take the lock after a channel has been added have for it. -/
def due (s : Service) (sub : Subscriber) : List MemberEvent :=
  (s.notified.drop sub.since).flatMap (remote s.host)

/-- One more step of the holder of the lock.  A `Put` that throws ends the `Notify`. -/
def proceed (s : Service) : Holder → Service
  | .notify [] | .close [] => { s with lock := none }
  | .notify ((i, event) :: puts) =>
    match s.subscribers[i]?.bind fun sub => sub.channel.put event with
    | some channel =>
      { s with
        subscribers := s.subscribers.modify i fun sub => { sub with channel := channel }
        lock := some (.notify puts) }
    | none => { s with lock := none }
  | .close (i :: channels) =>
    { s with
      subscribers := s.subscribers.modify i fun sub => { sub with channel := sub.channel.close }
      lock := some (.close channels) }

/-- One `Get` of a call of `Subscribe` that is still in its loop. -/
def get (s : Service) (i : ℕ) (sub : Subscriber) : Service :=
  match sub.channel.get with
  | some (some item, channel) =>
    { s with subscribers := s.subscribers.modify i fun sub =>
        { sub with channel := channel, got := sub.got ++ [item] } }
  | some (none, _) =>
    { s with subscribers := s.subscribers.modify i fun sub => { sub with ended := true } }
  | none => s

/-- A turn; one that has to wait changes nothing. -/
def step (s : Service) : Turn → Service
  | .subscribe =>
    match s.lock with
    | none => { s with
        channels := s.channels ++ [s.subscribers.length]
        subscribers := s.subscribers ++ [{ since := s.notified.length }] }
    | some _ => s
  | .notify events =>
    match s.lock with
    | none => { s with
        lock := some (.notify (putsOf s.host s.channels events))
        notified := s.notified ++ [events] }
    | some _ => s
  | .close =>
    match s.lock with
    | none => { s with lock := some (.close s.channels), closing := true }
    | some _ => s
  | .proceed =>
    match s.lock with
    | none => s
    | some holder => s.proceed holder
  | .get i =>
    match s.subscribers[i]? with
    | some sub => if sub.ended then s else s.get i sub
    | none => s
  | .unsubscribe i =>
    match s.lock, s.subscribers[i]? with
    | none, some sub => if sub.ended then { s with channels := s.channels.erase i } else s
    | _, _ => s

/-- `Close` comes after the last `Notify`. -/
def LastNotify (s : Service) : Turn → Prop
  | .notify _ => s.closing = false
  | .subscribe | .close | .proceed | .get _ | .unsubscribe _ => True

instance (s : Service) : ∀ t, Decidable (s.LastNotify t)
  | .notify _ => inferInstanceAs (Decidable (_ = _))
  | .subscribe | .close | .proceed | .get _ | .unsubscribe _ => isTrue trivial

/-- A subscriber gets what is due to it: what it has got is the first part of that, nothing of it is
lost once no `Notify` is under way, what waits in the channel is got by so many calls of `Get`,
closed or not, and `Get` returns false only when the channel is closed and empty, and then
everything has been got. -/
structure Delivered (s : Service) (i : ℕ) (sub : Subscriber) : Prop where
  got : sub.got <+: s.due sub
  kept : s.lock = none → sub.got ++ sub.channel.queue = s.due sub
  drained : ∃ sub', (Run.run step s (List.replicate sub.channel.queue.length
    (Turn.get i))).subscribers[i]? = some sub' ∧ sub'.got = sub.got ++ sub.channel.queue
  ended : sub.ended = true →
    sub.channel.closed = true ∧ sub.channel.queue = [] ∧ sub.got = s.due sub

/-- Every subscriber gets what is due to it. -/
def AllDelivered (s : Service) : Prop :=
  ∀ i sub, s.subscribers[i]? = some sub → s.Delivered i sub

/-! ### What is still to be put -/

/-- The items that are put into one channel. -/
def addressed (i : ℕ) (puts : List (ℕ × MemberEvent)) : List MemberEvent :=
  (puts.filter fun p => p.1 = i).map Prod.snd

/-- The puts that a `Notify` has not made yet. -/
def putsOfLock : Option Holder → List (ℕ × MemberEvent)
  | some (.notify puts) => puts
  | some (.close _) | none => []

/-- The puts that a `Notify` has not made yet. -/
def puts (s : Service) : List (ℕ × MemberEvent) := putsOfLock s.lock

/-- Nothing is left to put while the lock is free. -/
lemma puts_of_free {s : Service} (hlock : s.lock = none) : s.puts = [] := by
  rw [puts, hlock, putsOfLock]

lemma addressed_cons (i j : ℕ) (event : MemberEvent) (puts : List (ℕ × MemberEvent)) :
    addressed j ((i, event) :: puts)
      = if i = j then event :: addressed j puts else addressed j puts := by
  by_cases h : i = j <;> simp [addressed, h]

/-- A `Notify` puts the events that are not about the own host into every channel, in their
order. -/
lemma addressed_putsOf (host : String) {channels : List ℕ} (hnodup : channels.Nodup)
    (events : List MemberEvent) (i : ℕ) :
    addressed i (putsOf host channels events)
      = if i ∈ channels then remote host events else [] := by
  have hone : ∀ j, addressed i ((remote host events).map fun event => (j, event))
      = if j = i then remote host events else [] := by
    intro j
    by_cases h : j = i <;> simp [addressed, List.filter_map, Function.comp_def, h]
  have happend : ∀ puts puts',
      addressed i (puts ++ puts') = addressed i puts ++ addressed i puts' := by
    intro puts puts'
    rw [addressed, List.filter_append, List.map_append]
    rfl
  induction channels with
  | nil => rfl
  | cons j channels ih =>
      obtain ⟨hj, hnodup⟩ := List.nodup_cons.mp hnodup
      have hrest := ih hnodup
      rw [putsOf, List.flatMap_cons, happend, hone]
      rw [putsOf] at hrest
      rw [hrest]
      by_cases h : j = i
      · subst h
        simp [hj]
      · simp [h, Ne.symm h]

lemma mem_putsOf {host : String} {channels : List ℕ} {events : List MemberEvent}
    {p : ℕ × MemberEvent} (h : p ∈ putsOf host channels events) : p.1 ∈ channels := by
  obtain ⟨i, hi, hp⟩ := List.mem_flatMap.mp h
  obtain ⟨event, -, rfl⟩ := List.mem_map.mp hp
  exact hi

/-! ### The invariant -/

/-- What holds of one call of `Subscribe`: what it has got, what waits in its channel and what is
still to be put are what is due to it, its channel is closed by `Close` only, and its loop has ended
only if the channel is closed and empty. -/
structure Kept (s : Service) (i : ℕ) (sub : Subscriber) : Prop where
  since : sub.since ≤ s.notified.length
  due : sub.got ++ (sub.channel.queue ++ addressed i s.puts) = s.due sub
  closed : sub.channel.closed = true → s.closing = true
  ended : sub.ended = true → sub.channel.closed = true ∧ sub.channel.queue = []

/-- What holds of the service in every run that notifies nothing after `Close`. -/
structure Sound (s : Service) : Prop where
  kept : ∀ i sub, s.subscribers[i]? = some sub → s.Kept i sub
  nodup : s.channels.Nodup
  channels : ∀ i ∈ s.channels, i < s.subscribers.length
  removed : ∀ i sub, s.subscribers[i]? = some sub → i ∉ s.channels → sub.ended = true
  puts : ∀ p ∈ s.puts, p.1 < s.subscribers.length
  closing : s.closing = true → s.puts = []
  closer : ∀ channels, s.lock = some (.close channels) → s.closing = true

lemma sound_start (host : String) : (start host).Sound := by
  refine ⟨fun i sub h => ?_, List.nodup_nil, ?_, fun i sub h => ?_, ?_, fun _ => rfl, ?_⟩
  · simp [start] at h
  · simp [start]
  · simp [start] at h
  · simp [start, puts, putsOfLock]
  · simp [start]

/-- A turn that gives one call of `Subscribe` another state, and has the holder of the lock do a
part of what was left to do, keeps what holds of the others. -/
lemma Sound.modify {s : Service} (h : s.Sound) {i : ℕ} {f : Subscriber → Subscriber}
    {lock : Option Holder}
    (hkept : ∀ sub, s.subscribers[i]? = some sub →
      Kept { s with subscribers := s.subscribers.modify i f, lock := lock } i (f sub))
    (hended : ∀ sub, sub.ended = true → (f sub).ended = true)
    (hother : ∀ j, i ≠ j → addressed j (putsOfLock lock) = addressed j s.puts)
    (hputs : ∀ p ∈ putsOfLock lock, p ∈ s.puts)
    (hcloser : ∀ channels, lock = some (.close channels) → s.closing = true) :
    Sound { s with subscribers := s.subscribers.modify i f, lock := lock } := by
  have hget : ∀ j sub', (s.subscribers.modify i f)[j]? = some sub' →
      (i = j ∧ ∃ sub, s.subscribers[i]? = some sub ∧ f sub = sub')
        ∨ (i ≠ j ∧ s.subscribers[j]? = some sub') := by
    intro j sub' hsub
    by_cases hij : i = j
    · subst hij
      rw [List.getElem?_modify_eq] at hsub
      exact Or.inl ⟨rfl, Option.map_eq_some_iff.mp hsub⟩
    · rw [List.getElem?_modify_ne f s.subscribers hij] at hsub
      exact Or.inr ⟨hij, hsub⟩
  refine ⟨fun j sub' hsub => ?_, h.nodup, ?_, fun j sub' hsub hj => ?_, ?_, fun hc => ?_, hcloser⟩
  · rcases hget j sub' hsub with ⟨rfl, sub, hs, rfl⟩ | ⟨hij, hs⟩
    · exact hkept sub hs
    · obtain ⟨hsince, hdue, hclosed, hend⟩ := h.kept j sub' hs
      rw [← hother j hij] at hdue
      exact ⟨hsince, hdue, hclosed, hend⟩
  · intro j hj
    rw [List.length_modify]
    exact h.channels j hj
  · rcases hget j sub' hsub with ⟨rfl, sub, hs, rfl⟩ | ⟨-, hs⟩
    · exact hended sub (h.removed i sub hs hj)
    · exact h.removed j sub' hs hj
  · intro p hp
    rw [List.length_modify]
    exact h.puts p (hputs p hp)
  · refine List.eq_nil_iff_forall_not_mem.mpr fun p hp => ?_
    have hmem := hputs p hp
    rw [h.closing hc] at hmem
    exact absurd hmem List.not_mem_nil

/-! ### One turn -/

/-- The lock changes hands while nothing is left to put. -/
lemma Sound.setLock {s : Service} (h : s.Sound) (hputs : s.puts = []) {lock : Option Holder}
    (hlock : putsOfLock lock = []) {closing : Bool}
    (hclosing : s.closing = true → closing = true)
    (hcloser : ∀ channels, lock = some (.close channels) → closing = true) :
    Sound { s with lock := lock, closing := closing } := by
  refine ⟨fun i sub hsub => ?_, h.nodup, h.channels, h.removed, ?_, fun _ => hlock, hcloser⟩
  · obtain ⟨hsince, hdue, hclosed, hended⟩ := h.kept i sub hsub
    rw [hputs, ← hlock] at hdue
    exact ⟨hsince, hdue, fun hc => hclosing (hclosed hc), hended⟩
  · intro p hp
    have hmem : p ∈ putsOfLock lock := hp
    rw [hlock] at hmem
    exact absurd hmem List.not_mem_nil

/-- While something is left to put, all channels are open and no loop has ended. -/
lemma Sound.open_of_puts {s : Service} (h : s.Sound) (hputs : s.puts ≠ []) {i : ℕ}
    {sub : Subscriber} (hsub : s.subscribers[i]? = some sub) :
    sub.channel.closed = false ∧ sub.ended = false := by
  have hclosed : ¬sub.channel.closed = true := fun hc =>
    hputs (h.closing ((h.kept i sub hsub).closed hc))
  exact ⟨Bool.eq_false_iff.mpr hclosed,
    Bool.eq_false_iff.mpr fun he => hclosed ((h.kept i sub hsub).ended he).1⟩

/-- The next put takes the item from what is left into the channel. -/
lemma sound_put {s : Service} (h : s.Sound) {i : ℕ} {event : MemberEvent}
    {rest : List (ℕ × MemberEvent)} (hlock : s.lock = some (.notify ((i, event) :: rest))) :
    (s.proceed (.notify ((i, event) :: rest))).Sound := by
  have hputs : s.puts = (i, event) :: rest := by rw [puts, hlock, putsOfLock]
  have hlt : i < s.subscribers.length := h.puts (i, event) (by simp [hputs])
  obtain ⟨sub, hsub⟩ : ∃ sub, s.subscribers[i]? = some sub := ⟨_, List.getElem?_eq_getElem hlt⟩
  obtain ⟨hopen, hgoing⟩ := h.open_of_puts (by simp [hputs]) hsub
  have hput : (s.subscribers[i]?.bind fun sub => sub.channel.put event)
      = some { sub.channel with queue := sub.channel.queue ++ [event] } := by
    rw [hsub]
    exact Channel.put_of_open hopen event
  rw [proceed, hput]
  refine h.modify (fun sub' hsub' => ?_) (fun _ he => he) (fun j hij => ?_) (fun p hp => ?_)
    (fun _ hc => absurd hc (by simp))
  · obtain rfl := Option.some.inj (hsub.symm.trans hsub')
    obtain ⟨hsince, hdue, hclosed, -⟩ := h.kept i sub hsub
    rw [hputs, addressed_cons, if_pos rfl] at hdue
    refine ⟨hsince, ?_, hclosed, fun he => absurd he (by simp [hgoing])⟩
    calc sub.got ++ (sub.channel.queue ++ [event] ++ addressed i rest)
        = sub.got ++ (sub.channel.queue ++ event :: addressed i rest) := by
          rw [List.append_assoc, List.singleton_append]
      _ = s.due sub := hdue
  · rw [hputs, addressed_cons, if_neg hij]
    rfl
  · rw [hputs]
    exact List.mem_cons_of_mem _ hp

/-- `Close` closes one channel, which keeps its items. -/
lemma sound_closeChannel {s : Service} (h : s.Sound) {i : ℕ} {rest : List ℕ}
    (hlock : s.lock = some (.close (i :: rest))) : (s.proceed (.close (i :: rest))).Sound := by
  have hclosing := h.closer _ hlock
  have hputs : s.puts = [] := h.closing hclosing
  rw [proceed]
  refine h.modify (fun sub hsub => ?_) (fun _ he => he) (fun j _ => ?_) (fun p hp => ?_)
    (fun _ _ => hclosing)
  · obtain ⟨hsince, hdue, -, hended⟩ := h.kept i sub hsub
    rw [hputs] at hdue
    exact ⟨hsince, hdue, fun _ => hclosing, fun he => ⟨rfl, (hended he).2⟩⟩
  · rw [hputs]
    rfl
  · exact absurd hp List.not_mem_nil

/-- The holder of the lock goes on. -/
lemma sound_proceed {s : Service} (h : s.Sound) {holder : Holder} (hlock : s.lock = some holder) :
    (s.proceed holder).Sound := by
  cases holder with
  | notify left =>
      cases left with
      | nil =>
          have hputs : s.puts = [] := by rw [puts, hlock, putsOfLock]
          exact h.setLock hputs rfl id fun _ hc => absurd hc (by simp)
      | cons p rest => exact sound_put h hlock
  | close left =>
      cases left with
      | nil =>
          have hputs : s.puts = [] := by rw [puts, hlock, putsOfLock]
          exact h.setLock hputs rfl id fun _ hc => absurd hc (by simp)
      | cons i rest => exact sound_closeChannel h hlock

/-- A `Get` takes the item that has waited longest, or ends the loop. -/
lemma sound_get {s : Service} (h : s.Sound) {i : ℕ} {sub : Subscriber}
    (hsub : s.subscribers[i]? = some sub) (hgoing : sub.ended = false) : (s.get i sub).Sound := by
  have hkept := h.kept i sub hsub
  rw [get]
  split
  · next item channel hget =>
      obtain ⟨hqueue, hclosed⟩ := Channel.get_eq_some hget
      refine h.modify (fun sub' hsub' => ?_) (fun _ he => he) (fun _ _ => rfl) (fun _ hp => hp)
        h.closer
      obtain rfl := Option.some.inj (hsub.symm.trans hsub')
      refine ⟨hkept.since, ?_, fun hc => hkept.closed (hclosed ▸ hc),
        fun he => absurd he (by simp [hgoing])⟩
      have hdue := hkept.due
      rw [hqueue] at hdue
      calc sub.got ++ [item] ++ (channel.queue ++ addressed i s.puts)
          = sub.got ++ (item :: channel.queue ++ addressed i s.puts) := by
            rw [List.append_assoc, List.singleton_append, List.cons_append]
        _ = s.due sub := hdue
  · next hget =>
      obtain ⟨hqueue, hclosed⟩ := Channel.get_eq_none hget
      refine h.modify (fun sub' hsub' => ?_) (fun _ _ => rfl) (fun _ _ => rfl) (fun _ hp => hp)
        h.closer
      obtain rfl := Option.some.inj (hsub.symm.trans hsub')
      exact ⟨hkept.since, hkept.due, hkept.closed, fun _ => ⟨hclosed, hqueue⟩⟩
  · exact h

/-- The channel of a new call of `Subscribe` is empty, and nothing is due to it yet. -/
lemma sound_subscribe {s : Service} (h : s.Sound) (hlock : s.lock = none) :
    (s.step .subscribe).Sound := by
  have hputs : s.puts = [] := puts_of_free hlock
  have hget : ∀ (i : ℕ) (new sub : Subscriber), (s.subscribers ++ [new])[i]? = some sub →
      s.subscribers[i]? = some sub ∨ (i = s.subscribers.length ∧ new = sub) := by
    intro i new sub hsub
    rw [List.getElem?_append] at hsub
    split at hsub
    · exact Or.inl hsub
    · next hlt =>
        obtain ⟨hi, heq⟩ := List.getElem?_eq_some_iff.mp hsub
        have hzero : i - s.subscribers.length = 0 := by simpa using hi
        exact Or.inr ⟨by omega, by simpa [hzero] using heq⟩
  have hfresh : s.subscribers.length ∉ s.channels := fun hi => absurd (h.channels _ hi) (by omega)
  have hstep : s.step .subscribe
      = { s with
          channels := s.channels ++ [s.subscribers.length]
          subscribers := s.subscribers ++ [{ since := s.notified.length }]
          lock := none } := by
    rw [step, hlock]
  rw [hstep]
  refine ⟨fun i sub hsub => ?_, ?_, fun i hi => ?_, fun i sub hsub hi => ?_,
    fun p hp => absurd hp List.not_mem_nil, fun _ => rfl, fun _ hc => absurd hc (by simp)⟩
  · rcases hget i _ sub hsub with hold | ⟨rfl, rfl⟩
    · obtain ⟨hsince, hdue, hclosed, hended⟩ := h.kept i sub hold
      rw [hputs] at hdue
      exact ⟨hsince, hdue, hclosed, hended⟩
    · refine ⟨Nat.le_refl _, ?_, fun hc => absurd hc (by simp), fun he => absurd he (by simp)⟩
      rw [due, List.drop_length]
      rfl
  · exact h.nodup.append (List.nodup_singleton _) (by simpa using hfresh)
  · rw [List.length_append, List.length_singleton]
    rcases List.mem_append.mp hi with hold | hnew
    · have hlt := h.channels i hold
      omega
    · rw [List.mem_singleton.mp hnew]
      omega
  · rcases hget i _ sub hsub with hold | ⟨rfl, -⟩
    · exact h.removed i sub hold fun hin => hi (List.mem_append_left _ hin)
    · exact absurd (List.mem_append_right _ (List.mem_singleton_self _)) hi

/-- A `Notify` that takes the lock has all its remote events due to the calls of `Subscribe`, and
still to be put into their channels. -/
lemma sound_notify {s : Service} (h : s.Sound) (hlock : s.lock = none)
    (hclosing : s.closing = false) (events : List MemberEvent) :
    (s.step (.notify events)).Sound := by
  have hputs : s.puts = [] := puts_of_free hlock
  have hstep : s.step (.notify events)
      = { s with
          lock := some (.notify (putsOf s.host s.channels events))
          notified := s.notified ++ [events] } := by
    rw [step, hlock]
  rw [hstep]
  refine ⟨fun i sub hsub => ?_, h.nodup, h.channels, h.removed,
    fun p hp => h.channels p.1 (mem_putsOf hp), fun hc => absurd hc (by simp [hclosing]),
    fun _ hc => absurd hc (by simp)⟩
  obtain ⟨hsince, hdue, hclosed, hended⟩ := h.kept i sub hsub
  have hin : i ∈ s.channels := by
    by_contra hout
    have hc := hclosed (hended (h.removed i sub hsub hout)).1
    rw [hclosing] at hc
    exact absurd hc Bool.false_ne_true
  refine ⟨?_, ?_, hclosed, hended⟩
  · rw [List.length_append, List.length_singleton]
    omega
  · have hadded : addressed i (putsOf s.host s.channels events) = remote s.host events := by
      rw [addressed_putsOf s.host h.nodup, if_pos hin]
    rw [hputs, addressed, List.filter_nil, List.map_nil, List.append_nil] at hdue
    calc sub.got ++ (sub.channel.queue ++ addressed i (putsOf s.host s.channels events))
        = s.due sub ++ remote s.host events := by rw [hadded, ← List.append_assoc, hdue]
      _ = ((s.notified ++ [events]).drop sub.since).flatMap (remote s.host) := by
          rw [List.drop_append_of_le_length hsince, List.flatMap_append, List.flatMap_singleton]
          rfl

/-- `Close` takes the lock. -/
lemma sound_close {s : Service} (h : s.Sound) (hlock : s.lock = none) : (s.step .close).Sound := by
  have hputs : s.puts = [] := puts_of_free hlock
  rw [step, hlock]
  exact h.setLock hputs rfl (fun _ => rfl) fun _ _ => rfl

/-- A channel is removed after its loop has ended. -/
lemma sound_unsubscribe {s : Service} (h : s.Sound) {i : ℕ} {sub : Subscriber}
    (hsub : s.subscribers[i]? = some sub) (hended : sub.ended = true) :
    Sound { s with channels := s.channels.erase i } := by
  refine ⟨fun j sub' hsub' => ?_, h.nodup.erase i,
    fun j hj => h.channels j (List.mem_of_mem_erase hj), fun j sub' hsub' hj => ?_, h.puts,
    h.closing, h.closer⟩
  · obtain ⟨hsince, hdue, hclosed, hend⟩ := h.kept j sub' hsub'
    exact ⟨hsince, hdue, hclosed, hend⟩
  · by_cases hij : j = i
    · subst hij
      rw [← Option.some.inj (hsub.symm.trans hsub')]
      exact hended
    · exact h.removed j sub' hsub' fun hin => hj ((List.mem_erase_of_ne hij).mpr hin)

/-- What holds of the service is kept by every turn but a `Notify` after `Close`. -/
theorem sound_step {s : Service} (h : s.Sound) (t : Turn) (ht : s.LastNotify t) :
    (s.step t).Sound := by
  cases t with
  | subscribe =>
      cases hlock : s.lock with
      | none => exact sound_subscribe h hlock
      | some holder =>
          rw [step, hlock]
          exact h
  | notify events =>
      cases hlock : s.lock with
      | none => exact sound_notify h hlock ht events
      | some holder =>
          rw [step, hlock]
          exact h
  | close =>
      cases hlock : s.lock with
      | none => exact sound_close h hlock
      | some holder =>
          rw [step, hlock]
          exact h
  | proceed =>
      cases hlock : s.lock with
      | none =>
          rw [step, hlock]
          exact h
      | some holder =>
          rw [step, hlock]
          exact sound_proceed h hlock
  | get i =>
      rw [step]
      split
      · next sub hsub =>
          split_ifs with hended
          · exact h
          · exact sound_get h hsub (Bool.eq_false_iff.mpr hended)
      · exact h
  | unsubscribe i =>
      rw [step]
      split
      · next sub hlock hsub =>
          split_ifs with hended
          · exact sound_unsubscribe h hsub hended
          · exact h
      · exact h

/-! ### What the subscribers get -/

/-- As many calls of `Get` as items wait take them all, in their order, closed or not. -/
lemma drain {i : ℕ} {queue : List MemberEvent} {s : Service} {sub : Subscriber}
    (hsub : s.subscribers[i]? = some sub) (hqueue : sub.channel.queue = queue)
    (hended : sub.ended = true → queue = []) :
    ∃ sub', (Run.run step s (List.replicate queue.length (Turn.get i))).subscribers[i]? = some sub'
      ∧ sub'.got = sub.got ++ queue := by
  induction queue generalizing s sub with
  | nil => exact ⟨sub, hsub, (List.append_nil _).symm⟩
  | cons item queue ih =>
      have hgoing : sub.ended = false :=
        Bool.eq_false_iff.mpr fun he => absurd (hended he) (by simp)
      have hstep : (s.step (.get i)).subscribers[i]?
          = some { sub with
              channel := { sub.channel with queue := queue }
              got := sub.got ++ [item] } := by
        rw [step, hsub]
        dsimp only
        rw [if_neg (by simp [hgoing]), get, Channel.get_of_cons hqueue]
        simp [hsub]
      obtain ⟨sub', hsub', hgot⟩ := ih hstep rfl fun he => absurd he (by simp [hgoing])
      refine ⟨sub', hsub', ?_⟩
      rw [hgot, List.append_assoc, List.singleton_append]

/-- What holds of the service gives every subscriber what is due to it. -/
lemma Sound.delivered {s : Service} (h : s.Sound) {i : ℕ} {sub : Subscriber}
    (hsub : s.subscribers[i]? = some sub) : s.Delivered i sub := by
  obtain ⟨-, hdue, hclosed, hended⟩ := h.kept i sub hsub
  have hrest : s.puts = [] → sub.got ++ sub.channel.queue = s.due sub := fun hputs => by
    rw [← hdue, hputs, addressed, List.filter_nil, List.map_nil, List.append_nil]
  refine ⟨⟨_, hdue⟩, fun hlock => hrest (puts_of_free hlock),
    drain hsub rfl fun he => (hended he).2, fun he => ?_⟩
  obtain ⟨hclosed', hqueue⟩ := hended he
  have hall := hrest (h.closing (hclosed hclosed'))
  rw [hqueue, List.append_nil] at hall
  exact ⟨hclosed', hqueue, hall⟩

/-- Every subscriber gets the remote events of the calls of `Notify` that take the lock after its
channel has been added, once, in that order and to the last, however the calls interrupt each
other, if `Close` comes after the last `Notify`. -/
theorem delivered_always {host : String} {turns : List Turn}
    (h : Run.Each step LastNotify (start host) turns) :
    Run.Always step AllDelivered (start host) turns := by
  have hsound : Run.Always step Sound (start host) turns :=
    Run.always_of_each (P := Sound) (fun _ t hs ht => sound_step hs t ht) (sound_start host) h
  exact hsound.imp fun s hs => by
    intro i sub hsub
    exact hs.delivered hsub

/-- A subscriber reads between two puts, a second one comes after them, and both read to the end
after the service has been closed. -/
theorem delivered_twoSubscribers :
    Run.Always step AllDelivered (start "10.0.0.1")
      [.subscribe, .notify [⟨.memberUp, nodeA⟩, ⟨.memberUp, nodeB⟩, ⟨.memberUp, nodeC⟩], .proceed,
        .get 0, .proceed, .proceed, .subscribe, .notify [⟨.memberDown, nodeC⟩], .proceed, .proceed,
        .get 1, .proceed, .close, .get 0, .proceed, .proceed, .proceed, .get 0, .get 0, .get 1,
        .unsubscribe 1, .unsubscribe 0] :=
  delivered_always (by decide)

end Service

end Cdcf.Cluster
