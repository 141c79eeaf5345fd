import Mathlib.Data.Int.Notation
import Mathlib.Data.List.Count
import Mathlib.Logic.Function.Basic
import Cdcf.RouterPool.Threads

/-!
The routees of a router pool (`router_pool.cc`), with the rules of CAF.

A routee is an event-based actor: it quits on an `exit_msg`, and any other message goes to its
handlers, or to its default handler if none matches.  `DeleteNode` sends
`exit_reason::user_shutdown` as a message like any other.  The `caf::actor_pool` takes a worker out
on its down message, which comes when the worker has quit.

* `Routee`, `receive`, `Reaches`: what a routee does with a message, and what it can come to.
* `System`, `Happening`, `step`: the threads of the router with its routees, the workers of the
  actor pool and all that is on its way.
* `Stopped`: when all that has been sent is processed, no actor of a deleted node is running or a
  worker of the actor pool.
* `stopped_always_iff`: that is so exactly if a routee quits on `exit_reason::user_shutdown` in
  whatever state it can come to.
-/

namespace Cdcf

namespace RouterPool

variable {ι σ μ : Type*}

/-! ### Routees -/

/-- What an actor is sent. -/
inductive Mail (μ : Type*) where
  | exitMsg
  | message (content : μ)
  deriving DecidableEq, Repr

/-- What a routee does; `none` for a state means that it quits. -/
structure Routee (σ μ : Type*) where
  init : σ
  /-- `none` if no handler matches. -/
  handlers : σ → μ → Option (Option σ)
  /-- `print_and_drop`, unless another has been installed. -/
  defaultHandler : σ → μ → Option σ := fun state _ => some state
  /-- `exit_reason::user_shutdown` as the content of a message. -/
  userShutdown : μ

namespace Routee

/-- What comes of a routee that receives something. -/
def receive (routee : Routee σ μ) (state : σ) : Mail μ → Option σ
  | .exitMsg => none
  | .message content =>
      match routee.handlers state content with
      | some next => next
      | none => routee.defaultHandler state content

/-- The states that a routee can come to. -/
inductive Reaches (routee : Routee σ μ) : σ → Prop
  | init : Reaches routee routee.init
  | next {state state' : σ} (content : μ) (h : Reaches routee state)
      (hnext : routee.receive state (.message content) = some state') : Reaches routee state'

/-- The routee quits when it is sent `exit_reason::user_shutdown`. -/
def QuitsOnShutdown (routee : Routee σ μ) : Prop :=
  ∀ state, routee.Reaches state → routee.receive state (.message routee.userShutdown) = none

end Routee

/-! ### The system -/

/-- What the actor pool is sent. -/
inductive PoolMail (ι μ : Type*) where
  | put (worker : ι)
  | down (worker : ι)
  | request (content : μ)
  deriving DecidableEq, Repr

/-- Whom a down message is about. -/
def PoolMail.source? : PoolMail ι μ → Option ι
  | .down worker => some worker
  | _ => none

lemma source?_down (worker : ι) : (PoolMail.down worker : PoolMail ι μ).source? = some worker := rfl

/-- A router with its routees and its actor pool. -/
structure System (ι σ μ : Type*) where
  router : Threads ι
  /-- The state and the mailbox of every routee that is running. -/
  routees : ι → Option (σ × List (Mail μ)) := fun _ => none
  /-- Whom the router monitors. -/
  monitored : ι → Bool := fun _ => false
  /-- The down messages on their way to the router. -/
  downs : List ι := []
  /-- The workers of the actor pool. -/
  workers : List ι := []
  /-- What is on its way to the actor pool. -/
  inbox : List (PoolMail ι μ) := []

/-- What happens. -/
inductive Happening (ι μ : Type*) where
  /-- A request to the router. -/
  | call (request : Request)
  /-- A thread of the router goes on. -/
  | run (i : ℕ) (answer : Answer ι)
  | rehash (key : String) (order : List ι)
  /-- The router processes the next down message. -/
  | down
  /-- The router is sent something that it passes on to the actor pool. -/
  | request (content : μ)
  /-- The actor pool processes the next message; if it is a request, it goes to those workers. -/
  | pool (chosen : List ι)
  /-- Somebody sends something to a routee. -/
  | send (actor : ι) (mail : Mail μ)
  /-- A routee receives the next message. -/
  | receive (actor : ι)

namespace System

variable [DecidableEq ι]

/-- A router that has just been made. -/
def start (defaultActorNum : ℕ) : System ι σ μ := { router := .start defaultActorNum }

/-- Something is put into the mailbox of a routee, if it is running. -/
def mail (s : System ι σ μ) (actor : ι) (m : Mail μ) : System ι σ μ :=
  match s.routees actor with
  | some (state, box) =>
      { s with routees := Function.update s.routees actor (some (state, box ++ [m])) }
  | none => s

/-- A routee quits, and those who monitor it are sent down messages. -/
def terminate (s : System ι σ μ) (actor : ι) : System ι σ μ :=
  { s with
    routees := Function.update s.routees actor none
    downs := if s.monitored actor then s.downs ++ [actor] else s.downs
    inbox := s.inbox ++ List.replicate (s.workers.count actor) (.down actor) }

/-- What the router asks for is done.  An actor that is put into the pool has just been spawned. -/
def deliver (routee : Routee σ μ) (s : System ι σ μ) : Effect ι → System ι σ μ
  | .put actor =>
      { s with
        routees := Function.update s.routees actor (some (routee.init, []))
        inbox := s.inbox ++ [.put actor] }
  | .monitor actor => { s with monitored := Function.update s.monitored actor true }
  | .demonitor actor => { s with monitored := Function.update s.monitored actor false }
  | .userShutdown actor => s.mail actor (.message routee.userShutdown)
  | .down source => { s with inbox := s.inbox ++ [.down source] }

/-- An event at the router, and what it asks for. -/
def route (routee : Routee σ μ) (s : System ι σ μ) (e : Event ι) : System ι σ μ :=
  ((s.router.step e).sent.drop s.router.sent.length).foldl (deliver routee)
    { s with router := s.router.step e }

/-- The actor pool processes a message. -/
def process (s : System ι σ μ) (chosen : List ι) : PoolMail ι μ → System ι σ μ
  | .put worker =>
      -- who monitors an actor that has quit is told so at once
      { s with
        workers := s.workers ++ [worker]
        inbox := if (s.routees worker).isSome then s.inbox else s.inbox ++ [.down worker] }
  | .down worker => { s with workers := s.workers.erase worker }
  | .request content =>
      (chosen.filter (· ∈ s.workers)).foldl (fun s worker => s.mail worker (.message content)) s

/-- What happens; where there is nothing to process, nothing does. -/
def step (routee : Routee σ μ) (s : System ι σ μ) : Happening ι μ → System ι σ μ
  | .call request => s.route routee (.call request)
  | .run i answer => s.route routee (.run i answer)
  | .rehash key order => s.route routee (.rehash key order)
  | .down =>
      match s.downs with
      | source :: downs => { s with downs := downs }.route routee (.down source)
      | [] => s
  | .request content => { s with inbox := s.inbox ++ [.request content] }
  | .pool chosen =>
      match s.inbox with
      | m :: inbox => { s with inbox := inbox }.process chosen m
      | [] => s
  | .send actor m => s.mail actor m
  | .receive actor =>
      match s.routees actor with
      | some (state, m :: box) =>
          match routee.receive state m with
          | some state' =>
              { s with routees := Function.update s.routees actor (some (state', box)) }
          | none => s.terminate actor
      | _ => s

/-- All that has been sent is processed. -/
def Quiescent (s : System ι σ μ) : Prop :=
  s.inbox = [] ∧ s.downs = []
    ∧ ∀ (actor : ι) (state : σ) (box : List (Mail μ)), s.routees actor = some (state, box) →
      box = []

/-- When all that has been sent is processed, no actor of a deleted node is running, and the actor
pool gives it no requests. -/
def Stopped (s : System ι σ μ) : Prop :=
  s.Quiescent → ∀ actor, standing s.router.log actor = .dismissed →
    s.routees actor = none ∧ actor ∉ s.workers

/-! ### Routees that quit on the message are gone -/

/-- With so much of what the router has asked for done: routees are in states that they can come to,
those who have been told to exit have it in their mailboxes, and workers who have quit are to be
taken out of the actor pool. -/
structure Fits (routee : Routee σ μ) (done : List (Effect ι)) (s : System ι σ μ) : Prop where
  reached : ∀ (a : ι) (state : σ) (box : List (Mail μ)), s.routees a = some (state, box) →
    routee.Reaches state
  told : ∀ (a : ι) (state : σ) (box : List (Mail μ)), .userShutdown a ∈ done →
    s.routees a = some (state, box) → .message routee.userShutdown ∈ box
  gone : ∀ a : ι, s.routees a = none →
    s.workers.count a ≤ (s.inbox.filterMap PoolMail.source?).count a

variable {routee : Routee σ μ} {done : List (Effect ι)} {s : System ι σ μ}

@[simp] lemma mail_workers (s : System ι σ μ) (actor : ι) (m : Mail μ) :
    (s.mail actor m).workers = s.workers := by
  rw [mail]
  split <;> rfl

@[simp] lemma mail_inbox (s : System ι σ μ) (actor : ι) (m : Mail μ) :
    (s.mail actor m).inbox = s.inbox := by
  rw [mail]
  split <;> rfl

@[simp] lemma mail_router (s : System ι σ μ) (actor : ι) (m : Mail μ) :
    (s.mail actor m).router = s.router := by
  rw [mail]
  split <;> rfl

lemma routees_mail (s : System ι σ μ) (actor a : ι) (m : Mail μ) :
    (s.mail actor m).routees a = if a = actor then
        (s.routees actor).map fun r => (r.1, r.2 ++ [m])
      else s.routees a := by
  rw [mail]
  split
  · next state box h => by_cases heq : a = actor <;> simp [heq, h]
  · next h => by_cases heq : a = actor <;> simp [heq, h]

/-- Something that is put into a mailbox changes no state, and nothing goes out of a mailbox. -/
lemma of_routees_mail {actor a : ι} {m : Mail μ} {state : σ} {box : List (Mail μ)}
    (h : (s.mail actor m).routees a = some (state, box)) :
    ∃ old, s.routees a = some (state, old) ∧ old ⊆ box ∧ (a = actor → m ∈ box) := by
  rw [routees_mail] at h
  split at h
  · next heq =>
      obtain ⟨⟨state', old⟩, hold, hnew⟩ := Option.map_eq_some_iff.mp h
      obtain ⟨rfl, rfl⟩ := Prod.mk.inj hnew
      exact ⟨old, heq ▸ hold, List.subset_append_left old [m],
        fun _ => List.mem_append_right old (List.mem_singleton.mpr rfl)⟩
  · next hne => exact ⟨box, h, List.Subset.refl box, fun heq => absurd heq hne⟩

lemma routees_mail_eq_none {actor a : ι} {m : Mail μ} :
    (s.mail actor m).routees a = none ↔ s.routees a = none := by
  rw [routees_mail]
  split
  · next heq => rw [heq, Option.map_eq_none_iff]
  · rfl

lemma Fits.mail (h : Fits routee done s) (actor : ι) (m : Mail μ) :
    Fits routee done (s.mail actor m) where
  reached a state box ha := by
    obtain ⟨old, hold, -⟩ := of_routees_mail ha
    exact h.reached a state old hold
  told a state box htold ha := by
    obtain ⟨old, hold, hsub, -⟩ := of_routees_mail ha
    exact hsub (h.told a state old htold hold)
  gone a ha := by
    rw [mail_workers, mail_inbox]
    exact h.gone a (routees_mail_eq_none.mp ha)

/-- Something that is not a down message gets on its way to the actor pool, or is taken out. -/
lemma Fits.of_inbox (h : Fits routee done s) {inbox : List (PoolMail ι μ)}
    (hinbox : inbox.filterMap PoolMail.source? = s.inbox.filterMap PoolMail.source?) :
    Fits routee done { s with inbox := inbox } :=
  ⟨h.reached, h.told, fun a ha => hinbox ▸ h.gone a ha⟩

/-- Something that the router asks for is done.  Whoever has been told to exit is not spawned. -/
lemma Fits.deliver (h : Fits routee done s) {e : Effect ι}
    (hnew : ∀ a, e = .put a → .userShutdown a ∉ done) :
    Fits routee (done ++ [e]) (deliver routee s e) := by
  have htold : ∀ {a}, .userShutdown a ∈ done ++ [e] → e ≠ .userShutdown a →
      .userShutdown a ∈ done := by
    intro a hmem hne
    rcases List.mem_append.mp hmem with hmem | hmem
    · exact hmem
    · exact absurd (List.mem_singleton.mp hmem).symm hne
  cases e with
  | put actor =>
      refine ⟨fun a state box ha => ?_, fun a state box hmem ha => ?_, fun a ha => ?_⟩
      · by_cases heq : a = actor
        · simp only [System.deliver, heq, Function.update_self, Option.some.injEq,
            Prod.mk.injEq] at ha
          exact ha.1 ▸ Routee.Reaches.init
        · simp only [System.deliver, Function.update_of_ne heq] at ha
          exact h.reached a state box ha
      · have hmem := htold hmem (by simp)
        by_cases heq : a = actor
        · exact absurd (heq ▸ hmem) (hnew actor rfl)
        · simp only [System.deliver, Function.update_of_ne heq] at ha
          exact h.told a state box hmem ha
      · by_cases heq : a = actor
        · simp [System.deliver, heq] at ha
        · simp only [System.deliver, Function.update_of_ne heq] at ha
          have hle := h.gone a ha
          simp only [System.deliver, List.filterMap_append, List.count_append]
          omega
  | monitor actor =>
      exact ⟨h.reached, fun a state box hmem => h.told a state box (htold hmem (by simp)), h.gone⟩
  | demonitor actor =>
      exact ⟨h.reached, fun a state box hmem => h.told a state box (htold hmem (by simp)), h.gone⟩
  | userShutdown actor =>
      have hmail := h.mail actor (.message routee.userShutdown)
      refine ⟨hmail.reached, fun a state box hmem ha => ?_, hmail.gone⟩
      obtain ⟨old, hold, hsub, hin⟩ := of_routees_mail ha
      by_cases heq : a = actor
      · exact hin heq
      · exact hsub (h.told a state old (htold hmem (by simpa using Ne.symm heq)) hold)
  | down source =>
      refine ⟨h.reached, fun a state box hmem => h.told a state box (htold hmem (by simp)),
        fun a ha => ?_⟩
      have hle := h.gone a ha
      simp only [System.deliver, List.filterMap_append, List.count_append]
      omega

lemma Fits.foldl_deliver (h : Fits routee done s) {new : List (Effect ι)}
    (hnew : ∀ a, .put a ∈ new → .userShutdown a ∉ done ++ new) :
    Fits routee (done ++ new) (new.foldl (System.deliver routee) s) := by
  induction new generalizing done s with
  | nil => rwa [List.append_nil]
  | cons e new ih =>
      rw [List.foldl_cons, List.append_cons]
      refine ih (h.deliver fun a heq hmem => ?_) fun a ha => ?_
      · exact hnew a (heq ▸ List.mem_cons_self) (List.mem_append_left _ hmem)
      · rw [← List.append_cons]
        exact hnew a (List.mem_cons_of_mem e ha)

/-- A routee quits. -/
lemma Fits.terminate (h : Fits routee done s) (actor : ι) :
    Fits routee done (s.terminate actor) := by
  have hother : ∀ {a state box}, (s.terminate actor).routees a = some (state, box) →
      s.routees a = some (state, box) := by
    intro a state box ha
    by_cases heq : a = actor
    · simp [System.terminate, heq] at ha
    · simpa only [System.terminate, Function.update_of_ne heq] using ha
  refine ⟨fun a state box ha => h.reached a state box (hother ha),
    fun a state box hmem ha => h.told a state box hmem (hother ha), fun a ha => ?_⟩
  have hinbox : (s.terminate actor).inbox.filterMap PoolMail.source?
      = s.inbox.filterMap PoolMail.source? ++ List.replicate (s.workers.count actor) actor := by
    rw [System.terminate, List.filterMap_append,
      List.filterMap_replicate_of_some (source?_down actor)]
  rw [hinbox, List.count_append]
  by_cases heq : a = actor
  · subst heq
    rw [List.count_replicate_self]
    exact Nat.le_add_left _ _
  · have hle := h.gone a (by simpa only [System.terminate, Function.update_of_ne heq] using ha)
    exact Nat.le_add_right_of_le hle

/-- A routee goes on to another state, and has received the first thing in its mailbox. -/
lemma Fits.receive (h : Fits routee done s) (hquits : routee.QuitsOnShutdown) {actor : ι}
    {state state' : σ} {m : Mail μ} {box : List (Mail μ)}
    (hactor : s.routees actor = some (state, m :: box))
    (hnext : routee.receive state m = some state') :
    Fits routee done
      { s with routees := Function.update s.routees actor (some (state', box)) } := by
  refine ⟨fun a state'' box' ha => ?_, fun a state'' box' hmem ha => ?_, fun a ha => ?_⟩
  · by_cases heq : a = actor
    · simp only [heq, Function.update_self, Option.some.injEq, Prod.mk.injEq] at ha
      cases m with
      | exitMsg => exact absurd hnext.symm (Option.some_ne_none _)
      | message content => exact ha.1 ▸ .next content (h.reached actor state _ hactor) hnext
    · simp only [Function.update_of_ne heq] at ha
      exact h.reached a state'' box' ha
  · by_cases heq : a = actor
    · subst heq
      simp only [Function.update_self, Option.some.injEq, Prod.mk.injEq] at ha
      rcases List.mem_cons.mp (h.told a state _ hmem hactor) with hfirst | hrest
      · rw [← hfirst, hquits state (h.reached a state _ hactor)] at hnext
        exact absurd hnext.symm (Option.some_ne_none _)
      · exact ha.2 ▸ hrest
    · simp only [Function.update_of_ne heq] at ha
      exact h.told a state'' box' hmem ha
  · by_cases heq : a = actor
    · simp [heq] at ha
    · simp only [Function.update_of_ne heq] at ha
      exact h.gone a ha

/-- The actor pool processes a message. -/
lemma Fits.process {m : PoolMail ι μ} {inbox : List (PoolMail ι μ)} (h : Fits routee done s)
    (hinbox : s.inbox = m :: inbox) (chosen : List ι) :
    Fits routee done ({ s with inbox := inbox }.process chosen m) := by
  cases m with
  | put worker =>
      refine ⟨h.reached, h.told, fun a ha => ?_⟩
      have hle := h.gone a ha
      rw [hinbox, List.filterMap_cons_none rfl] at hle
      simp only [System.process, List.count_append, List.count_singleton]
      by_cases heq : worker = a
      · subst heq
        have ha : s.routees worker = none := ha
        simp only [ha, Option.isSome_none, Bool.false_eq_true, if_false, List.filterMap_append,
          List.count_append, beq_self_eq_true, if_true]
        simpa [PoolMail.source?] using hle
      · have hle' : (inbox.filterMap PoolMail.source?).count a ≤
            ((if (s.routees worker).isSome then inbox else inbox ++ [.down worker]).filterMap
              PoolMail.source?).count a := by
          split
          · exact le_rfl
          · rw [List.filterMap_append, List.count_append]
            exact Nat.le_add_right _ _
        rw [if_neg (by simpa using heq)]
        omega
  | down worker =>
      refine ⟨h.reached, h.told, fun a ha => ?_⟩
      have hle := h.gone a ha
      rw [hinbox, List.filterMap_cons_some (source?_down worker), List.count_cons] at hle
      show (s.workers.erase worker).count a ≤ _
      rw [List.count_erase]
      by_cases heq : worker = a
      · rw [if_pos (by simpa using heq)] at hle ⊢
        exact Nat.sub_le_of_le_add hle
      · rw [if_neg (by simpa using heq)] at hle ⊢
        exact hle
  | request content =>
      have hstart : Fits routee done { s with inbox := inbox } :=
        h.of_inbox (by rw [hinbox, List.filterMap_cons_none rfl])
      have hloop : ∀ (l : List ι) (s : System ι σ μ), Fits routee done s →
          Fits routee done (l.foldl (fun s worker => s.mail worker (.message content)) s) := by
        intro l
        induction l with
        | nil => exact fun s hs => hs
        | cons worker l ih => exact fun s hs => ih _ (hs.mail worker _)
      exact hloop _ _ hstart

lemma router_deliver (routee : Routee σ μ) (s : System ι σ μ) (e : Effect ι) :
    (deliver routee s e).router = s.router := by
  cases e with
  | userShutdown actor => exact mail_router s actor _
  | put | monitor | demonitor | down => rfl

lemma router_foldl_deliver (routee : Routee σ μ) (s : System ι σ μ) (new : List (Effect ι)) :
    (new.foldl (deliver routee) s).router = s.router := by
  induction new generalizing s with
  | nil => rfl
  | cons e new ih => rw [List.foldl_cons, ih, router_deliver]

/-- What is known of the router and, by what it has asked for, of the rest. -/
structure Sound (routee : Routee σ μ) (s : System ι σ μ) : Prop where
  base : s.router.Sound
  fits : Fits routee s.router.sent s

lemma sound_start (routee : Routee σ μ) (defaultActorNum : ℕ) :
    Sound routee (start defaultActorNum : System ι σ μ) where
  base := Threads.sound_start defaultActorNum
  fits := ⟨by simp [start], by simp [start], fun _ _ => Nat.zero_le _⟩

/-- An event at the router. -/
lemma sound_route (h : Sound routee s) (e : Event ι) : Sound routee (s.route routee e) := by
  obtain ⟨new, hsent, hnew⟩ := Threads.sent_step h.base e
  have hroute : s.route routee e
      = new.foldl (deliver routee) { s with router := s.router.step e } := by
    rw [route, hsent, List.drop_left]
  have hrouter : (s.route routee e).router = s.router.step e := by
    rw [hroute, router_foldl_deliver]
  have hstart : Fits routee s.router.sent { s with router := s.router.step e } :=
    ⟨h.fits.reached, h.fits.told, h.fits.gone⟩
  refine ⟨hrouter ▸ Threads.sound_step h.base e, ?_⟩
  rw [hrouter, hsent, hroute]
  exact hstart.foldl_deliver hnew

lemma process_router (s : System ι σ μ) (chosen : List ι) (m : PoolMail ι μ) :
    (s.process chosen m).router = s.router := by
  cases m with
  | put | down => rfl
  | request content =>
      rw [process]
      generalize chosen.filter (· ∈ s.workers) = l
      induction l generalizing s with
      | nil => rfl
      | cons worker l ih => rw [List.foldl_cons, ih, mail_router]

lemma sound_step (hquits : routee.QuitsOnShutdown) (h : Sound routee s) (e : Happening ι μ) :
    Sound routee (step routee s e) := by
  cases e with
  | call request => exact sound_route h _
  | run i answer => exact sound_route h _
  | rehash key order => exact sound_route h _
  | down =>
      rw [step]
      split
      · next source downs hdowns =>
          have hstart : Sound routee { s with downs := downs } :=
            ⟨h.base, h.fits.reached, h.fits.told, h.fits.gone⟩
          exact sound_route hstart (.down source)
      · exact h
  | request content =>
      refine ⟨h.base, h.fits.of_inbox ?_⟩
      rw [List.filterMap_append, List.filterMap_cons_none rfl, List.filterMap_nil, List.append_nil]
  | pool chosen =>
      rw [step]
      split
      · next m inbox hinbox =>
          have hrouter := process_router { s with inbox := inbox } chosen m
          refine ⟨hrouter.symm ▸ h.base, ?_⟩
          rw [hrouter]
          exact h.fits.process hinbox chosen
      · exact h
  | send actor m =>
      refine ⟨?_, ?_⟩
      · exact (mail_router s actor m).symm ▸ h.base
      · rw [step, mail_router]
        exact h.fits.mail actor m
  | receive actor =>
      rw [step]
      split
      · next state m box hactor =>
          split
          · next state' hnext => exact ⟨h.base, h.fits.receive hquits hactor hnext⟩
          · exact ⟨h.base, h.fits.terminate actor⟩
      · exact h

/-- When everything has been processed, those who have been told to exit have quit, and their down
messages have taken them out of the actor pool. -/
lemma Sound.stopped (h : Sound routee s) : s.Stopped := by
  rintro ⟨hinbox, -, hboxes⟩ actor hdismissed
  have htold := h.base.told actor hdismissed
  have hgone : s.routees actor = none := by
    cases hactor : s.routees actor with
    | none => rfl
    | some r =>
        obtain ⟨state, box⟩ := r
        have hin := h.fits.told actor state box htold hactor
        rw [hboxes actor state box hactor] at hin
        exact absurd hin List.not_mem_nil
  refine ⟨hgone, fun hworker => ?_⟩
  have hle := h.fits.gone actor hgone
  rw [hinbox, List.filterMap_nil, List.count_nil] at hle
  exact absurd (List.count_pos_iff.mpr hworker) (by omega)

/-! ### A routee that does not quit on the message stays -/

/-- The local node has been added with one actor, which has come to `state`. -/
def ready (a : ι) (state : σ) : System ι σ μ where
  router :=
    { pool :=
        { defaultActorNum_ := 1
          nodes_ := ((OrderedMap.empty : Nodes ι).assign "" .empty).assign ""
            (UnorderedSet.empty.insert a) }
      threads := [.testing "" 1]
      sent := [.put a, .monitor a]
      log := [.added "" a] }
  routees := Function.update (fun _ => none) a (some (state, []))
  monitored := Function.update (fun _ => false) a true
  workers := [a]

lemma run_ready (routee : Routee σ μ) (a : ι) :
    Run.run (step routee) (start 1) [.call (.addNode "" 0), .run 0 {}, .run 0 {}, .run 0 {},
      .run 0 {}, .run 0 { spawned := some a }, .pool []] = ready a routee.init := by
  have hget : ((OrderedMap.empty : Nodes ι).assign "" UnorderedSet.empty).get? "" = some .empty :=
    OrderedMap.get?_assign_self _ "" _
  simp [Run.run, step, route, Threads.step, Threads.start, start, Threads.advance, Pc.first,
    Threads.IsNew, move, buildNodeKey, OrderedMap.contains, insertNode, moveAdd, addActor, hget,
    deliver, process, ready]

/-- The actor is brought to any state that it can come to. -/
lemma exists_run_ready (a : ι) {state : σ} (h : routee.Reaches state) :
    ∃ es, Run.run (step routee) (start 1) es = ready a state := by
  induction h with
  | init => exact ⟨_, run_ready routee a⟩
  | @next state state' content _ hnext ih =>
      obtain ⟨es, hes⟩ := ih
      refine ⟨es ++ [.send a (.message content), .receive a], ?_⟩
      rw [Run.run_append, hes]
      simp [Run.run, step, ready, System.mail, hnext]

/-- The node is removed, and the actor does not quit on what it is sent. -/
lemma not_stopped_ready (a : ι) {state state' : σ}
    (hnext : routee.receive state (.message routee.userShutdown) = some state') :
    ¬Stopped (Run.run (step routee) (ready a state)
      [.call (.deleteNode "" 0), .run 1 {}, .receive a]) := by
  have hlast : ∃ s, Run.run (step routee) (ready a state)
        [.call (.deleteNode "" 0), .run 1 {}, .receive a] = s
      ∧ s.routees = Function.update (fun _ => none) a (some (state', []))
      ∧ s.inbox = [] ∧ s.downs = [] ∧ standing s.router.log a = .dismissed := by
    refine ⟨_, rfl, ?_⟩
    simp [Run.run, step, route, Threads.step, ready, Threads.advance, Pc.first, Threads.IsNew, move,
      buildNodeKey, deleteNode, deliver, System.mail, hnext, standing, Standing.next,
      UnorderedSet.insert, UnorderedSet.empty]
  obtain ⟨s, hrun, hroutees, hinbox, hdowns, hstanding⟩ := hlast
  rw [hrun]
  intro hstopped
  have hquiet : s.Quiescent := by
    refine ⟨hinbox, hdowns, fun b state'' box hb => ?_⟩
    rw [hroutees] at hb
    by_cases heq : b = a
    · subst heq
      rw [Function.update_self, Option.some_inj, Prod.mk.injEq] at hb
      exact hb.2.symm
    · rw [Function.update_of_ne heq] at hb
      exact absurd hb.symm (Option.some_ne_none _)
  have hgone := (hstopped hquiet a hstanding).1
  rw [hroutees, Function.update_self] at hgone
  exact absurd hgone (Option.some_ne_none _)

/-- **Deleted workers stop.**  In every run, no actor of a deleted node is running or gets requests
once all that has been sent is processed, exactly if a routee quits on `exit_reason::user_shutdown`
in whatever state it can come to. -/
theorem stopped_always_iff [Inhabited ι] (routee : Routee σ μ) :
    (∀ (defaultActorNum : ℕ) (es : List (Happening ι μ)),
        Run.Always (step routee) Stopped (start defaultActorNum) es)
      ↔ routee.QuitsOnShutdown := by
  constructor
  · intro hstopped state hreaches
    cases hnext : routee.receive state (.message routee.userShutdown) with
    | none => rfl
    | some state' =>
        obtain ⟨es, hes⟩ := exists_run_ready (default : ι) hreaches
        have hlast := hstopped 1
          (es ++ [.call (.deleteNode "" 0), .run 1 {}, .receive default]) |>.last
        rw [Run.run_append, hes] at hlast
        exact absurd hlast (not_stopped_ready default hnext)
  · intro hquits defaultActorNum es
    have hsound : Run.Always (step routee) (Sound routee) (start defaultActorNum) es :=
      Run.always_of_inv (P := Sound routee) (fun _ e h => sound_step hquits h e)
        (sound_start routee defaultActorNum) es
    exact hsound.imp fun _ h => h.stopped

/-- `simple_calculator_fun` of the tests, with a default handler.  A message is a pair of numbers,
or `exit_reason::user_shutdown`. -/
def simpleCalculator (defaultHandler : Unit → Option (ℤ × ℤ) → Option Unit) :
    Routee Unit (Option (ℤ × ℤ)) where
  init := ()
  handlers _ content := content.map fun pair => if pair = (-1, -1) then none else some ()
  defaultHandler := defaultHandler
  userShutdown := none

/-- With `reflect_and_quit`, as in the tests, the routee quits: it is gone when its node has been
deleted and all has been processed. -/
theorem stopped_always_simpleCalculator :
    Run.Always (step (simpleCalculator fun _ _ => none)) Stopped
      (start 1 : System ℕ Unit (Option (ℤ × ℤ)))
      ([.call (.addNode "" 0), .run 0 {}, .run 0 {}, .run 0 {}, .run 0 {},
        .run 0 { spawned := some 7 }, .pool []]
        ++ [.call (.deleteNode "" 0), .run 1 {}, .receive 7]) :=
  (stopped_always_iff (simpleCalculator fun _ _ => none)).mpr (fun _ _ => rfl) 1 _

/-- With `print_and_drop`, which CAF installs, the routee is still running then. -/
theorem not_stopped_simpleCalculator :
    ¬Run.Always (step (simpleCalculator fun state _ => some state)) Stopped
      (start 1 : System ℕ Unit (Option (ℤ × ℤ)))
      ([.call (.addNode "" 0), .run 0 {}, .run 0 {}, .run 0 {}, .run 0 {},
        .run 0 { spawned := some 7 }, .pool []]
        ++ [.call (.deleteNode "" 0), .run 1 {}, .receive 7]) := by
  intro h
  have hlast := h.last
  rw [Run.run_append, run_ready] at hlast
  exact not_stopped_ready 7 rfl hlast

end System

end RouterPool

end Cdcf
