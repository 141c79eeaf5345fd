import Cdcf.LoadBalancer.Tickets
import Cdcf.Library.RoundRobin

/-!
How mails are spread over the workers while nobody answers.

The cursor of the policy moves on by one place with every mail, and so does the first worker of
least load, so the two meet at every call: the workers are served in turn, from the worker after
the cursor on, until all of them have reached the threshold.

* `Spread`: the invariant, for the mails that have come in so far.
* `spreads_evenly`: what it says about a run.
-/

namespace Cdcf

namespace LoadBalancer

open Sample RoundRobin

variable {μ ι α : Type*} [MessageId μ] [DecidableEq μ] [DecidableEq ι]

namespace Router

/-- There are workers, none of them has a load, and no mail is held. -/
structure Fresh (r : Router μ ι α) : Prop where
  nodup : r.workers_.Nodup
  ne_nil : r.workers_ ≠ []
  /-- The number of the workers is a `size_t`. -/
  length_lt : r.workers_.length < 2 ^ 64
  load_eq : ∀ w ∈ r.workers_, r.metrics_ (some w) = some 0
  mails_eq : r.policy_.mails_ = []

/-- The place of the first worker of the next call. -/
def start (r : Router μ ι α) : ℕ := (r.policy_.rotated_ + 1) % 2 ^ 64 % r.workers_.length

/-- The worker whose turn comes after `j` others. -/
def turn (r : Router μ ι α) (j : ℕ) : Option ι :=
  r.workers_[(r.start + j) % r.workers_.length]?

/-- How many mails the workers can have before all have reached the threshold. -/
def capacity (r : Router μ ι α) : ℕ :=
  r.workers_.length * r.policy_.loadThresholdToHold_.toNat

/-- The loads of the workers as numbers. -/
def counts (r : Router μ ι α) : List ℕ := r.loads.map UInt64.toNat

omit [MessageId μ] [DecidableEq μ] [DecidableEq ι] in
@[simp] lemma length_counts (r : Router μ ι α) : r.counts.length = r.workers_.length := by
  simp [counts, loads]

omit [MessageId μ] [DecidableEq μ] in
/-- A worker that is listed once has its load at its place only. -/
lemma counts_update {r : Router μ ι α} (hr : r.Metered) {policy : MinLoad (Mail μ ι α)}
    {proxy : Proxy μ ι} {i : ℕ} {worker : ι} (hi : r.workers_[i]? = some worker) (load : UInt64) :
    counts { r with
        policy_ := policy
        metrics_ := Function.update r.metrics_ (some worker) (some load)
        proxy_ := proxy }
      = r.counts.set i load.toNat := by
  refine List.ext_getElem? fun j => ?_
  obtain ⟨hlt, -⟩ := List.getElem?_eq_some_iff.mp hi
  simp only [counts, loads, List.getElem?_map, List.getElem?_set, List.length_map]
  by_cases hij : i = j
  · rw [← hij, hi, if_pos rfl, if_pos hlt]
    simp
  · rw [if_neg hij]
    cases hj : r.workers_[j]? with
    | none => rfl
    | some w =>
        have hne : some w ≠ some worker := fun heq =>
          hij ((List.getElem?_inj hlt hr.nodup).mp (by rw [hi, hj, heq]))
        simp [Function.update_of_ne hne]

/-- A mail for the workers that is no response is placed. -/
lemma enqueue_of_mail {r : Router μ ι α} (hworkers : r.workers_ ≠ []) {what : Mail μ ι α}
    (hcontent : what.content.isControl = false) (hresp : isResponse what.mid = false) :
    r.enqueue what = r.route (some what) := by
  have htakes : r.takes what = false := by
    simp [takes, hcontent, hworkers]
  rw [enqueue, filter_eq_none_iff.mpr htakes, hresp]
  rfl

end Router

namespace World

/-- The mails have been spread over the workers of the router. -/
structure Spread (r : Router μ ι α) (mails : List (Mail μ ι α)) (s : World μ ι α) : Prop where
  workers_eq : s.router.workers_ = r.workers_
  metered : s.router.Metered
  threshold_eq : s.router.policy_.loadThresholdToHold_ = r.policy_.loadThresholdToHold_
  start_eq : s.router.start = (r.start + mails.length) % r.workers_.length
  dealt : Dealt r.start (min mails.length r.capacity) s.router.counts
  mails_eq : s.router.policy_.mails_ = mails.drop r.capacity
  served_eq : ((relays s.log).map Relay.worker).reverse.map some
    = (List.range (min mails.length r.capacity)).map r.turn

omit [MessageId μ] [DecidableEq μ] [DecidableEq ι] in
/-- Nothing has been spread. -/
lemma spread_nil {r : Router μ ι α} (hr : r.Fresh) : Spread r [] ⟨r, []⟩ where
  workers_eq := rfl
  metered := ⟨hr.nodup, fun w hw => by rw [hr.load_eq w hw]; rfl⟩
  threshold_eq := rfl
  start_eq := by
    rw [List.length_nil, Nat.add_zero, Router.start, Nat.mod_mod]
  dealt := by
    have hzero : r.counts = List.replicate r.workers_.length 0 := by
      refine List.eq_replicate_iff.mpr ⟨r.length_counts, fun x hx => ?_⟩
      simp only [Router.counts, Router.loads, List.map_map, List.mem_map] at hx
      obtain ⟨w, hw, rfl⟩ := hx
      simp [hr.load_eq w hw]
    simpa [hzero] using dealt_replicate r.start r.workers_.length
  mails_eq := by rw [hr.mails_eq, List.drop_nil]
  served_eq := by simp [relays]

omit [MessageId μ] [DecidableEq μ] [DecidableEq ι] in
/-- The cursor moves on. -/
lemma start_succ {r r' : Router μ ι α} (hr : r.Fresh) {k : ℕ}
    (hworkers : r'.workers_ = r.workers_)
    (hrotated : r'.policy_.rotated_ = (r.start + k) % r.workers_.length) :
    r'.start = (r.start + (k + 1)) % r.workers_.length := by
  have hlt := Nat.mod_lt (r.start + k) (List.length_pos_of_ne_nil hr.ne_nil)
  have hsmall : (r.start + k) % r.workers_.length + 1 < 2 ^ 64 := by
    have := hr.length_lt
    omega
  rw [Router.start, hworkers, hrotated, Nat.mod_eq_of_lt hsmall, Nat.mod_add_mod, Nat.add_assoc]

section

variable {r : Router μ ι α} {mails : List (Mail μ ι α)} {s : World μ ι α}

omit [MessageId μ] [DecidableEq μ] [DecidableEq ι] in
/-- There are as many loads as workers. -/
lemma Spread.length_counts (hs : Spread r mails s) :
    s.router.counts.length = r.workers_.length := by
  rw [Router.length_counts, hs.workers_eq]

omit [MessageId μ] [DecidableEq μ] [DecidableEq ι] in
/-- While there is room, the worker whose turn it is has had its full rounds. -/
lemma Spread.counts_turn (hr : r.Fresh) (hs : Spread r mails s)
    (hroom : mails.length < r.capacity) :
    s.router.counts[(r.start + mails.length) % r.workers_.length]?
      = some (mails.length / r.workers_.length) := by
  have hne : s.router.counts ≠ [] := by
    simpa [← List.length_eq_zero_iff, hs.length_counts] using hr.ne_nil
  have hturn := hs.dealt.getElem?_turn hne
  rwa [Nat.min_eq_left hroom.le, hs.length_counts] at hturn

omit [MessageId μ] [DecidableEq μ] [DecidableEq ι] in
/-- There is room as long as a load is below the threshold. -/
lemma Spread.room_iff (hr : r.Fresh) (hs : Spread r mails s) :
    mails.length < r.capacity
      ↔ ∃ load ∈ s.router.loads, load < s.router.policy_.loadThresholdToHold_ := by
  have hpos := List.length_pos_of_ne_nil hr.ne_nil
  rw [hs.threshold_eq]
  constructor
  · intro hroom
    obtain ⟨load, hload, hcount⟩ :=
      List.mem_map.mp (List.mem_of_getElem? (hs.counts_turn hr hroom))
    refine ⟨load, hload, UInt64.lt_iff_toNat_lt.mpr ?_⟩
    rw [hcount]
    exact Nat.div_lt_of_lt_mul hroom
  · rintro ⟨load, hload, hlt⟩
    by_contra hfull
    have hle := hs.dealt.div_le (List.mem_map_of_mem hload)
    rw [Nat.min_eq_right (Nat.le_of_not_lt hfull), hs.length_counts, Router.capacity,
      Nat.mul_div_cancel_left _ hpos] at hle
    exact absurd (UInt64.lt_iff_toNat_lt.mp hlt) (Nat.not_lt.mpr hle)

omit [MessageId μ] [DecidableEq μ] [DecidableEq ι] in
/-- The first of the least loads from the cursor on is the one at the cursor. -/
lemma Spread.place_eq (hr : r.Fresh) (hs : Spread r mails s) (hroom : mails.length < r.capacity)
    {i : ℕ} {load : UInt64}
    (hfirst : MinLoad.LeastFrom s.router.loads
      ((r.start + mails.length) % r.workers_.length) i load) :
    i = (r.start + mails.length) % r.workers_.length
      ∧ load.toNat = mails.length / r.workers_.length := by
  have hlen : s.router.loads.length = r.workers_.length := by
    simpa [Router.counts] using hs.length_counts
  have hmin : ∀ load ∈ s.router.loads, mails.length / r.workers_.length ≤ load.toNat := by
    intro load hload
    have hle := hs.dealt.div_le (List.mem_map_of_mem hload)
    rwa [Nat.min_eq_left hroom.le, hs.length_counts] at hle
  obtain ⟨turn, hturn, hcount⟩ := Option.map_eq_some_iff.mp
    (List.getElem?_map .. ▸ hs.counts_turn hr hroom)
  obtain ⟨d, -, hi, hbefore⟩ := hfirst.first
  rw [hlen] at hi hbefore
  cases d with
  | zero =>
      rw [Nat.add_zero, Nat.mod_mod] at hi
      have hsame : load = turn := by
        have hload := hfirst.getElem?
        rw [hi, hturn, Option.some_inj] at hload
        exact hload.symm
      exact ⟨hi, hsame ▸ hcount⟩
  | succ d =>
      -- the load at the cursor would be above the least one
      have hlt := hbefore 0 (Nat.succ_pos d) turn (by rwa [Nat.add_zero, Nat.mod_mod])
      have hle := hmin load (List.mem_of_getElem? hfirst.getElem?)
      rw [← hcount] at hle
      exact absurd (UInt64.lt_iff_toNat_lt.mp hlt) (Nat.not_lt.mpr hle)

omit [DecidableEq μ] [DecidableEq ι] [MessageId μ] in
/-- Without room the next mail is held. -/
lemma Spread.hold (hr : r.Fresh) (hs : Spread r mails s) (hfull : r.capacity ≤ mails.length)
    {what : Mail μ ι α} {policy : MinLoad (Mail μ ι α)}
    (hrotated : policy.rotated_ = (r.start + mails.length) % r.workers_.length)
    (hthreshold : policy.loadThresholdToHold_ = s.router.policy_.loadThresholdToHold_)
    (hheld : policy.mails_ = s.router.policy_.mails_ ++ [what]) :
    Spread r (mails ++ [what]) ⟨{ s.router with policy_ := policy }, (what, []) :: s.log⟩ := by
  have hsnoc : (mails ++ [what]).length = mails.length + 1 := List.length_append
  have hsame : min (mails ++ [what]).length r.capacity = min mails.length r.capacity := by
    omega
  exact {
    workers_eq := hs.workers_eq
    metered := ⟨hs.metered.nodup, hs.metered.isSome⟩
    threshold_eq := hthreshold.trans hs.threshold_eq
    start_eq := hsnoc ▸ start_succ hr hs.workers_eq hrotated
    dealt := hsame ▸ hs.dealt
    mails_eq := by rw [hheld, hs.mails_eq, List.drop_append_of_le_length hfull]
    served_eq := hsame.symm ▸ hs.served_eq }

/-- While there is room, no mail is held and the next mail goes to the next worker. -/
lemma Spread.place (hr : r.Fresh) (hs : Spread r mails s) (hroom : mails.length < r.capacity)
    {what m : Mail μ ι α} {policy : MinLoad (Mail μ ι α)} {i : ℕ} {worker : ι} {load : UInt64}
    (hrotated : policy.rotated_ = (r.start + mails.length) % r.workers_.length)
    (hthreshold : policy.loadThresholdToHold_ = s.router.policy_.loadThresholdToHold_)
    (hheld : s.router.policy_.mails_ ++ [what] = m :: policy.mails_)
    (hi : s.router.workers_[i]? = some worker)
    (hfirst : MinLoad.LeastFrom s.router.loads policy.rotated_ i load)
    (hlt : load < s.router.policy_.loadThresholdToHold_) :
    Spread r (mails ++ [what]) ⟨{ s.router with
        policy_ := policy
        metrics_ := Function.update s.router.metrics_ (some worker) (some (load + 1))
        proxy_ := (s.router.proxy_.placeTicket m).2 },
      (what, [.relay worker (s.router.proxy_.placeTicket m).1 m]) :: s.log⟩ := by
  obtain ⟨hplace, hcount⟩ := hs.place_eq hr hroom (hrotated ▸ hfirst)
  have hsnoc : (mails ++ [what]).length = mails.length + 1 := List.length_append
  have hk : min mails.length r.capacity = mails.length := Nat.min_eq_left hroom.le
  have hnext : min (mails ++ [what]).length r.capacity = mails.length + 1 := by
    omega
  have hload : (load + 1).toNat = mails.length / r.workers_.length + 1 := by
    have := UInt64.lt_iff_toNat_lt.mp hlt
    have := s.router.policy_.loadThresholdToHold_.toNat_lt
    rw [UInt64.toNat_add, hcount, UInt64.toNat_one]
    omega
  have hturn : r.turn mails.length = some worker := by
    rw [Router.turn, ← hplace, ← hs.workers_eq, hi]
  have hdealt := hs.dealt.deal
  have hserved := hs.served_eq
  obtain ⟨hnodup, hisSome⟩ := hs.metered.update (some worker) (load + 1)
  rw [hk] at hdealt hserved
  rw [hs.length_counts, ← hplace, ← hload] at hdealt
  rw [hs.mails_eq, List.drop_eq_nil_of_le hroom.le] at hheld
  exact {
    workers_eq := hs.workers_eq
    metered := ⟨hnodup, hisSome⟩
    threshold_eq := hthreshold.trans hs.threshold_eq
    start_eq := hsnoc ▸ start_succ hr hs.workers_eq hrotated
    dealt := by
      rw [hnext, Router.counts_update hs.metered hi]
      exact hdealt
    mails_eq := by rw [← (List.cons.inj hheld).2, List.drop_eq_nil_of_le (by omega)]
    served_eq := by
      rw [hnext, List.range_succ, List.map_append, ← hserved, relays_cons]
      simp [Effect.relay?, hturn] }

/-- The next mail is placed or held. -/
lemma Spread.step (hr : r.Fresh) (hs : Spread r mails s) {what : Mail μ ι α}
    (hcontent : what.content.isControl = false) (hresp : isResponse what.mid = false) :
    ∃ s', World.step (.ok s) what = .ok s' ∧ Spread r (mails ++ [what]) s' := by
  have hworkers : s.router.workers_ ≠ [] := hs.workers_eq ▸ hr.ne_nil
  have hsome : s.router.policy_.mails_ ++ (some what).toList ≠ [] := by simp
  obtain ⟨policy, hrotated, hthreshold, hplaced⟩ := Router.route_of_ne_nil hs.metered hworkers hsome
  have hcursor := hrotated.trans hs.start_eq
  have hcall := Router.enqueue_of_mail hworkers hcontent hresp
  rcases hplaced with ⟨hroute, hheld, hfull⟩ | ⟨i, worker, m, load, hroute, hheld, hi, hfirst, hlt⟩
  · have hcap : r.capacity ≤ mails.length := by
      refine Nat.le_of_not_lt fun hroom => ?_
      obtain ⟨load, hload, hlt⟩ := (hs.room_iff hr).mp hroom
      exact absurd (hfull load hload) (UInt64.not_le.mpr hlt)
    exact ⟨_, step_eq_ok.mpr ⟨_, _, hcall.trans hroute, rfl⟩,
      hs.hold hr hcap hcursor hthreshold hheld⟩
  · have hroom := (hs.room_iff hr).mpr ⟨load, List.mem_of_getElem? hfirst.getElem?, hlt⟩
    exact ⟨_, step_eq_ok.mpr ⟨_, _, hcall.trans hroute, rfl⟩,
      hs.place hr hroom hcursor hthreshold hheld hi hfirst hlt⟩

end

/-- All mails of a list are spread. -/
lemma spread_run {r : Router μ ι α} (hr : r.Fresh) {mails : List (Mail μ ι α)}
    (hmails : ∀ what ∈ mails, what.content.isControl = false ∧ isResponse what.mid = false) :
    ∃ s, Run.run step (.ok ⟨r, []⟩) mails = .ok s ∧ Spread r mails s := by
  induction mails using List.reverseRecOn with
  | nil => exact ⟨⟨r, []⟩, rfl, spread_nil hr⟩
  | append_singleton mails what ih =>
      obtain ⟨s, hrun, hs⟩ := ih fun m hm => hmails m (List.mem_append_left _ hm)
      obtain ⟨hcontent, hresp⟩ := hmails what (List.mem_append_right _ List.mem_cons_self)
      obtain ⟨s', hstep, hs'⟩ := hs.step hr hcontent hresp
      refine ⟨s', ?_, hs'⟩
      rw [Run.run] at hrun ⊢
      rw [List.foldl_append, hrun]
      exact hstep

end World

open World in
/-- **Even spreading.**  Mails that come to workers without loads, while nobody answers and the
workers stay the same, are served by the workers in their cyclic order, until all have reached the
threshold; the loads differ by one at most and are all the mails that are served, and the other
mails are held. -/
theorem spreads_evenly {r : Router μ ι α} (hr : r.Fresh) {mails : List (Mail μ ι α)}
    (hmails : ∀ what ∈ mails, what.content.isControl = false ∧ isResponse what.mid = false) :
    ∃ s loads, Run.run World.step (.ok ⟨r, []⟩) mails = .ok s
      ∧ s.router.workers_ = r.workers_ ∧ s.router.getMetrics = some loads
      ∧ (∀ load ∈ loads, ∀ other ∈ loads, load.toNat ≤ other.toNat + 1)
      ∧ ((relays s.log).map Relay.worker).reverse.map some
        = (List.range (min mails.length r.capacity)).map r.turn
      ∧ (loads.map UInt64.toNat).sum = min mails.length r.capacity
      ∧ s.router.policy_.mails_ = mails.drop r.capacity := by
  obtain ⟨s, hrun, hs⟩ := spread_run hr hmails
  have hne : s.router.counts ≠ [] := by
    simpa [← List.length_eq_zero_iff, hs.length_counts] using hr.ne_nil
  refine ⟨s, s.router.loads, hrun, hs.workers_eq, hs.metered.getMetrics, ?_, hs.served_eq,
    hs.dealt.sum_eq hne, hs.mails_eq⟩
  intro load hload other hother
  exact hs.dealt.le_add_one (List.mem_map_of_mem hload) (List.mem_map_of_mem hother)

/-- Two workers that have just been added, each of which takes one mail. -/
def Sample.pair : Router Id ℕ Unit := (((Router.make 1).addWorker 1).1.addWorker 2).1

/-- Three mails for two workers: one for each, and one that is held. -/
theorem spreads_evenly_pair :
    ∃ s loads, Run.run World.step (.ok ⟨pair, []⟩)
        [⟨ask 5, some 7, .other ()⟩, ⟨ask 6, some 7, .other ()⟩, ⟨ask 8, some 7, .other ()⟩] = .ok s
      ∧ s.router.workers_ = [1, 2] ∧ s.router.getMetrics = some loads
      ∧ (∀ load ∈ loads, ∀ other ∈ loads, load.toNat ≤ other.toNat + 1)
      ∧ ((relays s.log).map Relay.worker).reverse.map some = [some 1, some 2]
      ∧ (loads.map UInt64.toNat).sum = 2
      ∧ s.router.policy_.mails_ = [⟨ask 8, some 7, .other ()⟩] := by
  have hpair : pair.Fresh := by
    refine ⟨by decide, by decide, by decide, fun w hw => ?_, rfl⟩
    have hw' : w = 1 ∨ w = 2 := by simpa [pair, Router.make, Router.addWorker] using hw
    rcases hw' with rfl | rfl <;> rfl
  exact spreads_evenly hpair (by decide)

end LoadBalancer

end Cdcf
