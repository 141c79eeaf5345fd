import Mathlib.Order.Lattice

/-!
Registers that keep the newest content they are offered.

The content comes with a version from a linear order, and an offer is taken when its version is
above the one that is held.  Offers of one version are told apart by nothing, so the first of them
stays.

* `version_offer`: the version after an offer is the larger one, whatever the order of the offers.
* `le_version_offer`: what is held afterwards is not older than the offer.
* `offer_comm_iff`: two offers give the same in both orders exactly when they agree or are told
  apart.
-/

namespace Cdcf

variable {ν γ : Type*}

/-- A content and its version. -/
@[ext]
structure Register (ν γ : Type*) where
  version : ν
  content : γ

namespace Register

variable [LinearOrder ν]

/-- The offer of a content, taken when it is newer. -/
def offer (v : ν) (c : γ) (r : Register ν γ) : Register ν γ :=
  if r.version < v then ⟨v, c⟩ else r

lemma offer_of_lt {v : ν} {r : Register ν γ} (h : r.version < v) (c : γ) :
    r.offer v c = ⟨v, c⟩ := if_pos h

lemma offer_of_le {v : ν} {r : Register ν γ} (h : v ≤ r.version) (c : γ) : r.offer v c = r :=
  if_neg (not_lt.mpr h)

/-- The version after an offer is the larger one. -/
lemma version_offer (v : ν) (c : γ) (r : Register ν γ) :
    (r.offer v c).version = max r.version v := by
  rcases lt_or_ge r.version v with h | h
  · rw [offer_of_lt h, max_eq_right h.le]
  · rw [offer_of_le h, max_eq_left h]

/-- What is held after an offer is not older than it. -/
lemma le_version_offer (v : ν) (c : γ) (r : Register ν γ) : v ≤ (r.offer v c).version := by
  rw [version_offer]
  exact le_max_right _ _

/-- Of two offers the newer one stays, whatever their order. -/
lemma offer_comm_of_lt {v w : ν} (h : v < w) (c d : γ) (r : Register ν γ) :
    (r.offer v c).offer w d = (r.offer w d).offer v c := by
  rw [offer_of_le (h.le.trans (le_version_offer w d r)) c]
  rcases lt_or_ge r.version v with hv | hv
  · rw [offer_of_lt hv, offer_of_lt h, offer_of_lt (hv.trans h)]
  · rw [offer_of_le hv]

/-- Two offers commute exactly when they have different versions, or are both too old, or are the
same. -/
lemma offer_comm_iff (v w : ν) (c d : γ) (r : Register ν γ) :
    (r.offer v c).offer w d = (r.offer w d).offer v c
      ↔ (v = w → r.version < v → c = d) := by
  rcases lt_trichotomy v w with h | rfl | h
  · exact iff_of_true (offer_comm_of_lt h c d r) fun heq => absurd heq h.ne
  · rcases lt_or_ge r.version v with hv | hv
    · rw [offer_of_lt hv, offer_of_lt hv, offer_of_le (r := ⟨v, c⟩) (le_refl v),
        offer_of_le (r := ⟨v, d⟩) (le_refl v)]
      simp [hv]
    · rw [offer_of_le hv, offer_of_le hv, offer_of_le hv]
      exact iff_of_true rfl fun _ hlt => absurd hlt (not_lt.mpr hv)
  · exact iff_of_true (offer_comm_of_lt h d c r).symm fun heq => absurd heq h.ne'

end Register

end Cdcf
