import Mathlib.Data.Prod.Lex
import Mathlib.Data.String.Basic
import Cdcf.Library.OrderedMap

/-!
Members of a cluster (`membership::Member` and its operators in `membership.cc`).

A member is identified by its ip address and port, its `Address`; the node name, host name,
role and uid travel with it without taking part in any comparison.  `operator==` is equality
of addresses (`eq_iff`) and `operator<` is the order of addresses (`lt_iff`), so that the
tables `std::map<Member, V>` and `std::set<Member>` of the node keeper are ordered maps over
`Member.address`.
-/

namespace Cdcf

/-- The identity of a member, and what `gossip::Address` holds: ip address and port. -/
structure Address where
  host : String
  port : UInt16
  deriving Repr

namespace Address

/-- The lexicographic key of an address. -/
def toKey (a : Address) : String ×ₗ ℕ := toLex (a.host, a.port.toNat)

lemma toKey_injective : Function.Injective toKey := by
  rintro ⟨h, p⟩ ⟨h', p'⟩ heq
  simp only [toKey, toLex_inj, Prod.mk.injEq] at heq
  rw [heq.1, UInt16.toNat_inj.mp heq.2]

/-- Addresses are ordered by host, then by port. -/
instance : LinearOrder Address := LinearOrder.lift' toKey toKey_injective

lemma lt_iff {a b : Address} : a < b ↔ a.host < b.host ∨ a.host = b.host ∧ a.port < b.port := by
  rw [show a < b ↔ toKey a < toKey b from Iff.rfl, toKey, toKey, Prod.Lex.toLex_lt_toLex,
    UInt16.lt_iff_toNat_lt]

end Address

/-- `membership::Member`. -/
structure Member where
  nodeName : String := ""
  ipAddress : String := ""
  port : UInt16 := 0
  hostName : String := ""
  uid : String := ""
  role : String := ""
  deriving DecidableEq, Repr

namespace Member

/-- What `operator==` and `operator<` look at. -/
def address (m : Member) : Address := ⟨m.ipAddress, m.port⟩

/-- `operator==`. -/
def eq (lhs rhs : Member) : Bool := lhs.ipAddress == rhs.ipAddress && lhs.port == rhs.port

/-- `operator<`. -/
def lt (lhs rhs : Member) : Bool :=
  decide (lhs.ipAddress < rhs.ipAddress)
    || (lhs.ipAddress == rhs.ipAddress && decide (lhs.port < rhs.port))

/-- `Member::IsEmptyMember`. -/
def isEmptyMember (m : Member) : Bool :=
  m.nodeName.isEmpty && m.ipAddress.isEmpty && m.port == 0

@[simp] lemma eq_iff {m m' : Member} : m.eq m' = true ↔ m.address = m'.address := by
  simp [eq, address]

@[simp] lemma eq_eq_false_iff {m m' : Member} : m.eq m' = false ↔ m.address ≠ m'.address := by
  rw [← Bool.not_eq_true, eq_iff]

lemma lt_iff {m m' : Member} : m.lt m' = true ↔ m.address < m'.address := by
  simp [lt, address, Address.lt_iff]

end Member

/-- `std::map<Member, V>`. -/
abbrev MemberMap (V : Type*) := OrderedMap Member.address V

end Cdcf
