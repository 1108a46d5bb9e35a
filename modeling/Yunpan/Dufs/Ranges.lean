import Yunpan.Dufs.Contained
import Yunpan.Dufs.Fetch
import Yunpan.Protocol.Ascii

/-!
# Ranges of a file

How a header writes the ranges that it asks for, how they are read, and what comes of
fetching a file range by range.
-/

namespace Yunpan.Dufs

open Yunpan.Protocol Yunpan.Percent Yunpan.Address Yunpan.Separator Program Server

inductive RangeSpec where
  | between (start stop : ℕ)
  | onward (start : ℕ)
  | last (count : ℕ)

namespace RangeSpec

def text : RangeSpec → Text
  | between start stop => number start ++ '-' :: number stop
  | onward start => number start ++ ['-']
  | last count => '-' :: number count

/-- The numbers are machine words. -/
def Fits : RangeSpec → Prop
  | between start stop => start < u64 ∧ stop < u64
  | onward start => start < u64
  | last count => count < u64

end RangeSpec

section Fetch

variable {server : Server} {disk : Disk Text} {location : Location Text}
  {bytes : List UInt8}

end Fetch

namespace Sample

end Sample

end Yunpan.Dufs
