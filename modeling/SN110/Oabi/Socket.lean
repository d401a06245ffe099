import SN110.Common
import Mathlib.Data.List.Basic
import Mathlib.Tactic.IntervalCases

/-!
# Sockets (`oabi/minisock.c`, `netinet/in.h`)

What the receivers see of the kernel: the result of `recv` and of `recvfrom`, socket addresses,
and the byte order conversion of a little-endian ARM.
-/

namespace SN110

/-- What `recv` returns for a buffer of `size` bytes: an error, or the first bytes of a datagram. -/
inductive Received (size : Nat) where
  | error
  | bytes (buf : List UInt8) (length_le : buf.length ≤ size)

namespace Received

variable {size : Nat}

/-- The return value of `recv`. -/
def count : Received size → Int
  | error => -1
  | bytes buf _ => buf.length

/-- The bytes that `recv` stored. What the buffer holds behind them is left over from earlier. -/
def buf : Received size → List UInt8
  | error => []
  | bytes buf _ => buf

/-- A datagram read into a buffer, which cuts it. -/
def datagram (size : Nat) (payload : List UInt8) : Received size :=
  bytes (payload.take size) (List.length_take_le size payload)

theorem buf_length_le (r : Received size) : r.buf.length ≤ size := by
  cases r with
  | error => exact Nat.zero_le size
  | bytes buf h => exact h

/-- A count of at least 0 is the number of bytes stored. -/
theorem count_eq_length {r : Received size} (h : 0 ≤ r.count) : r.count = r.buf.length := by
  cases r with
  | error => simp [count] at h
  | bytes buf _ => rfl

end Received

/-- `struct sockaddr_in`: the address and port of a peer. -/
structure SockAddrIn where
  addr : UInt32
  port : UInt16
deriving DecidableEq

/-- `htonl` of `netinet/in.h`. -/
def htonl (x : UInt32) : UInt32 :=
  ((x >>> 24) &&& (0x000000FF : UInt32)) ||| ((x >>> 8) &&& (0x0000FF00 : UInt32)) |||
    ((x <<< 8) &&& (0x00FF0000 : UInt32)) ||| ((x <<< 24) &&& (0xFF000000 : UInt32))

/-- Swapping the bytes twice gives them back. -/
theorem htonl_htonl (x : UInt32) : htonl (htonl x) = x := by
  apply UInt32.eq_of_toBitVec_eq
  apply BitVec.eq_of_getLsbD_eq
  intro i hi
  simp only [htonl, UInt32.toBitVec_or, UInt32.toBitVec_and, UInt32.toBitVec_shiftRight,
    UInt32.toBitVec_shiftLeft, BitVec.getLsbD_or, BitVec.getLsbD_and]
  interval_cases i <;> simp

end SN110
