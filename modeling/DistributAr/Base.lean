/-
# `DistributAr.Base` — the scalar types and constants of `main.h`

Three conventions hold throughout.

* A `Time` is an `Int`, in nanoseconds since the epoch, as
  `std::chrono::high_resolution_clock` keeps it: signed overflow is undefined
  in C++, so the sums and differences of time points are taken in `ℤ`.  Where a
  value leaves the 64-bit clock (the `int` of `TimeBuffer::write`, the bytes on
  the wire) the conversion is written out.
* An `unsigned int` is a `UInt32`, an `uint16_t` a `UInt16`.
* `std::unordered_map` is Mathlib's `AList`: distinct keys, and an order of
  entries that nothing may rely on.
-/
import Mathlib.Algebra.Group.Int.Defs
import Mathlib.Algebra.Group.Nat.Defs
import Mathlib.Data.List.AList

namespace DistributAr

/-- `high_resolution_clock::time_point::min()`. -/
def timeMin : Int := -2 ^ 63

/-- `std::chrono::microseconds(us)` as a duration of the clock. -/
def microseconds (us : Int) : Int := 1000 * us

/-- `std::chrono::milliseconds(ms)`. -/
def milliseconds (ms : Int) : Int := 1000000 * ms

/-- `std::chrono::seconds(s)`. -/
def seconds (s : Int) : Int := 1000000000 * s

/-- `duration_cast<microseconds>(d).count()`: truncation toward zero. -/
def toMicroseconds (d : Int) : Int := d.tdiv 1000

theorem toMicroseconds_of_nonneg {d : Int} (h : 0 ≤ d) : toMicroseconds d = d / 1000 :=
  Int.tdiv_eq_ediv_of_nonneg h

/-- Unique ID of each cluster as seen by tracker and other clusters. -/
abbrev ClusterID := UInt32

/-- `TIME_SERVER_ID` -/
def timeServerId : ClusterID := 0xFFFFFFFF

/-- `TRACKER_CLUSTER_ID` -/
def trackerClusterId : ClusterID := 0

/-- `MAX_OUTPUT_NODES` -/
def maxOutputNodes : Nat := (1456 - 4 * 8) / 4

/-- `MAX_MSG_Q_SIZE` -/
def maxMsgQSize : Nat := 256

/-- `PACKET_LIFE_TIME_MS` -/
def packetLifeTimeMs : Int := 20

theorem maxOutputNodes_eq : maxOutputNodes = 356 := rfl

/-- The two fields of a `sockaddr_in` that the framework reads and compares. -/
structure SockAddr where
  s_addr : UInt32
  sin_port : UInt16
deriving DecidableEq, Repr

end DistributAr
