/-
# `FlipLink.Link.Deadlines` — how the waits of the three programs nest

A request of the client is answered by the handler in the firmware, which may
wait itself, and by the daemon, which waits for the firmware's first reply.  The
waits are fixed independently: `timeout_ms` of a link probe and of the transmit
loop, the 3000 ms of `serve_client`, and the client's own.

The client always waits at least as long as the daemon, but the daemon does not
always wait as long as the firmware: a link probe may take up to 5000 ms, and a
transmission up to 60000, where it is cut off (`deadlines_nest_iff`).  The probe's
client allows for its time and the daemon between them does not.
-/
import FlipLink.Client.LinkProbe
import FlipLink.Daemon.Server
import FlipLink.Firmware.SubghzRadio

namespace FlipLink

open LinkProbe

/-! ## The transmit loop -/

namespace Subghz

/-- How long the repeated edges last, in microseconds. -/
def airTime (edges : List TxEdge) (repeat_ : UInt32) : Nat :=
  (edges.map fun e => e.durationUs.toNat).sum * repeat_.toNat

theorem foldl_saturate : ∀ (edges : List TxEdge) (acc : Nat),
    acc + (edges.map fun e => e.durationUs.toNat).sum < 2 ^ 64 →
    edges.foldl (fun acc edge => saturate (acc + edge.durationUs.toNat)) acc
      = acc + (edges.map fun e => e.durationUs.toNat).sum
  | [], _, _ => rfl
  | e :: es, acc, h => by
      rw [List.map_cons, List.sum_cons] at h ⊢
      have hacc : saturate (acc + e.durationUs.toNat) = acc + e.durationUs.toNat := by
        rw [saturate]
        omega
      rw [List.foldl_cons, hacc, foldl_saturate es _ (by omega), Nat.add_assoc]

/-- What is accepted lasts at most some 20 days for each repetition. -/
theorem sum_durations_le {edges : List TxEdge} (h : ∀ e ∈ edges, e.InRange) :
    (edges.map fun e => e.durationUs.toNat).sum ≤ edges.length * 0x3fffffff := by
  induction edges with
  | nil => exact Nat.le_refl 0
  | cons e es ih =>
      obtain ⟨he, hes⟩ := List.forall_mem_cons.mp h
      have hle := he.2
      have := ih hes
      rw [List.map_cons, List.sum_cons, List.length_cons]
      omega

/-- Nothing that is accepted saturates. -/
theorem txTimeoutMs_eq {params : Value} {edges : List TxEdge} {repeat_ : UInt32}
    (hedges : parseEdges params = .ok edges) (hrepeat : repeatCount params = .ok repeat_) :
    txTimeoutMs edges repeat_ = min (airTime edges repeat_ / 1000 + 1000) 60000 := by
  obtain ⟨-, hlen, hrange⟩ := parseEdges_ok hedges
  obtain ⟨-, hmany⟩ := repeatCount_ok hrepeat
  have hsum := sum_durations_le hrange
  have hbound : (edges.map fun e => e.durationUs.toNat).sum ≤ 4398046507008 := by
    rw [maxEdges] at hlen
    omega
  have hair : airTime edges repeat_ ≤ 4398046507008 * 100 := Nat.mul_le_mul hbound hmany
  have htotal : totalUs edges repeat_ = airTime edges repeat_ := by
    rw [totalUs, foldl_saturate edges 0 (by omega), Nat.zero_add, ← airTime, saturate]
    omega
  rw [txTimeoutMs, htotal, saturate]
  omega

end Subghz

/-! ## The client -/

/-- How long `flip subghz transmit` waits for the answer. -/
def transmitTimeout : Nat := fromMillis 30000

/-- **How the deadlines nest.**  For a link probe that the host accepts the firmware's
wait is at most the daemon's and that at most the client's exactly if the timeout is
at most 3 s; for a transmission that the firmware accepts they nest, and the
firmware's wait covers the repeated edges, exactly if these last less than 2.001 s. -/
theorem deadlines_nest_iff (params : Value) :
    (∀ {frequency : UInt32} {payload : List UInt8} {timeout : Nat} {timeoutMs : UInt32},
      linkProbeParams frequency payload timeout = .ok params →
      Subghz.probeTimeoutMs params = .ok timeoutMs →
      ((timeoutMs.toNat ≤ Daemon.replyTimeout ∧
          fromMillis Daemon.replyTimeout ≤ hostTimeout timeout) ↔
        timeout ≤ fromMillis 3000)) ∧
    (∀ {edges : List Subghz.TxEdge} {repeat_ : UInt32},
      Subghz.parseEdges params = .ok edges → Subghz.repeatCount params = .ok repeat_ →
      ((Subghz.txTimeoutMs edges repeat_ ≤ Daemon.replyTimeout ∧
          fromMillis Daemon.replyTimeout ≤ transmitTimeout ∧
          Subghz.airTime edges repeat_ ≤ 1000 * Subghz.txTimeoutMs edges repeat_) ↔
        Subghz.airTime edges repeat_ < 2001000)) := by
  constructor
  · intro frequency payload timeout timeoutMs hparams hms
    obtain ⟨ms, rfl, hlow, hhigh, hget⟩ := linkProbeParams_ok hparams
    have hval : (UInt64.ofNat ms).toNat = ms :=
      UInt64.toNat_ofNat_of_lt (show ms < 2 ^ 64 by omega)
    have hnat : timeoutMs.toNat = ms := by
      have hread : (if UInt64.ofNat ms < Subghz.minLinkProbeTimeoutMs ∨
            UInt64.ofNat ms > Subghz.maxLinkProbeTimeoutMs then
          Except.error (errBadParams, "timeout_ms out of range")
        else Except.ok (UInt64.ofNat ms).toUInt32) = .ok timeoutMs := by
        rw [Subghz.probeTimeoutMs, hget] at hms
        exact hms
      split_ifs at hread
      obtain rfl := Except.ok.inj hread
      rw [UInt64.toNat_toUInt32, hval]
      exact Nat.mod_eq_of_lt (by omega)
    have hhost : hostTimeout (fromMillis ms) = fromMillis (ms + 3000) := by
      rw [hostTimeout, if_pos]
      · simp only [fromMillis]
        omega
      · simp only [fromMillis, maxDuration]
        omega
    rw [hnat, hhost]
    simp only [Daemon.replyTimeout, fromMillis]
    omega
  · intro edges repeat_ hedges hrepeat
    rw [Subghz.txTimeoutMs_eq hedges hrepeat]
    simp only [Daemon.replyTimeout, transmitTimeout, fromMillis]
    omega

/-- The parameters of a transmission of one edge. -/
def oneEdge (durationUs : UInt64) : Value :=
  .map [("edges", .array [.map [("level", .bool true), ("duration_us", .u64 durationUs)]])]

/-- A probe of 250 ms, and an edge of 1 ms. -/
theorem deadlines_nest_short :
    ((250 : UInt32).toNat ≤ Daemon.replyTimeout ∧
      fromMillis Daemon.replyTimeout ≤ hostTimeout (fromMillis 250)) ∧
    (Subghz.txTimeoutMs [⟨true, 1000⟩] 1 ≤ Daemon.replyTimeout ∧
      fromMillis Daemon.replyTimeout ≤ transmitTimeout ∧
      Subghz.airTime [⟨true, 1000⟩] 1 ≤ 1000 * Subghz.txTimeoutMs [⟨true, 1000⟩] 1) :=
  have hprobe : linkProbeParams 433920000 [104] (fromMillis 250) = .ok _ := rfl
  have hedges : Subghz.parseEdges (oneEdge 1000) = .ok _ := rfl
  ⟨((deadlines_nest_iff _).1 hprobe rfl).mpr (by decide),
    ((deadlines_nest_iff _).2 hedges rfl).mpr (by decide)⟩

/-- A probe of 5 s is accepted and outlasts the daemon's wait, and so does one edge of
some 18 minutes, which is cut off after one. -/
theorem deadlines_not_nested :
    (∃ params, linkProbeParams 433920000 [104] (fromMillis 5000) = .ok params ∧
      Subghz.probeTimeoutMs params = .ok 5000 ∧ Daemon.replyTimeout < (5000 : UInt32).toNat) ∧
    (Subghz.parseEdges (oneEdge 0x3fffffff) = .ok [⟨true, 0x3fffffff⟩] ∧
      Subghz.repeatCount (oneEdge 0x3fffffff) = .ok 1 ∧
      Daemon.replyTimeout < Subghz.txTimeoutMs [⟨true, 0x3fffffff⟩] 1 ∧
      1000 * Subghz.txTimeoutMs [⟨true, 0x3fffffff⟩] 1 < Subghz.airTime [⟨true, 0x3fffffff⟩] 1) :=
  ⟨⟨_, rfl, rfl, by decide⟩, rfl, rfl, by decide, by decide⟩

end FlipLink
