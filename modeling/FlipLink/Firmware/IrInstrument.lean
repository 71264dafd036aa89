/-
# `FlipLink.Firmware.IrInstrument` — IR capture, and its samples on the host

The capture of `ir_instrument.rs` is the common machinery at 4-byte samples, a
buffer of 4096 bytes and batches of 256.  The ISR writes the duration of an edge
as a little-endian `i32`; the level is implicit in the order.

4096 is a whole number of samples, so no sample is ever torn, and
`ir_capture_accounts` holds of every run: what the host decodes from the
payloads is the durations of the accepted ISR calls, and the calls that were not
accepted are the ones the device counted.
-/
import FlipLink.Client.Signal
import FlipLink.Firmware.Capture

namespace FlipLink.Ir

open Lib Capture

/-- Capture stream buffer capacity in bytes (i32 samples). -/
def captureCap : Nat := 4096

/-- IR capture's share of the common machinery. -/
def config : CaptureConfig where
  cap := captureCap
  recordSize := 4
  batchSize := 256
  record e := some (IrSignal.leI32 e.duration.toInt32)
  recordSize_pos := by decide
  batchSize_pos := by decide
  recordSize_dvd := by decide
  length_record h := by
    obtain rfl := Option.some.inj h
    exact IrSignal.length_leI32 _

/-- RX capture ISR: push each edge duration as a little-endian i32 (µs). -/
def rxCaptureIsr (c : Capture config) (level : Bool) (duration : UInt32) :
    Capture config × List Event :=
  c.rxCaptureIsr { level, duration }

/-- True if a capture is currently streaming. -/
def captureActive (c : Capture config) : Bool := c.active

/-- What `start_capture` learns from the system. -/
structure Hal where
  /-- `furi_hal_infrared_is_busy`. -/
  busy : Bool
  /-- An allocation succeeds. -/
  alloc : Bool
  deriving DecidableEq, Repr

/-- Start an IR capture for request `seq`: send STREAM_START, arm RX. -/
def startCapture (hal : Hal) (seq : UInt16) (c : Capture config) : Capture config × List Sent :=
  if c.active || hal.busy then (c, [.error seq errBusy "ir busy"])
  else
    match c.ensureCaptureBuffer hal.alloc with
    | none => (c, [.error seq errInternal "no capture buffer"])
    | some sb => (arm 64 sb seq, [.streamStart seq streamFormatRawI32Us])

/-- Drain available whole i32 samples into one STREAM_DATA frame. -/
def drainCapture (c : Capture config) : Capture config × List Sent := c.drainCapture

/-- Stop the active capture: stop RX, flush remaining samples, send final
STREAM_STOP{dropped}. -/
def stopCapture (c : Capture config) : Capture config × List Sent := c.stopCapture

/-- A STREAM_START is sent exactly by a start that arms the receiver. -/
theorem startCapture_started {hal : Hal} {seq : UInt16} {c c' : Capture config} {format : String}
    (h : startCapture hal seq c = (c', [.streamStart seq format])) :
    ∃ sb, c' = arm 64 sb seq := by
  unfold startCapture at h
  split_ifs at h
  · exact nomatch h
  · cases hsb : c.ensureCaptureBuffer hal.alloc with
    | none => rw [hsb] at h; exact nomatch h
    | some sb =>
        rw [hsb] at h
        exact ⟨sb, (Prod.ext_iff.mp h).1.symm⟩

/-- The samples of the records of some edges are their durations. -/
theorem samples_records : ∀ {es : List Edge}, (∀ e ∈ es, e.duration.toNat < 2 ^ 31) →
    (chunksExact 4 (records config es)).map IrSignal.sample
      = es.map fun e => UInt64.ofNat e.duration.toNat
  | [], _ => by
      show (chunksExact 4 ([] : List UInt8)).map _ = []
      rw [chunksExact_nil, List.map_nil]
  | e :: es, h => by
      obtain ⟨he, hes⟩ := List.forall_mem_cons.mp h
      show (chunksExact 4 (IrSignal.leI32 e.duration.toInt32 ++ records config es)).map _ = _
      rw [chunksExact_cons (by decide) (IrSignal.length_leI32 _), List.map_cons,
        IrSignal.sample_leI32 he, samples_records hes, List.map_cons]

/-- **IR capture is loss-accounted end to end.**  Whatever the interleaving of
ISR calls, drains and the stop: once the stop has returned, the host decodes
from the payloads exactly the durations of the accepted calls, in order, every
call was either accepted or rejected, and the count in STREAM_STOP is the number
of rejected calls. -/
theorem ir_capture_accounts {hal : Hal} {seq : UInt16} {c₀ c₁ c : Capture config}
    {ls : List Label} {es : List Event}
    (hstart : startCapture hal seq c₀ = (c₁, [.streamStart seq streamFormatRawI32Us]))
    (hrun : (machine config).run c₁ ls = some (c, es)) (hend : c.rx = false)
    (hdur : ∀ e ∈ edges config ls, e.duration.toNat < 2 ^ 31)
    (hlt : (rejected es).length < 2 ^ 32) :
    calls es = edges config ls ∧
    IrSignal.decodeStream (payloads es)
      = (accepted es).map (fun e => UInt64.ofNat e.duration.toNat) ∧
    ∃ dropped, stops es = [dropped] ∧ dropped.toNat = (rejected es).length := by
  obtain ⟨sb, rfl⟩ := startCapture_started hstart
  have hinv := capture_tracks_of_dvd (by decide) (inv_arm (by decide) sb seq)
    (aligned_arm (by decide) sb seq) hrun
  have hacc := accounted_of_inv hinv hend
  refine ⟨hacc.calls_eq, ?_, hacc.stops_eq hlt⟩
  rw [IrSignal.decodeStream_flatten hacc.whole, hacc.payloads_eq]
  refine samples_records fun e he => hdur e ?_
  rw [← hacc.calls_eq]
  exact accepted_subset_calls he

/-- Three edges around a drain, the last of them during the stop. -/
theorem ir_capture_accounts_burst :
    let es : List Event :=
      [.accepted ⟨true, 9000⟩, .sent (.streamData 7 [0x28, 0x23, 0, 0]), .accepted ⟨false, 4500⟩,
        .accepted ⟨true, 560⟩, .sent (.streamData 7 [0x94, 0x11, 0, 0, 0x30, 0x02, 0, 0]),
        .sent (.streamStop 7 0)]
    (machine config).run (startCapture ⟨false, true⟩ 7 initial).1
        [.isr ⟨true, 9000⟩, .drain, .isr ⟨false, 4500⟩, .stop, .isr ⟨true, 560⟩, .stopped]
      = some ({ stream := some .empty, active := false, seq := 7, dropped := 0, rx := false }, es) ∧
    IrSignal.decodeStream (payloads es) = [9000, 4500, 560] ∧
    ∃ dropped, stops es = [dropped] ∧ dropped.toNat = (rejected es).length := by
  intro es
  have hrun : (machine config).run (startCapture ⟨false, true⟩ 7 initial).1
      [.isr ⟨true, 9000⟩, .drain, .isr ⟨false, 4500⟩, .stop, .isr ⟨true, 560⟩, .stopped]
      = some ({ stream := some .empty, active := false, seq := 7, dropped := 0, rx := false }, es) :=
    rfl
  have h := @ir_capture_accounts ⟨false, true⟩ 7 initial _ _ _ _ rfl hrun rfl (by decide) (by decide)
  exact ⟨hrun, h.2.1, h.2.2⟩

end FlipLink.Ir
