/-
# `FlipLink.Firmware.Capture` — the capture of one instrument

`ir_instrument.rs` and `subghz_instrument.rs` each hold a copy of the same
machinery: an ISR that writes one record per edge into a stream buffer and
counts the records it could not write, a main loop that forwards the buffer in
batches of whole records, and a stop that switches the receiver off, forwards
what is left and reports the count.  `CaptureConfig` is what the copies differ
in; the functions here are the common body, and each instrument's module applies
them to its own values.

The ISR may interrupt the main loop anywhere.  What it can interfere with is the
buffer, the counter and the order of the stop, so the steps of the machine are:
one ISR call, one `drain_capture`, the swap of the active flag with which
`stop_capture` begins, and the rest of it.  Between the last two the receiver is
still on and the ISR still writes; the rest begins with the HAL call that ends
it.

    isr      the receiver is on
    drain    the capture is active
    stop     the capture is active
    stopped  a stop has begun and the receiver is on

`capture_tracks` is the invariant that both instruments rest on: what was sent
and what is buffered is the records of the accepted ISR calls, and at most a
torn record behind them.
-/
import FlipLink.Firmware.Send
import FlipLink.Lib.Machine
import FlipLink.Lib.Records
import FlipLink.Lib.StreamBuffer

namespace FlipLink

open Lib

/-- What the receiver reports: a level and for how many microseconds it was held. -/
structure Edge where
  level : Bool
  duration : UInt32
  deriving DecidableEq, Repr

/-- What the two instruments' captures differ in. -/
structure CaptureConfig where
  /-- `CAPTURE_CAP`. -/
  cap : Nat
  /-- Bytes of a record. -/
  recordSize : Nat
  /-- Bytes of a batch. -/
  batchSize : Nat
  /-- The record of an edge; `none` is an edge that the ISR leaves alone. -/
  record : Edge → Option (List UInt8)
  recordSize_pos : 0 < recordSize
  batchSize_pos : 0 < batchSize
  recordSize_dvd : recordSize ∣ batchSize
  length_record : ∀ {e b}, record e = some b → b.length = recordSize

/-- The statics of one instrument's capture, and whether its receiver is on. -/
structure Capture (p : CaptureConfig) where
  /-- `CAPTURE_STREAM`; `none` is the null pointer. -/
  stream : Option (StreamBuffer UInt8 p.cap)
  /-- `CAPTURE_ACTIVE`. -/
  active : Bool
  /-- `CAPTURE_SEQ`. -/
  seq : UInt16
  /-- `CAPTURE_DROPPED`. -/
  dropped : UInt32
  /-- Asynchronous reception is on in the HAL: the ISR may be called. -/
  rx : Bool

namespace Capture

variable {p : CaptureConfig}

/-- The statics at load time. -/
def initial : Capture p := { stream := none, active := false, seq := 0, dropped := 0, rx := false }

/-- What became of an ISR call, and what the main loop sent. -/
inductive Event where
  | accepted (e : Edge)
  | rejected (e : Edge)
  | sent (m : Sent)

/-! ## The functions of the source -/

/-- `rx_capture_isr`. -/
def rxCaptureIsr (c : Capture p) (e : Edge) : Capture p × List Event :=
  match c.stream, p.record e with
  | some sb, some bytes =>
      let sent := (sb.send bytes).1
      if sent ≠ p.recordSize then
        ({ c with stream := some (sb.send bytes).2, dropped := c.dropped + 1 }, [.rejected e])
      else ({ c with stream := some (sb.send bytes).2 }, [.accepted e])
  | _, _ => (c, [])

/-- `ensure_capture_buffer`; `alloc` is whether an allocation succeeds. -/
def ensureCaptureBuffer (alloc : Bool) (c : Capture p) : Option (StreamBuffer UInt8 p.cap) :=
  match c.stream with
  | some sb => some sb
  | none => if alloc then some .empty else none

/-- The common end of the two `start_capture`s: drain stale bytes, `scratch` at
a time, reset the statics and switch the receiver on. -/
def arm (scratch : Nat) (sb : StreamBuffer UInt8 p.cap) (seq : UInt16) : Capture p :=
  { stream := some (sb.discard scratch), active := true, seq, dropped := 0, rx := true }

/-- `drain_capture`. -/
def drainCapture (c : Capture p) : Capture p × List Sent :=
  match c.stream with
  | none => (c, [])
  | some sb =>
      if c.active then
        let got := (sb.receive p.batchSize).1
        let whole := got.length - got.length % p.recordSize
        ({ c with stream := some (sb.receive p.batchSize).2 },
          if whole ≥ p.recordSize then [.streamData c.seq (got.take whole)] else [])
      else (c, [])

/-- At most `k` turns of the flush loop of `stop_capture`: the batches it sends,
and the buffer it leaves. -/
def flushN : Nat → StreamBuffer UInt8 p.cap → List (List UInt8) × StreamBuffer UInt8 p.cap
  | 0, sb => ([], sb)
  | k + 1, sb =>
      let got := (sb.receive p.batchSize).1
      let whole := got.length - got.length % p.recordSize
      if whole < p.recordSize then ([], (sb.receive p.batchSize).2)
      else
        (got.take whole :: (flushN k (sb.receive p.batchSize).2).1,
          (flushN k (sb.receive p.batchSize).2).2)

/-- The flush loop; every turn but the last takes a record. -/
def flush (sb : StreamBuffer UInt8 p.cap) : List (List UInt8) × StreamBuffer UInt8 p.cap :=
  flushN (sb.items.length + 1) sb

/-- `stop_capture` behind its swap of the active flag: switch the receiver off,
flush, report. -/
def stopRest (c : Capture p) : Capture p × List Sent :=
  match c.stream with
  | none => ({ c with rx := false }, [.streamStop c.seq c.dropped])
  | some sb =>
      ({ c with rx := false, stream := some (flush sb).2 },
        (flush sb).1.map (.streamData c.seq) ++ [.streamStop c.seq c.dropped])

/-- `stop_capture`, when no ISR call comes in between. -/
def stopCapture (c : Capture p) : Capture p × List Sent :=
  if c.active then stopRest { c with active := false } else (c, [])

/-! ## The machine -/

inductive Label where
  | isr (e : Edge)
  | drain
  | stop
  | stopped
  deriving DecidableEq, Repr

/-- One step of the main loop, or one ISR call. -/
def step (c : Capture p) : Label → Option (Capture p × List Event)
  | .isr e => if c.rx then some (c.rxCaptureIsr e) else none
  | .drain =>
      if c.active then some (c.drainCapture.1, c.drainCapture.2.map .sent) else none
  | .stop => if c.active then some ({ c with active := false }, []) else none
  | .stopped =>
      if !c.active && c.rx then some (c.stopRest.1, c.stopRest.2.map .sent) else none

def machine (p : CaptureConfig) : Machine (Capture p) Label Event where
  step := step

/-! ## What a run recorded -/

/-- The edges of the ISR calls that the ISR does not leave alone. -/
def edges (p : CaptureConfig) (ls : List Label) : List Edge :=
  ls.filterMap fun
    | .isr e => if (p.record e).isSome then some e else none
    | _ => none

/-- The edges of the calls whose record was written whole. -/
def accepted (es : List Event) : List Edge :=
  es.filterMap fun
    | .accepted e => some e
    | _ => none

/-- The edges of the calls counted as dropped. -/
def rejected (es : List Event) : List Edge :=
  es.filterMap fun
    | .rejected e => some e
    | _ => none

/-- The edges of all calls, in order. -/
def calls (es : List Event) : List Edge :=
  es.filterMap fun
    | .accepted e | .rejected e => some e
    | .sent _ => none

/-- The payloads of the STREAM_DATA frames, in the order sent. -/
def payloads (es : List Event) : List (List UInt8) :=
  es.filterMap fun
    | .sent (.streamData _ raw) => some raw
    | _ => none

/-- The counts of the STREAM_STOP frames. -/
def stops (es : List Event) : List UInt32 :=
  es.filterMap fun
    | .sent (.streamStop _ dropped) => some dropped
    | _ => none

/-- The records of a list of edges, joined. -/
def records (p : CaptureConfig) (es : List Edge) : List UInt8 :=
  es.flatMap fun e => (p.record e).getD []

section Append

variable (xs ys : List Event)

@[simp] theorem accepted_append : accepted (xs ++ ys) = accepted xs ++ accepted ys :=
  List.filterMap_append

@[simp] theorem rejected_append : rejected (xs ++ ys) = rejected xs ++ rejected ys :=
  List.filterMap_append

@[simp] theorem calls_append : calls (xs ++ ys) = calls xs ++ calls ys :=
  List.filterMap_append

@[simp] theorem payloads_append : payloads (xs ++ ys) = payloads xs ++ payloads ys :=
  List.filterMap_append

@[simp] theorem stops_append : stops (xs ++ ys) = stops xs ++ stops ys :=
  List.filterMap_append

@[simp] theorem edges_append (ls ks : List Label) : edges p (ls ++ ks) = edges p ls ++ edges p ks :=
  List.filterMap_append

end Append

/-- What the main loop sends says nothing about ISR calls. -/
theorem sent_only (ms : List Sent) :
    accepted (ms.map .sent) = [] ∧ rejected (ms.map .sent) = [] ∧ calls (ms.map .sent) = [] := by
  induction ms with
  | nil => exact ⟨rfl, rfl, rfl⟩
  | cons m ms ih => exact ih

theorem payloads_streamData (seq : UInt16) (raws : List (List UInt8)) (dropped : UInt32) :
    payloads ((raws.map (Sent.streamData seq) ++ [Sent.streamStop seq dropped]).map .sent) = raws := by
  induction raws with
  | nil => rfl
  | cons raw raws ih => exact congrArg (raw :: ·) ih

theorem stops_streamData (seq : UInt16) (raws : List (List UInt8)) (dropped : UInt32) :
    stops ((raws.map (Sent.streamData seq) ++ [Sent.streamStop seq dropped]).map .sent)
      = [dropped] := by
  induction raws with
  | nil => rfl
  | cons raw raws ih => exact ih

/-- An accepted call is a call. -/
theorem accepted_subset_calls {es : List Event} {e : Edge} (h : e ∈ accepted es) :
    e ∈ calls es := by
  obtain ⟨ev, hev, hsome⟩ := List.mem_filterMap.mp h
  cases ev with
  | accepted e' => exact List.mem_filterMap.mpr ⟨_, hev, hsome⟩
  | rejected e' => exact nomatch hsome
  | sent m => exact nomatch hsome

/-! ## The invariant -/

/-- What is in the stream buffer. -/
def buffered (c : Capture p) : List UInt8 :=
  match c.stream with
  | some sb => sb.items
  | none => []

/-- The states and histories of a capture's runs. -/
structure Inv (c : Capture p) (ls : List Label) (es : List Event) : Prop where
  stream_some : c.stream.isSome = true
  tracks : Tracks p.recordSize (payloads es).flatten c.buffered (records p (accepted es))
  whole : ∀ raw ∈ payloads es, p.recordSize ∣ raw.length
  calls_eq : calls es = edges p ls
  dropped_eq : c.dropped = UInt32.ofNat (rejected es).length
  rx_of_active : c.active = true → c.rx = true
  stops_on : c.rx = true → stops es = []
  stops_off : c.rx = false → stops es = [c.dropped] ∧ c.buffered.length < p.recordSize

/-- No ISR call writes behind a torn record: the buffer is in step, or full. -/
def InStep (c : Capture p) : Label → Prop
  | .isr e => (p.record e).isSome = true →
      p.recordSize ∣ c.buffered.length ∨ c.buffered.length = p.cap
  | _ => True

theorem inv_arm {scratch : Nat} (hs : 0 < scratch) (sb : StreamBuffer UInt8 p.cap) (seq : UInt16) :
    Inv (arm scratch sb seq) [] [] where
  stream_some := rfl
  tracks := by
    show Tracks _ _ (sb.discard scratch).items _
    rw [StreamBuffer.discard_eq_empty hs]
    exact Tracks.nil p.recordSize_pos
  whole _ h := nomatch h
  calls_eq := rfl
  dropped_eq := rfl
  rx_of_active _ := rfl
  stops_on _ := rfl
  stops_off h := nomatch h

@[simp] theorem buffered_some {c : Capture p} {sb : StreamBuffer UInt8 p.cap}
    (h : c.stream = some sb) : c.buffered = sb.items := by
  rw [buffered, h]

theorem edges_isr_none {e : Edge} (he : p.record e = none) : edges p [.isr e] = [] := by
  simp only [edges, List.filterMap_cons, he, Option.isSome_none]
  rfl

theorem edges_isr_some {e : Edge} {b : List UInt8} (he : p.record e = some b) :
    edges p [.isr e] = [e] := by
  simp only [edges, List.filterMap_cons, he, Option.isSome_some]
  rfl

theorem records_append (xs ys : List Edge) :
    records p (xs ++ ys) = records p xs ++ records p ys :=
  List.flatMap_append

theorem records_singleton {e : Edge} {b : List UInt8} (he : p.record e = some b) :
    records p [e] = b := by
  rw [records, List.flatMap_cons, he, List.flatMap_nil, List.append_nil]
  rfl

/-- One call of the ISR with a buffer and a record: what happens to the edge is
decided by the room alone. -/
theorem rxCaptureIsr_cases {c : Capture p} {sb : StreamBuffer UInt8 p.cap} {e : Edge}
    {b : List UInt8} (hsb : c.stream = some sb) (he : p.record e = some b) :
    (p.recordSize ≤ sb.free ∧
      c.rxCaptureIsr e = ({ c with stream := some (sb.send b).2 }, [.accepted e])) ∨
    (sb.free < p.recordSize ∧
      c.rxCaptureIsr e
        = ({ c with stream := some (sb.send b).2, dropped := c.dropped + 1 }, [.rejected e])) := by
  have hlen := p.length_record he
  have hsent : (sb.send b).1 = p.recordSize ↔ p.recordSize ≤ sb.free := by
    have := StreamBuffer.send_fst_eq_length (b := sb) (x := b)
    rwa [hlen] at this
  by_cases hfree : p.recordSize ≤ sb.free
  · refine .inl ⟨hfree, ?_⟩
    simp only [rxCaptureIsr, hsb, he, hsent.mpr hfree, ne_eq, not_true_eq_false, if_false]
  · refine .inr ⟨Nat.not_le.mp hfree, ?_⟩
    simp only [rxCaptureIsr, hsb, he, ne_eq, mt hsent.mp hfree, not_false_eq_true, if_true]

/-- An ISR call that finds the buffer in step or full. -/
theorem inv_isr {c : Capture p} {ls : List Label} {es : List Event} (h : Inv c ls es)
    (hrx : c.rx = true) {e : Edge} (hG : InStep c (.isr e)) :
    Inv (c.rxCaptureIsr e).1 (ls ++ [.isr e]) (es ++ (c.rxCaptureIsr e).2) := by
  obtain ⟨sb, hsb⟩ := Option.isSome_iff_exists.mp h.stream_some
  have htracks := h.tracks
  rw [buffered_some hsb] at htracks
  have hon := h.stops_on hrx
  cases he : p.record e with
  | none =>
      -- the ISR leaves the edge alone
      have hstep : c.rxCaptureIsr e = (c, []) := by simp only [rxCaptureIsr, hsb, he]
      rw [hstep, List.append_nil]
      refine { h with calls_eq := ?_ }
      rw [edges_append, edges_isr_none he, List.append_nil]
      exact h.calls_eq
  | some b =>
      have hlen := p.length_record he
      have hpos := p.recordSize_pos
      have hcap := sb.free_le
      have hstep := hG (by rw [he]; rfl)
      rw [buffered_some hsb] at hstep
      have hcalls : calls es ++ [e] = edges p (ls ++ [.isr e]) := by
        rw [edges_append, edges_isr_some he, h.calls_eq]
      obtain ⟨hfree, heq⟩ | ⟨hfree, heq⟩ := rxCaptureIsr_cases hsb he
      · -- room for all of it, so the buffer is in step
        have hdvd : p.recordSize ∣ sb.items.length := by
          rcases hstep with hdvd | hfull
          · exact hdvd
          · omega
        have hitems : (sb.send b).2.items = sb.items ++ b := by
          rw [StreamBuffer.send_items, List.take_of_length_le (by omega)]
        rw [heq]
        exact
          { stream_some := rfl
            tracks := by
              rw [payloads_append, accepted_append, buffered_some rfl, hitems, records_append]
              show Tracks _ (payloads es ++ []).flatten _ (_ ++ records p [e])
              rw [List.append_nil, records_singleton he]
              exact htracks.push_whole hdvd hlen
            whole := by
              rw [payloads_append]
              exact (List.append_nil (payloads es)).symm ▸ h.whole
            calls_eq := by rw [calls_append]; exact hcalls
            dropped_eq := by
              rw [rejected_append]
              show _ = UInt32.ofNat (rejected es ++ []).length
              rw [List.append_nil]
              exact h.dropped_eq
            rx_of_active := h.rx_of_active
            stops_on := fun _ => by rw [stops_append, hon]; rfl
            stops_off := fun hoff => nomatch hrx.symm.trans hoff }
      · -- a torn record, or none of it
        have hitems : Tracks p.recordSize (payloads es).flatten (sb.send b).2.items
            (records p (accepted es)) := by
          rw [StreamBuffer.send_items]
          rcases hstep with hdvd | hfull
          · exact htracks.push_torn hdvd (by rw [List.length_take]; omega)
          · have hzero : sb.free = 0 := by omega
            rw [hzero, List.take_zero, List.append_nil]
            exact htracks
        rw [heq]
        exact
          { stream_some := rfl
            tracks := by
              rw [payloads_append, accepted_append, buffered_some rfl]
              show Tracks _ (payloads es ++ []).flatten _ (records p (accepted es ++ []))
              rw [List.append_nil, List.append_nil]
              exact hitems
            whole := by
              rw [payloads_append]
              exact (List.append_nil (payloads es)).symm ▸ h.whole
            calls_eq := by rw [calls_append]; exact hcalls
            dropped_eq := by
              rw [rejected_append, List.length_append]
              show c.dropped + 1 = UInt32.ofNat ((rejected es).length + 1)
              rw [h.dropped_eq, UInt32.ofNat_add]
              rfl
            rx_of_active := h.rx_of_active
            stops_on := fun _ => by rw [stops_append, hon]; rfl
            stops_off := fun hoff => nomatch hrx.symm.trans hoff }

/-- A read of one batch, as `drain_capture` and the flush loop do it. -/
theorem tracks_batch {out recs : List UInt8} {sb : StreamBuffer UInt8 p.cap}
    (h : Tracks p.recordSize out sb.items recs) :
    Tracks p.recordSize (out ++ wholePart p.recordSize (sb.receive p.batchSize).1)
      (sb.receive p.batchSize).2.items recs :=
  h.pull p.recordSize_dvd

theorem flushN_tracks : ∀ {k : Nat} {sb : StreamBuffer UInt8 p.cap} {out recs : List UInt8},
    sb.items.length < k → Tracks p.recordSize out sb.items recs →
    Tracks p.recordSize (out ++ (flushN k sb).1.flatten) (flushN k sb).2.items recs ∧
      (∀ raw ∈ (flushN k sb).1, p.recordSize ∣ raw.length) ∧
      (flushN k sb).2.items.length < p.recordSize
  | 0, _, _, _, hk, _ => absurd hk (Nat.not_lt_zero _)
  | k + 1, sb, out, recs, hk, h => by
      have hpull := tracks_batch h
      have hpos := p.recordSize_pos
      have hle := Nat.le_of_dvd p.batchSize_pos p.recordSize_dvd
      have hgot : (sb.receive p.batchSize).1.length = min p.batchSize sb.items.length :=
        List.length_take
      have hmod := Nat.mod_lt (sb.receive p.batchSize).1.length hpos
      rw [flushN]
      split_ifs with hw
      · -- less than a record came, so the buffer is empty now
        have hnil := wholePart_eq_nil (by rwa [length_wholePart])
        have hlen := congrArg List.length hnil
        rw [length_wholePart, List.length_nil] at hlen
        rw [hnil, List.append_nil] at hpull
        rw [List.flatten_nil, List.append_nil]
        refine ⟨hpull, nofun, ?_⟩
        rw [StreamBuffer.receive_items, List.length_drop]
        omega
      · have hlen : (sb.receive p.batchSize).2.items.length < k := by
          rw [StreamBuffer.receive_items, List.length_drop]
          omega
        obtain ⟨htracks, hwhole, hshort⟩ := flushN_tracks hlen hpull
        rw [List.flatten_cons, ← List.append_assoc]
        exact ⟨htracks, List.forall_mem_cons.mpr ⟨dvd_length_wholePart _ _, hwhole⟩, hshort⟩

/-- The flush loop sends the whole records of what it finds. -/
theorem flush_flatten (sb : StreamBuffer UInt8 p.cap) :
    (flush sb).1.flatten = wholePart p.recordSize sb.items := by
  obtain ⟨h, -, hshort⟩ :=
    flushN_tracks (Nat.lt_succ_self _) (Tracks.self p.recordSize_pos sb.items)
  exact h.done hshort

theorem flush_tracks {sb : StreamBuffer UInt8 p.cap} {out recs : List UInt8}
    (h : Tracks p.recordSize out sb.items recs) :
    Tracks p.recordSize (out ++ (flush sb).1.flatten) (flush sb).2.items recs ∧
      (∀ raw ∈ (flush sb).1, p.recordSize ∣ raw.length) ∧
      (flush sb).2.items.length < p.recordSize :=
  flushN_tracks (Nat.lt_succ_self _) h

/-- What `drain_capture` does while the capture is active: one batch leaves the
buffer, and its whole records are sent. -/
theorem drainCapture_spec {c : Capture p} {sb : StreamBuffer UInt8 p.cap}
    (hsb : c.stream = some sb) (hactive : c.active = true) :
    c.drainCapture.1 = { c with stream := some (sb.receive p.batchSize).2 } ∧
    (payloads (c.drainCapture.2.map .sent)).flatten
      = wholePart p.recordSize (sb.receive p.batchSize).1 ∧
    (∀ raw ∈ payloads (c.drainCapture.2.map .sent), p.recordSize ∣ raw.length) ∧
    stops (c.drainCapture.2.map .sent) = [] := by
  -- a batch of less than a record is no frame, and counts for nothing
  have hsent : c.drainCapture.2 =
      if p.recordSize ≤ (wholePart p.recordSize (sb.receive p.batchSize).1).length
      then [.streamData c.seq (wholePart p.recordSize (sb.receive p.batchSize).1)] else [] := by
    rw [length_wholePart]
    simp only [drainCapture, hsb, hactive, if_true, ge_iff_le]
    rfl
  refine ⟨by simp only [drainCapture, hsb, hactive, if_true], ?_⟩
  rw [hsent]
  split_ifs with hle
  · refine ⟨List.append_nil _, ?_, rfl⟩
    intro raw hraw
    exact List.mem_singleton.mp hraw ▸ dvd_length_wholePart _ _
  · exact ⟨(wholePart_eq_nil (Nat.not_le.mp hle)).symm, nofun, rfl⟩

theorem inv_drain {c : Capture p} {ls : List Label} {es : List Event} (h : Inv c ls es)
    (hactive : c.active = true) :
    Inv c.drainCapture.1 (ls ++ [.drain]) (es ++ c.drainCapture.2.map .sent) := by
  obtain ⟨sb, hsb⟩ := Option.isSome_iff_exists.mp h.stream_some
  have htracks := h.tracks
  rw [buffered_some hsb] at htracks
  have hrx := h.rx_of_active hactive
  obtain ⟨hstate, hflat, hwhole, hstops⟩ := drainCapture_spec hsb hactive
  obtain ⟨hacc, hrej, hcalls⟩ := sent_only c.drainCapture.2
  rw [hstate]
  exact
    { stream_some := rfl
      tracks := by
        rw [payloads_append, accepted_append, hacc, List.append_nil, List.flatten_append, hflat]
        exact tracks_batch htracks
      whole := by
        rw [payloads_append]
        intro raw hraw
        exact (List.mem_append.mp hraw).elim (h.whole raw) (hwhole raw)
      calls_eq := by
        rw [calls_append, hcalls, List.append_nil, edges_append]
        exact h.calls_eq.trans (List.append_nil _).symm
      dropped_eq := by
        rw [rejected_append, hrej, List.append_nil]
        exact h.dropped_eq
      rx_of_active := h.rx_of_active
      stops_on := fun _ => by rw [stops_append, h.stops_on hrx, hstops]; rfl
      stops_off := fun hoff => nomatch hrx.symm.trans hoff }

theorem inv_stopped {c : Capture p} {ls : List Label} {es : List Event} (h : Inv c ls es)
    (hactive : c.active = false) (hrx : c.rx = true) :
    Inv c.stopRest.1 (ls ++ [.stopped]) (es ++ c.stopRest.2.map .sent) := by
  obtain ⟨sb, hsb⟩ := Option.isSome_iff_exists.mp h.stream_some
  have htracks := h.tracks
  rw [buffered_some hsb] at htracks
  obtain ⟨hflush, hwhole, hshort⟩ := flush_tracks htracks
  have hstate : c.stopRest = ({ c with rx := false, stream := some (flush sb).2 },
      (flush sb).1.map (.streamData c.seq) ++ [.streamStop c.seq c.dropped]) := by
    simp only [stopRest, hsb]
  obtain ⟨hacc, hrej, hcalls⟩ := sent_only c.stopRest.2
  rw [hstate] at hacc hrej hcalls ⊢
  exact
    { stream_some := rfl
      tracks := by
        rw [payloads_append, accepted_append, hacc, List.append_nil, List.flatten_append,
          payloads_streamData]
        exact hflush
      whole := by
        rw [payloads_append, payloads_streamData]
        intro raw hraw
        exact (List.mem_append.mp hraw).elim (h.whole raw) (hwhole raw)
      calls_eq := by
        rw [calls_append, hcalls, List.append_nil, edges_append]
        exact h.calls_eq.trans (List.append_nil _).symm
      dropped_eq := by
        rw [rejected_append, hrej, List.append_nil]
        exact h.dropped_eq
      rx_of_active := fun hon => nomatch hactive.symm.trans hon
      stops_on := fun hon => nomatch hon
      stops_off := fun _ => by
        rw [stops_append, h.stops_on hrx, stops_streamData]
        exact ⟨rfl, hshort⟩ }

/-- A step that finds the buffer in step keeps the invariant. -/
theorem inv_step {c c' : Capture p} {ls : List Label} {es es' : List Event} {l : Label}
    (h : Inv c ls es) (hG : InStep c l) (hstep : (machine p).step c l = some (c', es')) :
    Inv c' (ls ++ [l]) (es ++ es') := by
  cases l with
  | isr e =>
      simp only [machine, step] at hstep
      split_ifs at hstep with hrx
      obtain ⟨rfl, rfl⟩ := Prod.ext_iff.mp (Option.some.inj hstep)
      exact inv_isr h hrx hG
  | drain =>
      simp only [machine, step] at hstep
      split_ifs at hstep with hactive
      cases hstep
      exact inv_drain h hactive
  | stop =>
      simp only [machine, step] at hstep
      split_ifs at hstep with hactive
      cases hstep
      rw [List.append_nil]
      refine { h with calls_eq := ?_, rx_of_active := nofun }
      rw [edges_append]
      exact h.calls_eq.trans (List.append_nil _).symm
  | stopped =>
      simp only [machine, step] at hstep
      split_ifs at hstep with hc
      cases hstep
      rw [Bool.and_eq_true, Bool.not_eq_true'] at hc
      exact inv_stopped h hc.1 hc.2

/-- The invariant holds along every run that stays in step. -/
theorem capture_tracks {c c' : Capture p} {ls : List Label} {es : List Event}
    (h : Inv c [] []) (hG : (machine p).Guarded InStep c ls)
    (hrun : (machine p).run c ls = some (c', es)) : Inv c' ls es :=
  Machine.run_guarded (fun hP hg hs => inv_step hP hg hs) h hG hrun

/-! ## A capacity of whole records -/

/-- While the receiver is on, the buffer holds whole records. -/
def Aligned (c : Capture p) : Prop := c.rx = true → p.recordSize ∣ c.buffered.length

theorem aligned_arm {scratch : Nat} (hs : 0 < scratch) (sb : StreamBuffer UInt8 p.cap)
    (seq : UInt16) : Aligned (arm scratch sb seq) := by
  intro _
  show p.recordSize ∣ (sb.discard scratch).items.length
  rw [StreamBuffer.discard_eq_empty hs]
  exact Nat.dvd_zero _

/-- Where the capacity is a whole number of records, no ISR call tears one. -/
theorem aligned_step (hcap : p.recordSize ∣ p.cap) {c c' : Capture p} {l : Label}
    {es : List Event} (h : Aligned c) (hstep : (machine p).step c l = some (c', es)) :
    Aligned c' := by
  cases l with
  | isr e =>
      simp only [machine, step] at hstep
      split_ifs at hstep with hrx
      obtain ⟨rfl, -⟩ := Prod.ext_iff.mp (Option.some.inj hstep)
      have hc := h hrx
      intro _
      cases hsb : c.stream with
      | none => simpa only [rxCaptureIsr, hsb] using hc
      | some sb =>
        cases he : p.record e with
        | none => simpa only [rxCaptureIsr, hsb, he] using hc
        | some b =>
          rw [buffered_some hsb] at hc
          have hsend := StreamBuffer.send_aligned hcap hc (p.length_record he)
          obtain ⟨-, heq⟩ | ⟨-, heq⟩ := rxCaptureIsr_cases hsb he
          · rw [heq]; exact hsend
          · rw [heq]; exact hsend
  | drain =>
      simp only [machine, step] at hstep
      split_ifs at hstep with hactive
      obtain ⟨rfl, -⟩ := Prod.ext_iff.mp (Option.some.inj hstep)
      cases hsb : c.stream with
      | none => simpa only [drainCapture, hsb] using h
      | some sb =>
        intro hrx
        have hstate : c.drainCapture.1 = { c with stream := some (sb.receive p.batchSize).2 } := by
          simp only [drainCapture, hsb, hactive, if_true]
        rw [hstate] at hrx ⊢
        have hc := h hrx
        rw [buffered_some hsb] at hc
        exact StreamBuffer.receive_aligned p.recordSize_dvd hc
  | stop =>
      simp only [machine, step] at hstep
      split_ifs at hstep
      obtain ⟨rfl, -⟩ := Prod.ext_iff.mp (Option.some.inj hstep)
      exact h
  | stopped =>
      simp only [machine, step] at hstep
      split_ifs at hstep
      obtain ⟨rfl, -⟩ := Prod.ext_iff.mp (Option.some.inj hstep)
      intro hrx
      cases hsb : c.stream with
      | none => simp only [stopRest, hsb] at hrx; exact nomatch hrx
      | some sb => simp only [stopRest, hsb] at hrx; exact nomatch hrx

theorem inStep_of_aligned {c c' : Capture p} {l : Label} {es : List Event} (h : Aligned c)
    (hstep : (machine p).step c l = some (c', es)) : InStep c l := by
  cases l with
  | isr e =>
      simp only [machine, step] at hstep
      split_ifs at hstep with hrx
      exact fun _ => .inl (h hrx)
  | drain | stop | stopped => trivial

/-- Then the invariant holds along every run. -/
theorem capture_tracks_of_dvd (hcap : p.recordSize ∣ p.cap) {c c' : Capture p} {ls : List Label}
    {es : List Event} (h : Inv c [] []) (ha : Aligned c)
    (hrun : (machine p).run c ls = some (c', es)) : Inv c' ls es := by
  have key := Machine.run_induction (M := machine p)
    (P := fun c ls es => Inv c ls es ∧ Aligned c)
    (fun hP hs => ⟨inv_step hP.1 (inStep_of_aligned hP.2 hs) hs, aligned_step hcap hP.2 hs⟩)
    ⟨h, ha⟩ hrun
  exact key.1

/-! ## The end of a capture -/

/-- What an ended capture owes its edges: the payloads are the records of the
accepted calls, every call was accepted or counted, and the count was
reported. -/
structure Accounted (p : CaptureConfig) (ls : List Label) (es : List Event) : Prop where
  payloads_eq : (payloads es).flatten = records p (accepted es)
  whole : ∀ raw ∈ payloads es, p.recordSize ∣ raw.length
  calls_eq : calls es = edges p ls
  stops_eq : (rejected es).length < 2 ^ 32 →
    ∃ dropped, stops es = [dropped] ∧ dropped.toNat = (rejected es).length

/-- An ended capture that stayed in step is accounted for. -/
theorem accounted_of_inv {c : Capture p} {ls : List Label} {es : List Event} (h : Inv c ls es)
    (hend : c.rx = false) : Accounted p ls es where
  payloads_eq := h.tracks.done (h.stops_off hend).2
  whole := h.whole
  calls_eq := h.calls_eq
  stops_eq hlt := ⟨c.dropped, (h.stops_off hend).1, by
    rw [h.dropped_eq, UInt32.toNat_ofNat', Nat.mod_eq_of_lt hlt]⟩

end Capture

end FlipLink
