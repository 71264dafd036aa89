/-
# `FlipLink.Client.Capture` — all samples, or an error

`ir_capture` and `subghz_capture` of `lib.rs` over the connection of `daemon.rs`.  The
two are the same loops around `next_frame`; what they differ in is a `Kind`.  As in
`FlipLink.Client.SubghzCapture` a turn of a loop is one step, and what `cancel` returns
and which times are up come with it.  Here `next_frame` is not free: it takes the frames
off a `StreamConn`, and what comes with the turn is what its reads find.

Where the main loop ends and the other takes over makes no difference, because both hold
the samples of the STREAM_DATA frames between the STREAM_START and what is still on the
connection (`Along`).  `SubghzCapture.machine` is the machine of its kind, state for state
(`step_toPhase`).
-/
import FlipLink.Client.Signal
import FlipLink.Client.SubghzCapture
import FlipLink.Core.Transport

namespace FlipLink

open Lib

/-! ## The connection -/

/-- `StreamConn`: the reader, and the bytes that are on the way to it. -/
structure StreamConn where
  reader : FrameReader
  incoming : List UInt8
  deriving DecidableEq, Repr

namespace StreamConn

/-- `next_frame`.  A read before the deadline finds an error, or so many bytes. -/
def nextFrame : List (Except String Nat) → StreamConn →
    Except String (Option (MsgType × List UInt8)) × StreamConn
  | [], c =>
      match c.reader.nextFrame with
      | (some f, reader) => (.ok (some (f.typ, f.payload)), { c with reader })
      | (none, reader) => (.ok none, { c with reader })
  | read :: reads, c =>
      match c.reader.nextFrame with
      | (some f, reader) => (.ok (some (f.typ, f.payload)), { c with reader })
      | (none, reader) =>
          match read with
          | .error e => (.error e, { c with reader })
          | .ok n =>
              nextFrame reads
                { reader := reader.feed (c.incoming.take n), incoming := c.incoming.drop n }

/-- The bytes of the connection are the front of these frames. -/
def Carries (c : StreamConn) (frames : List (MsgType × List UInt8)) : Prop :=
  ∃ fs : List OwnedFrame, (∀ f ∈ fs, f.payload.length ≤ 0xFFFF) ∧
    c.reader.buf ++ c.incoming <+: fs.flatMap Frame.wire ∧
    fs.map (fun f => (f.typ, f.payload)) = frames

/-- What `next_frame` returns, and what is left then. -/
def Delivers (frames : List (MsgType × List UInt8)) :
    Except String (Option (MsgType × List UInt8)) → StreamConn → Prop
  | .error _, _ => True
  | .ok none, c => c.Carries frames
  | .ok (some frame), c => ∃ rest, frames = frame :: rest ∧ c.Carries rest

theorem Carries.reader {c : StreamConn} {frames : List (MsgType × List UInt8)}
    (h : c.Carries frames) :
    c.reader.nextFrame = (none, c.reader) ∨
    ∃ f reader rest, c.reader.nextFrame = (some f, reader) ∧
      frames = (f.typ, f.payload) :: rest ∧ ({ c with reader } : StreamConn).Carries rest := by
  obtain ⟨fs, hfs, hprefix, rfl⟩ := h
  rcases FrameReader.nextFrame_wires hfs hprefix with hnone | ⟨f, fs', rest, rfl, -, hsome, hrest⟩
  · exact .inl hnone
  · exact .inr ⟨f, ⟨rest⟩, _, hsome, rfl, fs', (List.forall_mem_cons.mp hfs).2, hrest, rfl⟩

/-- Whatever the reads find, `next_frame` returns the first of the frames, or none
yet. -/
theorem nextFrame_delivers {frames : List (MsgType × List UInt8)} :
    ∀ (reads : List (Except String Nat)) {c : StreamConn}, c.Carries frames →
      Delivers frames (nextFrame reads c).1 (nextFrame reads c).2
  | [], c, h => by
      rw [nextFrame]
      rcases h.reader with hnone | ⟨f, reader, rest, hsome, rfl, hrest⟩
      · rw [hnone]
        exact h
      · rw [hsome]
        exact ⟨rest, rfl, hrest⟩
  | read :: reads, c, h => by
      rw [nextFrame]
      rcases h.reader with hnone | ⟨f, reader, rest, hsome, rfl, hrest⟩
      · rw [hnone]
        cases read with
        | error e => trivial
        | ok n =>
            refine nextFrame_delivers reads ?_
            obtain ⟨fs, hfs, hprefix, hmap⟩ := h
            refine ⟨fs, hfs, ?_, hmap⟩
            rw [FrameReader.feed, List.append_assoc, List.take_append_drop]
            exact hprefix
      · rw [hsome]
        exact ⟨rest, rfl, hrest⟩

end StreamConn

/-! ## The loops -/

namespace CaptureClient

open SubghzCapture (Bodies Turn decodeAgentError handleStreamStop)

/-- What the captures of the two instruments differ in. -/
structure Kind (α σ : Type) where
  label : String
  format : String
  /-- `decode_stream_data`. -/
  decode : List UInt8 → List α → List α × Nat
  /-- The samples that `decode_stream_data` pushes. -/
  samples : List UInt8 → List α
  decode_eq : ∀ payload out, (decode payload out).1 = out ++ samples payload
  /-- The end of the function. -/
  finish : List α → Except String σ

/-- Where a capture is; `SubghzCapture.Phase` for any samples. -/
inductive Phase (α σ : Type) where
  | opening
  | starting
  | capturing (raw : List α)
  | stopping (raw : List α)
  | draining (raw : List α)
  | done (r : Except String σ)

section Loops

variable {α σ : Type} (b : Bodies) (k : Kind α σ)

def validateStreamStart (typ : MsgType) (payload : List UInt8) : Except String Unit :=
  match typ with
  | .streamStart =>
      match b.streamStart payload with
      | .ok format =>
          if format = k.format then .ok ()
          else .error ("unsupported " ++ k.label ++ " capture stream format " ++ format ++
            " (expected " ++ k.format ++ ")")
      | .error e => .error ("decode STREAM_START: " ++ e)
  | .error => .error (decodeAgentError b payload)
  | other => .error ("expected STREAM_START, got " ++ other.debug)

/-- A turn of `expect_capture_stream_start`. -/
def startTurn (t : Turn) : Phase α σ :=
  match t.got with
  | .error e => .done (.error e)
  | .ok (some (typ, payload)) =>
      match validateStreamStart b k typ payload with
      | .ok () => .capturing []
      | .error e => .done (.error e)
  | .ok none =>
      if t.elapsed then
        .done (.error ("timed out waiting for " ++ k.label ++ " capture stream start"))
      else .starting

/-- The idle gap, looked at at the end of a turn. -/
def afterTurn (raw : List α) (t : Turn) : Phase α σ :=
  if !raw.isEmpty && t.elapsed then .stopping raw else .capturing raw

/-- A turn of the loop that reads the stream. -/
def captureTurn (raw : List α) (t : Turn) : Phase α σ × List (List UInt8) :=
  if t.cancel then (.stopping raw, [])
  else
    match t.got with
    | .error e => (.done (.error e), [])
    | .ok (some (.streamData, payload)) => (afterTurn (k.decode payload raw).1 t, [payload])
    | .ok (some (.streamStop, payload)) =>
        match handleStreamStop b k.label payload with
        | .ok () => (.done (k.finish raw), [])
        | .error e => (.done (.error e), [])
    | .ok (some (.error, payload)) => (.done (.error (decodeAgentError b payload)), [])
    | .ok (some (other, _)) =>
        (.done (.error ("unexpected frame during " ++ k.label ++ " capture: " ++ other.debug)), [])
    | .ok none => (afterTurn raw t, [])

/-- The deadline, looked at at the end of a turn. -/
def afterDrain (raw : List α) (t : Turn) : Phase α σ :=
  if t.elapsed then .done (.error ("timed out waiting for " ++ k.label ++ " capture stop"))
  else .draining raw

/-- A turn of `drain_capture_stop`. -/
def drainTurn (raw : List α) (t : Turn) : Phase α σ × List (List UInt8) :=
  match t.got with
  | .error e => (.done (.error e), [])
  | .ok (some (.streamData, payload)) => (afterDrain k (k.decode payload raw).1 t, [payload])
  | .ok (some (.streamStop, payload)) =>
      match handleStreamStop b k.label payload with
      | .ok () => (.done (k.finish raw), [])
      | .error e => (.done (.error e), [])
  | .ok (some (.error, payload)) => (.done (.error (decodeAgentError b payload)), [])
  | .ok (some (other, _)) =>
      (.done (.error ("unexpected frame while stopping " ++ k.label ++ " capture: "
        ++ other.debug)), [])
  | .ok none => (afterDrain k raw t, [])

def step : Phase α σ → SubghzCapture.Input → Option (Phase α σ × List (List UInt8))
  | .opening, .opened (.ok ()) => some (.starting, [])
  | .opening, .opened (.error e) => some (.done (.error e), [])
  | .starting, .turn t => some (startTurn b k t, [])
  | .capturing raw, .turn t => some (captureTurn b k raw t)
  | .stopping raw, .sent (.ok ()) => some (.draining raw, [])
  | .stopping _, .sent (.error e) => some (.done (.error e), [])
  | .draining raw, .turn t => some (drainTurn b k raw t)
  | _, _ => none

/-- A capture; the events are the STREAM_DATA payloads read. -/
def machine : Machine (Phase α σ) SubghzCapture.Input (List UInt8) where
  step := step b k

/-- Whether a turn gets to `next_frame`. -/
def asks : Phase α σ → Bool → Bool
  | .capturing _, cancel => !cancel
  | _, _ => true

end Loops

/-! ## The loops over a connection -/

inductive Input where
  /-- `open_stream` returns. -/
  | opened (r : Except String Unit)
  | turn (cancel : Bool) (reads : List (Except String Nat)) (elapsed : Bool)
  /-- The send of the STREAM_STOP returns. -/
  | sent (r : Except String Unit)

/-- The machine of a capture with what `next_frame` returns taken off a connection. -/
def online {φ ο : Type} (M : Machine φ SubghzCapture.Input ο) (asks : φ → Bool → Bool) :
    Machine (φ × StreamConn) Input ο where
  step
    | (s, c), .opened r => (M.step s (.opened r)).map fun p => ((p.1, c), p.2)
    | (s, c), .turn cancel reads elapsed =>
        let got := if asks s cancel then c.nextFrame reads else (.ok none, c)
        (M.step s (.turn { cancel, got := got.1, elapsed })).map fun p => ((p.1, got.2), p.2)
    | (s, c), .sent r => (M.step s (.sent r)).map fun p => ((p.1, c), p.2)

/-! ## What is held -/

section Held

variable {α σ : Type} {b : Bodies} {k : Kind α σ}

/-- Frames that begin with a STREAM_START and STREAM_DATA frames of these payloads. -/
def Span (frames : List (MsgType × List UInt8)) (payloads : List (List UInt8))
    (rest : List (MsgType × List UInt8)) : Prop :=
  ∃ start, frames = (.streamStart, start) :: payloads.map (.streamData, ·) ++ rest

theorem Span.concat {frames rest : List (MsgType × List UInt8)} {payloads : List (List UInt8)}
    {payload : List UInt8} (h : Span frames payloads ((.streamData, payload) :: rest)) :
    Span frames (payloads ++ [payload]) rest := by
  obtain ⟨start, rfl⟩ := h
  refine ⟨start, ?_⟩
  rw [List.map_append, List.cons_append, List.cons_append, List.append_assoc]
  rfl

/-- The samples held are those of the STREAM_DATA frames up to what is still on the
connection. -/
def Held (k : Kind α σ) (frames : List (MsgType × List UInt8)) (raw : List α)
    (c : StreamConn) : Prop :=
  ∃ payloads rest, Span frames payloads rest ∧ raw = payloads.flatMap k.samples ∧ c.Carries rest

/-- The frames were a whole capture, in which nothing was dropped. -/
def Whole (b : Bodies) (k : Kind α σ) (frames : List (MsgType × List UInt8)) (signal : σ) :
    Prop :=
  ∃ payloads stop rest, Span frames payloads ((.streamStop, stop) :: rest) ∧
    b.streamStop stop = .ok 0 ∧ k.finish (payloads.flatMap k.samples) = .ok signal

/-- How far a capture has come along the frames. -/
def Along (b : Bodies) (k : Kind α σ) (frames : List (MsgType × List UInt8)) :
    Phase α σ × StreamConn → Prop
  | (.opening, c) | (.starting, c) => c.Carries frames
  | (.capturing raw, c) | (.stopping raw, c) | (.draining raw, c) => Held k frames raw c
  | (.done (.ok signal), _) => Whole b k frames signal
  | (.done (.error _), _) => True

variable {frames : List (MsgType × List UInt8)} {c : StreamConn}

theorem validateStreamStart_ok {typ : MsgType} {payload : List UInt8}
    (h : validateStreamStart b k typ payload = .ok ()) : typ = .streamStart := by
  unfold validateStreamStart at h
  split at h
  · rfl
  · cases h
  · cases h

theorem handleStreamStop_ok {label : String} {payload : List UInt8}
    (h : handleStreamStop b label payload = .ok ()) : b.streamStop payload = .ok 0 := by
  unfold SubghzCapture.handleStreamStop at h
  split at h
  · rename_i dropped hstop
    split_ifs at h with hdropped
    rw [hstop, UInt32.le_zero_iff.mp (UInt32.not_lt.mp hdropped)]
  · cases h

theorem Held.concat {raw : List α} {payloads : List (List UInt8)} {payload : List UInt8}
    {rest : List (MsgType × List UInt8)}
    (hspan : Span frames payloads ((.streamData, payload) :: rest))
    (hraw : raw = payloads.flatMap k.samples) (hrest : c.Carries rest) :
    Held k frames (k.decode payload raw).1 c := by
  refine ⟨payloads ++ [payload], rest, hspan.concat, ?_, hrest⟩
  rw [k.decode_eq, hraw, List.flatMap_append, List.flatMap_singleton]

/-- A STREAM_STOP that reports no loss ends the capture. -/
theorem along_stop {raw : List α} {payloads : List (List UInt8)} {stop : List UInt8}
    {rest : List (MsgType × List UInt8)}
    (hspan : Span frames payloads ((.streamStop, stop) :: rest))
    (hraw : raw = payloads.flatMap k.samples)
    (hstop : handleStreamStop b k.label stop = .ok ()) :
    Along b k frames (.done (k.finish raw), c) := by
  cases hfinish : k.finish raw with
  | error e => trivial
  | ok signal =>
      rw [hraw] at hfinish
      exact ⟨payloads, stop, rest, hspan, handleStreamStop_ok hstop, hfinish⟩

theorem along_startTurn {t : Turn} (h : StreamConn.Delivers frames t.got c) :
    Along b k frames (startTurn b k t, c) := by
  unfold startTurn
  split
  · trivial
  · rename_i typ payload hgot
    rw [hgot] at h
    obtain ⟨rest, rfl, hrest⟩ := h
    split
    · rename_i hvalid
      rw [validateStreamStart_ok hvalid]
      exact ⟨[], rest, ⟨payload, rfl⟩, rfl, hrest⟩
    · trivial
  · rename_i hgot
    rw [hgot] at h
    split_ifs
    · trivial
    · exact h

theorem along_afterTurn {raw : List α} (h : Held k frames raw c) (t : Turn) :
    Along b k frames (afterTurn raw t, c) := by
  unfold afterTurn
  split_ifs <;> exact h

theorem along_afterDrain {raw : List α} (h : Held k frames raw c) (t : Turn) :
    Along b k frames (afterDrain k raw t, c) := by
  unfold afterDrain
  split_ifs
  · trivial
  · exact h

theorem along_captureTurn {raw : List α} {payloads : List (List UInt8)}
    {rest : List (MsgType × List UInt8)} (hspan : Span frames payloads rest)
    (hraw : raw = payloads.flatMap k.samples) {t : Turn} (hcancel : t.cancel = false)
    (h : StreamConn.Delivers rest t.got c) :
    Along b k frames ((captureTurn b k raw t).1, c) := by
  rw [captureTurn, hcancel, if_neg Bool.false_ne_true]
  cases hgot : t.got with
  | error e => trivial
  | ok frame =>
      rw [hgot] at h
      cases frame with
      | none => exact along_afterTurn ⟨payloads, rest, hspan, hraw, h⟩ t
      | some frame =>
          obtain ⟨rest', rfl, hrest⟩ := h
          obtain ⟨typ, payload⟩ := frame
          split
          · rename_i heq
            cases heq
          · rename_i heq
            cases heq
            exact along_afterTurn (.concat hspan hraw hrest) t
          · rename_i heq
            cases heq
            split
            · rename_i hstop
              exact along_stop hspan hraw hstop
            · trivial
          · trivial
          · trivial
          · rename_i heq
            cases heq

theorem along_drainTurn {raw : List α} {payloads : List (List UInt8)}
    {rest : List (MsgType × List UInt8)} (hspan : Span frames payloads rest)
    (hraw : raw = payloads.flatMap k.samples) {t : Turn} (h : StreamConn.Delivers rest t.got c) :
    Along b k frames ((drainTurn b k raw t).1, c) := by
  rw [drainTurn]
  cases hgot : t.got with
  | error e => trivial
  | ok frame =>
      rw [hgot] at h
      cases frame with
      | none => exact along_afterDrain ⟨payloads, rest, hspan, hraw, h⟩ t
      | some frame =>
          obtain ⟨rest', rfl, hrest⟩ := h
          obtain ⟨typ, payload⟩ := frame
          split
          · rename_i heq
            cases heq
          · rename_i heq
            cases heq
            exact along_afterDrain (.concat hspan hraw hrest) t
          · rename_i heq
            cases heq
            split
            · rename_i hstop
              exact along_stop hspan hraw hstop
            · trivial
          · trivial
          · trivial
          · rename_i heq
            cases heq

/-- A step of a capture over its connection. -/
theorem Along.step {s s' : Phase α σ × StreamConn} {i : Input} {es : List (List UInt8)}
    (h : Along b k frames s) (hs : (online (machine b k) asks).step s i = some (s', es)) :
    Along b k frames s' := by
  obtain ⟨phase, c⟩ := s
  cases i with
  | opened r =>
      cases phase <;> cases r <;> cases hs
      · trivial
      · exact h
  | sent r =>
      cases phase <;> cases r <;> cases hs
      · trivial
      · exact h
  | turn cancel reads elapsed =>
      cases phase with
      | opening | stopping | done => cases hs
      | starting =>
          cases hs
          exact along_startTurn (StreamConn.nextFrame_delivers reads h)
      | draining raw =>
          obtain ⟨payloads, rest, hspan, hraw, hrest⟩ := h
          cases hs
          exact along_drainTurn hspan hraw (StreamConn.nextFrame_delivers reads hrest)
      | capturing raw =>
          cases cancel with
          | true =>
              cases hs
              exact h
          | false =>
              obtain ⟨payloads, rest, hspan, hraw, hrest⟩ := h
              cases hs
              exact along_captureTurn hspan hraw rfl (StreamConn.nextFrame_delivers reads hrest)

/-- A capture that returns a signal has seen a whole one. -/
theorem run_whole {is : List Input} {signal : σ} {c' : StreamConn} {es : List (List UInt8)}
    (hc : c.Carries frames)
    (hrun : (online (machine b k) asks).run (.opening, c) is
      = some ((.done (.ok signal), c'), es)) :
    Whole b k frames signal :=
  Machine.run_invariant (P := Along b k frames) (fun h hs => h.step hs)
    (show Along b k frames (.opening, c) from hc) hrun

end Held

/-! ## The two captures -/

/-- The end of `ir_capture`. -/
def irFinish (raw : List UInt64) : Except String IrSignal :=
  if (IrSignal.fromCapture raw).timings.isEmpty then .error "no IR signal captured"
  else .ok (IrSignal.fromCapture raw)

/-- `ir_capture`. -/
def irCapture : Kind UInt64 IrSignal where
  label := "IR"
  format := streamFormatRawI32Us
  decode := IrSignal.decodeStreamData
  samples payload := (chunksExact 4 payload).map IrSignal.sample
  decode_eq payload out := by rw [IrSignal.decodeStreamData_eq]
  finish := irFinish

/-- `subghz_capture`. -/
def subghzCapture (frequency : UInt32) (preset : SubGhzPreset) : Kind SubGhzEdge SubGhzSignal where
  label := "Sub-GHz"
  format := streamFormatSubghzLevelDurationV1
  decode := SubGhzSignal.decodeStreamData
  samples := SubGhzSignal.streamEdges
  decode_eq _ _ := rfl
  finish := SubghzCapture.finish frequency preset

end CaptureClient

namespace SubghzCapture

/-- A phase of `subghz_capture` as one of its kind. -/
def toPhase : Phase → CaptureClient.Phase SubGhzEdge SubGhzSignal
  | .opening => .opening
  | .starting => .starting
  | .capturing edges => .capturing edges
  | .stopping edges => .stopping edges
  | .draining edges => .draining edges
  | .done r => .done r

/-- Whether a turn gets to `next_frame`. -/
def asks : Phase → Bool → Bool
  | .capturing _, cancel => !cancel
  | _, _ => true

variable (b : Bodies) (frequency : UInt32) (preset : SubGhzPreset)

theorem validateStreamStart_eq (typ : MsgType) (payload : List UInt8) :
    CaptureClient.validateStreamStart b (CaptureClient.subghzCapture frequency preset) typ payload
      = validateStreamStart b typ payload := rfl

theorem startTurn_toPhase (t : Turn) :
    CaptureClient.startTurn b (CaptureClient.subghzCapture frequency preset) t
      = toPhase (startTurn b t) := by
  unfold CaptureClient.startTurn startTurn
  cases t.got with
  | error e => rfl
  | ok frame =>
      cases frame with
      | none => cases t.elapsed <;> rfl
      | some frame =>
          dsimp only
          rw [validateStreamStart_eq]
          cases validateStreamStart b frame.1 frame.2 <;> rfl

theorem afterTurn_toPhase (edges : List SubGhzEdge) (t : Turn) :
    CaptureClient.afterTurn edges t = toPhase (afterTurn edges t) := by
  unfold CaptureClient.afterTurn afterTurn
  split_ifs <;> rfl

theorem afterDrain_toPhase (edges : List SubGhzEdge) (t : Turn) :
    CaptureClient.afterDrain (CaptureClient.subghzCapture frequency preset) edges t
      = toPhase (afterDrain edges t) := by
  unfold CaptureClient.afterDrain afterDrain
  split_ifs <;> rfl

theorem stop_toPhase (edges : List SubGhzEdge) (payload : List UInt8) :
    (match handleStreamStop b "Sub-GHz" payload with
      | .ok () => (.done (finish frequency preset edges), [])
      | .error e => (.done (.error e), [])
      : CaptureClient.Phase SubGhzEdge SubGhzSignal × List (List UInt8))
      = Prod.map toPhase id
        (match handleStreamStop b "Sub-GHz" payload with
        | .ok () => (.done (finish frequency preset edges), [])
        | .error e => (.done (.error e), [])) := by
  cases handleStreamStop b "Sub-GHz" payload <;> rfl

theorem captureTurn_toPhase (edges : List SubGhzEdge) (t : Turn) :
    CaptureClient.captureTurn b (CaptureClient.subghzCapture frequency preset) edges t
      = (toPhase (captureTurn b frequency preset edges t).1,
          (captureTurn b frequency preset edges t).2) := by
  rw [CaptureClient.captureTurn, captureTurn]
  cases t.cancel with
  | true => rfl
  | false =>
      rw [if_neg Bool.false_ne_true, if_neg Bool.false_ne_true]
      cases t.got with
      | error e => rfl
      | ok frame =>
          cases frame with
          | none => exact Prod.ext (afterTurn_toPhase edges t) rfl
          | some frame =>
              obtain ⟨typ, payload⟩ := frame
              cases typ with
              | streamData => exact Prod.ext (afterTurn_toPhase _ t) rfl
              | streamStop => exact stop_toPhase b frequency preset edges payload
              | _ => rfl

theorem drainTurn_toPhase (edges : List SubGhzEdge) (t : Turn) :
    CaptureClient.drainTurn b (CaptureClient.subghzCapture frequency preset) edges t
      = (toPhase (drainTurn b frequency preset edges t).1,
          (drainTurn b frequency preset edges t).2) := by
  rw [CaptureClient.drainTurn, drainTurn]
  cases t.got with
  | error e => rfl
  | ok frame =>
      cases frame with
      | none => exact Prod.ext (afterDrain_toPhase frequency preset edges t) rfl
      | some frame =>
          obtain ⟨typ, payload⟩ := frame
          cases typ with
          | streamData => exact Prod.ext (afterDrain_toPhase frequency preset _ t) rfl
          | streamStop => exact stop_toPhase b frequency preset edges payload
          | _ => rfl

/-- `subghz_capture` is a capture of its kind. -/
theorem step_toPhase (s : Phase) (i : Input) :
    CaptureClient.step b (CaptureClient.subghzCapture frequency preset) (toPhase s) i
      = (step b frequency preset s i).map fun r => (toPhase r.1, r.2) := by
  cases i with
  | opened r => cases s <;> cases r <;> rfl
  | sent r => cases s <;> cases r <;> rfl
  | turn t =>
      cases s with
      | opening | stopping | done => rfl
      | starting => exact congrArg (fun p => some (p, [])) (startTurn_toPhase b frequency preset t)
      | capturing edges => exact congrArg some (captureTurn_toPhase b frequency preset edges t)
      | draining edges => exact congrArg some (drainTurn_toPhase b frequency preset edges t)

/-- And so it is over a connection. -/
theorem online_toPhase (s : Phase × StreamConn) (i : CaptureClient.Input) :
    (CaptureClient.online (CaptureClient.machine b (CaptureClient.subghzCapture frequency preset))
        CaptureClient.asks).step (toPhase s.1, s.2) i
      = ((CaptureClient.online (machine b frequency preset) asks).step s i).map
          fun r => ((toPhase r.1.1, r.1.2), r.2) := by
  obtain ⟨s, c⟩ := s
  have hasks : ∀ cancel, CaptureClient.asks (toPhase s) cancel = asks s cancel := by
    intro cancel
    cases s <;> rfl
  cases i with
  | opened r =>
      show (CaptureClient.step b _ (toPhase s) (.opened r)).map _
        = ((step b frequency preset s (.opened r)).map _).map _
      rw [step_toPhase, Option.map_map, Option.map_map]
      rfl
  | sent r =>
      show (CaptureClient.step b _ (toPhase s) (.sent r)).map _
        = ((step b frequency preset s (.sent r)).map _).map _
      rw [step_toPhase, Option.map_map, Option.map_map]
      rfl
  | turn cancel reads elapsed =>
      dsimp only [CaptureClient.online]
      rw [hasks]
      show (CaptureClient.step b _ (toPhase s) (.turn _)).map _
        = ((step b frequency preset s (.turn _)).map _).map _
      rw [step_toPhase, Option.map_map, Option.map_map]
      rfl

end SubghzCapture

namespace CaptureClient

open SubghzCapture (Bodies)

/-- **All samples, or an error.**  Whatever frames the daemon passes on, however they
arrive and wherever the main loop is stopped: if a capture returns a signal, then the
frames were a STREAM_START, STREAM_DATA frames and a STREAM_STOP that reports no loss, and
the signal is the samples of these STREAM_DATA frames in order, of an IR signal without
the first. -/
theorem all_samples_or_error (b : Bodies) {frames : List (MsgType × List UInt8)}
    {c c' : StreamConn} (hc : c.Carries frames) {is : List Input} {es : List (List UInt8)} :
    (∀ signal, (online (machine b irCapture) asks).run (.opening, c) is
        = some ((.done (.ok signal), c'), es) →
      ∃ start, ∃ payloads : List (List UInt8), ∃ stop rest,
        frames = (.streamStart, start) :: payloads.map (.streamData, ·)
          ++ (.streamStop, stop) :: rest ∧
        b.streamStop stop = .ok 0 ∧
        signal.timings
          = (payloads.flatMap fun p => (chunksExact 4 p).map IrSignal.sample).drop 1) ∧
    ∀ frequency preset signal,
      (online (SubghzCapture.machine b frequency preset) SubghzCapture.asks).run (.opening, c) is
        = some ((.done (.ok signal), c'), es) →
      ∃ start, ∃ payloads : List (List UInt8), ∃ stop rest,
        frames = (.streamStart, start) :: payloads.map (.streamData, ·)
          ++ (.streamStop, stop) :: rest ∧
        b.streamStop stop = .ok 0 ∧
        signal = { frequency, preset, edges := payloads.flatMap SubGhzSignal.streamEdges } := by
  constructor
  · intro signal hrun
    obtain ⟨payloads, stop, rest, ⟨start, hframes⟩, hstop, hfinish⟩ := run_whole hc hrun
    refine ⟨start, payloads, stop, rest, hframes, hstop, ?_⟩
    change irFinish _ = _ at hfinish
    unfold irFinish at hfinish
    split_ifs at hfinish
    cases hfinish
    rfl
  · intro frequency preset signal hrun
    have hmap := Machine.run_map (SubghzCapture.online_toPhase b frequency preset) is
      (.opening, c)
    rw [hrun] at hmap
    obtain ⟨payloads, stop, rest, ⟨start, hframes⟩, hstop, hfinish⟩ := run_whole hc hmap
    refine ⟨start, payloads, stop, rest, hframes, hstop, ?_⟩
    change SubghzCapture.finish frequency preset _ = _ at hfinish
    unfold SubghzCapture.finish at hfinish
    split_ifs at hfinish
    cases hfinish
    rfl

/-- Decoders that know the bodies of an IR capture. -/
def irBodies : Bodies where
  streamStart payload :=
    if payload = streamStartBody streamFormatRawI32Us then .ok streamFormatRawI32Us
    else .error "unexpected"
  streamStop payload := if payload = streamStopBody 0 then .ok 0 else .error "unexpected"
  agentError _ := .error "unexpected"

/-- A turn that gets to `next_frame` while a frame is in the reader. -/
theorem step_buffered {φ ο : Type} {M : Machine φ SubghzCapture.Input ο} {asks : φ → Bool → Bool}
    {s : φ} {f : OwnedFrame} (hasks : asks s false = true) (hn : f.payload.length ≤ 0xFFFF)
    (bytes : List UInt8) :
    (online M asks).step (s, ⟨⟨f.wire ++ bytes⟩, []⟩) (.turn false [] false)
      = (M.step s (.turn ⟨false, .ok (some (f.typ, f.payload)), false⟩)).map
          fun p => ((p.1, ⟨⟨bytes⟩, []⟩), p.2) := by
  dsimp only [online]
  rw [if_pos hasks, StreamConn.nextFrame, FrameReader.nextFrame_wire hn]

def irStart : OwnedFrame := ⟨.streamStart, 0, 1, streamStartBody streamFormatRawI32Us⟩
def irData (payload : List UInt8) : OwnedFrame := ⟨.streamData, 0, 1, payload⟩
def irStop : OwnedFrame := ⟨.streamStop, 0, 1, streamStopBody 0⟩

/-- Two payloads of an IR signal, and `cancel` between them. -/
theorem all_samples_or_error_cut :
    let fs := [irStart, irData [0x40, 0x1F, 0, 0, 0x28, 0x23, 0, 0],
      irData [0x94, 0x11, 0, 0], irStop]
    let is : List Input := [.opened (.ok ()), .turn false [] false, .turn false [] false,
      .turn true [] false, .sent (.ok ()), .turn false [] false, .turn false [] false]
    let signal : IrSignal := ⟨38000, 330, [9000, 4500]⟩
    (∃ es, (online (machine irBodies irCapture) asks).run
        (.opening, ⟨⟨fs.flatMap Frame.wire⟩, []⟩) is
        = some ((.done (.ok signal), ⟨.new, []⟩), es)) ∧
      ∃ start, ∃ payloads : List (List UInt8), ∃ stop rest,
        fs.map (fun f => (f.typ, f.payload))
          = (.streamStart, start) :: payloads.map (.streamData, ·) ++ (.streamStop, stop) :: rest ∧
        irBodies.streamStop stop = .ok 0 ∧
        signal.timings
          = (payloads.flatMap fun p => (chunksExact 4 p).map IrSignal.sample).drop 1 := by
  intro fs is signal
  let first := irData [0x40, 0x1F, 0, 0, 0x28, 0x23, 0, 0]
  let second := irData [0x94, 0x11, 0, 0]
  have hcarries : (⟨⟨fs.flatMap Frame.wire⟩, []⟩ : StreamConn).Carries
      (fs.map fun f => (f.typ, f.payload)) :=
    ⟨fs, by decide, ⟨[], by rw [List.append_nil, List.append_nil]⟩, rfl⟩
  have hstart : (online (machine irBodies irCapture) asks).step
      (.starting, ⟨⟨fs.flatMap Frame.wire⟩, []⟩) (.turn false [] false)
      = some ((.capturing [], ⟨⟨[first, second, irStop].flatMap Frame.wire⟩, []⟩), []) :=
    step_buffered (f := irStart) rfl (by decide) _
  have hfirst : (online (machine irBodies irCapture) asks).step
      (.capturing [], ⟨⟨[first, second, irStop].flatMap Frame.wire⟩, []⟩) (.turn false [] false)
      = some ((.capturing [8000, 9000], ⟨⟨[second, irStop].flatMap Frame.wire⟩, []⟩),
          [first.payload]) :=
    step_buffered (f := irData [0x40, 0x1F, 0, 0, 0x28, 0x23, 0, 0]) rfl (by decide) _
  have hsecond : (online (machine irBodies irCapture) asks).step
      (.draining [8000, 9000], ⟨⟨[second, irStop].flatMap Frame.wire⟩, []⟩) (.turn false [] false)
      = some ((.draining [8000, 9000, 4500], ⟨⟨[irStop].flatMap Frame.wire⟩, []⟩),
          [second.payload]) :=
    step_buffered (f := irData [0x94, 0x11, 0, 0]) rfl (by decide) _
  have hstop : (online (machine irBodies irCapture) asks).step
      (.draining [8000, 9000, 4500], ⟨⟨[irStop].flatMap Frame.wire⟩, []⟩) (.turn false [] false)
      = some ((.done (.ok signal), ⟨.new, []⟩), []) :=
    step_buffered (f := irStop) rfl (by decide) _
  have hopen : (online (machine irBodies irCapture) asks).step
      (.opening, ⟨⟨fs.flatMap Frame.wire⟩, []⟩) (.opened (.ok ()))
      = some ((.starting, ⟨⟨fs.flatMap Frame.wire⟩, []⟩), []) := rfl
  have hcut : ∀ c, (online (machine irBodies irCapture) asks).step (.capturing [8000, 9000], c)
      (.turn true [] false) = some ((.stopping [8000, 9000], c), []) := fun _ => rfl
  have hsent : ∀ c, (online (machine irBodies irCapture) asks).step (.stopping [8000, 9000], c)
      (.sent (.ok ())) = some ((.draining [8000, 9000], c), []) := fun _ => rfl
  have hdone : (online (machine irBodies irCapture) asks).run (.done (.ok signal), ⟨.new, []⟩) []
      = some ((.done (.ok signal), ⟨.new, []⟩), []) := rfl
  have hrun := Machine.run_step hopen (Machine.run_step hstart (Machine.run_step hfirst
    (Machine.run_step (hcut _) (Machine.run_step (hsent _) (Machine.run_step hsecond
    (Machine.run_step hstop hdone))))))
  exact ⟨⟨_, hrun⟩, (all_samples_or_error irBodies hcarries).1 signal hrun⟩

end CaptureClient

end FlipLink
