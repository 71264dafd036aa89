/-
# `FlipLink.Core.Transport` — `FrameReader`, the host's framing loop

`FrameReader` of `transport.rs`: bytes are fed at the back, whole frames are
popped at the front, and garbage is dropped one byte at a time.  `nextFrame` is
the source's loop, whose every turn either returns or shortens the buffer by the
one byte that `Resync` drops; it is recursion on that buffer.

`nextFrame_eq` identifies the loop with a read of the scanner `codec`, and with
it everything `Lib.Scan` proves about scanners holds of the reader, chunk
independence first.
-/
import FlipLink.Proto.FrameCodec

namespace FlipLink

open Lib

/-- `OwnedFrame`: the frame with its payload copied out. -/
abbrev OwnedFrame := Frame

/-- Accumulates bytes from a transport and yields whole frames. -/
structure FrameReader where
  buf : List UInt8
  deriving DecidableEq, Repr

namespace FrameReader

def new : FrameReader := { buf := [] }

/-- Feed raw bytes that arrived from the transport. -/
def feed (r : FrameReader) (bytes : List UInt8) : FrameReader := { r with buf := r.buf ++ bytes }

theorem new_feed (bytes : List UInt8) : new.feed bytes = { buf := bytes } :=
  congrArg mk (List.nil_append bytes)

/-- The loop of `next_frame`, on the buffer. -/
def nextLoop : List UInt8 → Option OwnedFrame × List UInt8
  | [] =>
      match decode [] with
      | .frame f used => (some f, [].drop used)
      | .needMore => (none, [])
      -- the source's `is_empty` test before dropping a byte
      | .resync => (none, [])
  | b :: rest =>
      match decode (b :: rest) with
      | .frame f used => (some f, (b :: rest).drop used)
      | .needMore => (none, b :: rest)
      | .resync => nextLoop rest

/-- Pop the next complete frame, if one is buffered; drops leading garbage. -/
def nextFrame (r : FrameReader) : Option OwnedFrame × FrameReader :=
  ((nextLoop r.buf).1, { buf := (nextLoop r.buf).2 })

/-- The loop is one read of the scanner. -/
theorem nextLoop_eq : ∀ buf : List UInt8, nextLoop buf = codec.next buf
  | [] => rfl
  | b :: bs => by
      cases hd : decode (b :: bs) with
      | frame f n => simp only [nextLoop, hd, codec.next_of_frame hd]
      | needMore => simp only [nextLoop, hd, codec.next_of_needMore hd]
      | resync => simp only [nextLoop, hd, codec.next_of_resync hd, nextLoop_eq bs]

theorem next_of_nextFrame {r r' : FrameReader} {o : Option OwnedFrame}
    (h : r.nextFrame = (o, r')) : codec.next r.buf = (o, r'.buf) := by
  rw [nextFrame, nextLoop_eq] at h
  rw [← (Prod.mk.inj h).1, ← (Prod.mk.inj h).2]

/-- A whole frame at the front of the buffer is the next one. -/
theorem nextFrame_wire {f : OwnedFrame} (hn : f.payload.length ≤ 0xFFFF) (rest : List UInt8) :
    nextFrame { buf := f.wire ++ rest } = (some f, { buf := rest }) := by
  rw [nextFrame, nextLoop_eq, next_wire hn]

/-- The front of some frames on the wire: the next one is the first of them, once all
of it is there. -/
theorem nextFrame_wires {fs : List OwnedFrame} (hfs : ∀ f ∈ fs, f.payload.length ≤ 0xFFFF)
    {r : FrameReader} {more : List UInt8} (h : r.buf ++ more <+: fs.flatMap Frame.wire) :
    r.nextFrame = (none, r) ∨
    ∃ f fs' rest, fs = f :: fs' ∧ r.buf = f.wire ++ rest ∧ r.nextFrame = (some f, ⟨rest⟩) ∧
      rest ++ more <+: fs'.flatMap Frame.wire := by
  rw [nextFrame, nextLoop_eq]
  rcases next_wires hfs h with hn | ⟨f, fs', rest, rfl, hbuf, hn, hrest⟩
  · exact .inl (by rw [hn])
  · exact .inr ⟨f, fs', rest, rfl, hbuf, by rw [hn], hrest⟩

/-- A frame the loop returns has a payload that fits the 16-bit limit. -/
theorem nextLoop_payload_le : ∀ {buf rest : List UInt8} {f : OwnedFrame},
    nextLoop buf = (some f, rest) → f.payload.length ≤ 0xFFFF
  | [], _, _, h => nomatch h
  | b :: bs, _, f, h => by
      rw [nextLoop] at h
      split at h
      · rename_i g used hd
        obtain ⟨hg, -⟩ := Prod.mk.inj h
        cases hg
        exact (decode_payload_le hd).1
      · exact nomatch (Prod.mk.inj h).1
      · exact nextLoop_payload_le h

theorem nextFrame_payload_le {r r' : FrameReader} {f : OwnedFrame}
    (h : r.nextFrame = (some f, r')) : f.payload.length ≤ 0xFFFF :=
  nextLoop_payload_le (Prod.ext (Prod.mk.inj h).1 rfl)

/-! ## Callers of the reader -/

/-- What a caller does: feed a chunk, or ask for the next frame. -/
inductive Call where
  | feed (chunk : List UInt8)
  | nextFrame
  deriving DecidableEq, Repr

/-- The bytes a list of calls feeds. -/
def fed : List Call → List UInt8
  | [] => []
  | .feed chunk :: calls => chunk ++ fed calls
  | .nextFrame :: calls => fed calls

/-- The frames the calls return, in order, and the reader they leave. -/
def run : FrameReader → List Call → List OwnedFrame × FrameReader
  | r, [] => ([], r)
  | r, .feed chunk :: calls => run (r.feed chunk) calls
  | r, .nextFrame :: calls =>
      match r.nextFrame with
      | (some f, r') => (f :: (run r' calls).1, (run r' calls).2)
      | (none, r') => run r' calls

/-- At most `k` turns of `while let Some(frame) = reader.next_frame()`. -/
def drainN : Nat → FrameReader → List OwnedFrame × FrameReader
  | 0, r => ([], r)
  | k + 1, r =>
      match r.nextFrame with
      | (some f, r') => (f :: (drainN k r').1, (drainN k r').2)
      | (none, r') => ([], r')

/-- `while let Some(frame) = reader.next_frame()`: the frames until the first
`None`, and the reader then.  A frame uses at least one byte, so the loop is
over after one turn more than there are bytes. -/
def drain (r : FrameReader) : List OwnedFrame × FrameReader := drainN (r.buf.length + 1) r

/-- The caller's alphabet is the scanner's. -/
def Call.toOp : Call → Scanner.Op UInt8
  | .feed chunk => .feed chunk
  | .nextFrame => .read

theorem fed_toOp : ∀ calls : List Call, Scanner.fed (calls.map Call.toOp) = fed calls
  | [] => rfl
  | .feed chunk :: calls => congrArg (chunk ++ ·) (fed_toOp calls)
  | .nextFrame :: calls => fed_toOp calls

theorem run_eq : ∀ (calls : List Call) (r : FrameReader),
    run r calls = ((codec.runOps r.buf (calls.map Call.toOp)).1,
      { buf := (codec.runOps r.buf (calls.map Call.toOp)).2 })
  | [], _ => rfl
  | .feed chunk :: calls, r => by
      rw [run, run_eq calls]
      rfl
  | .nextFrame :: calls, r => by
      cases h : codec.next r.buf with
      | mk o rest =>
        have hn : r.nextFrame = (o, { buf := rest }) := by
          rw [nextFrame, nextLoop_eq, h]
        cases o with
        | none =>
            simp only [run, hn, run_eq calls, List.map_cons, Call.toOp, Scanner.runOps, h]
        | some f =>
            simp only [run, hn, run_eq calls, List.map_cons, Call.toOp, Scanner.runOps, h]

theorem drainN_eq : ∀ (k : Nat) (r : FrameReader),
    drainN k r = ((codec.drainN k r.buf).1, { buf := (codec.drainN k r.buf).2 })
  | 0, _ => rfl
  | k + 1, r => by
      cases h : codec.next r.buf with
      | mk o rest =>
        have hn : r.nextFrame = (o, { buf := rest }) := by
          rw [nextFrame, nextLoop_eq, h]
        cases o with
        | none => simp only [drainN, hn, Scanner.drainN, h]
        | some f => simp only [drainN, hn, drainN_eq k, Scanner.drainN, h]

theorem drain_eq (r : FrameReader) :
    r.drain = ((codec.drain r.buf).1, { buf := (codec.drain r.buf).2 }) :=
  drainN_eq _ r

/-- **The reader is independent of chunking.**  Whatever the chunks and
wherever `next_frame` is called between them, once it is finally called until
it returns `None`, the frames returned and the buffer left are those of feeding
all the bytes at once and draining. -/
theorem run_drain_chunks (calls : List Call) :
    ((run new calls).1 ++ (run new calls).2.drain.1, (run new calls).2.drain.2)
      = (new.feed (fed calls)).drain := by
  have h := codec.runOps_drain (calls.map Call.toOp) []
  rw [fed_toOp, List.nil_append] at h
  rw [run_eq, drain_eq, drain_eq]
  show _ = ((codec.drain (fed calls)).1, (⟨(codec.drain (fed calls)).2⟩ : FrameReader))
  rw [← h]
  rfl

end FrameReader

end FlipLink
